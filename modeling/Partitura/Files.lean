import Partitura.Fault
import Partitura.Path

/-!
# Files

The files below one root folder. A folder exists if it is the root or some file lies in it.
-/

namespace Partitura

structure Files where
  root : Path
  files : List (List String × List UInt8) := []

inductive Found
  | file (bytes : List UInt8)
  /-- A folder, with its names if it lies below the root. -/
  | folder (names : Option (List String))
  | missing
  /-- The path runs through a file. -/
  | blocked
  /-- The path or a name in it is longer than any can be. -/
  | tooLong
  /-- A name holds the one character that no name can hold. -/
  | unnameable

namespace Files

def nameLimit : Nat := 255

def pathLimit : Nat := 4095

/-- Write a file, in the place of an older one of the same names. -/
def write (names : List String) (bytes : List UInt8) (fs : Files) : Files :=
  if fs.files.any (·.1 == names) then
    { fs with files := fs.files.map fun (p, b) => if p == names then (p, bytes) else (p, b) }
  else { fs with files := fs.files ++ [(names, bytes)] }

def bytes? (fs : Files) (names : List String) : Option (List UInt8) :=
  (fs.files.find? (·.1 == names)).map (·.2)

def isFolder (fs : Files) (names : List String) : Bool :=
  names.isEmpty || fs.files.any fun (p, _) => names.isPrefixOf p && p != names

/-- What lies at the end of a row of names; `here` are those gone through. -/
def walk (fs : Files) (here : List String) : List String → Found
  | [] =>
    match fs.bytes? here with
    | some b => .file b
    | none => if fs.isFolder here then .folder (some here) else .missing
  | name :: rest =>
    if fs.isFolder here then
      if nameLimit < name.utf8ByteSize then .tooLong
      else if name ≠ ".." then fs.walk (here ++ [name]) rest
      else if !here.isEmpty then fs.walk here.dropLast rest
      else if rest.isEmpty then .folder none
      else .missing
    else if (fs.bytes? here).isSome then .blocked
    else .missing

/-- What lies at the end of a path. Outside the root there are no files. -/
def find (fs : Files) (path : Path) : Found :=
  if path.text.contains (Char.ofNat 0) then .unnameable
  else if pathLimit < path.text.utf8ByteSize then .tooLong
  else if path.lead = fs.root.lead ∧ fs.root.names.isPrefixOf path.names then
    fs.walk [] (path.names.drop fs.root.names.length)
  else if path.names.isEmpty then .folder none
  else .missing

def names (fs : Files) (folder : Path) (suffix : String) : Except Fault (List String) :=
  match fs.find folder with
  | .folder (some here) =>
    let below := fs.files.filterMap fun (p, _) =>
      if here.isPrefixOf p then (p.drop here.length).head? else none
    .ok ((below.eraseDups.filter (·.endsWith suffix)).mergeSort (· ≤ ·))
  | .tooLong => .error (.nameTooLong folder.text)
  | _ => .ok []

def isThere (fs : Files) (path : Path) : Except Fault Bool :=
  match fs.find path with
  | .file _ | .folder _ => .ok true
  | .missing | .blocked | .unnameable => .ok false
  | .tooLong => .error (.nameTooLong path.text)

def read (fs : Files) (path : Path) : Except Fault (List UInt8) :=
  match fs.find path with
  | .file b => .ok b
  | .folder _ => .error (.isFolder path.text)
  | .missing => .error (.noSuchFile path.text)
  | .blocked => .error (.notAFolder path.text)
  | .tooLong => .error (.nameTooLong path.text)
  | .unnameable => .error .badPath

end Files

end Partitura
