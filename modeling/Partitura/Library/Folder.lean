import Partitura.Files
import Partitura.Library.Shipped
import Partitura.Text.Utf8
import Partitura.Yaml.Reader

/-!
# Libraries in folders

A library folder has its kits and tunings in folders of those names, one document a file. Files
that are no YAML, or hold no mapping, are passed over; bytes that are no text are a fault.
-/

namespace Partitura

open Text Yaml

/-- The document in a file, if the file is one to load. Its text is read as far as it is
needed, but some of it always. -/
def readEntry (bytes : List UInt8) : Except Fault (Option Node) := do
  let loaded := Text.load bytes
  if let some f := loaded.fault then
    if loaded.text.length < 2 * Text.portion then throw f
  match Yaml.read loaded.text loaded.fault with
  | .ok (.mapping es) => return some (.mapping es)
  | .ok _ => return none
  | .error (.fault f) => throw f
  | .error _ => return none

def entriesIn (fs : Files) (folder : Path) : List (Except Fault Node) :=
  match fs.names folder ".yaml" with
  | .error f => [.error f]
  | .ok names =>
    names.filterMap fun name =>
      match fs.find (folder.entry name) with
      | .file bytes =>
        match readEntry bytes with
        | .ok (some n) => some (.ok n)
        | .ok none => none
        | .error f => some (.error f)
      | _ => none

def Shelf.ofFolder (fs : Files) (folder : Path) : Shelf where
  kits := entriesIn fs (folder.entry "kits")
  tunings := entriesIn fs (folder.entry "tunings")

def Shelf.append (s t : Shelf) : Shelf := ⟨s.kits ++ t.kits, s.tunings ++ t.tunings⟩

structure Sources where
  /-- A folder in the place of the shipped library. -/
  library : Option Path := none
  /-- A folder that is read after the library. -/
  project : Option Path := none

def Sources.shelf (s : Sources) (fs : Files) : Shelf :=
  let library := match s.library with
    | some folder => Shelf.ofFolder fs folder
    | none => .shipped
  match s.project with
  | some folder => library.append (.ofFolder fs folder)
  | none => library

namespace Library

/-- A library of which nothing is loaded. -/
def ofSources (s : Sources) (fs : Files) : Library := { shelf := s.shelf fs }

/-- The same library after its files may have changed. What was loaded stays. -/
def refresh (s : Sources) (fs : Files) (l : Library) : Library := { l with shelf := s.shelf fs }

end Library

end Partitura
