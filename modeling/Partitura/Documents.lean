import Partitura.Compile
import Partitura.Library.Folder

/-!
# Documents

Named sources, each with the last score that was compiled from it. A source that does not
compile leaves the score before it in place. Sources also lie in a folder, one a file, and are
loaded when they are asked for.
-/

namespace Partitura

open Text

structure Document where
  name : String
  source : String
  score : Option Score := none
  notices : Notices := []
  /-- Why the source gave no score. -/
  error : Option String := none
  path : Option Path := none

namespace Document

/-- Whether the score is older than the source. -/
def isStale (d : Document) : Bool := d.error.isSome

def settle (d : Document) : Except Failure Compiled → Document
  | .ok c => { d with score := some c.score, notices := c.notices, error := none }
  | .error (.strict ns) => { d with notices := ns, error := some (Failure.strict ns).message }
  | .error (.internal f) => { d with error := some (Failure.internal f).message }

/-- The document with a new source, and a new path if one is given. -/
def replace (d : Document) (source : String) (path : Option Path) : Document :=
  { d with source, path := path <|> d.path }

end Document

structure Documents where
  files : Files
  /-- The folder of the sources. -/
  folder : Path
  sources : Sources := {}
  options : Options := {}
  library : Library
  /-- In the order in which they came. -/
  held : List (String × Document) := []

structure Listing where
  name : String
  path : Option Path
  loaded : Bool
  deriving DecidableEq, Repr

def Listing.text (l : Listing) : String :=
  "DocumentMetadata(" ++ quoted l.name ++ ", loaded=" ++ (if l.loaded then "True" else "False")
    ++ ")"

namespace Documents

def suffix : String := ".omni"

def write (names : List String) (bytes : List UInt8) (ds : Documents) : Documents :=
  let files := ds.files.write names bytes
  { ds with files, library := ds.library.refresh ds.sources files }

/-- Take a new source and what came of compiling it. -/
def record (name source : String) (path : Option Path) (outcome : Except Failure Compiled)
    (held : List (String × Document)) : Document × List (String × Document) :=
  let d := ((get? name held).getD { name, source }).replace source path
  let d := d.settle outcome
  (d, put name d held)

def update (name source : String) (path : Option Path) (ds : Documents) : Document × Documents :=
  let (outcome, library) := compile ds.options ds.library source
  let (d, held) := record name source path outcome ds.held
  (d, { ds with library, held })

/-- Load a source file, by default under the stem of its name. -/
def load (path : Path) (name : Option String) (ds : Documents) :
    Except Fault (Document × Documents) := do
  let source ← decodeUtf8 (← ds.files.read path)
  let name := match name with
    | none | some "" => path.stem
    | some name => name
  return ds.update name (.ofList (unixLines source)) (some path)

def fileOf (name : String) (ds : Documents) : Path :=
  let safe := name.toList.map fun c => if c = ' ' ∨ c = '/' then '_' else c
  ds.folder.entry (String.ofList safe ++ suffix)

def get? (name : String) (ds : Documents) : Except Fault (Option Document × Documents) := do
  match Partitura.get? name ds.held with
  | some d => return (some d, ds)
  | none =>
    if ← ds.files.isThere (ds.fileOf name) then
      let (d, ds) ← ds.load (ds.fileOf name) (some name)
      return (some d, ds)
    else return (none, ds)

def require (name : String) (ds : Documents) : Except Fault (Document × Documents) := do
  match ← ds.get? name with
  | (some d, ds) => return (d, ds)
  | (none, _) => throw (.noDocument name)

/-- All documents at hand and all source files, by name. A name stands for one document, so a
file is not listed if its stem is the name of one at hand or of a file before it. -/
def list (ds : Documents) : Except Fault (List Listing) := do
  let held := ds.held.map fun (name, d) => Listing.mk name d.path true
  let files := (← ds.files.names ds.folder suffix).map fun file =>
    Listing.mk (Path.stemOf file) (some (ds.folder.entry file)) false
  let fresh := files.filter fun l => (Partitura.get? l.name ds.held).isNone
  return (held ++ fresh.eraseDupsBy (·.name == ·.name)).mergeSort fun l m => l.name ≤ m.name

end Documents

end Partitura
