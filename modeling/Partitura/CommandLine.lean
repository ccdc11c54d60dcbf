import Partitura.Data
import Partitura.Fault
import Partitura.Number.Numeral
import Partitura.Path
import Partitura.Text.Digit

/-!
# The command line

Switches can be shortened as long as they stay clear, and take their value from the same
argument, behind an equals sign, or from the next one. Folders come from the command line, else
from the environment, else from the base folder.
-/

namespace Partitura.CommandLine

open Number Text

inductive Transport
  | stdio | http
  deriving DecidableEq, Repr

namespace Transport

def all : List Transport := [stdio, http]

def text : Transport → String
  | stdio => "stdio"
  | http => "http"

def ofText? (s : String) : Option Transport := all.find? (·.text == s)

end Transport

structure Settings where
  transport : Transport := .stdio
  port : Int := 8000
  scores : Option Path := none
  library : Option Path := none
  debug : Bool := false
  deriving DecidableEq, Repr

/-- Why the program ends before it starts. -/
inductive Halt
  | help | misuse
  deriving DecidableEq, Repr

def Halt.code : Halt → Nat
  | help => 0
  | misuse => 2

inductive Switch
  | help | transport | port | scores | library | debug
  deriving DecidableEq, Repr

namespace Switch

def spellings : List (String × Switch) :=
  [("--help", help), ("--transport", transport), ("--port", port), ("--scores-dir", scores),
    ("--library-dir", library), ("--debug", debug)]

def takesValue : Switch → Bool
  | help | debug => false
  | _ => true

def set (value : String) (s : Settings) : Switch → Except Halt Settings
  | transport =>
    match Transport.ofText? value with
    | some t => .ok { s with transport := t }
    | none => .error .misuse
  | port =>
    match readInt value with
    | .ok n => .ok { s with port := n }
    | .error _ => .error .misuse
  | scores => .ok { s with scores := some (.ofText value) }
  | library => .ok { s with library := some (.ofText value) }
  | debug => .ok { s with debug := true }
  | help => .error .help

end Switch

/-! ## Arguments -/

inductive Role
  | plain
  /-- A switch, and what stands behind its equals sign. -/
  | long (s : Switch) (value : Option String)
  /-- The short switch for help, and what stands right behind it. -/
  | short (more : List Char)
  | unknown
  deriving DecidableEq, Repr

/-- Digits, perhaps around a point, behind a minus sign. -/
def isNegative (cs : List Char) : Bool :=
  let digits (ds : List Char) : Bool := !ds.isEmpty && ds.all isDigit
  match cs with
  | '-' :: rest =>
    match cutAt '.' (chomp rest) with
    | (ds, none) => digits ds
    | (ds, some es) => (ds.isEmpty || digits ds) && digits es
  | _ => false

def longRole (cs : List Char) : Except Halt Role :=
  let (name, value) := cutAt '=' cs
  let value := value.map String.ofList
  match get? (String.ofList name) Switch.spellings with
  | some s => .ok (.long s value)
  | none =>
    match Switch.spellings.filter fun (t, _) => name.isPrefixOf t.toList with
    | [(_, s)] => .ok (.long s value)
    | _ :: _ :: _ => .error .misuse
    | [] => .ok (if cs.contains ' ' then .plain else .unknown)

def role (arg : String) : Except Halt Role :=
  match arg.toList with
  | '-' :: '-' :: cs => longRole ('-' :: '-' :: cs)
  | '-' :: 'h' :: cs => .ok (.short cs)
  | '-' :: c :: cs =>
    .ok (if isNegative ('-' :: c :: cs) || (c :: cs).contains ' ' then .plain else .unknown)
  | _ => .ok .plain

/-- What all arguments are. Behind a bare pair of strokes, which is none of use itself, nothing
is a switch. -/
def roles : List String → Except Halt (List (Role × String))
  | [] => .ok []
  | "--" :: args => .ok ((.unknown, "--") :: args.map fun a => (.plain, a))
  | a :: args => do return (← role a, a) :: (← roles args)

/-- What comes of the characters right behind the short switch for help: only the same switch
again may follow, perhaps behind an equals sign. -/
def behindHelp (more : List Char) : Halt :=
  let again (cs : List Char) : Bool := cs.all (· = 'h')
  match more with
  | '=' :: cs => if !cs.isEmpty && again cs then .help else .misuse
  | cs => if again cs then .help else .misuse

/-- Go through the arguments; `stray` says whether one had no meaning. Help comes at once, stray
arguments are an error at the end. -/
def settle (stray : Bool) (s : Settings) : List (Role × String) → Except Halt Settings
  | [] => if stray then .error .misuse else .ok s
  | (.plain, _) :: rest => settle true s rest
  | (.unknown, _) :: rest => settle true s rest
  | (.short more, _) :: _ => .error (behindHelp more)
  | (.long w (some value), _) :: rest => do
    if w.takesValue then settle stray (← w.set value s) rest else throw .misuse
  | (.long w none, _) :: rest => do
    if w.takesValue then
      match rest with
      | (.plain, value) :: rest => settle stray (← w.set value s) rest
      | _ => throw .misuse
    else settle stray (← w.set "" s) rest

def settings (args : List String) : Except Halt Settings := do
  settle false {} (← roles args)

/-! ## Folders -/

structure Surroundings where
  /-- The current folder. -/
  here : Path
  home : Path
  /-- The home folders of others by their names. -/
  homes : List (String × Path) := []
  values : List (String × String) := []

def scoresVariable : String := "OMNISCORE_SCORES_DIR"

def libraryVariable : String := "OMNISCORE_LIBRARY_DIR"

def homeVariable : String := "HOME"

namespace Surroundings

/-- No variable can hold the character that would end it. -/
def check (w : Surroundings) : Except Fault Unit :=
  if w.values.any fun (_, s) => s.contains (Char.ofNat 0) then .error .badPath else .ok ()

/-- The home folder that a name behind a tilde stands for; no name is one's own. -/
def homeOf (w : Surroundings) (name : List Char) : Except Fault Path :=
  if name.isEmpty then
    match get? homeVariable w.values with
    | none => .ok w.home
    | some s =>
      if s.startsWith "~" then .error .noHome
      else if s.isEmpty then .ok (.ofText "/")
      else .ok (.ofText s)
  else
    match get? (String.ofList name) w.homes with
    | some p => .ok p
    | none => .error .noHome

/-- A path in which a tilde in front has become a home folder. -/
def expand (w : Surroundings) (p : Path) : Except Fault Path :=
  match p.lead, p.names with
  | "", name :: names =>
    match name.toList with
    | '~' :: cs => do return (← w.homeOf cs).join ⟨"", names⟩
    | _ => .ok p
  | _, _ => .ok p

/-- A folder of the command line, from the top. -/
def resolve (w : Surroundings) (p : Path) : Except Fault Path := do
  if p.text.contains (Char.ofNat 0) then throw .badPath
  return w.here.resolve (← w.expand p)

/-- The folder in a variable, or else one of the base folder. -/
def folder (w : Surroundings) (base : Path) (name default : String) : Path :=
  match get? name w.values with
  | none | some "" => base.entry default
  | some s => .ofText s

end Surroundings

structure Launch where
  settings : Settings
  scores : Path
  library : Path

/-- Find the folders; those of the command line come before those of the environment. -/
def launch (w : Surroundings) (base : Path) (s : Settings) : Except Fault Launch := do
  let choose (given : Option Path) (name default : String) : Except Fault Path :=
    match given with
    | some p => w.resolve p
    | none => .ok (w.folder base name default)
  return {
    settings := s
    scores := ← choose s.scores scoresVariable "scores"
    library := ← choose s.library libraryVariable "library" }

end Partitura.CommandLine
