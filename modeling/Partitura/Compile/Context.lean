import Partitura.Compile.Issue
import Partitura.Compile.Options
import Partitura.Library
import Partitura.Timeline
import Partitura.Token

/-!
# The state of a compilation

Tables of what was declared so far, the cursor of every voice, the timeline, and what was
found wrong. A run that fails keeps the state it had reached.
-/

namespace Partitura

variable {P : Type}

/-- A macro: its body is put in place of a call, with arguments in place of parameters. -/
structure Macro (P : Type) where
  name : String
  params : List String
  body : List (Token P)
  deriving DecidableEq

/-- What a voice remembers from one event to the next. -/
structure Cursor where
  octave : Int := Pitch.defaultOctave
  /-- In quarters. -/
  duration : Rat := 1
  /-- The end of the last event. -/
  tick : Int := 0
  deriving DecidableEq, Repr

structure VoiceKey where
  instrument : String
  voice : String
  deriving DecidableEq, Repr

structure Context (P : Type) where
  options : Options
  library : Library
  header : Header := {}
  macros : List (String × Macro P) := []
  instruments : List Instrument := []
  groups : List Group := []
  cursors : List (VoiceKey × Cursor) := []
  timeline : Timeline
  /-- The newest first. -/
  reports : List (Report P) := []
  /-- Issues that are reported once only, and were. -/
  once : List Issue := []
  /-- Macro calls that were expanded. -/
  expansions : Nat := 0

namespace Context

def start (options : Options) (library : Library) : Context P :=
  { options, library, timeline := { room := options.maxEvents } }

def instrument? (c : Context P) (id : String) : Option Instrument :=
  c.instruments.find? (·.id == id)

def defines (c : Context P) (id : String) : Bool := c.instruments.any (·.id == id)

/-- The cursor of a voice, a fresh one if it has none. -/
def cursor (c : Context P) (key : VoiceKey) : Cursor :=
  ((c.cursors.find? (·.1 == key)).map (·.2)).getD {}

def hasCursor (c : Context P) (key : VoiceKey) : Bool := c.cursors.any (·.1 == key)

/-- Set the cursor of a voice: in its place, or at the end. -/
def setCursor (key : VoiceKey) (cursor : Cursor) :
    List (VoiceKey × Cursor) → List (VoiceKey × Cursor)
  | [] => [(key, cursor)]
  | (k, old) :: rest =>
    if k = key then (k, cursor) :: rest else (k, old) :: setCursor key cursor rest

end Context

/-- Where reading stood when a run failed. -/
inductive Place
  /-- Behind the declaration. -/
  | behind
  /-- Behind so many tokens of it. -/
  | reached (tokens : Nat)
  /-- Before so many tokens of the text. -/
  | unread (tokens : Nat)
  deriving DecidableEq, Repr

structure Stop where
  fault : Fault
  place : Place := .behind
  deriving DecidableEq, Repr

/-- A step of a compilation. -/
abbrev Run (P : Type) := EStateM Stop (Context P)

namespace Run

def placed {α : Type} (place : Place) (x : Run P α) : Run P α :=
  EStateM.adaptExcept (fun s => { s with place }) x

def lift {α : Type} : Except Fault α → Run P α
  | .ok x => pure x
  | .error f => throw { fault := f }

def report (issue : Issue) (t : Option (Token P)) : Run P Unit :=
  modify fun c => { c with reports := ⟨issue, t.map Token.pos⟩ :: c.reports }

def reportOnce (issue : Issue) (t : Option (Token P)) : Run P Unit := do
  if issue ∈ (← get).once then return
  modify fun c => { c with once := issue :: c.once }
  report issue t

def modifyCursor (key : VoiceKey) (f : Cursor → Cursor) : Run P Unit :=
  modify fun c => { c with cursors := Context.setCursor key (f (c.cursor key)) c.cursors }

end Run

end Partitura
