import Partitura.Data
import Partitura.Instrument
import Partitura.Modifier
import Partitura.Pitch
import Partitura.TimeSignature

/-!
# Scores

A header, instruments and their groups, and a timeline of events in ticks.
-/

namespace Partitura

open Number

structure Header where
  title : String := "Untitled"
  composer : String := "Unknown"
  /-- Quarters in a minute. -/
  tempo : Int := 120
  key : String := "C"
  time : Int × Int := (4, 4)
  extra : List (String × String) := []
  deriving DecidableEq, Repr

/-- The time signature; common time where the two numbers make none. -/
def Header.signature (h : Header) : TimeSignature :=
  match TimeSignature.make h.time.1 h.time.2 with
  | .ok t => t
  | .error _ => .common

inductive EventKind
  | note | rest | chord
  deriving DecidableEq, Repr

namespace EventKind

def all : List EventKind := [note, rest, chord]

def text : EventKind → String
  | note => "note"
  | rest => "rest"
  | chord => "chord"

def ofText? (s : String) : Option EventKind := all.find? (·.text == s)

end EventKind

structure Event where
  kind : EventKind
  pitches : List Pitch
  /-- In quarters. -/
  duration : Rat
  start : Int
  stop : Int
  velocity : Scalar
  instrument : String
  voice : String
  modifiers : List Modifier := []
  /-- The measure it was written in. -/
  measure : Option Int := none
  deriving DecidableEq, Repr

namespace Event

/-- An event passes if it does not end before it starts and does not last less than nothing. -/
def check (e : Event) : Except Fault Event :=
  if e.stop < e.start then
    .error (.about (fun stop => .about (.endsBeforeStart · stop) (writeInt e.start))
      (writeInt e.stop))
  else if e.duration < 0 then .error (.about .negativeLength (writeFraction e.duration))
  else .ok e

def isGrace (e : Event) : Bool := e.modifiers.any (·.kind == .grace)

def hasModifier (name : String) (e : Event) : Bool := e.modifiers.any (·.name == name)

end Event

structure Score where
  header : Header := {}
  instruments : List Instrument := []
  groups : List Group := []
  timeline : List Event := []
  durationTicks : Int := 0
  ticksPerQuarter : Int := Partitura.ticksPerQuarter
  deriving DecidableEq, Repr

end Partitura
