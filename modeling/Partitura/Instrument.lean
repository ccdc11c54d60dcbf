import Partitura.Number.Double

/-!
# Instruments
-/

namespace Partitura

open Number

inductive Style
  | standard | tab | grid
  deriving DecidableEq, Repr

namespace Style

def all : List Style := [standard, tab, grid]

def text : Style → String
  | standard => "standard"
  | tab => "tab"
  | grid => "grid"

def ofText? (s : String) : Option Style := all.find? (·.text == s)

end Style

/-- What a percussion symbol stands for: a pitch, or a place on the staff and a pitch. -/
inductive DrumNote
  | plain (midi : Int)
  | placed (position midi : Int)
  deriving DecidableEq, Repr

def DrumNote.midi : DrumNote → Int
  | plain m => m
  | placed _ m => m

abbrev DrumMap := List (String × DrumNote)

structure Instrument where
  id : String
  label : String
  group : Option String := none
  style : Style := .standard
  clef : Option String := none
  transpose : Option Int := none
  /-- Open strings, the lowest first. -/
  tuning : Option (List String) := none
  map : Option DrumMap := none
  patch : Option String := none
  volume : Option Double := none
  pan : Option Double := none
  deriving DecidableEq, Repr

structure Group where
  label : String
  attributes : List (String × String) := []
  members : List String := []
  deriving DecidableEq, Repr

def generalDrums : DrumMap := [
  ("k", .plain 36), ("s", .plain 38), ("ss", .plain 37), ("h", .plain 42), ("ho", .plain 46),
  ("ph", .plain 44), ("c", .plain 49), ("r", .plain 51), ("rb", .plain 53), ("t1", .plain 50),
  ("t2", .plain 47), ("t3", .plain 43)]

def guitarStrings : List String := ["E2", "A2", "D3", "G3", "B3", "E4"]

end Partitura
