import Partitura.Data.Order
import Partitura.Data.Shown
import Partitura.Instrument
import Partitura.Pitch

/-!
# Pitches from plain data

Octaves and steps that are given as data and may be any number. Whole ones give what the
pitches of a compiled score have.
-/

namespace Partitura

open Number

def Letter.midiAt (l : Letter) (octave : Quantity) : Except Fault Quantity := do
  (Quantity.whole l.semitones).add (← (← octave.add (.whole 1)).mul (.whole 12))

def Pitch.readAt (s : String) (octave : Data) : Except Fault (Option (Pitch × Data)) :=
  match written? s with
  | none => .ok none
  | some w => do
    let o := match ← w.octave? with
      | some n => .int n
      | none => octave
    let midi ← w.letter.midiAt (← o.quantity)
    let q ← match ← midi.shift (← Accidental.total w.marks) with
      | .inl q => pure q
      | .inr x => ofDouble x
    return some (ofSemitones q, o)

namespace Stored

/-- A pitch whose semitone and cents are taken as they come. -/
structure Pitch where
  midi : Data
  cents : Data := .int 0

namespace Pitch

/-- A pitch from one or two numbers. -/
def ofItems : List Data → Except Fault Pitch
  | [midi] => .ok { midi }
  | [midi, cents] => .ok { midi, cents }
  | _ => .error .unsupported

def less (p q : Pitch) : Except Fault Bool :=
  if p.midi.same q.midi then
    if p.cents.same q.cents then .ok false else p.cents.less q.cents
  else p.midi.less q.midi

def text (p : Pitch) : Except Fault String := do
  let m ← p.midi.shown
  if p.cents.truthy then return "midi:" ++ m ++ "+" ++ (← p.cents.shown) ++ "c"
  return "midi:" ++ m

end Pitch

end Stored

def Pitch.stored (p : Pitch) : Stored.Pitch := ⟨.int p.midi, .int p.cents⟩

/-- The pitch some semitones higher. -/
def Pitch.transposeBy (p : Pitch) (semitones : Data) : Except Fault Stored.Pitch := do
  return ⟨.ofQuantity (← (Quantity.whole p.midi).add (← semitones.quantity)), .int p.cents⟩

end Partitura
