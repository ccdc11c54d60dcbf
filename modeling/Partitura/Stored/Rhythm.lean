import Partitura.Data.Order
import Partitura.Data.Shown
import Partitura.TimeSignature
import Partitura.Token.LineMap

/-!
# Rhythm from plain data

Note values, time signatures and offsets that are given as data and may be any number. Whole
ones give what a compiled score has.
-/

namespace Partitura

open Number

def quartersOver (denominator : Data) : Except Fault Rat := do
  match ← denominator.quantity with
  | .whole n =>
    if n = 0 then throw (.zeroDenominator 4)
    return mkRat (if n < 0 then -4 else 4) n.natAbs
  | .real _ => throw .unsupported

/-- The whole ticks of a number of quarters, a remainder dropped. -/
def ticksOf (quarters : Rat ⊕ Double) (perQuarter : Data) : Except Fault Int := do
  let n ← perQuarter.quantity
  match quarters with
  | .inl q => Quantity.truncate (← n.scale q)
  | .inr x =>
    let y ← n.toDouble
    Quantity.truncate (.inr (x.mul y))

namespace Duration

def dots? : Data → Except Fault (Option Nat)
  | .scalar s => .ok (([0, 1, 2] : List Nat).find? fun n => s.alike false (.int n))
  | _ => .error .unsupported

def ofValue (denominator dots : Data) : Except Fault Duration := do
  if ← denominator.atMost (.int 0) then throw (.about .badDenominator denominator.shown)
  match ← dots? dots with
  | none => throw (.about .tooManyDots dots.shown)
  | some n => make ((← quartersOver denominator) * dotFactor n)

end Duration

namespace Stored

/-- A time signature whose numbers are taken as they come. -/
structure TimeSignature where
  numerator : Data
  denominator : Data

namespace TimeSignature

def make (numerator denominator : Data) : Except Fault TimeSignature := do
  if ← numerator.atMost (.int 0) then throw (.about .badNumerator numerator.shown)
  if ← denominator.atMost (.int 0) then throw (.about .badDenominator denominator.shown)
  return ⟨numerator, denominator⟩

def quarters (t : TimeSignature) : Except Fault (Rat ⊕ Double) := do
  let q ← quartersOver t.denominator
  (← t.numerator.quantity).scale q

def text (t : TimeSignature) : Except Fault String := do
  let n ← t.numerator.shown
  return n ++ "/" ++ (← t.denominator.shown)

end TimeSignature

end Stored

def TimeSignature.stored (t : TimeSignature) : Stored.TimeSignature :=
  ⟨.int t.numerator, .int t.denominator⟩

/-- The line and column of an offset; none for one before the text. -/
def LineMap.locateAt (m : LineMap) (offset : Data) : Except Fault (Option (Nat × Data)) := do
  let o ← offset.quantity
  if o.less (.whole 0) then return none
  let before := m.starts.takeWhile fun (n : Nat) => !o.less (.whole n)
  let column ← (← o.sub (.whole (before.getLast?.getD 0))).add (.whole 1)
  return some (before.length, .ofQuantity column)

end Partitura
