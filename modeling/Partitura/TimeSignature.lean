import Partitura.Fault
import Partitura.Text.Cut
import Partitura.Duration

/-!
# Time signatures
-/

namespace Partitura

open Number Text

structure TimeSignature where
  numerator : Int
  denominator : Int
  numerator_pos : 0 < numerator
  denominator_pos : 0 < denominator

namespace TimeSignature

def make (numerator denominator : Int) : Except Fault TimeSignature :=
  if hn : 0 < numerator then
    if hd : 0 < denominator then .ok ⟨numerator, denominator, hn, hd⟩
    else .error (.about .badDenominator (writeInt denominator))
  else .error (.about .badNumerator (writeInt numerator))

def common : TimeSignature := ⟨4, 4, by decide, by decide⟩

def quarters (t : TimeSignature) : Rat := t.numerator * mkRat 4 t.denominator.natAbs

/-- Whole ticks in one measure, a remainder dropped. -/
def ticks (t : TimeSignature) (perQuarter : Int := ticksPerQuarter) : Int :=
  truncate (t.quarters * perQuarter)

def text (t : TimeSignature) : Except Fault String := do
  return (← writeInt t.numerator) ++ "/" ++ (← writeInt t.denominator)

def read (s : String) : Except Fault TimeSignature :=
  match pieces '/' (trimBy isBlank s.toList) with
  | [n, d] => do make (← readInt (.ofList n)) (← readInt (.ofList d))
  | _ => .error (.badSignature s)

end TimeSignature

end Partitura
