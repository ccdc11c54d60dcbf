import Partitura.Fault
import Partitura.Text.Cut
import Partitura.Number.Fraction

/-!
# Durations

Lengths in quarter notes, as exact fractions. A duration is written as a note value with up to
two dots: `8`, `4.`, `2..`; names of modifiers may follow behind one more dot.
-/

namespace Partitura

open Number Text

def ticksPerQuarter : Int := 1920

structure Duration where
  quarters : Rat
  nonneg : 0 ≤ quarters

namespace Duration

instance : DecidableEq Duration := fun a b =>
  if h : a.quarters = b.quarters then
    isTrue (by cases a; cases b; simp_all)
  else isFalse (fun e => h (congrArg quarters e))

def make (quarters : Rat) : Except Fault Duration :=
  if h : 0 ≤ quarters then .ok ⟨quarters, h⟩
  else .error (.about .negativeDuration (writeFraction quarters))

/-- What one, two or no dots multiply a note value by. -/
def dotFactor : Nat → Rat
  | 0 => 1
  | 1 => 3 / 2
  | _ => 7 / 4

/-- The length of a note value: four quarters over the denominator, lengthened by dots. -/
def ofDenominator (denominator dots : Int) : Except Fault Duration :=
  if denominator ≤ 0 then .error (.about .badDenominator (writeInt denominator))
  else if dots < 0 ∨ 2 < dots then .error (.about .tooManyDots (writeInt dots))
  else make (mkRat 4 denominator.natAbs * dotFactor dots.toNat)

/-- Whole ticks, a remainder dropped. -/
def ticks (d : Duration) (perQuarter : Int := ticksPerQuarter) : Int :=
  truncate (d.quarters * perQuarter)

def names : List (Rat × String) := [
  (4, "whole"), (2, "half"), (1, "quarter"), (1 / 2, "eighth"), (1 / 4, "sixteenth"),
  (3, "dotted half"), (3 / 2, "dotted quarter"), (3 / 4, "dotted eighth"), (0, "grace")]

def text (d : Duration) : Except Fault String :=
  match names.find? (·.1 = d.quarters) with
  | some (_, name) => .ok name
  | none => do return (← writeFraction d.quarters) ++ " quarters"

/-- The dots and the modifier text behind the digits of a written duration. -/
def suffix? (cs : List Char) : Option (Nat × List Char) :=
  let dots := (cs.takeWhile (· == '.')).length
  match cs.dropWhile (· == '.') with
  | [] => if dots ≤ 2 then some (dots, []) else none
  | c :: rest =>
    if 1 ≤ dots ∧ dots ≤ 3 ∧ c.isAlpha ∧ '\n' ∉ rest then some (dots - 1, c :: rest) else none

/-- Read a written duration and the modifier text glued to it; nothing if it is malformed or
its note value is zero. -/
def read (s : String) : Except Fault (Option (Duration × String)) :=
  let cs := s.toList
  match cs.takeWhile isDigit with
  | [] => .ok none
  | ds =>
    match suffix? (chomp (cs.dropWhile isDigit)) with
    | none => .ok none
    | some (dots, tail) => do
      let n ← readInt (.ofList ds)
      if n = 0 then return none
      return some (← ofDenominator n dots, .ofList tail)

end Duration

end Partitura
