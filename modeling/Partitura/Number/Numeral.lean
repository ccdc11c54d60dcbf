import Partitura.Fault
import Partitura.Text.Blank
import Partitura.Text.Digit
import Partitura.Number.Double

/-!
# Numerals

Reading whole and decimal numbers from text, and the limit on how long a whole number may be
in text. Digits of every script count, one underscore may stand between two digits, and blanks
around the number are dropped.
-/

namespace Partitura.Number

open Text

/-- The most digits a whole number may have in text. -/
def digitLimit : Nat := 4300

/-- Blanks that may stand around a number: all but the information separators. -/
def isMargin (c : Char) : Bool := isBlank c && !(0x1c ≤ c.toNat && c.toNat ≤ 0x1f)

def digitsValue (ds : List Nat) : Nat := ds.foldl (fun v d => 10 * v + d) 0

/-- The digits at the front of a text that already began with a digit, and the rest. -/
def digitsAfter : List Char → List Nat × List Char
  | [] => ([], [])
  | '_' :: c :: cs =>
    match digit? c with
    | some d =>
      let (ds, rest) := digitsAfter cs
      (d :: ds, rest)
    | none => ([], '_' :: c :: cs)
  | c :: cs =>
    match digit? c with
    | some d =>
      let (ds, rest) := digitsAfter cs
      (d :: ds, rest)
    | none => ([], c :: cs)

/-- The digits at the front of a text, one underscore allowed between two, and the rest. -/
def digitRun : List Char → List Nat × List Char
  | [] => ([], [])
  | c :: cs =>
    match digit? c with
    | some d =>
      let (ds, rest) := digitsAfter cs
      (d :: ds, rest)
    | none => ([], c :: cs)

/-- Whether a minus sign stands in front, and what follows the sign if there is one. -/
def cutSign : List Char → Bool × List Char
  | '-' :: cs => (true, cs)
  | '+' :: cs => (false, cs)
  | cs => (false, cs)

/-- A whole number from its sign and digits, if these are not too many. -/
def ofDigits (negative : Bool) (ds : List Nat) : Except Fault Int :=
  if digitLimit < ds.length then .error (.numeralTooLong ds.length)
  else
    let v : Int := digitsValue ds
    .ok (if negative then -v else v)

/-- Read a whole number. Digits that are too many are told before what follows them. -/
def readInt (s : String) : Except Fault Int :=
  let (negative, cs) := cutSign (trimBy isMargin s.toList)
  match digitRun cs with
  | ([], _) => .error (.badNumeral s)
  | (_, '_' :: _) => .error (.badNumeral s)
  | (ds, []) => ofDigits negative ds
  | (ds, _) =>
    match ofDigits negative ds with
    | .ok _ => .error (.badNumeral s)
    | .error f => .error f

def writeInt (n : Int) : Except Fault String :=
  if n.natAbs < Nat.pow 10 digitLimit then .ok (decimal n) else .error .numberTooLong

/-- Write a fraction in lowest terms; a whole number stands without a denominator. -/
def writeFraction (q : Rat) : Except Fault String := do
  if q.den = 1 then writeInt q.num
  else return (← writeInt q.num) ++ "/" ++ (← writeInt q.den)

/-- The exponent part of a decimal number; none if it is malformed. -/
def readExponent : List Char → Option Int
  | [] => some 0
  | c :: cs =>
    if c = 'e' ∨ c = 'E' then
      let (negative, ds) := cutSign cs
      match digitRun ds with
      | (d :: ds, []) =>
        let v : Int := digitsValue (d :: ds)
        some (if negative then -v else v)
      | _ => none
    else none

/-- Digits, a point and an exponent, the last two optional; at least one digit. -/
def readScientific (negative : Bool) (cs : List Char) : Option Double :=
  let (whole, rest) := digitRun cs
  let (part, rest) := match rest with
    | '.' :: rest => digitRun rest
    | rest => ([], rest)
  if whole.isEmpty && part.isEmpty then none
  else (readExponent rest).map fun e =>
    .ofScientific negative (digitsValue (whole ++ part)) (e - part.length)

/-- A decimal number, `inf`, `infinity` or `nan`. -/
def doubleIn? (cs : List Char) : Option Double :=
  let (negative, cs) := cutSign cs
  let word := cs.map Char.toLower
  if word = "inf".toList ∨ word = "infinity".toList then some (.infinite negative)
  else if word = "nan".toList then some .nan
  else readScientific negative cs

/-- Read a decimal number, `inf`, `infinity` or `nan`. -/
def readDouble (s : String) : Option Double := doubleIn? (trimBy isMargin s.toList)

end Partitura.Number
