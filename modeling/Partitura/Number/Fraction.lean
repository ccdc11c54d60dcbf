import Partitura.Number.Numeral

/-!
# Fractions

Reading a fraction from text or from a double, rounding it, and the nearest fraction with a
small denominator. The last is found between two neighbours `a / b ≤ x ≤ c / d`: nothing
strictly between them has a denominator below `b + d`, so once `b + d` is too large the nearer
of the two is the answer.
-/

namespace Partitura.Number

open Text

/-- Decimals behind a point: digits, or letters `d` that stand where they should. -/
inductive Decimals
  | digits (ds : List Nat)
  | letters (cs : List Char)

/-- The part of a fraction behind its numerator: a denominator, or decimals and an exponent. -/
inductive Tail
  | denominator (ds : List Nat)
  | decimals (ds : Decimals) (exponent : Option (Bool × List Nat))

def isLetterD (c : Char) : Bool := c == 'd' || c == 'D'

/-- Decimals, if a point stands in front. -/
def cutDecimals : List Char → Decimals × List Char
  | '.' :: cs =>
    match cs.takeWhile isLetterD with
    | [] =>
      let (ds, rest) := digitRun cs
      (.digits ds, rest)
    | ls => (.letters ls, cs.dropWhile isLetterD)
  | cs => (.digits [], cs)

def readTail (cs : List Char) : Option Tail :=
  match cs with
  | '/' :: rest =>
    match digitRun rest with
    | (d :: ds, []) => some (.denominator (d :: ds))
    | _ => none
  | _ =>
    let (ds, rest) := cutDecimals cs
    match rest with
    | [] => some (.decimals ds none)
    | e :: rest =>
      if e = 'e' ∨ e = 'E' then
        let (negative, es) := cutSign rest
        match digitRun es with
        | (x :: xs, []) => some (.decimals ds (some (negative, x :: xs)))
        | _ => none
      else none

def assemble (negative : Bool) (whole : List Nat) : Tail → Except Fault Rat
  | .denominator ds => do
    let n ← ofDigits negative whole
    let d ← ofDigits false ds
    if d = 0 then throw (.zeroDenominator n)
    return mkRat n d.natAbs
  | .decimals ds exponent => do
    let n ← ofDigits false whole
    let ds ← match ds with
      | .digits ds => pure ds
      | .letters cs => throw (.badNumeral (.ofList cs))
    let part ← ofDigits false ds
    let m := n * Nat.pow 10 ds.length + part
    let e ← match exponent with
      | none => pure 0
      | some (minus, es) => ofDigits minus es
    let m := if negative then -m else m
    if 0 ≤ e then return mkRat (m * Nat.pow 10 e.toNat) (Nat.pow 10 ds.length)
    else return mkRat m (Nat.pow 10 ds.length * Nat.pow 10 (-e).toNat)

/-- Read `n`, `n/d` or a decimal number exactly. -/
def readFraction (s : String) : Except Fault Rat :=
  let (negative, cs) := cutSign (trimBy isBlank s.toList)
  let (whole, rest) := digitRun cs
  let startsRight := match cs with
    | '.' :: c :: _ => isDigit c
    | c :: _ => isDigit c
    | [] => false
  if startsRight then
    match readTail rest with
    | some t => assemble negative whole t
    | none => .error (.badFraction s)
  else .error (.badFraction s)

def ofDouble : Double → Except Fault Rat
  | .nan => .error .nanFraction
  | .infinite _ => .error .infiniteFraction
  | .finite negative u => .ok (mkRat (if negative then -(u : Int) else u) Double.one)

/-- The nearest whole number; a half goes to the even neighbour. -/
def roundRat (q : Rat) : Int :=
  let n : Int := halfEven q.num.natAbs q.den
  if q < 0 then -n else n

/-- Toward zero. -/
def truncate (q : Rat) : Int := q.num.tdiv q.den

/-- Neighbours `a / b ≤ n / d ≤ c / e`, brought together while `b + e` stays within `limit`.
Every step adds to a denominator, so `fuel = limit` steps are enough. -/
def neighbours (n d limit : Nat) : Nat → (Nat × Nat) → (Nat × Nat) → (Nat × Nat) × (Nat × Nat)
  | 0, lo, hi => (lo, hi)
  | fuel + 1, (a, b), (c, e) =>
    if limit < b + e then ((a, b), (c, e))
    else if (a + c) * d ≤ n * (b + e) then neighbours n d limit fuel (a + c, b + e) (c, e)
    else neighbours n d limit fuel (a, b) (a + c, b + e)

/-- The nearest fraction whose denominator is at most `limit`; of two equally near ones that
with the smaller denominator. -/
def nearest (limit : Nat) (q : Rat) : Rat :=
  if q.den ≤ limit then q
  else
    let whole := q.num.fdiv q.den
    let n := (q.num.fmod q.den).natAbs
    let ((a, b), (c, e)) := neighbours n q.den limit limit (0, 1) (1, 1)
    let lo : Rat := whole + mkRat a b
    let hi : Rat := whole + mkRat c e
    let low := q - lo
    let high := hi - q
    if low < high ∨ (low = high ∧ b ≤ e) then lo else hi

end Partitura.Number
