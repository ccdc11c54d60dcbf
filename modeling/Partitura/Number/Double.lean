/-!
# Doubles

Values of the 64-bit binary format. Every finite value is a whole number of units of the
smallest positive one, `2 ^ -1074`, so a value is a sign and a number of units. Arithmetic is
exact on units and rounds once, to the nearest value, an exact tie to the even one.
-/

namespace Partitura.Number

inductive Double
  | finite (negative : Bool) (units : Nat)
  | infinite (negative : Bool)
  | nan
  deriving DecidableEq, Repr

/-- The nearest whole number to `n / d`; a half goes to the even neighbour. -/
def halfEven (n d : Nat) : Nat :=
  let q := n / d
  let r := n % d
  if 2 * r < d ∨ (2 * r = d ∧ q % 2 = 0) then q else q + 1

namespace Double

/-- Units in one. -/
def one : Nat := Nat.pow 2 1074

/-- The first number of units beyond the largest finite value. -/
def bound : Nat := Nat.pow 2 2098

/-- The nearest number of units to `n / d` that has at most 53 significant bits. -/
def roundUnits (n d : Nat) : Nat :=
  let whole := n / d
  if whole < Nat.pow 2 53 then halfEven n d
  else
    let step := Nat.pow 2 (whole.log2 - 52)
    halfEven n (d * step) * step

/-- The value nearest to `n / d` units. -/
def ofUnits (negative : Bool) (n d : Nat) : Double :=
  let u := roundUnits n d
  if u < bound then finite negative u else infinite negative

/-- The value nearest to `n / d`. -/
def ofRatio (negative : Bool) (n d : Nat) : Double := ofUnits negative (n * one) d

def ofRat (q : Rat) : Double := ofRatio (decide (q < 0)) q.num.natAbs q.den

def ofInt (n : Int) : Double := ofRatio (decide (n < 0)) n.natAbs 1

def zero : Double := finite false 0

def value? : Double → Option Rat
  | finite negative u => some (mkRat (if negative then -(u : Int) else u) one)
  | _ => none

def isFinite : Double → Bool
  | finite _ _ => true
  | _ => false

/-- The value nearest to `m * 10 ^ e`. Exponents far outside the range are not raised. -/
def ofScientific (negative : Bool) (m : Nat) (e : Int) : Double :=
  if m = 0 then finite negative 0
  else
    let size : Int := (Nat.toDigits 10 m).length + e
    if size > 400 then infinite negative
    else if size < -400 then finite negative 0
    else if 0 ≤ e then ofRatio negative (m * Nat.pow 10 e.toNat) 1
    else ofRatio negative m (Nat.pow 10 (-e).toNat)

def signed (negative : Bool) (u : Nat) : Int := if negative then -(u : Int) else u

def neg : Double → Double
  | finite s u => finite (!s) u
  | infinite s => infinite (!s)
  | nan => nan

/-- The sum, rounded. A sum of nothing is negative only if both parts are. -/
def add : Double → Double → Double
  | nan, _ => nan
  | _, nan => nan
  | infinite s, infinite t => if s = t then infinite s else nan
  | infinite s, finite _ _ => infinite s
  | finite _ _, infinite t => infinite t
  | finite s u, finite t v =>
    let sum := signed s u + signed t v
    if sum = 0 then finite (s && t) 0 else ofUnits (decide (sum < 0)) sum.natAbs 1

def sub (x y : Double) : Double := x.add y.neg

def mul : Double → Double → Double
  | finite s u, finite t v => ofUnits (s != t) (u * v) one
  | nan, _ => nan
  | _, nan => nan
  | finite s u, infinite t => if u = 0 then nan else infinite (s != t)
  | infinite s, finite t u => if u = 0 then nan else infinite (s != t)
  | infinite s, infinite t => infinite (s != t)

/-- The quotient by a positive whole number, rounded. -/
def divNat : Double → Nat → Double
  | finite s u, d => ofUnits s u d
  | x, _ => x

/-- The quotient, rounded. The divisor is not zero. -/
def div : Double → Double → Double
  | nan, _ => nan
  | _, nan => nan
  | infinite _, infinite _ => nan
  | infinite s, finite t _ => infinite (s != t)
  | finite s _, infinite t => finite (s != t) 0
  | finite s u, finite t v => ofUnits (s != t) (u * one) v

/-- A key that orders the values that are numbers, both zeros alike. -/
def lt : Double → Double → Bool
  | nan, _ => false
  | _, nan => false
  | infinite s, infinite t => s && !t
  | infinite s, finite _ _ => s
  | finite _ _, infinite t => !t
  | finite s u, finite t v =>
    decide ((if s then -(u : Int) else u) < (if t then -(v : Int) else v))

/-- Equality of numbers: both zeros are equal, and what is no number equals nothing. -/
def same : Double → Double → Bool
  | nan, _ => false
  | _, nan => false
  | infinite s, infinite t => s == t
  | finite s u, finite t v =>
    decide ((if s then -(u : Int) else u) = (if t then -(v : Int) else v))
  | _, _ => false

/-- Rounded to `places` decimals: the exact value decides, a tie goes to the even digit. -/
def roundTo (places : Nat) : Double → Double
  | finite s u => ofRatio s (halfEven (u * Nat.pow 10 places) one) (Nat.pow 10 places)
  | x => x

end Double

end Partitura.Number
