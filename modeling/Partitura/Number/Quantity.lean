import Partitura.Fault
import Partitura.Number.Fraction
import Partitura.Number.Shortest

/-!
# Quantities

Whole numbers and doubles side by side. Whole numbers are reckoned exactly; as soon as a double
takes part, all parts are turned into doubles and the result is rounded. They compare by value.
-/

namespace Partitura.Number

inductive Quantity
  | whole (n : Int)
  | real (x : Double)
  deriving DecidableEq, Repr

namespace Quantity

def toDouble : Quantity → Except Fault Double
  | real x => .ok x
  | whole n =>
    let x := Double.ofInt n
    if x.isFinite then .ok x else .error .numberTooLarge

/-- An operation on whole numbers, or on doubles if one takes part. -/
def combine (exact : Int → Int → Int) (rounded : Double → Double → Double) :
    Quantity → Quantity → Except Fault Quantity
  | whole m, whole n => .ok (whole (exact m n))
  | a, b => do return real (rounded (← a.toDouble) (← b.toDouble))

def add : Quantity → Quantity → Except Fault Quantity := combine (· + ·) Double.add

def sub : Quantity → Quantity → Except Fault Quantity := combine (· - ·) Double.sub

def mul : Quantity → Quantity → Except Fault Quantity := combine (· * ·) Double.mul

def div : Quantity → Quantity → Except Fault Double
  | whole m, whole n =>
    if n = 0 then .error .divisionByZero
    else
      let x := Double.ofRatio (decide (m < 0) != decide (n < 0)) m.natAbs n.natAbs
      if x.isFinite then .ok x else .error .quotientTooLarge
  | a, b => do
    let x ← a.toDouble
    let y ← b.toDouble
    if y.same .zero then throw .realDivisionByZero
    return x.div y

def scale (q : Rat) : Quantity → Except Fault (Rat ⊕ Double)
  | whole n => .ok (.inl (q * n))
  | real x => do
    let y := Double.ofRat q
    if y.isFinite then return .inr (y.mul x) else throw .quotientTooLarge

/-- The sum with a fraction, exact if the quantity is whole. -/
def shift (q : Rat) : Quantity → Except Fault (Rat ⊕ Double)
  | whole n => .ok (.inl (n + q))
  | real x => do
    let y := Double.ofRat q
    if y.isFinite then return .inr (x.add y) else throw .quotientTooLarge

/-- Toward zero. -/
def truncate : Rat ⊕ Double → Except Fault Int
  | .inl q => .ok (Number.truncate q)
  | .inr .nan => .error .nanWhole
  | .inr (.infinite _) => .error .infiniteWhole
  | .inr (.finite s u) => .ok (Number.truncate (mkRat (Double.signed s u) Double.one))

def toRat : Quantity → Except Fault Rat
  | whole n => .ok n
  | real x => ofDouble x

/-- Whether a value is less than another. Nothing is less or more than what is no number. -/
def less : Quantity → Quantity → Bool
  | whole m, whole n => decide (m < n)
  | real x, real y => x.lt y
  | whole _, real .nan => false
  | real .nan, whole _ => false
  | whole _, real (.infinite s) => !s
  | real (.infinite s), whole _ => s
  | whole n, real (.finite s u) => decide (n * Double.one < Double.signed s u)
  | real (.finite s u), whole n => decide (Double.signed s u < n * Double.one)

def same : Quantity → Quantity → Bool
  | whole m, whole n => m == n
  | real x, real y => x.same y
  | whole n, real (.finite s u) => n * Double.one == Double.signed s u
  | real (.finite s u), whole n => Double.signed s u == n * Double.one
  | _, _ => false

def atMost (a b : Quantity) : Bool := a.less b || a.same b

end Quantity

end Partitura.Number
