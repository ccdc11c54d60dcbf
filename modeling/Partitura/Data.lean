import Partitura.Number.Decimal
import Partitura.Number.Shortest

/-!
# Plain data

Scalars, lists and records: what a score turns into before it is written as text, and what a
text turns into before it is read as a score.
-/

namespace Partitura

open Number

inductive Scalar
  | null
  | flag (b : Bool)
  | int (n : Int)
  | float (x : Double)
  | text (s : String)
  deriving DecidableEq, Repr

inductive Data
  | scalar (s : Scalar)
  | list (items : List Data)
  | record (fields : List (String × Data))
  deriving Repr

namespace Scalar

/-- The number a scalar stands for; a flag counts as zero or one. -/
def whole? : Scalar → Option Int
  | flag b => some (if b then 1 else 0)
  | int n => some n
  | _ => none

def plain : Scalar → String
  | null => "None"
  | flag b => if b then "True" else "False"
  | int n => decimal n
  | float x => x.text
  | text s => s

/-- Equality of values: a whole number equals the double of the same value. What is no number
equals nothing, or, if there is only one such value, itself. -/
def alike (oneNan : Bool) : Scalar → Scalar → Bool
  | null, null => true
  | text s, text t => s == t
  | float .nan, float .nan => oneNan
  | float x, float y => x.same y
  | float x, y =>
    match y.whole? with
    | some n => x.value? == some (n : Rat)
    | none => false
  | x, float y =>
    match x.whole? with
    | some n => y.value? == some (n : Rat)
    | none => false
  | x, y =>
    match x.whole?, y.whole? with
    | some m, some n => m == n
    | _, _ => false

end Scalar

namespace Data

abbrev null : Data := .scalar .null
abbrev flag (b : Bool) : Data := .scalar (.flag b)
abbrev int (n : Int) : Data := .scalar (.int n)
abbrev float (x : Double) : Data := .scalar (.float x)
abbrev text (s : String) : Data := .scalar (.text s)

end Data

def get? {α : Type} (key : String) : List (String × α) → Option α
  | [] => none
  | (k, v) :: rest => if k = key then some v else get? key rest

/-- Set the value under a key: in its old place, or at the end. -/
def put {α : Type} (key : String) (value : α) : List (String × α) → List (String × α)
  | [] => [(key, value)]
  | (k, v) :: rest => if k = key then (k, value) :: rest else (k, v) :: put key value rest

/-- Pairs with the last value under each key, in the order in which the keys came first. -/
def settle {α : Type} (pairs : List (String × α)) : List (String × α) :=
  pairs.foldl (fun seen (k, v) => put k v seen) []

namespace Data

mutual

/-- Equality of values: records compare by key, numbers by value. What is no number equals
nothing, or, if there is only one such value, itself. -/
def alike (oneNan : Bool) : Data → Data → Bool
  | scalar s, scalar t => s.alike oneNan t
  | list xs, list ys => alikeItems oneNan xs ys
  | record fs, record gs => fs.length == gs.length && alikeFields oneNan fs gs
  | _, _ => false

def alikeItems (oneNan : Bool) : List Data → List Data → Bool
  | [], [] => true
  | x :: xs, y :: ys => alike oneNan x y && alikeItems oneNan xs ys
  | _, _ => false

def alikeFields (oneNan : Bool) : List (String × Data) → List (String × Data) → Bool
  | [], _ => true
  | (k, x) :: fs, gs =>
    (match get? k gs with
      | some y => alike oneNan x y
      | none => false) && alikeFields oneNan fs gs

end

def same : Data → Data → Bool := alike false

end Data

end Partitura
