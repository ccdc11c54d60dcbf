import Partitura.Data
import Partitura.Number.Quantity

/-!
# Order among plain data

Numbers compare by value, texts by their characters, lists item by item. Other data, and data
of different kinds, do not compare.
-/

namespace Partitura

open Number

namespace Scalar

/-- The number a scalar stands for; a flag counts as zero or one. -/
def quantity? : Scalar → Option Quantity
  | float x => some (.real x)
  | s => s.whole?.map .whole

end Scalar

namespace Data

def quantity : Data → Except Fault Quantity
  | scalar s =>
    match s.quantity? with
    | some q => .ok q
    | none => .error .unsupported
  | _ => .error .unsupported

def ofQuantity : Quantity → Data
  | .whole n => int n
  | .real x => float x

/-- Whether a scalar stands before another, or with it if that is enough. -/
def orderedScalars (strict : Bool) (s t : Scalar) : Except Fault Bool :=
  match s.quantity?, t.quantity? with
  | some a, some b => .ok (if strict then a.less b else a.atMost b)
  | _, _ =>
    match s, t with
    | .text a, .text b => .ok (if strict then decide (a < b) else decide (a ≤ b))
    | _, _ => .error .unsupported

mutual

/-- Whether data stand before others, or with them if that is enough. -/
def ordered (strict : Bool) : Data → Data → Except Fault Bool
  | scalar s, scalar t => orderedScalars strict s t
  | list xs, list ys => orderedItems strict xs ys
  | _, _ => .error .unsupported

/-- The first items that differ decide; the shorter of two lists comes first. -/
def orderedItems (strict : Bool) : List Data → List Data → Except Fault Bool
  | [], ys => .ok (!strict || !ys.isEmpty)
  | _ :: _, [] => .ok false
  | x :: xs, y :: ys => if x.same y then orderedItems strict xs ys else ordered strict x y

end

def less : Data → Data → Except Fault Bool := ordered true

def atMost : Data → Data → Except Fault Bool := ordered false

/-- Whether data count as true: zero, nothing and what is empty do not. -/
def truthy : Data → Bool
  | scalar .null => false
  | scalar (.flag b) => b
  | scalar (.int n) => n != 0
  | scalar (.float x) => !x.same .zero
  | scalar (.text s) => !s.isEmpty
  | list xs => !xs.isEmpty
  | record fs => !fs.isEmpty

/-- What data hold one by one: the items of a list, the keys of a record, the characters of a
text. -/
def items : Data → Except Fault (List Data)
  | list xs => .ok xs
  | record fs => .ok (fs.map fun (k, _) => text k)
  | scalar (.text s) => .ok (s.toList.map fun c => text (.singleton c))
  | _ => .error .unsupported

end Data

/-! ## Sorting -/

section Sorting

variable {α : Type}

/-- The items that keep rising from `x` on, or keep falling, and the rest. -/
def runFrom (less : α → α → Except Fault Bool) (falling : Bool) (x : α) :
    List α → Except Fault (List α × List α)
  | [] => .ok ([], [])
  | y :: ys => do
    if (← less y x) = falling then
      let (run, rest) ← runFrom less falling y ys
      return (y :: run, rest)
    else return ([], y :: ys)

/-- The run at the front of a list in rising order, and the rest. -/
def firstRun (less : α → α → Except Fault Bool) : List α → Except Fault (List α × List α)
  | [] => .ok ([], [])
  | [x] => .ok ([x], [])
  | x :: y :: ys => do
    let falling ← less y x
    let (run, rest) ← runFrom less falling y ys
    return (if falling then (x :: y :: run).reverse else x :: y :: run, rest)

/-- Where `x` belongs among sorted items, searched for between `low` and `low + width`. -/
def placeFor (less : α → α → Except Fault Bool) (x : α) (sorted : Array α) (low width : Nat) :
    Except Fault Nat :=
  if 0 < width then
    match sorted[low + width / 2]? with
    | none => .ok low
    | some y => do
      if ← less x y then placeFor less x sorted low (width / 2)
      else placeFor less x sorted (low + width / 2 + 1) (width - width / 2 - 1)
  else .ok low
termination_by width
decreasing_by all_goals omega

/-- Put items one by one where they belong, behind those they are not less than. -/
def insertAll (less : α → α → Except Fault Bool) (sorted : Array α) :
    List α → Except Fault (Array α)
  | [] => .ok sorted
  | x :: xs => do
    let i ← placeFor less x sorted 0 sorted.size
    insertAll less (sorted.toList.take i ++ x :: sorted.toList.drop i).toArray xs

/-- Items in rising order; those that do not differ keep theirs. The first run is kept as it
is, the others are put in place by halving. -/
def sortBy (less : α → α → Except Fault Bool) (xs : List α) : Except Fault (List α) := do
  let (run, rest) ← firstRun less xs
  return (← insertAll less run.toArray rest).toList

end Sorting

end Partitura
