/-!
# Lines and columns

Offsets into a text as a line and a column, both counted from one.
-/

namespace Partitura

/-- The offsets at which the lines of a text start, in order. -/
structure LineMap where
  starts : List Nat

namespace LineMap

/-- The starts of the lines behind the line breaks in a text whose first character stands at
`offset`. -/
def startsFrom (offset : Nat) : List Char → List Nat
  | [] => []
  | c :: cs =>
    if c = '\n' then (offset + 1) :: startsFrom (offset + 1) cs else startsFrom (offset + 1) cs

def ofSource (source : String) : LineMap := ⟨0 :: startsFrom 0 source.toList⟩

def locate (m : LineMap) (offset : Nat) : Nat × Nat :=
  let before := m.starts.takeWhile (· ≤ offset)
  (before.length, offset - before.getLast?.getD 0 + 1)

end LineMap

end Partitura
