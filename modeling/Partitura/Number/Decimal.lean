/-!
# Plain decimal texts

Integers as they stand in messages and scores.
-/

namespace Partitura.Number

def digitChars (n : Nat) : List Char := Nat.toDigits 10 n

/-- An integer in decimal, a minus sign before a negative one. -/
def decimal (n : Int) : String :=
  .ofList (if n < 0 then '-' :: digitChars n.natAbs else digitChars n.natAbs)

end Partitura.Number
