import Partitura.Number.Double

/-!
# Shortest decimal texts of doubles

A double is written with the fewest digits that read back as it; of two such texts the nearer
one is taken. Powers of ten from `-4` to `15` are written with a point, others with an
exponent of at least two digits.
-/

namespace Partitura.Number

namespace Double

/-- The ends, in quarters of a unit, of the reals that round to `u` units, and whether the
ends belong to them. -/
def interval (u : Nat) : Nat × Nat × Bool :=
  let step := if u < Nat.pow 2 53 then 1 else Nat.pow 2 (u.log2 - 52)
  let below := if u = Nat.pow 2 u.log2 ∧ 1 < step then step else 2 * step
  (4 * u - below, 4 * u + 2 * step, (u / step) % 2 == 0)

/-- How many digits a positive number has before the point; zero or less for a number below
one tenth, by the number of zeros that follow the point. -/
def magnitude (u : Nat) : Int :=
  if one ≤ u then (Nat.toDigits 10 (u / one)).length
  else 1 - ((Nat.toDigits 10 ((one + u - 1) / u - 1)).length : Int)

/-- The best `k`-digit decimal for `u` units if it reads back: its digits as a number, and the
power of ten they count. -/
def shortestWith? (u k : Nat) : Option (Nat × Int) :=
  let p := magnitude u - k
  -- one grid step is `a / b` units
  let (a, b) := if 0 ≤ p then (one * Nat.pow 10 p.toNat, 1) else (one, Nat.pow 10 (-p).toNat)
  let (lo, hi, closed) := interval u
  let inside (c : Nat) : Bool :=
    let x := 4 * c * a
    if closed then lo * b ≤ x && x ≤ hi * b else lo * b < x && x < hi * b
  let c := u * b / a
  match inside c, inside (c + 1) with
  | true, true => some (halfEven (u * b) a, p)
  | true, false => some (c, p)
  | false, true => some (c + 1, p)
  | false, false => none

def shortest (u : Nat) : Nat × Int :=
  ((List.range 17).findSome? fun k => shortestWith? u (k + 1)).getD (u, -1074)

/-- The digits of the shortest decimal without trailing zeros, and the place of its point. -/
def shortestDigits (u : Nat) : List Char × Int :=
  let (m, p) := shortest u
  let ds := Nat.toDigits 10 m
  ((ds.reverse.dropWhile (· == '0')).reverse, p + ds.length)

/-- A number from its digits and the place of its point. -/
def layout (ds : List Char) (point : Int) : List Char :=
  let n : Int := ds.length
  if -4 < point ∧ point ≤ 16 then
    if point ≤ 0 then '0' :: '.' :: List.replicate (-point).toNat '0' ++ ds
    else if n ≤ point then ds ++ List.replicate (point - n).toNat '0' ++ ['.', '0']
    else ds.take point.toNat ++ '.' :: ds.drop point.toNat
  else
    let e := point - 1
    let es := Nat.toDigits 10 e.natAbs
    let lead := match ds with
      | [d] => [d]
      | d :: rest => d :: '.' :: rest
      | [] => []
    lead ++ 'e' :: (if e < 0 then '-' else '+')
      :: (if es.length < 2 then '0' :: es else es)

def unitsText (u : Nat) : List Char :=
  if u = 0 then ['0', '.', '0'] else layout (shortestDigits u).1 (shortestDigits u).2

def text : Double → String
  | finite s u => .ofList (if s then '-' :: unitsText u else unitsText u)
  | infinite s => if s then "-inf" else "inf"
  | nan => "nan"

end Double

end Partitura.Number
