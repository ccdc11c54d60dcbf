import Partitura.Number.Numeral
import Partitura.Text.Lower
import Partitura.Yaml.Node
import Partitura.Yaml.Spot
import Partitura.Yaml.Tag

/-!
# Values of scalars

What the text of a scalar stands for under its tag. A tag that is written out may stand before
any text, so reading can fail.
-/

namespace Partitura.Yaml

open Number Text

/-! ## Truth values -/

def truthOf (cs : List Char) : Except Fault Bool :=
  let s := lower (.ofList cs)
  if s ∈ ["yes", "true", "on"] then .ok true
  else if s ∈ ["no", "false", "off"] then .ok false
  else .error (.missingField s)

/-! ## Numbers -/

def digitIn? (base : Nat) (c : Char) : Option Nat :=
  let n? := match digit? c with
    | some n => some n
    | none =>
      if 'a' ≤ c ∧ c ≤ 'f' then some (c.toNat - 'a'.toNat + 10)
      else if 'A' ≤ c ∧ c ≤ 'F' then some (c.toNat - 'A'.toNat + 10)
      else none
  n?.bind fun n => if n < base then some n else none

/-- The letters that announce a base behind a zero. -/
def baseLetters (base : Nat) : List Char :=
  if base = 2 then ['b', 'B'] else if base = 8 then ['o', 'O'] else ['x', 'X']

/-- Read digits in a base, perhaps behind a sign and the letter of the base. -/
def readBase (base : Nat) (cs : List Char) : Except Fault Int :=
  let (negative, body) := cutSign (trimBy isMargin cs)
  let digits := match body with
    | '0' :: c :: ds => if (baseLetters base).contains c then ds else body
    | ds => ds
  match digits.mapM (digitIn? base) with
  | none => .error (.badDigits base (.ofList cs))
  | some [] => .error (.badDigits base (.ofList cs))
  | some ds =>
    let n := ds.foldl (fun v d => base * v + d) 0
    .ok (if negative then -(n : Int) else n)

/-- The value of an integer: in base two, sixteen or eight by what it begins with, in base
sixty if it has colons. -/
def integerOf (cs : List Char) : Except Fault Int := do
  let ds := cs.filter (· != '_')
  let body := unsigned ds
  if body = ['0'] then return 0
  let n ← match body with
    | [] => throw .noCharacter
    | '0' :: 'b' :: rest => readBase 2 rest
    | '0' :: 'x' :: rest => readBase 16 rest
    | '0' :: _ => readBase 8 body
    | body => do
      let parts ← (pieces ':' body).mapM fun p => readInt (.ofList p)
      pure (parts.foldl (fun v p => 60 * v + p) 0)
  return if ds.head? = some '-' then -n else n

def doubleOf (cs : List Char) : Except Fault Double :=
  match readDouble (.ofList cs) with
  | some x => .ok x
  | none => .error (.badDecimal (.ofList cs))

/-- The sum of parts, each worth sixty times the one behind it, from the last one on. -/
def sixties (base : Int) (sum : Double) : List Double → Double
  | [] => sum
  | x :: xs => sixties (60 * base) (sum.add (x.mul (.ofInt base))) xs

def decimalOf (cs : List Char) : Except Fault Double := do
  let ds := (lower (.ofList (cs.filter (· != '_')))).toList
  let body := unsigned ds
  let x ← match ds with
    | [] => throw .noCharacter
    | _ =>
      if body = ".inf".toList then pure (.infinite false)
      else if body = ".nan".toList then pure .nan
      else
        match pieces ':' body with
        | [one] => doubleOf one
        | parts => do pure (sixties 1 .zero (← parts.mapM doubleOf).reverse)
  return if ds.head? = some '-' then x.neg else x

/-! ## Bytes -/

def sextet? (c : Char) : Option Nat :=
  if 'A' ≤ c ∧ c ≤ 'Z' then some (c.toNat - 'A'.toNat)
  else if 'a' ≤ c ∧ c ≤ 'z' then some (c.toNat - 'a'.toNat + 26)
  else if '0' ≤ c ∧ c ≤ '9' then some (c.toNat - '0'.toNat + 52)
  else if c = '+' then some 62
  else if c = '/' then some 63
  else none

/-- The bytes of a text in base 64. `place` counts the characters of the group so far, `left`
are the bits they leave, `pads` the signs that fill the group up. Other characters count for
nothing. -/
def bytesFrom (place left pads : Nat) : List Char → Option (List UInt8)
  | [] => if place = 0 then some [] else none
  | c :: cs =>
    if c = '=' then
      if 2 ≤ place then if 4 ≤ place + pads + 1 then some [] else bytesFrom place left (pads + 1) cs
      else bytesFrom place left pads cs
    else
      match sextet? c with
      | none => bytesFrom place left pads cs
      | some n =>
        match place with
        | 0 => bytesFrom 1 n 0 cs
        | 1 => (bytesFrom 2 (n % 16) 0 cs).map (.ofNat (left * 4 + n / 16) :: ·)
        | 2 => (bytesFrom 3 (n % 4) 0 cs).map (.ofNat (left * 16 + n / 4) :: ·)
        | _ => (bytesFrom 0 0 0 cs).map (.ofNat (left * 64 + n) :: ·)

def bytesOf (cs : List Char) : Read (List UInt8) :=
  if cs.any fun c => 127 < c.toNat then broken
  else
    match bytesFrom 0 0 0 cs with
    | some bytes => .ok bytes
    | none => broken

/-! ## Nodes -/

def orFault {α : Type} : Except Fault α → Read α
  | .ok x => .ok x
  | .error f => .error (.fault f)

def scalarNode (tag : Tag) (cs : List Char) : Read Node :=
  match tag with
  | .null => .ok (.scalar .null)
  | .bool => do return .scalar (.flag (← orFault (truthOf cs)))
  | .int => do return .scalar (.int (← orFault (integerOf cs)))
  | .float => do return .scalar (.float (← orFault (decimalOf cs)))
  | .binary => do return .bytes (← bytesOf cs)
  | .timestamp =>
    match Stamp.ofChars? cs with
    | none => .error (.fault .badStamp)
    | some s => do
      orFault s.check
      return .other
  | .str => .ok (.scalar (.text (.ofList cs)))
  | _ => broken

end Partitura.Yaml
