import Partitura.Data
import Partitura.Number.Numeral
import Partitura.Text.Cut
import Partitura.Text.Lower

/-!
# Conversions

What a field of a given type accepts. A whole number may come as a flag, as a double without a
fraction or as a text; a double as any number or as a text; a flag as zero, one or a word. A
text is never made from anything else.
-/

namespace Partitura

open Number Text

namespace Scalar

/-- A minus sign or nothing, and ASCII digits without a zero in front. -/
def plainWhole? (cs : List Char) : Option Int :=
  let (negative, ds) := match cs with
    | '-' :: ds => (true, ds)
    | ds => (false, ds)
  let superfluous := match ds with
    | '0' :: _ :: _ => true
    | _ => false
  if ds.isEmpty || superfluous || !ds.all Char.isDigit || digitLimit < cs.length then none
  else
    let v : Int := digitsValue (ds.map fun c => c.toNat - '0'.toNat)
    some (if negative then -v else v)

/-- Drop a fraction that has zeros only. -/
def withoutFraction (cs : List Char) : List Char :=
  match cutAt '.' cs with
  | (whole, some (z :: zs)) => if (z :: zs).all (· == '0') then whole else cs
  | _ => cs

/-- Drop zeros in front, and underscores among them. What is left starts with another digit or
a minus sign, or is the last character. -/
def withoutZeros? (cs : List Char) : Option (List Char) :=
  let starts (c : Char) : Bool := c == '-' || (c.isDigit && c != '0')
  match cs with
  | '0' :: rest =>
    match rest.dropWhile (fun c => c == '0' || c == '_') with
    | [] => some (cs.drop rest.length)
    | c :: more => if starts c then some (c :: more) else none
  | c :: rest => if starts c then some (c :: rest) else none
  | [] => none

/-- Whether every underscore stands alone and between other characters. -/
def lowsAreSingle : List Char → Bool
  | [] => true
  | ['_'] => false
  | '_' :: '_' :: _ => false
  | _ :: cs => lowsAreSingle cs

/-- Drop underscores that stand alone between other characters. -/
def withoutLows (cs : List Char) : List Char :=
  if cs.head? != some '_' && lowsAreSingle cs then cs.filter (· != '_') else cs

/-- A whole number in ASCII digits. It may have a plus sign, zeros in front, a zero fraction
and underscores between digits. -/
def wholeOfText? (s : String) : Option Int := do
  let cs ← match trimBy isMargin s.toList with
    | '+' :: '-' :: _ => none
    | '+' :: cs => some cs
    | cs => some cs
  plainWhole? (withoutLows (← withoutZeros? (withoutFraction cs)))

/-- A double in ASCII characters other than the underscore. -/
def plainDouble? (cs : List Char) : Option Double :=
  if cs.all (fun c => c.toNat < 128 && c != '_') then doubleIn? cs else none

/-- A double in ASCII characters: blanks around it are dropped, or else underscores in it. -/
def doubleOfText? (s : String) : Option Double :=
  match plainDouble? (trimBy isMargin s.toList) with
  | some x => some x
  | none => plainDouble? (withoutLows s.toList)

/-- A double without a fraction, if its size is less than `2 ^ 63`. -/
def wholeOfDouble? (x : Double) : Option Int :=
  x.value?.bind fun q => if q.den = 1 ∧ q.num.natAbs < Nat.pow 2 63 then some q.num else none

def asInt? : Scalar → Option Int
  | int n => some n
  | flag b => some (if b then 1 else 0)
  | float x => wholeOfDouble? x
  | text s => wholeOfText? s
  | null => none

def asDouble? : Scalar → Option Double
  | float x => some x
  | int n =>
    let x := Double.ofInt n
    if x.isFinite then some x else none
  | flag b => some (.ofInt (if b then 1 else 0))
  | text s => doubleOfText? s
  | null => none

def asText? : Scalar → Option String
  | text s => some s
  | _ => none

def asFlag? : Scalar → Option Bool
  | flag b => some b
  | text s =>
    let t := lower s
    if t ∈ ["0", "off", "f", "false", "n", "no"] then some false
    else if t ∈ ["1", "on", "t", "true", "y", "yes"] then some true
    else none
  | null => none
  | s =>
    match s.asInt? with
    | some 0 => some false
    | some 1 => some true
    | _ => none

end Scalar

namespace Data

def scalar? : Data → Option Scalar
  | scalar s => some s
  | _ => none

def list? : Data → Option (List Data)
  | list items => some items
  | _ => none

def record? : Data → Option (List (String × Data))
  | record fields => some fields
  | _ => none

def asInt? (d : Data) : Option Int := d.scalar?.bind Scalar.asInt?

def asDouble? (d : Data) : Option Double := d.scalar?.bind Scalar.asDouble?

def asText? (d : Data) : Option String := d.scalar?.bind Scalar.asText?

def asFlag? (d : Data) : Option Bool := d.scalar?.bind Scalar.asFlag?

def asTexts? (d : Data) : Option (List String) := d.list?.bind (·.mapM asText?)

def asTextRecord? (d : Data) : Option (List (String × String)) :=
  d.record?.bind (·.mapM fun (k, v) => v.asText?.map (k, ·))

def asPair? (d : Data) : Option (Int × Int) :=
  match d with
  | list [a, b] => do return (← a.asInt?, ← b.asInt?)
  | _ => none

/-- A field that must be there. -/
def need {α : Type} (as? : Data → Option α) (name : String) (fields : List (String × Data)) :
    Option α :=
  (get? name fields).bind as?

/-- A field with a value to fall back on. -/
def orElse {α : Type} (as? : Data → Option α) (name : String) (default : α)
    (fields : List (String × Data)) : Option α :=
  match get? name fields with
  | none => some default
  | some d => as? d

/-- A field that may be missing or null. -/
def maybe {α : Type} (as? : Data → Option α) (name : String) (fields : List (String × Data)) :
    Option (Option α) :=
  match get? name fields with
  | none => some none
  | some (scalar .null) => some none
  | some d => (as? d).map some

end Data

end Partitura
