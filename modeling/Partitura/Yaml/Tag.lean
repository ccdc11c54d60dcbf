import Partitura.Text.Cut
import Partitura.Yaml.Date

/-!
# Tags

A tag says what a node stands for. A scalar without quotes and without a tag is a truth value,
a number, nothing, or a date if it is written as one; everything else is text. Numbers may be
written in bases two, eight, ten and sixteen, and in base sixty with colons.
-/

namespace Partitura.Yaml

open Text

inductive Tag
  | null | bool | int | float | binary | timestamp | str
  | seq | map | set | omap | pairs
  /-- A key whose value is merged into the mapping. -/
  | merge
  /-- A key whose value stands for the mapping. -/
  | value
  | other
  deriving DecidableEq, Repr

namespace Tag

def all : List (String × Tag) := [
  ("null", null), ("bool", bool), ("int", int), ("float", float), ("binary", binary),
  ("timestamp", timestamp), ("str", str), ("seq", seq), ("map", map), ("set", set),
  ("omap", omap), ("pairs", pairs), ("merge", merge), ("value", value)]

/-- What the names of all these tags begin with. -/
def lead : String := "tag:yaml.org,2002:"

def ofText (s : String) : Tag :=
  ((all.find? fun (name, _) => lead ++ name == s).map (·.2)).getD other

def isCollection : Tag → Bool
  | seq | map | set | omap | pairs => true
  | _ => false

end Tag

/-! ## Forms of numbers -/

def isFigureOrLow (c : Char) : Bool := isFigure09 c || c == '_'

def unsigned : List Char → List Char
  | '+' :: cs => cs
  | '-' :: cs => cs
  | cs => cs

/-- A digit, then digits and underscores. -/
def isDigitRun : List Char → Bool
  | c :: cs => isFigure09 c && cs.all isFigureOrLow
  | [] => false

/-- A digit from one on, then digits and underscores. -/
def isPositiveRun : List Char → Bool
  | c :: cs => isFigure09 c && c != '0' && cs.all isFigureOrLow
  | [] => false

/-- One or two digits below sixty. -/
def isSixtieth : List Char → Bool
  | [a] => isFigure09 a
  | [a, b] => '0' ≤ a && a ≤ '5' && isFigure09 b
  | _ => false

/-- `e` or `E`, a sign and digits; or nothing. -/
def isPowerOrNothing : List Char → Bool
  | [] => true
  | e :: s :: ds =>
    (e == 'e' || e == 'E') && (s == '+' || s == '-') && !ds.isEmpty && ds.all isFigure09
  | _ => false

/-- Digits and underscores, then an optional power. -/
def isDecimals (cs : List Char) : Bool := isPowerOrNothing (cs.dropWhile isFigureOrLow)

def isInteger (cs : List Char) : Bool :=
  match unsigned cs with
  | '0' :: 'b' :: ds => !ds.isEmpty && ds.all fun c => c == '0' || c == '1' || c == '_'
  | '0' :: 'x' :: ds =>
    !ds.isEmpty && ds.all fun c =>
      isFigureOrLow c || ('a' ≤ c && c ≤ 'f') || ('A' ≤ c && c ≤ 'F')
  | ['0'] => true
  | '0' :: ds => ds.all fun c => ('0' ≤ c && c ≤ '7') || c == '_'
  | ds =>
    match pieces ':' ds with
    | first :: rest => isPositiveRun first && rest.all isSixtieth
    | [] => false

def isDecimal (cs : List Char) : Bool :=
  let body := unsigned cs
  match cutAt '.' body with
  | (whole, some rest) =>
    match pieces ':' whole with
    | [[]] =>
      match rest with
      | c :: _ => cs == body && isFigure09 c && isDecimals rest
      | [] => false
    | [ds] => isDigitRun ds && isDecimals rest
    | first :: more => isDigitRun first && more.all isSixtieth && rest.all isFigureOrLow
    | [] => false
  | (_, none) => false

def isInfinite (cs : List Char) : Bool :=
  String.ofList (unsigned cs) ∈ [".inf", ".Inf", ".INF"]

def isNan (cs : List Char) : Bool := String.ofList cs ∈ [".nan", ".NaN", ".NAN"]

/-! ## Forms of everything else -/

def truthWords : List String :=
  ["yes", "Yes", "YES", "true", "True", "TRUE", "on", "On", "ON",
    "no", "No", "NO", "false", "False", "FALSE", "off", "Off", "OFF"]

def nullWords : List String := ["", "~", "null", "Null", "NULL"]

/-- A date with two digits for month and day, or one with a time. -/
def isStamp (cs : List Char) : Bool :=
  match Stamp.ofChars? cs with
  | none => false
  | some s => s.clock.isSome || cs.length == 10

/-- The tag of a plain scalar that has none. -/
def Tag.ofPlain (cs : List Char) : Tag :=
  let s := String.ofList cs
  if s ∈ truthWords then .bool
  else if isDecimal cs || isInfinite cs || isNan cs then .float
  else if isInteger cs then .int
  else if s ∈ nullWords then .null
  else if isStamp cs then .timestamp
  else if s = "<<" then .merge
  else if s = "=" then .value
  else .str

end Partitura.Yaml
