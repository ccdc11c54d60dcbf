import Partitura.Data
import Partitura.Number.Numeral

/-!
# Writing JSON

On one line, or with every item on a line of its own. Only printable ASCII is written as it
is; all else is escaped in UTF-16 units.
-/

namespace Partitura.Json

open Number Text

def escapeUnit (n : Nat) : List Char := '\\' :: 'u' :: hex 4 n

def escapeChar (c : Char) : List Char :=
  if c = '"' then ['\\', '"']
  else if c = '\\' then ['\\', '\\']
  else if c = '\n' then ['\\', 'n']
  else if c = '\r' then ['\\', 'r']
  else if c = '\t' then ['\\', 't']
  else if c.toNat = 8 then ['\\', 'b']
  else if c.toNat = 12 then ['\\', 'f']
  else if 0x20 ≤ c.toNat ∧ c.toNat ≤ 0x7e then [c]
  else if c.toNat < 0x10000 then escapeUnit c.toNat
  else
    let n := c.toNat - 0x10000
    escapeUnit (0xd800 + n / 0x400) ++ escapeUnit (0xdc00 + n % 0x400)

def writeText (s : String) : String := .ofList ('"' :: s.toList.flatMap escapeChar ++ ['"'])

def writeDouble : Double → String
  | .nan => "NaN"
  | .infinite negative => if negative then "-Infinity" else "Infinity"
  | x => x.text

def writeScalar : Scalar → Except Fault String
  | .null => .ok "null"
  | .flag b => .ok (if b then "true" else "false")
  | .int n => writeInt n
  | .float x => .ok (writeDouble x)
  | .text s => .ok (writeText s)

/-- The line break before an item at `depth`; nothing when all stands on one line. -/
def lineBreak (indent : Option String) (depth : Nat) : String :=
  match indent with
  | none => ""
  | some unit => .ofList ('\n' :: (List.replicate depth unit.toList).flatten)

def between (indent : Option String) (depth : Nat) : String :=
  match indent with
  | none => ", "
  | some _ => "," ++ lineBreak indent depth

def enclose (indent : Option String) (depth : Nat) (opening closing : String) :
    List String → String
  | [] => opening ++ closing
  | items =>
    opening ++ lineBreak indent (depth + 1)
      ++ (between indent (depth + 1)).intercalate items ++ lineBreak indent depth ++ closing

mutual

def writeAt (indent : Option String) (depth : Nat) : Data → Except Fault String
  | .scalar s => writeScalar s
  | .list items => do
    return enclose indent depth "[" "]" (← writeItems indent (depth + 1) items)
  | .record fields => do
    return enclose indent depth "\x7b" "\x7d" (← writeFields indent (depth + 1) fields)

def writeItems (indent : Option String) (depth : Nat) : List Data → Except Fault (List String)
  | [] => .ok []
  | x :: xs => do
    let s ← writeAt indent depth x
    return s :: (← writeItems indent depth xs)

def writeFields (indent : Option String) (depth : Nat) :
    List (String × Data) → Except Fault (List String)
  | [] => .ok []
  | (k, x) :: fs => do
    let s ← writeAt indent depth x
    return (writeText k ++ ": " ++ s) :: (← writeFields indent depth fs)

end

/-- Write data: on one line, or with lines that start with `indent` once a level. -/
def write (indent : Option String) (d : Data) : Except Fault String := writeAt indent 0 d

end Partitura.Json
