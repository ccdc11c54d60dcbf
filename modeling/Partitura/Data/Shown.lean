import Partitura.Data
import Partitura.Number.Numeral
import Partitura.Text.Cut

/-!
# Plain data in messages

How data are shown: text as it is, or between quotes within lists and records.
-/

namespace Partitura

open Number Text

namespace Data

def scalarQuoted : Scalar → Except Fault String
  | .null => .ok "None"
  | .flag b => .ok (if b then "True" else "False")
  | .int n => writeInt n
  | .float x => .ok x.text
  | .text s => .ok (quoted s)

mutual

def quoted : Data → Except Fault String
  | scalar s => scalarQuoted s
  | list xs => do return "[" ++ join ", " (← quotedItems xs) ++ "]"
  | record fs => do return "\x7b" ++ join ", " (← quotedFields fs) ++ "\x7d"

def quotedItems : List Data → Except Fault (List String)
  | [] => .ok []
  | x :: xs => do
    let s ← x.quoted
    return s :: (← quotedItems xs)

def quotedFields : List (String × Data) → Except Fault (List String)
  | [] => .ok []
  | (k, x) :: fs => do
    let s ← x.quoted
    return (Text.quoted k ++ ": " ++ s) :: (← quotedFields fs)

end

def shown : Data → Except Fault String
  | scalar (.text s) => .ok s
  | d => d.quoted

def kindName : Data → String
  | scalar .null => "NoneType"
  | scalar (.flag _) => "bool"
  | scalar (.int _) => "int"
  | scalar (.float _) => "float"
  | scalar (.text _) => "str"
  | list _ => "list"
  | record _ => "dict"

end Data

end Partitura
