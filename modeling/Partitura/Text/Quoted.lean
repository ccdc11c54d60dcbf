import Partitura.Text.Printable

/-!
# Quoted text

A text as messages show it: between single quotes, or between double quotes if it holds a
single quote and no double one. Backslashes, the quote in use and what does not print are
escaped.
-/

namespace Partitura.Text

/-- `width` lower-case hexadecimal digits of `n`, filled up with zeros. -/
def hex (width n : Nat) : List Char :=
  let ds := Nat.toDigits 16 n
  List.replicate (width - ds.length) '0' ++ ds

/-- A character between quotes `q`. -/
def quotedChar (q c : Char) : List Char :=
  if c = q ∨ c = '\\' then ['\\', c]
  else if c = '\n' then ['\\', 'n']
  else if c = '\r' then ['\\', 'r']
  else if c = '\t' then ['\\', 't']
  else if isPrintable c then [c]
  else if c.toNat < 0x100 then '\\' :: 'x' :: hex 2 c.toNat
  else if c.toNat < 0x10000 then '\\' :: 'u' :: hex 4 c.toNat
  else '\\' :: 'U' :: hex 8 c.toNat

def quoted (s : String) : String :=
  let cs := s.toList
  let q := if cs.contains '\'' && !cs.contains '"' then '"' else '\''
  .ofList (q :: cs.flatMap (quotedChar q) ++ [q])

end Partitura.Text
