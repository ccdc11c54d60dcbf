import Partitura.Text.CharClass

/-!
# Blanks

The white space of Unicode together with the four information separators. Trimming and
splitting into words go by it.
-/

namespace Partitura.Text

/-- White space: the Unicode property, and U+001C to U+001F. -/
def blanks : CharClass := [
  (0x9, 0xd), (0x1c, 0x20), (0x85, 0x85), (0xa0, 0xa0), (0x1680, 0x1680),
  (0x2000, 0x200a), (0x2028, 0x2029), (0x202f, 0x202f), (0x205f, 0x205f), (0x3000, 0x3000)]

def isBlank (c : Char) : Bool := blanks.has c

/-- Drop the characters of a class from both ends. -/
def trimBy (p : Char → Bool) (cs : List Char) : List Char :=
  ((cs.dropWhile p).reverse.dropWhile p).reverse

def trim (s : String) : String := .ofList (trimBy isBlank s.toList)

/-- Collect the runs of non-blanks; `cur` is the run under way, newest first. -/
def wordsFrom (cur : List Char) : List Char → List (List Char)
  | [] => if cur.isEmpty then [] else [cur.reverse]
  | c :: cs =>
    if isBlank c then
      if cur.isEmpty then wordsFrom [] cs else cur.reverse :: wordsFrom [] cs
    else wordsFrom (c :: cur) cs

def words (cs : List Char) : List (List Char) := wordsFrom [] cs

end Partitura.Text
