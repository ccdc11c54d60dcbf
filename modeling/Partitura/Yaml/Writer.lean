import Partitura.Data
import Partitura.Number.Numeral
import Partitura.Yaml.Tag

/-!
# Writing YAML

Block style, two columns a level. A text stands plain where that reads back as the same text,
else in single quotes, else in double quotes with everything but printable ASCII escaped. Long
lines are folded at single spaces.
-/

namespace Partitura.Yaml

open Number Text

/-! ## The pen -/

/-- What was written, newest first, and the state of the line: its column, whether it ends in
white space, and whether it holds nothing but indentation and marks so far. -/
structure Pen where
  out : List Char := []
  column : Nat := 0
  space : Bool := true
  indention : Bool := true

/-- The column past which lines are folded. -/
def lineWidth : Nat := 80

namespace Pen

def put (cs : List Char) (p : Pen) : Pen :=
  { p with out := cs.reverse ++ p.out, column := p.column + cs.length }

def lineBreak (p : Pen) : Pen := ⟨'\n' :: p.out, 0, true, true⟩

/-- Go to a column, on a new line unless this one is still empty before it. -/
def indentTo (indent : Nat) (p : Pen) : Pen :=
  let p := if !p.indention || indent < p.column || (p.column == indent && !p.space)
    then p.lineBreak else p
  if p.column < indent then
    { p.put (List.replicate (indent - p.column) ' ') with space := true }
  else p

def mark (cs : List Char) (apart : Bool) (space indention : Bool) (p : Pen) : Pen :=
  let p := p.put (if p.space || !apart then cs else ' ' :: cs)
  { p with space, indention := p.indention && indention }

/-- Nothing but the text itself was written since. -/
def inText (p : Pen) : Pen := { p with space := false, indention := false }

end Pen

/-! ## Analysis of texts -/

def isWhite (c : Char) : Bool :=
  c == '\x00' || c == ' ' || c == '\t' || c == '\r' || c == '\n' || c == '\x85' || c == '\u2028'
    || c == '\u2029'

def isLineEnd (c : Char) : Bool := c == '\n' || c == '\x85' || c == '\u2028' || c == '\u2029'

def isPlainAscii (c : Char) : Bool := 0x20 ≤ c.toNat && c.toNat ≤ 0x7e

def whiteNext (cs : List Char) : Bool := cs.head?.all isWhite

/-- Whether something behind the first character would be read as a mark. -/
def marksWithin (before : Char) : List Char → Bool
  | [] => false
  | c :: cs => (c == ':' && whiteNext cs) || (c == '#' && isWhite before) || marksWithin c cs

/-- Whether a text would be read as a mark, from its first character on. -/
def hasMarks : List Char → Bool
  | [] => false
  | c :: cs =>
    "#,[]\x7b\x7d&*!|>'\"%@`".toList.contains c
      || ((c == '?' || c == ':' || c == '-') && whiteNext cs)
      || (String.ofList (c :: cs)).startsWith "---" || (String.ofList (c :: cs)).startsWith "..."
      || marksWithin c cs

/-- Whether a character of one class stands before one of another. -/
def meets (p q : Char → Bool) : List Char → Bool
  | a :: b :: cs => (p a && q b) || meets p q (b :: cs)
  | _ => false

def isSpaceChar (c : Char) : Bool := c == ' '

def fitsSingle (cs : List Char) : Bool :=
  cs.all (fun c => c == '\n' || isPlainAscii c) && !meets isSpaceChar isLineEnd cs
    && !meets isLineEnd isSpaceChar cs

def fitsPlain (cs : List Char) : Bool :=
  cs.all isPlainAscii && cs.head? != some ' ' && cs.getLast? != some ' ' && !hasMarks cs

inductive Quotes
  | plain | single | double
  deriving DecidableEq, Repr

def quotesFor (cs : List Char) : Quotes :=
  if Tag.ofPlain cs = .str && fitsPlain cs then .plain
  else if fitsSingle cs then .single
  else .double

/-! ## Texts -/

/-- A text as runs of characters that are alike by `f`. -/
def runs (f : Char → Nat) : List Char → List (List Char)
  | [] => []
  | c :: cs =>
    match runs f cs with
    | (d :: ds) :: rest => if f c = f d then (c :: d :: ds) :: rest else [c] :: (d :: ds) :: rest
    | rest => [c] :: rest

/-- Spaces, line breaks, and all else. -/
def runKind (c : Char) : Nat := if c = ' ' then 1 else if c = '\n' then 2 else 0

/-- Plain text. A single space past the width becomes a line break. -/
def putPlain (split : Bool) (indent : Nat) (cs : List Char) (p : Pen) : Pen :=
  let p := if p.space then p else p.put [' ']
  (runs runKind cs).foldl (fun p run =>
    if run = [' '] ∧ lineWidth < p.column ∧ split then (p.indentTo indent).inText
    else p.put run) p.inText

/-- The runs of a text in single quotes; `first` says whether the first run opens the text. -/
def putSingleRuns (split : Bool) (indent : Nat) (first : Bool) :
    List (List Char) → Pen → Pen
  | [], p => p
  | run :: rest, p =>
    let p :=
      match run with
      | '\n' :: _ => (run.foldl (fun p _ => p.lineBreak) p.lineBreak).indentTo indent
      | [' '] =>
        if lineWidth < p.column ∧ split ∧ !first ∧ !rest.isEmpty then p.indentTo indent
        else p.put run
      | _ => p.put (run.flatMap fun c => if c = '\'' then ['\'', '\''] else [c])
    putSingleRuns split indent false rest p

def putSingle (split : Bool) (indent : Nat) (cs : List Char) (p : Pen) : Pen :=
  let p := p.mark ['\''] true false false
  (putSingleRuns split indent true (runs runKind cs) p).mark ['\''] false false false

def upperHex (width n : Nat) : List Char := (hex width n).map Char.toUpper

def escape (c : Char) : List Char :=
  let n := c.toNat
  '\\' ::
    if n = 0 then ['0']
    else if n = 7 then ['a']
    else if n = 8 then ['b']
    else if n = 9 then ['t']
    else if n = 10 then ['n']
    else if n = 11 then ['v']
    else if n = 12 then ['f']
    else if n = 13 then ['r']
    else if n = 27 then ['e']
    else if c = '"' ∨ c = '\\' then [c]
    else if n = 0x85 then ['N']
    else if n = 0xa0 then ['_']
    else if n = 0x2028 then ['L']
    else if n = 0x2029 then ['P']
    else if n ≤ 0xff then 'x' :: upperHex 2 n
    else if n ≤ 0xffff then 'u' :: upperHex 4 n
    else 'U' :: upperHex 8 n

/-- A text in double quotes, from its character number `i` of `size` on. `waiting` are the
characters not yet written, newest first. Past the width a backslash ends the line. -/
def putDoubleFrom (split : Bool) (indent size i : Nat) (waiting : List Char) :
    List Char → Pen → Pen
  | [], p => p.put waiting.reverse
  | c :: cs, p =>
    let inside : Bool := 0 < i && i + 1 < size
    if !isPlainAscii c || c == '"' || c == '\\' then
      let p := (p.put waiting.reverse).put (escape c)
      let p :=
        if inside && lineWidth + 1 < p.column && split then
          let p := ((p.put ['\\']).indentTo indent).inText
          if cs.head? = some ' ' then p.put ['\\'] else p
        else p
      putDoubleFrom split indent size (i + 1) [] cs p
    else if inside && (c == ' ' || waiting.isEmpty) && lineWidth < p.column + waiting.length
        && split then
      let p := ((p.put (waiting.reverse ++ ['\\'])).indentTo indent).inText
      let p := if c = ' ' then p.put ['\\'] else p
      putDoubleFrom split indent size (i + 1) [c] cs p
    else putDoubleFrom split indent size (i + 1) (c :: waiting) cs p

def putDouble (split : Bool) (indent : Nat) (cs : List Char) (p : Pen) : Pen :=
  let p := p.mark ['"'] true false false
  (putDoubleFrom split indent cs.length 0 [] cs p).mark ['"'] false false false

def putText (split : Bool) (indent : Nat) (cs : List Char) (p : Pen) : Pen :=
  match quotesFor cs with
  | .plain => putPlain split indent cs p
  | .single => putSingle split indent cs p
  | .double => putDouble split indent cs p

/-! ## Values -/

def doubleText : Double → List Char
  | .nan => ".nan".toList
  | .infinite negative => (if negative then "-.inf" else ".inf").toList
  | x =>
    let cs := x.text.toList
    if cs.contains '.' then cs
    else cs.flatMap fun c => if c = 'e' then ['.', '0', 'e'] else [c]

def putScalar (indent : Nat) (s : Scalar) (p : Pen) : Except Fault Pen :=
  match s with
  | .text t => .ok (putText true indent t.toList p)
  | .null => .ok (putPlain true indent "null".toList p)
  | .flag b => .ok (putPlain true indent (if b then "true" else "false").toList p)
  | .int n => do return putPlain true indent (← writeInt n).toList p
  | .float x => .ok (putPlain true indent (doubleText x) p)

def isShortKey (key : String) : Bool :=
  !key.isEmpty && key.length < 123 && !key.toList.any isLineEnd

def putKey (indent : Nat) (key : String) (p : Pen) : Pen :=
  let p := p.indentTo indent
  if isShortKey key then (putText false (indent + 2) key.toList p).mark [':'] false false false
  else
    let p := putText true (indent + 2) key.toList (p.mark ['?'] true false true)
    (p.indentTo indent).mark [':'] true false true

mutual

/-- A value whose collection stands at `indent`; `mapped` says whether it is one of a mapping. A
list right behind its key does not move in. -/
def putData (indent : Nat) (mapped : Bool) : Data → Pen → Except Fault Pen
  | .scalar s, p => putScalar (indent + 2) s p
  | .list [], p => .ok ((p.mark ['['] true true false).mark [']'] false false false)
  | .record [], p => .ok ((p.mark ['\x7b'] true true false).mark ['\x7d'] false false false)
  | .list (x :: xs), p =>
    putItems (if mapped && !p.indention then indent else indent + 2) (x :: xs) p
  | .record (f :: fs), p => putFields (indent + 2) (f :: fs) p

def putItems (indent : Nat) : List Data → Pen → Except Fault Pen
  | [], p => .ok p
  | x :: xs, p => do
    let p ← putData indent false x ((p.indentTo indent).mark ['-'] true false true)
    putItems indent xs p

def putFields (indent : Nat) : List (String × Data) → Pen → Except Fault Pen
  | [], p => .ok p
  | (k, x) :: fs, p => do
    let p ← putData indent true x (putKey indent k p)
    putFields indent fs p

end

def write (fields : List (String × Data)) : Except Fault String := do
  let p ← putFields 0 fields {}
  return .ofList (p.indentTo 0).out.reverse

end Partitura.Yaml
