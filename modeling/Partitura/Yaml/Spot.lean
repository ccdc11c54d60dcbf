import Partitura.Fault

/-!
# Places in a YAML text

A place knows what follows it and where it stands: its offset, its line and its column. Columns
say which collection a line belongs to, so every step keeps them.
-/

namespace Partitura.Yaml

inductive Trouble
  /-- The text breaks the rules. -/
  | broken
  /-- The text ends where it must not. -/
  | cut
  | fault (f : Fault)

abbrev Read (α : Type) := Except Trouble α

def broken {α : Type} : Read α := .error .broken

/-! ## Characters -/

def isBreak (c : Char) : Bool :=
  c == '\n' || c == '\x85' || c == '\u2028' || c == '\u2029'

/-- What a line break is read as: a line feed, but a separator stays itself. -/
def breakChar (c : Char) : Char := if c = '\x85' then '\n' else c

def isSpaceOrTab (c : Char) : Bool := c == ' ' || c == '\t'

/-- Whether a space, a tab, a line break or the end stands in front. -/
def blankAhead : List Char → Bool
  | [] => true
  | c :: _ => isSpaceOrTab c || isBreak c

/-- Whether a space, a line break or the end stands in front. -/
def spaceAhead : List Char → Bool
  | [] => true
  | c :: _ => c == ' ' || isBreak c

/-- Whether a line break or the end stands in front. -/
def endAhead : List Char → Bool
  | [] => true
  | c :: _ => isBreak c

/-- Whether a document marker stands in front, on the condition that a line begins here. -/
def markerAhead : List Char → Bool
  | '-' :: '-' :: '-' :: cs => blankAhead cs
  | '.' :: '.' :: '.' :: cs => blankAhead cs
  | _ => false

/-! ## Places -/

structure Spot where
  rest : List Char
  index : Nat := 0
  line : Nat := 0
  column : Nat := 0

namespace Spot

/-- Go over one character. A byte order mark takes no column. -/
def step (s : Spot) : Spot :=
  match s.rest with
  | [] => s
  | c :: cs =>
    if isBreak c then ⟨cs, s.index + 1, s.line + 1, 0⟩
    else if c = '\ufeff' then ⟨cs, s.index + 1, s.line, s.column⟩
    else ⟨cs, s.index + 1, s.line, s.column + 1⟩

def move : Nat → Spot → Spot
  | 0, s => s
  | n + 1, s => move n s.step

/-- Go over the characters in front that a test accepts. -/
def skip (p : Char → Bool) (s : Spot) : Spot := s.move (s.rest.takeWhile p).length

def skipSpaces (s : Spot) : Spot := s.skip (· == ' ')

/-- Go over a line break if one stands in front. -/
def skipBreak (s : Spot) : Spot := if s.rest.head?.any isBreak then s.step else s

/-- Pass over spaces, comments and line breaks; `cs` is what follows. The flag says whether a
line break was met. -/
def seek (comment crossed : Bool) : List Char → Spot → Spot × Bool
  | [], s => (s, crossed)
  | c :: cs, s =>
    if isBreak c then seek false true cs s.step
    else if comment then seek true crossed cs s.step
    else if c = ' ' then seek false crossed cs s.step
    else if c = '#' then seek true crossed cs s.step
    else (s, crossed)

/-- Where the next token begins, and whether on another line. -/
def next (s : Spot) : Spot × Bool := seek false false s.rest s

def isMarker (s : Spot) : Bool := s.column == 0 && markerAhead s.rest

/-- What must be empty behind a directive or the head of a block scalar: spaces and a comment,
up to the end of the line. -/
def restOfLine (s : Spot) : Read Spot :=
  let t := s.skipSpaces
  let u := if t.rest.head? = some '#' then t.skip fun c => !isBreak c else t
  if endAhead u.rest then .ok u.skipBreak else broken

end Spot

end Partitura.Yaml
