import Partitura.Yaml.Spot

/-!
# Block scalars

Lines that are taken as they stand, or folded into one, from a column on that is given or that
the first line sets. A sign in the head says what becomes of the breaks at the end.
-/

namespace Partitura.Yaml

/-- What becomes of the line breaks at the end of a block scalar. -/
inductive Chomp
  | strip | clip | keep
  deriving DecidableEq, Repr

/-- The head of a block scalar behind its first character: how it ends, and how far it stands
in, if that is given. -/
structure BlockHead where
  chomp : Chomp := .clip
  depth : Option Nat := none

def chompOf? : Char → Option Chomp
  | '+' => some .keep
  | '-' => some .strip
  | _ => none

def depthOf? (c : Char) : Option Nat :=
  if '0' ≤ c ∧ c ≤ '9' then some (c.toNat - '0'.toNat) else none

/-- The head in front and how many characters it has. A sign and a digit may come in either
order. -/
def BlockHead.ofChars (cs : List Char) : BlockHead × Nat :=
  let sign? := cs.head?.bind chompOf?
  let digit? := cs.head?.bind depthOf?
  let second := cs.drop 1
  match sign?, digit? with
  | some chomp, _ =>
    match second.head?.bind depthOf? with
    | some n => (⟨chomp, some n⟩, 2)
    | none => (⟨chomp, none⟩, 1)
  | none, some n =>
    match second.head?.bind chompOf? with
    | some chomp => (⟨chomp, some n⟩, 2)
    | none => (⟨.clip, some n⟩, 1)
  | none, none => ({}, 0)

/-- Empty lines and spaces before the first line: the breaks, how far in the spaces reach, and
what follows. -/
def leadingLines (deepest : Nat) : List Char → Spot → List Char × Nat × Spot
  | [], s => ([], deepest, s)
  | c :: cs, s =>
    if c = ' ' then leadingLines (max deepest (s.column + 1)) cs s.step
    else if isBreak c then
      let (breaks, d, t) := leadingLines deepest cs s.step
      (breakChar c :: breaks, d, t)
    else ([], deepest, s)

/-- Empty lines and the spaces before the next one, which end at a column. -/
def innerLines (indent : Nat) : List Char → Spot → List Char × Spot
  | [], s => ([], s)
  | c :: cs, s =>
    if c = ' ' && s.column < indent then innerLines indent cs s.step
    else if isBreak c then
      let (breaks, t) := innerLines indent cs s.step
      (breakChar c :: breaks, t)
    else ([], s)

/-- The lines of a block scalar from `s` on, behind some empty lines. The result is the text
without its end, the break of its last line, the breaks behind it, and where it ends. -/
def blockLines (folded : Bool) (indent : Nat) :
    Nat → List Char → Spot → List Char × List Char × List Char × Spot
  | 0, breaks, s => ([], [], breaks, s)
  | fuel + 1, breaks, s =>
    if s.column = indent ∧ !s.rest.isEmpty then
      let line := s.rest.takeWhile fun c => !isBreak c
      let t := s.move line.length
      let last := (t.rest.take 1).map breakChar
      let (more, u) := innerLines indent t.skipBreak.rest t.skipBreak
      if u.column = indent ∧ !u.rest.isEmpty then
        let level := !(line.head?.any isSpaceOrTab) && !(u.rest.head?.any isSpaceOrTab)
        let join :=
          if folded && last == ['\n'] && level then if more.isEmpty then [' '] else []
          else last
        let (text, finish, behind, v) := blockLines folded indent fuel more u
        (breaks ++ line ++ join ++ text, finish, behind, v)
      else (breaks ++ line, last, more, u)
    else ([], [], breaks, s)

/-- A block scalar from behind its first character, in a collection at a column; minus one is
the top of the document. -/
def readBlock (folded : Bool) (around : Int) (s : Spot) : Read (List Char × Spot) := do
  let (head, width) := BlockHead.ofChars s.rest
  let t := s.move width
  if head.depth = some 0 || !spaceAhead t.rest then broken
  let t ← t.restOfLine
  let least := max 1 (around + 1).toNat
  let (breaks, indent, u) := match head.depth with
    | some n =>
      let indent := least + n - 1
      let (breaks, u) := innerLines indent t.rest t
      (breaks, indent, u)
    | none =>
      let (breaks, deepest, u) := leadingLines 0 t.rest t
      (breaks, max least deepest, u)
  let (text, last, behind, v) := blockLines folded indent u.rest.length.succ breaks u
  let text := match head.chomp with
    | .strip => text
    | .clip => text ++ last
    | .keep => text ++ last ++ behind
  return (text, v)

end Partitura.Yaml
