import Partitura.Yaml.Quoted

/-!
# Plain scalars

Text without quotes ends at a comment, at a colon that ends a key, in a flow collection at one
of its marks, and where a line is not further in than the collection around it.
-/

namespace Partitura.Yaml

def isFlowMark (c : Char) : Bool :=
  c == ',' || c == '[' || c == ']' || c == '\x7b' || c == '\x7d'

def startsPlain (flow : Bool) : List Char → Bool
  | [] => false
  | c :: cs =>
    if c == '-' then !blankAhead cs
    else if c == '?' || c == ':' then !flow && !blankAhead cs
    else !(isSpaceOrTab c || isBreak c || isFlowMark c
      || "#&*!|>'\"%@`".toList.contains c)

/-- The word of a plain scalar in front: up to a blank, a colon that ends a key, or in a flow
collection one of its marks. -/
def plainWord (flow : Bool) : List Char → List Char
  | [] => []
  | c :: cs =>
    if isSpaceOrTab c || isBreak c then []
    else if c = ':' && (blankAhead cs || (flow && (cs.head?.any isFlowMark))) then []
    else if flow && (isFlowMark c || c == '?') then []
    else c :: plainWord flow cs

/-- The breaks of empty lines, and whether a document marker ended them; `cs` is what
follows. -/
def plainBreaks (fresh : Bool) : List Char → Spot → List Char × Spot × Bool
  | [], s => ([], s, false)
  | c :: cs, s =>
    if fresh && markerAhead (c :: cs) then ([], s, true)
    else if c = ' ' then plainBreaks false cs s.step
    else if isBreak c then
      let (breaks, t, marker) := plainBreaks true cs s.step
      (breakChar c :: breaks, t, marker)
    else ([], s, false)

/-- What stands between two words. -/
structure Gap where
  /-- What it is read as; nothing if no word can follow. -/
  text : List Char
  /-- Where it ends. -/
  spot : Spot
  /-- Whether it crosses a line break. -/
  crossed : Bool

def Gap.ofSpot (s : Spot) : Gap :=
  let t := s.skipSpaces
  match t.rest with
  | [] => ⟨s.rest.takeWhile (· == ' '), t, false⟩
  | c :: cs =>
    if isBreak c then
      let (breaks, u, marker) := plainBreaks true cs t.step
      ⟨if marker then [] else fold (breakChar c) breaks, u, true⟩
    else ⟨s.rest.takeWhile (· == ' '), t, false⟩

/-- A plain scalar behind a gap: its text with that of the gap, where the gap behind it ends,
and whether that gap crosses a line break. Lines must be at least `indent` columns in, except in
a flow collection. -/
def readPlain (flow : Bool) (indent : Nat) : Nat → Gap → List Char × Spot × Bool
  | 0, gap => ([], gap.spot, gap.crossed)
  | fuel + 1, gap =>
    let s := gap.spot
    let word := plainWord flow s.rest
    if s.rest.head? = some '#' || word.isEmpty then ([], s, gap.crossed)
    else
      let behind := Gap.ofSpot (s.move word.length)
      if behind.text.isEmpty || (!flow && behind.spot.column < indent) then
        (gap.text ++ word, behind.spot, behind.crossed)
      else
        let (more, t, crossed) := readPlain flow indent fuel behind
        (gap.text ++ word ++ more, t, crossed)

end Partitura.Yaml
