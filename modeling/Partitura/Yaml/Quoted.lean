import Partitura.Number.Numeral
import Partitura.Yaml.Spot

/-!
# Quoted scalars

Text between quotes may run over lines. A break between two lines is a space, and blanks
around it are dropped; empty lines are breaks. Double quotes know escapes, single quotes stand
for themselves when doubled.
-/

namespace Partitura.Yaml

/-- Text that was read, and whether it is whole: an escape may name half of a pair, which is no
character. -/
structure Scanned where
  text : List Char
  whole : Bool := true

namespace Scanned

def put (cs : List Char) (s : Scanned) : Scanned := { s with text := cs ++ s.text }

end Scanned

/-- What becomes of a line break and of the empty lines behind it. -/
def fold (first : Char) (breaks : List Char) : List Char :=
  if first ≠ '\n' then first :: breaks
  else if breaks.isEmpty then [' ']
  else breaks

/-- The breaks of lines that hold nothing but blanks; `cs` is what follows. A line must not
begin with a document marker. -/
def quotedBreaks (fresh : Bool) : List Char → Spot → Read (List Char × Spot)
  | [], s => .ok ([], s)
  | c :: cs, s =>
    if fresh && markerAhead (c :: cs) then broken
    else if isSpaceOrTab c then quotedBreaks false cs s.step
    else if isBreak c then do
      let (breaks, t) ← quotedBreaks true cs s.step
      return (breakChar c :: breaks, t)
    else .ok ([], s)

/-! ## Escapes -/

def shortEscape? : Char → Option Char
  | '0' => some '\x00'
  | 'a' => some '\x07'
  | 'b' => some '\x08'
  | 't' => some '\t'
  | '\t' => some '\t'
  | 'n' => some '\n'
  | 'v' => some '\x0b'
  | 'f' => some '\x0c'
  | 'r' => some '\r'
  | 'e' => some '\x1b'
  | ' ' => some ' '
  | '"' => some '"'
  | '\\' => some '\\'
  | '/' => some '/'
  | 'N' => some '\x85'
  | '_' => some '\xa0'
  | 'L' => some '\u2028'
  | 'P' => some '\u2029'
  | _ => none

def escapeWidth? : Char → Option Nat
  | 'x' => some 2
  | 'u' => some 4
  | 'U' => some 8
  | _ => none

def isHex (c : Char) : Bool :=
  ('0' ≤ c && c ≤ '9') || ('a' ≤ c && c ≤ 'f') || ('A' ≤ c && c ≤ 'F')

def hexValue (cs : List Char) : Nat :=
  cs.foldl (fun v c =>
    let n := c.toNat
    16 * v + (if n < 0x40 then n - 0x30 else if n < 0x60 then n - 0x37 else n - 0x57)) 0

def codePoint (n : Nat) : Except Fault (Option Char) :=
  if 0x7fffffff < n then .error .codeTooLarge
  else if 0x10ffff < n then .error .codeOutOfRange
  else if 0xd800 ≤ n ∧ n ≤ 0xdfff then .ok none
  else .ok (some (Char.ofNat n))

/-- Hexadecimal digits in front, so many as an escape asks for. -/
def hexDigits (width : Nat) (cs : List Char) : Read Nat :=
  let ds := cs.take width
  if ds.length = width ∧ ds.all isHex then .ok (hexValue ds) else broken

/-! ## Scalars -/

/-- The rest of a quoted scalar, with its closing quote, and where it ends. -/
def readQuoted (double : Bool) : Nat → Spot → Read (Scanned × Spot)
  | 0, _ => broken
  | fuel + 1, s =>
    let quote := if double then '"' else '\''
    let further (cs : List Char) (t : Spot) : Read (Scanned × Spot) := do
      let (more, u) ← readQuoted double fuel t
      return (more.put cs, u)
    match s.rest with
    | [] => .error .cut
    | c :: cs =>
      if c = quote then
        if !double && cs.head? = some '\'' then further ['\''] (s.move 2)
        else .ok (⟨[], true⟩, s.step)
      else if double && c = '\\' then
        match cs with
        | [] => .error .cut
        | e :: ds =>
          match shortEscape? e, escapeWidth? e with
          | some c, _ => further [c] (s.move 2)
          | none, some width => do
            match codePoint (← hexDigits width ds) with
            | .error f => throw (.fault f)
            | .ok (some c) => further [c] (s.move (2 + width))
            | .ok none =>
              let (more, t) ← readQuoted double fuel (s.move (2 + width))
              return ({ more with whole := false }, t)
          | none, none =>
            if isBreak e then do
              let (breaks, t) ← quotedBreaks true ds (s.move 2)
              further breaks t
            else broken
      else if isSpaceOrTab c || isBreak c then
        let t := s.skip isSpaceOrTab
        match t.rest with
        | [] => .error .cut
        | d :: ds =>
          if isBreak d then do
            let (breaks, u) ← quotedBreaks true ds t.step
            further (fold (breakChar d) breaks) u
          else further (s.rest.takeWhile isSpaceOrTab) t
      else further [c] s.step

end Partitura.Yaml
