import Partitura.Data
import Partitura.Number.Numeral

/-!
# Reading JSON

A reader that says what it missed and how many characters were still unread there. Beside the
standard values it takes `NaN`, `Infinity` and `-Infinity`. Every nested value begins behind
at least one character of its own, so the length of the text bounds the nesting.
-/

namespace Partitura.Json

open Number Text

inductive Trouble
  /-- `problem`, with `left` characters unread. -/
  | malformed (problem : String) (left : Nat)
  | fault (f : Fault)

def miss {α : Type} (problem : String) (rest : List Char) : Except Trouble α :=
  .error (.malformed problem rest.length)

def isSpace (c : Char) : Bool := c == ' ' || c == '\t' || c == '\n' || c == '\r'

def skip (cs : List Char) : List Char := cs.dropWhile isSpace

def hexValue? (c : Char) : Option Nat :=
  let n := c.toNat
  if 0x30 ≤ n ∧ n ≤ 0x39 then some (n - 0x30)
  else if 0x61 ≤ n ∧ n ≤ 0x66 then some (n - 0x57)
  else if 0x41 ≤ n ∧ n ≤ 0x46 then some (n - 0x37)
  else none

/-- Four hexadecimal digits followed by at least one more character. -/
def readUnit : List Char → Option (Nat × List Char)
  | a :: b :: c :: d :: rest =>
    match rest, hexValue? a, hexValue? b, hexValue? c, hexValue? d with
    | _ :: _, some a, some b, some c, some d =>
      some (((a * 16 + b) * 16 + c) * 16 + d, rest)
    | _, _, _, _, _ => none
  | _ => none

def shortEscape? : Char → Option Char
  | '"' => some '"'
  | '\\' => some '\\'
  | '/' => some '/'
  | 'b' => some '\x08'
  | 'f' => some '\x0c'
  | 'n' => some '\n'
  | 'r' => some '\r'
  | 't' => some '\t'
  | _ => none

/-- What follows `\u`: one unit, or two that make a character beyond the first plane. `slash`
is the text from the letter `u` on. -/
def readEscape (slash cs : List Char) : Except Trouble (Char × List Char) :=
  match readUnit cs with
  | none => miss "Invalid \\uXXXX escape" slash
  | some (high, rest) =>
    if 0xd800 ≤ high ∧ high ≤ 0xdbff then
      match rest with
      | '\\' :: 'u' :: more =>
        match readUnit more with
        | none =>
          if more.length < 5 then .ok (Char.ofNat 0xfffd, rest)
          else miss "Invalid \\uXXXX escape" ('u' :: more)
        | some (low, behind) =>
          if 0xdc00 ≤ low ∧ low ≤ 0xdfff then
            .ok (Char.ofNat (0x10000 + (high - 0xd800) * 0x400 + (low - 0xdc00)), behind)
          else .ok (Char.ofNat 0xfffd, rest)
      | _ => .ok (Char.ofNat 0xfffd, rest)
    else if 0xdc00 ≤ high ∧ high ≤ 0xdfff then .ok (Char.ofNat 0xfffd, rest)
    else .ok (Char.ofNat high, rest)

/-- The rest of a text whose opening quote was read; `start` is the text from that quote on,
`done` what was read so far, newest first. -/
def readText (start : List Char) : Nat → List Char → List Char → Except Trouble (String × List Char)
  | 0, _, _ => miss "Unterminated string starting at" start
  | _ + 1, _, [] => miss "Unterminated string starting at" start
  | fuel + 1, done, c :: cs =>
    if c = '"' then .ok (.ofList done.reverse, cs)
    else if c = '\\' then
      match cs with
      | [] => miss "Unterminated string starting at" start
      | 'u' :: rest => do
        let (x, rest) ← readEscape cs rest
        readText start fuel (x :: done) rest
      | e :: rest =>
        match shortEscape? e with
        | some x => readText start fuel (x :: done) rest
        | none => miss "Invalid \\escape" (c :: cs)
    else if c.toNat < 0x20 then miss "Invalid control character at" (c :: cs)
    else readText start fuel (c :: done) cs

def isFigure09 (c : Char) : Bool := '0' ≤ c && c ≤ '9'

/-- The digits `0` to `9` at the front, and the rest. -/
def figureRun (cs : List Char) : List Char × List Char :=
  (cs.takeWhile isFigure09, cs.dropWhile isFigure09)

/-- The whole part of a number: a lone zero, or digits that do not begin with one. -/
def readWhole : List Char → Option (List Char × List Char)
  | '0' :: rest => some (['0'], rest)
  | c :: rest => if isFigure09 c then some (figureRun (c :: rest)) else none
  | [] => none

def readDecimals : List Char → List Char × List Char
  | '.' :: c :: rest =>
    if isFigure09 c then
      let (ds, rest) := figureRun (c :: rest)
      ('.' :: ds, rest)
    else ([], '.' :: c :: rest)
  | rest => ([], rest)

def readPower (cs : List Char) : List Char × List Char :=
  match cs with
  | e :: rest =>
    if e = 'e' ∨ e = 'E' then
      let (sign, digits) := match rest with
        | '+' :: more => (['+'], more)
        | '-' :: more => (['-'], more)
        | more => ([], more)
      match figureRun digits with
      | ([], _) => ([], cs)
      | (ds, rest) => (e :: sign ++ ds, rest)
    else ([], cs)
  | [] => ([], [])

/-- A number; `none` if there is none here. -/
def readNumber (cs : List Char) : Option (Except Fault Scalar × List Char) :=
  let (sign, body) := match cs with
    | '-' :: rest => (['-'], rest)
    | rest => ([], rest)
  match readWhole body with
  | none => none
  | some (whole, rest) =>
    let (part, rest) := readDecimals rest
    let (power, rest) := readPower rest
    let text := String.ofList (sign ++ whole ++ part ++ power)
    if part.isEmpty && power.isEmpty then some ((readInt text).map Scalar.int, rest)
    else some (.ok (.float ((readDouble text).getD .nan)), rest)

/-- A word at the front, and what follows it. -/
def readWord? : List Char → List Char → Option (List Char)
  | [], cs => some cs
  | w :: ws, c :: cs => if w = c then readWord? ws cs else none
  | _ :: _, [] => none

def wordValues : List (String × Scalar) := [
  ("null", .null), ("true", .flag true), ("false", .flag false), ("NaN", .float .nan),
  ("Infinity", .float (.infinite false)), ("-Infinity", .float (.infinite true))]

def readScalar (cs : List Char) : Except Trouble (Data × List Char) :=
  match wordValues.findSome? fun (w, v) => (readWord? w.toList cs).map (v, ·) with
  | some (v, rest) => .ok (.scalar v, rest)
  | none =>
    match readNumber cs with
    | some (.ok v, rest) => .ok (.scalar v, rest)
    | some (.error f, _) => .error (.fault f)
    | none => miss "Expecting value" cs

/-- How many lists and records may lie in each other. -/
def nestingLimit : Nat := 990

mutual

/-- A value in which so many lists and records may lie in each other as `levels` says. -/
def readValue : Nat → Nat → List Char → Except Trouble (Data × List Char)
  | 0, _, cs => miss "Expecting value" cs
  | fuel + 1, levels, cs =>
    match cs, levels with
    | '"' :: rest, _ => do
      let (s, rest) ← readText cs (fuel + 1) [] rest
      return (.text s, rest)
    | '[' :: _, 0 => .error (.fault (.nestedTooDeep "array"))
    | '[' :: rest, levels + 1 =>
      match skip rest with
      | ']' :: rest => .ok (.list [], rest)
      | rest => do
        let (items, rest) ← readItems fuel levels rest
        return (.list items, rest)
    | '\x7b' :: _, 0 => .error (.fault (.nestedTooDeep "object"))
    | '\x7b' :: rest, levels + 1 =>
      match skip rest with
      | '\x7d' :: rest => .ok (.record [], rest)
      | rest => do
        let (fields, rest) ← readFields fuel levels rest
        return (.record (settle fields), rest)
    | _, _ => readScalar cs

/-- Items up to the closing bracket, at least one. -/
def readItems : Nat → Nat → List Char → Except Trouble (List Data × List Char)
  | 0, _, cs => miss "Expecting value" cs
  | fuel + 1, levels, cs => do
    let (x, rest) ← readValue fuel levels cs
    match skip rest with
    | ']' :: rest => return ([x], rest)
    | ',' :: rest =>
      let (xs, rest) ← readItems fuel levels (skip rest)
      return (x :: xs, rest)
    | rest => miss "Expecting ',' delimiter" rest

/-- Fields up to the closing brace, at least one. -/
def readFields : Nat → Nat → List Char → Except Trouble (List (String × Data) × List Char)
  | 0, _, cs => miss "Expecting value" cs
  | fuel + 1, levels, cs =>
    match cs with
    | '"' :: rest => do
      let (k, rest) ← readText cs (fuel + 1) [] rest
      match skip rest with
      | ':' :: rest =>
        let (x, rest) ← readValue fuel levels (skip rest)
        match skip rest with
        | '\x7d' :: rest => return ([(k, x)], rest)
        | ',' :: rest =>
          let (fs, rest) ← readFields fuel levels (skip rest)
          return ((k, x) :: fs, rest)
        | rest => miss "Expecting ',' delimiter" rest
      | rest => miss "Expecting ':' delimiter" rest
    | _ => miss "Expecting property name enclosed in double quotes" cs

end

/-- The line and column, both from one, behind the characters `before`. -/
def place (before : List Char) : Nat × Nat :=
  (before.count '\n' + 1, (before.reverse.takeWhile (· != '\n')).length + 1)

/-- One value with nothing but space around it. -/
def readWhole? (cs : List Char) : Except Trouble Data := do
  match cs with
  | '\ufeff' :: _ => miss "Unexpected UTF-8 BOM (decode using utf-8-sig)" cs
  | _ =>
    let (x, rest) ← readValue (2 * cs.length + 1) nestingLimit (skip cs)
    match skip rest with
    | [] => return x
    | rest => miss "Extra data" rest

def read (s : String) : Except Fault Data :=
  let cs := s.toList
  match readWhole? cs with
  | .ok x => .ok x
  | .error (.fault f) => .error f
  | .error (.malformed problem left) =>
    let before := cs.take (cs.length - left)
    .error (.badJson problem (place before).1 (place before).2 before.length)

end Partitura.Json
