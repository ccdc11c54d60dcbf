import Partitura.Text.Utf8
import Partitura.Yaml.Literal
import Partitura.Yaml.Plain

/-!
# Tokens of YAML

Besides what is written, the tokens tell where block collections begin and end, and which nodes
are keys. A key is known only by the colon behind it, so every node that may be one is kept in
mind until its line ends; when the colon comes, its marks are put in front of the node.
-/

namespace Partitura.Yaml

open Text

/-- What is wanted of the reader of a document. -/
inductive Directive
  | version (major : Nat)
  /-- What a handle in front of tags stands for. -/
  | handle (name lead : String)
  | other

inductive Token
  | directive (d : Directive)
  | documentStart
  | documentEnd
  -- block collections
  | sequenceStart
  | mappingStart
  | blockEnd
  | entry
  | key
  | value
  -- flow collections
  | openBracket
  | closeBracket
  | openBrace
  | closeBrace
  | comma
  -- nodes
  | alias (name : String)
  | anchor (name : String)
  /-- A tag: its handle, if it has one, and the rest of it. -/
  | tag (handle : Option String) (suffix : String)
  | scalar (text : Scanned) (plain : Bool)
  /-- Nothing can be read from here on. -/
  | trouble (t : Trouble)

/-! ## Names and tags -/

def isNameChar (c : Char) : Bool :=
  ('0' ≤ c && c ≤ '9') || ('A' ≤ c && c ≤ 'Z') || ('a' ≤ c && c ≤ 'z') || c == '-' || c == '_'

def readName (s : Spot) : Read (String × Spot) :=
  let name := s.rest.takeWhile isNameChar
  let t := s.move name.length
  let ends := blankAhead t.rest || t.rest.head?.any fun c => "?:,]\x7d%@`".toList.contains c
  if name.isEmpty || !ends then broken else .ok (.ofList name, t)

def isTagChar (c : Char) : Bool :=
  isNameChar c || ";/?:@&=+$,.!~*'()[]".toList.contains c

/-- The bytes of escapes in front, and what follows. -/
def tagBytes : List Char → Read (List UInt8 × List Char)
  | '%' :: a :: b :: cs =>
    if isHex a && isHex b then do
      let (bytes, rest) ← tagBytes cs
      return (.ofNat (hexValue [a, b]) :: bytes, rest)
    else broken
  | '%' :: _ => broken
  | cs => .ok ([], cs)

/-- The characters of a tag in front; `fuel` bounds how many. -/
def tagChars : Nat → List Char → Read (List Char × List Char)
  | 0, _ => broken
  | fuel + 1, cs =>
    match cs with
    | [] => .ok ([], [])
    | '%' :: _ => do
      let (bytes, rest) ← tagBytes cs
      match decodeUtf8 bytes with
      | .error _ => broken
      | .ok text =>
        let (more, behind) ← tagChars fuel rest
        return (text ++ more, behind)
    | c :: rest =>
      if isTagChar c then do
        let (more, behind) ← tagChars fuel rest
        return (c :: more, behind)
      else .ok ([], cs)

/-- The text of a tag in front, and where it ends. -/
def readTagText (s : Spot) : Read (String × Spot) := do
  let (text, rest) ← tagChars s.rest.length.succ s.rest
  if rest.length = s.rest.length then broken
  return (.ofList text, s.move (s.rest.length - rest.length))

def readHandle (s : Spot) : Read (String × Spot) :=
  match s.rest with
  | '!' :: ' ' :: _ => .ok ("!", s.step)
  | '!' :: cs =>
    let name := cs.takeWhile isNameChar
    if (cs.drop name.length).head? = some '!' then
      .ok (.ofList ('!' :: name ++ ['!']), s.move (name.length + 2))
    else broken
  | _ => broken

/-- A tag in front. A space, a line break or the end must follow it. -/
def readTag (s : Spot) : Read (Token × Spot) := do
  let (token, t) ← match s.rest.drop 1 with
    | '<' :: _ => do
      let (text, t) ← readTagText (s.move 2)
      if t.rest.head? ≠ some '>' then broken
      pure (Token.tag none text, t.step)
    | cs =>
      if blankAhead cs then pure (Token.tag none "!", s.step)
      else if (cs.takeWhile fun c => !(c == ' ' || isBreak c)).contains '!' then do
        let (handle, t) ← readHandle s
        let (text, u) ← readTagText t
        pure (Token.tag (some handle) text, u)
      else do
        let (text, t) ← readTagText s.step
        pure (Token.tag (some "!") text, t)
  if spaceAhead t.rest then return (token, t) else broken

/-! ## Directives -/

def readNumber (s : Spot) : Read (Nat × Spot) :=
  let ds := s.rest.takeWhile fun c => '0' ≤ c && c ≤ '9'
  if ds.isEmpty then broken
  else .ok (ds.foldl (fun n c => 10 * n + (c.toNat - '0'.toNat)) 0, s.move ds.length)

def readDirective (s : Spot) : Read (Token × Spot) := do
  let s := s.step
  let name := s.rest.takeWhile isNameChar
  let t := s.move name.length
  if name.isEmpty || !spaceAhead t.rest then broken
  let (d, u) ← match String.ofList name with
    | "YAML" => do
      let (major, u) ← readNumber t.skipSpaces
      if u.rest.head? ≠ some '.' then broken
      let (_, v) ← readNumber u.step
      if !spaceAhead v.rest then broken
      pure (Directive.version major, v)
    | "TAG" => do
      let (handle, u) ← readHandle t.skipSpaces
      if u.rest.head? ≠ some ' ' then broken
      let (lead, v) ← readTagText u.skipSpaces
      if !spaceAhead v.rest then broken
      pure (Directive.handle handle lead, v)
    | _ => pure (Directive.other, t.skip fun c => !isBreak c)
  return (.directive d, ← u.restOfLine)

/-! ## The row of tokens -/

/-- A node that may turn out to be a key. -/
structure Candidate where
  /-- How many tokens stand before it. -/
  before : Nat
  /-- Whether nothing but a key can stand there. -/
  required : Bool
  spot : Spot

/-- What the tokens so far say about the next one. -/
structure Row where
  spot : Spot
  /-- The newest first. -/
  tokens : List Token := []
  /-- How many flow collections are open. -/
  flow : Nat := 0
  /-- The column of the innermost block collection; minus one is the top. -/
  indent : Int := -1
  /-- The columns of the others, the nearest first. -/
  outer : List Int := []
  /-- Whether a key may begin here. -/
  keyAllowed : Bool := true
  /-- The last candidate of every level of flow collections. -/
  candidates : List (Nat × Candidate) := []
  /-- What keeps the text from going on where it seems to end. -/
  beyond : Option Fault := none

namespace Row

/-- How far behind its beginning the colon of a key may stand. -/
def keyWidth : Nat := 1024

def add (t : Token) (r : Row) : Row := { r with tokens := t :: r.tokens }

/-- Add a token that takes some characters. -/
def take (n : Nat) (t : Token) (r : Row) : Row := { r.add t with spot := r.spot.move n }

/-- Whether a candidate cannot be a key any more. -/
def isStale (r : Row) (c : Candidate) : Bool :=
  c.spot.line != r.spot.line || keyWidth < r.spot.index - c.spot.index

/-- Forget the candidates that cannot be keys any more. -/
def dropStale (r : Row) : Read Row :=
  if r.candidates.any fun (_, c) => r.isStale c && c.required then broken
  else .ok { r with candidates := r.candidates.filter fun (_, c) => !r.isStale c }

def candidate? (r : Row) : Option Candidate := r.candidates.lookup r.flow

/-- Give up the candidate of this level, which must not be required. -/
def dropCandidate (r : Row) : Read Row :=
  if r.candidate?.any (·.required) then broken
  else .ok { r with candidates := r.candidates.filter (·.1 != r.flow) }

/-- Keep in mind that the next token may begin a key. -/
def mayBeKey (r : Row) : Read Row := do
  if !r.keyAllowed then return r
  let required := r.flow == 0 && r.indent == r.spot.column
  let r' ← r.dropCandidate
  return { r' with candidates := (r.flow, ⟨r.tokens.length, required, r.spot⟩) :: r'.candidates }

/-- Close the block collections that stand further in than a column. -/
def closeFrom (column indent : Int) (r : Row) : List Int → Row
  | [] => { r with indent, outer := [] }
  | i :: is =>
    if column < indent then closeFrom column i (r.add .blockEnd) is
    else { r with indent, outer := i :: is }

def closeTo (column : Int) (r : Row) : Row :=
  if r.flow = 0 then closeFrom column r.indent r r.outer else r

/-- Begin a block collection at a column if that is further in. -/
def openAt (column : Nat) (r : Row) : Option Row :=
  if r.indent < column then some { r with indent := column, outer := r.indent :: r.outer }
  else none

def insert (n : Nat) (t : Token) (r : Row) : Row :=
  let newer := r.tokens.length - n
  { r with tokens := r.tokens.take newer ++ t :: r.tokens.drop newer }

/-- A token of the document, before which all block collections end. -/
def boundary (r : Row) : Read Row := do
  return { ← (r.closeTo (-1)).dropCandidate with keyAllowed := false }

def opening (t : Token) (r : Row) : Read Row := do
  let r ← r.mayBeKey
  return { r.take 1 t with flow := r.flow + 1, keyAllowed := true }

def closing (t : Token) (r : Row) : Read Row := do
  let r ← r.dropCandidate
  return { r.take 1 t with flow := r.flow - 1, keyAllowed := false }

/-- The dash of a sequence entry or the question mark of a key. -/
def leading (start t : Token) (r : Row) : Read Row := do
  let r ← if r.flow = 0 then
      if !r.keyAllowed then broken
      else pure ((r.openAt r.spot.column).elim r (add start))
    else pure r
  return (← r.dropCandidate).take 1 t

def colon (r : Row) : Read Row :=
  match r.candidate? with
  | some c => do
    let r := { r with candidates := r.candidates.filter (·.1 != r.flow), keyAllowed := false }
    let r := r.insert c.before .key
    let r := if r.flow = 0 then
        (r.openAt c.spot.column).elim r (insert c.before .mappingStart)
      else r
    return r.take 1 .value
  | none => do
    if r.flow = 0 && !r.keyAllowed then broken
    let r := if r.flow = 0 then
        (r.openAt r.spot.column).elim r (add .mappingStart)
      else r
    return ({ ← r.dropCandidate with keyAllowed := r.flow == 0 }).take 1 .value

/-- A token that may begin a key, from what it is read as. -/
def node (read : Spot → Read (Token × Spot)) (r : Row) : Read Row := do
  let r ← r.mayBeKey
  let (t, spot) ← read r.spot
  return { r.add t with spot, keyAllowed := false }

def plain (r : Row) : Read Row := do
  let r ← r.mayBeKey
  let (text, spot, crossed) := readPlain (r.flow != 0) (r.indent + 1).toNat
    r.spot.rest.length.succ ⟨[], r.spot, false⟩
  return { r.add (.scalar ⟨text, true⟩ true) with spot, keyAllowed := crossed }

def quoted (double : Bool) : Row → Read Row :=
  node fun s => do
    let (text, t) ← readQuoted double s.rest.length.succ s.step
    return (.scalar text false, t)

def block (folded : Bool) (r : Row) : Read Row := do
  let r ← { r with keyAllowed := true }.dropCandidate
  let (text, spot) ← readBlock folded r.indent r.spot.step
  return { r.add (.scalar ⟨text, true⟩ false) with spot }

/-- The token that begins here. -/
def token (r : Row) : Read Row :=
  let inFlow := r.flow != 0
  match r.spot.rest with
  | [] => .ok r
  | c :: cs =>
    if c = '%' && r.spot.column == 0 then do
      let r ← r.boundary
      let (t, spot) ← readDirective r.spot
      return { r.add t with spot }
    else if r.spot.isMarker then do
      return (← r.boundary).take 3 (if c = '-' then .documentStart else .documentEnd)
    else if c = '[' then r.opening .openBracket
    else if c = '\x7b' then r.opening .openBrace
    else if c = ']' then r.closing .closeBracket
    else if c = '\x7d' then r.closing .closeBrace
    else if c = ',' then do
      return (← { r with keyAllowed := true }.dropCandidate).take 1 .comma
    else if c = '-' && blankAhead cs then do
      return { ← r.leading .sequenceStart .entry with keyAllowed := true }
    else if c = '?' && (inFlow || blankAhead cs) then do
      return { ← r.leading .mappingStart .key with keyAllowed := !inFlow }
    else if c = ':' && (inFlow || blankAhead cs) then r.colon
    else if c = '*' then r.node fun s => do
      let (name, t) ← readName s.step
      return (.alias name, t)
    else if c = '&' then r.node fun s => do
      let (name, t) ← readName s.step
      return (.anchor name, t)
    else if c = '!' then r.node readTag
    else if c = '|' && !inFlow then r.block false
    else if c = '>' && !inFlow then r.block true
    else if c = '\'' then r.quoted false
    else if c = '"' then r.quoted true
    else if startsPlain inFlow (c :: cs) then r.plain
    else broken

/-- The row where its next token begins, behind blanks, comments and line breaks. -/
def arrive (r : Row) : Read Row := do
  let (spot, crossed) := r.spot.next
  if let ([], some f) := (spot.rest, r.beyond) then throw (.fault f)
  let r := { r with spot, keyAllowed := r.keyAllowed || (crossed && r.flow == 0) }
  let r ← r.dropStale
  return r.closeTo r.spot.column

/-- The row with one more token; nothing more comes at the end of the text. -/
def step (r : Row) : Read (Row × Bool) := do
  let r ← r.arrive
  if r.spot.rest.isEmpty then return (← r.boundary, true) else return (← r.token, false)

/-- How many tokens are certain: those before all candidates. -/
def certain (r : Row) : Nat :=
  (r.candidates.filter fun (_, c) => !r.isStale c).foldl (fun n (_, c) => min n c.before)
    r.tokens.length

/-- A trouble of this row: where the text cannot go on, the reason for that is told. -/
def told (r : Row) : Trouble → Trouble
  | .cut => r.beyond.elim .broken .fault
  | t => t

/-- All tokens, those so far included. What keeps others from being read is told behind the
certain ones: a reader of tokens has to know of each whether it is a key. -/
def all : Nat → Row → List Token
  | 0, r => (Token.trouble .broken :: r.tokens).reverse
  | fuel + 1, r =>
    match r.step with
    | .error t => r.tokens.reverse.take r.certain ++ [.trouble (r.told t)]
    | .ok (r, ended) => if ended then r.tokens.reverse else all fuel r

end Row

/-- The tokens of a text that may be kept from going on. -/
def tokensOf (cs : List Char) (beyond : Option Fault) : List Token :=
  let start : Spot := { rest := cs }
  let spot := if cs.head? = some '\ufeff' then start.step else start
  Row.all (cs.length + 2) { spot, beyond }

end Partitura.Yaml
