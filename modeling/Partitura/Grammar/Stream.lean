import Partitura.Data.Order
import Partitura.Data.Shown
import Partitura.Grammar.Block
import Partitura.Text.Quoted

/-!
# Streams

A place in a row of tokens, and an end before which it reads. A place before the first token
counts from the last one. What the grammar reads, it reads from the tokens between place and
end; a stream whose end lies beyond its tokens is torn, and reading across the tear fails.
-/

namespace Partitura

open Number Text

variable {P : Type}

structure Stream (P : Type) where
  tokens : List (Token P)
  pos : Data := .int 0
  stop : Data

namespace Stream

def ofTokens (ts : List (Token P)) : Stream P := { tokens := ts, stop := .int ts.length }

/-- The token at an index; a negative one counts from the end. -/
def index? (ts : List (Token P)) (i : Int) : Option (Token P) :=
  if 0 ≤ i then ts[i.toNat]?
  else if 0 ≤ ts.length + i then ts[(ts.length + i).toNat]?
  else none

def atEnd (s : Stream P) : Except Fault Bool := s.stop.atMost s.pos

/-- The token some places ahead; none past the end. -/
def peek (s : Stream P) (ahead : Data := .int 0) : Except Fault (Option (Token P)) := do
  let i ← (← s.pos.quantity).add (← ahead.quantity)
  if ← (Data.ofQuantity i).less s.stop then
    match i with
    | .real _ => throw .unsupported
    | .whole i =>
      match index? s.tokens i with
      | some t => return some t
      | none => throw .tokenOutOfRange
  else return none

def advance (s : Stream P) (n : Nat) : Except Fault (Stream P) := do
  if n = 0 then return s
  return { s with pos := .ofQuantity (← (← s.pos.quantity).add (.whole n)) }

def next (s : Stream P) : Except Fault (Option (Token P) × Stream P) := do
  let t ← s.peek
  return (t, ← s.advance (if ← s.atEnd then 0 else 1))

/-- Whether a mark stands next, and the stream behind it if so. -/
def skip (p : Punct) (s : Stream P) : Except Fault (Bool × Stream P) := do
  match ← s.peek with
  | some t => if t.isPunct p then return (true, ← s.advance 1) else return (false, s)
  | none => return (false, s)

/-- The same tokens between other bounds; null stands for the end of the tokens. -/
def window (s : Stream P) (start stop : Data) : Stream P :=
  match stop with
  | .scalar .null => { s with pos := start, stop := .int s.tokens.length }
  | stop => { s with pos := start, stop }

/-- The next `n` tokens from an index on, up to a tear, and whether there is one. -/
def viewFrom (ts : List (Token P)) : Nat → Int → List (Token P) × Bool
  | 0, _ => ([], false)
  | n + 1, i =>
    match index? ts i with
    | none => ([], true)
    | some t =>
      let (rest, torn) := viewFrom ts n (i + 1)
      (t :: rest, torn)

/-- How many whole numbers from `i` on lie below a bound, or more than any tokens if all do. -/
def room (ts : List (Token P)) (i : Int) : Quantity → Nat
  | .whole n => (n - i).toNat
  | .real (.finite s u) => (-(-(Double.signed s u)).fdiv Double.one - i).toNat
  | .real (.infinite false) => 2 * ts.length + 1
  | .real _ => 0

/-- The tokens still to be read, up to a tear, and whether there is one. -/
def view (s : Stream P) : Except Fault (List (Token P) × Bool) := do
  if ← s.atEnd then return ([], false)
  match ← s.pos.quantity with
  | .real _ => throw .unsupported
  | .whole i => return viewFrom s.tokens (room s.tokens i (← s.stop.quantity)) i

/-- Read from the tokens still to be read. A reader gives its result and how many tokens it
took. -/
def reading {α : Type} (s : Stream P) (reader : List (Token P) → Bool → Except Fault α × Nat) :
    Except Fault α × Stream P :=
  match s.view with
  | .error f => (.error f, s)
  | .ok (ts, torn) =>
    let (result, taken) := reader ts torn
    match s.advance taken with
    | .error f => (.error f, s)
    | .ok behind => (result, behind)

/-- Pass over a block from behind its opening brace on. The result is the index of the brace
that closes it, or the end. -/
def skipBlock (s : Stream P) : Except Fault Data × Stream P :=
  s.reading fun ts torn =>
    match takeBlock 0 ts with
    | (body, some _) =>
      (do return .ofQuantity (← (← s.pos.quantity).add (.whole body.length)), body.length + 1)
    | (body, none) => (if torn then .error .tokenOutOfRange else .ok s.stop, body.length)

def event (s : Stream P) : Except Fault (WrittenEvent P) × Stream P :=
  s.reading fun ts torn =>
    let (e, rest) := readEvent ts
    let result := match e with
      | .error f => .error f
      | .ok e => if torn && rest.isEmpty then .error .tokenOutOfRange else .ok e
    (result, ts.length - rest.length)

def callArgs (s : Stream P) : Except Fault (List (List (Token P))) × Stream P :=
  s.reading fun ts torn =>
    let (args, rest) := readCallArgs ts
    let short := match ts with
      | [] => true
      | t :: ts => t.isPunct .openParen && !argsEnd 0 ts
    (if torn && short then .error .tokenOutOfRange else .ok args, ts.length - rest.length)

/-- A line that shows where a stream stands. -/
def text (s : Stream P) : Except Fault String := do
  let pos ← s.pos.shown
  let stop ← s.stop.shown
  let t ← s.peek
  return "TokenStream(pos=" ++ pos ++ ", end=" ++ stop ++ ", next=" ++ quoted (textOf t) ++ ")"

end Stream

end Partitura
