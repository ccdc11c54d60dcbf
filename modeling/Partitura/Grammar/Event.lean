import Partitura.Grammar.Arguments
import Partitura.Duration
import Partitura.Modifier

/-!
# Written events

An event is a pitch or a bracketed chord, then in any order a length behind a colon and
modifiers. Names of modifiers stand on the pitch behind a point, on the length, or in symbols
of their own that begin with a point. Parentheses belong to the last name.
-/

namespace Partitura

open Text

variable {P : Type}

/-- The length given with an event: none, a duration, or something that is none. -/
inductive Length
  | unwritten
  | value (d : Duration)
  | unreadable (text : String)
  deriving DecidableEq

structure WrittenEvent (P : Type) where
  /-- The first token; none if the event was read where no token was left. -/
  anchor : Option (Token P)
  pitches : List String
  chord : Bool
  length : Length
  modifiers : List Modifier

namespace WrittenEvent

def isGrace (e : WrittenEvent P) : Bool := e.modifiers.any (·.kind == .grace)

/-- A single pitch `r` or `s` is a rest. -/
def isRest (e : WrittenEvent P) : Bool :=
  match e.chord, e.pitches with
  | false, [s] => s == "r" || s == "s"
  | _, _ => false

end WrittenEvent

/-- Names of modifiers with the texts of their arguments, newest first. -/
abbrev Chain := List (String × List String)

namespace Chain

/-- Add the names in a text, which points separate. -/
def extend (chain : Chain) (text : List Char) : Chain :=
  (pieces '.' text).foldl
    (fun chain name => if name.isEmpty then chain else (.ofList name, []) :: chain) chain

def modifiers (chain : Chain) : List Modifier :=
  (chain.map fun (name, args) => Modifier.create name args).reverse

end Chain

/-- The pitches of a chord up to its closing bracket, or to a bar or closing brace, which stay
unread. Other marks are passed over. -/
def readChord : List (Token P) → List String × List (Token P)
  | [] => ([], [])
  | t :: ts =>
    match t.lexeme with
    | .punct .closeBracket => ([], ts)
    | .punct .bar => ([], t :: ts)
    | .punct .closeBrace => ([], t :: ts)
    | .symbol s =>
      let (pitches, rest) := readChord ts
      (s :: pitches, rest)
    | _ => readChord ts

/-- Lengths and modifiers behind a pitch. -/
def readTail (chain : Chain) (length : Length) :
    List (Token P) → Except Fault (Chain × Length) × List (Token P)
  | [] => (.ok (chain, length), [])
  | t :: ts =>
    match t.lexeme with
    | .punct .openParen =>
      match chain with
      | [] => (.ok (chain, length), t :: ts)
      | (name, _) :: older =>
        have := length_readTexts 0 [] "" ts
        readTail ((name, (readTexts 0 [] "" ts).1) :: older) length (readTexts 0 [] "" ts).2
    | .punct .colon =>
      match length, ts with
      | .unwritten, ⟨.symbol s, _⟩ :: rest =>
        match Duration.read s with
        | .error f => (.error f, rest)
        | .ok none => readTail chain (.unreadable s) rest
        | .ok (some (d, tail)) => readTail (chain.extend tail.toList) (.value d) rest
      | .unwritten, ts => readTail chain .unwritten ts
      | _, _ => (.ok (chain, length), t :: ts)
    | .symbol s =>
      match s.toList with
      | '.' :: names => readTail (chain.extend names) length ts
      | _ => (.ok (chain, length), t :: ts)
    | _ => (.ok (chain, length), t :: ts)
termination_by ts => ts.length

/-- The pitches at the head of an event, whether they are a chord, the names of modifiers on
the pitch, and the rest. -/
def readHead : List (Token P) → (List String × Bool × Chain) × List (Token P)
  | [] => (([""], false, []), [])
  | t :: ts =>
    if t.isPunct .openBracket then
      (((readChord ts).1, true, []), (readChord ts).2)
    else
      let (pitch, names) := cutAt '.' t.text.toList
      (([.ofList pitch], false, Chain.extend [] (names.getD [])), ts)

/-- Read one event. A numeral that is too long is a fault, met behind that numeral. -/
def readEvent (ts : List (Token P)) : Except Fault (WrittenEvent P) × List (Token P) :=
  let ((pitches, chord, chain), rest) := readHead ts
  match readTail chain .unwritten rest with
  | (.error f, rest) => (.error f, rest)
  | (.ok (chain, length), rest) =>
    (.ok ⟨ts.head?, pitches, chord, length, chain.modifiers⟩, rest)

theorem length_readChord (ts : List (Token P)) : (readChord ts).2.length ≤ ts.length := by
  fun_induction readChord ts <;> simp_all <;> omega

theorem length_readTail (chain : Chain) (length : Length) (ts : List (Token P)) :
    (readTail chain length ts).2.length ≤ ts.length := by
  fun_induction readTail chain length ts <;> simp_all <;> omega

theorem length_readHead (t : Token P) (ts : List (Token P)) :
    (readHead (t :: ts)).2.length ≤ ts.length := by
  simp only [readHead]
  split
  · exact length_readChord ts
  · simp

theorem length_readEvent (t : Token P) (ts : List (Token P)) :
    (readEvent (t :: ts)).2.length ≤ ts.length := by
  have h := length_readHead t ts
  have h' := length_readTail (readHead (t :: ts)).1.2.2 .unwritten (readHead (t :: ts)).2
  unfold readEvent
  simp only
  split <;> rename_i heq <;> rw [heq] at h' <;> simp at h' ⊢ <;> omega

end Partitura
