import Partitura.Grammar.Event

/-!
# Voice streams

A voice stream is a row of events and macro calls. It ends at a bar, at a closing brace, at
the word `meta`, or where the name of a defined instrument stands before a colon. The body of
a macro is read to its last token.
-/

namespace Partitura

variable {P : Type}

inductive Item (P : Type)
  | event (e : WrittenEvent P)
  | call (head : Token P) (name : String) (args : List (List (Token P)))
  /-- An event that could not be read. -/
  | broken (f : Fault)

/-- A part of a text, and how many tokens were unread behind it. -/
structure Placed (α : Type) where
  value : α
  unread : Nat

/-- Whether an event may begin with a token: an opening bracket, or a symbol without a point
in front. -/
def startsEvent (t : Token P) : Bool :=
  match t.lexeme with
  | .punct .openBracket => true
  | .symbol s => !(s.toList.head? == some '.')
  | _ => false

/-- Whether a voice stream ends before these tokens. -/
def endsStream (defined : String → Bool) : List (Token P) → Bool
  | [] => true
  | t :: ts =>
    match t.lexeme with
    | .punct .bar => true
    | .punct .closeBrace => true
    | .symbol s =>
      Text.lower s == "meta" || (defined s && (ts.head?.any (·.isPunct .colon)))
    | _ => false

def itemOf : Except Fault (WrittenEvent P) → Item P
  | .ok e => .event e
  | .error f => .broken f

/-- The items up to where `ends` says the stream ends, and the rest. -/
def readItems (ends : List (Token P) → Bool) :
    List (Token P) → List (Placed (Item P)) × List (Token P)
  | [] => ([], [])
  | t :: ts =>
    if ends (t :: ts) then ([], t :: ts)
    else
      match t.lexeme with
      | .call name =>
        have := length_readCallArgs ts
        let (args, rest) := readCallArgs ts
        let (items, behind) := readItems ends (readCallArgs ts).2
        (⟨.call t name args, rest.length⟩ :: items, behind)
      | _ =>
        if startsEvent t then
          have := length_readEvent t ts
          let (e, rest) := readEvent (t :: ts)
          let (items, behind) := readItems ends (readEvent (t :: ts)).2
          (⟨itemOf e, rest.length⟩ :: items, behind)
        else readItems ends ts
termination_by ts => ts.length

/-- The items of a stream within a measure. -/
def readStream (defined : String → Bool) (ts : List (Token P)) :
    List (Placed (Item P)) × List (Token P) :=
  readItems (endsStream defined) ts

def readBody (ts : List (Token P)) : List (Placed (Item P)) := (readItems (fun _ => false) ts).1

theorem length_readItems (ends : List (Token P) → Bool) (ts : List (Token P)) :
    (readItems ends ts).2.length ≤ ts.length := by
  fun_induction readItems ends ts with
  | case1 => simp
  | case2 => simp
  | case3 t ts _ name _ h args rest heq items behind hitems ih =>
    simp_all; omega
  | case4 t ts _ _ _ h e rest heq items behind hitems ih =>
    simp_all; omega
  | case5 => simp; omega

end Partitura
