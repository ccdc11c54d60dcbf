import Partitura.Fault
import Partitura.Text.Cut
import Partitura.Number.Fraction

/-!
# Pitches

Letters, accidentals, and absolute pitches in semitones and cents. Middle C, the C of octave
four, is pitch 60. A pitch is written as a letter, any run of accidentals and an optional
octave, in either case.
-/

namespace Partitura

open Number Text

inductive Letter
  | c | d | e | f | g | a | b
  deriving DecidableEq, Repr

namespace Letter

def semitones : Letter → Int
  | c => 0 | d => 2 | e => 4 | f => 5 | g => 7 | a => 9 | b => 11

def name : Letter → String
  | c => "C" | d => "D" | e => "E" | f => "F" | g => "G" | a => "A" | b => "B"

def ofChar? : Char → Option Letter
  | 'c' => some c | 'd' => some d | 'e' => some e | 'f' => some f
  | 'g' => some g | 'a' => some a | 'b' => some b
  | _ => none

/-- The absolute semitone of a letter in an octave. -/
def midi (l : Letter) (octave : Int) : Int := l.semitones + (octave + 1) * 12

def read (s : String) : Except Fault Letter :=
  match trimBy isBlank s.toList with
  | [x] =>
    match ofChar? x.toLower with
    | some l => .ok l
    | none => .error (.unknownLetter s)
  | _ => .error (.unknownLetter s)

end Letter

/-- Accidentals. One spelled with a long s is recognised, and has no meaning. -/
inductive Accidental
  | threeQuarterSharp | threeQuarterFlat | quarterSharp | quarterFlat
  | doubleSharp | doubleFlat | flat | sharp | natural
  | unreadable (spelling : String)
  deriving DecidableEq, Repr

namespace Accidental

/-- Semitones up. -/
def offset : Accidental → Except Fault Rat
  | threeQuarterSharp => .ok (3 / 2)
  | threeQuarterFlat => .ok (-3 / 2)
  | quarterSharp => .ok (1 / 2)
  | quarterFlat => .ok (-1 / 2)
  | doubleSharp => .ok 2
  | doubleFlat => .ok (-2)
  | flat => .ok (-1)
  | sharp => .ok 1
  | natural => .ok 0
  | unreadable s => .error (.unknownAccidental s)

/-- The accidental at the front of a lower-case text, the longer spelling first, and the rest. -/
def cut? : List Char → Option (Accidental × List Char)
  | 't' :: 'q' :: 's' :: cs => some (threeQuarterSharp, cs)
  | 't' :: 'q' :: 'ſ' :: cs => some (unreadable "tqſ", cs)
  | 't' :: 'q' :: 'f' :: cs => some (threeQuarterFlat, cs)
  | 'q' :: 's' :: cs => some (quarterSharp, cs)
  | 'q' :: 'ſ' :: cs => some (unreadable "qſ", cs)
  | 'q' :: 'f' :: cs => some (quarterFlat, cs)
  | 'x' :: cs => some (doubleSharp, cs)
  | 'b' :: 'b' :: cs => some (doubleFlat, cs)
  | 'b' :: cs => some (flat, cs)
  | '#' :: cs => some (sharp, cs)
  | 'n' :: cs => some (natural, cs)
  | _ => none

theorem length_of_cut? {cs rest : List Char} {x : Accidental} (h : cut? cs = some (x, rest)) :
    rest.length < cs.length := by
  unfold cut? at h
  split at h <;> simp at h <;> obtain ⟨-, rfl⟩ := h <;> simp <;> omega

def run (cs : List Char) : List Accidental × List Char :=
  match h : cut? cs with
  | some (x, rest) =>
    have := length_of_cut? h
    let (xs, behind) := run rest
    (x :: xs, behind)
  | none => ([], cs)
termination_by cs.length

/-- All accidentals found in a lower-case text, other characters passed over. -/
def among : List Char → List Accidental
  | [] => []
  | c :: cs =>
    match h : cut? (c :: cs) with
    | some (x, rest) =>
      have := length_of_cut? h
      x :: among rest
    | none => among cs
termination_by cs => cs.length
decreasing_by
  · assumption
  · exact Nat.lt_succ_self _

def total : List Accidental → Except Fault Rat
  | [] => .ok 0
  | x :: xs => do
    let q ← x.offset
    return q + (← total xs)

/-- The semitones of the accidentals found in a text, in either case. -/
def sumIn (s : String) : Except Fault Rat := total (among (s.toList.map Char.toLower))

end Accidental

/-- An absolute pitch: a semitone, and cents above it. -/
structure Pitch where
  midi : Int
  cents : Int := 0
  deriving DecidableEq, Repr

namespace Pitch

/-- The pitch for what cannot be resolved, middle C. -/
def nominal : Pitch := ⟨60, 0⟩

def defaultOctave : Int := 4

/-- The pitch of a fractional semitone, to the nearest cent. -/
def ofSemitones (q : Rat) : Pitch :=
  let midi := q.num.fdiv q.den
  ⟨midi, roundRat ((q - midi) * 100)⟩

def transpose (p : Pitch) (semitones : Int) : Pitch := { p with midi := p.midi + semitones }

def le (p q : Pitch) : Bool := p.midi < q.midi || (p.midi == q.midi && p.cents ≤ q.cents)

/-- `midi:60`, or `midi:60+50c` with cents. -/
def text (p : Pitch) : Except Fault String := do
  let m ← writeInt p.midi
  if p.cents = 0 then return "midi:" ++ m
  return "midi:" ++ m ++ "+" ++ (← writeInt p.cents) ++ "c"

def value (p : Pitch) : Except Fault Double :=
  -- the cents are divided and rounded first, then added and rounded again
  match Double.ofInt p.midi, (Double.ofRat (mkRat p.cents 100)).value? with
  | .finite s u, some c =>
    .ok (.ofRat (mkRat (if s then -(u : Int) else u) Double.one + c))
  | _, _ => .error .numberTooLarge

/-- Read back what `text` writes. -/
def ofText (s : String) : Except Fault Pitch := do
  let body := match s.toList with
    | 'm' :: 'i' :: 'd' :: 'i' :: ':' :: rest => rest
    | cs => cs
  match cutAt '+' body with
  | (midi, some cents) =>
    let m ← readInt (.ofList midi)
    let c ← readInt (.ofList (cents.reverse.dropWhile (· == 'c')).reverse)
    return ⟨m, c⟩
  | (midi, none) => return ⟨← readInt (.ofList midi), 0⟩

/-- The octave behind the accidentals: none written, or a whole number. -/
def octaveText? : List Char → Option (Option (List Char))
  | [] => some none
  | cs =>
    let ds := match cs with
      | '-' :: ds => ds
      | ds => ds
    if !ds.isEmpty && ds.all isDigit then some (some cs) else none

/-- A written pitch in its parts: letter, accidentals, and the octave if one is written. -/
structure Written where
  letter : Letter
  marks : List Accidental
  octave : Option (List Char)

/-- The parts of a written pitch; nothing if the text is none. -/
def written? (s : String) : Option Written :=
  match (chomp s.toList).map Char.toLower with
  | [] => none
  | x :: cs => do
    let letter ← Letter.ofChar? x
    let (marks, tail) := Accidental.run cs
    return ⟨letter, marks, ← octaveText? tail⟩

def Written.octave? (w : Written) : Except Fault (Option Int) :=
  match w.octave with
  | none => .ok none
  | some ds => do return some (← readInt (.ofList ds))

/-- Read a written pitch; `octave` serves if none is written. The result is the pitch and the
octave used, or nothing if the text is no pitch. -/
def read (s : String) (octave : Int) : Except Fault (Option (Pitch × Int)) :=
  match written? s with
  | none => .ok none
  | some w => do
    let o := (← w.octave?).getD octave
    let q ← Accidental.total w.marks
    return some (ofSemitones (w.letter.midi o + q), o)

end Pitch

end Partitura
