import Partitura.Proofs.Lexing
import Partitura.Proofs.Notation

/-!
The texts that stand for pitches and for lengths.

A `PitchText` is a letter, a row of accidentals and perhaps an octave, and a `LengthText` is a note
value with dots and perhaps names of modifiers. These are the texts that are read as pitches and as
lengths. Accidentals can be told apart in several ways: three flats may be a flat and a double flat,
in either order. Reading takes the longer spelling first, but whichever way a row is taken apart, it
goes up the same number of semitones (`Raises`). The last dot of a length belongs to the names if
there are any, so the parts of a length are settled by its text (`LengthText.eq_of_text`).
-/

namespace Partitura

open Number Text

/-! ### Digits -/

structure Digits where
  chars : List Char
  nonempty : chars ≠ []
  digits : ∀ c ∈ chars, c.isDigit = true

namespace Digits

def value (d : Digits) : Nat := Nat.ofDigitChars 10 d.chars 0

lemma isDigit (d : Digits) : ∀ c ∈ d.chars, Text.isDigit c = true := fun c hc =>
  isDigit_iff.mpr ⟨_, digit?_of_isDigit (d.digits c hc)⟩

/-- Digits that are not too many are read as the number they make. -/
lemma readInt (d : Digits) (h : d.chars.length ≤ digitLimit) (negative : Bool) :
    Number.readInt (.ofList (if negative then '-' :: d.chars else d.chars)) =
      .ok (if negative then -(d.value : Int) else d.value) := by
  have hlength : (d.chars.filterMap digit?).length ≤ digitLimit :=
    (List.length_filterMap_le _ _).trans h
  have hvalue : digitsValue (d.chars.filterMap digit?) = d.value := by
    rw [filterMap_digit? d.digits, digitsValue, List.foldl_map]
    rfl
  rw [readInt_digits negative d.nonempty d.isDigit, ofDigits, if_neg (by omega), hvalue]

end Digits

/-- The digits of ASCII. -/
lemma isDigit_of_ascii {c : Char} (h : Text.isDigit c = true) (hc : c.toNat < 128) :
    c.isDigit = true := by
  obtain ⟨d, hd⟩ := isDigit_iff.mp h
  unfold digit? at hd
  rw [if_pos hc] at hd
  split at hd
  · rename_i hbounds
    simpa [Char.isDigit, Char.le_def] using hbounds
  · cases hd

lemma isAscii_of_all {s : String} (h : s.toList.all (·.toNat < 128) = true) : IsAscii s :=
  fun c hc => of_decide_eq_true (List.all_eq_true.mp h c hc)

lemma chomp_of_not_mem {cs : List Char} (h : '\n' ∉ cs) : chomp cs = cs := by
  rw [chomp, if_neg fun hlast => h (List.mem_of_getLast? hlast)]

/-! ### Texts of pitches -/

def naturals : List (Char × Int) :=
  [('c', 0), ('d', 2), ('e', 4), ('f', 5), ('g', 7), ('a', 9), ('b', 11)]

def accidentals : List (List Char × Rat) := [
  (['t', 'q', 's'], 3 / 2), (['t', 'q', 'f'], -3 / 2), (['q', 's'], 1 / 2), (['q', 'f'], -1 / 2),
  (['x'], 2), (['b', 'b'], -2), (['b'], -1), (['#'], 1), (['n'], 0)]

structure LetterText where
  char : Char
  semitones : Int
  natural : (char.toLower, semitones) ∈ naturals

structure MarkText where
  chars : List Char
  semitones : Rat
  spelled : (chars.map Char.toLower, semitones) ∈ accidentals

structure OctaveText where
  negative : Bool
  digits : Digits

namespace OctaveText

def chars (o : OctaveText) : List Char :=
  if o.negative then '-' :: o.digits.chars else o.digits.chars

def value (o : OctaveText) : Int :=
  if o.negative then -(o.digits.value : Int) else o.digits.value

end OctaveText

structure PitchText where
  letter : LetterText
  marks : List MarkText
  octave : Option OctaveText

namespace PitchText

def octaveChars (w : PitchText) : List Char := (w.octave.map OctaveText.chars).getD []

def text (w : PitchText) : String :=
  .ofList (w.letter.char :: (w.marks.flatMap MarkText.chars ++ w.octaveChars))

def octaveIn (w : PitchText) (octave : Int) : Int := (w.octave.map OctaveText.value).getD octave

def raised (w : PitchText) : Rat := (w.marks.map MarkText.semitones).sum

end PitchText

/-! ### Rows of accidentals -/

/-- A row of spellings, in lower case, that goes up so many semitones. -/
inductive Raises : List Char → Rat → Prop
  | nil : Raises [] 0
  | cons {m cs : List Char} {q r : Rat} (hm : (m, q) ∈ accidentals) (h : Raises cs r) :
    Raises (m ++ cs) (q + r)

lemma raises_marks (ms : List MarkText) :
    Raises ((ms.flatMap MarkText.chars).map Char.toLower) (ms.map MarkText.semitones).sum := by
  induction ms with
  | nil => exact .nil
  | cons m ms ih =>
    rw [List.flatMap_cons, List.map_append, List.map_cons, List.sum_cons]
    exact .cons m.spelled ih

/-- Without its first flat a row goes up a semitone more, also if it began with a double flat. -/
lemma Raises.behind_flat {cs : List Char} {q : Rat} (h : Raises ('b' :: cs) q) :
    Raises cs (q + 1) := by
  generalize hrow : 'b' :: cs = row at h
  cases h with
  | nil => cases hrow
  | @cons m rest q r hm h =>
    simp only [accidentals, List.mem_cons, Prod.mk.injEq, List.not_mem_nil, or_false] at hm
    rcases hm with ⟨rfl, rfl⟩ | ⟨rfl, rfl⟩ | ⟨rfl, rfl⟩ | ⟨rfl, rfl⟩ | ⟨rfl, rfl⟩ | ⟨rfl, rfl⟩ |
      ⟨rfl, rfl⟩ | ⟨rfl, rfl⟩ | ⟨rfl, rfl⟩
    case inr.inr.inr.inr.inr.inl =>
      obtain rfl : cs = ['b'] ++ rest := (List.cons.inj hrow).2
      have hsum : -2 + r + 1 = -1 + r := by ring
      rw [hsum]
      exact .cons (by simp [accidentals]) h
    case inr.inr.inr.inr.inr.inr.inl =>
      obtain rfl : cs = rest := (List.cons.inj hrow).2
      have hsum : -1 + r + 1 = r := by ring
      rwa [hsum]
    all_goals simp at hrow

namespace Accidental

/-- Every spelling but the single flat is read as it is, whatever follows. -/
lemma cut?_spelling {m : List Char} {q : Rat} (h : (m, q) ∈ accidentals) :
    (m = ['b'] ∧ q = -1) ∨
      ∃ x : Accidental, x.offset = .ok q ∧ ∀ rest, cut? (m ++ rest) = some (x, rest) := by
  simp only [accidentals, List.mem_cons, Prod.mk.injEq, List.not_mem_nil, or_false] at h
  rcases h with ⟨rfl, rfl⟩ | ⟨rfl, rfl⟩ | ⟨rfl, rfl⟩ | ⟨rfl, rfl⟩ | ⟨rfl, rfl⟩ | ⟨rfl, rfl⟩ |
    ⟨rfl, rfl⟩ | ⟨rfl, rfl⟩ | ⟨rfl, rfl⟩
  · exact .inr ⟨.threeQuarterSharp, rfl, fun _ => rfl⟩
  · exact .inr ⟨.threeQuarterFlat, rfl, fun _ => rfl⟩
  · exact .inr ⟨.quarterSharp, rfl, fun _ => rfl⟩
  · exact .inr ⟨.quarterFlat, rfl, fun _ => rfl⟩
  · exact .inr ⟨.doubleSharp, rfl, fun _ => rfl⟩
  · exact .inr ⟨.doubleFlat, rfl, fun _ => rfl⟩
  · exact .inl ⟨rfl, rfl⟩
  · exact .inr ⟨.sharp, rfl, fun _ => rfl⟩
  · exact .inr ⟨.natural, rfl, fun _ => rfl⟩

/-- A single flat is read where no other follows. -/
lemma cut?_flat {rest : List Char} (h : rest.head? ≠ some 'b') :
    cut? ('b' :: rest) = some (.flat, rest) := by
  cases rest with
  | nil => rfl
  | cons c rest =>
    have hc : c ≠ 'b' := by simpa using h
    simp [cut?, hc]

/-- What is read is a spelling, or has a long s. -/
lemma cut?_cases {cs rest : List Char} {x : Accidental} (h : cut? cs = some (x, rest)) :
    (∃ s, x = .unreadable s) ∨ ∃ m q, (m, q) ∈ accidentals ∧ cs = m ++ rest := by
  unfold cut? at h
  split at h <;> cases h
  · exact .inr ⟨['t', 'q', 's'], 3 / 2, by simp [accidentals], rfl⟩
  · exact .inl ⟨_, rfl⟩
  · exact .inr ⟨['t', 'q', 'f'], -3 / 2, by simp [accidentals], rfl⟩
  · exact .inr ⟨['q', 's'], 1 / 2, by simp [accidentals], rfl⟩
  · exact .inl ⟨_, rfl⟩
  · exact .inr ⟨['q', 'f'], -1 / 2, by simp [accidentals], rfl⟩
  · exact .inr ⟨['x'], 2, by simp [accidentals], rfl⟩
  · exact .inr ⟨['b', 'b'], -2, by simp [accidentals], rfl⟩
  · exact .inr ⟨['b'], -1, by simp [accidentals], rfl⟩
  · exact .inr ⟨['#'], 1, by simp [accidentals], rfl⟩
  · exact .inr ⟨['n'], 0, by simp [accidentals], rfl⟩

lemma run_of_cut?_none {cs : List Char} (h : cut? cs = none) : run cs = ([], cs) := by
  rw [run]
  split <;> simp_all

/-- An accidental in front of a row adds what it counts. -/
lemma run_cons {cs rest tail : List Char} {x : Accidental} {xs : List Accidental} {q r : Rat}
    (hcut : cut? cs = some (x, rest)) (hrun : run rest = (xs, tail)) (hx : x.offset = .ok q)
    (hxs : total xs = .ok r) : run cs = (x :: xs, tail) ∧ total (x :: xs) = .ok (q + r) := by
  constructor
  · rw [run]
    split <;> simp_all
  · rw [total, hx, ok_bind, hxs]
    rfl

end Accidental

open Accidental in
/-- **A row of accidentals goes up the same however it is taken apart**, and reading agrees. -/
lemma Raises.run {cs : List Char} {q : Rat} (h : Raises cs q) {tail : List Char}
    (htail : cut? tail = none) : ∃ xs, Accidental.run (cs ++ tail) = (xs, tail) ∧
      total xs = .ok q := by
  induction hn : cs.length using Nat.strong_induction_on generalizing cs q with
  | _ n ih =>
    cases h with
    | nil => exact ⟨[], run_of_cut?_none htail, rfl⟩
    | @cons m cs q r hm h =>
      rcases cut?_spelling hm with ⟨rfl, rfl⟩ | ⟨x, hx, hcut⟩
      · rw [List.singleton_append, List.length_cons] at hn
        by_cases hflat : cs.head? = some 'b'
        · -- two flats are taken together
          obtain ⟨rest, rfl⟩ := List.head?_eq_some_iff.mp hflat
          obtain ⟨xs, hrun, htotal⟩ := ih rest.length (by simp at hn; omega) h.behind_flat rfl
          have hsum : -1 + r = -2 + (r + 1) := by ring
          rw [hsum]
          exact ⟨_, run_cons (x := .doubleFlat) rfl hrun rfl htotal⟩
        · obtain ⟨xs, hrun, htotal⟩ := ih cs.length (by omega) h rfl
          have hhead : (cs ++ tail).head? ≠ some 'b' := by
            cases cs with
            | cons c cs => exact hflat
            | nil =>
              intro hb
              obtain ⟨rest, rfl⟩ := List.head?_eq_some_iff.mp hb
              unfold cut? at htail
              split at htail <;> simp_all
          exact ⟨_, run_cons (cut?_flat hhead) hrun rfl htotal⟩
      · obtain ⟨xs, hrun, htotal⟩ := ih cs.length (hn ▸ length_of_cut? (hcut cs)) h rfl
        rw [List.append_assoc]
        exact ⟨_, run_cons (hcut _) hrun hx htotal⟩

/-- The characters that are read as accidentals can be taken apart into spellings. -/
lemma exists_marks {cs : List Char} (h : 'ſ' ∉ cs) :
    ∃ (ms : List MarkText) (rest : List Char), cs = ms.flatMap MarkText.chars ++ rest ∧
      (Accidental.run (cs.map Char.toLower)).2 = rest.map Char.toLower := by
  generalize hl : cs.map Char.toLower = l
  fun_induction Accidental.run l generalizing cs with
  | case1 l x rest hcut _ xs behind hrun ih =>
    subst hl
    rcases Accidental.cut?_cases hcut with ⟨s, rfl⟩ | ⟨m, q, hm, happend⟩
    · obtain ⟨c, hc, hlower⟩ := List.mem_map.mp (Accidental.cut?_unreadable hcut).2
      rw [eq_of_toLower hlower (by decide)] at hc
      exact absurd hc h
    · obtain ⟨front, back, rfl, rfl, rfl⟩ := List.map_eq_append_iff.mp happend
      obtain ⟨ms, rest, rfl, hrest⟩ := ih (fun hmem => h (List.mem_append_right _ hmem)) rfl
      refine ⟨⟨front, q, hm⟩ :: ms, rest, by simp, ?_⟩
      rw [← hrest, hrun]
  | case2 l hcut =>
    subst hl
    exact ⟨[], cs, rfl, rfl⟩

/-! ### Octaves -/

/-- No digit is a letter. -/
lemma not_isAlpha_of_isDigit {c : Char} (h : Text.isDigit c = true) : c.isAlpha = false := by
  have hzeros : ∀ z ∈ zeros, 122 < z := by decide
  have hbounds : c.toNat ≤ 57 ∨ 122 < c.toNat := by
    rcases isDigit_cases h with hc | ⟨z, hz, hc⟩
    · exact .inl hc.2
    · exact .inr ((hzeros z hz).trans_le hc.1)
  rw [← Bool.not_eq_true, isAlpha_iff]
  omega

lemma toLower_of_not_isAlpha {c : Char} (h : c.isAlpha = false) : c.toLower = c := by
  unfold Char.toLower
  split
  · rename_i hupper
    have hge := UInt32.le_iff_toNat_le.mp hupper.1
    have hle := UInt32.le_iff_toNat_le.mp hupper.2
    have htrue : c.isAlpha = true := isAlpha_iff.mpr (.inl ⟨hge, hle⟩)
    rw [h] at htrue
    cases htrue
  · rfl

lemma map_toLower_eq {cs : List Char} (h : ∀ c ∈ cs, c.toLower = c) :
    cs.map Char.toLower = cs := by
  rw [List.map_congr_left h, List.map_id']

lemma not_isAlpha_of_isNumeral {cs : List Char} (h : IsNumeral cs) :
    ∀ c ∈ cs, c.isAlpha = false := by
  cases h with
  | plain _ hds => exact fun c hc => not_isAlpha_of_isDigit (hds c hc)
  | minus _ hds =>
    exact List.forall_mem_cons.mpr ⟨by decide, fun c hc => not_isAlpha_of_isDigit (hds c hc)⟩

namespace OctaveText

lemma isNumeral (o : OctaveText) : IsNumeral o.chars := by
  unfold chars
  split
  · exact .minus o.digits.nonempty o.digits.isDigit
  · exact .plain o.digits.nonempty o.digits.isDigit

end OctaveText

/-- What is read as an octave, in ASCII, is one. -/
lemma exists_octave {cs : List Char} (hascii : ∀ c ∈ cs, c.toNat < 128)
    {o : Option (List Char)} (h : Pitch.octaveText? (cs.map Char.toLower) = some o) :
    ∃ octave : Option OctaveText, (octave.map OctaveText.chars).getD [] = cs := by
  rcases Pitch.octaveText?_eq_some h with ⟨hnil, -⟩ | ⟨hnumeral, -⟩
  · exact ⟨none, (List.map_eq_nil_iff.mp hnil).symm⟩
  · have hsame : ∀ c ∈ cs, c.toLower = c := fun c hc =>
      (eq_of_toLower rfl (not_isAlpha_of_isNumeral hnumeral _ (List.mem_map_of_mem hc))).symm
    rw [map_toLower_eq hsame] at hnumeral
    cases hnumeral with
    | plain hne hds =>
      exact ⟨some ⟨false, cs, hne, fun c hc => isDigit_of_ascii (hds c hc) (hascii c hc)⟩, rfl⟩
    | @minus ds hne hds =>
      refine ⟨some ⟨true, ds, hne, fun c hc => isDigit_of_ascii (hds c hc) ?_⟩, rfl⟩
      exact hascii c (List.mem_cons_of_mem _ hc)

/-- No accidental begins like a numeral. -/
lemma cut?_of_isNumeral {cs : List Char} (h : IsNumeral cs) : Accidental.cut? cs = none := by
  have hhead : ∀ c ∈ cs.head?, c = '-' ∨ Text.isDigit c = true := by
    cases h with
    | plain _ hds => exact fun c hc => .inr (hds c (List.mem_of_mem_head? hc))
    | minus _ _ =>
      rintro c ⟨⟩
      exact .inl rfl
  have hall : ['t', 'q', 'x', 'b', '#', 'n'].all (fun c => !(c == '-' || Text.isDigit c)) := by
    decide
  have hmarks : ∀ c ∈ ['t', 'q', 'x', 'b', '#', 'n'], ¬ (c = '-' ∨ Text.isDigit c = true) := by
    intro c hc
    simpa using List.all_eq_true.mp hall c hc
  unfold Accidental.cut?
  split
  case h_12 => rfl
  all_goals exact absurd (hhead _ rfl) (hmarks _ (by simp))

/-! ### Letters -/

lemma ofChar?_natural {c : Char} {n : Int} (h : (c, n) ∈ naturals) :
    ∃ l, Letter.ofChar? c = some l ∧ l.semitones = n := by
  simp only [naturals, List.mem_cons, Prod.mk.injEq, List.not_mem_nil, or_false] at h
  rcases h with ⟨rfl, rfl⟩ | ⟨rfl, rfl⟩ | ⟨rfl, rfl⟩ | ⟨rfl, rfl⟩ | ⟨rfl, rfl⟩ | ⟨rfl, rfl⟩ |
    ⟨rfl, rfl⟩ <;> exact ⟨_, rfl, rfl⟩

lemma natural_of_ofChar? {c : Char} {l : Letter} (h : Letter.ofChar? c = some l) :
    (c, l.semitones) ∈ naturals := by
  unfold Letter.ofChar? at h
  split at h <;> cases h <;> decide

/-! ### Reading pitches -/

/-- A number of half semitones is as high as its pitch. -/
lemma Pitch.value_ofSemitones_half (n : Int) :
    (100 * (ofSemitones (n / 2)).midi + (ofSemitones (n / 2)).cents : Rat) = 100 * (n / 2) := by
  obtain ⟨m, ⟨hm, hpitch⟩ | ⟨hm, hpitch⟩⟩ := ofSemitones_half_cases n
  · rw [hpitch, hm]
    push_cast
    ring
  · rw [hpitch, hm]
    push_cast
    ring

namespace PitchText

variable (w : PitchText)

lemma toList_text : w.text.toList =
    w.letter.char :: (w.marks.flatMap MarkText.chars ++ w.octaveChars) := by
  rw [text, String.toList_ofList]

/-- Behind the accidentals there is nothing, or a numeral. -/
lemma octaveChars_cases : (w.octave = none ∧ w.octaveChars = []) ∨
    ∃ o, w.octave = some o ∧ w.octaveChars = o.chars := by
  unfold octaveChars
  cases w.octave with
  | none => exact .inl ⟨rfl, rfl⟩
  | some o => exact .inr ⟨o, rfl, rfl⟩

/-- The parts that are read are a letter, accidentals that go up as many semitones, and the
octave. -/
lemma written?_text (hline : '\n' ∉ w.text.toList) :
    ∃ l xs, Pitch.written? w.text = some ⟨l, xs, w.octave.map OctaveText.chars⟩ ∧
      l.semitones = w.letter.semitones ∧ Accidental.total xs = .ok w.raised := by
  obtain ⟨l, hl, hsemitones⟩ := ofChar?_natural w.letter.natural
  have hlower : w.octaveChars.map Char.toLower = w.octaveChars := by
    rcases w.octaveChars_cases with ⟨-, h⟩ | ⟨o, -, h⟩
    · rw [h]
      rfl
    · rw [h]
      exact map_toLower_eq fun c hc =>
        toLower_of_not_isAlpha (not_isAlpha_of_isNumeral o.isNumeral c hc)
  have hcut : Accidental.cut? w.octaveChars = none := by
    rcases w.octaveChars_cases with ⟨-, h⟩ | ⟨o, -, h⟩
    · rw [h]
      rfl
    · rw [h]
      exact cut?_of_isNumeral o.isNumeral
  have hoctave : Pitch.octaveText? w.octaveChars = some (w.octave.map OctaveText.chars) := by
    rcases w.octaveChars_cases with ⟨hnone, h⟩ | ⟨o, hsome, h⟩
    · rw [h, hnone]
      rfl
    · rw [h, hsome]
      exact Pitch.octaveText?_of_isNumeral o.isNumeral
  obtain ⟨xs, hrun, htotal⟩ := (raises_marks w.marks).run hcut
  refine ⟨l, xs, ?_, hsemitones, htotal⟩
  rw [Pitch.written?, chomp_of_not_mem hline, toList_text, List.map_cons, List.map_append, hlower]
  simp [hl, hrun, hoctave]

/-- The octave of a text is read as the number it makes. -/
lemma octave?_eq (hlimit : ∀ o ∈ w.octave, o.digits.chars.length ≤ digitLimit) (l : Letter)
    (xs : List Accidental) : (⟨l, xs, w.octave.map OctaveText.chars⟩ : Pitch.Written).octave? =
      .ok (w.octave.map OctaveText.value) := by
  unfold Pitch.Written.octave?
  cases ho : w.octave with
  | none => rfl
  | some o =>
    have hread : readInt (.ofList o.chars) = .ok o.value :=
      o.digits.readInt (hlimit o ho) o.negative
    simp [hread, pure, Except.pure]

/-- **A text of a pitch is read.** The pitch is as high as its parts say, in half semitones. -/
lemma read_text (hline : '\n' ∉ w.text.toList)
    (hlimit : ∀ o ∈ w.octave, o.digits.chars.length ≤ digitLimit) (octave : Int) :
    ∃ p, Pitch.read w.text octave = .ok (some (p, w.octaveIn octave)) ∧
      (p.cents = 0 ∨ p.cents = 50) ∧
      (100 * p.midi + p.cents : Rat) =
        100 * (12 * (w.octaveIn octave + 1) + w.letter.semitones) + 100 * w.raised := by
  obtain ⟨l, xs, hwritten, hsemitones, htotal⟩ := w.written?_text hline
  obtain ⟨k, hk⟩ : ∃ k : Int, w.raised = k / 2 := by
    rcases Accidental.total_cases xs with ⟨k, hk⟩ | ⟨s, -, hs⟩
    · exact ⟨k, Except.ok.inj (htotal.symm.trans hk)⟩
    · rw [hs] at htotal
      cases htotal
  have hread : Pitch.read w.text octave =
      .ok (some (.ofSemitones (l.midi (w.octaveIn octave) + w.raised), w.octaveIn octave)) := by
    rw [Pitch.read, hwritten]
    simp only [w.octave?_eq hlimit, ok_bind, htotal]
    rfl
  -- all is counted in half semitones
  have hsum : (l.midi (w.octaveIn octave) + w.raised : Rat) =
      ((2 * l.midi (w.octaveIn octave) + k : Int) / 2 : Rat) := by
    rw [hk]
    push_cast
    ring
  have hmidi : l.midi (w.octaveIn octave) =
      12 * (w.octaveIn octave + 1) + w.letter.semitones := by
    rw [Letter.midi, hsemitones]
    ring
  refine ⟨_, hread, ?_, ?_⟩
  · rw [hsum]
    exact Pitch.ofSemitones_half _
  · rw [hsum, Pitch.value_ofSemitones_half, ← hsum, hmidi]
    push_cast
    ring

end PitchText

/-- What is read as a pitch, in ASCII, is a text of one. -/
lemma exists_pitchText {s : String} (hascii : IsAscii s) (hline : '\n' ∉ s.toList)
    (h : Pitch.written? s ≠ none) : ∃ w : PitchText, w.text = s := by
  have hlongS : 'ſ' ∉ s.toList := fun hmem => absurd (hascii _ hmem) (by decide)
  obtain ⟨parts, hparts⟩ := Option.ne_none_iff_exists'.mp h
  rw [Pitch.written?, chomp_of_not_mem hline] at hparts
  cases hcs : s.toList with
  | nil => simp [hcs] at hparts
  | cons c cs =>
    rw [hcs] at hlongS
    have hcs' : ∀ x ∈ cs, x.toNat < 128 := fun x hx => hascii x (by simp [hcs, hx])
    simp only [hcs, List.map_cons, Option.bind_eq_bind, Option.bind_eq_some_iff] at hparts
    obtain ⟨l, hl, o, ho, -⟩ := hparts
    obtain ⟨ms, rest, rfl, hrest⟩ := exists_marks fun hmem => hlongS (List.mem_cons_of_mem c hmem)
    rw [hrest] at ho
    obtain ⟨octave, rfl⟩ := exists_octave (fun x hx => hcs' x (List.mem_append_right _ hx)) ho
    refine ⟨⟨⟨c, l.semitones, natural_of_ofChar? hl⟩, ms, octave⟩, ?_⟩
    rw [PitchText.text, ← String.ofList_toList (s := s), hcs]
    rfl

namespace PitchText

/-- Texts that are equal begin with the same letter. -/
lemma letter_eq {w w' : PitchText} (h : w.text = w'.text) :
    w.letter.semitones = w'.letter.semitones := by
  have hchars := congrArg String.toList h
  rw [toList_text, toList_text] at hchars
  obtain ⟨l, hl, hsemitones⟩ := ofChar?_natural w.letter.natural
  obtain ⟨l', hl', hsemitones'⟩ := ofChar?_natural w'.letter.natural
  rw [(List.cons.inj hchars).1, hl'] at hl
  rw [← hsemitones, ← hsemitones', Option.some.inj hl]

lemma length_digits_le {w : PitchText} {o : OctaveText} (h : o ∈ w.octave) :
    o.digits.chars.length ≤ w.text.length := by
  have hchars : w.octaveChars = o.chars := by rw [octaveChars, Option.mem_def.mp h]; rfl
  have hle : o.digits.chars.length ≤ o.chars.length := by
    unfold OctaveText.chars
    split <;> simp
  rw [← String.length_toList, toList_text, hchars, List.length_cons, List.length_append]
  omega

end PitchText

/-- **Pitches are read by their grammar.** An ASCII text on one line is read as a pitch if and only
if it is a letter, a row of accidentals and perhaps an octave that is not too long, in either case,
and otherwise as none. However the accidentals are told apart, the pitch is as high as the octave,
the letter and all accidentals together say, with no cents or fifty. -/
theorem Pitch.read_pitchText {s : String} (hascii : IsAscii s) (hline : '\n' ∉ s.toList)
    (hlimit : ∀ w : PitchText, w.text = s → ∀ o ∈ w.octave, o.digits.chars.length ≤ digitLimit)
    (octave : Int) :
    ((∃ p o, read s octave = .ok (some (p, o))) ↔ ∃ w : PitchText, w.text = s) ∧
      (read s octave = .ok none ↔ ¬ ∃ w : PitchText, w.text = s) ∧
      (∀ w : PitchText, w.text = s → ∃ p, read s octave = .ok (some (p, w.octaveIn octave)) ∧
        (p.cents = 0 ∨ p.cents = 50) ∧
        (100 * p.midi + p.cents : Rat) =
          100 * (12 * (w.octaveIn octave + 1) + w.letter.semitones) + 100 * w.raised) ∧
      ∀ w w' : PitchText, w.text = s → w'.text = s → w.raised = w'.raised := by
  have hread (w : PitchText) (hw : w.text = s) :=
    hw ▸ w.read_text (hw.symm ▸ hline) (hlimit w hw) octave
  have hnone (h : ¬ ∃ w : PitchText, w.text = s) : read s octave = .ok none := by
    have hwritten : written? s = none := by
      by_contra hsome
      exact h (exists_pitchText hascii hline hsome)
    rw [read, hwritten]
  refine ⟨⟨fun ⟨p, o, hp⟩ => ?_, fun ⟨w, hw⟩ => ?_⟩, ⟨fun hp ⟨w, hw⟩ => ?_, hnone⟩, hread,
    fun w w' hw hw' => ?_⟩
  · by_contra h
    rw [hnone h] at hp
    cases hp
  · obtain ⟨p, hp, -⟩ := hread w hw
    exact ⟨p, _, hp⟩
  · obtain ⟨p, hp', -⟩ := hread w hw
    rw [hp'] at hp
    cases hp
  · obtain ⟨p, hp, -, hvalue⟩ := hread w hw
    obtain ⟨p', hp', -, hvalue'⟩ := hread w' hw'
    have hletter := PitchText.letter_eq (hw.trans hw'.symm)
    obtain ⟨rfl, hoctave⟩ := Prod.mk.inj (Option.some.inj (Except.ok.inj (hp.symm.trans hp')))
    rw [hletter, hoctave] at hvalue
    linarith

/-- Three flats and a quarter sharp below zero, told apart in two ways. -/
theorem Pitch.read_pitchText_flats :
    let letter : LetterText := ⟨'B', 11, by decide⟩
    let quarter : MarkText := ⟨['q', 'S'], 1 / 2, by simp [accidentals]⟩
    let octave : OctaveText := ⟨true, ['0', '2'], by decide, List.all_eq_true.mp rfl⟩
    let w : PitchText := ⟨letter, [⟨['b'], -1, by decide⟩, ⟨['B', 'b'], -2, by decide⟩, quarter],
      some octave⟩
    let w' : PitchText := ⟨letter, [⟨['b', 'B'], -2, by decide⟩, ⟨['b'], -1, by decide⟩, quarter],
      some octave⟩
    w.text = "BbBbqS-02" ∧ w'.text = "BbBbqS-02" ∧ w.raised = w'.raised ∧
      ∃ p, Pitch.read "BbBbqS-02" 4 = .ok (some (p, -2)) ∧ (p.cents = 0 ∨ p.cents = 50) ∧
        (100 * p.midi + p.cents : Rat) = 100 * (12 * (-2 + 1) + 11) + 100 * (-5 / 2) := by
  intro letter quarter octave w w'
  have hw : w.text = "BbBbqS-02" := by decide
  have hw' : w'.text = "BbBbqS-02" := by decide
  have hascii : IsAscii "BbBbqS-02" := isAscii_of_all (by decide)
  have hlimit : ∀ u : PitchText, u.text = "BbBbqS-02" →
      ∀ o ∈ u.octave, o.digits.chars.length ≤ digitLimit := by
    intro u hu o ho
    have hle := PitchText.length_digits_le ho
    rw [hu] at hle
    exact hle.trans (by decide)
  obtain ⟨-, -, hvalue, hraised⟩ := Pitch.read_pitchText hascii (by decide) hlimit 4
  obtain ⟨p, hp, hcents, hmidi⟩ := hvalue w hw
  have hsum : w.raised = -5 / 2 := by
    show (-1 + (-2 + (1 / 2 + 0)) : Rat) = -5 / 2
    norm_num
  refine ⟨hw, hw', hraised w w' hw hw', p, hp, hcents, ?_⟩
  rw [hsum] at hmidi
  exact hmidi

/-! ### Texts of lengths -/

/-- A note value with up to two dots, and perhaps names of modifiers behind one more dot. -/
structure LengthText where
  digits : Digits
  dots : Fin 3
  names : List Char
  letter : ∀ c ∈ names.head?, c.isAlpha = true

namespace LengthText

def behind : List Char → List Char
  | [] => []
  | c :: cs => '.' :: c :: cs

def text (w : LengthText) : String :=
  .ofList (w.digits.chars ++ (.replicate w.dots '.' ++ behind w.names))

def factor (w : LengthText) : Rat := Duration.dotFactor w.dots

end LengthText

namespace Duration

/-- Dots and names are read as they are written. -/
lemma suffix?_behind {k : Nat} (hk : k ≤ 2) {names : List Char}
    (hletter : ∀ c ∈ names.head?, c.isAlpha = true) (hline : '\n' ∉ names) :
    suffix? (.replicate k '.' ++ LengthText.behind names) = some (k, names) := by
  have hdots (n : Nat) : ∀ c ∈ List.replicate n '.', (c == '.') = true := fun c hc => by
    simpa using (List.mem_replicate.mp hc).2
  cases names with
  | nil =>
    have hstop : ∀ c ∈ ([] : List Char).head?, (c == '.') = false := by simp
    simp only [LengthText.behind, suffix?, takeWhile_word (hdots _) hstop,
      dropWhile_word (hdots _) hstop, List.length_replicate]
    rw [if_pos hk]
  | cons c names =>
    have hc : c.isAlpha = true := hletter c rfl
    have hstop : ∀ d ∈ (c :: names).head?, (d == '.') = false := by
      rintro d ⟨⟩
      rw [beq_eq_false_iff_ne]
      rintro rfl
      exact absurd hc (by decide)
    have happend : List.replicate k '.' ++ '.' :: c :: names =
        List.replicate (k + 1) '.' ++ c :: names := by
      rw [List.replicate_succ', List.append_assoc, List.singleton_append]
    have hbreak : '\n' ∉ names := fun hmem => hline (List.mem_cons_of_mem c hmem)
    simp only [LengthText.behind, happend, suffix?, takeWhile_word (hdots _) hstop,
      dropWhile_word (hdots _) hstop, List.length_replicate]
    rw [if_pos ⟨by omega, by omega, hc, hbreak⟩, Nat.add_sub_cancel]

/-- What is read behind the digits are dots and names. -/
lemma suffix?_eq_some {cs names : List Char} {k : Nat} (h : suffix? cs = some (k, names)) :
    k ≤ 2 ∧ cs = .replicate k '.' ++ LengthText.behind names ∧
      ∀ c ∈ names.head?, c.isAlpha = true := by
  have hdots : cs.takeWhile (· == '.') = .replicate (cs.takeWhile (· == '.')).length '.' :=
    List.eq_replicate_iff.mpr ⟨rfl, fun c hc => by
      simpa using List.all_eq_true.mp List.all_takeWhile c hc⟩
  have hcs : cs = .replicate (cs.takeWhile (· == '.')).length '.' ++ cs.dropWhile (· == '.') := by
    rw [← hdots, List.takeWhile_append_dropWhile]
  simp only [suffix?] at h
  generalize (cs.takeWhile (· == '.')).length = n at h hcs
  generalize cs.dropWhile (· == '.') = rest at h hcs
  subst hcs
  cases rest with
  | nil =>
    simp only [Option.ite_none_right_eq_some, Option.some.injEq, Prod.mk.injEq] at h
    obtain ⟨hn, rfl, rfl⟩ := h
    exact ⟨hn, rfl, by simp⟩
  | cons c rest =>
    simp only [Option.ite_none_right_eq_some, Option.some.injEq, Prod.mk.injEq] at h
    obtain ⟨⟨hpos, hn, hc, -⟩, rfl, rfl⟩ := h
    refine ⟨by omega, ?_, ?_⟩
    · obtain ⟨k, rfl⟩ : ∃ k, n = k + 1 := ⟨n - 1, by omega⟩
      rw [Nat.add_sub_cancel, List.replicate_succ', List.append_assoc]
      rfl
    · rintro d ⟨⟩
      exact hc

end Duration

namespace LengthText

variable (w : LengthText)

lemma toList_text : w.text.toList =
    w.digits.chars ++ (.replicate w.dots '.' ++ behind w.names) := by
  rw [text, String.toList_ofList]

/-- The digits end at a dot, or at the end of the text. -/
lemma head?_behind_digits : ∀ c ∈ (List.replicate w.dots '.' ++ behind w.names).head?,
    isDigit c = false := by
  have hpoint : ∀ c ∈ (List.replicate w.dots '.' ++ behind w.names).head?, c = '.' := by
    cases w.dots.val <;> cases w.names <;> simp [List.replicate_succ, behind]
  exact fun c hc => hpoint c hc ▸ by decide

lemma takeWhile_text : w.text.toList.takeWhile isDigit = w.digits.chars := by
  rw [toList_text]
  exact takeWhile_word w.digits.isDigit w.head?_behind_digits

lemma suffix?_text (hline : '\n' ∉ w.text.toList) :
    Duration.suffix? (chomp (w.text.toList.dropWhile isDigit)) = some (w.dots.val, w.names) := by
  rw [toList_text] at hline ⊢
  have hnames : '\n' ∉ w.names := by
    intro hmem
    refine hline (List.mem_append_right _ (List.mem_append_right _ ?_))
    unfold behind
    cases hw : w.names with
    | nil => simp [hw] at hmem
    | cons c cs => exact List.mem_cons_of_mem _ (hw ▸ hmem)
  rw [dropWhile_word w.digits.isDigit w.head?_behind_digits,
    chomp_of_not_mem fun hmem => hline (List.mem_append_right _ hmem)]
  exact Duration.suffix?_behind (by omega) w.letter hnames

/-- **A text of a length is read**, as none if its note value is zero. -/
lemma read_text (hline : '\n' ∉ w.text.toList) (hlimit : w.digits.chars.length ≤ digitLimit) :
    (w.digits.value = 0 ∧ Duration.read w.text = .ok none) ∨
      (w.digits.value ≠ 0 ∧ ∃ d, Duration.read w.text = .ok (some (d, .ofList w.names)) ∧
        d.quarters = 4 / w.digits.value * w.factor) := by
  have hint : readInt (.ofList w.digits.chars) = .ok (w.digits.value : Int) :=
    w.digits.readInt hlimit false
  obtain ⟨c, ds, hds⟩ := List.exists_cons_of_ne_nil w.digits.nonempty
  rw [hds] at hint
  simp only [Duration.read, w.takeWhile_text, hds, w.suffix?_text hline, hint, ok_bind]
  by_cases hzero : w.digits.value = 0
  · exact .inl ⟨hzero, by simp [hzero, pure, Except.pure]⟩
  · have hlength := Duration.ofDenominator_eq hzero (by omega : w.dots.val ≤ 2)
    exact .inr ⟨hzero, ⟨_, Duration.noteLength_nonneg _ _⟩,
      by simp [hzero, hlength, pure, Except.pure], rfl⟩

/-- The parts of a text are the ones that are read, so there is one way to take it apart. -/
lemma eq_of_text {w w' : LengthText} (h : w.text = w'.text) (hline : '\n' ∉ w.text.toList) :
    w = w' := by
  have hdigits : w.digits.chars = w'.digits.chars := by
    rw [← takeWhile_text, h, takeWhile_text]
  have hsuffix := w.suffix?_text hline
  rw [h, w'.suffix?_text (h ▸ hline)] at hsuffix
  obtain ⟨hdots, hnames⟩ := Prod.mk.inj (Option.some.inj hsuffix)
  obtain ⟨⟨ds, _, _⟩, dots, names, _⟩ := w
  obtain ⟨⟨ds', _, _⟩, dots', names', _⟩ := w'
  obtain rfl : ds = ds' := hdigits
  obtain rfl : dots' = dots := Fin.ext hdots
  obtain rfl : names' = names := hnames
  rfl

end LengthText

/-- What is not read as none, in ASCII, is a text of a length. -/
lemma exists_lengthText {s : String} (hascii : IsAscii s) (hline : '\n' ∉ s.toList)
    (h : Duration.read s ≠ .ok none) : ∃ w : LengthText, w.text = s := by
  have hsplit : s.toList.takeWhile isDigit ++ s.toList.dropWhile isDigit = s.toList :=
    List.takeWhile_append_dropWhile
  have hdigits : ∀ c ∈ s.toList.takeWhile isDigit, c.isDigit = true := fun c hc =>
    isDigit_of_ascii (List.all_eq_true.mp List.all_takeWhile c hc)
      (hascii c (List.takeWhile_subset _ hc))
  have hchomp : chomp (s.toList.dropWhile isDigit) = s.toList.dropWhile isDigit :=
    chomp_of_not_mem fun hmem => hline (List.dropWhile_subset _ hmem)
  simp only [Duration.read, hchomp] at h
  split at h
  · exact absurd rfl h
  · rename_i hne
    split at h
    · exact absurd rfl h
    · rename_i k names hsuffix
      obtain ⟨hk, hrest, hletter⟩ := Duration.suffix?_eq_some hsuffix
      refine ⟨⟨⟨_, hne, hdigits⟩, ⟨k, by omega⟩, names, hletter⟩, ?_⟩
      rw [LengthText.text, ← hrest, hsplit, String.ofList_toList]

/-- **Lengths are read by their grammar.** An ASCII text on one line is read as a length if and only
if it is a note value other than zero with up to two dots, and perhaps one more dot and names that
begin with a letter, and otherwise as none. There is one way to take it apart, and the length is as
long as the note value and its dots say, with the names behind it. -/
theorem Duration.read_lengthText {s : String} (hascii : IsAscii s) (hline : '\n' ∉ s.toList)
    (hlimit : ∀ w : LengthText, w.text = s → w.digits.chars.length ≤ digitLimit) :
    ((∃ d names, read s = .ok (some (d, names))) ↔
        ∃ w : LengthText, w.text = s ∧ w.digits.value ≠ 0) ∧
      (read s = .ok none ↔ ¬ ∃ w : LengthText, w.text = s ∧ w.digits.value ≠ 0) ∧
      (∀ w w' : LengthText, w.text = s → w'.text = s → w = w') ∧
      ∀ w : LengthText, w.text = s → w.digits.value ≠ 0 →
        ∃ d, read s = .ok (some (d, .ofList w.names)) ∧
          d.quarters = 4 / w.digits.value * w.factor := by
  have hread (w : LengthText) (hw : w.text = s) :=
    hw ▸ w.read_text (hw.symm ▸ hline) (hlimit w hw)
  have hvalue (w : LengthText) (hw : w.text = s) (hne : w.digits.value ≠ 0) :=
    (hread w hw).resolve_left fun hzero => hne hzero.1
  have hnone (h : ¬ ∃ w : LengthText, w.text = s ∧ w.digits.value ≠ 0) : read s = .ok none := by
    by_contra hsome
    obtain ⟨w, hw⟩ := exists_lengthText hascii hline hsome
    rcases hread w hw with ⟨-, hnone⟩ | ⟨hne, -⟩
    · exact hsome hnone
    · exact h ⟨w, hw, hne⟩
  refine ⟨⟨fun ⟨d, names, hd⟩ => ?_, fun ⟨w, hw, hne⟩ => ?_⟩, ⟨fun hd ⟨w, hw, hne⟩ => ?_, hnone⟩,
    fun w w' hw hw' => ?_, fun w hw hne => (hvalue w hw hne).2⟩
  · by_contra h
    rw [hnone h] at hd
    cases hd
  · obtain ⟨-, d, hd, -⟩ := hvalue w hw hne
    exact ⟨d, _, hd⟩
  · obtain ⟨-, d, hd', -⟩ := hvalue w hw hne
    rw [hd'] at hd
    cases hd
  · exact LengthText.eq_of_text (hw.trans hw'.symm) (hw.symm ▸ hline)

/-- A note value with a zero in front, two dots, and two names behind a third. -/
theorem Duration.read_lengthText_dotted :
    let w : LengthText := ⟨⟨['0', '8'], by decide, List.all_eq_true.mp rfl⟩, 2,
      ['t', 'r', '.', 'x'], by rintro c ⟨⟩; rfl⟩
    w.text = "08...tr.x" ∧ (∀ w' : LengthText, w'.text = "08...tr.x" → w' = w) ∧
      ∃ d, Duration.read "08...tr.x" = .ok (some (d, "tr.x")) ∧ d.quarters = 4 / 8 * (7 / 4) := by
  intro w
  have hw : w.text = "08...tr.x" := by decide
  have hlimit : ∀ u : LengthText, u.text = "08...tr.x" →
      u.digits.chars.length ≤ digitLimit := by
    intro u hu
    have hle : u.digits.chars.length ≤ u.text.length := by
      rw [← String.length_toList, u.toList_text, List.length_append]
      exact Nat.le_add_right _ _
    rw [hu] at hle
    exact hle.trans (by decide)
  obtain ⟨-, -, hunique, hvalue⟩ :=
    Duration.read_lengthText (isAscii_of_all (by decide)) (by decide) hlimit
  obtain ⟨d, hd, hquarters⟩ := hvalue w hw (by decide)
  refine ⟨hw, fun w' hw' => hunique w' w hw' hw, d, hd, ?_⟩
  have hdenominator : w.digits.value = 8 := by decide
  rw [hquarters, hdenominator]
  rfl

end Partitura
