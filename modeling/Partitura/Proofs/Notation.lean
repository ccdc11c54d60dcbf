import Mathlib.Tactic.FieldSimp
import Mathlib.Tactic.Ring
import Mathlib.Tactic.Linarith
import Partitura.Compile.Measure
import Partitura.Proofs.Numeral
import Partitura.Proofs.Run

/-!
What the written parts of an event can stand for, and how reading them can fail.

A written length is four, six or seven quarters over a whole number. Accidentals come in
quarter tones, so a written pitch has no cents or fifty. Reading fails at a numeral that is too
long, and at an accidental spelled with a long s; the division of a volume fails if it is beyond
all doubles.
-/

namespace Partitura

open Number Text

/-- A fault of the limit on how long a numeral may be. -/
def Fault.IsTooLong (f : Fault) : Prop := ∃ n, digitLimit < n ∧ f = .numeralTooLong n

/-- A fault of an accidental that is spelled with a long s, in a text that holds one. -/
def Fault.IsLongS (s : String) (f : Fault) : Prop :=
  ∃ spelling, (spelling = "qſ" ∨ spelling = "tqſ") ∧ f = .unknownAccidental spelling ∧
    'ſ' ∈ s.toList

/-! ### Lengths -/

/-- The lengths that can be written, in quarters: a note value with no dot, one or two. -/
def NoteValue (q : Rat) : Prop := ∃ n : Nat, 1 ≤ n ∧ (q = 4 / n ∨ q = 6 / n ∨ q = 7 / n)

lemma NoteValue.pos {q : Rat} (h : NoteValue q) : 0 < q := by
  obtain ⟨n, hn, h⟩ := h
  have : (0 : Rat) < n := by exact_mod_cast hn
  rcases h with rfl | rfl | rfl <;> positivity

lemma noteValue_one : NoteValue 1 := ⟨4, by decide, .inl (by norm_num)⟩

namespace Duration

lemma make_of_nonneg {q : Rat} (h : 0 ≤ q) : make q = .ok ⟨q, h⟩ := by simp [make, h]

lemma quarters_of_make {q : Rat} {d : Duration} (h : make q = .ok d) : d.quarters = q := by
  unfold make at h
  split at h
  · cases h
    rfl
  · simp at h

lemma ticks_eq_floor (d : Duration) : d.ticks = ⌊1920 * d.quarters⌋ := by
  have h : 0 ≤ d.quarters * (ticksPerQuarter : Rat) := mul_nonneg d.nonneg (by decide)
  rw [ticks, truncate_eq_floor h, mul_comm]
  rfl

lemma ticks_nonneg (d : Duration) : 0 ≤ d.ticks := by
  rw [ticks_eq_floor]
  exact Int.floor_nonneg.mpr (mul_nonneg (by norm_num) d.nonneg)

lemma noteLength_nonneg (n dots : Nat) : 0 ≤ (4 / n * dotFactor dots : Rat) := by
  have hfactor : 0 ≤ dotFactor dots := by
    unfold dotFactor
    split <;> norm_num
  positivity

/-- A note value with at most two dots is as long as it says. -/
lemma ofDenominator_eq {n dots : Nat} (hn : n ≠ 0) (hdots : dots ≤ 2) :
    ofDenominator n dots = .ok ⟨4 / n * dotFactor dots, noteLength_nonneg n dots⟩ := by
  rw [ofDenominator, if_neg (by omega), if_neg (by omega), Int.toNat_natCast, Int.natAbs_natCast,
    Rat.mkRat_eq_div]
  exact make_of_nonneg (noteLength_nonneg n dots)

lemma noteValue_noteLength {n dots : Nat} (hn : n ≠ 0) (hdots : dots ≤ 2) :
    NoteValue (4 / n * dotFactor dots) := by
  have hpos : (0 : Rat) < n := by exact_mod_cast Nat.pos_of_ne_zero hn
  refine ⟨n, by omega, ?_⟩
  obtain rfl | rfl | rfl : dots = 0 ∨ dots = 1 ∨ dots = 2 := by omega
  · left; simp [dotFactor]
  · right; left; simp only [dotFactor]; field_simp; norm_num
  · right; right; simp only [dotFactor]; field_simp

lemma suffix?_dots {cs tail : List Char} {dots : Nat} (h : suffix? cs = some (dots, tail)) :
    dots ≤ 2 := by
  simp only [suffix?] at h
  split at h
  · split at h <;> simp at h
    omega
  · split at h <;> simp at h
    omega

/-- Reading a length gives a note value, or nothing, or stops at a numeral that is too long. -/
lemma read_cases (s : String) :
    read s = .ok none ∨ (∃ d tail, read s = .ok (some (d, tail)) ∧ NoteValue d.quarters) ∨
      ∃ f, read s = .error f ∧ f.IsTooLong := by
  have hdigits : ∀ c ∈ s.toList.takeWhile isDigit, isDigit c = true :=
    List.all_eq_true.mp List.all_takeWhile
  simp only [read]
  rcases hds : s.toList.takeWhile isDigit with _ | ⟨c, ds⟩
  · exact .inl rfl
  rw [hds] at hdigits
  rcases hsuf : suffix? (chomp (s.toList.dropWhile isDigit)) with _ | ⟨dots, tail⟩
  · exact .inl rfl
  simp only
  rcases hn : readInt (.ofList (c :: ds)) with f | n
  · exact .inr (.inr ⟨f, rfl, (IsNumeral.plain (by simp) hdigits).fault hn⟩)
  have hn0 : 0 ≤ n := IsNumeral.nonneg (by simp) hdigits hn
  by_cases hz : n = 0
  · exact .inl (by simp [hz, pure, Except.pure])
  · obtain ⟨n, rfl⟩ := Int.eq_ofNat_of_zero_le hn0
    have hn : n ≠ 0 := by omega
    have hdots := suffix?_dots hsuf
    have hlength := ofDenominator_eq hn hdots
    exact .inr (.inl ⟨⟨_, noteLength_nonneg n dots⟩, .ofList tail,
      by simp [hn, hlength, pure, Except.pure], noteValue_noteLength hn hdots⟩)

end Duration

/-! ### Pitches -/

lemma isAlpha_iff {c : Char} : c.isAlpha = true ↔
    65 ≤ c.toNat ∧ c.toNat ≤ 90 ∨ 97 ≤ c.toNat ∧ c.toNat ≤ 122 := by
  delta Char.isAlpha Char.isUpper Char.isLower
  simp only [Bool.or_eq_true, Bool.and_eq_true, decide_eq_true_eq, ge_iff_le,
    UInt32.le_iff_toNat_le]
  rfl

/-- Only letters have a lower case of their own. -/
lemma eq_of_toLower {c d : Char} (h : c.toLower = d) (hd : d.isAlpha = false) : c = d := by
  unfold Char.toLower at h
  split at h
  · rename_i hupper
    have hge : 65 ≤ c.toNat := UInt32.le_iff_toNat_le.mp hupper.1
    have hle : c.toNat ≤ 90 := UInt32.le_iff_toNat_le.mp hupper.2
    have hlower : d.toNat = c.toNat + 32 := by
      rw [← h]
      show (c.val + 32).toNat = _
      rw [UInt32.toNat_add]
      show (c.toNat + 32) % _ = _
      omega
    have htrue : d.isAlpha = true := isAlpha_iff.mpr (.inr (by omega))
    rw [hd] at htrue
    cases htrue
  · exact h

namespace Accidental

/-- Accidentals count in halves of a semitone, unless one is spelled with a long s. -/
lemma offset_cases (x : Accidental) :
    (∃ k : Int, x.offset = .ok (k / 2 : Rat)) ∨ ∃ s, x = .unreadable s := by
  cases x with
  | unreadable s => exact .inr ⟨s, rfl⟩
  | threeQuarterSharp => exact .inl ⟨3, by simp [offset]⟩
  | threeQuarterFlat => exact .inl ⟨-3, by simp [offset]⟩
  | quarterSharp => exact .inl ⟨1, by simp [offset]⟩
  | quarterFlat => exact .inl ⟨-1, by simp [offset]⟩
  | doubleSharp => exact .inl ⟨4, by simp only [offset]; norm_num⟩
  | doubleFlat => exact .inl ⟨-4, by simp only [offset]; norm_num⟩
  | flat => exact .inl ⟨-2, by simp only [offset]; norm_num⟩
  | sharp => exact .inl ⟨2, by simp only [offset]; norm_num⟩
  | natural => exact .inl ⟨0, by simp [offset]⟩

/-- A run of accidentals adds up to halves, or holds one spelled with a long s. -/
lemma total_cases (xs : List Accidental) :
    (∃ k : Int, total xs = .ok (k / 2 : Rat)) ∨
      ∃ s, .unreadable s ∈ xs ∧ total xs = .error (.unknownAccidental s) := by
  induction xs with
  | nil => exact .inl ⟨0, by simp [total]⟩
  | cons x xs ih =>
    rcases offset_cases x with ⟨k, hk⟩ | ⟨s, rfl⟩
    · rcases ih with ⟨l, hl⟩ | ⟨s, hs, he⟩
      · refine .inl ⟨k + l, ?_⟩
        simp only [total, hk, hl, ok_bind, pure, Except.pure]
        push_cast
        rw [add_div]
      · exact .inr ⟨s, by simp [hs], by simp [total, hk, he]⟩
    · exact .inr ⟨s, by simp, by simp [total, offset]⟩

lemma cut?_unreadable {cs rest : List Char} {s : String}
    (h : cut? cs = some (.unreadable s, rest)) : (s = "qſ" ∨ s = "tqſ") ∧ 'ſ' ∈ cs := by
  unfold cut? at h
  split at h <;> simp at h
  · obtain ⟨rfl, -⟩ := h
    simp
  · obtain ⟨rfl, -⟩ := h
    simp

lemma mem_of_cut? {cs rest : List Char} {x : Accidental} (h : cut? cs = some (x, rest)) :
    ∀ c ∈ rest, c ∈ cs := by
  unfold cut? at h
  split at h <;> simp at h <;> obtain ⟨-, rfl⟩ := h <;> simp_all

lemma run_unreadable (cs : List Char) {s : String} (h : .unreadable s ∈ (run cs).1) :
    (s = "qſ" ∨ s = "tqſ") ∧ 'ſ' ∈ cs := by
  fun_induction run cs with
  | case1 cs x rest hcut _ xs behind hrun ih =>
    simp only [List.mem_cons] at h
    rcases h with rfl | h
    · exact cut?_unreadable hcut
    · obtain ⟨hs, hmem⟩ := ih (by rw [hrun]; exact h)
      exact ⟨hs, mem_of_cut? hcut _ hmem⟩
  | case2 => simp at h

end Accidental

namespace Pitch

def Tempered (p : Pitch) : Prop := p.cents = 0 ∨ p.cents = 50

lemma ofSemitones_eq (q : Rat) : ofSemitones q = ⟨⌊q⌋, roundRat ((q - ⌊q⌋) * 100)⟩ := by
  simp only [ofSemitones, Int.fdiv_eq_ediv_of_nonneg _ (Int.natCast_nonneg q.den), Rat.floor_def']

/-- Halves of a semitone give a semitone, with fifty cents above it or none. -/
lemma ofSemitones_half_cases (k : Int) :
    ∃ m, (k = 2 * m ∧ ofSemitones (k / 2 : Rat) = ⟨m, 0⟩) ∨
      (k = 2 * m + 1 ∧ ofSemitones (k / 2 : Rat) = ⟨m, 50⟩) := by
  obtain ⟨m, hm⟩ := Int.even_or_odd' k
  refine ⟨m, hm.imp ?_ ?_⟩
  · rintro rfl
    have hq : ((2 * m : Int) / 2 : Rat) = m := by push_cast; field_simp
    rw [ofSemitones_eq, hq, Int.floor_intCast, sub_self, zero_mul]
    exact ⟨rfl, rfl⟩
  · rintro rfl
    have hq : ((2 * m + 1 : Int) / 2 : Rat) = m + 1 / 2 := by push_cast; field_simp
    have hfloor : ⌊(m + 1 / 2 : Rat)⌋ = m := by
      rw [Int.floor_intCast_add]
      norm_num
    have hcents : ((m + 1 / 2 : Rat) - m) * 100 = 50 := by ring
    rw [ofSemitones_eq, hq, hfloor, hcents]
    exact ⟨rfl, rfl⟩

lemma ofSemitones_half (k : Int) : (ofSemitones (k / 2 : Rat)).Tempered := by
  obtain ⟨m, ⟨-, h⟩ | ⟨-, h⟩⟩ := ofSemitones_half_cases k
  · exact .inl (by rw [h])
  · exact .inr (by rw [h])

lemma Tempered.transpose {p : Pitch} (h : p.Tempered) (n : Int) : (p.transpose n).Tempered := h

/-- An octave is read where none is written, or a numeral is. -/
lemma octaveText?_eq_some {cs : List Char} {o : Option (List Char)} (h : octaveText? cs = some o) :
    (cs = [] ∧ o = none) ∨ (IsNumeral cs ∧ o = some cs) := by
  unfold octaveText? at h
  split at h
  · exact .inl ⟨rfl, (Option.some.inj h).symm⟩
  · simp only [Bool.and_eq_true, Bool.not_eq_true', List.isEmpty_eq_false_iff,
      List.all_eq_true] at h
    split at h
    · simp only [ne_eq, Option.ite_none_right_eq_some, Option.some.injEq] at h
      obtain ⟨⟨hne, hds⟩, rfl⟩ := h
      exact .inr ⟨.minus hne hds, rfl⟩
    · simp only [ne_eq, Option.ite_none_right_eq_some, Option.some.injEq] at h
      obtain ⟨⟨hne, hds⟩, rfl⟩ := h
      exact .inr ⟨.plain hne hds, rfl⟩

lemma octaveText?_of_isNumeral {cs : List Char} (h : IsNumeral cs) :
    octaveText? cs = some (some cs) := by
  have hnumeral (ds : List Char) (hne : ds ≠ []) (hds : ∀ c ∈ ds, isDigit c = true) :
      (!ds.isEmpty && ds.all isDigit) = true := by
    simpa [hne] using hds
  cases h with
  | minus hne hds => simp [octaveText?, hnumeral _ hne hds]
  | plain hne hds =>
    have hall := hnumeral cs hne hds
    unfold octaveText?
    split
    · exact absurd rfl hne
    · split
      · rename_i ds
        exact absurd (hds '-' (by simp)) (by decide)
      · rw [if_pos hall]

lemma octave?_cases {s : String} {w : Written} (h : written? s = some w) :
    (∃ o, w.octave? = .ok o) ∨ ∃ f, w.octave? = .error f ∧ f.IsTooLong := by
  unfold Written.octave?
  rcases ho : w.octave with _ | ds
  · exact .inl ⟨none, rfl⟩
  have hds : IsNumeral ds := by
    unfold written? at h
    split at h
    · simp at h
    · simp only [Option.bind_eq_bind, Option.bind_eq_some_iff, Option.pure_def,
        Option.some.injEq] at h
      obtain ⟨letter, -, octave, hoct, rfl⟩ := h
      subst ho
      rcases octaveText?_eq_some hoct with ⟨-, hnone⟩ | ⟨hds, hsome⟩
      · cases hnone
      · rwa [Option.some.inj hsome]
  rcases hn : readInt (.ofList ds) with f | n
  · exact .inr ⟨f, by simp [hn], hds.fault hn⟩
  · exact .inl ⟨some n, by simp [hn, pure, Except.pure]⟩

lemma written?_marks {s spelling : String} {w : Written} (h : written? s = some w)
    (hm : .unreadable spelling ∈ w.marks) :
    (spelling = "qſ" ∨ spelling = "tqſ") ∧ 'ſ' ∈ s.toList := by
  unfold written? at h
  split at h
  · simp at h
  · rename_i x cs hcs
    simp only [Option.bind_eq_bind, Option.bind_eq_some_iff, Option.pure_def,
      Option.some.injEq] at h
    obtain ⟨letter, -, octave, -, rfl⟩ := h
    obtain ⟨hs, hmem⟩ := Accidental.run_unreadable cs hm
    have hlow : 'ſ' ∈ (chomp s.toList).map Char.toLower := by rw [hcs]; simp [hmem]
    obtain ⟨c, hc, hcl⟩ := List.mem_map.mp hlow
    refine ⟨hs, ?_⟩
    rw [← eq_of_toLower hcl (by decide)]
    unfold chomp at hc
    split at hc
    · exact List.dropLast_subset _ hc
    · exact hc

/-- Reading a pitch gives one without cents or with fifty, or nothing, or stops at a numeral
that is too long or at an accidental spelled with a long s. -/
lemma read_cases (s : String) (octave : Int) :
    read s octave = .ok none ∨ (∃ p o, read s octave = .ok (some (p, o)) ∧ p.Tempered) ∨
      ∃ f, read s octave = .error f ∧ (f.IsTooLong ∨ f.IsLongS s) := by
  unfold read
  rcases hw : written? s with _ | w
  · exact .inl rfl
  simp only
  rcases octave?_cases hw with ⟨o, ho⟩ | ⟨f, hf, hlong⟩
  · rcases Accidental.total_cases w.marks with ⟨k, hk⟩ | ⟨spelling, hm, he⟩
    · refine .inr (.inl ⟨ofSemitones (w.letter.midi (o.getD octave) + k / 2), o.getD octave,
        by simp [ho, hk, pure, Except.pure], ?_⟩)
      have hsum : ((w.letter.midi (o.getD octave) : Rat) + k / 2) =
          ((2 * w.letter.midi (o.getD octave) + k : Int) / 2 : Rat) := by
        push_cast; field_simp
      rw [hsum]
      exact ofSemitones_half _
    · obtain ⟨hs, hmem⟩ := written?_marks hw hm
      exact .inr (.inr ⟨_, by simp [ho, he], .inr ⟨spelling, hs, rfl, hmem⟩⟩)
  · exact .inr (.inr ⟨f, by simp [hf], .inl hlong⟩)

end Pitch

/-! ### Volumes -/

/-- A modifier whose volume is a whole number beyond all doubles once it is divided. -/
def Modifier.TooLoud (m : Modifier) : Prop :=
  m.kind = .volume ∧ ∃ n rest, m.args = .int n :: rest ∧
    (Double.ofRat (mkRat n 127)).isFinite = false

lemma Velocity.ofQuotient_fault {x : Double} {f : Fault} (h : ofQuotient x = .error f) :
    f = .quotientTooLarge ∧ x.isFinite = false := by
  cases x <;> simp [ofQuotient, Double.isFinite] at h ⊢ <;> exact h.symm

lemma Velocity.ofVolume_fault {s : Scalar} {f : Fault} (h : ofVolume s = .error f) :
    f = .quotientTooLarge ∧ ∃ n, s = .int n ∧ (Double.ofRat (mkRat n 127)).isFinite = false := by
  cases s with
  | float x => simp [ofVolume] at h
  | null => simp [ofVolume, Scalar.whole?] at h
  | text s => simp [ofVolume, Scalar.whole?] at h
  | flag b =>
    -- zero and one can be divided
    have hflag : ∀ b : Bool,
        (Double.ofRat (mkRat (if b then 1 else 0) 127)).isFinite = true := by decide +kernel
    obtain ⟨-, hinf⟩ := ofQuotient_fault (x := .ofRat (mkRat (if b then 1 else 0) 127)) h
    rw [hflag b] at hinf
    cases hinf
  | int n =>
    obtain ⟨hf, hinf⟩ := ofQuotient_fault (x := .ofRat (mkRat n 127)) h
    exact ⟨hf, n, rfl, hinf⟩

lemma Velocity.ofModifiers_fault {ms : List Modifier} {f : Fault} (h : ofModifiers ms = .error f) :
    f = .quotientTooLarge ∧ ∃ m ∈ ms, m.TooLoud := by
  unfold ofModifiers at h
  split at h
  · simp at h
  · rename_i m hm
    have hkind : m.kind = .volume := by simpa using List.find?_some hm
    split at h
    · simp at h
    · rename_i s hs
      obtain ⟨hf, n, rfl, hn⟩ := ofVolume_fault h
      refine ⟨hf, m, List.mem_of_find?_eq_some hm, hkind, n, ?_⟩
      unfold Modifier.number? at hs
      split at hs <;> simp only [Option.some.injEq, Scalar.int.injEq, reduceCtorEq] at hs
      rename_i rest hargs
      exact ⟨rest, hs ▸ hargs, hn⟩

/-! ### Ranges -/

/-- A range that can be read starts at one or later and does not run back. -/
lemma readRange_cases (s : String) :
    readRange s = .ok none ∨ (∃ a b, readRange s = .ok (some (a, b)) ∧ 1 ≤ a ∧ a ≤ b) ∨
      ∃ f, readRange s = .error f ∧ f.IsTooLong := by
  have numeral {cs : List Char} (h : (!cs.isEmpty && cs.all isDigit) = true) : IsNumeral cs := by
    simp only [Bool.and_eq_true, Bool.not_eq_true', List.isEmpty_eq_false_iff,
      List.all_eq_true] at h
    exact .plain h.1 h.2
  have ordered (a b : Int) : (if a < 1 ∨ b < a then none else some (a, b)) = none ∨
      (if a < 1 ∨ b < a then none else some (a, b)) = some (a, b) ∧ 1 ≤ a ∧ a ≤ b := by
    split
    · exact .inl rfl
    · exact .inr ⟨rfl, by omega, by omega⟩
  simp only [readRange]
  rcases cutAt '-' (chomp s.toList) with ⟨first, last⟩
  split
  · rename_i h
    simp only [Bool.and_eq_true (!_ && _)] at h
    obtain ⟨hfirst, hlast⟩ := h
    rcases ha : readInt (.ofList first) with f | a
    · exact .inr (.inr ⟨f, by simp, (numeral hfirst).fault ha⟩)
    rcases last with _ | cs
    · simp only [ok_bind, pure, Except.pure, ← apply_ite Except.ok]
      rcases ordered a a with h | ⟨h, ha, hab⟩
      · exact .inl (by rw [h])
      · exact .inr (.inl ⟨a, a, by rw [h], ha, hab⟩)
    · rcases hb : readInt (.ofList cs) with f | b
      · exact .inr (.inr ⟨f, by simp [hb], (numeral hlast).fault hb⟩)
      simp only [hb, ok_bind, pure, Except.pure, ← apply_ite Except.ok]
      rcases ordered a b with h | ⟨h, ha, hab⟩
      · exact .inl (by rw [h])
      · exact .inr (.inl ⟨a, b, by rw [h], ha, hab⟩)
  · exact .inl rfl

/-! ### Symbols on an instrument -/

lemma mem_of_cutAt {sep c : Char} {cs before : List Char} {behind : Option (List Char)}
    (h : cutAt sep cs = (before, behind)) :
    (c ∈ before → c ∈ cs) ∧ ∀ rest, behind = some rest → c ∈ rest → c ∈ cs := by
  induction cs generalizing before behind with
  | nil =>
    simp only [cutAt, Prod.mk.injEq] at h
    obtain ⟨rfl, rfl⟩ := h
    simp
  | cons x cs ih =>
    unfold cutAt at h
    split at h
    · obtain ⟨rfl, rfl⟩ := Prod.mk.injEq _ _ _ _ ▸ h
      simp_all
    · rcases hc : cutAt sep cs with ⟨b, r⟩
      simp only [hc, Prod.mk.injEq] at h
      obtain ⟨rfl, rfl⟩ := h
      obtain ⟨hb, hr⟩ := ih hc
      refine ⟨fun hm => ?_, fun rest hrest hm => List.mem_cons_of_mem _ (hr rest hrest hm)⟩
      rcases List.mem_cons.mp hm with rfl | hm
      · simp
      · exact List.mem_cons_of_mem _ (hb hm)

def IsAscii (s : String) : Prop := ∀ c ∈ s.toList, c.toNat < 128

/-- A fault of reading one of the strings an instrument is tuned to. -/
def Instrument.Mistuned (i : Instrument) (f : Fault) : Prop :=
  ∃ strings, i.tuning = some strings ∧ ∃ s ∈ strings, Pitch.read s Pitch.defaultOctave = .error f

/-- Fret and string are read as numerals; the string that is asked for exists. -/
lemma tabPitch_cases (tuning : List String) {s : String} (hs : IsAscii s) :
    tabPitch tuning s = .ok none ∨ (∃ p, tabPitch tuning s = .ok (some p) ∧ p.Tempered) ∨
      ∃ f, tabPitch tuning s = .error f ∧ (f.IsTooLong ∨
        ∃ note ∈ tuning, Pitch.read note Pitch.defaultOctave = .error f) := by
  unfold tabPitch
  rcases hcut : cutAt '-' s.toList with ⟨fret, _ | string⟩
  · exact .inl rfl
  simp only
  split
  · rename_i h
    simp only [Bool.and_eq_true, Bool.not_eq_true', List.isEmpty_eq_false_iff,
      List.all_eq_true] at h
    obtain ⟨⟨⟨hfret, hfret'⟩, hstring⟩, hstring'⟩ := h
    have nfret : IsNumeral fret := .plain hfret fun c hc =>
      isDigit_of_isFigure (hfret' c hc) (hs c ((mem_of_cutAt hcut).1 hc))
    have nstring : IsNumeral string := .plain hstring fun c hc =>
      isDigit_of_isFigure (hstring' c hc) (hs c ((mem_of_cutAt hcut).2 string rfl hc))
    rcases ha : readInt (.ofList fret) with f | a
    · exact .inr (.inr ⟨f, rfl, .inl (nfret.fault ha)⟩)
    rcases hb : readInt (.ofList string) with f | b
    · exact .inr (.inr ⟨f, rfl, .inl (nstring.fault hb)⟩)
    simp only [ok_bind]
    split
    · rename_i hrange
      have hlt : (tuning.length - b).toNat < tuning.length := by omega
      rw [List.getElem?_eq_getElem hlt]
      simp only
      rcases Pitch.read_cases tuning[(tuning.length - b).toNat] Pitch.defaultOctave with
        h | ⟨p, o, h, hp⟩ | ⟨f, h, -⟩
      · exact .inl (by simp [h, pure, Except.pure])
      · exact .inr (.inl ⟨p.transpose a, by simp [h, pure, Except.pure], hp.transpose a⟩)
      · exact .inr (.inr ⟨f, by simp [h], .inr ⟨_, List.getElem_mem hlt, h⟩⟩)
    · exact .inl rfl
  · exact .inl rfl

lemma guitarStrings_read {s : String} (h : s ∈ guitarStrings) (f : Fault) :
    Pitch.read s Pitch.defaultOctave ≠ .error f := by
  have hall : ∀ s ∈ guitarStrings, (Pitch.read s Pitch.defaultOctave).isOk = true := by
    decide +kernel
  intro he
  have := hall s h
  rw [he] at this
  cases this

/-- A symbol in ASCII has a pitch without cents or with fifty, or none, or it holds a numeral
that is too long; the strings of a tuning may fail as well. -/
lemma resolvePitch_cases (i : Instrument) (octave : Int) {s : String} (hs : IsAscii s) :
    (resolvePitch i octave s).1 = .ok none ∨
      (∃ p, (resolvePitch i octave s).1 = .ok (some p) ∧ p.Tempered) ∨
      ∃ f, (resolvePitch i octave s).1 = .error f ∧ (f.IsTooLong ∨ i.Mistuned f) := by
  unfold resolvePitch
  cases i.style with
  | tab =>
    rcases tabPitch_cases (orDefault guitarStrings i.tuning) hs with
      h | h | ⟨f, h, hf | ⟨note, hn, hf⟩⟩
    · exact .inl h
    · exact .inr (.inl h)
    · exact .inr (.inr ⟨f, h, .inl hf⟩)
    · refine .inr (.inr ⟨f, h, .inr ?_⟩)
      rcases ht : i.tuning with _ | _ | ⟨x, xs⟩
      · exact absurd hf (guitarStrings_read (by simpa [ht, orDefault] using hn) f)
      · exact absurd hf (guitarStrings_read (by simpa [ht, orDefault] using hn) f)
      · exact ⟨x :: xs, ht, note, by simpa [ht, orDefault] using hn, hf⟩
  | grid =>
    rcases hg : get? s (orDefault generalDrums i.map) with _ | n
    · exact .inl (by simp [gridPitch, hg])
    · exact .inr (.inl ⟨⟨n.midi, 0⟩, by simp [gridPitch, hg], .inl rfl⟩)
  | standard =>
    rcases Pitch.read_cases s octave with h | ⟨p, o, h, hp⟩ | ⟨f, h, hf⟩
    · exact .inl (by simp [h])
    · exact .inr (.inl ⟨p, by simp [h], hp⟩)
    · refine .inr (.inr ⟨f, by simp [h], .inl ?_⟩)
      rcases hf with hf | ⟨-, -, -, hmem⟩
      · exact hf
      · exact absurd (hs _ hmem) (by decide)

end Partitura
