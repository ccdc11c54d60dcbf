import Mathlib.Data.Rat.Floor
import Mathlib.Tactic.Common
import Partitura.Number.Fraction

/-!
Numerals made of digits alone.

Digits of every script are neither blanks nor signs, so reading a text of digits can go wrong in
one way only: there are too many of them (`readInt_digits`). The whole part of a fraction above
zero is its floor.
-/

namespace Partitura.Number

open Text

lemma isDigit_iff {c : Char} : isDigit c = true ↔ ∃ d, digit? c = some d := by
  simp [isDigit, Option.isSome_iff_exists]

/-- A digit stands between ASCII zero and nine, or in the block of another zero. -/
lemma isDigit_cases {c : Char} (h : isDigit c = true) :
    (48 ≤ c.toNat ∧ c.toNat ≤ 57) ∨ ∃ z ∈ zeros, z ≤ c.toNat ∧ c.toNat ≤ z + 9 := by
  obtain ⟨d, hd⟩ := isDigit_iff.mp h
  unfold digit? at hd
  split at hd
  · split at hd
    · rename_i hr
      left
      exact ⟨hr.1, hr.2⟩
    · simp at hd
  · obtain ⟨z, hz, -⟩ := Option.map_eq_some_iff.mp hd
    have hz' := List.find?_some hz
    simp only [Bool.and_eq_true, decide_eq_true_eq] at hz'
    exact .inr ⟨z, List.mem_of_find?_eq_some hz, hz'⟩

lemma not_isBlank_of_isDigit {c : Char} (h : isDigit c = true) : isBlank c = false := by
  have hblocks : ∀ z ∈ zeros, ∀ r ∈ blanks, z + 9 < r.1 ∨ r.2 < z := by decide
  have hascii : ∀ r ∈ blanks, 57 < r.1 ∨ r.2 < 48 := by decide
  simp only [isBlank, CharClass.has, List.any_eq_false, Bool.and_eq_true, decide_eq_true_eq]
  intro r hr hc
  rcases isDigit_cases h with hd | ⟨z, hz, hd⟩
  · have := hascii r hr; omega
  · have := hblocks z hz r hr; omega

lemma not_isMargin_of_isDigit {c : Char} (h : isDigit c = true) : isMargin c = false := by
  simp [isMargin, not_isBlank_of_isDigit h]

/-- Among ASCII characters the figures are the digits. -/
lemma isDigit_of_isFigure {c : Char} (h : isFigure c = true) (hc : c.toNat < 128) :
    isDigit c = true := by
  have hfig : ∀ r ∈ figures, 128 ≤ r.1 := by decide
  simp only [isFigure, CharClass.has, Bool.or_eq_true, List.any_eq_true, Bool.and_eq_true,
    decide_eq_true_eq] at h
  rcases h with h | ⟨r, hr, h⟩
  · exact h
  · have := hfig r hr; omega

/-! ### Reading digits -/

lemma trimBy_eq_self {p : Char → Bool} {cs : List Char} (h : ∀ c ∈ cs, p c = false) :
    trimBy p cs = cs := by
  have drop {l : List Char} (hl : ∀ c ∈ l, p c = false) : l.dropWhile p = l := by
    cases l with
    | nil => rfl
    | cons c l => simp [hl c (by simp)]
  have hrev : ∀ c ∈ cs.reverse, p c = false := fun c hc => h c (by simpa using hc)
  rw [trimBy, drop h, drop hrev, List.reverse_reverse]

lemma digitsAfter_digits {ds : List Char} (h : ∀ c ∈ ds, isDigit c = true) :
    digitsAfter ds = (ds.filterMap digit?, []) := by
  induction ds with
  | nil => rfl
  | cons c ds ih =>
    obtain ⟨d, hd⟩ := isDigit_iff.mp (h c (by simp))
    have hlow : c ≠ '_' := by rintro rfl; cases hd
    rw [digitsAfter.eq_3 _ _ (by rintro _ _ rfl; exact absurd rfl hlow), hd,
      ih fun x hx => h x (by simp [hx])]
    simp [hd]

lemma digitRun_digits {ds : List Char} (h : ∀ c ∈ ds, isDigit c = true) :
    digitRun ds = (ds.filterMap digit?, []) := by
  cases ds with
  | nil => rfl
  | cons c ds =>
    obtain ⟨d, hd⟩ := isDigit_iff.mp (h c (by simp))
    simp [digitRun, hd, digitsAfter_digits fun x hx => h x (List.mem_cons_of_mem _ hx)]

/-- A whole number in digits, with or without a minus sign. -/
inductive IsNumeral : List Char → Prop
  | plain {ds : List Char} (ne : ds ≠ []) (digits : ∀ c ∈ ds, isDigit c = true) : IsNumeral ds
  | minus {ds : List Char} (ne : ds ≠ []) (digits : ∀ c ∈ ds, isDigit c = true) :
    IsNumeral ('-' :: ds)

lemma IsNumeral.trim {cs : List Char} (h : IsNumeral cs) : trimBy isMargin cs = cs := by
  apply trimBy_eq_self
  cases h with
  | plain _ hds => exact fun c hc => not_isMargin_of_isDigit (hds c hc)
  | minus _ hds =>
    intro c hc
    rcases List.mem_cons.mp hc with rfl | hc
    · decide
    · exact not_isMargin_of_isDigit (hds c hc)

lemma cutSign_digits {ds : List Char} (h : ∀ c ∈ ds, isDigit c = true) :
    cutSign ds = (false, ds) := by
  cases ds with
  | nil => rfl
  | cons c ds =>
    have hc := h c (by simp)
    have hminus : c ≠ '-' := by rintro rfl; exact absurd hc (by decide)
    have hplus : c ≠ '+' := by rintro rfl; exact absurd hc (by decide)
    unfold cutSign
    split <;> simp_all

/-- Reading a numeral comes down to its sign and its digits. -/
lemma readInt_digits (negative : Bool) {ds : List Char} (hne : ds ≠ [])
    (h : ∀ c ∈ ds, isDigit c = true) :
    readInt (.ofList (if negative then '-' :: ds else ds)) =
      ofDigits negative (ds.filterMap digit?) := by
  have htrim : trimBy isMargin (if negative then '-' :: ds else ds) =
      if negative then '-' :: ds else ds := by
    cases negative with
    | false => exact (IsNumeral.plain hne h).trim
    | true => exact (IsNumeral.minus hne h).trim
  have hsign : cutSign (if negative then '-' :: ds else ds) = (negative, ds) := by
    cases negative with
    | false => exact cutSign_digits h
    | true => rfl
  obtain ⟨c, ds, rfl⟩ := List.exists_cons_of_ne_nil hne
  obtain ⟨d, hd⟩ := isDigit_iff.mp (h c (by simp))
  simp only [readInt, String.toList_ofList, htrim, hsign, digitRun_digits h,
    List.filterMap_cons, hd]

lemma IsNumeral.readInt {cs : List Char} (h : IsNumeral cs) :
    ∃ negative ds, readInt (.ofList cs) = ofDigits negative ds ∧
      (cs.head? ≠ some '-' → negative = false) := by
  cases h with
  | plain ne hds => exact ⟨false, _, readInt_digits false ne hds, fun _ => rfl⟩
  | minus ne hds => exact ⟨true, _, readInt_digits true ne hds, by simp⟩

lemma ofDigits_eq_error {negative : Bool} {ds : List Nat} {f : Fault}
    (h : ofDigits negative ds = .error f) : ∃ n, digitLimit < n ∧ f = .numeralTooLong n := by
  unfold ofDigits at h
  split at h
  · rename_i hlong
    exact ⟨_, hlong, by simpa using h.symm⟩
  · simp at h

/-- **A numeral can only be too long.** -/
lemma IsNumeral.fault {cs : List Char} (h : IsNumeral cs) {f : Fault}
    (hf : Number.readInt (.ofList cs) = .error f) :
    ∃ n, digitLimit < n ∧ f = .numeralTooLong n := by
  obtain ⟨negative, ds, hread, -⟩ := h.readInt
  exact ofDigits_eq_error (hread ▸ hf)

lemma IsNumeral.nonneg {ds : List Char} (hne : ds ≠ []) (h : ∀ c ∈ ds, isDigit c = true) {n : Int}
    (hn : Number.readInt (.ofList ds) = .ok n) : 0 ≤ n := by
  obtain ⟨negative, vs, hread, hplain⟩ := (IsNumeral.plain hne h).readInt
  have hsign : ds.head? ≠ some '-' := by
    intro hd
    obtain ⟨c, ds, rfl⟩ := List.exists_cons_of_ne_nil hne
    simp only [List.head?_cons, Option.some.injEq] at hd
    exact absurd (hd ▸ h c (by simp)) (by decide)
  rw [hread, hplain hsign, ofDigits] at hn
  split at hn
  · simp at hn
  · simp only [Bool.false_eq_true, if_false, Except.ok.injEq] at hn
    omega

/-! ### Written numbers -/

lemma digit?_of_isDigit {c : Char} (h : c.isDigit = true) : digit? c = some (c.toNat - 48) := by
  have hle : '0' ≤ c ∧ c ≤ '9' := by simpa [Char.isDigit, Char.le_def] using h
  have hc : c.toNat < 128 := by
    have : c.toNat ≤ '9'.toNat := hle.2
    have hnine : '9'.toNat = 57 := rfl
    omega
  rw [digit?, if_pos hc, if_pos hle]
  rfl

lemma isDigit_of_mem_digitChars {n : Nat} {c : Char} (h : c ∈ digitChars n) :
    isDigit c = true :=
  isDigit_iff.mpr ⟨_, digit?_of_isDigit (Nat.isDigit_of_mem_toDigits (by decide) le_rfl h)⟩

lemma filterMap_digit? {cs : List Char} (h : ∀ c ∈ cs, c.isDigit = true) :
    cs.filterMap digit? = cs.map fun c => c.toNat - '0'.toNat := by
  rw [List.filterMap_congr fun c hc => digit?_of_isDigit (h c hc), List.filterMap_eq_map']
  rfl

lemma digitsValue_digitChars (n : Nat) : digitsValue ((digitChars n).filterMap digit?) = n := by
  have hds : ∀ c ∈ digitChars n, c.isDigit = true := fun c hc =>
    Nat.isDigit_of_mem_toDigits (by decide) le_rfl hc
  rw [filterMap_digit? hds, digitsValue, List.foldl_map]
  exact Nat.ofDigitChars_ten_toDigits

lemma length_digitChars_le {n k : Nat} (hk : 0 < k) (h : n < Nat.pow 10 k) :
    (digitChars n).length ≤ k :=
  (Nat.length_toDigits_le_iff (by decide) hk).mpr h

/-- **A number that can be written is read back.** -/
lemma readInt_decimal {n : Int} (h : n.natAbs < Nat.pow 10 digitLimit) :
    readInt (decimal n) = .ok n := by
  have hlen : ((digitChars n.natAbs).filterMap digit?).length ≤ digitLimit :=
    (List.length_filterMap_le _ _).trans (length_digitChars_le (by decide) h)
  have hne : digitChars n.natAbs ≠ [] := Nat.toDigits_ne_nil
  have hread := readInt_digits (decide (n < 0)) hne fun c hc => isDigit_of_mem_digitChars hc
  simp only [decide_eq_true_eq] at hread
  rw [decimal, hread, ofDigits, if_neg (by omega), digitsValue_digitChars]
  simp only [decide_eq_true_eq, Except.ok.injEq]
  split <;> omega

lemma writeInt_eq_ok {n : Int} {s : String} :
    writeInt n = .ok s ↔ n.natAbs < Nat.pow 10 digitLimit ∧ decimal n = s := by
  unfold writeInt
  split <;> simp_all

/-! ### Whole parts -/

lemma truncate_eq_floor {q : Rat} (h : 0 ≤ q) : truncate q = ⌊q⌋ := by
  rw [truncate, Int.tdiv_eq_ediv_of_nonneg (Rat.num_nonneg.mpr h), Rat.floor_def']

end Partitura.Number
