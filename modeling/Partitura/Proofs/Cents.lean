import Partitura.Proofs.Approximation
import Partitura.Proofs.Notation

/-!
Pitches to the nearest cent.

A fractional semitone becomes the semitone below it and the nearest whole number of cents above
that. The two together are the fraction rounded to the nearest cent, with halves to the even one.
But they are not rounded together: half a cent or less below a semitone (`JustBelow`), the cents
come to a hundred, and no semitone is carried. So just there a pitch has a second form, which
differs from the one of the semitone above it and is sorted before it. Everywhere else the form is
unique, and its order is that of the pitches.
-/

namespace Partitura

namespace Number

/-! ### Halves to the even neighbour -/

/-- A whole number half a unit away at most; if it is just that, it is even. -/
structure RoundsTo (x : ℚ) (n : Int) : Prop where
  close : |n - x| ≤ 1 / 2
  tie : |n - x| = 1 / 2 → Even n

instance (x : ℚ) (n : Int) : Decidable (RoundsTo x n) :=
  decidable_of_iff (|n - x| ≤ 1 / 2 ∧ (|n - x| = 1 / 2 → Even n))
    ⟨fun h => ⟨h.1, h.2⟩, fun h => ⟨h.close, h.tie⟩⟩

namespace RoundsTo

variable {x : ℚ} {m n : Int}

lemma unique (hm : RoundsTo x m) (hn : RoundsTo x n) : m = n := by
  wlog hle : m ≤ n generalizing m n
  · exact (this hn hm (by omega)).symm
  have hclose := abs_le.mp hm.close
  have hclose' := abs_le.mp hn.close
  have hgap : n ≤ m + 1 := by
    have : (n : ℚ) ≤ m + 1 := by linarith
    exact_mod_cast this
  by_contra hne
  -- neighbours are both half a unit away, and only one of them is even
  obtain rfl : n = m + 1 := by omega
  push_cast at hclose'
  have hx : x = m + 1 / 2 := by linarith
  have heven : Even m := hm.tie (by rw [hx]; norm_num)
  have heven' : Even (m + 1) := hn.tie (by rw [hx]; push_cast; norm_num)
  exact Int.even_add_one.mp heven' heven

/-- An even number can be added before or after rounding. -/
lemma add_even (h : RoundsTo x n) {k : Int} (hk : Even k) : RoundsTo (x + k) (n + k) := by
  have hsame : ((n + k : Int) : ℚ) - (x + k) = n - x := by
    push_cast
    ring
  exact ⟨hsame ▸ h.close, fun htie => (h.tie (hsame ▸ htie)).add hk⟩

lemma neg (h : RoundsTo x n) : RoundsTo (-x) (-n) := by
  have hsame : |((-n : Int) : ℚ) - -x| = |n - x| := by
    rw [abs_sub_comm]
    push_cast
    congr 1
    ring
  exact ⟨hsame ▸ h.close, fun htie => (h.tie (hsame ▸ htie)).neg⟩

end RoundsTo

lemma roundsTo_halfEven (n : Nat) {d : Nat} (hd : 0 < d) : RoundsTo (n / d) (halfEven n d) := by
  refine ⟨halfEven_close n hd, fun htie => ?_⟩
  obtain ⟨w, part, hn, ⟨hround, h0, hpart⟩ | ⟨hround, h1, hpart⟩⟩ := halfEven_cases n hd
  · rw [hround, hn, Int.cast_natCast, sub_add_cancel_left, abs_neg, abs_of_nonneg h0] at htie
    obtain ⟨-, heven⟩ := hpart.resolve_left htie.not_lt
    exact_mod_cast hround ▸ heven
  · have hrest : (((w + 1 : Nat) : Int) : ℚ) - (w + part) = 1 - part := by
      push_cast
      ring
    rw [hround, hn, hrest, abs_of_pos (by linarith)] at htie
    obtain ⟨-, heven⟩ := hpart.resolve_left (by linarith)
    exact_mod_cast hround ▸ heven

lemma roundsTo_roundRat (x : ℚ) : RoundsTo x (roundRat x) := by
  have h := roundsTo_halfEven x.num.natAbs x.den_pos
  have habs : (x.num.natAbs : ℚ) / x.den = |x| := by
    rw [Rat.abs_def, Rat.divInt_eq_div, Int.cast_natCast, Int.cast_natCast]
  rw [habs] at h
  rw [roundRat]
  split_ifs with hx
  · rw [abs_of_neg hx] at h
    simpa using h.neg
  · rwa [abs_of_nonneg (not_lt.mp hx)] at h

end Number

open Number

namespace Pitch

/-! ### Pitches of fractional semitones -/

/-- Half a cent or less below a semitone. -/
def JustBelow (q : ℚ) : Prop := ∃ k : Int, k - 1 / 200 ≤ q ∧ q < k

def inCents (p : Pitch) : Int := 100 * p.midi + p.cents

/-- The cents are those above the semitone below, rounded. -/
lemma roundsTo_cents (q : ℚ) :
    (ofSemitones q).midi = ⌊q⌋ ∧ RoundsTo (100 * (q - ⌊q⌋)) (ofSemitones q).cents := by
  rw [ofSemitones_eq, mul_comm]
  exact ⟨rfl, roundsTo_roundRat _⟩

/-- Semitones and cents together are the nearest cent: a whole semitone has an even number of
cents, so halves go the same way with it and without it. -/
lemma roundsTo_inCents (q : ℚ) : RoundsTo (100 * q) (ofSemitones q).inCents := by
  obtain ⟨hmidi, hcents⟩ := roundsTo_cents q
  have heven : Even (100 * ⌊q⌋) := (by decide : Even (100 : Int)).mul_right _
  have hwhole : 100 * (q - ⌊q⌋) + ((100 * ⌊q⌋ : Int) : ℚ) = 100 * q := by
    push_cast
    ring
  rw [inCents, hmidi, add_comm, ← hwhole]
  exact hcents.add_even heven

lemma cents_nonneg (q : ℚ) : 0 ≤ (ofSemitones q).cents := by
  have hclose := abs_le.mp (roundsTo_cents q).2.close
  have hfloor := Int.floor_le q
  have hlt : (-1 : ℚ) < (ofSemitones q).cents := by linarith
  have hlt' : -1 < (ofSemitones q).cents := by exact_mod_cast hlt
  omega

lemma cents_le (q : ℚ) : (ofSemitones q).cents ≤ 100 := by
  have hclose := abs_le.mp (roundsTo_cents q).2.close
  have hfloor := Int.lt_floor_add_one q
  have hlt : ((ofSemitones q).cents : ℚ) < 101 := by linarith
  have hlt' : (ofSemitones q).cents < 101 := by exact_mod_cast hlt
  omega

/-- The cents come to a whole semitone just below the next one. -/
lemma cents_eq_iff (q : ℚ) : (ofSemitones q).cents = 100 ↔ JustBelow q := by
  have hcents := (roundsTo_cents q).2
  have hclose := abs_le.mp hcents.close
  constructor
  · intro h
    rw [h] at hclose
    push_cast at hclose
    refine ⟨⌊q⌋ + 1, ?_, by exact_mod_cast Int.lt_floor_add_one q⟩
    push_cast
    linarith
  · rintro ⟨k, hk, hlt⟩
    obtain rfl : k = ⌊q⌋ + 1 := by
      have hlt' : ⌊q⌋ < k := Int.floor_lt.mpr hlt
      have hle : k - 1 ≤ ⌊q⌋ := Int.le_floor.mpr (by push_cast; linarith)
      omega
    push_cast at hk
    have hge : (99 : ℚ) ≤ (ofSemitones q).cents := by linarith
    have hge' : 99 ≤ (ofSemitones q).cents := by exact_mod_cast hge
    have hne : (ofSemitones q).cents ≠ 99 := by
      -- ninety-nine cents could only be a tie, and are odd
      intro h
      rw [h] at hcents hclose
      push_cast at hclose
      have hx : 100 * (q - ⌊q⌋) = 99 + 1 / 2 := by linarith
      have heven : Even (99 : Int) := hcents.tie (by rw [hx]; norm_num)
      exact absurd heven (by decide)
    have hle := cents_le q
    omega

lemma ofSemitones_close (q : ℚ) :
    |(ofSemitones q).midi + ((ofSemitones q).cents : ℚ) / 100 - q| ≤ 1 / 200 := by
  have hclose := abs_le.mp (roundsTo_inCents q).close
  rw [inCents] at hclose
  push_cast at hclose
  rw [abs_le]
  constructor <;> linarith

section Order

variable {p p' : Pitch}

/-- With a hundred cents at most, two forms of one pitch differ in having them or not. -/
lemma eq_iff_inCents (hp : 0 ≤ p.cents ∧ p.cents ≤ 100) (hp' : 0 ≤ p'.cents ∧ p'.cents ≤ 100) :
    p = p' ↔ p.inCents = p'.inCents ∧ (p.cents = 100 ↔ p'.cents = 100) := by
  obtain ⟨midi, cents⟩ := p
  obtain ⟨midi', cents'⟩ := p'
  simp only [inCents, Pitch.mk.injEq] at hp hp' ⊢
  omega

/-- Pitches are ordered by semitones first. With a hundred cents at most this is the order of the
whole pitches, and of two forms of one pitch that with a hundred cents comes first. -/
lemma le_iff_inCents (hp : 0 ≤ p.cents ∧ p.cents ≤ 100) (hp' : 0 ≤ p'.cents ∧ p'.cents ≤ 100) :
    p.le p' = true ↔
      p.inCents < p'.inCents ∨ p.inCents = p'.inCents ∧ (p'.cents = 100 → p.cents = 100) := by
  have hle : p.le p' = true ↔ p.midi < p'.midi ∨ p.midi = p'.midi ∧ p.cents ≤ p'.cents := by
    simp [le]
  rw [hle, inCents, inCents]
  omega

end Order

/-- **A pitch is the nearest cent, and has one form except just below a semitone.** There are no
negative cents, and a hundred of them only just below a semitone; the pitch is half a cent off at
most. Two fractions that round to the same cent give the same pitch unless just one of them is just
below a semitone. The pitches are ordered as the cents they are rounded to; of two forms of one
pitch, that with a hundred cents comes first. -/
theorem ofSemitones_canonical_iff (q r : ℚ) :
    (0 ≤ (ofSemitones q).cents ∧ (ofSemitones q).cents ≤ 100 ∧
      ((ofSemitones q).cents < 100 ↔ ¬ JustBelow q) ∧
      |(ofSemitones q).midi + ((ofSemitones q).cents : ℚ) / 100 - q| ≤ 1 / 200 ∧
      RoundsTo (100 * q) (ofSemitones q).inCents) ∧
    ∀ m n : Int, RoundsTo (100 * q) m → RoundsTo (100 * r) n →
      (ofSemitones q = ofSemitones r ↔ m = n ∧ (JustBelow q ↔ JustBelow r)) ∧
      ((ofSemitones q).le (ofSemitones r) = true ↔
        m < n ∨ m = n ∧ (JustBelow r → JustBelow q)) := by
  refine ⟨⟨cents_nonneg q, cents_le q, ?_, ofSemitones_close q, roundsTo_inCents q⟩,
    fun m n hm hn => ?_⟩
  · rw [← cents_eq_iff]
    have hle := cents_le q
    omega
  · obtain rfl := hm.unique (roundsTo_inCents q)
    obtain rfl := hn.unique (roundsTo_inCents r)
    have hq := And.intro (cents_nonneg q) (cents_le q)
    have hr := And.intro (cents_nonneg r) (cents_le r)
    rw [← cents_eq_iff, ← cents_eq_iff]
    exact ⟨eq_iff_inCents hq hr, le_iff_inCents hq hr⟩

/-- A third of a semitone down, and the cent nearest to it. -/
theorem ofSemitones_canonical_iff_third :
    RoundsTo (100 * (-1 / 3)) (-33) ∧ RoundsTo (100 * (-33 / 100)) (-33) ∧
      ofSemitones (-1 / 3) = ofSemitones (-33 / 100) := by
  have hthird : RoundsTo (100 * (-1 / 3)) (-33) := by decide +kernel
  have hcent : RoundsTo (100 * (-33 / 100)) (-33) := by decide +kernel
  obtain ⟨⟨-, -, hiff, -⟩, hsame⟩ := ofSemitones_canonical_iff (-1 / 3) (-33 / 100)
  have hfree : ¬ JustBelow (-1 / 3) := hiff.mp (by decide +kernel)
  have hfree' : ¬ JustBelow (-33 / 100) := by
    rw [← cents_eq_iff]
    decide +kernel
  exact ⟨hthird, hcent, (hsame _ _ hthird hcent).1.mpr ⟨rfl, iff_of_false hfree hfree'⟩⟩

/-- Just below a semitone there are a hundred cents, and the pitch is not that of the semitone, to
which it is rounded. -/
theorem not_canonical_justBelow :
    ¬ (ofSemitones (60999 / 1000)).cents < 100 ∧
      RoundsTo (100 * (60999 / 1000)) 6100 ∧ RoundsTo (100 * 61) 6100 ∧
      ofSemitones (60999 / 1000) ≠ ofSemitones 61 ∧
      (ofSemitones 61).le (ofSemitones (60999 / 1000)) = false := by
  decide +kernel

end Pitch

end Partitura
