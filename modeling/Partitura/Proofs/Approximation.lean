import Mathlib.Algebra.Order.Field.Basic
import Mathlib.Data.Rat.Floor
import Mathlib.Data.Rat.Lemmas
import Mathlib.Tactic.FieldSimp
import Mathlib.Tactic.Linarith
import Mathlib.Tactic.Positivity
import Partitura.Number.Fraction

/-!
Fractions that are found again from the doubles nearest to them.

The search for a near fraction keeps two neighbours around its target; nothing with a small
denominator lies between them, so the nearer one is nearest of all (`nearest_isNearest`). Two
fractions with small denominators are far apart, and a double is close to the fraction it was
rounded from, so a fraction with a small denominator is the nearest to its double.
-/

namespace Partitura.Number

/-- Two fractions differ by one over the product of their denominators at least. -/
lemma one_div_le_sub {r s : ℚ} (h : r < s) : 1 / ((r.den : ℚ) * s.den) ≤ s - r := by
  have hr : (0 : ℚ) < r.den := by exact_mod_cast r.den_pos
  have hs : (0 : ℚ) < s.den := by exact_mod_cast s.den_pos
  have hnum : r.num * s.den < s.num * r.den := Rat.lt_iff _ _ |>.mp h
  have hone : (1 : ℚ) ≤ s.num * r.den - r.num * s.den := by
    exact_mod_cast Int.sub_pos_of_lt hnum
  have heq : s - r = (s.num * r.den - r.num * s.den) / (r.den * s.den) := by
    conv_lhs => rw [← Rat.num_div_den s, ← Rat.num_div_den r]
    field_simp
  rw [heq]
  exact div_le_div_of_nonneg_right hone (by positivity)

/-! ### Nearest fractions -/

/-- `r` has a denominator up to `limit`, and no other such fraction is nearer to `x`. -/
structure IsNearest (limit : Nat) (x r : ℚ) : Prop where
  den_le : r.den ≤ limit
  closest : ∀ s : ℚ, s.den ≤ limit → |x - r| ≤ |x - s|

/-- A fraction this close to `x` is the nearest one. -/
lemma IsNearest.eq_of_close {limit : Nat} {x r q : ℚ} (h : IsNearest limit x r)
    (hq : q.den ≤ limit) (hclose : |x - q| < 1 / (2 * (limit : ℚ) ^ 2)) : r = q := by
  by_contra hne
  have hgap : 1 / (limit : ℚ) ^ 2 ≤ |r - q| := by
    have hdens {s t : ℚ} (hs : s.den ≤ limit) (ht : t.den ≤ limit) (hst : s < t) :
        1 / (limit : ℚ) ^ 2 ≤ t - s := by
      refine le_trans ?_ (one_div_le_sub hst)
      have hs0 : (0 : ℚ) < s.den := by exact_mod_cast s.den_pos
      have ht0 : (0 : ℚ) < t.den := by exact_mod_cast t.den_pos
      have hs' : (s.den : ℚ) ≤ limit := by exact_mod_cast hs
      have ht' : (t.den : ℚ) ≤ limit := by exact_mod_cast ht
      rw [sq]
      exact one_div_le_one_div_of_le (by positivity) (by gcongr)
    rcases lt_or_gt_of_ne hne with hlt | hlt
    · rw [abs_sub_comm]
      exact (hdens h.den_le hq hlt).trans (le_abs_self _)
    · exact (hdens hq h.den_le hlt).trans (le_abs_self _)
  have htri : |r - q| ≤ |x - r| + |x - q| := by
    rw [abs_sub_comm x r]
    simpa using abs_add_le (r - x) (x - q)
  have hnear := h.closest q hq
  have hhalf : 1 / (2 * (limit : ℚ) ^ 2) = 1 / (limit : ℚ) ^ 2 / 2 := by
    rw [mul_comm, div_mul_eq_div_div]
  linarith

lemma IsNearest.nonneg {limit : Nat} {x r : ℚ} (h : IsNearest limit x r) (hlimit : 0 < limit)
    (hx : 0 ≤ x) : 0 ≤ r := by
  by_contra hr
  have hzero := h.closest 0 hlimit
  rw [sub_zero, abs_of_nonneg hx, abs_of_nonneg (by linarith)] at hzero
  linarith

/-! ### The search between neighbours -/

/-- Fractions on both sides of `n / d` that are neighbours: their cross products differ by one. -/
structure Straddles (n d limit : Nat) (lo hi : Nat × Nat) : Prop where
  lo_pos : 0 < lo.2
  hi_pos : 0 < hi.2
  lo_le : lo.1 * d ≤ n * lo.2
  le_hi : n * hi.2 ≤ hi.1 * d
  adjacent : lo.2 * hi.1 = lo.1 * hi.2 + 1
  lo_small : lo.2 ≤ limit
  hi_small : hi.2 ≤ limit

namespace Straddles

variable {n d limit a b c e : Nat}

/-- The fraction between two neighbours is a neighbour of both; here it takes the lower place. -/
lemma raise (h : Straddles n d limit (a, b) (c, e)) (hroom : b + e ≤ limit)
    (hmid : (a + c) * d ≤ n * (b + e)) : Straddles n d limit (a + c, b + e) (c, e) where
  lo_pos := Nat.add_pos_left h.lo_pos e
  hi_pos := h.hi_pos
  lo_le := hmid
  le_hi := h.le_hi
  adjacent := by
    have hadj : b * c = a * e + 1 := h.adjacent
    calc (b + e) * c = b * c + e * c := Nat.add_mul b e c
      _ = a * e + c * e + 1 := by rw [hadj, Nat.mul_comm e c]; omega
      _ = (a + c) * e + 1 := by rw [Nat.add_mul]
  lo_small := hroom
  hi_small := h.hi_small

lemma lower (h : Straddles n d limit (a, b) (c, e)) (hroom : b + e ≤ limit)
    (hmid : n * (b + e) ≤ (a + c) * d) : Straddles n d limit (a, b) (a + c, b + e) where
  lo_pos := h.lo_pos
  hi_pos := Nat.add_pos_left h.lo_pos e
  lo_le := h.lo_le
  le_hi := hmid
  adjacent := by
    have hadj : b * c = a * e + 1 := h.adjacent
    calc b * (a + c) = b * a + b * c := Nat.mul_add b a c
      _ = a * b + a * e + 1 := by rw [hadj, Nat.mul_comm b a]; omega
      _ = a * (b + e) + 1 := by rw [Nat.mul_add]
  lo_small := h.lo_small
  hi_small := hroom

end Straddles

lemma neighbours_straddles {n d limit : Nat} (fuel : Nat) {lo hi : Nat × Nat}
    (h : Straddles n d limit lo hi) (hfuel : limit < fuel + lo.2 + hi.2) :
    Straddles n d limit (neighbours n d limit fuel lo hi).1 (neighbours n d limit fuel lo hi).2 ∧
      limit < (neighbours n d limit fuel lo hi).1.2 + (neighbours n d limit fuel lo hi).2.2 := by
  induction fuel generalizing lo hi with
  | zero =>
    rw [Nat.zero_add] at hfuel
    exact ⟨h, hfuel⟩
  | succ fuel ih =>
    obtain ⟨a, b⟩ := lo
    obtain ⟨c, e⟩ := hi
    have hb : 0 < b := h.lo_pos
    have he : 0 < e := h.hi_pos
    have hfuel' : limit < fuel + 1 + b + e := hfuel
    rw [neighbours]
    split_ifs with hlimit hmid
    · exact ⟨h, hlimit⟩
    · have hless : limit < fuel + (b + e) + e := by omega
      exact ih (h.raise (by omega) hmid) hless
    · have hless : limit < fuel + b + (b + e) := by omega
      exact ih (h.lower (by omega) (by omega)) hless

/-- Nothing with a denominator below `b + e` lies between neighbours. -/
lemma not_between {lo hi s : ℚ} {b e : Nat} (hb : 0 < b) (he : 0 < e)
    (hgap : hi - lo = 1 / (b * e)) (hlo : lo.den ≤ b) (hhi : hi.den ≤ e) (hs : s.den < b + e) :
    s ≤ lo ∨ hi ≤ s := by
  by_contra! hbetween
  obtain ⟨hl, hr⟩ := hbetween
  have hb' : (0 : ℚ) < b := by exact_mod_cast hb
  have he' : (0 : ℚ) < e := by exact_mod_cast he
  have hs' : (0 : ℚ) < s.den := by exact_mod_cast s.den_pos
  have hlow : 1 / ((b : ℚ) * s.den) ≤ s - lo := by
    refine le_trans ?_ (one_div_le_sub hl)
    have h0 : (0 : ℚ) < lo.den := by exact_mod_cast lo.den_pos
    exact one_div_le_one_div_of_le (by positivity) (by gcongr)
  have hhigh : 1 / ((e : ℚ) * s.den) ≤ hi - s := by
    refine le_trans ?_ (one_div_le_sub hr)
    have h0 : (0 : ℚ) < hi.den := by exact_mod_cast hi.den_pos
    rw [mul_comm (e : ℚ)]
    exact one_div_le_one_div_of_le (by positivity) (by gcongr)
  have hsum : 1 / ((b : ℚ) * s.den) + 1 / (e * s.den) = (b + e) / s.den * (1 / (b * e)) := by
    field_simp
    ring
  have hlarge : (1 : ℚ) < (b + e) / s.den := by
    rw [one_lt_div hs']
    exact_mod_cast hs
  have hpos : (0 : ℚ) < 1 / (b * e) := by positivity
  nlinarith

lemma den_add_mkRat_le (k : Int) (a : Nat) {b : Nat} (hb : 0 < b) :
    ((k : ℚ) + mkRat a b).den ≤ b := by
  refine Nat.le_of_dvd hb ?_
  have hden := Rat.den_dvd a b
  rw [Rat.divInt_ofNat] at hden
  simpa using Int.natCast_dvd_natCast.mp hden

/-- A fraction is its floor and a remainder over its denominator. -/
lemma eq_floor_add (q : ℚ) :
    q = (q.num.fdiv q.den : ℚ) + ((q.num.fmod q.den).natAbs : ℚ) / q.den := by
  have hden : (0 : ℚ) < q.den := by exact_mod_cast q.den_pos
  have hmod : ((q.num.fmod q.den).natAbs : Int) = q.num.fmod q.den := by
    have := Int.fmod_nonneg_of_pos q.num (b := q.den) (by exact_mod_cast q.den_pos)
    omega
  generalize (q.num.fmod q.den).natAbs = n at hmod ⊢
  have hdiv : (n : Int) + q.den * q.num.fdiv q.den = q.num := by
    rw [hmod]
    exact Int.fmod_add_mul_fdiv q.num q.den
  have hcast : (n : ℚ) + q.den * (q.num.fdiv q.den : ℚ) = q.num := by exact_mod_cast hdiv
  conv_lhs => rw [← Rat.num_div_den q, ← hcast]
  field_simp
  ring

/-- The nearer one of two neighbours is nearest of all. -/
lemma isNearest_of_neighbours {limit : Nat} {x lo hi : ℚ} (hlo : lo ≤ x) (hhi : x ≤ hi)
    (hloden : lo.den ≤ limit) (hhiden : hi.den ≤ limit)
    (hout : ∀ s : ℚ, s.den ≤ limit → s ≤ lo ∨ hi ≤ s) :
    (x - lo ≤ hi - x → IsNearest limit x lo) ∧ (hi - x ≤ x - lo → IsNearest limit x hi) := by
  have hbelow {s : ℚ} (hs : s ≤ lo) : x - lo ≤ |x - s| :=
    le_trans (by linarith) (le_abs_self _)
  have habove {s : ℚ} (hs : hi ≤ s) : hi - x ≤ |x - s| := by
    rw [abs_sub_comm]
    exact le_trans (by linarith) (le_abs_self _)
  constructor
  · refine fun hleft => ⟨hloden, fun s hs => ?_⟩
    rw [abs_of_nonneg (by linarith)]
    rcases hout s hs with hs | hs
    · exact hbelow hs
    · exact hleft.trans (habove hs)
  · refine fun hright => ⟨hhiden, fun s hs => ?_⟩
    rw [abs_sub_comm, abs_of_nonneg (by linarith)]
    rcases hout s hs with hs | hs
    · exact hright.trans (hbelow hs)
    · exact habove hs

/-- Neighbours whose denominators together pass the limit hold the nearest fraction. -/
lemma Straddles.isNearest {limit n a b c e : Nat} {q : ℚ} {whole : Int}
    (hq : q = whole + (n : ℚ) / q.den) (h : Straddles n q.den limit (a, b) (c, e))
    (hlarge : limit < b + e) :
    let lo : ℚ := whole + mkRat a b
    let hi : ℚ := whole + mkRat c e
    (q - lo ≤ hi - q → IsNearest limit q lo) ∧ (hi - q ≤ q - lo → IsNearest limit q hi) := by
  intro lo hi
  have hd : (0 : ℚ) < q.den := by exact_mod_cast q.den_pos
  have hb : (0 : ℚ) < b := by exact_mod_cast h.lo_pos
  have he : (0 : ℚ) < e := by exact_mod_cast h.hi_pos
  have hloq : lo = whole + (a : ℚ) / b := by simp only [lo, Rat.mkRat_eq_div, Int.cast_natCast]
  have hhiq : hi = whole + (c : ℚ) / e := by simp only [hi, Rat.mkRat_eq_div, Int.cast_natCast]
  have hlower : lo ≤ q := by
    rw [hloq, hq, add_le_add_iff_left, div_le_div_iff₀ hb hd]
    exact_mod_cast h.lo_le
  have hupper : q ≤ hi := by
    rw [hhiq, hq, add_le_add_iff_left, div_le_div_iff₀ hd he]
    exact_mod_cast h.le_hi
  have hgap : hi - lo = 1 / (b * e) := by
    have hadj : (b : ℚ) * c = a * e + 1 := by exact_mod_cast h.adjacent
    rw [hloq, hhiq]
    field_simp
    linarith
  have hlod : lo.den ≤ b := den_add_mkRat_le whole a h.lo_pos
  have hhid : hi.den ≤ e := den_add_mkRat_le whole c h.hi_pos
  exact isNearest_of_neighbours hlower hupper (hlod.trans h.lo_small) (hhid.trans h.hi_small)
    fun s hs => not_between h.lo_pos h.hi_pos hgap hlod hhid (by omega)

/-- **The fraction that is found is nearest**, among all with a denominator up to the limit. -/
lemma nearest_isNearest {limit : Nat} (hlimit : 0 < limit) (q : ℚ) :
    IsNearest limit q (nearest limit q) := by
  unfold nearest
  split_ifs with hden
  · exact ⟨hden, fun s _ => by simp⟩
  dsimp only
  have hstart : Straddles (q.num.fmod q.den).natAbs q.den limit (0, 1) (1, 1) := by
    have hlt := Int.fmod_lt_of_pos q.num (b := q.den) (by exact_mod_cast q.den_pos)
    have hnonneg := Int.fmod_nonneg_of_pos q.num (b := q.den) (by exact_mod_cast q.den_pos)
    constructor <;> simp <;> omega
  have hfuel : limit < limit + 1 + 1 := by omega
  obtain ⟨hgap, hlarge⟩ := neighbours_straddles limit hstart hfuel
  generalize neighbours (q.num.fmod q.den).natAbs q.den limit limit (0, 1) (1, 1) = found
    at hgap hlarge ⊢
  obtain ⟨⟨a, b⟩, ⟨c, e⟩⟩ := found
  obtain ⟨hleft, hright⟩ := hgap.isNearest (eq_floor_add q) hlarge
  split_ifs with hnearer
  · exact hleft (by rcases hnearer with h | ⟨h, -⟩ <;> linarith)
  · push Not at hnearer
    exact hright hnearer.1

/-! ### Rounding to doubles -/

/-- Rounding a quotient leaves its whole part if the rest is less than a half, and goes beyond it if
the rest is more; a rest of a half goes to the even neighbour. -/
lemma halfEven_cases (n : Nat) {d : Nat} (hd : 0 < d) :
    ∃ w : Nat, ∃ part : ℚ, (n : ℚ) / d = w + part ∧
      (halfEven n d = w ∧ 0 ≤ part ∧ (part < 1 / 2 ∨ part = 1 / 2 ∧ Even w) ∨
        halfEven n d = w + 1 ∧ part < 1 ∧ (1 / 2 < part ∨ part = 1 / 2 ∧ Even (w + 1))) := by
  have hd' : (0 : ℚ) < d := by exact_mod_cast hd
  have hsplit : (n : ℚ) / d = (n / d : Nat) + ((n % d : Nat) : ℚ) / d := by
    have hn : (n : ℚ) = (d : ℚ) * (n / d : Nat) + (n % d : Nat) := by
      exact_mod_cast (Nat.div_add_mod n d).symm
    conv_lhs => rw [hn]
    field_simp
  have hlt := Nat.mod_lt n hd
  refine ⟨n / d, _, hsplit, ?_⟩
  rw [halfEven]
  generalize n % d = r at hlt ⊢
  generalize n / d = w
  have hr : (r : ℚ) / d < 1 := by rw [div_lt_one hd']; exact_mod_cast hlt
  have hr0 : 0 ≤ (r : ℚ) / d := by positivity
  have hless : (r : ℚ) / d < 1 / 2 ↔ 2 * r < d := by
    rw [div_lt_div_iff₀ hd' two_pos, one_mul, mul_comm]
    exact_mod_cast Iff.rfl
  have hhalf : (r : ℚ) / d = 1 / 2 ↔ 2 * r = d := by
    rw [div_eq_div_iff hd'.ne' two_ne_zero, one_mul, mul_comm]
    exact_mod_cast Iff.rfl
  have hmore : 1 / 2 < (r : ℚ) / d ↔ d < 2 * r := by
    rw [div_lt_div_iff₀ two_pos hd', one_mul, mul_comm (r : ℚ)]
    exact_mod_cast Iff.rfl
  rw [hless, hhalf, hmore, Nat.even_add_one, Nat.even_iff]
  split_ifs with h
  · exact .inl ⟨rfl, hr0, h⟩
  · exact .inr ⟨rfl, hr, by omega⟩

lemma halfEven_close (n : Nat) {d : Nat} (hd : 0 < d) : |(halfEven n d : ℚ) - n / d| ≤ 1 / 2 := by
  obtain ⟨w, part, hn, ⟨hround, h0, hpart⟩ | ⟨hround, h1, hpart⟩⟩ := halfEven_cases n hd
  · have hle : part ≤ 1 / 2 := hpart.elim le_of_lt fun h => h.1.le
    rw [hn, hround, abs_le]
    constructor <;> linarith
  · have hge : 1 / 2 ≤ part := hpart.elim le_of_lt fun h => h.1.ge
    rw [hn, hround, Nat.cast_succ, abs_le]
    constructor <;> linarith

namespace Double

/-- Rounding errs by half the step at most that values of this size keep. -/
lemma roundUnits_close {n d k : Nat} (hd : 0 < d) (h : n < d * 2 ^ (53 + k)) :
    |(roundUnits n d : ℚ) - n / d| ≤ 2 ^ k / 2 := by
  have hd' : (0 : ℚ) < d := by exact_mod_cast hd
  have hone (j : Nat) : (1 : ℚ) ≤ 2 ^ j := one_le_pow₀ (by norm_num)
  simp only [roundUnits, Nat.pow_eq]
  split_ifs with hsmall
  · exact (halfEven_close n hd).trans (by linarith [hone k])
  · -- the step is a power of two, and not above the one given
    have hstep : (n / d).log2 - 52 ≤ k := by
      have hlt : n / d < 2 ^ (53 + k) := Nat.div_lt_of_lt_mul h
      have := (Nat.log2_lt (by omega)).mpr hlt
      omega
    generalize (n / d).log2 - 52 = j at hstep
    have hj : (0 : ℚ) < 2 ^ j := by positivity
    have hle : (2 : ℚ) ^ j ≤ 2 ^ k := pow_le_pow_right₀ (by norm_num) hstep
    have hclose := halfEven_close n (d := d * 2 ^ j) (by positivity)
    have hscale : ((halfEven n (d * 2 ^ j) * 2 ^ j : Nat) : ℚ) - n / d =
        ((halfEven n (d * 2 ^ j) : ℚ) - n / (d * 2 ^ j : Nat)) * 2 ^ j := by
      push_cast
      field_simp
    rw [hscale, abs_mul, abs_of_pos hj]
    calc _ ≤ (1 / 2 : ℚ) * 2 ^ j := by gcongr
      _ ≤ 2 ^ k / 2 := by linarith

/-- A fraction below `2 ^ k`, rounded in units of `2 ^ -(53 + m)`. -/
lemma roundUnits_scaled {q : ℚ} {k : Nat} (h0 : 0 ≤ q) (hq : q < 2 ^ k) (m : Nat) :
    |(roundUnits (q.num.natAbs * 2 ^ (53 + m)) q.den : ℚ) / 2 ^ (53 + m) - q| ≤ 2 ^ k / 2 ^ 54 := by
  have hden : (0 : ℚ) < q.den := by exact_mod_cast q.den_pos
  have hunit : (0 : ℚ) < 2 ^ (53 + m) := by positivity
  have hnum : (q.num.natAbs : ℚ) = q * q.den := by
    rw [Rat.mul_den_eq_num, ← Int.cast_natCast, Int.natAbs_of_nonneg (Rat.num_nonneg.mpr h0)]
  have hsize : q.num.natAbs * 2 ^ (53 + m) < q.den * 2 ^ (53 + (m + k)) := by
    have hcast : (q.num.natAbs : ℚ) * 2 ^ (53 + m) < q.den * 2 ^ (53 + (m + k)) := by
      calc (q.num.natAbs : ℚ) * 2 ^ (53 + m) = q * q.den * 2 ^ (53 + m) := by rw [hnum]
        _ < 2 ^ k * q.den * 2 ^ (53 + m) := by gcongr
        _ = q.den * 2 ^ (53 + (m + k)) := by ring
    exact_mod_cast hcast
  have hclose := roundUnits_close q.den_pos hsize
  generalize roundUnits (q.num.natAbs * 2 ^ (53 + m)) q.den = u at hclose ⊢
  have hexact : ((q.num.natAbs * 2 ^ (53 + m) : Nat) : ℚ) / q.den = q * 2 ^ (53 + m) := by
    push_cast
    rw [hnum]
    field_simp
  rw [hexact] at hclose
  have hscale : (u : ℚ) / 2 ^ (53 + m) - q = (u - q * 2 ^ (53 + m)) / 2 ^ (53 + m) := by field_simp
  rw [hscale, abs_div, abs_of_pos hunit]
  calc _ ≤ (2 : ℚ) ^ (m + k) / 2 / 2 ^ (53 + m) := by gcongr
    _ = 2 ^ k / 2 ^ 54 := by
      field_simp
      ring

/-- **The double of a fraction below `2 ^ k` is finite**, and off by `2 ^ (k - 54)` at most. -/
lemma ofRat_close {q : ℚ} {k : Nat} (h0 : 0 ≤ q) (hq : q < 2 ^ k) (hk : k ≤ 1000) :
    ∃ u, ofRat q = finite false u ∧ |mkRat u one - q| ≤ 2 ^ k / 2 ^ 54 := by
  obtain ⟨m, hone, hbound⟩ : ∃ m, one = 2 ^ (53 + m) ∧ 2 ^ (53 + m + (k + 1)) ≤ bound := by
    have hbound : bound = 2 ^ (53 + 1021 + 1024) := by decide +kernel
    have hle : 53 + 1021 + (k + 1) ≤ 53 + 1021 + 1024 := by omega
    exact ⟨1021, by decide +kernel, (pow_le_pow_right₀ one_le_two hle).trans_eq hbound.symm⟩
  have hclose := roundUnits_scaled h0 hq m
  have hfinite : roundUnits (q.num.natAbs * 2 ^ (53 + m)) q.den < bound := by
    refine lt_of_lt_of_le ?_ hbound
    have hunit : (0 : ℚ) < 2 ^ (53 + m) := by positivity
    have hpow : (2 : ℚ) ^ k / 2 ^ 54 ≤ 2 ^ k := div_le_self (by positivity) (by norm_num)
    have hlt := (abs_le.mp hclose).2
    have hdiv : (roundUnits (q.num.natAbs * 2 ^ (53 + m)) q.den : ℚ) / 2 ^ (53 + m) <
        2 ^ (k + 1) := by
      rw [pow_succ]
      linarith
    rw [div_lt_iff₀ hunit, ← pow_add, add_comm (k + 1)] at hdiv
    exact_mod_cast hdiv
  refine ⟨roundUnits (q.num.natAbs * 2 ^ (53 + m)) q.den, ?_, ?_⟩
  · rw [ofRat, ofRatio, ofUnits, hone, if_pos hfinite, decide_eq_false (not_lt.mpr h0)]
  · rw [hone, Rat.mkRat_eq_div, Int.cast_natCast, Nat.cast_pow, Nat.cast_ofNat]
    exact hclose

end Double

end Partitura.Number
