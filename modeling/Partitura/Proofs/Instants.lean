import Partitura.Proofs.RoundTrip

/-!
Events that begin and end on one tick.

Lengths are cut to whole ticks, of which a whole note has 7680. So the note values beyond that take
no time, although they are no grace notes; with dots the bound is higher.
-/

namespace Partitura

namespace Event

/-- A note value shorter than a tick, without a dot, with one or with two. -/
def Fleeting (e : Event) : Prop :=
  ∃ n : Nat, 7680 < n ∧ e.duration = 4 / n ∨ 11520 < n ∧ e.duration = 6 / n ∨
    13440 < n ∧ e.duration = 7 / n

/-- The part `a` in `n` of a quarter is cut to nothing if it is less than a tick. -/
lemma floor_ticks_eq_zero_iff (a : Nat) {n : Nat} (hn : 1 ≤ n) :
    ⌊1920 * ((a : Rat) / n)⌋ = 0 ↔ 1920 * a < n := by
  have hpos : (0 : Rat) < n := by exact_mod_cast hn
  rw [Int.floor_eq_zero_iff, Set.mem_Ico, and_iff_right (by positivity), ← mul_div_assoc,
    div_lt_one hpos]
  exact_mod_cast Iff.rfl

lemma fleeting_iff {e : Event} (h : NoteValue e.duration) :
    e.Fleeting ↔ ⌊1920 * e.duration⌋ = 0 := by
  have hfour {n : Nat} := floor_ticks_eq_zero_iff 4 (n := n)
  have hsix {n : Nat} := floor_ticks_eq_zero_iff 6 (n := n)
  have hseven {n : Nat} := floor_ticks_eq_zero_iff 7 (n := n)
  push_cast at hfour hsix hseven
  constructor
  · rintro ⟨n, ⟨hn, hq⟩ | ⟨hn, hq⟩ | ⟨hn, hq⟩⟩ <;> rw [hq]
    · exact (hfour (by omega)).mpr hn
    · exact (hsix (by omega)).mpr hn
    · exact (hseven (by omega)).mpr hn
  · intro hfloor
    obtain ⟨n, hn, hq | hq | hq⟩ := h <;> rw [hq] at hfloor
    · exact ⟨n, .inl ⟨(hfour hn).mp hfloor, hq⟩⟩
    · exact ⟨n, .inr (.inl ⟨(hsix hn).mp hfloor, hq⟩)⟩
    · exact ⟨n, .inr (.inr ⟨(hseven hn).mp hfloor, hq⟩)⟩

namespace Sound

variable {is : List Instrument} {e : Event}

lemma start_le_stop (h : e.Sound is) : e.start ≤ e.stop := by
  have hfloor : 0 ≤ ⌊1920 * e.duration⌋ :=
    Int.floor_nonneg.mpr (mul_nonneg (by norm_num) h.duration_nonneg)
  rw [h.stop]
  omega

lemma isInstant_iff (h : e.Sound is) :
    e.stop = e.start ↔ e.isGrace = true ∨ e.Fleeting := by
  rw [h.stop, add_eq_left]
  cases hgrace : e.isGrace with
  | true => simp [h.grace.mpr hgrace]
  | false => simp [fleeting_iff (h.value hgrace)]

end Sound

end Event

/-- **What takes no time is a grace note or is shorter than a tick.** No event of a compiled score
ends before it begins, and it ends where it begins if and only if it is a grace note or has a note
value beyond 7680, or beyond 11520 with a dot, or beyond 13440 with two dots. -/
theorem compile_stop_eq_start_iff {o : Options} {l l' : Library} {source : String}
    {compiled : Compiled} (h : compile o l source = (.ok compiled, l')) {e : Event}
    (he : e ∈ compiled.score.timeline) :
    e.start ≤ e.stop ∧ (e.stop = e.start ↔ e.isGrace = true ∨ e.Fleeting) := by
  obtain ⟨c, -, hc, rfl⟩ := compile_eq_ok h
  have hsound := hc.wellFormed.events e he
  exact ⟨hsound.start_le_stop, hsound.isInstant_iff⟩

theorem compile_stop_eq_start_iff_dotted :
    ∃ compiled l e, compile {} .shipped (oneNote "13441..") = (.ok compiled, l) ∧
      e ∈ compiled.score.timeline ∧ e.duration = 7 / 13441 ∧ e.start ≤ e.stop ∧
      e.stop = e.start := by
  obtain ⟨compiled, l, e, hcompile, htimeline, -, hduration⟩ :=
    compile_oneNote "13441.." (7 / 13441) (by decide +kernel)
  have he : e ∈ compiled.score.timeline := by simp [htimeline]
  obtain ⟨hle, hiff⟩ := compile_stop_eq_start_iff hcompile he
  have hfleeting : e.Fleeting := ⟨13441, .inr (.inr ⟨by decide, hduration⟩)⟩
  exact ⟨compiled, l, e, hcompile, he, hduration, hle, hiff.mpr (.inr hfleeting)⟩

/-- A note that is no grace note may take no time. -/
theorem not_start_lt_stop_short :
    ∃ compiled l e, compile {} .shipped (oneNote "7681") = (.ok compiled, l) ∧
      e ∈ compiled.score.timeline ∧ e.isGrace = false ∧ ¬ e.start < e.stop := by
  obtain ⟨compiled, l, e, hcompile, htimeline, -, hduration⟩ :=
    compile_oneNote "7681" (4 / 7681) (by decide +kernel)
  have he : e ∈ compiled.score.timeline := by simp [htimeline]
  obtain ⟨c, -, hc, rfl⟩ := compile_eq_ok hcompile
  have hsound := hc.wellFormed.events e he
  have hgrace : e.isGrace = false := by
    rw [Bool.eq_false_iff, ne_eq, ← hsound.grace, hduration]
    norm_num
  have hstop := hsound.isInstant_iff.mpr (.inr ⟨7681, .inl ⟨by decide, hduration⟩⟩)
  exact ⟨_, l, e, hcompile, he, hgrace, hstop.not_gt⟩

end Partitura
