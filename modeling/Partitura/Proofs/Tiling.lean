import Mathlib.Data.Rat.Floor
import Partitura.Proofs.EventLimit
import Partitura.Proofs.Instants
import Partitura.Proofs.Meter
import Partitura.Proofs.Window
import Partitura.Stored.Query

/-!
Measures as queries see them.

A score is asked for the events of a measure by the time signature that was in force last. Where all
measures were played in that time, the windows of the measures tile the timeline, also where the
length of a measure is no whole number of ticks and is cut down, but not where nothing is left of
it. An event is found in its own measure if it starts there, or else in a later one.
-/

namespace Partitura

open Number Run

/-! ### Lengths of measures -/

/-- A remainder of a tick is dropped. -/
lemma TimeSignature.ticks_eq (t : TimeSignature) :
    t.ticks = 7680 * t.numerator / t.denominator := by
  obtain ⟨n, d, hn, hd⟩ := t
  obtain ⟨d, rfl⟩ := Int.eq_ofNat_of_zero_le hd.le
  have hticks : (n : Rat) * mkRat 4 d * (ticksPerQuarter : Rat) = ((7680 * n : Int) : Rat) / d := by
    rw [Rat.mkRat_eq_div, show ((ticksPerQuarter : Int) : Rat) = 1920 from rfl]
    push_cast
    ring
  have hnonneg : (0 : Rat) ≤ ((7680 * n : Int) : Rat) / d := by
    have : (0 : Rat) ≤ ((7680 * n : Int) : Rat) := by exact_mod_cast (by omega : 0 ≤ 7680 * n)
    positivity
  calc truncate ((n : Rat) * mkRat 4 d * (ticksPerQuarter : Rat))
      = truncate (((7680 * n : Int) : Rat) / d) := by rw [hticks]
    _ = ⌊((7680 * n : Int) : Rat) / d⌋ := truncate_eq_floor hnonneg
    _ = 7680 * n / d := Rat.floor_intCast_div_natCast _ _

lemma Header.signature_ticks {h : Header} (htime : 1 ≤ h.time.1 ∧ 1 ≤ h.time.2) :
    h.signature.ticks = 7680 * h.time.1 / h.time.2 := by
  have hmake : h.signature = ⟨h.time.1, h.time.2, by omega, by omega⟩ := by
    rw [Header.signature, TimeSignature.make, dif_pos (by omega), dif_pos (by omega)]
  rw [TimeSignature.ticks_eq, hmake]

lemma Header.signature_ticks_eq_zero_iff {h : Header} (htime : 1 ≤ h.time.1 ∧ 1 ≤ h.time.2) :
    h.signature.ticks = 0 ↔ 7680 * h.time.1 < h.time.2 := by
  have hlt := Int.ediv_lt_iff_lt_mul (a := 7680 * h.time.1) (b := 1) (by omega : 0 < h.time.2)
  have hnonneg := signature_ticks_nonneg h.signature
  rw [one_mul, ← signature_ticks htime] at hlt
  rw [← hlt]
  omega

/-! ### Windows -/

namespace Stored.Score

def eventsInMeasure (s : Score) (index : Int) : Except Fault (List Event) := do
  let (start, stop) ← s.measureWindow (.int index)
  s.eventsInWindow start stop

end Stored.Score

/-- The windows of one length around a tick: there is one. -/
lemma window_iff {ticks : Int} (hticks : 0 < ticks) (start k : Int) :
    k * ticks ≤ start ∧ start < k * ticks + ticks ↔ k = start / ticks := by
  have hlower := Int.le_ediv_iff_mul_le (a := k) (b := start) hticks
  have hupper := Int.ediv_lt_iff_lt_mul (a := start) (b := k + 1) hticks
  rw [add_mul, one_mul] at hupper
  rw [← hlower, ← hupper]
  omega

lemma filterM_map_eq_ok {α β : Type} {f : α → β} {p : β → Except Fault Bool} {q : α → Bool}
    (h : ∀ x, p (f x) = .ok (q x)) (xs : List α) :
    (xs.map f).filterM p = .ok ((xs.filter q).map f) := by
  have haux (acc : List β) :
      (xs.map f).filterAuxM p acc = .ok (((xs.filter q).map f).reverse ++ acc) := by
    induction xs generalizing acc with
    | nil => rfl
    | cons x xs ih =>
      rw [List.map_cons, List.filterAuxM, h x, ok_bind, ih]
      cases hq : q x <;> simp [hq]
  rw [List.filterM, haux, ok_bind, List.append_nil, List.reverse_reverse]
  rfl

def Event.startsWithin (start stop : Int) (e : Event) : Bool :=
  decide (start ≤ e.start) && decide (e.start < stop)

lemma Event.startsWithin_iff {start stop : Int} {e : Event} :
    e.startsWithin start stop = true ↔ start ≤ e.start ∧ e.start < stop := by
  simp [startsWithin]

lemma Event.stored_mem_filter {es : List Event} {e : Event} (he : e ∈ es) {start stop : Int} :
    e.stored ∈ (es.filter (·.startsWithin start stop)).map Event.stored ↔
      e.startsWithin start stop = true := by
  constructor
  · intro hmem
    obtain ⟨e', he', hstored⟩ := List.mem_map.mp hmem
    have hstart : e'.start = e.start := by
      have := congrArg Stored.Event.start hstored
      simpa [stored] using this
    have hin := startsWithin_iff.mp (List.mem_filter.mp he').2
    exact startsWithin_iff.mpr (hstart ▸ hin)
  · exact fun hin => List.mem_map_of_mem (List.mem_filter.mpr ⟨he, hin⟩)

lemma Event.inWindow_stored (start stop : Int) (e : Event) :
    Stored.Score.inWindow (.int start) (.int stop) e.stored.start =
      .ok (e.startsWithin start stop) := by
  have hstart : e.stored.start = .int e.start := rfl
  rw [Stored.Score.inWindow, hstart, Data.atMost_int, ok_bind, Data.less_int, startsWithin]
  by_cases h : start ≤ e.start
  · simp [h]
  · simp [h, pure, Except.pure]

namespace Score

variable {s : Score}

lemma measureWindow_stored (hperQuarter : s.ticksPerQuarter = 1920) (index : Int) :
    s.stored.measureWindow (.int index) =
      .ok (.int ((index - 1) * s.header.signature.ticks),
        .int ((index - 1) * s.header.signature.ticks + s.header.signature.ticks)) := by
  have hticks : s.stored.measureTicks = .ok s.header.signature.ticks := by
    rw [Stored.Score.measureTicks, stored, hperQuarter]
    rfl
  rw [Stored.Score.measureWindow, hticks]
  rfl

/-- A query for a measure keeps the events that start in its window, in their order. -/
lemma eventsInMeasure_stored (hperQuarter : s.ticksPerQuarter = 1920) (index : Int) :
    s.stored.eventsInMeasure index =
      .ok ((s.timeline.filter (·.startsWithin ((index - 1) * s.header.signature.ticks)
        ((index - 1) * s.header.signature.ticks + s.header.signature.ticks))).map
        Event.stored) := by
  rw [Stored.Score.eventsInMeasure, measureWindow_stored hperQuarter, ok_bind]
  refine filterM_map_eq_ok (fun e => ?_) s.timeline
  rw [Event.inWindow_stored, ok_bind]
  simp [Stored.Score.passes, pure, Except.pure]

/-- An event is found in the measure that holds the tick it starts at. -/
lemma mem_eventsInMeasure_iff (hperQuarter : s.ticksPerQuarter = 1920)
    (hticks : 0 < s.header.signature.ticks) {e : Event} (he : e ∈ s.timeline) (index : Int) :
    (∃ es, s.stored.eventsInMeasure index = .ok es ∧ e.stored ∈ es) ↔
      index = 1 + e.start / s.header.signature.ticks := by
  have hwindow := window_iff hticks e.start (index - 1)
  rw [← Event.startsWithin_iff, ← Event.stored_mem_filter he] at hwindow
  rw [eventsInMeasure_stored hperQuarter]
  constructor
  · rintro ⟨es, ⟨⟩, hmem⟩
    have := hwindow.mp hmem
    omega
  · exact fun hindex => ⟨_, rfl, hwindow.mpr (by omega)⟩

lemma eventsInMeasure_eq_nil (hperQuarter : s.ticksPerQuarter = 1920)
    (hticks : s.header.signature.ticks = 0) (index : Int) :
    s.stored.eventsInMeasure index = .ok [] := by
  have hnil : s.timeline.filter (·.startsWithin ((index - 1) * s.header.signature.ticks)
      ((index - 1) * s.header.signature.ticks + s.header.signature.ticks)) = [] := by
    refine List.filter_eq_nil_iff.mpr fun e _ => ?_
    simp only [Event.startsWithin_iff]
    omega
  rw [eventsInMeasure_stored hperQuarter, hnil, List.map_nil]

end Score

/-! ### Tiles -/

/-- In a timeline that is sorted, two windows that meet are one. -/
lemma filter_startsWithin_append {es : List Event} (hes : es.Pairwise fun a b => a.start ≤ b.start)
    {a b c : Int} (hab : a ≤ b) (hbc : b ≤ c) :
    es.filter (·.startsWithin a b) ++ es.filter (·.startsWithin b c) =
      es.filter (·.startsWithin a c) := by
  induction es with
  | nil => rfl
  | cons e es ih =>
    obtain ⟨hfirst, hes⟩ := List.pairwise_cons.mp hes
    by_cases he : e.start < b
    · have hout : e.startsWithin b c = false := by simp [Event.startsWithin, he]
      have hsame : e.startsWithin a c = e.startsWithin a b := by
        simp [Event.startsWithin, he, he.trans_le hbc]
      rw [List.filter_cons, List.filter_cons_of_neg (by simp [hout]), List.filter_cons, hsame]
      split <;> simp [ih hes]
    · -- the first window is over, so both sides keep what starts before the last end
      have hrest : ∀ e' ∈ e :: es, b ≤ e'.start := by
        refine List.forall_mem_cons.mpr ⟨by omega, fun e' he' => ?_⟩
        have := hfirst e' he'
        omega
      have hnil : (e :: es).filter (·.startsWithin a b) = [] := by
        refine List.filter_eq_nil_iff.mpr fun e' he' => ?_
        have := hrest e' he'
        simp only [Event.startsWithin_iff]
        omega
      rw [hnil, List.nil_append]
      refine List.filter_congr fun e' he' => ?_
      have := hrest e' he'
      rw [Bool.eq_iff_iff, Event.startsWithin_iff, Event.startsWithin_iff]
      omega

/-- Windows of one length, laid one to the other from zero on. -/
lemma flatMap_startsWithin {es : List Event} (hes : es.Pairwise fun a b => a.start ≤ b.start)
    {ticks : Int} (hticks : 0 ≤ ticks) (k : Nat) :
    ((List.range k).flatMap fun j => es.filter (·.startsWithin (j * ticks) (j * ticks + ticks))) =
      es.filter (·.startsWithin 0 (k * ticks)) := by
  induction k with
  | zero =>
    refine (List.filter_eq_nil_iff.mpr fun e _ => ?_).symm
    simp only [Event.startsWithin_iff]
    omega
  | succ k ih =>
    have hstop : ((k + 1 : Nat) : Int) * ticks = k * ticks + ticks := by
      push_cast
      ring
    have hstart : 0 ≤ (k : Int) * ticks := by positivity
    rw [List.range_succ, List.flatMap_append, ih, List.flatMap_singleton, hstop,
      filter_startsWithin_append hes hstart (by omega)]

namespace Score

variable {s : Score}

/-- Queries for measures that reach beyond the end of a score give its whole timeline. -/
lemma mapM_eventsInMeasure {o : Options} {emitted : List Event} (hs : s.WellFormed o emitted)
    (hperQuarter : s.ticksPerQuarter = 1920) (hticks : 0 < s.header.signature.ticks) {k : Nat}
    (hk : s.durationTicks / s.header.signature.ticks < k) :
    List.flatten <$> (List.range k).mapM (fun j : Nat => s.stored.eventsInMeasure (j + 1)) =
      .ok s.stored.timeline := by
  have hquery : (fun j : Nat => s.stored.eventsInMeasure (j + 1)) = fun j : Nat =>
      (pure ((s.timeline.filter (·.startsWithin (j * s.header.signature.ticks)
        (j * s.header.signature.ticks + s.header.signature.ticks))).map Event.stored) :
        Except Fault (List Stored.Event)) := by
    funext j
    rw [eventsInMeasure_stored hperQuarter, add_sub_cancel_right]
    rfl
  have hall : s.timeline.filter (·.startsWithin 0 (k * s.header.signature.ticks)) = s.timeline := by
    refine List.filter_eq_self.mpr fun e he => ?_
    have hsound := hs.events e he
    have hstop := hs.duration.bound e he
    have hstart := hsound.start_le_stop
    have hend := (Int.ediv_lt_iff_lt_mul hticks).mp hk
    exact Event.startsWithin_iff.mpr ⟨hsound.start, by omega⟩
  have htiles := flatMap_startsWithin hs.timeline.sorted hticks.le k
  rw [hall] at htiles
  rw [hquery, List.mapM_pure, map_pure, ← List.flatMap_def, ← List.map_flatMap, htiles]
  rfl

end Score

/-- **Queries for measures tile the timeline.** Let the last time signature be in force whenever a
measure begins to be played. If there is a whole tick to a measure, then each event is found in one
measure, by the tick it starts at. This is its own one or a later one, and its own if and only if it
starts before the end of that. So all measures together give back the timeline in its order. If
there is no whole tick to a measure, nothing is found. -/
theorem eventsInMeasure_tile {o : Options} {l l' : Library} {source : String} {compiled : Compiled}
    (h : compile o l source = (.ok compiled, l'))
    (htimes : ∀ t ∈ timesIn (readDocument (tokenize source)) (.start o l),
      t = compiled.score.header.time) :
    let s := compiled.score
    let ticks := 7680 * s.header.time.1 / s.header.time.2
    (0 < ticks →
      (∀ e ∈ s.timeline, ∃ m, e.measure = some m ∧
        1 ≤ 1 + e.start / ticks ∧
        (∀ i ≥ 1, (∃ es, s.stored.eventsInMeasure i = .ok es ∧ e.stored ∈ es) ↔
          i = 1 + e.start / ticks) ∧
        m ≤ 1 + e.start / ticks ∧
        (1 + e.start / ticks = m ↔ e.start - (m - 1) * ticks < ticks)) ∧
      ∀ k : Nat, s.durationTicks / ticks < k →
        List.flatten <$> (List.range k).mapM (fun j : Nat => s.stored.eventsInMeasure (j + 1)) =
          .ok s.stored.timeline) ∧
    (ticks = 0 ↔ 7680 * s.header.time.1 < s.header.time.2) ∧
    (ticks = 0 → ∀ i, s.stored.eventsInMeasure i = .ok []) := by
  obtain ⟨c, hrun, hsound, rfl⟩ := compile_eq_ok h
  have hwell := hsound.wellFormed
  intro s ticks
  have hticks : ticks = s.header.signature.ticks := (Header.signature_ticks hwell.time).symm
  clear_value ticks
  subst hticks
  have hperQuarter : s.ticksPerQuarter = 1920 := rfl
  have htidy : c.Tidy s.header.signature.ticks := by
    refine declareAll_tidy ?_ htimes (eval_of_compileTokens hrun)
    simp [Context.Tidy, Context.start]
  refine ⟨fun hpos => ⟨fun e he => ?_, fun k => Score.mapM_eventsInMeasure hwell hperQuarter hpos⟩,
    Header.signature_ticks_eq_zero_iff hwell.time, Score.eventsInMeasure_eq_nil hperQuarter⟩
  have hemitted : e ∈ c.timeline.newest := by
    simpa [Timeline.events] using hwell.timeline.perm.subset he
  obtain ⟨m, hm, hstart⟩ := htidy e hemitted
  have hnonneg := Int.ediv_nonneg (hwell.events e he).start hpos.le
  have hlower := (Int.le_ediv_iff_mul_le hpos).mpr hstart
  have hown := window_iff hpos e.start (m - 1)
  refine ⟨m, hm, by omega, fun i _ => Score.mem_eventsInMeasure_iff hperQuarter hpos he i,
    by omega, ?_⟩
  constructor
  · intro hfound
    have := (hown.mpr (by omega)).2
    omega
  · intro hlt
    have := hown.mp ⟨hstart, by omega⟩
    omega

/-- Two quarters in measures of a seventh of a whole note, of which 1097 ticks are left. -/
def sevenths : String := "meta \x7b time: \"1/7\" \x7d def p measure 1-2 \x7b p: c d \x7d"

/-- The second quarter of the first measure is found in the second one. -/
theorem eventsInMeasure_tile_sevenths :
    ∃ compiled l e, compile {} .shipped sevenths = (.ok compiled, l) ∧
      (∀ t ∈ timesIn (readDocument (tokenize sevenths)) (.start {} .shipped),
        t = compiled.score.header.time) ∧
      compiled.score.header.time = (1, 7) ∧ e ∈ compiled.score.timeline ∧
      e.measure = some 1 ∧ e.start = 1920 ∧
      (∀ i ≥ 1, (∃ es, compiled.score.stored.eventsInMeasure i = .ok es ∧ e.stored ∈ es) ↔ i = 2) ∧
      ∀ k : Nat, compiled.score.durationTicks / 1097 < k →
        List.flatten <$> (List.range k).mapM
            (fun j : Nat => compiled.score.stored.eventsInMeasure (j + 1)) =
          .ok compiled.score.stored.timeline := by
  have htimes : timesIn (readDocument (tokenize sevenths)) (.start {} .shipped) =
      [(1, 7), (1, 7)] := by decide +kernel
  obtain ⟨c, hchecked, hcompile⟩ := exists_compile (o := {}) rfl sevenths (l := .shipped)
    (fun c => c.header.time == (1, 7) &&
      c.timeline.newest.any fun e => e.measure == some 1 && e.start == 1920) (by decide +kernel)
  simp only [Bool.and_eq_true, beq_iff_eq, List.any_eq_true] at hchecked
  obtain ⟨htime, e, he, hmeasure, hstart⟩ := hchecked
  have hsame : ∀ t ∈ timesIn (readDocument (tokenize sevenths)) (.start {} .shipped),
      t = c.score.header.time := by
    rw [htimes, Context.score, htime]
    simp
  have hmem : e ∈ c.score.timeline :=
    c.timeline.sorted_isStableSort.perm.symm.subset (by simpa [Timeline.events] using he)
  have hticks : 7680 * c.score.header.time.1 / c.score.header.time.2 = 1097 := by
    rw [Context.score, htime]
    rfl
  obtain ⟨htile, -, -⟩ := eventsInMeasure_tile hcompile hsame
  rw [hticks] at htile
  obtain ⟨hfound, hall⟩ := htile (by decide)
  obtain ⟨m, -, -, hone, -, -⟩ := hfound e hmem
  rw [hstart] at hone
  exact ⟨_, _, e, hcompile, hsame, htime, hmem, hmeasure, hstart, hone, hall⟩

end Partitura
