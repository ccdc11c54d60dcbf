import Partitura.Proofs.Bounds
import Partitura.Proofs.Layout

/-!
The measures that a compilation plays.

Each time a block is played, the time signature then in force says where the measure starts
(`timesIn`). An event may start behind the end of its measure, since a stream may be longer than
that, but never before the start (`Tidy`).
-/

namespace Partitura

open Run Walk

variable {P : Type}

/-! ### Times in force -/

namespace Run

/-- The times in force at the start of the measures of a block, `count` of them unless an event is
refused before or the run fails. -/
def measureTimes (entries : List (Entry P)) : Nat → Int → Context P → List (Int × Int)
  | 0, _, _ => []
  | count + 1, index, c =>
    c.header.time ::
      match eval (playEntries entries index ((index - 1) * c.header.signature.ticks)) c with
      | .ok (_, d) => if d.timeline.truncated then [] else measureTimes entries count (index + 1) d
      | .error _ => []

/-- The times in force whenever a declaration begins to play a measure. -/
def declareTimes (c : Context P) : Declaration P → List (Int × Int)
  | .measure b =>
    match eval (playback? b) c with
    | .ok (some p, d) => measureTimes (readEntries d.defines p.body) (p.left + 1) p.index d
    | _ => []
  | _ => []

/-- The times in force whenever a measure begins to be played, in the order of playing. -/
def timesIn : List (Declaration P) → Context P → List (Int × Int)
  | [], _ => []
  | d :: ds, c =>
    declareTimes c d ++
      match eval (declare d) c with
      | .ok (_, e) => timesIn ds e
      | .error _ => []

end Run

/-! ### Where events start -/

/-- An event that starts no earlier than its measure, in measures of so many ticks. -/
def Event.Behind (ticks : Int) (e : Event) : Prop :=
  ∃ m, e.measure = some m ∧ (m - 1) * ticks ≤ e.start

def Context.Tidy (ticks : Int) (c : Context P) : Prop :=
  ∀ e ∈ c.timeline.newest, e.Behind ticks

lemma WrittenEvent.MadeOn.start_le_stop {e : WrittenEvent P} {s : Stage} {made : Event}
    (h : e.MadeOn s made) : made.start ≤ made.stop := by
  obtain ⟨_, _, r, hr, rfl⟩ := h
  obtain ⟨_, d, _, -, -, -, -, -, hevent⟩ := render_eq_ok hr
  have := d.ticks_nonneg
  rw [hevent]
  simp only
  omega

/-- Events that follow each other do not start before the first. -/
lemma EndToEnd.le_start {tick : Int} {es : List Event} (h : EndToEnd tick es)
    (hes : ∀ e ∈ es, e.start ≤ e.stop) : ∀ e ∈ es, tick ≤ e.start := by
  induction es generalizing tick with
  | nil => simp
  | cons e es ih =>
    obtain ⟨hstart, hrest⟩ := h
    obtain ⟨he, hes⟩ := List.forall_mem_cons.mp hes
    refine List.forall_mem_cons.mpr ⟨by omega, fun e' he' => ?_⟩
    have := ih hrest hes e' he'
    omega

namespace Run

variable {ticks index : Int}

lemma perform_tidy {s : Stage} (hbase : s.base = (index - 1) * ticks)
    (hmeasure : s.measure = some index) (items : List (Placed (Item P))) :
    Keeps (Context.Tidy ticks) (fun _ => True) (perform s items) fun _ => True := by
  intro c hc
  cases hrun : eval (perform s items) c with
  | error f => exact .error trivial
  | ok p =>
    obtain ⟨tick, d⟩ := p
    rw [eval_perform] at hrun
    obtain ⟨line, hline, -, hsung⟩ := line_of_runSteps hrun
    have hof := Context.recite_of hline
    have hmade := hof.exists_madeOn
    have hstart : ∀ e ∈ line.events, s.base + 0 ≤ e.start :=
      hof.endToEnd.le_start fun e he => (hmade e he).choose_spec.start_le_stop
    refine .ok (fun e he => ?_) trivial
    rw [hsung.timeline, Timeline.addAll_newest, List.mem_append, List.mem_reverse] at he
    rcases he with he | he
    · have hline := List.mem_of_mem_take he
      obtain ⟨w, hw⟩ := hmade e hline
      have := hstart e hline
      exact ⟨index, hw.stage.2.2.trans hmeasure, by omega⟩
    · exact hc e he

/-- A measure is played from its start on. -/
lemma playEntries_tidy (entries : List (Entry P)) :
    Keeps (Context.Tidy ticks) (fun _ => True) (playEntries entries index ((index - 1) * ticks))
      fun _ => True := by
  refine Keeps.forM fun entry _ => ?_
  cases entry with
  | header b => exact applyHeader_keeps_of (fun _ _ _ hc => hc) b
  | part id voices =>
    refine Keeps.get_bind fun c _ => ?_
    split
    · exact Keeps.forM fun v _ => (perform_tidy rfl rfl v.items).discard
    · exact Keeps.pure trivial

end Run

/-- The length of a measure depends on the time alone. -/
lemma Header.signature_congr {h h' : Header} (htime : h.time = h'.time) :
    h.signature = h'.signature := by
  rw [Header.signature, htime, Header.signature]

namespace Run

variable {final : Header}

lemma playMeasures_tidy {entries : List (Entry P)} {count : Nat} {index : Int} {c d : Context P}
    {u : Unit} (hc : c.Tidy final.signature.ticks)
    (htimes : ∀ t ∈ measureTimes entries count index c, t = final.time)
    (hrun : eval (playMeasures entries count index) c = .ok (u, d)) :
    d.Tidy final.signature.ticks := by
  induction count generalizing index c with
  | zero =>
    obtain rfl : c = d := by simpa [playMeasures] using hrun
    exact hc
  | succ count ih =>
    rw [eval_playMeasures_succ] at hrun
    obtain ⟨⟨_, c₁⟩, hentries, hrest⟩ := bind_eq_ok.mp hrun
    rw [measureTimes, hentries] at htimes
    obtain ⟨htime, htimes⟩ := List.forall_mem_cons.mp htimes
    rw [Header.signature_congr htime] at hentries
    have hc₁ := (playEntries_tidy entries).state_of_ok hc hentries
    simp only at htimes hrest
    split at hrest
    · cases hrest
      exact hc₁
    · rename_i htruncated
      rw [if_neg htruncated] at htimes
      exact ih hc₁ htimes hrest

lemma declare_tidy {decl : Declaration P} {c d : Context P} {u : Unit}
    (hc : c.Tidy final.signature.ticks) (htimes : ∀ t ∈ declareTimes c decl, t = final.time)
    (hrun : eval (declare decl) c = .ok (u, d)) : d.Tidy final.signature.ticks := by
  have htidy {e : Context P} (hrecord : e.record = c.record) : e.Tidy final.signature.ticks := by
    simp only [Context.record, Prod.mk.injEq] at hrecord
    rw [Context.Tidy, hrecord.2.1]
    exact hc
  by_cases hmeasure : ∃ b, decl = .measure b
  · obtain ⟨b, rfl⟩ := hmeasure
    rw [declare, eval_playMeasure, eval_bind] at hrun
    obtain ⟨⟨p, c₁⟩, hplayback, hrun⟩ := bind_eq_ok.mp hrun
    have hc₁ := htidy (playback?_eq_ok hplayback).1
    cases p with
    | none =>
      obtain rfl : c₁ = d := by simpa [playFrom] using hrun
      exact hc₁
    | some p =>
      rw [declareTimes, hplayback] at htimes
      exact playMeasures_tidy hc₁ htimes hrun
  · have hframes := declare_frames fun b hb => hmeasure ⟨b, hb⟩
    exact htidy (hframes.record_eq hrun)

/-- **Events start no earlier than their measures**, if all measures are played in the same time. -/
lemma declareAll_tidy {ds : List (Declaration P)} {c d : Context P} {u : Unit}
    (hc : c.Tidy final.signature.ticks) (htimes : ∀ t ∈ timesIn ds c, t = final.time)
    (hrun : eval (declareAll ds) c = .ok (u, d)) : d.Tidy final.signature.ticks := by
  induction ds generalizing c with
  | nil =>
    obtain rfl : c = d := by simpa [declareAll] using hrun
    exact hc
  | cons decl ds ih =>
    rw [declareAll, eval_forM_cons] at hrun
    obtain ⟨⟨_, c₁⟩, hdecl, hrest⟩ := bind_eq_ok.mp hrun
    rw [timesIn, hdecl, List.forall_mem_append] at htimes
    exact ih (declare_tidy hc htimes.1 hdecl) htimes.2 hrest

end Run

end Partitura
