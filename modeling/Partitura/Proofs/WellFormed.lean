import Partitura.Proofs.Soundness

/-!
The score of a compilation is well formed, whatever the source says.

A score is compared with the events in the order in which they were made. Sorting them is
stable: the events of each tick keep their order, and this with the order of the ticks
determines the timeline.
-/

namespace Partitura

open Number

/-- `ys` is `xs` in the order of the keys, and members with one key are in their old order. -/
structure IsStableSort {α : Type} (key : α → Int) (xs ys : List α) : Prop where
  perm : ys.Perm xs
  sorted : ys.Pairwise fun a b => key a ≤ key b
  stable : ∀ k, ys.filter (key · = k) = xs.filter (key · = k)

/-- The latest end of some events; zero if there are none. -/
structure IsLatestStop (es : List Event) (ticks : Int) : Prop where
  empty : es = [] → ticks = 0
  bound : ∀ e ∈ es, e.stop ≤ ticks
  reached : es ≠ [] → ∃ e ∈ es, e.stop = ticks

/-- A well-formed score of events that were made in this order. -/
structure Score.WellFormed (o : Options) (emitted : List Event) (s : Score) : Prop where
  timeline : IsStableSort Event.start emitted s.timeline
  duration : IsLatestStop s.timeline s.durationTicks
  room : s.timeline.length ≤ o.maxEvents
  events : ∀ e ∈ s.timeline, e.Sound s.instruments
  tempo : 1 ≤ s.header.tempo
  time : 1 ≤ s.header.time.1 ∧ 1 ≤ s.header.time.2

namespace Timeline

lemma sorted_isStableSort (t : Timeline) : IsStableSort Event.start t.events t.sorted := by
  have htrans (a b c : Event) (hab : decide (a.start ≤ b.start) = true)
      (hbc : decide (b.start ≤ c.start) = true) : decide (a.start ≤ c.start) = true := by
    simp only [decide_eq_true_eq] at hab hbc ⊢
    omega
  have htotal (a b : Event) :
      (decide (a.start ≤ b.start) || decide (b.start ≤ a.start)) = true := by
    simp only [Bool.or_eq_true, decide_eq_true_eq]
    omega
  have hperm : t.sorted.Perm t.events := List.mergeSort_perm _ _
  refine ⟨hperm, ?_, fun k => ?_⟩
  · simpa [sorted] using List.pairwise_mergeSort htrans htotal t.events
  · -- the events of one tick are in order already, so sorting keeps them as they are
    have hpair : (t.events.filter (·.start = k)).Pairwise
        fun a b => decide (a.start ≤ b.start) = true := by
      rw [List.pairwise_iff_forall_sublist]
      intro a b hab
      have ha : a.start = k := by simpa using List.of_mem_filter (hab.subset (by simp : a ∈ [a, b]))
      have hb : b.start = k := by simpa using List.of_mem_filter (hab.subset (by simp : b ∈ [a, b]))
      simp [ha, hb]
    have hsub := (List.sublist_mergeSort htrans htotal hpair List.filter_sublist).filter
      (·.start = k)
    rw [List.filter_filter] at hsub
    simp only [Bool.and_self] at hsub
    exact (hsub.eq_of_length (hperm.filter _).length_eq.symm).symm

lemma foldl_max_stop (es : List Event) (m : Int) :
    m ≤ es.foldl (fun m e => max m e.stop) m ∧
      (∀ e ∈ es, e.stop ≤ es.foldl (fun m e => max m e.stop) m) ∧
      (es.foldl (fun m e => max m e.stop) m = m ∨
        ∃ e ∈ es, e.stop = es.foldl (fun m e => max m e.stop) m) := by
  induction es generalizing m with
  | nil => simp
  | cons e es ih =>
    obtain ⟨hm, hall, hreached⟩ := ih (max m e.stop)
    simp only [List.foldl_cons, List.forall_mem_cons]
    refine ⟨by omega, ⟨by omega, hall⟩, ?_⟩
    rcases hreached with heq | ⟨d, hd, heq⟩
    · rcases le_total m e.stop with hle | hle
      · exact .inr ⟨e, by simp, by omega⟩
      · exact .inl (by omega)
    · exact .inr ⟨d, by simp [hd], heq⟩

lemma ticks_isLatestStop (t : Timeline) : IsLatestStop t.sorted t.ticks := by
  unfold ticks
  cases t.sorted with
  | nil => exact ⟨fun _ => rfl, by simp, by simp⟩
  | cons e es =>
    obtain ⟨he, hall, hreached⟩ := foldl_max_stop es e.stop
    refine ⟨by simp, ?_, fun _ => ?_⟩
    · simp only [List.forall_mem_cons]
      exact ⟨he, hall⟩
    · rcases hreached with heq | ⟨d, hd, heq⟩
      · exact ⟨e, by simp, heq.symm⟩
      · exact ⟨d, by simp [hd], heq⟩

end Timeline

lemma Context.Sound.wellFormed {P : Type} {us : List (Token P)} {l : Library} {o : Options}
    {c : Context P} (h : c.Sound us l o) : c.score.WellFormed o c.timeline.events := by
  have hsort := c.timeline.sorted_isStableSort
  have hmem {e : Event} (he : e ∈ c.timeline.sorted) : e ∈ c.timeline.newest := by
    simpa [Timeline.events] using hsort.perm.subset he
  refine ⟨hsort, c.timeline.ticks_isLatestStop, ?_, fun e he => h.events e (hmem he), h.tempo,
    h.time⟩
  have hlen := hsort.perm.length_eq
  have hroom := h.room
  simp only [Timeline.events, List.length_reverse] at hlen
  simp only [Context.score]
  omega

/-- What was declared compiles if the end of every event can be written. -/
lemma compileTokens_eq_ok {P : Type} {us : List (Token P)} {l : Library} {o : Options}
    {c : Context P} (hrun : (Run.declareAll (readDocument us)).run (.start o l) = .ok () c)
    (hstop : ∀ e ∈ c.timeline.newest, (writeInt e.stop).isOk = true) :
    compileTokens o l us = .ok () c := by
  have hticks : (writeInt c.timeline.ticks).isOk = true := by
    have hlatest := c.timeline.ticks_isLatestStop
    by_cases hempty : c.timeline.sorted = []
    · rw [hlatest.empty hempty]
      decide +kernel
    · obtain ⟨e, he, hticks⟩ := hlatest.reached hempty
      have hmem := c.timeline.sorted_isStableSort.perm.subset he
      exact hticks ▸ hstop e (by simpa [Timeline.events] using hmem)
  refine Run.eval_eq_ok.mp ?_
  rw [Run.eval_bind, Run.eval_eq_ok.mpr hrun, ok_bind, Run.eval_bind, Run.eval_get, ok_bind,
    Run.eval_lift]
  generalize writeInt c.timeline.ticks = written at hticks
  cases written with
  | error f => cases hticks
  | ok s => rfl

/-- **Every score that a compilation gives is well formed**, whatever the source, the options
and the library. -/
theorem compile_wellFormed {o : Options} {l l' : Library} {source : String} {compiled : Compiled}
    (h : compile o l source = (.ok compiled, l')) :
    ∃ c, compileTokens o l (tokenize source) = .ok () c ∧
      compiled.score.WellFormed o c.timeline.events := by
  obtain ⟨c, hrun, hc, rfl⟩ := compile_eq_ok h
  exact ⟨c, hrun, hc.wellFormed⟩

/-- A text compiles if its declarations lead to a state in which the end of every event can be
written. -/
lemma exists_compile {o : Options} (hstrict : o.strict = false) {l : Library} (source : String)
    (check : Context Nat → Bool)
    (h : Run.passes (Run.declareAll (readDocument (tokenize source))) (.start o l)
      (fun _ c => check c && c.timeline.newest.all fun e => (writeInt e.stop).isOk) = true) :
    ∃ c, check c = true ∧ compile o l source =
      (.ok ⟨c.score, locateAll (.ofSource source) c.found⟩, c.library) := by
  obtain ⟨_, c, hrun, hcheck⟩ := Run.exists_of_passes h
  rw [Bool.and_eq_true, List.all_eq_true] at hcheck
  exact ⟨c, hcheck.1, by simp [compile, compileTokens_eq_ok hrun hcheck.2, hstrict]⟩

/-- A text compiles, with so many events. -/
lemma exists_compile_length {o : Options} (hstrict : o.strict = false) (source : String)
    (count : Nat)
    (h : Run.passes (Run.declareAll (readDocument (tokenize source))) (.start o .shipped)
      (fun _ c => c.timeline.newest.length == count &&
        c.timeline.newest.all fun e => (writeInt e.stop).isOk) = true) :
    ∃ compiled l, compile o .shipped source = (.ok compiled, l) ∧
      compiled.score.timeline.length = count := by
  obtain ⟨c, hcount, hcompile⟩ :=
    exists_compile hstrict source (·.timeline.newest.length == count) h
  refine ⟨_, _, hcompile, ?_⟩
  have hlength := c.timeline.sorted_isStableSort.perm.length_eq
  simpa [Context.score, Timeline.events, beq_iff_eq.mp hcount] using hlength

/-- A macro, a grace note and a chord, in two voices and two measures. -/
def twoVoices : String :=
  "def p macro M(x) \x7b $x:8 d.grace \x7d " ++
    "measure 1-2 \x7b p: \x7b a: $M(c) r | b: [e g]:2 \x7d \x7d"

theorem compile_wellFormed_twoVoices :
    ∃ compiled l c, compile {} .shipped twoVoices = (.ok compiled, l) ∧
      compiled.score.timeline.length = 8 ∧
      compileTokens {} .shipped (tokenize twoVoices) = .ok () c ∧
      compiled.score.WellFormed {} c.timeline.events := by
  obtain ⟨compiled, l, hcompile, hlength⟩ := exists_compile_length (o := {}) rfl twoVoices 8
    (by decide +kernel)
  obtain ⟨c, hc, hwell⟩ := compile_wellFormed hcompile
  exact ⟨compiled, l, c, hcompile, hlength, hc, hwell⟩

end Partitura
