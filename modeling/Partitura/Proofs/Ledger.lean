import Partitura.Proofs.Encounters
import Partitura.Proofs.Line

/-!
What a state remembers of what a walk came upon.

Against the log of a walk stands what the state keeps of it: the events on the timeline, the calls
that were counted, and the refusals that were reported. `Logged` says that they agree, and every
step of a walk keeps it.
-/

namespace Partitura

open Number Run

variable {P : Type}

/-! ### The log and the reports -/

/-- Each refusal of a log was reported, and none twice. -/
structure Noted (o : Options) (log : List (Encounter P)) (once refusals : List Issue) : Prop where
  reported : refusals = once
  distinct : once.Nodup
  mem_iff : ∀ issue, issue ∈ once ↔ ∃ x ∈ log, x.refusal? o = some issue

namespace Noted

variable {o : Options} {log : List (Encounter P)} {once refusals : List Issue} {x : Encounter P}

lemma pass (h : Noted o log once refusals) (hx : x.refusal? o = none) :
    Noted o (log ++ [x]) once refusals where
  reported := h.reported
  distinct := h.distinct
  mem_iff := by simp [h.mem_iff, hx, or_and_right, exists_or]

lemma refuse (h : Noted o log once refusals) {issue : Issue} (hx : x.refusal? o = some issue) :
    Noted o (log ++ [x]) (if issue ∈ once then once else issue :: once)
      (if issue ∈ once then refusals else issue :: refusals) where
  reported := by rw [h.reported]
  distinct := by
    split
    · exact h.distinct
    · rename_i hnew
      exact List.nodup_cons.mpr ⟨hnew, h.distinct⟩
  mem_iff := by
    intro issue'
    have hmem : issue' ∈ (if issue ∈ once then once else issue :: once) ↔
        issue' ∈ once ∨ issue' = issue := by
      split
      · rename_i hold
        exact ⟨.inl, fun h => h.elim id fun h => h ▸ hold⟩
      · rw [List.mem_cons, or_comm]
    rw [hmem, h.mem_iff]
    simp [hx, or_and_right, exists_or, eq_comm]

end Noted

/-- The timeline has the first events of the log, as many as there is room for; the calls that were
expanded were counted, and what was refused was reported. -/
structure Logged (o : Options) (log : List (Encounter P)) (c : Context P) : Prop where
  options : c.options = o
  timeline : c.timeline = Timeline.addAll { room := o.maxEvents } (log.filterMap Encounter.event?)
  taken : log.filterMap Encounter.taken? = (log.filterMap Encounter.event?).take o.maxEvents
  made : (log.filterMap Encounter.reading?).map Reading.made =
    (log.filterMap Encounter.event?).map .ok
  expansions : c.expansions = log.countP Encounter.isExpanded
  noted : Noted o log c.once c.refusals

lemma Encounter.isExpanded_of_refusal {o : Options} {x : Encounter P} {issue : Issue}
    (h : x.refusal? o = some issue) : x.isExpanded = false := by
  rcases refusal?_eq_some.mp h with ⟨e, rfl, -⟩ | ⟨name, deep, spent, rfl, -⟩ |
    ⟨name, spent, rfl, -⟩ | ⟨name, rfl, -⟩ <;> rfl

namespace Context

lemma refusals_noteOnce (c : Context P) {issue : Issue} (h : issue.isRefusal = true)
    (t : Option (Token P)) :
    (c.noteOnce issue t).refusals = if issue ∈ c.once then c.refusals else issue :: c.refusals := by
  unfold refusals noteOnce
  dsimp only
  split
  · rfl
  · simp [h]

lemma refusals_noteAll (c : Context P) {issues : List Issue}
    (h : ∀ i ∈ issues, i.isRefusal = false) (t : Option (Token P)) :
    (c.noteAll issues t).refusals = c.refusals := by
  have hnone : issues.reverse.filter Issue.isRefusal = [] := by
    rw [List.filter_eq_nil_iff]
    intro i hi
    simp [h i (List.mem_reverse.mp hi)]
  unfold refusals noteAll
  simpa [Function.comp_def] using hnone

lemma refusals_place (c : Context P) (key : VoiceKey) (e : Event) (t : Option (Token P)) :
    (c.place key e t).refusals = if (c.timeline.add e).1 then c.refusals
      else if .eventLimit c.options.maxEvents ∈ c.once then c.refusals
      else .eventLimit c.options.maxEvents :: c.refusals := by
  unfold place
  dsimp only
  split
  · rfl
  · exact refusals_noteOnce _ rfl t

lemma refusals_enter (c : Context P) (key : VoiceKey) (t : Option (Token P)) {r : Rendering}
    (h : ∀ i ∈ r.issues, i.isRefusal = false) :
    (c.enter key t r).refusals = if (c.timeline.add r.event).1 then c.refusals
      else if .eventLimit c.options.maxEvents ∈ c.once then c.refusals
      else .eventLimit c.options.maxEvents :: c.refusals := by
  have hnoted := refusals_noteAll (c.withCursor key ⟨r.octave, r.duration, (c.cursor key).tick⟩) h t
  rw [enter, refusals_place, hnoted]
  rfl

/-- A call is refused as its lookup says. -/
lemma refusal?_callAt {c : Context P} {depth : Nat} {name : String} {issue : Issue}
    (h : c.book.lookUp (c.options.maxMacroDepth - depth) c.expansions name = .error issue) :
    (c.callAt depth name).refusal? c.options = some issue ∧ issue.isRefusal = true := by
  unfold Book.lookUp at h
  unfold callAt
  split at h
  · rename_i hget
    cases h
    have hnone : get? name c.macros = none := hget
    simp [hnone, Encounter.refusal?, Issue.isRefusal]
  · rename_i m hget
    have hsome : get? name c.macros = some m := hget
    split at h
    · rename_i hdepth
      cases h
      have hdeep : c.options.maxMacroDepth ≤ depth := by omega
      simp [hsome, hdeep, Encounter.refusal?, Issue.isRefusal, book]
    · rename_i hdepth
      have hdeep : ¬ c.options.maxMacroDepth ≤ depth := by omega
      split at h
      · cases h
      · rename_i hspent
        cases h
        have hspent : c.options.maxMacroExpansions ≤ c.expansions := Nat.not_lt.mp hspent
        simp [hsome, hdeep, hspent, Encounter.refusal?, Issue.isRefusal, book]

lemma callAt_of_lookUp {c : Context P} {depth : Nat} {name : String} {m : Macro P}
    (h : c.book.lookUp (c.options.maxMacroDepth - depth) c.expansions name = .ok m) :
    c.callAt depth name = .call name true false false := by
  obtain ⟨hget, hdepth, hcount⟩ := lookUp_eq_ok.mp h
  have hsome : get? name c.macros = some m := hget
  have hdeep : ¬ c.options.maxMacroDepth ≤ depth := by omega
  have hspent : ¬ c.options.maxMacroExpansions ≤ c.expansions := Nat.not_le.mpr hcount
  simp [callAt, hsome, hdeep, hspent]

end Context

namespace Logged

variable {l : Library} {o : Options} {log : List (Encounter P)} {c d : Context P}

lemma events (h : Logged o log c) :
    c.timeline.events = (log.filterMap Encounter.event?).take o.maxEvents := by
  rw [h.timeline, Timeline.addAll_events]
  rfl

lemma of_record (h : Logged o log c) (hd : d.record = c.record) : Logged o log d := by
  simp only [Context.record, Prod.mk.injEq] at hd
  obtain ⟨hoptions, htimeline, honce, hrefusals, hexpansions⟩ := hd
  refine ⟨hoptions.trans h.options, htimeline.trans h.timeline, h.taken, h.made,
    hexpansions.trans h.expansions, ?_⟩
  rw [honce, hrefusals]
  exact h.noted

/-- There is room for an event if the log has less than so many. -/
lemma eventAt (h : Logged o log c) (r : Reading P) :
    c.eventAt r = .event r ((log.filterMap Encounter.event?).length < o.maxEvents) := by
  have hlength : c.timeline.newest.length =
      min o.maxEvents (log.filterMap Encounter.event?).length := by
    rw [h.timeline, Timeline.addAll_newest]
    simp
  rw [Context.eventAt, h.options, hlength]
  congr 1
  rw [decide_eq_decide]
  omega

lemma add_fst (h : Logged o log c) (e : Event) :
    (c.timeline.add e).1 = decide ((log.filterMap Encounter.event?).length < o.maxEvents) := by
  rw [Timeline.add_fst, h.timeline, Timeline.addAll_room, decide_eq_decide]
  exact Nat.sub_pos_iff_lt

/-- An event is taken up as long as there is room, and the first that is not is reported. -/
lemma enter (h : Logged o log c) (key : VoiceKey) (t : Option (Token P)) {r : Rendering}
    (hr : ∀ i ∈ r.issues, i.isRefusal = false) {x : Reading P} (hx : x.made = .ok r.event) :
    Logged o (log ++ [c.eventAt x]) (c.enter key t r) := by
  have hevents (room : Bool) : (log ++ [Encounter.event x room]).filterMap Encounter.event? =
      log.filterMap Encounter.event? ++ [r.event] := by
    simp [Encounter.event?, hx, Except.toOption]
  rw [h.eventAt]
  refine ⟨(c.enter_options _ _ _).trans h.options, ?_, ?_, ?_, ?_, ?_⟩
  · rw [Context.enter_timeline, hevents, Timeline.addAll_concat, ← h.timeline]
  · -- with room left, all events so far were taken, and with none left, as many as ever will be
    rw [hevents, List.filterMap_append, h.taken]
    by_cases hroom : (log.filterMap Encounter.event?).length < o.maxEvents
    · have hfits : (log.filterMap Encounter.event? ++ [r.event]).length ≤ o.maxEvents := by
        rw [List.length_append]
        exact hroom
      rw [List.take_of_length_le hroom.le, List.take_of_length_le hfits]
      simp [hroom, Encounter.taken?, hx, Except.toOption]
    · rw [List.take_append_of_le_length (Nat.le_of_not_lt hroom)]
      simp [hroom, Encounter.taken?]
  · rw [hevents, List.map_append, ← h.made, List.filterMap_append, List.map_append]
    simp [Encounter.reading?, hx]
  · rw [Context.enter_expansions, h.expansions]
    simp [Encounter.isExpanded]
  · rw [c.enter_once, c.refusals_enter key t hr, h.add_fst, h.options]
    by_cases hroom : (log.filterMap Encounter.event?).length < o.maxEvents
    · simp only [hroom, decide_true, if_true]
      exact h.noted.pass rfl
    · simp only [hroom, decide_false, Bool.false_eq_true, if_false]
      exact h.noted.refuse rfl

/-- A call adds nothing to the events. -/
lemma call (h : Logged o log c) {name : String} {defined deep spent : Bool}
    (hoptions : d.options = c.options) (htimeline : d.timeline = c.timeline)
    (hexpansions : d.expansions =
      (log ++ [Encounter.call name defined deep spent]).countP Encounter.isExpanded)
    (hnoted : Noted o (log ++ [.call name defined deep spent]) d.once d.refusals) :
    Logged o (log ++ [.call name defined deep spent]) d where
  options := hoptions.trans h.options
  timeline := by
    rw [htimeline, h.timeline]
    simp [List.filterMap_cons, Encounter.event?]
  taken := by simpa [List.filterMap_cons, Encounter.event?, Encounter.taken?] using h.taken
  made := by simpa [List.filterMap_cons, Encounter.event?, Encounter.reading?] using h.made
  expansions := hexpansions
  noted := hnoted

/-- **What a step comes upon is written down, and remembered.** -/
lemma step {x : Option (Encounter P)} (h : Logged o log c) (hmet : Walk.Met l c x d) :
    Logged o (log ++ x.toList) d := by
  cases hmet with
  | nothing hd _ =>
    rw [Option.toList_none, List.append_nil]
    exact h.of_record hd
  | event hs hr => exact h.enter _ _ (render_isRefusal hr) rfl
  | expanded hlook =>
    rw [Context.callAt_of_lookUp hlook]
    refine h.call rfl rfl ?_ (h.noted.pass rfl)
    simpa [Encounter.isExpanded, Context.counted] using h.expansions
  | refused t hlook =>
    obtain ⟨hrefusal, hissue⟩ := Context.refusal?_callAt hlook
    rw [h.options] at hrefusal
    refine h.call rfl rfl ?_ ?_
    · have hexpanded := Encounter.isExpanded_of_refusal hrefusal
      show c.expansions = _
      rw [List.countP_append, ← h.expansions]
      simpa [Context.callAt] using hexpanded
    · rw [c.refusals_noteOnce hissue t]
      exact h.noted.refuse hrefusal

lemma start (o : Options) (l : Library) : Logged o [] (.start o l : Context P) where
  options := rfl
  timeline := rfl
  taken := List.take_nil.symm
  made := rfl
  expansions := rfl
  noted := ⟨rfl, List.nodup_nil, by simp [Context.start]⟩

lemma of_walk {o : Options} {ts : List (Token P)} {n : Nat} {rs : List (Reader P)}
    (hwalk : eval (Walk.walk n (Walk.opening ts)) (.start o l) = .ok (rs, d)) :
    Logged o (Walk.encounters n (Walk.opening ts) (.start o l)) d :=
  (Walk.walk_log (fun _ h hmet => h.step hmet) n (start o l) (start_tabled o l)
    (Walk.staffed_opening o l ts)).1 rs d hwalk

end Logged

end Partitura
