import Mathlib.Data.List.Forall2
import Partitura.Proofs.Inlining
import Partitura.Proofs.Line
import Partitura.Proofs.Notation

/-!
The events of a voice stream stand end to end.

A line is laid out from its first tick on, each event where the one before it ends, and it has
come as far as its events last. There may be no room for the last of them; they take their time
all the same. A stream that breaks off has laid out the events before the fault.
-/

namespace Partitura

open Number Run

variable {P α β : Type}

/-- Each event starts where the one before it ends, the first at `tick`. -/
def EndToEnd : Int → List Event → Prop
  | _, [] => True
  | tick, e :: es => e.start = tick ∧ EndToEnd e.stop es

def Event.ticks (e : Event) : Int := ⌊1920 * e.duration⌋

/-! ### Events of a stream -/

/-- An event that is made of a written one on a stage. -/
def WrittenEvent.MadeOn (s : Stage) (e : WrittenEvent P) (made : Event) : Prop :=
  ∃ cursor tick r, e.render s cursor tick = .ok r ∧ r.event = made

def Step.event? : Step P → Option (WrittenEvent P)
  | .play e => some e
  | _ => none

def writtenIn (steps : List (Placed (Step P))) : List (WrittenEvent P) :=
  steps.filterMap (·.value.event?)

def Context.stepsIn (c : Context P) (ts : List (Token P)) : List (Placed (Step P)) :=
  c.stepsAt 0 (c.itemsAt 0 ts).1

/-- The events that are read in a voice stream, those of a macro in the place of its call. -/
def Context.eventsIn (c : Context P) (ts : List (Token P)) : List (WrittenEvent P) :=
  writtenIn (c.stepsIn ts)

section Render

variable {e : WrittenEvent P} {s : Stage} {cursor : Cursor} {tick : Int} {r : Rendering}

lemma WrittenEvent.render_start (h : e.render s cursor tick = .ok r) :
    r.event.start = s.base + tick := by
  obtain ⟨_, _, _, -, -, -, -, -, hevent⟩ := render_eq_ok h
  rw [hevent]

lemma WrittenEvent.render_stop (h : e.render s cursor tick = .ok r) :
    r.event.stop = r.event.start + r.event.ticks := by
  obtain ⟨_, d, _, -, hd, -, -, -, hevent⟩ := render_eq_ok h
  rw [hevent, Event.ticks, Duration.ticks_eq_floor, Duration.quarters_of_make hd]

lemma Rendering.ticks_eq (h : e.render s cursor tick = .ok r) :
    r.ticks = r.event.ticks := by
  have := WrittenEvent.render_stop h
  rw [Rendering.ticks]
  omega

end Render

namespace WrittenEvent.MadeOn

variable {e : WrittenEvent P} {s : Stage} {made : Event}

lemma stage (h : e.MadeOn s made) :
    made.instrument = s.instrument.id ∧ made.voice = s.voice ∧ made.measure = s.measure := by
  obtain ⟨_, _, r, hr, rfl⟩ := h
  obtain ⟨_, _, _, -, -, -, -, -, hevent⟩ := render_eq_ok hr
  rw [hevent]
  exact ⟨rfl, rfl, rfl⟩

lemma stop_eq (h : e.MadeOn s made) : made.stop = made.start + made.ticks := by
  obtain ⟨_, _, r, hr, rfl⟩ := h
  exact render_stop hr

/-- A grace note takes no time. -/
lemma grace (h : e.MadeOn s made) (hgrace : made.isGrace = true) : made.stop = made.start := by
  have hduration : made.duration = 0 := by
    obtain ⟨_, _, r, hr, rfl⟩ := h
    obtain ⟨_, _, _, -, -, -, -, -, hevent⟩ := render_eq_ok hr
    rw [hevent] at hgrace ⊢
    have hwritten : e.isGrace = true := hgrace
    simp [hwritten]
  rw [h.stop_eq, Event.ticks, hduration]
  simp

end WrittenEvent.MadeOn

/-! ### Lines -/

/-- What a line is: one event for each written one, end to end. -/
structure Line.Of (s : Stage) (tick : Int) (written : List (WrittenEvent P)) (line : Line) :
    Prop where
  made : List.Forall₂ (·.MadeOn s ·) written line.events
  endToEnd : EndToEnd (s.base + tick) line.events
  tick : line.tick = tick + (line.events.map Event.ticks).sum

lemma Line.Of.cons {s : Stage} {tick : Int} {e : WrittenEvent P} {cursor : Cursor} {r : Rendering}
    {written : List (WrittenEvent P)} {line : Line} (hr : e.render s cursor tick = .ok r)
    (h : line.Of s (tick + r.ticks) written) : (line.cons r.event).Of s tick (e :: written) where
  made := .cons ⟨cursor, tick, r, hr, rfl⟩ h.made
  endToEnd := by
    have hstart := WrittenEvent.render_start hr
    have hticks : s.base + (tick + r.ticks) = r.event.stop := by
      rw [Rendering.ticks]
      omega
    exact ⟨hstart, hticks ▸ h.endToEnd⟩
  tick := by
    have htick := h.tick
    rw [Rendering.ticks_eq hr] at htick
    simp only [Line.cons, List.map_cons, List.sum_cons]
    omega

lemma Line.Of.exists_madeOn {s : Stage} {tick : Int} {written : List (WrittenEvent P)} {line : Line}
    (h : line.Of s tick written) : ∀ e ∈ line.events, ∃ w : WrittenEvent P, w.MadeOn s e :=
  ((List.forall₂_and_left _ _).mp (h.made.flip.imp fun _ w hw => ⟨⟨w, hw⟩, hw⟩)).1

lemma Context.recite_of {c : Context P} {s : Stage} {steps : List (Placed (Step P))} {tick : Int}
    {line : Line} (h : c.recite s steps tick = .ok line) : line.Of s tick (writtenIn steps) := by
  induction steps generalizing c tick line with
  | nil =>
    cases h
    exact ⟨.nil, trivial, by simp⟩
  | cons p steps ih =>
    cases hp : p.value with
    | play e =>
      rw [Context.recite_play hp] at h
      obtain ⟨r, hr, h⟩ := bind_eq_ok.mp h
      obtain ⟨rest, hrest, h⟩ := bind_eq_ok.mp h
      cases h
      simpa [writtenIn, hp, Step.event?] using Line.Of.cons hr (ih hrest)
    | expand =>
      rw [Context.recite_expand hp] at h
      simpa [writtenIn, hp, Step.event?] using ih h
    | refuse issue t =>
      rw [Context.recite_refuse hp] at h
      simpa [writtenIn, hp, Step.event?] using ih h
    | halt f => simp [Context.recite_halt hp] at h

/-! ### Faults -/

namespace Run

inductive LeftAlone (t : Timeline) : EStateM.Result Stop (Context P) α → Prop
  | ok (a : α) {d : Context P} (h : d.timeline = t) : LeftAlone t (.ok a d)
  | error (st : Stop) {d : Context P} (h : d.timeline = t) : LeftAlone t (.error st d)

/-- Whatever becomes of it, the run adds no event. -/
def Silent (x : Run P α) : Prop := ∀ c, LeftAlone c.timeline (x.run c)

namespace Silent

lemma pure (a : α) : Silent (pure a : Run P α) := fun _ => .ok a rfl

lemma lift (x : Except Fault α) : Silent (lift x : Run P α) := by
  cases x with
  | ok a => exact .pure a
  | error f => exact fun _ => .error _ rfl

lemma modify {f : Context P → Context P} (h : ∀ c, (f c).timeline = c.timeline) :
    Silent (modify f) := fun c => .ok () (h c)

lemma bind {x : Run P α} {f : α → Run P β} (hx : Silent x) (hf : ∀ a, Silent (f a)) :
    Silent (x >>= f) := by
  intro c
  have h := hx c
  rw [EStateM.run_bind]
  generalize x.run c = r at h
  cases h with
  | ok a h => exact h ▸ hf a _
  | error st h => exact .error st h

lemma get_bind {f : Context P → Run P α} (h : ∀ c, Silent (f c)) : Silent (get >>= f) :=
  fun c => h c c

lemma mapM {γ : Type} {f : γ → Run P α} (h : ∀ x, Silent (f x)) (xs : List γ) :
    Silent (xs.mapM f) := by
  induction xs with
  | nil => exact .pure []
  | cons x xs ih =>
    rw [List.mapM_cons]
    exact (h x).bind fun _ => ih.bind fun _ => .pure _

end Silent

lemma setLength_silent (key : VoiceKey) (e : WrittenEvent P) : Silent (setLength key e) := by
  unfold setLength
  split
  · exact .modify fun _ => rfl
  · exact .modify fun _ => rfl
  · exact .bind (.modify fun _ => rfl) fun _ => .modify fun _ => rfl

lemma resolve_silent (i : Instrument) (key : VoiceKey) (t : Option (Token P)) (pitch : String) :
    Silent (resolve i key t pitch) := by
  refine .get_bind fun c => .bind (.modify fun _ => rfl) fun _ => .bind (.lift _) fun found => ?_
  cases found with
  | some p => exact .pure p
  | none => exact .bind (.modify fun _ => rfl) fun _ => .pure _

lemma sound_silent (s : Stage) (e : WrittenEvent P) : Silent (sound s e) := by
  unfold sound
  split
  · exact .pure _
  · exact .bind (.mapM (fun _ => resolve_silent _ _ _ _) _) fun _ => .pure _

def FailsSilently (x : Run P α) : Prop :=
  ∀ c st d, x.run c = .error st d → d.timeline = c.timeline

lemma FailsSilently.bind {x : Run P α} {f : α → Run P β} (hx : Silent x)
    (hf : ∀ a, FailsSilently (f a)) : FailsSilently (x >>= f) := by
  intro c st d hrun
  have h := hx c
  rw [EStateM.run_bind] at hrun
  generalize x.run c = r at h hrun
  cases h with
  | ok a h => exact (hf a _ st d hrun).trans h
  | error st h =>
    cases hrun
    exact h

lemma FailsSilently.get_bind {f : Context P → Run P α} (h : ∀ c, FailsSilently (f c)) :
    FailsSilently (get >>= f) := fun c => h c c

/-- An event is put on the timeline without any fault. -/
lemma place_failsSilently (key : VoiceKey) (e : Event) (t : Option (Token P)) (ticks : Int) :
    FailsSilently (do place key e t; return ticks : Run P Int) := by
  intro c st d hrun
  have heval : eval (do place key e t; return ticks : Run P Int) c =
      .ok (ticks, c.place key e t) := by
    rw [eval_bind, eval_place, ok_bind, eval_pure]
  rw [eval_eq_ok.mp heval] at hrun
  cases hrun

lemma play_failsSilently (s : Stage) (tick : Int) (e : WrittenEvent P) :
    FailsSilently (play s tick e) :=
  .bind (setLength_silent _ _) fun _ => .bind (sound_silent _ _) fun _ => .get_bind fun _ =>
    .bind (.lift _) fun _ => .bind (.lift _) fun _ => .bind (.lift _) fun _ =>
      place_failsSilently _ _ _ _

lemma step_failsSilently (s : Stage) (tick : Int) (step : Step P) :
    FailsSilently (Run.step s tick step) := by
  intro c st d hrun
  cases step with
  | play e =>
    simp only [Run.step, EStateM.run_bind] at hrun
    cases hplay : (play s tick e).run c with
    | ok a c₁ =>
      rw [hplay] at hrun
      cases hrun
    | error st' c₁ =>
      rw [hplay] at hrun
      cases hrun
      exact play_failsSilently s tick e c _ _ hplay
  | expand => cases hrun
  | refuse issue t =>
    rw [eval_eq_ok.mp (eval_step_refuse s tick c issue t)] at hrun
    cases hrun
  | halt f =>
    cases hrun
    rfl

/-- A script that fails has played the line of the steps before. -/
lemma line_of_runSteps_error {s : Stage} {steps : List (Placed (Step P))} {tick : Int}
    {c d : Context P} {st : Stop} (h : (runSteps s steps tick).run c = .error st d) :
    ∃ played line, played <+: steps ∧ c.recite s played tick = .ok line ∧
      d.timeline = c.timeline.addAll line.events := by
  induction steps generalizing c tick with
  | nil => cases h
  | cons p steps ih =>
    rw [runSteps_cons, EStateM.run_bind, placed, EStateM.run_adaptExcept] at h
    cases hstep : (step s tick p.value).run c with
    | error st' c₁ =>
      rw [hstep] at h
      cases h
      exact ⟨[], _, List.nil_prefix, rfl, step_failsSilently s tick p.value c _ _ hstep⟩
    | ok a c₁ =>
      rw [hstep] at h
      obtain ⟨played, line, hplayed, hline, htimeline⟩ := ih h
      have hmore : p :: played <+: p :: steps := (List.prefix_cons_inj p).mpr hplayed
      rcases step_cases (eval_eq_ok.mpr hstep) with
        ⟨e, r, hp, hr, rfl, rfl⟩ | ⟨hp, rfl, rfl⟩ | ⟨issue, t, hp, rfl, rfl⟩
      · refine ⟨p :: played, line.cons r.event, hmore, ?_, ?_⟩
        · rw [Context.recite_play hp, hr, ok_bind, hline]
          rfl
        · rw [htimeline, Context.enter_timeline]
          rfl
      · exact ⟨p :: played, line, hmore, by rw [Context.recite_expand hp, hline], htimeline⟩
      · exact ⟨p :: played, line, hmore, by rw [Context.recite_refuse hp, hline], htimeline⟩

end Run

/-! ### Voice streams -/

/-- The stream of a voice is played by its script. -/
lemma Run.run_voice (s : Stage) (ts : List (Token P)) (c : Context P) :
    (runEvents s 0 0 ts).run c =
      match (runSteps s (c.stepsIn ts) 0).run c with
      | .ok tick d => .ok (tick, (c.itemsAt 0 ts).2) d
      | .error st d => .error st d := by
  rw [run_runEvents, EStateM.run_bind, ← Context.stepsIn]
  cases (runSteps s (c.stepsIn ts) 0).run c <;> rfl

/-- How events that were read on a stage stand on the timeline. -/
structure Layout (s : Stage) (c d : Context P) (read : List (WrittenEvent P))
    (accepted refused : List Event) : Prop where
  /-- The accepted events are the new ones. -/
  entered : d.timeline.events = c.timeline.events ++ accepted
  /-- One event for each that was read, the refused ones behind the accepted ones. -/
  made : List.Forall₂ (·.MadeOn s ·) read (accepted ++ refused)
  /-- An event is refused only if there is no room. -/
  room : accepted.length = min c.timeline.room read.length
  endToEnd : EndToEnd s.base (accepted ++ refused)
  stage : ∀ e ∈ accepted ++ refused,
    e.instrument = s.instrument.id ∧ e.voice = s.voice ∧ e.measure = s.measure
  stop : ∀ e ∈ accepted ++ refused, e.stop = e.start + e.ticks
  grace : ∀ e ∈ accepted ++ refused, e.isGrace = true → e.stop = e.start

lemma Line.Of.layout {s : Stage} {written : List (WrittenEvent P)} {line : Line}
    (h : line.Of s 0 written) {c d : Context P}
    (htimeline : d.timeline = c.timeline.addAll line.events) :
    Layout s c d written (line.events.take c.timeline.room)
      (line.events.drop c.timeline.room) := by
  refine ⟨by rw [htimeline, Timeline.addAll_events], ?_, ?_, ?_, ?_, ?_, ?_⟩
  · rw [List.take_append_drop]
    exact h.made
  · rw [List.length_take, h.made.length_eq]
  all_goals rw [List.take_append_drop]
  · simpa using h.endToEnd
  · intro e he
    obtain ⟨w, hw⟩ := h.exists_madeOn e he
    exact hw.stage
  · intro e he
    obtain ⟨w, hw⟩ := h.exists_madeOn e he
    exact hw.stop_eq
  · intro e he
    obtain ⟨w, hw⟩ := h.exists_madeOn e he
    exact hw.grace

/-- How the stream of a voice may end: behind all its events, as far as they last together, or
with a fault behind the first of them. -/
inductive LaidOut (s : Stage) (c : Context P) (read : List (WrittenEvent P)) :
    EStateM.Result Stop (Context P) (Int × List (Token P)) → Prop
  | ok {d : Context P} {tick : Int} {rest : List (Token P)} {accepted refused : List Event}
      (layout : Layout s c d read accepted refused)
      (tick_eq : tick = ((accepted ++ refused).map Event.ticks).sum) :
      LaidOut s c read (.ok (tick, rest) d)
  | error {d : Context P} {st : Stop} {begun : List (WrittenEvent P)}
      {accepted refused : List Event} (first : begun <+: read)
      (layout : Layout s c d begun accepted refused) : LaidOut s c read (.error st d)

/-- **Voice streams are laid out end to end.** Whatever a stream holds and from whatever state it
is played, its events follow each other without a gap from the start of the measure on, and it
lasts as long as they do together, also those there is no room for. -/
theorem runEvents_laidOut (s : Stage) (ts : List (Token P)) (c : Context P) :
    LaidOut s c (c.eventsIn ts) ((runEvents s 0 0 ts).run c) := by
  rw [run_voice]
  cases hrun : (runSteps s (c.stepsIn ts) 0).run c with
  | ok tick d =>
    obtain ⟨line, hline, htick, hsung⟩ := line_of_runSteps (eval_eq_ok.mpr hrun)
    have hof := Context.recite_of hline
    refine .ok (hof.layout hsung.timeline) ?_
    rw [List.take_append_drop, ← htick, hof.tick, Int.zero_add]
  | error st d =>
    obtain ⟨played, line, hplayed, hline, htimeline⟩ := line_of_runSteps_error hrun
    have hof := Context.recite_of hline
    exact .error (hplayed.filterMap _) (hof.layout htimeline)

end Partitura
