import Partitura.Proofs.Playing
import Partitura.Proofs.Settling

/-!
What a voice plays, as a function of where it stands.

`recite` goes through a script and makes the events of a voice from its octave and its length
alone, whether there is room for them or not. Playing the script enters these events one after
the other (`runSteps_of_recite`), so a voice that is played touches nothing but its own cursor,
the timeline, the count of calls and the reports (`Sung`).
-/

namespace Partitura

open Run

variable {P : Type}

/-! ### Rows of events on a timeline -/

namespace Timeline

/-- Add events one after the other, as far as there is room. -/
def addAll (t : Timeline) (es : List Event) : Timeline := es.foldl (fun t e => (t.add e).2) t

@[simp] lemma addAll_nil (t : Timeline) : t.addAll [] = t := rfl

@[simp] lemma addAll_cons (t : Timeline) (e : Event) (es : List Event) :
    t.addAll (e :: es) = (t.add e).2.addAll es := rfl

lemma add_room (t : Timeline) (e : Event) : (t.add e).2.room = t.room - 1 := by
  unfold add
  split <;> simp_all

lemma add_fst (t : Timeline) (e : Event) : (t.add e).1 = decide (0 < t.room) := by
  unfold add
  split <;> simp_all

lemma addAll_concat (t : Timeline) (es : List Event) (e : Event) :
    t.addAll (es ++ [e]) = ((t.addAll es).add e).2 := by
  rw [addAll, List.foldl_append]
  rfl

lemma addAll_newest (t : Timeline) (es : List Event) :
    (t.addAll es).newest = (es.take t.room).reverse ++ t.newest := by
  induction es generalizing t with
  | nil => simp
  | cons e es ih =>
    rw [addAll_cons, ih, add_room]
    unfold add
    split <;> simp_all

lemma addAll_room (t : Timeline) (es : List Event) :
    (t.addAll es).room = t.room - es.length := by
  induction es generalizing t with
  | nil => simp
  | cons e es ih =>
    rw [addAll_cons, ih, add_room, List.length_cons]
    omega

lemma addAll_truncated (t : Timeline) (es : List Event) :
    (t.addAll es).truncated = (t.truncated || decide (t.room < es.length)) := by
  induction es generalizing t with
  | nil => simp
  | cons e es ih =>
    rw [addAll_cons, ih, add_room]
    unfold add
    split <;> simp_all

lemma addAll_events (t : Timeline) (es : List Event) :
    (t.addAll es).events = t.events ++ es.take t.room := by
  simp [events, addAll_newest]

end Timeline

/-! ### Lines -/

structure Line where
  /-- The events in order, also those there is no room for. -/
  events : List Event
  /-- The octave and the length that stay with the voice. -/
  octave : Int
  duration : Rat
  /-- How far the voice has come in its stream. -/
  tick : Int

def Line.cons (e : Event) (line : Line) : Line := { line with events := e :: line.events }

/-- Where the last event ends; `tick` if there is none. -/
def Line.lastStop (line : Line) (tick : Int) : Int := line.events.foldl (fun _ e => e.stop) tick

def recite (s : Stage) : List (Placed (Step P)) → Int → Rat → Int → Except Fault Line
  | [], octave, duration, tick => .ok ⟨[], octave, duration, tick⟩
  | p :: steps, octave, duration, tick =>
    match p.value with
    | .play e => do
      let r ← e.render s { octave, duration } tick
      return (← recite s steps r.octave r.duration (tick + r.ticks)).cons r.event
    | .halt f => .error f
    | _ => recite s steps octave duration tick

/-- What the line of a voice leaves behind in a state. -/
structure Sung (key : VoiceKey) (line : Line) (calls : Nat) (c d : Context P) : Prop where
  options : d.options = c.options
  library : d.library = c.library
  header : d.header = c.header
  macros : d.macros = c.macros
  instruments : d.instruments = c.instruments
  groups : d.groups = c.groups
  expansions : d.expansions = c.expansions + calls
  timeline : d.timeline = c.timeline.addAll line.events
  octave : (d.cursor key).octave = line.octave
  duration : (d.cursor key).duration = line.duration
  tick : line.events.length ≤ c.timeline.room →
    (d.cursor key).tick = line.lastStop (c.cursor key).tick
  known : d.hasCursor key = (c.hasCursor key || !line.events.isEmpty)
  others : ∀ k, k ≠ key → d.cursors.find? (·.1 == k) = c.cursors.find? (·.1 == k)

namespace Context

lemma hasCursor_eq (c : Context P) (key : VoiceKey) :
    c.hasCursor key = (c.cursors.find? (·.1 == key)).isSome := by
  rw [hasCursor, List.isSome_find?]

lemma hasCursor_enter (c : Context P) (key : VoiceKey) (t : Option (Token P)) (r : Rendering) :
    (c.enter key t r).hasCursor key = true := by
  obtain ⟨tick, hcursors⟩ := c.enter_cursors key t r
  simp [hasCursor_eq, hcursors, find?_setCursor]

end Context

namespace Sung

variable {key : VoiceKey} {line : Line} {calls : Nat} {c d : Context P}

lemma nil (key : VoiceKey) (tick : Int) (c : Context P) :
    Sung key ⟨[], (c.cursor key).octave, (c.cursor key).duration, tick⟩ 0 c c where
  options := rfl
  library := rfl
  header := rfl
  macros := rfl
  instruments := rfl
  groups := rfl
  expansions := rfl
  timeline := rfl
  octave := rfl
  duration := rfl
  tick := fun _ => rfl
  known := by simp
  others := fun _ _ => rfl

/-- An event comes first. -/
lemma enter {t : Option (Token P)} {r : Rendering}
    (h : Sung key line calls (c.enter key t r) d) : Sung key (line.cons r.event) calls c d where
  options := by simpa using h.options
  library := by simpa using h.library
  header := by simpa using h.header
  macros := by simpa using h.macros
  instruments := by simpa using h.instruments
  groups := by simpa using h.groups
  expansions := by simpa using h.expansions
  timeline := by simpa [Line.cons] using h.timeline
  octave := h.octave
  duration := h.duration
  tick := by
    intro hroom
    simp only [Line.cons, List.length_cons] at hroom
    rw [h.tick, c.tick_enter key t r (by omega)]
    · rfl
    · rw [Context.enter_timeline, Timeline.add_room]
      omega
  known := by rw [h.known, c.hasCursor_enter]; simp [Line.cons]
  others := fun k hk => (h.others k hk).trans (c.find?_enter_of_ne t r hk)

/-- A call is counted first. -/
lemma count (h : Sung key line calls { c with expansions := c.expansions + 1 } d) :
    Sung key line (calls + 1) c d :=
  { h with
    expansions := by
      have := h.expansions
      simp only at this
      omega }

/-- An issue is reported first. -/
lemma noteOnce {issue : Issue} {t : Option (Token P)}
    (h : Sung key line calls (c.noteOnce issue t) d) : Sung key line calls c d :=
  { h with }

lemma cursor_of_ne (h : Sung key line calls c d) {k : VoiceKey} (hk : k ≠ key) :
    d.cursor k = c.cursor k := by
  rw [Context.cursor, Context.cursor, h.others k hk]

lemma hasCursor_of_ne (h : Sung key line calls c d) {k : VoiceKey} (hk : k ≠ key) :
    d.hasCursor k = c.hasCursor k := by
  rw [Context.hasCursor_eq, Context.hasCursor_eq, h.others k hk]

end Sung

/-! ### Playing a line -/

def Context.recite (c : Context P) (s : Stage) (steps : List (Placed (Step P))) (tick : Int) :
    Except Fault Line :=
  Partitura.recite s steps (c.cursor s.key).octave (c.cursor s.key).duration tick

section Recite

variable {c : Context P} {s : Stage} {p : Placed (Step P)} {steps : List (Placed (Step P))}
  {tick : Int}

@[simp] lemma Context.recite_nil (c : Context P) (s : Stage) (tick : Int) :
    c.recite s [] tick = .ok ⟨[], (c.cursor s.key).octave, (c.cursor s.key).duration, tick⟩ := rfl

lemma Context.recite_play {e : WrittenEvent P} (hp : p.value = .play e) :
    c.recite s (p :: steps) tick = do
      let r ← e.render s (c.cursor s.key) tick
      return (← (c.enter s.key e.anchor r).recite s steps (tick + r.ticks)).cons r.event := by
  have hrender : e.render s (c.cursor s.key) tick = e.render s
      { octave := (c.cursor s.key).octave, duration := (c.cursor s.key).duration } tick := rfl
  rw [Context.recite, Partitura.recite, hrender]
  simp only [hp]
  rcases e.render s _ tick with f | r
  · rfl
  · simp only [ok_bind, Context.recite, (c.cursor_enter_self s.key e.anchor r).1,
      (c.cursor_enter_self s.key e.anchor r).2]

lemma Context.recite_expand (hp : p.value = .expand) :
    c.recite s (p :: steps) tick =
      { c with expansions := c.expansions + 1 }.recite s steps tick := by
  rw [Context.recite, Partitura.recite, hp]
  rfl

lemma Context.recite_refuse {issue : Issue} {t : Token P} (hp : p.value = .refuse issue t) :
    c.recite s (p :: steps) tick = (c.noteOnce issue (some t)).recite s steps tick := by
  rw [Context.recite, Partitura.recite, hp]
  rfl

lemma Context.recite_halt {f : Fault} (hp : p.value = .halt f) :
    c.recite s (p :: steps) tick = .error f := by
  rw [Context.recite, Partitura.recite, hp]

end Recite

namespace Run

/-- **A script is played as it is recited**, and what it leaves behind is its line. -/
lemma runSteps_of_recite {s : Stage} {steps : List (Placed (Step P))} {tick : Int}
    {c : Context P} {line : Line} (h : c.recite s steps tick = .ok line) :
    ∃ d, eval (runSteps s steps tick) c = .ok (line.tick, d) ∧
      Sung s.key line (steps.countP (·.value.isExpand)) c d := by
  induction steps generalizing c tick line with
  | nil =>
    cases h
    exact ⟨c, rfl, .nil s.key tick c⟩
  | cons p steps ih =>
    rw [eval_runSteps_cons]
    cases hp : p.value with
    | play e =>
      rw [Context.recite_play hp] at h
      obtain ⟨r, hr, h⟩ := bind_eq_ok.mp h
      obtain ⟨rest, hrest, h⟩ := bind_eq_ok.mp h
      cases h
      obtain ⟨d, hrun, hsung⟩ := ih hrest
      refine ⟨d, ?_, by simpa [hp, Step.isExpand] using hsung.enter⟩
      rw [eval_step_play, hr, ok_map, ok_bind, hrun]
      rfl
    | expand =>
      rw [Context.recite_expand hp] at h
      obtain ⟨d, hrun, hsung⟩ := ih h
      refine ⟨d, ?_, by simpa [hp] using hsung.count⟩
      rw [eval_step_expand, ok_bind, hrun]
    | refuse issue t =>
      rw [Context.recite_refuse hp] at h
      obtain ⟨d, hrun, hsung⟩ := ih h
      refine ⟨d, ?_, by simpa [hp, Step.isExpand] using hsung.noteOnce⟩
      rw [eval_step_refuse, ok_bind, hrun]
    | halt f => simp [Context.recite_halt hp] at h

lemma runSteps_of_recite_error {s : Stage} {steps : List (Placed (Step P))} {tick : Int}
    {c : Context P} {f : Fault} (h : c.recite s steps tick = .error f) :
    eval (runSteps s steps tick) c = .error f := by
  induction steps generalizing c tick with
  | nil => cases h
  | cons p steps ih =>
    rw [eval_runSteps_cons]
    cases hp : p.value with
    | play e =>
      rw [Context.recite_play hp] at h
      rw [eval_step_play]
      rcases hr : e.render s (c.cursor s.key) tick with g | r
      · simpa [hr] using h
      · rcases hrest : (c.enter s.key e.anchor r).recite s steps (tick + r.ticks) with g | rest
        · obtain rfl : g = f := by simpa [hr, hrest] using h
          simpa using ih hrest
        · simp [hr, hrest, pure, Except.pure] at h
    | expand =>
      rw [Context.recite_expand hp] at h
      rw [eval_step_expand, ok_bind, ih h]
    | refuse issue t =>
      rw [Context.recite_refuse hp] at h
      rw [eval_step_refuse, ok_bind, ih h]
    | halt g =>
      obtain rfl : g = f := by simpa [Context.recite_halt hp] using h
      rfl

/-- What was played was a line. -/
lemma line_of_runSteps {s : Stage} {steps : List (Placed (Step P))} {tick a : Int}
    {c d : Context P} (h : eval (runSteps s steps tick) c = .ok (a, d)) :
    ∃ line, c.recite s steps tick = .ok line ∧ line.tick = a ∧
      Sung s.key line (steps.countP (·.value.isExpand)) c d := by
  rcases hline : c.recite s steps tick with f | line
  · rw [runSteps_of_recite_error hline] at h
    cases h
  · obtain ⟨d', hrun, hsung⟩ := runSteps_of_recite hline
    obtain ⟨rfl, rfl⟩ : line.tick = a ∧ d' = d := by simpa [hrun] using h
    exact ⟨line, rfl, rfl, hsung⟩

end Run

end Partitura
