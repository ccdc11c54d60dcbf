import Partitura.Compile.Perform
import Partitura.Proofs.Run

/-!
What playing an event does, as a function of the cursor alone.

`render` gives the event and the cursor behind it without looking at the state of the run, and
`enter` puts a rendering into a state. Playing is rendering and entering (`eval_play`), so what
is true of every event, of every cursor and of everything that playing leaves alone is read off
these two.
-/

namespace Partitura

variable {P : Type}

/-! ### Cursors and reports -/

namespace Context

def withCursor (c : Context P) (key : VoiceKey) (cursor : Cursor) : Context P :=
  { c with cursors := setCursor key cursor c.cursors }

def note (c : Context P) (issue : Issue) (t : Option (Token P)) : Context P :=
  { c with reports := ⟨issue, t.map Token.pos⟩ :: c.reports }

def noteAll (c : Context P) (issues : List Issue) (t : Option (Token P)) : Context P :=
  { c with reports := (issues.map fun i => ⟨i, t.map Token.pos⟩).reverse ++ c.reports }

def noteOnce (c : Context P) (issue : Issue) (t : Option (Token P)) : Context P :=
  { c with
    once := if issue ∈ c.once then c.once else issue :: c.once
    reports :=
      if issue ∈ c.once then c.reports else ⟨issue, t.map Token.pos⟩ :: c.reports }

lemma find?_setCursor (key k : VoiceKey) (cursor : Cursor) (l : List (VoiceKey × Cursor)) :
    (setCursor key cursor l).find? (·.1 == k) =
      if k = key then some (key, cursor) else l.find? (·.1 == k) := by
  induction l with
  | nil =>
    by_cases h : k = key
    · subst h; simp [setCursor]
    · have : key ≠ k := fun e => h e.symm
      simp [setCursor, h, this]
  | cons p rest ih =>
    obtain ⟨k', old⟩ := p
    by_cases h' : k' = key
    · subst h'
      by_cases h : k = k'
      · subst h; simp [setCursor]
      · have : k' ≠ k := fun e => h e.symm
        simp [setCursor, h, this]
    · simp only [setCursor, h', if_false, List.find?_cons, ih]
      by_cases h : k = key
      · subst h
        have : (k' == k) = false := by simpa using h'
        simp [this]
      · simp [h]

@[simp] lemma cursor_withCursor_self (c : Context P) (key : VoiceKey) (cursor : Cursor) :
    (c.withCursor key cursor).cursor key = cursor := by
  simp [Context.cursor, withCursor, find?_setCursor]

lemma setCursor_setCursor (key : VoiceKey) (a b : Cursor) (l : List (VoiceKey × Cursor)) :
    setCursor key a (setCursor key b l) = setCursor key a l := by
  induction l with
  | nil => simp [setCursor]
  | cons p rest ih => by_cases h : p.1 = key <;> simp [setCursor, h, ih]

@[simp] lemma withCursor_withCursor (c : Context P) (key : VoiceKey) (a b : Cursor) :
    (c.withCursor key a).withCursor key b = c.withCursor key b := by
  simp [withCursor, setCursor_setCursor]

@[simp] lemma noteAll_nil (c : Context P) (t : Option (Token P)) : c.noteAll [] t = c := rfl

lemma noteAll_noteAll (c : Context P) (xs ys : List Issue) (t : Option (Token P)) :
    (c.noteAll xs t).noteAll ys t = c.noteAll (xs ++ ys) t := by
  simp [noteAll]

lemma note_eq_noteAll (c : Context P) (issue : Issue) (t : Option (Token P)) :
    c.note issue t = c.noteAll [issue] t := rfl

lemma noteAll_withCursor (c : Context P) (key : VoiceKey) (cursor : Cursor) (xs : List Issue)
    (t : Option (Token P)) :
    (c.withCursor key cursor).noteAll xs t = (c.noteAll xs t).withCursor key cursor := rfl

end Context

namespace Run

@[simp] lemma eval_report (issue : Issue) (t : Option (Token P)) (c : Context P) :
    eval (report issue t) c = .ok ((), c.note issue t) := rfl

@[simp] lemma eval_modifyCursor (key : VoiceKey) (f : Cursor → Cursor) (c : Context P) :
    eval (modifyCursor key f) c = .ok ((), c.withCursor key (f (c.cursor key))) := rfl

@[simp] lemma eval_reportOnce (issue : Issue) (t : Option (Token P)) (c : Context P) :
    eval (reportOnce issue t) c = .ok ((), c.noteOnce issue t) := by
  by_cases h : issue ∈ c.once
  · simp [reportOnce, Context.noteOnce, h]
  · simp [reportOnce, Context.noteOnce, Context.note, h]

end Run

/-! ### Rendering -/

structure Hearing where
  pitches : List Pitch
  /-- The octave behind the last symbol. -/
  octave : Int
  issues : List Issue

def hear (i : Instrument) (octave : Int) : List String → Except Fault Hearing
  | [] => .ok ⟨[], octave, []⟩
  | s :: rest => do
    match ← (resolvePitch i octave s).1 with
    | some p =>
      let h ← hear i (resolvePitch i octave s).2 rest
      return { h with pitches := p :: h.pitches }
    | none =>
      let h ← hear i (resolvePitch i octave s).2 rest
      return ⟨.nominal :: h.pitches, h.octave, .unresolvedPitch s i.style i.id :: h.issues⟩

/-- The length that stays with a voice behind an event. -/
def Length.after (old : Rat) : Length → Rat
  | .value d => d.quarters
  | _ => old

def Length.issues : Length → List Issue
  | .unreadable text => [.invalidDuration text]
  | _ => []

structure Rendering where
  event : Event
  octave : Int
  duration : Rat
  issues : List Issue

namespace WrittenEvent

def hearing (e : WrittenEvent P) (i : Instrument) (octave : Int) : Except Fault Hearing :=
  if e.isRest then .ok ⟨[], octave, []⟩ else hear i octave e.pitches

def kind (e : WrittenEvent P) : EventKind :=
  if e.isRest then .rest else if e.chord then .chord else .note

/-- The event a cursor makes of a written one, `offset` ticks into the stream. -/
def render (e : WrittenEvent P) (s : Run.Stage) (cursor : Cursor) (offset : Int) :
    Except Fault Rendering := do
  let h ← e.hearing s.instrument cursor.octave
  let kept := e.length.after cursor.duration
  let duration := if e.isGrace then 0 else kept
  let d ← Duration.make duration
  let velocity ← Velocity.ofModifiers e.modifiers
  let event ← Event.check {
    kind := e.kind
    pitches := h.pitches
    duration
    start := s.base + offset
    stop := s.base + offset + d.ticks
    velocity := .float velocity
    instrument := s.key.instrument
    voice := s.key.voice
    modifiers := e.modifiers
    measure := s.measure }
  return ⟨event, h.octave, kept, e.length.issues ++ h.issues⟩

end WrittenEvent

lemma Event.eq_of_check {e e' : Event} (h : e.check = .ok e') : e = e' := by
  unfold Event.check at h
  split at h
  · simp at h
  · split at h
    · simp at h
    · simpa using h

def Rendering.ticks (r : Rendering) : Int := r.event.stop - r.event.start

namespace Context

/-- Put an event on the timeline; one that is refused is reported once. -/
def place (c : Context P) (key : VoiceKey) (e : Event) (t : Option (Token P)) : Context P :=
  let d : Context P := { c with timeline := (c.timeline.add e).2 }
  if (c.timeline.add e).1 then d.withCursor key { c.cursor key with tick := e.stop }
  else d.noteOnce (.eventLimit c.options.maxEvents) t

def enter (c : Context P) (key : VoiceKey) (t : Option (Token P)) (r : Rendering) : Context P :=
  ((c.withCursor key ⟨r.octave, r.duration, (c.cursor key).tick⟩).noteAll r.issues t).place key
    r.event t

section Enter

variable (c : Context P) (key : VoiceKey) (t : Option (Token P)) (r : Rendering)

@[simp] lemma enter_options : (c.enter key t r).options = c.options := by
  unfold enter place; dsimp only; split <;> rfl

@[simp] lemma enter_library : (c.enter key t r).library = c.library := by
  unfold enter place; dsimp only; split <;> rfl

@[simp] lemma enter_header : (c.enter key t r).header = c.header := by
  unfold enter place; dsimp only; split <;> rfl

@[simp] lemma enter_macros : (c.enter key t r).macros = c.macros := by
  unfold enter place; dsimp only; split <;> rfl

@[simp] lemma enter_instruments : (c.enter key t r).instruments = c.instruments := by
  unfold enter place; dsimp only; split <;> rfl

@[simp] lemma enter_groups : (c.enter key t r).groups = c.groups := by
  unfold enter place; dsimp only; split <;> rfl

@[simp] lemma enter_expansions : (c.enter key t r).expansions = c.expansions := by
  unfold enter place; dsimp only; split <;> rfl

@[simp] lemma enter_timeline : (c.enter key t r).timeline = (c.timeline.add r.event).2 := by
  unfold enter place; dsimp only; split <;> rfl

/-- Only the cursor of the voice that plays is set. -/
lemma enter_cursors : ∃ tick, (c.enter key t r).cursors =
    setCursor key ⟨r.octave, r.duration, tick⟩ c.cursors := by
  unfold enter place
  dsimp only
  split
  · refine ⟨r.event.stop, ?_⟩
    show setCursor key { cursor (withCursor c _ _) key with tick := _ } (setCursor key _ _) = _
    rw [setCursor_setCursor, cursor_withCursor_self]
  · exact ⟨_, rfl⟩

lemma cursor_enter_self : ((c.enter key t r).cursor key).octave = r.octave ∧
    ((c.enter key t r).cursor key).duration = r.duration := by
  obtain ⟨tick, hcursors⟩ := c.enter_cursors key t r
  simp [cursor, hcursors, find?_setCursor]

end Enter

lemma find?_enter_of_ne (c : Context P) {key k : VoiceKey} (t : Option (Token P)) (r : Rendering)
    (h : k ≠ key) :
    (c.enter key t r).cursors.find? (·.1 == k) = c.cursors.find? (·.1 == k) := by
  obtain ⟨tick, hcursors⟩ := c.enter_cursors key t r
  rw [hcursors, find?_setCursor, if_neg h]

lemma cursor_enter_of_ne (c : Context P) {key k : VoiceKey} (t : Option (Token P)) (r : Rendering)
    (h : k ≠ key) : (c.enter key t r).cursor k = c.cursor k := by
  rw [cursor, cursor, c.find?_enter_of_ne t r h]

/-- Where an event is taken up, its end stays with the voice. -/
lemma tick_enter (c : Context P) (key : VoiceKey) (t : Option (Token P)) (r : Rendering)
    (h : 0 < c.timeline.room) : ((c.enter key t r).cursor key).tick = r.event.stop := by
  obtain ⟨room, hroom⟩ : ∃ room, c.timeline.room = room + 1 := ⟨c.timeline.room - 1, by omega⟩
  have hadd : (c.timeline.add r.event).1 = true := by simp [Timeline.add, hroom]
  unfold enter place
  dsimp only
  split
  · simp [cursor, withCursor, find?_setCursor]
  · contradiction

lemma mem_setCursor {key : VoiceKey} {cursor : Cursor} {l : List (VoiceKey × Cursor)}
    {p : VoiceKey × Cursor} (h : p ∈ setCursor key cursor l) : p.2 = cursor ∨ p ∈ l := by
  fun_induction setCursor key cursor l <;> simp_all
  · rcases h with rfl | h
    · exact .inl rfl
    · exact .inr (.inr h)
  · grind

end Context

namespace Run

lemma eval_place (key : VoiceKey) (e : Event) (t : Option (Token P)) (c : Context P) :
    eval (place key e t) c = .ok ((), c.place key e t) := by
  rcases h : c.timeline.add e with ⟨added, timeline⟩
  cases added <;> simp [place, Context.place, h, Context.cursor, Context.withCursor]

lemma eval_setLength (key : VoiceKey) (e : WrittenEvent P) (c : Context P) :
    eval (setLength key e) c = .ok ((), (c.withCursor key
      { c.cursor key with duration := e.length.after (c.cursor key).duration }).noteAll
      e.length.issues e.anchor) := by
  unfold setLength
  cases e.length <;>
    simp [Length.after, Length.issues, Context.noteAll, Context.note]

/-- Resolving symbols one after the other is hearing them. -/
lemma eval_mapM_resolve (i : Instrument) (key : VoiceKey) (t : Option (Token P))
    (texts : List String) (c : Context P) (cursor : Cursor) :
    eval (texts.mapM (resolve i key t)) (c.withCursor key cursor) =
      (fun h => (h.pitches, (c.withCursor key { cursor with octave := h.octave }).noteAll
        h.issues t)) <$> hear i cursor.octave texts := by
  induction texts generalizing c cursor with
  | nil => simp [hear]
  | cons s rest ih =>
    rw [List.mapM_cons]
    rcases hp : resolvePitch i cursor.octave s with ⟨_ | _ | p, o⟩
    · simp [resolve, hear, hp]
    · simp only [resolve, hear, hp, eval_bind, eval_get, ok_bind, Context.cursor_withCursor_self,
        eval_modifyCursor, Context.withCursor_withCursor, eval_lift, ok_map, eval_report, eval_pure,
        Context.note_eq_noteAll, Context.noteAll_withCursor, ih]
      cases hear i o rest <;> simp [Context.noteAll, Context.withCursor]
    · simp only [resolve, hear, hp, eval_bind, eval_get, ok_bind, Context.cursor_withCursor_self,
        eval_modifyCursor, Context.withCursor_withCursor, eval_lift, ok_map, eval_pure, ih]
      cases hear i o rest <;> simp

lemma eval_sound (s : Stage) (e : WrittenEvent P) (c : Context P) (cursor : Cursor) :
    eval (sound s e) (c.withCursor s.key cursor) =
      (fun h => ((e.kind, h.pitches),
        (c.withCursor s.key { cursor with octave := h.octave }).noteAll h.issues e.anchor)) <$>
        e.hearing s.instrument cursor.octave := by
  unfold sound WrittenEvent.hearing WrittenEvent.kind
  by_cases hr : e.isRest
  · simp [hr]
  · simp only [hr, Bool.false_eq_true, if_false, eval_bind, eval_mapM_resolve]
    cases hear s.instrument cursor.octave e.pitches <;> simp

/-- **Playing an event is rendering it and entering the rendering.** -/
theorem eval_play (s : Stage) (offset : Int) (e : WrittenEvent P) (c : Context P) :
    eval (play s offset e) c =
      (fun r => (r.ticks, c.enter s.key e.anchor r)) <$> e.render s (c.cursor s.key) offset := by
  simp only [play, eval_bind, eval_setLength, ok_bind, Context.noteAll_withCursor, eval_sound]
  unfold WrittenEvent.render
  cases hh : e.hearing s.instrument (c.cursor s.key).octave with
  | error f => simp
  | ok h =>
    simp only [ok_map, ok_bind, eval_get, Context.cursor_withCursor_self, eval_lift]
    rcases Duration.make (if e.isGrace then 0 else e.length.after (c.cursor s.key).duration)
      with f | d
    · simp
    rcases Velocity.ofModifiers e.modifiers with f | v
    · simp
    simp only [ok_map, ok_bind, eval_place, eval_pure]
    generalize hev : Event.mk _ _ _ _ _ _ _ _ _ _ = ev
    rcases hc : ev.check with f | ev'
    · simp
    obtain rfl := Event.eq_of_check hc
    subst hev
    have hticks : s.base + offset + d.ticks - (s.base + offset) = d.ticks := by omega
    simp [Rendering.ticks, Context.enter, Context.noteAll_noteAll, Context.noteAll_withCursor,
      hticks]

end Run

end Partitura
