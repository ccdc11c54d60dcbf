import Partitura.Proofs.Rendering

/-!
What an event leaves behind in its voice, and a setting in the header.

The octave and the length that stay with a voice, and the time signature, are either set to a
value that does not depend on the state, or left alone. So of two runs of the same step, from
different states, either both come to one value or both keep their own (`Settled`).
-/

namespace Partitura

open Number Run

variable {P : Type}

/-- Where `x` became `y` and `x'` became `y'`: they were set alike, or neither was set. -/
def Settled {α : Type} (x x' y y' : α) : Prop := y = y' ∨ y = x ∧ y' = x'

namespace Settled

variable {α : Type} {x x' y y' z z' : α}

lemma refl (x x' : α) : Settled x x' x x' := .inr ⟨rfl, rfl⟩

lemma trans (h : Settled x x' y y') (h' : Settled y y' z z') : Settled x x' z z' := by
  rcases h' with h' | ⟨rfl, rfl⟩
  · exact .inl h'
  · exact h

lemma eq_of_eq (h : Settled x x' y y') (hx : x = x') : y = y' := by
  rcases h with h | ⟨rfl, rfl⟩
  · exact h
  · exact hx

/-- What is set to a value, or not, is settled. -/
lemma getD (o : Option α) (x x' : α) : Settled x x' (o.getD x) (o.getD x') := by
  cases o with
  | none => exact .refl x x'
  | some y => exact .inl rfl

/-- Where a second run started from what the first has come to, it changed nothing more. -/
lemma eq_of_chain (h : Settled x y y z) : y = z := by
  rcases h with h | ⟨-, h⟩
  · exact h
  · exact h.symm

end Settled

/-! ### Octaves and lengths -/

namespace Pitch

/-- The octave that a text leaves to those behind it: the one that is written in it, and that in
which voices start if the text is no pitch. -/
def octaveSet? (s : String) : Option Int :=
  match written? s with
  | none => some 4
  | some w =>
    match w.octave? with
    | .ok octave => octave
    | .error _ => none

/-- A pitch is in the octave that it sets, or else in the one it was read with. -/
lemma octave_of_read {s : String} {octave : Int} {p : Option (Pitch × Int)}
    (h : read s octave = .ok p) : p.elim 4 (·.2) = (octaveSet? s).getD octave := by
  unfold read at h
  unfold octaveSet?
  cases hw : written? s with
  | none =>
    rw [hw] at h
    cases h
    rfl
  | some w =>
    rw [hw] at h
    obtain ⟨o, ho, h⟩ := bind_eq_ok.mp h
    obtain ⟨q, -, h⟩ := bind_eq_ok.mp h
    cases h
    simp [ho]

end Pitch

/-- On a staff, a symbol is read as a pitch, and leaves the octave it sets. -/
lemma resolvePitch_standard {i : Instrument} (hi : i.style = .standard) {octave : Int} {s : String}
    {p : Option Pitch} (h : (resolvePitch i octave s).1 = .ok p) :
    ∃ q, Pitch.read s octave = .ok q ∧ q.map (·.1) = p ∧
      (resolvePitch i octave s).2 = (Pitch.octaveSet? s).getD octave := by
  unfold resolvePitch at h ⊢
  rw [hi] at h ⊢
  cases hread : Pitch.read s octave with
  | error f => simp [hread] at h
  | ok q =>
    have hset := Pitch.octave_of_read hread
    cases q with
    | none =>
      rw [hread] at h
      cases h
      exact ⟨none, rfl, rfl, hset⟩
    | some q =>
      rw [hread] at h
      cases h
      exact ⟨some q, rfl, rfl, hset⟩

lemma resolvePitch_settled (i : Instrument) (s : String) {x x' : Int} {p p' : Option Pitch}
    (h : (resolvePitch i x s).1 = .ok p) (h' : (resolvePitch i x' s).1 = .ok p') :
    Settled x x' (resolvePitch i x s).2 (resolvePitch i x' s).2 := by
  cases hstyle : i.style with
  | tab =>
    simp only [resolvePitch, hstyle]
    exact .refl x x'
  | grid =>
    simp only [resolvePitch, hstyle]
    exact .refl x x'
  | standard =>
    obtain ⟨-, -, -, hset⟩ := resolvePitch_standard hstyle h
    obtain ⟨-, -, -, hset'⟩ := resolvePitch_standard hstyle h'
    rw [hset, hset']
    exact .getD _ x x'

/-- The first symbol sounds as its pitch or as middle C, and the others behind it. -/
lemma hear_cons_eq_ok {i : Instrument} {x : Int} {s : String} {rest : List String} {h : Hearing}
    (hh : hear i x (s :: rest) = .ok h) :
    ∃ p r, (resolvePitch i x s).1 = .ok p ∧ hear i (resolvePitch i x s).2 rest = .ok r ∧
      p.getD .nominal :: r.pitches = h.pitches ∧ r.octave = h.octave := by
  obtain ⟨p, hp, hh⟩ := bind_eq_ok.mp hh
  cases p with
  | none =>
    obtain ⟨r, hr, hh⟩ := bind_eq_ok.mp hh
    cases hh
    exact ⟨_, r, hp, hr, rfl, rfl⟩
  | some p =>
    obtain ⟨r, hr, hh⟩ := bind_eq_ok.mp hh
    cases hh
    exact ⟨_, r, hp, hr, rfl, rfl⟩

lemma hear_settled (i : Instrument) (texts : List String) {x x' : Int} {h h' : Hearing}
    (hh : hear i x texts = .ok h) (hh' : hear i x' texts = .ok h') :
    Settled x x' h.octave h'.octave := by
  induction texts generalizing x x' h h' with
  | nil =>
    cases hh
    cases hh'
    exact .refl x x'
  | cons s rest ih =>
    obtain ⟨p, r, hp, hr, -, hoctave⟩ := hear_cons_eq_ok hh
    obtain ⟨p', r', hp', hr', -, hoctave'⟩ := hear_cons_eq_ok hh'
    rw [← hoctave, ← hoctave']
    exact (resolvePitch_settled i s hp hp').trans (ih hr hr')

/-- The length that is written, in quarters; nothing if none can be read. -/
def Length.quarters? : Length → Option Rat
  | .value d => some d.quarters
  | _ => none

lemma Length.after_eq (old : Rat) (l : Length) : l.after old = l.quarters?.getD old := by
  cases l <;> rfl

/-! ### One measure later -/

/-- The event in the next measure, which lasts so many ticks. -/
def Event.inNextMeasure (ticks : Int) (e : Event) : Event :=
  { e with start := e.start + ticks, stop := e.stop + ticks, measure := e.measure.map (· + 1) }

def Run.Stage.inNextMeasure (ticks : Int) (s : Stage) : Stage :=
  { s with base := s.base + ticks, measure := s.measure.map (· + 1) }

lemma WrittenEvent.render_eq_ok {e : WrittenEvent P} {s : Stage} {cursor : Cursor} {offset : Int}
    {r : Rendering} (h : e.render s cursor offset = .ok r) :
    ∃ heard d velocity, e.hearing s.instrument cursor.octave = .ok heard ∧
      Duration.make (if e.isGrace then 0 else e.length.after cursor.duration) = .ok d ∧
      Velocity.ofModifiers e.modifiers = .ok velocity ∧
      r.octave = heard.octave ∧ r.duration = e.length.after cursor.duration ∧
      r.event = {
        kind := e.kind
        pitches := heard.pitches
        duration := if e.isGrace then 0 else e.length.after cursor.duration
        start := s.base + offset
        stop := s.base + offset + d.ticks
        velocity := .float velocity
        instrument := s.instrument.id
        voice := s.voice
        modifiers := e.modifiers
        measure := s.measure } := by
  obtain ⟨heard, hheard, h⟩ := bind_eq_ok.mp h
  obtain ⟨d, hd, h⟩ := bind_eq_ok.mp h
  obtain ⟨velocity, hv, h⟩ := bind_eq_ok.mp h
  obtain ⟨event, hcheck, h⟩ := bind_eq_ok.mp h
  obtain rfl := Event.eq_of_check hcheck
  cases h
  exact ⟨heard, d, velocity, hheard, hd, hv, rfl, rfl, rfl⟩

/-- The texts of an event that are read as pitches: none in a rest. -/
def WrittenEvent.texts (e : WrittenEvent P) : List String := if e.isRest then [] else e.pitches

lemma WrittenEvent.hearing_eq (e : WrittenEvent P) (i : Instrument) (octave : Int) :
    e.hearing i octave = hear i octave e.texts := by
  unfold hearing texts
  split <;> rfl

section Render

variable {e : WrittenEvent P} {s : Stage} {ticks offset offset' : Int} {cursor cursor' : Cursor}
  {r r' : Rendering}

lemma WrittenEvent.render_settled (h : e.render s cursor offset = .ok r)
    (h' : e.render (s.inNextMeasure ticks) cursor' offset' = .ok r') :
    Settled cursor.octave cursor'.octave r.octave r'.octave ∧
      Settled cursor.duration cursor'.duration r.duration r'.duration := by
  obtain ⟨heard, _, _, hheard, -, -, hoctave, hduration, -⟩ := render_eq_ok h
  obtain ⟨heard', _, _, hheard', -, -, hoctave', hduration', -⟩ := render_eq_ok h'
  rw [hearing_eq] at hheard hheard'
  rw [hoctave, hoctave', hduration, hduration', Length.after_eq, Length.after_eq]
  exact ⟨hear_settled s.instrument e.texts hheard hheard', .getD _ _ _⟩

/-- From cursors that are alike, the same event is rendered one measure later. -/
lemma WrittenEvent.render_later (h : e.render s cursor offset = .ok r)
    (h' : e.render (s.inNextMeasure ticks) cursor' offset = .ok r')
    (hoctave : cursor.octave = cursor'.octave) (hduration : cursor.duration = cursor'.duration) :
    r'.event = r.event.inNextMeasure ticks := by
  obtain ⟨heard, d, velocity, hheard, hd, hv, -, -, hevent⟩ := render_eq_ok h
  obtain ⟨heard', d', velocity', hheard', hd', hv', -, -, hevent'⟩ := render_eq_ok h'
  rw [← hoctave] at hheard'
  rw [← hduration] at hd' hevent'
  obtain rfl : heard = heard' := by simpa [Run.Stage.inNextMeasure, hheard] using hheard'
  obtain rfl : d = d' := by simpa [hd] using hd'
  obtain rfl : velocity = velocity' := by simpa [hv] using hv'
  rw [hevent, hevent']
  simp only [Event.inNextMeasure, Run.Stage.inNextMeasure, Event.mk.injEq, true_and, and_true]
  omega

end Render

/-! ### Settings -/

lemma Header.apply_settled (key value : String) (h h' : Header) :
    Settled h.time h'.time (h.apply key value).1.time (h'.apply key value).1.time := by
  simp only [apply]
  repeat' split
  all_goals first | exact .refl _ _ | exact .inl rfl

lemma Run.applySetting_cases {key value : String} {t : Option (Token P)} {c d : Context P}
    {u : Unit} (h : eval (applySetting key value t) c = .ok (u, d)) :
    ∃ reports, d = { c with header := (c.header.apply key value).1, reports } := by
  simp only [applySetting, eval_bind, eval_get, eval_modify, ok_bind] at h
  split at h <;> cases h <;> exact ⟨_, rfl⟩

end Partitura
