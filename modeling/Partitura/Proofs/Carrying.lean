import Partitura.Proofs.Settling

/-!
What an event takes over from those before it, and what it leaves behind.

A voice keeps a length and an octave. A written length stays for the events behind it, and so does
a written octave, while a text that is no pitch takes the octave back to where voices start. Here
both are read off a list of what was written, the last word counting (`lastSet`), and an event is
shown to go by that.
-/

namespace Partitura

open Run

variable {P α β : Type}

/-! ### The last word -/

/-- The last value that the members of a list give, or `first` if none gives any. -/
def lastSet (f : α → Option β) (first : β) (xs : List α) : β := (xs.filterMap f).getLastD first

section LastSet

variable (f : α → Option β) (first : β) (x : α) (xs ys : List α)

@[simp] lemma lastSet_nil : lastSet f first [] = first := rfl

lemma lastSet_cons : lastSet f first (x :: xs) = lastSet f ((f x).getD first) xs := by
  unfold lastSet
  cases h : f x with
  | none => rw [List.filterMap_cons_none h, Option.getD_none]
  | some y => rw [List.filterMap_cons_some h, List.getLastD_cons, Option.getD_some]

lemma lastSet_append : lastSet f first (xs ++ ys) = lastSet f (lastSet f first xs) ys := by
  induction xs generalizing first with
  | nil => rfl
  | cons x xs ih => rw [List.cons_append, lastSet_cons, ih, ← lastSet_cons]

lemma lastSet_concat : lastSet f first (xs ++ [x]) = (f x).getD (lastSet f first xs) := by
  rw [lastSet_append, lastSet_cons, lastSet_nil]

end LastSet

/-! ### Pitches behind others -/

/-- Pitches that texts are read as behind some others: each text with the octave that the last one
before it has set, and what is no pitch as middle C. -/
structure ReadAfter (past texts : List String) (pitches : List Pitch) : Prop where
  length : pitches.length = texts.length
  read : ∀ earlier s later, texts = earlier ++ s :: later →
    ∃ p, Pitch.read s (lastSet Pitch.octaveSet? 4 (past ++ earlier)) = .ok p ∧
      pitches[earlier.length]? = some ((p.map (·.1)).getD ⟨60, 0⟩)

namespace ReadAfter

variable {past texts : List String} {pitches : List Pitch}

lemma nil (past : List String) : ReadAfter past [] [] where
  length := rfl
  read := by simp

/-- Behind a text, the next ones are read with the octave that it leaves. -/
lemma cons {s : String} {p : Option (Pitch × Int)}
    (hs : Pitch.read s (lastSet Pitch.octaveSet? 4 past) = .ok p)
    (h : ReadAfter (past ++ [s]) texts pitches) :
    ReadAfter past (s :: texts) ((p.map (·.1)).getD ⟨60, 0⟩ :: pitches) where
  length := by simp [h.length]
  read := by
    intro earlier s' later heq
    cases earlier with
    | nil =>
      obtain ⟨rfl, -⟩ := List.cons.inj heq
      exact ⟨p, by simpa using hs, rfl⟩
    | cons s₀ earlier =>
      obtain ⟨rfl, htexts⟩ := List.cons.inj heq
      obtain ⟨q, hq, hpitch⟩ := h.read earlier s' later htexts
      refine ⟨q, ?_, by simpa using hpitch⟩
      rw [List.append_cons]
      exact hq

end ReadAfter

/-- **Symbols on a staff are read one behind the other**, from the octave that was set before. -/
lemma readAfter_of_hear {i : Instrument} (hi : i.style = .standard) {past texts : List String}
    {h : Hearing} (hhear : hear i (lastSet Pitch.octaveSet? 4 past) texts = .ok h) :
    ReadAfter past texts h.pitches ∧ h.octave = lastSet Pitch.octaveSet? 4 (past ++ texts) := by
  induction texts generalizing past h with
  | nil =>
    cases hhear
    exact ⟨.nil past, by rw [List.append_nil]⟩
  | cons s texts ih =>
    obtain ⟨p, h', hp, hrest, hpitches, hoctave⟩ := hear_cons_eq_ok hhear
    obtain ⟨q, hread, rfl, hnext⟩ := resolvePitch_standard hi hp
    rw [hnext, ← lastSet_concat] at hrest
    obtain ⟨hreadAfter, hlast⟩ := ih hrest
    rw [← hpitches, ← hoctave, List.append_cons]
    exact ⟨.cons hread hreadAfter, hlast⟩

/-! ### Events -/

namespace WrittenEvent

variable {e : WrittenEvent P} {s : Stage} {cursor : Cursor} {offset : Int} {r : Rendering}

lemma voice_of_render (h : e.render s cursor offset = .ok r) :
    (⟨r.event.instrument, r.event.voice⟩ : VoiceKey) = s.key := by
  obtain ⟨_, _, _, -, -, -, -, -, hevent⟩ := render_eq_ok h
  rw [hevent, Stage.key]

/-- The length of an event is written in it, or it is the last one; and it stays. -/
lemma duration_of_render (h : e.render s cursor offset = .ok r) :
    r.event.duration = (if e.isGrace then 0 else e.length.quarters?.getD cursor.duration) ∧
      r.duration = e.length.quarters?.getD cursor.duration := by
  obtain ⟨_, _, _, -, -, -, -, hduration, hevent⟩ := render_eq_ok h
  rw [hevent, hduration, ← Length.after_eq]
  exact ⟨rfl, rfl⟩

/-- On a staff, an event is read behind the texts that have set the octave, and sets it. -/
lemma readAfter_of_render (hs : s.instrument.style = .standard) {past : List String}
    (hcursor : cursor.octave = lastSet Pitch.octaveSet? 4 past)
    (h : e.render s cursor offset = .ok r) :
    ReadAfter past e.texts r.event.pitches ∧
      r.octave = lastSet Pitch.octaveSet? 4 (past ++ e.texts) := by
  obtain ⟨heard, _, _, hheard, -, -, hoctave, -, hevent⟩ := render_eq_ok h
  rw [hearing_eq, hcursor] at hheard
  rw [hevent, hoctave]
  exact readAfter_of_hear hs hheard

end WrittenEvent

end Partitura
