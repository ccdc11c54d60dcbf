import Partitura.Proofs.Carrying
import Partitura.Proofs.Ledger

/-!
What a walk reads in each voice.

A cursor holds no more than the readings in its voice tell: the last length and the last octave
that were written there (`Recalls`). What is played in other voices does not touch it, and an
instrument is defined before anything is read in its voices, so that its definition takes nothing
away. So every event goes by the readings before it in its voice (`Faithful`).
-/

namespace Partitura

open Number Run

variable {P : Type}

/-! ### Readings -/

namespace Reading

def key (r : Reading P) : VoiceKey := r.stage.key

def length? (r : Reading P) : Option Rat := r.written.length.quarters?

def texts (r : Reading P) : List String := r.written.texts

/-- The event goes by what was read in its voice before: its length is the last that was written,
and on a staff each of its pitches is in the last octave that was set. -/
structure Follows (before : List (Reading P)) (r : Reading P) (e : Event) : Prop where
  voice : (⟨e.instrument, e.voice⟩ : VoiceKey) = r.key
  duration : e.duration = if r.written.isGrace then 0 else lastSet length? 1 (before ++ [r])
  pitches : r.stage.instrument.style = .standard →
    ReadAfter (before.flatMap texts) r.texts e.pitches

end Reading

def voiceLog (key : VoiceKey) (log : List (Reading P)) : List (Reading P) :=
  log.filter fun r => r.key = key

section VoiceLog

variable {key : VoiceKey} {log : List (Reading P)} {r : Reading P}

lemma voiceLog_concat_self (h : r.key = key) :
    voiceLog key (log ++ [r]) = voiceLog key log ++ [r] := by
  simp [voiceLog, h]

lemma voiceLog_concat_of_ne (h : r.key ≠ key) : voiceLog key (log ++ [r]) = voiceLog key log := by
  simp [voiceLog, h]

end VoiceLog

/-! ### What a voice remembers -/

/-- Whatever was made of the readings goes by those before them in their voices. -/
def Faithful (log : List (Reading P)) : Prop :=
  ∀ key before r after, voiceLog key log = before ++ r :: after → ∀ e, r.made = .ok e →
    r.Follows before e

lemma Faithful.concat {log : List (Reading P)} (h : Faithful log) {r : Reading P}
    (hr : ∀ e, r.made = .ok e → r.Follows (voiceLog r.key log) e) : Faithful (log ++ [r]) := by
  intro key before r' after hsplit e he
  by_cases hkey : r.key = key
  · rw [voiceLog_concat_self hkey] at hsplit
    rcases List.eq_nil_or_concat after with rfl | ⟨after, x, rfl⟩
    · obtain ⟨rfl, hlast⟩ := List.append_inj' hsplit rfl
      cases hlast
      exact hkey ▸ hr e he
    · have hinit : voiceLog key log ++ [r] = (before ++ r' :: after) ++ [x] := by
        simpa using hsplit
      exact h key before r' after (List.append_inj' hinit rfl).1 e he
  · rw [voiceLog_concat_of_ne hkey] at hsplit
    exact h key before r' after hsplit e he

/-- What a state remembers of what was read: in every voice the last length and the last octave. -/
structure Recalls (log : List (Reading P)) (c : Context P) : Prop where
  known : ∀ r ∈ log, c.instrument? r.key.instrument = some r.stage.instrument
  duration : ∀ key, (c.cursor key).duration = lastSet Reading.length? 1 (voiceLog key log)
  octave : ∀ key i, c.instrument? key.instrument = some i → i.style = .standard →
    (c.cursor key).octave = lastSet Pitch.octaveSet? 4 ((voiceLog key log).flatMap Reading.texts)

/-- A voice of an instrument that is not defined stands where all voices start. -/
lemma Context.Voiced.cursor_eq {c : Context P} (h : c.Voiced) {key : VoiceKey}
    (hkey : c.instrument? key.instrument = none) : c.cursor key = {} := by
  have hnone : c.cursors.find? (·.1 == key) = none := by
    refine List.find?_eq_none.mpr fun p hp heq => ?_
    have hdefined := h p hp
    rw [beq_iff_eq.mp heq, Context.defines, List.any_eq_true] at hdefined
    obtain ⟨i, hi, hid⟩ := hdefined
    exact List.find?_eq_none.mp hkey i hi hid
  rw [cursor, hnone]
  rfl

namespace Recalls

variable {l : Library} {log : List (Reading P)} {c d : Context P}

lemma start (o : Options) (l : Library) : Recalls [] (.start o l : Context P) where
  known := by simp
  duration := fun _ => rfl
  octave := fun _ _ _ _ => rfl

/-- Where nothing is read, what is remembered stays. -/
lemma of_continues (h : Recalls log c) (hc : c.Voiced) (hd : c.Continues l d) :
    Recalls log d := by
  have hcursor (key : VoiceKey) : d.cursor key = c.cursor key := by
    rw [Context.cursor, Context.cursor, hd.cursors]
  refine ⟨fun r hr => Context.instrument?_of_prefix hd.instruments (h.known r hr), fun key => ?_,
    fun key i hi hstyle => ?_⟩
  · rw [hcursor]
    exact h.duration key
  · rw [hcursor]
    cases hold : c.instrument? key.instrument with
    | some j =>
      have hsame := Context.instrument?_of_prefix hd.instruments hold
      rw [hsame] at hi
      cases hi
      exact h.octave key i hold hstyle
    | none =>
      -- nothing was read in a voice whose instrument is new
      have hnone : voiceLog key log = [] := by
        refine List.filter_eq_nil_iff.mpr fun r hr hkey => ?_
        have hknown := h.known r hr
        rw [of_decide_eq_true hkey, hold] at hknown
        cases hknown
      rw [hc.cursor_eq hold, hnone]
      rfl

section Event

variable {s : Stage} {e : WrittenEvent P} {tick : Int} {r : Rendering}

lemma follows (h : Recalls log c) (hs : c.instrument? s.instrument.id = some s.instrument)
    (hr : e.render s (c.cursor s.key) tick = .ok r) :
    Reading.Follows (voiceLog s.key log) ⟨s, e, .ok r.event⟩ r.event where
  voice := e.voice_of_render hr
  duration := by
    rw [(WrittenEvent.duration_of_render hr).1, lastSet_concat, h.duration]
    rfl
  pitches := fun hstyle =>
    (WrittenEvent.readAfter_of_render hstyle (h.octave s.key s.instrument hs hstyle) hr).1

/-- An event leaves its length and octave to its voice, and nothing to others. -/
lemma enter (h : Recalls log c) (hs : c.instrument? s.instrument.id = some s.instrument)
    (hr : e.render s (c.cursor s.key) tick = .ok r) :
    Recalls (log ++ [⟨s, e, .ok r.event⟩]) (c.enter s.key e.anchor r) := by
  have hinstrument (id : String) :
      (c.enter s.key e.anchor r).instrument? id = c.instrument? id := by
    rw [Context.instrument?, Context.enter_instruments, ← Context.instrument?]
  have hself : voiceLog s.key (log ++ [⟨s, e, .ok r.event⟩]) =
      voiceLog s.key log ++ [⟨s, e, .ok r.event⟩] := voiceLog_concat_self rfl
  have hother (key : VoiceKey) (hkey : s.key ≠ key) :
      voiceLog key (log ++ [⟨s, e, .ok r.event⟩]) = voiceLog key log := voiceLog_concat_of_ne hkey
  obtain ⟨hoctave, hduration⟩ := c.cursor_enter_self s.key e.anchor r
  refine ⟨fun r' hr' => ?_, fun key => ?_, fun key i hi hstyle => ?_⟩
  · rw [hinstrument]
    rcases List.mem_append.mp hr' with hold | hnew
    · exact h.known r' hold
    · rw [List.mem_singleton.mp hnew]
      exact hs
  · by_cases hkey : s.key = key
    · subst hkey
      rw [hduration, hself, lastSet_concat, ← h.duration,
        (WrittenEvent.duration_of_render hr).2]
      rfl
    · rw [hother key hkey, c.cursor_enter_of_ne e.anchor r (Ne.symm hkey)]
      exact h.duration key
  · rw [hinstrument] at hi
    by_cases hkey : s.key = key
    · -- the instrument of a key is that of the stage, since one name has one instrument
      subst hkey
      obtain rfl : s.instrument = i := Option.some.inj (hs.symm.trans hi)
      have hread := WrittenEvent.readAfter_of_render hstyle (h.octave s.key _ hs hstyle) hr
      rw [hoctave, hself, List.flatMap_append, hread.2]
      simp [Reading.texts]
    · rw [hother key hkey, c.cursor_enter_of_ne e.anchor r (Ne.symm hkey)]
      exact h.octave key i hi hstyle

end Event

end Recalls

/-- The readings of a log are remembered, and each goes by those before it. -/
structure Recounted (log : List (Encounter P)) (c : Context P) : Prop where
  recalls : Recalls (log.filterMap Encounter.reading?) c
  faithful : Faithful (log.filterMap Encounter.reading?)

namespace Recounted

variable {l : Library} {defs : List (Option String × Definition P)} {log : List (Encounter P)}
  {x : Encounter P} {c d : Context P}

lemma start (o : Options) (l : Library) : Recounted [] (.start o l : Context P) where
  recalls := .start o l
  faithful := by
    intro key before r after hsplit
    simp [voiceLog] at hsplit

lemma pass (h : Recounted log c) (hx : x.reading? = none) (hc : c.Voiced)
    (hd : c.Continues l d) : Recounted (log ++ [x]) d := by
  refine ⟨?_, ?_⟩ <;>
    rw [List.filterMap_append, List.filterMap_cons_none hx, List.filterMap_nil, List.append_nil]
  · exact h.recalls.of_continues hc hd
  · exact h.faithful

lemma step {x : Option (Encounter P)} (hc : Tabled l defs c.groups c) (h : Recounted log c)
    (hmet : Walk.Met l c x d) : Recounted (log ++ x.toList) d := by
  cases hmet with
  | nothing _ hd =>
    rw [Option.toList_none, List.append_nil]
    exact ⟨h.recalls.of_continues hc.voiced hd, h.faithful⟩
  | event hs hr =>
    refine ⟨?_, ?_⟩ <;> rw [List.filterMap_append]
    · exact h.recalls.enter hs hr
    · refine h.faithful.concat fun e he => ?_
      cases he
      exact h.recalls.follows hs hr
  | expanded | refused => exact h.pass rfl hc.voiced (Walk.continues_of_tables hc rfl)

/-- Nothing was made of the event at which a walk stops. -/
lemma stop (h : Recounted log c) {rs : List (Reader P)} {f : Fault}
    (hstep : eval (Walk.walkStep rs) c = .error f) :
    Faithful ((log ++ (Walk.encounter? rs c).toList).filterMap Encounter.reading?) := by
  rw [List.filterMap_append]
  cases hx : Walk.encounter? rs c with
  | none => simpa using h.faithful
  | some x =>
    cases x with
    | call => simpa [List.filterMap_cons, Encounter.reading?] using h.faithful
    | event r room =>
      refine h.faithful.concat fun e he => ?_
      obtain ⟨q, hq⟩ := Walk.ok_of_made hx he
      rw [hstep] at hq
      cases hq

end Recounted

/-- **A walk makes of what it reads what the readings before it tell**, also where it stops. -/
lemma Walk.faithful_readings (o : Options) (l : Library) (n : Nat) (ts : List (Token P)) :
    Faithful (Walk.readings n (Walk.opening ts) (.start o l)) := by
  obtain ⟨hend, hstop⟩ := Walk.walk_log (J := Recounted) Recounted.step n (.start o l)
    (start_tabled o l) (Walk.staffed_opening o l ts)
  unfold Walk.readings
  cases hwalk : eval (Walk.walk n (Walk.opening ts)) (.start o l) with
  | ok q => exact (hend q.1 q.2 hwalk).faithful
  | error f =>
    obtain ⟨log, rs, c, hlog, hstep, heq⟩ := hstop f hwalk
    rw [List.nil_append] at heq
    rw [heq]
    exact hlog.stop hstep

/-- **What a voice carries is its own history.** Of the events that the compilation of a text
reads, the timeline holds the first, as many as it may. Each goes by those that were read in its
voice before it, in whatever measures, macros and repetitions, and whether there was room for them
or not: its length is the last that was written there, and on a staff its pitches are in the last
octave that was set there. -/
theorem compileTokens_carried (o : Options) (l : Library) (ts : List (Token P)) :
    ∃ n, Walk.EndsAs (eval (Walk.walk n (Walk.opening ts)) (.start o l)) (compileTokens o l ts) ∧
      let log := Walk.readings n (Walk.opening ts) (.start o l)
      (∀ c, compileTokens o l ts = .ok () c → ∃ events : List Event,
        log.map Reading.made = events.map .ok ∧ c.timeline.events = events.take o.maxEvents) ∧
      ∀ key before r after, voiceLog key log = before ++ r :: after → ∀ e, r.made = .ok e →
        r.Follows before e := by
  obtain ⟨n, hends⟩ := Walk.exists_endsAs o l ts
  refine ⟨n, hends, fun c hc => ?_, Walk.faithful_readings o l n ts⟩
  rw [hc] at hends
  generalize hwalk : eval (Walk.walk n (Walk.opening ts)) (.start o l) = q at hends
  cases hends with
  | ok c =>
    have hlogged := Logged.of_walk hwalk
    exact ⟨_, hlogged.made, hlogged.events⟩

end Partitura
