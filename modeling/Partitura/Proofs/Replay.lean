import Mathlib.Tactic.Ring
import Partitura.Proofs.Reachable
import Partitura.Proofs.Settling

/-!
A measure block that is played again and again is periodic from its second measure on.

What an event is depends on the octave and the length that stay with its voice, and the length
of a measure on the time signature. Two passes over the block, side by side, settle these alike
(`Abreast`). So the second pass changes nothing any more, and from then on every pass plays what
the one before has played, one measure later.
-/

namespace Partitura

open Number Run

variable {P : Type}

/-! ### States of two passes -/

/-- Neither an event nor a call was refused for a limit; the calls may be spent already. -/
def Calm (spent : Prop) (c : Context P) : Prop :=
  c.timeline.truncated = false ∧ (spent ∨ ∀ n, .macroBudget n ∉ c.once)

lemma Played.calm {steps : List (Placed (Step P))} {c d : Context P} (h : Played steps c d)
    {spent : Prop} (hd : Calm spent d) : Calm spent c := by
  refine ⟨?_, hd.2.imp_right fun hbudget n hn => hbudget n (h.once hn)⟩
  by_contra hc
  have := h.truncated (by simpa using hc)
  rw [hd.1] at this
  cases this

/-- Every voice stands in the same octave, and has the same length. -/
def Alike (c c' : Context P) : Prop :=
  ∀ key, (c.cursor key).octave = (c'.cursor key).octave ∧
    (c.cursor key).duration = (c'.cursor key).duration

/-- Two passes over the same entries, in the measure `index` and the next one, which started in
the states `o` and `o'` and have come to `c` and `c'`. -/
structure Abreast (spent : Prop) (index ticks : Int) (o o' c c' : Context P) : Prop where
  options : c.options = c'.options
  macros : c.macros = c'.macros
  instruments : c.instruments = c'.instruments
  time : Settled o.header.time o'.header.time c.header.time c'.header.time
  octave : ∀ key, Settled (o.cursor key).octave (o'.cursor key).octave (c.cursor key).octave
    (c'.cursor key).octave
  duration : ∀ key, Settled (o.cursor key).duration (o'.cursor key).duration
    (c.cursor key).duration (c'.cursor key).duration
  calls : spent → c.options.maxMacroExpansions ≤ c.expansions ∧
    c'.options.maxMacroExpansions ≤ c'.expansions
  events : ∃ new new', c.timeline.newest = new ++ o.timeline.newest ∧
    c'.timeline.newest = new' ++ o'.timeline.newest ∧ (∀ e ∈ new, e.measure = some index) ∧
    (∀ e ∈ new', e.measure = some (index + 1)) ∧
    (Alike o o' → new' = new.map (·.inNextMeasure ticks))

lemma Timeline.add_newest {t : Timeline} {e : Event} (h : (t.add e).2.truncated = false) :
    (t.add e).2.newest = e :: t.newest := by
  unfold add at h ⊢
  split at h
  · cases h
  · simp_all

namespace Abreast

variable {spent : Prop} {index ticks : Int} {o o' c c' d d' : Context P}

lemma alike (h : Abreast spent index ticks o o' c c') (ho : Alike o o') : Alike c c' :=
  fun key => ⟨(h.octave key).eq_of_eq (ho key).1, (h.duration key).eq_of_eq (ho key).2⟩

/-- Both passes enter an event. -/
lemma enter (h : Abreast spent index ticks o o' c c') {s : Stage} (hs : s.measure = some index)
    {e : WrittenEvent P} {offset offset' : Int} {r r' : Rendering}
    (hr : e.render s (c.cursor s.key) offset = .ok r)
    (hr' : e.render (s.inNextMeasure ticks) (c'.cursor s.key) offset' = .ok r')
    (hoffset : Alike o o' → offset = offset')
    (hd : Calm spent (c.enter s.key e.anchor r)) (hd' : Calm spent (c'.enter s.key e.anchor r')) :
    Abreast spent index ticks o o' (c.enter s.key e.anchor r) (c'.enter s.key e.anchor r') ∧
      (Alike o o' → r.ticks = r'.ticks) := by
  obtain ⟨hoct, hdur⟩ := WrittenEvent.render_settled hr hr'
  have hlater (ho : Alike o o') : r'.event = r.event.inNextMeasure ticks := by
    obtain rfl := hoffset ho
    exact WrittenEvent.render_later hr hr' (h.alike ho s.key).1 (h.alike ho s.key).2
  refine ⟨⟨?_, ?_, ?_, ?_, fun key => ?_, fun key => ?_, ?_, ?_⟩, fun ho => ?_⟩
  · simpa using h.options
  · simpa using h.macros
  · simpa using h.instruments
  · simpa using h.time
  · by_cases hkey : key = s.key
    · subst hkey
      rw [(c.cursor_enter_self _ _ r).1, (c'.cursor_enter_self _ _ r').1]
      exact (h.octave s.key).trans hoct
    · rw [c.cursor_enter_of_ne _ r hkey, c'.cursor_enter_of_ne _ r' hkey]
      exact h.octave key
  · by_cases hkey : key = s.key
    · subst hkey
      rw [(c.cursor_enter_self _ _ r).2, (c'.cursor_enter_self _ _ r').2]
      exact (h.duration s.key).trans hdur
    · rw [c.cursor_enter_of_ne _ r hkey, c'.cursor_enter_of_ne _ r' hkey]
      exact h.duration key
  · simpa using h.calls
  · obtain ⟨new, new', hnew, hnew', hindex, hindex', hsame⟩ := h.events
    have hadd := hd.1
    have hadd' := hd'.1
    rw [Context.enter_timeline] at hadd hadd'
    refine ⟨r.event :: new, r'.event :: new', ?_, ?_, ?_, ?_, fun ho => ?_⟩
    · rw [Context.enter_timeline, Timeline.add_newest hadd, hnew, List.cons_append]
    · rw [Context.enter_timeline, Timeline.add_newest hadd', hnew', List.cons_append]
    · obtain ⟨_, _, _, -, -, -, -, -, hevent⟩ := WrittenEvent.render_eq_ok hr
      simpa [hevent, hs] using hindex
    · obtain ⟨_, _, _, -, -, -, -, -, hevent⟩ := WrittenEvent.render_eq_ok hr'
      simpa [hevent, Run.Stage.inNextMeasure, hs] using hindex'
    · rw [hsame ho, hlater ho, List.map_cons]
  · rw [Rendering.ticks, Rendering.ticks, hlater ho, Event.inNextMeasure]
    simp only
    omega

/-- Both passes take a step. -/
lemma step (h : Abreast spent index ticks o o' c c') {s : Stage} (hs : s.measure = some index)
    {step : Step P} {offset offset' a a' : Int} (hoffset : Alike o o' → offset = offset')
    (hrun : eval (Run.step s offset step) c = .ok (a, d))
    (hrun' : eval (Run.step (s.inNextMeasure ticks) offset' step) c' = .ok (a', d'))
    (hd : Calm spent d) (hd' : Calm spent d') :
    Abreast spent index ticks o o' d d' ∧ (Alike o o' → a = a') := by
  rcases step_cases hrun with
    ⟨e, r, rfl, hr, rfl, rfl⟩ | ⟨rfl, rfl, rfl⟩ | ⟨issue, t, rfl, rfl, rfl⟩
  · rw [eval_step_play, show (s.inNextMeasure ticks).key = s.key from rfl] at hrun'
    rcases hr' : e.render (s.inNextMeasure ticks) (c'.cursor s.key) offset' with f | r'
    · simp [hr'] at hrun'
    · obtain ⟨rfl, rfl⟩ : offset' + r'.ticks = a' ∧ c'.enter s.key e.anchor r' = d' := by
        simpa [hr'] using hrun'
      obtain ⟨hnext, hticks⟩ := h.enter hs hr hr' hoffset hd hd'
      exact ⟨hnext, fun ho => by rw [hoffset ho, hticks ho]⟩
  · obtain ⟨rfl, rfl⟩ : offset' = a' ∧ _ = d' := by simpa [eval_step_expand] using hrun'
    refine ⟨{ h with calls := fun hspent => ?_ }, hoffset⟩
    have := h.calls hspent
    simp only
    omega
  · obtain ⟨rfl, rfl⟩ : offset' = a' ∧ _ = d' := by simpa [eval_step_refuse] using hrun'
    exact ⟨{ h with }, hoffset⟩

lemma runSteps (h : Abreast spent index ticks o o' c c') {s : Stage} (hs : s.measure = some index)
    {steps : List (Placed (Step P))} {offset offset' a a' : Int}
    (hoffset : Alike o o' → offset = offset')
    (hrun : eval (Run.runSteps s steps offset) c = .ok (a, d))
    (hrun' : eval (Run.runSteps (s.inNextMeasure ticks) steps offset') c' = .ok (a', d'))
    (hd : Calm spent d) (hd' : Calm spent d') : Abreast spent index ticks o o' d d' := by
  induction steps generalizing c c' offset offset' with
  | nil =>
    obtain ⟨-, rfl⟩ : offset = a ∧ c = d := by simpa using hrun
    obtain ⟨-, rfl⟩ : offset' = a' ∧ c' = d' := by simpa using hrun'
    exact h
  | cons p steps ih =>
    rw [eval_runSteps_cons] at hrun hrun'
    obtain ⟨⟨offset₁, c₁⟩, h₁, hrun⟩ := bind_eq_ok.mp hrun
    obtain ⟨⟨offset₁', c₁'⟩, h₁', hrun'⟩ := bind_eq_ok.mp hrun'
    obtain ⟨hnext, hoffset₁⟩ := h.step hs hoffset h₁ h₁' ((played_runSteps hrun).calm hd)
      ((played_runSteps hrun').calm hd')
    exact ih hnext hoffset₁ hrun hrun'

lemma withinBudget {steps : List (Placed (Step P))} (h : Played steps c d)
    (hd : ∀ n, .macroBudget n ∉ d.once) : WithinBudget steps :=
  fun p hp n t hp' => hd n (h.refused p hp _ t hp')

/-- Both passes follow the same script. -/
lemma scriptOf_eq (h : Abreast spent index ticks o o' c c') {items : List (Placed (Item P))}
    (hd : Played (scriptOf c items) c d) (hd' : Played (scriptOf c' items) c' d')
    (hcalm : Calm spent d) (hcalm' : Calm spent d') : scriptOf c items = scriptOf c' items := by
  by_cases hspent : spent
  · have hcalls := h.calls hspent
    unfold scriptOf
    rw [← h.options, ← h.macros] at *
    exact script_exhausted _ hcalls.1 hcalls.2 _ items
  · have hwithin := withinBudget hd (hcalm.2.resolve_left hspent)
    have hwithin' := withinBudget hd' (hcalm'.2.resolve_left hspent)
    unfold scriptOf at hwithin hwithin' ⊢
    rw [← h.options, ← h.macros] at hwithin' ⊢
    rcases Nat.le_total c.expansions c'.expansions with hle | hle
    · obtain ⟨k, hk⟩ := Nat.exists_eq_add_of_le hle
      rw [hk] at hwithin' ⊢
      rw [script_add _ k _ _ _ hwithin']
    · obtain ⟨k, hk⟩ := Nat.exists_eq_add_of_le hle
      rw [hk] at hwithin ⊢
      rw [script_add _ k _ _ _ hwithin]

lemma perform (h : Abreast spent index ticks o o' c c') {s : Stage} (hs : s.measure = some index)
    {items : List (Placed (Item P))} {a a' : Int}
    (hrun : eval (Run.perform s items) c = .ok (a, d))
    (hrun' : eval (Run.perform (s.inNextMeasure ticks) items) c' = .ok (a', d'))
    (hd : Calm spent d) (hd' : Calm spent d') : Abreast spent index ticks o o' d d' := by
  rw [eval_perform] at hrun hrun'
  have hscript := h.scriptOf_eq (played_runSteps hrun) (played_runSteps hrun') hd hd'
  rw [← hscript] at hrun'
  exact h.runSteps hs (fun _ => rfl) hrun hrun' hd hd'

lemma applySetting (h : Abreast spent index ticks o o' c c') (key value : String)
    (t : Option (Token P)) {u u' : Unit} (hrun : eval (Run.applySetting key value t) c = .ok (u, d))
    (hrun' : eval (Run.applySetting key value t) c' = .ok (u', d')) :
    Abreast spent index ticks o o' d d' := by
  obtain ⟨reports, rfl⟩ := applySetting_cases hrun
  obtain ⟨reports', rfl⟩ := applySetting_cases hrun'
  exact { h with time := h.time.trans (Header.apply_settled key value _ _) }

end Abreast

/-! ### Runs of two passes -/

section Twins

/-- What is calm behind a run was calm before it. -/
def Fades (spent : Prop) {α : Type} (x : Run P α) : Prop :=
  ∀ c a d, eval x c = .ok (a, d) → Calm spent d → Calm spent c

/-- Two runs that keep their passes abreast. -/
def Twins (spent : Prop) (index ticks : Int) (o o' : Context P) {α : Type} (x x' : Run P α) :
    Prop :=
  ∀ c c' a a' d d', Abreast spent index ticks o o' c c' → eval x c = .ok (a, d) →
    eval x' c' = .ok (a', d') → Calm spent d → Calm spent d' → Abreast spent index ticks o o' d d'

variable {spent : Prop} {index ticks : Int} {o o' : Context P} {γ : Type}

lemma Run.Frames.fades {α : Type} {x : Run P α} (h : Frames x) : Fades spent x := by
  intro c a d hrun hd
  have hrecord := h.record_eq hrun
  simp only [Context.record, Prod.mk.injEq] at hrecord
  obtain ⟨-, htimeline, honce, -⟩ := hrecord
  exact ⟨htimeline ▸ hd.1, honce ▸ hd.2⟩

lemma Fades.forM {xs : List γ} {f : γ → Run P PUnit} (h : ∀ x, Fades spent (f x)) :
    Fades spent (xs.forM f) := by
  induction xs with
  | nil => intro c a d hrun hd; cases hrun; exact hd
  | cons x xs ih =>
    intro c a d hrun hd
    rw [eval_forM_cons] at hrun
    obtain ⟨⟨_, c₁⟩, h₁, hrun⟩ := bind_eq_ok.mp hrun
    exact h x c _ c₁ h₁ (ih c₁ a d hrun hd)

lemma Twins.forM {xs : List γ} {f f' : γ → Run P PUnit} (h : ∀ x, Fades spent (f x))
    (h' : ∀ x, Fades spent (f' x)) (htwins : ∀ x, Twins spent index ticks o o' (f x) (f' x)) :
    Twins spent index ticks o o' (xs.forM f) (xs.forM f') := by
  induction xs with
  | nil =>
    intro c c' a a' d d' hc hrun hrun' _ _
    cases hrun
    cases hrun'
    exact hc
  | cons x xs ih =>
    intro c c' a a' d d' hc hrun hrun' hd hd'
    rw [eval_forM_cons] at hrun hrun'
    obtain ⟨⟨_, c₁⟩, h₁, hrun⟩ := bind_eq_ok.mp hrun
    obtain ⟨⟨_, c₁'⟩, h₁', hrun'⟩ := bind_eq_ok.mp hrun'
    have hcalm := Fades.forM h c₁ a d hrun hd
    have hcalm' := Fades.forM h' c₁' a' d' hrun' hd'
    exact ih c₁ c₁' a a' d d' (htwins x c c' _ _ c₁ c₁' hc h₁ h₁' hcalm hcalm') hrun hrun' hd hd'

lemma perform_fades (s : Stage) (items : List (Placed (Item P))) :
    Fades spent (discard (perform s items)) := by
  intro c u d hrun hd
  obtain ⟨a, hrun⟩ := eval_discard_eq_ok hrun
  rw [eval_perform] at hrun
  exact (played_runSteps hrun).calm hd

lemma playEntry_fades (base : Int) (measure : Option Int) (e : Entry P) :
    Fades spent (playEntry base measure e) := by
  cases e with
  | header b => exact (applyHeader_frames b).fades
  | part id voices =>
    intro c u d hrun hd
    simp only [playEntry, eval_bind, eval_get, ok_bind] at hrun
    split at hrun
    · exact Fades.forM (fun v => perform_fades _ _) c _ d hrun hd
    · cases hrun
      exact hd

lemma applyHeader_twins (b : HeaderBlock P) :
    Twins spent index ticks o o' (applyHeader b) (applyHeader b) := by
  unfold applyHeader
  split
  · intro c c' a a' d d' hc hrun hrun' _ _
    cases hrun
    cases hrun'
    exact { hc with }
  · exact Twins.forM (fun p => (applySetting_frames _ _ _).fades)
      (fun p => (applySetting_frames _ _ _).fades)
      fun p c c' a a' d d' hc hrun hrun' _ _ => hc.applySetting _ _ _ hrun hrun'

lemma playEntry_twins (base : Int) (e : Entry P) :
    Twins spent index ticks o o' (playEntry base (some index) e)
      (playEntry (base + ticks) (some (index + 1)) e) := by
  cases e with
  | header b => exact applyHeader_twins b
  | part id voices =>
    intro c c' a a' d d' hc hrun hrun' hd hd'
    have hinstrument : c'.instrument? id = c.instrument? id := by
      unfold Context.instrument?
      rw [hc.instruments]
    simp only [playEntry, eval_bind, eval_get, ok_bind, hinstrument] at hrun hrun'
    rcases hi : c.instrument? id with _ | i
    · rw [hi] at hrun hrun'
      cases hrun
      cases hrun'
      exact hc
    · rw [hi] at hrun hrun'
      refine Twins.forM (fun v => perform_fades _ _) (fun v => perform_fades _ _) (fun v => ?_)
        c c' a a' d d' hc hrun hrun' hd hd'
      intro c c' a a' d d' hc hrun hrun' hd hd'
      obtain ⟨b, hrun⟩ := eval_discard_eq_ok hrun
      obtain ⟨b', hrun'⟩ := eval_discard_eq_ok hrun'
      exact hc.perform (s := ⟨i, v.voice, base, some index⟩) rfl hrun hrun' hd hd'

/-- **Two passes stay abreast.** -/
lemma playEntries_twins (entries : List (Entry P)) (base : Int) :
    Twins spent index ticks o o' (playEntries entries index base)
      (playEntries entries (index + 1) (base + ticks)) :=
  Twins.forM (fun e => playEntry_fades _ _ e) (fun e => playEntry_fades _ _ e)
    fun e => playEntry_twins base e

end Twins

/-! ### Passes one after the other -/

lemma playEntries_inv {I : Context P → Prop}
    (hheader : ∀ (c : Context P) header reports, I c → I { c with header, reports })
    (hplayed : ∀ steps (c d : Context P), Played steps c d → I c → I d)
    {entries : List (Entry P)} {index base : Int} {c d : Context P} {u : Unit}
    (h : eval (playEntries entries index base) c = .ok (u, d)) (hc : I c) : I d := by
  have hkeeps : Keeps I (fun _ => True) (playEntries entries index base) fun _ => True :=
    Keeps.forM fun e _ => playEntry_keeps_of hheader (perform_keeps_of hplayed) _ _ e
  exact hkeeps.state_of_ok hc h

lemma playEntries_stock {entries : List (Entry P)} {index base : Int} {c d : Context P} {u : Unit}
    (h : eval (playEntries entries index base) c = .ok (u, d)) : d.stock = c.stock := by
  refine playEntries_inv (I := fun d => d.stock = c.stock) (fun _ _ _ hc => hc) ?_ h rfl
  exact fun steps c₁ d₁ hplayed hc => hplayed.stock.trans hc

/-- The states between the passes over a block that is played to its last measure. -/
structure Passes (entries : List (Entry P)) (first : Int) (count : Nat) (σ : Nat → Context P) :
    Prop where
  pass : ∀ k < count, eval (playEntries entries (first + k)
    ((first + k - 1) * (σ k).header.signature.ticks)) (σ k) = .ok ((), σ (k + 1))

lemma playMeasures_passes {entries : List (Entry P)} {count : Nat} {first : Int} {c d : Context P}
    {u : Unit} (h : eval (playMeasures entries count first) c = .ok (u, d))
    (hd : d.timeline.truncated = false) :
    ∃ σ, σ 0 = c ∧ σ count = d ∧ Passes entries first count σ := by
  induction count generalizing first c with
  | zero =>
    obtain rfl : c = d := by simpa [playMeasures] using h
    exact ⟨fun _ => c, rfl, rfl, ⟨by simp⟩⟩
  | succ count ih =>
    simp only [playMeasures, eval_bind, eval_get, ok_bind] at h
    obtain ⟨⟨_, c₁⟩, h₁, h⟩ := bind_eq_ok.mp h
    by_cases hc₁ : c₁.timeline.truncated
    · -- a block that was left early is truncated
      obtain rfl : c₁ = d := by simpa [hc₁] using h
      simp [hc₁] at hd
    · have hrest : eval (playMeasures entries count (first + 1)) c₁ = .ok (u, d) := by
        simpa [hc₁] using h
      obtain ⟨σ, hzero, hlast, hpass⟩ := ih hrest
      refine ⟨fun k => if k = 0 then c else σ (k - 1), by simp, by simpa using hlast, ⟨?_⟩⟩
      rintro (_ | k) hk
      · simpa [hzero] using h₁
      · have := hpass.pass k (by omega)
        simp only [Nat.add_one_ne_zero, if_false, Nat.add_sub_cancel]
        push_cast
        rwa [show first + (k + 1 : Int) = first + 1 + k by omega]

namespace Passes

variable {entries : List (Entry P)} {first : Int} {count : Nat} {σ : Nat → Context P}

lemma calm (h : Passes entries first count σ) {spent : Prop} (hlast : Calm spent (σ count))
    {k : Nat} (hk : k ≤ count) : Calm spent (σ k) := by
  induction hk using Nat.decreasingInduction with
  | self => exact hlast
  | of_succ k hk ih =>
    exact Fades.forM (fun e => playEntry_fades _ _ e) (σ k) () (σ (k + 1)) (h.pass k hk) ih

/-- Calls that are spent stay spent. -/
lemma calls (h : Passes entries first count σ)
    (hfirst : (σ 0).options.maxMacroExpansions ≤ (σ 0).expansions) {k : Nat} (hk : k ≤ count) :
    (σ k).options.maxMacroExpansions ≤ (σ k).expansions := by
  induction k with
  | zero => exact hfirst
  | succ k ih =>
    refine playEntries_inv (I := fun c => c.options.maxMacroExpansions ≤ c.expansions)
      (fun _ _ _ hc => hc) ?_ (h.pass k hk) (ih (by omega))
    intro steps c d hplayed hc
    rw [hplayed.options, hplayed.expansions]
    omega

/-- Where a pass and the next one lead. -/
lemma abreast (h : Passes entries first count σ) {spent : Prop} (hlast : Calm spent (σ count))
    (hspent : spent → (σ 0).options.maxMacroExpansions ≤ (σ 0).expansions) {k : Nat}
    (hk : k + 1 < count) :
    Abreast spent (first + k)
      ((first + k) * (σ (k + 1)).header.signature.ticks -
        (first + k - 1) * (σ k).header.signature.ticks)
      (σ k) (σ (k + 1)) (σ (k + 1)) (σ (k + 2)) := by
  have hpass := h.pass k (by omega)
  have hnext := h.pass (k + 1) hk
  obtain ⟨hoptions, hmacros, hinstruments⟩ : (σ (k + 1)).options = (σ k).options ∧
      (σ (k + 1)).macros = (σ k).macros ∧ (σ (k + 1)).instruments = (σ k).instruments := by
    simpa [Context.stock] using playEntries_stock hpass
  have hstart : Abreast spent (first + k)
      ((first + k) * (σ (k + 1)).header.signature.ticks -
        (first + k - 1) * (σ k).header.signature.ticks)
      (σ k) (σ (k + 1)) (σ k) (σ (k + 1)) :=
    ⟨hoptions.symm, hmacros.symm, hinstruments.symm, .refl _ _, fun _ => .refl _ _,
      fun _ => .refl _ _,
      fun hs => ⟨h.calls (hspent hs) (by omega), h.calls (hspent hs) (by omega)⟩, [], [], by simp⟩
  refine playEntries_twins entries _ (σ k) (σ (k + 1)) () () (σ (k + 1)) (σ (k + 2)) hstart hpass
    ?_ (h.calm hlast (by omega)) (h.calm hlast (by omega))
  push_cast at hnext
  convert hnext using 3
  all_goals ring

end Passes

/-! ### Events of a block -/

/-- The events that were added between two states and belong to a measure, in the order in which
they were made. -/
def emittedAt (c d : Context P) (index : Int) : List Event :=
  (d.timeline.events.drop c.timeline.events.length).filter (·.measure = some index)

/-- Between two states events of the measures from `lo` on and below `hi` were added. -/
def Adds (lo hi : Int) (c d : Context P) : Prop :=
  ∃ new, d.timeline.newest = new ++ c.timeline.newest ∧
    ∀ e ∈ new, ∃ m, e.measure = some m ∧ lo ≤ m ∧ m < hi

lemma Adds.trans {lo mid hi : Int} {c d e : Context P} (h : Adds lo mid c d) (h' : Adds mid hi d e)
    (hlo : lo ≤ mid) (hhi : mid ≤ hi) : Adds lo hi c e := by
  obtain ⟨new, hnew, hm⟩ := h
  obtain ⟨new', hnew', hm'⟩ := h'
  refine ⟨new' ++ new, by rw [hnew', hnew, List.append_assoc], ?_⟩
  simp only [List.forall_mem_append]
  constructor
  · intro e he
    obtain ⟨m, hem, hle, hlt⟩ := hm' e he
    exact ⟨m, hem, by omega, hlt⟩
  · intro e he
    obtain ⟨m, hem, hle, hlt⟩ := hm e he
    exact ⟨m, hem, hle, by omega⟩

lemma filter_measure_eq_nil {es : List Event} {index : Int}
    (h : ∀ e ∈ es, e.measure ≠ some index) : es.filter (·.measure = some index) = [] := by
  simpa using h

/-- The events of one measure are those of the pass over it. -/
lemma emittedAt_eq (lo hi : Int) {index : Int} {c d c' d' : Context P} {new : List Event}
    (hbefore : Adds lo index c c') (hnew : d'.timeline.newest = new ++ c'.timeline.newest)
    (hindex : ∀ e ∈ new, e.measure = some index) (hbehind : Adds (index + 1) hi d' d) :
    emittedAt c d index = new.reverse := by
  obtain ⟨pre, hpre, hm⟩ := hbefore
  obtain ⟨post, hpost, hm'⟩ := hbehind
  have hevents : d.timeline.events =
      c.timeline.events ++ (pre.reverse ++ (new.reverse ++ post.reverse)) := by
    simp [Timeline.events, hpost, hnew, hpre]
  have hpre' : pre.reverse.filter (·.measure = some index) = [] := by
    refine filter_measure_eq_nil fun e he => ?_
    obtain ⟨m, hem, -, hlt⟩ := hm e (List.mem_reverse.mp he)
    rw [hem]
    simp only [ne_eq, Option.some.injEq]
    omega
  have hpost' : post.reverse.filter (·.measure = some index) = [] := by
    refine filter_measure_eq_nil fun e he => ?_
    obtain ⟨m, hem, hle, -⟩ := hm' e (List.mem_reverse.mp he)
    rw [hem]
    simp only [ne_eq, Option.some.injEq]
    omega
  have hnew' : new.reverse.filter (·.measure = some index) = new.reverse := by
    simpa using hindex
  rw [emittedAt, hevents, List.drop_left, List.filter_append, List.filter_append, hpre', hnew',
    hpost', List.nil_append, List.append_nil]

namespace Passes

variable {entries : List (Entry P)} {first : Int} {count : Nat} {σ : Nat → Context P}
  {spent : Prop}

/-- Each pass adds events of its own measure. -/
lemma adds_pass (h : Passes entries first count σ) (hlast : Calm spent (σ count))
    (hspent : spent → (σ 0).options.maxMacroExpansions ≤ (σ 0).expansions) (htwo : 2 ≤ count)
    {k : Nat} (hk : k < count) : Adds (first + k) (first + k + 1) (σ k) (σ (k + 1)) := by
  by_cases hnext : k + 1 < count
  · obtain ⟨new, _, hnew, -, hm, -⟩ := (h.abreast hlast hspent hnext).events
    exact ⟨new, hnew, fun e he => ⟨_, hm e he, by omega, by omega⟩⟩
  · -- the last pass is the second one of a pair
    obtain ⟨j, rfl⟩ : ∃ j, k = j + 1 := ⟨k - 1, by omega⟩
    obtain ⟨_, new, -, hnew, -, hm, -⟩ := (h.abreast hlast hspent (k := j) (by omega)).events
    refine ⟨new, hnew, fun e he => ⟨_, hm e he, ?_, ?_⟩⟩ <;> push_cast <;> omega

lemma adds (h : Passes entries first count σ) (hlast : Calm spent (σ count))
    (hspent : spent → (σ 0).options.maxMacroExpansions ≤ (σ 0).expansions) (htwo : 2 ≤ count)
    {j k : Nat} (hjk : j ≤ k) (hk : k ≤ count) : Adds (first + j) (first + k) (σ j) (σ k) := by
  induction k, hjk using Nat.le_induction with
  | base => exact ⟨[], by simp⟩
  | succ k hjk ih =>
    push_cast
    rw [← Int.add_assoc]
    exact (ih (by omega)).trans (h.adds_pass hlast hspent htwo (by omega)) (by omega) (by omega)

/-- After the first pass the time signature stays. -/
lemma time (h : Passes entries first count σ) (hlast : Calm spent (σ count))
    (hspent : spent → (σ 0).options.maxMacroExpansions ≤ (σ 0).expansions) {k : Nat}
    (hk : k + 1 ≤ count) : (σ (k + 1)).header.signature = (σ 1).header.signature := by
  induction k with
  | zero => rfl
  | succ k ih =>
    have hsame := (h.abreast hlast hspent (k := k) (by omega)).time.eq_of_chain
    rw [← ih (by omega), Header.signature, Header.signature, hsame]

/-- **From the second pass on, each pass adds what the one before has added, one measure
later.** -/
lemma periodic (h : Passes entries first count σ) (hlast : Calm spent (σ count))
    (hspent : spent → (σ 0).options.maxMacroExpansions ≤ (σ 0).expansions) {k : Nat}
    (hk : k + 2 < count) :
    emittedAt (σ 0) (σ count) (first + k + 2) =
      (emittedAt (σ 0) (σ count) (first + k + 1)).map
        (·.inNextMeasure (σ 1).header.signature.ticks) := by
  have habreast := h.abreast hlast hspent (k := k + 1) hk
  have hsettled := h.abreast hlast hspent (k := k) (by omega)
  have halike : Alike (σ (k + 1)) (σ (k + 2)) := fun key =>
    ⟨(hsettled.octave key).eq_of_chain, (hsettled.duration key).eq_of_chain⟩
  obtain ⟨new, new', hnew, hnew', hm, hm', hsame⟩ := habreast.events
  have hadds {i j : Nat} (hij : i ≤ j) (hj : j ≤ count) := h.adds hlast hspent (by omega) hij hj
  have hfirst : emittedAt (σ 0) (σ count) (first + k + 1) = new.reverse := by
    refine emittedAt_eq first (first + count) ?_ hnew ?_ ?_
    · simpa [Int.add_assoc] using hadds (i := 0) (j := k + 1) (by omega) (by omega)
    · simpa [Int.add_assoc] using hm
    · simpa [Int.add_assoc] using hadds (i := k + 2) (j := count) (by omega) (by omega)
  have hsecond : emittedAt (σ 0) (σ count) (first + k + 2) = new'.reverse := by
    refine emittedAt_eq first (first + count) ?_ hnew' ?_ ?_
    · simpa [Int.add_assoc] using hadds (i := 0) (j := k + 2) (by omega) (by omega)
    · simpa [Int.add_assoc] using hm'
    · simpa [Int.add_assoc] using hadds (i := k + 3) (j := count) (by omega) (by omega)
  have hticks : (first + (k + 1 : Nat)) * (σ (k + 2)).header.signature.ticks -
      (first + (k + 1 : Nat) - 1) * (σ (k + 1)).header.signature.ticks =
      (σ 1).header.signature.ticks := by
    rw [h.time hlast hspent (k := k + 1) (by omega), h.time hlast hspent (k := k) (by omega)]
    ring
  rw [hfirst, hsecond, hsame halike, hticks, List.map_reverse]

end Passes

/-! ### Blocks -/

/-- A block with a body and a range plays its entries in as many measures as are allowed. -/
lemma playMeasure_eq_ok {b : MeasureBlock P} {body : List (Token P)} {first last : Int}
    {c d : Context P} (hbody : b.body = some body)
    (hrange : rangeOf b = .ok (some (first, last))) (hrun : (playMeasure b).run c = .ok () d) :
    ∃ reports, eval (playMeasures (readEntries c.defines body)
      (min (span first last) c.options.maxMeasureSpan) first) { c with reports } =
      .ok ((), d) := by
  have h := eval_eq_ok.mpr hrun
  simp only [playMeasure, hbody, hrange, eval_bind, eval_placed, eval_lift, ok_map, ok_bind,
    eval_get] at h
  split at h
  · simp only [eval_bind, eval_report, ok_bind, eval_get, eval_placed] at h
    exact ⟨_, h⟩
  · simp only [eval_bind, ok_bind, eval_get, eval_placed] at h
    exact ⟨c.reports, h⟩

/-- Where there is no room, a block adds nothing. -/
lemma playMeasures_full {entries : List (Entry P)} {count : Nat} {first : Int} {c d : Context P}
    {u : Unit} (h : eval (playMeasures entries count first) c = .ok (u, d))
    (hroom : c.timeline.room = 0) : d.timeline.newest = c.timeline.newest := by
  have hperform := perform_keeps_of (P := P)
    (I := fun d => d.timeline.room = 0 ∧ d.timeline.newest = c.timeline.newest)
    fun steps c₁ d₁ hplayed hc => by
      obtain ⟨hroom, hnewest⟩ := hplayed.full hc.1
      exact ⟨hroom, hnewest.trans hc.2⟩
  have hkeeps := playMeasures_keeps_of (fun _ _ _ hc => hc) hperform entries count first
  exact (hkeeps.state_of_ok ⟨hroom, rfl⟩ h).2

lemma emittedAt_eq_nil {c d : Context P} (h : d.timeline.newest = c.timeline.newest)
    (index : Int) : emittedAt c d index = [] := by
  have hdrop : d.timeline.events.drop c.timeline.events.length = [] := by
    simp [Timeline.events, h, List.drop_eq_nil_of_le]
  rw [emittedAt, hdrop, List.filter_nil]

/-- **Replay is periodic.** In a block that is played without meeting the limit on events or on
macro calls for the first time, the events of every measure after the first two are those of the
measure before, later by the length of a measure. That length is the one in force behind the
first measure, in the state `c₁`. -/
theorem playMeasure_periodic {c d : Context P} {b : MeasureBlock P} {body : List (Token P)}
    {first last : Int} (hc : c.Reachable) (hbody : b.body = some body)
    (hrange : rangeOf b = .ok (some (first, last))) (hrun : (playMeasure b).run c = .ok () d)
    (hroom : d.timeline.truncated = true → c.timeline.truncated = true)
    (hbudget : ∀ n, .macroBudget n ∈ d.once → .macroBudget n ∈ c.once) :
    ∃ reports c₁,
      (0 < min (span first last) c.options.maxMeasureSpan →
        (playEntries (readEntries c.defines body) first
          ((first - 1) * c.header.signature.ticks)).run { c with reports } = .ok () c₁) ∧
      ∀ i, first < i → i + 1 < first + min (span first last) c.options.maxMeasureSpan →
        emittedAt c d (i + 1) =
          (emittedAt c d i).map (·.inNextMeasure c₁.header.signature.ticks) := by
  obtain ⟨reports, hplay⟩ := playMeasure_eq_ok hbody hrange hrun
  refine ⟨reports, ?_⟩
  generalize min (span first last) c.options.maxMeasureSpan = count at *
  by_cases htruncated : c.timeline.truncated
  · -- no room is left, and no events are added
    have hnil := emittedAt_eq_nil (playMeasures_full hplay (hc.spent.room htruncated))
    have hnil' (i : Int) : emittedAt c d i = [] := hnil i
    cases count with
    | zero => exact ⟨c, by simp, fun i _ _ => by simp [hnil']⟩
    | succ count =>
      simp only [playMeasures, eval_bind, eval_get, ok_bind] at hplay
      obtain ⟨⟨_, c₁⟩, h₁, -⟩ := bind_eq_ok.mp hplay
      exact ⟨c₁, fun _ => eval_eq_ok.mp h₁, fun i _ _ => by simp [hnil']⟩
  · have hd : d.timeline.truncated = false := by
      by_contra hd
      exact htruncated (hroom (by simpa using hd))
    obtain ⟨σ, hzero, hlast, hpasses⟩ := playMeasures_passes hplay hd
    have hcalm : Calm (∃ n, .macroBudget n ∈ c.once) (σ count) := by
      rw [hlast]
      refine ⟨hd, ?_⟩
      by_cases hspent : ∃ n, .macroBudget n ∈ c.once
      · exact .inl hspent
      · exact .inr fun n hn => hspent ⟨n, hbudget n hn⟩
    have hspent : (∃ n, .macroBudget n ∈ c.once) →
        (σ 0).options.maxMacroExpansions ≤ (σ 0).expansions := by
      rintro ⟨n, hn⟩
      rw [hzero]
      exact hc.spent.budget n hn
    refine ⟨σ 1, fun hcount => ?_, fun i hfirst hi => ?_⟩
    · have hpass := hpasses.pass 0 hcount
      rw [hzero] at hpass
      exact eval_eq_ok.mp (by simpa using hpass)
    · obtain ⟨k, rfl⟩ : ∃ k : Nat, i = first + k + 1 := ⟨(i - first - 1).toNat, by omega⟩
      have hperiodic := hpasses.periodic hcalm hspent (k := k) (by omega)
      rw [hzero, hlast] at hperiodic
      rw [show first + k + 1 + 1 = first + k + 2 by omega]
      exact hperiodic

/-- Entries that change the time signature and leave another octave behind. -/
def waltzBody : List (Token Nat) :=
  tokenize "meta \x7b time: \"3/4\" \x7d p: \x7b a: e:8 $M(c5) | b: [g b3] \x7d"

def waltz : MeasureBlock Nat := ⟨none, some ⟨.symbol "1-4", 0⟩, some waltzBody⟩

def waltzParts : List (Declaration Nat) :=
  readDocument (tokenize "def p macro M(x) = \x7b $x d \x7d")

theorem playMeasure_periodic_waltz :
    ∃ (c d : Context Nat) (reports : List (Report Nat)) (c₁ : Context Nat),
      c.Reachable ∧ (playMeasure waltz).run c = .ok () d ∧ d.timeline.truncated = false ∧
      d.once = [] ∧ (emittedAt c d 2).length = 4 ∧
      (playEntries (readEntries c.defines waltzBody) 1 0).run { c with reports } =
        .ok () c₁ ∧
      emittedAt c d 3 = (emittedAt c d 2).map (·.inNextMeasure c₁.header.signature.ticks) ∧
      emittedAt c d 4 = (emittedAt c d 3).map (·.inNextMeasure c₁.header.signature.ticks) := by
  have hbool : passes (declareAll waltzParts) (.start {} .shipped) (fun _ c =>
      passes (playMeasure waltz) c fun _ d => !d.timeline.truncated && d.once.isEmpty &&
        (emittedAt c d 2).length == 4 && c.options.maxMeasureSpan == 4096) = true := by
    decide +kernel
  obtain ⟨_, c, hparts, hplays⟩ := exists_of_passes hbool
  obtain ⟨_, d, hrun, hchecks⟩ := exists_of_passes hplays
  simp only [Bool.and_eq_true, beq_iff_eq, Bool.not_eq_true', List.isEmpty_iff] at hchecks
  obtain ⟨⟨⟨htruncated, honce⟩, hlength⟩, hspan⟩ := hchecks
  have hrange : rangeOf waltz = .ok (some (1, 4)) := by decide +kernel
  obtain ⟨reports, c₁, hfirst, hperiodic⟩ := playMeasure_periodic ⟨{}, .shipped, _, hparts⟩
    rfl hrange hrun (by simp [htruncated]) (by simp [honce])
  rw [hspan] at hfirst hperiodic
  exact ⟨c, d, reports, c₁, ⟨{}, .shipped, _, hparts⟩, hrun, htruncated, honce, hlength,
    by simpa using hfirst (by decide), hperiodic 2 (by decide) (by decide),
    hperiodic 3 (by decide) (by decide)⟩

end Partitura
