import Partitura.Proofs.Line
import Partitura.Proofs.Replay
import Partitura.Proofs.Settings
import Partitura.Proofs.WellFormed

/-!
A limit on events cuts off the last ones and does nothing else.

Two compilations under a smaller and a larger limit are followed side by side (`Trails`). Up to
the first event that the smaller limit refuses they do the same. From there on they part: the
cursors and the count of calls differ, and a block is not played again under the smaller limit.
Nothing that is declared depends on these, and the settings in a block come to the same however
often it is played, so only the list of events goes on under the larger limit.
-/

namespace Partitura

open Number Run

variable {P α β γ : Type}

/-! ### Two timelines -/

/-- Two timelines, the second with more room. They hold the same events until one is refused on
the first, and `same` is what the two runs share that long. -/
inductive Course (same : Prop) (t t' : Timeline) : Prop
  | level (newest : t.newest = t'.newest) (room : t.room ≤ t'.room)
      (truncated : t.truncated = false) (truncated' : t'.truncated = false) (same : same)
  | cut (truncated : t.truncated = true) (room : t.room = 0) (newest : t.newest <:+ t'.newest)

namespace Course

variable {same same' : Prop} {t t' : Timeline}

lemma imp (h : Course same t t') (himp : same → same') : Course same' t t' := by
  cases h with
  | level newest room truncated truncated' hsame =>
    exact .level newest room truncated truncated' (himp hsame)
  | cut truncated room newest => exact .cut truncated room newest

/-- The same events come to both. -/
lemma addAll_level (newest : t.newest = t'.newest) (room : t.room ≤ t'.room)
    (truncated : t.truncated = false) (truncated' : t'.truncated = false) (hsame : same)
    (es : List Event) : Course same (t.addAll es) (t'.addAll es) := by
  by_cases hes : es.length ≤ t.room
  · refine .level ?_ ?_ ?_ ?_ hsame
    · rw [Timeline.addAll_newest, Timeline.addAll_newest, List.take_of_length_le hes,
        List.take_of_length_le (hes.trans room), newest]
    · rw [Timeline.addAll_room, Timeline.addAll_room]
      omega
    · simp [Timeline.addAll_truncated, truncated, hes]
    · simp [Timeline.addAll_truncated, truncated', hes.trans room]
  · refine .cut ?_ ?_ ?_
    · simp [Timeline.addAll_truncated, Nat.lt_of_not_le hes]
    · rw [Timeline.addAll_room]
      omega
    · -- what the first takes is the beginning of what the second takes
      have htake : es.take t'.room = es.take t.room ++ (es.take t'.room).drop t.room := by
        conv_lhs => rw [← List.take_append_drop t.room (es.take t'.room), List.take_take,
          Nat.min_eq_left room]
      rw [Timeline.addAll_newest, Timeline.addAll_newest, newest, htake, List.reverse_append,
        List.append_assoc]
      exact List.suffix_append _ _

/-- Once the first is full, it does not matter what comes to either. -/
lemma addAll_cut (truncated : t.truncated = true) (room : t.room = 0)
    (newest : t.newest <:+ t'.newest) (es es' : List Event) :
    Course same (t.addAll es) (t'.addAll es') := by
  refine .cut ?_ ?_ ?_
  · simp [Timeline.addAll_truncated, truncated]
  · rw [Timeline.addAll_room, room, Nat.zero_sub]
  · rw [Timeline.addAll_newest, Timeline.addAll_newest, room, List.take_zero]
    exact newest.trans (List.suffix_append _ _)

end Course

/-! ### Two states -/

/-- A state under a smaller limit on events beside one under a larger limit. -/
structure Trails (c c' : Context P) : Prop where
  depth : c.options.maxMacroDepth = c'.options.maxMacroDepth
  calls : c.options.maxMacroExpansions = c'.options.maxMacroExpansions
  span : c.options.maxMeasureSpan = c'.options.maxMeasureSpan
  library : c.library = c'.library
  header : c.header = c'.header
  macros : c.macros = c'.macros
  instruments : c.instruments = c'.instruments
  groups : c.groups = c'.groups
  course : Course (c.expansions = c'.expansions ∧ Alike c c') c.timeline c'.timeline

namespace Trails

variable {c c' d d' : Context P}

lemma defines_eq (h : Trails c c') : c.defines = c'.defines := by
  funext id
  rw [Context.defines, Context.defines, h.instruments]

lemma instrument?_eq (h : Trails c c') : c.instrument? = c'.instrument? := by
  funext id
  rw [Context.instrument?, Context.instrument?, h.instruments]

/-- As long as no event was refused, a stream has one script in both. -/
lemma scriptOf_eq (h : Trails c c') (hcalls : c.expansions = c'.expansions)
    (items : List (Placed (Item P))) : scriptOf c items = scriptOf c' items := by
  rw [scriptOf, scriptOf, h.macros, h.depth, h.calls, hcalls]

end Trails

lemma Sung.alike {key : VoiceKey} {line : Line} {calls calls' : Nat} {c d c' d' : Context P}
    (h : Sung key line calls c d) (h' : Sung key line calls' c' d') (halike : Alike c c') :
    Alike d d' := by
  intro k
  by_cases hk : k = key
  · rw [hk, h.octave, h'.octave, h.duration, h'.duration]
    exact ⟨rfl, rfl⟩
  · rw [h.cursor_of_ne hk, h'.cursor_of_ne hk]
    exact halike k

namespace Run

/-- If the run succeeds under both limits, it gives one result, and the states stay side by
side. -/
def Tracks (x : Run P α) : Prop :=
  ∀ ⦃c c' : Context P⦄ ⦃a a' : α⦄ ⦃d d' : Context P⦄, Trails c c' → eval x c = .ok (a, d) →
    eval x c' = .ok (a', d') → a = a' ∧ Trails d d'

namespace Tracks

lemma pure (a : α) : Tracks (pure a : Run P α) := by
  rintro c c' _ _ _ _ h ⟨⟩ ⟨⟩
  exact ⟨rfl, h⟩

lemma lift (x : Except Fault α) : Tracks (lift x : Run P α) := by
  rcases x with f | a
  · rintro c c' _ _ _ _ h ⟨⟩
  · exact .pure a

lemma modify {f : Context P → Context P} (hf : ∀ c c', Trails c c' → Trails (f c) (f c')) :
    Tracks (modify f) := by
  rintro c c' _ _ _ _ h ⟨⟩ ⟨⟩
  exact ⟨rfl, hf c c' h⟩

lemma bind {x : Run P α} {f : α → Run P β} (hx : Tracks x) (hf : ∀ a, Tracks (f a)) :
    Tracks (x >>= f) := by
  intro c c' b b' d d' h hrun hrun'
  rw [eval_bind] at hrun hrun'
  obtain ⟨⟨a, e⟩, hx₁, hf₁⟩ := bind_eq_ok.mp hrun
  obtain ⟨⟨a', e'⟩, hx₂, hf₂⟩ := bind_eq_ok.mp hrun'
  obtain ⟨rfl, he⟩ := hx h hx₁ hx₂
  exact hf a he hf₁ hf₂

/-- What is looked at has to be the same in both states. -/
lemma get_bind {f : Context P → Run P α} (hcongr : ∀ c c', Trails c c' → f c = f c')
    (hf : ∀ c, Tracks (f c)) : Tracks (get >>= f) := by
  intro c c' b b' d d' h hrun hrun'
  rw [eval_bind, eval_get, ok_bind] at hrun hrun'
  rw [← hcongr c c' h] at hrun'
  exact hf c h hrun hrun'

lemma placed {x : Run P α} {place : Place} (hx : Tracks x) : Tracks (placed place x) := by
  intro c c' a a' d d' h hrun hrun'
  rw [eval_placed] at hrun hrun'
  exact hx h hrun hrun'

lemma discard {x : Run P α} (hx : Tracks x) : Tracks (discard x) := by
  intro c c' a a' d d' h hrun hrun'
  obtain ⟨b, hrun⟩ := eval_discard_eq_ok hrun
  obtain ⟨b', hrun'⟩ := eval_discard_eq_ok hrun'
  exact ⟨rfl, (hx h hrun hrun').2⟩

lemma forM {xs : List γ} {f : γ → Run P PUnit} (hf : ∀ x, Tracks (f x)) : Tracks (xs.forM f) := by
  induction xs with
  | nil => exact .pure _
  | cons x xs ih => exact (hf x).bind fun _ => ih

lemma foldlM {xs : List γ} {f : β → γ → Run P β} (b : β) (hf : ∀ b x, Tracks (f b x)) :
    Tracks (xs.foldlM f b) := by
  induction xs generalizing b with
  | nil => exact .pure b
  | cons x xs ih =>
    rw [List.foldlM_cons]
    exact (hf b x).bind ih

lemma report (issue : Issue) (t : Option (Token P)) : Tracks (report issue t) :=
  .modify fun _ _ h => { h with }

end Tracks

/-! ### Declarations -/

lemma applySetting_tracks (key value : String) (t : Option (Token P)) :
    Tracks (applySetting key value t) := by
  refine .get_bind (fun c c' h => by simp only [h.header]) fun c => ?_
  refine .bind (.modify fun _ _ h => { h with header := rfl }) fun _ => ?_
  split
  · exact .report _ _
  · exact .pure _

lemma applyHeader_tracks (b : HeaderBlock P) : Tracks (applyHeader b) := by
  unfold applyHeader
  split
  · exact .report _ _
  · exact .forM fun p => applySetting_tracks _ _ _

lemma search_tracks {α : Type} (s : Search α) : Tracks (search (P := P) s) := by
  have consulted {β : Type} (look : Library → Except Fault (β × Library)) :
      Tracks (consult (P := P) look) :=
    .get_bind (fun c c' h => by simp only [h.library]) fun _ => .bind (.lift _) fun _ =>
      .bind (.modify fun _ _ h => { h with library := rfl }) fun _ => .pure _
  cases s with
  | written found => exact .lift found
  | kit name g => exact .bind (consulted _) fun _ => .pure _
  | tuning name g => exact .bind (consulted _) fun _ => .pure _

lemma setAttribute_tracks (i : Instrument) (a : Attribute P) : Tracks (setAttribute i a) := by
  obtain ⟨key, value, t⟩ := a
  obtain ⟨s, issue, -, -, hset⟩ := exists_setBy i key value
  rw [hset]
  refine .bind (search_tracks s) fun found => ?_
  cases found with
  | some j => exact .pure j
  | none => exact .bind (.report issue _) fun _ => .pure i

/-- The voices of an instrument that is defined have no cursor; all others keep theirs. -/
lemma cursor_register (c : Context P) (id : String) (key : VoiceKey) :
    { c with cursors := c.cursors.filter (·.1.instrument ≠ id) }.cursor key =
      if key.instrument = id then {} else c.cursor key := by
  simp only [Context.cursor, List.find?_filter]
  split
  · rename_i hid
    have hnone : c.cursors.find? (fun p => decide (decide (p.1.instrument ≠ id) = true ∧
        (p.1 == key) = true)) = none := by
      rw [List.find?_eq_none]
      rintro ⟨k, _⟩ - h
      have hk : k.instrument ≠ id ∧ k = key := by simpa using h
      exact hk.1 (hk.2 ▸ hid)
    rw [hnone]
    rfl
  · rename_i hid
    congr 3
    funext p
    by_cases hp : p.1 = key
    · simp [hp, hid]
    · simp [hp]

lemma register_tracks (id : String) : Tracks (register id : Run P Unit) := by
  refine .modify fun c c' h => { h with course := h.course.imp ?_ }
  rintro ⟨hcalls, halike⟩
  refine ⟨hcalls, fun key => ?_⟩
  rw [cursor_register, cursor_register]
  split
  · exact ⟨rfl, rfl⟩
  · exact halike key

lemma defineInstrument_tracks (group : Option String) (b : InstrumentBlock P) :
    Tracks (defineInstrument group b) := by
  unfold defineInstrument
  split
  · exact .bind (.report _ _) fun _ => .pure _
  · refine .bind (.foldlM _ fun i a => setAttribute_tracks i a) fun i =>
      .get_bind (fun c c' h => by simp only [h.defines_eq]) fun c => ?_
    split
    · exact .bind (.report _ _) fun _ => .pure _
    · refine .bind (.modify fun c c' h => ?_) fun _ => .bind (register_tracks _) fun _ => .pure _
      exact { h with instruments := by simp only [h.instruments] }

lemma defineGroup_tracks (b : GroupBlock P) : Tracks (defineGroup b) := by
  unfold defineGroup
  split
  · exact .report _ _
  · refine .bind (.foldlM _ fun members p => ?_) fun _ =>
      .modify fun c c' h => { h with groups := by simp only [h.groups] }
    refine .bind (defineInstrument_tracks _ p.1).placed fun i => ?_
    split <;> exact .pure _

lemma defineMacro_tracks (b : MacroBlock P) : Tracks (defineMacro b) := by
  have params : Tracks (declareParams b.name b.params) := by
    refine .foldlM _ fun names t => ?_
    dsimp only
    split
    · exact .bind (.report _ _) fun _ => .pure _
    · exact .pure _
  refine .bind params fun params => ?_
  split
  · exact .bind (.report _ _) fun _ => .pure _
  · exact .bind (.modify fun c c' h => { h with macros := by simp only [h.macros] }) fun _ =>
      .pure _

/-! ### Voices -/

/-- A voice plays one line under both limits, until an event is refused. -/
lemma perform_tracks (s : Stage) (items : List (Placed (Item P))) :
    Tracks (Functor.discard (perform s items)) := by
  intro c c' a a' d d' h hrun hrun'
  obtain ⟨tick, hrun⟩ := eval_discard_eq_ok hrun
  obtain ⟨tick', hrun'⟩ := eval_discard_eq_ok hrun'
  rw [eval_perform] at hrun hrun'
  obtain ⟨line, hline, -, hsung⟩ := line_of_runSteps hrun
  obtain ⟨line', hline', -, hsung'⟩ := line_of_runSteps hrun'
  have course : Course (d.expansions = d'.expansions ∧ Alike d d') d.timeline d'.timeline := by
    rw [hsung.timeline, hsung'.timeline]
    cases h.course with
    | level newest room truncated truncated' same =>
      obtain ⟨hcalls, halike⟩ := same
      have hscript := h.scriptOf_eq hcalls items
      obtain rfl : line = line' := by
        rw [Context.recite, ← hscript, ← (halike s.key).1, ← (halike s.key).2, ← Context.recite,
          hline] at hline'
        exact Except.ok.inj hline'
      refine .addAll_level newest room truncated truncated' ⟨?_, hsung.alike hsung' halike⟩ _
      rw [hsung.expansions, hsung'.expansions, hcalls, hscript]
    | cut truncated room newest => exact .addAll_cut truncated room newest _ _
  refine ⟨rfl, ⟨?_, ?_, ?_, ?_, ?_, ?_, ?_, ?_, course⟩⟩
  · rw [hsung.options, hsung'.options, h.depth]
  · rw [hsung.options, hsung'.options, h.calls]
  · rw [hsung.options, hsung'.options, h.span]
  · rw [hsung.library, hsung'.library, h.library]
  · rw [hsung.header, hsung'.header, h.header]
  · rw [hsung.macros, hsung'.macros, h.macros]
  · rw [hsung.instruments, hsung'.instruments, h.instruments]
  · rw [hsung.groups, hsung'.groups, h.groups]

lemma playEntry_tracks (base : Int) (measure : Option Int) (e : Entry P) :
    Tracks (playEntry base measure e) := by
  cases e with
  | header b => exact applyHeader_tracks b
  | part id voices =>
    refine .get_bind (fun c c' h => by simp only [h.instrument?_eq]) fun c => ?_
    split
    · exact .forM fun v => perform_tracks _ _
    · exact .pure _

lemma playEntries_tracks (entries : List (Entry P)) (index base : Int) :
    Tracks (playEntries entries index base) :=
  .forM fun e => playEntry_tracks base (some index) e

end Run

/-! ### Measures -/

def Entry.settings : Entry P → List (String × String)
  | .header b => (b.settings.getD []).map fun p => (p.1.value, p.2)
  | .part _ _ => []

structure Grows (settings : List (String × String)) (c d : Context P) : Prop where
  options : d.options = c.options
  library : d.library = c.library
  header : d.header = c.header.applyAll settings
  macros : d.macros = c.macros
  instruments : d.instruments = c.instruments
  groups : d.groups = c.groups
  events : c.timeline.newest <:+ d.timeline.newest

namespace Grows

variable {settings settings' : List (String × String)} {c d e : Context P}

lemma refl (c : Context P) : Grows [] c c :=
  ⟨rfl, rfl, rfl, rfl, rfl, rfl, List.suffix_refl _⟩

lemma trans (h : Grows settings c d) (h' : Grows settings' d e) :
    Grows (settings ++ settings') c e where
  options := h'.options.trans h.options
  library := h'.library.trans h.library
  header := by
    rw [h'.header, h.header, Header.applyAll, Header.applyAll, Header.applyAll, List.foldl_append]
  macros := h'.macros.trans h.macros
  instruments := h'.instruments.trans h.instruments
  groups := h'.groups.trans h.groups
  events := h.events.trans h'.events

lemma forM {xs : List γ} {f : γ → Run P PUnit} {settings : γ → List (String × String)}
    (hf : ∀ x c d u, eval (f x) c = .ok (u, d) → Grows (settings x) c d) {c d : Context P}
    {u : PUnit} (h : eval (xs.forM f) c = .ok (u, d)) : Grows (xs.flatMap settings) c d := by
  induction xs generalizing c with
  | nil =>
    cases h
    exact .refl _
  | cons x xs ih =>
    rw [eval_forM_cons] at h
    obtain ⟨⟨_, e⟩, hx, hxs⟩ := bind_eq_ok.mp h
    rw [List.flatMap_cons]
    exact (hf x c e _ hx).trans (ih hxs)

end Grows

/-- Once an event was refused under the smaller limit, the other run may go on alone. -/
lemma Trails.grows {c c' d' : Context P} (h : Trails c c') (truncated : c.timeline.truncated = true)
    (room : c.timeline.room = 0) (newest : c.timeline.newest <:+ c'.timeline.newest)
    (hd' : Grows [] c' d') : Trails c d' where
  depth := by rw [hd'.options, h.depth]
  calls := by rw [hd'.options, h.calls]
  span := by rw [hd'.options, h.span]
  library := h.library.trans hd'.library.symm
  header := h.header.trans hd'.header.symm
  macros := h.macros.trans hd'.macros.symm
  instruments := h.instruments.trans hd'.instruments.symm
  groups := h.groups.trans hd'.groups.symm
  course := .cut truncated room (newest.trans hd'.events)

lemma Sung.grows {key : VoiceKey} {line : Line} {calls : Nat} {c d : Context P}
    (h : Sung key line calls c d) : Grows [] c d where
  options := h.options
  library := h.library
  header := h.header
  macros := h.macros
  instruments := h.instruments
  groups := h.groups
  events := by
    rw [h.timeline, Timeline.addAll_newest]
    exact List.suffix_append _ _

namespace Run

lemma applyHeader_grows {b : HeaderBlock P} {c d : Context P} {u : Unit}
    (h : eval (applyHeader b) c = .ok (u, d)) : Grows (Entry.header b).settings c d := by
  unfold applyHeader at h
  cases hb : b.settings with
  | none =>
    simp only [hb] at h
    cases h
    simpa [Entry.settings, hb] using { Grows.refl c with }
  | some settings =>
    simp only [hb] at h
    have hone (p : Token P × String) (c d : Context P) (u : Unit)
        (hp : eval (applySetting p.1.value p.2 (some p.1)) c = .ok (u, d)) :
        Grows [(p.1.value, p.2)] c d := by
      obtain ⟨reports, rfl⟩ := applySetting_cases hp
      exact ⟨rfl, rfl, rfl, rfl, rfl, rfl, List.suffix_refl _⟩
    simpa [Entry.settings, hb, List.map_eq_flatMap] using Grows.forM hone h

lemma playEntry_grows {base : Int} {measure : Option Int} (e : Entry P) (c d : Context P) (u : Unit)
    (h : eval (playEntry base measure e) c = .ok (u, d)) : Grows e.settings c d := by
  cases e with
  | header b => exact applyHeader_grows h
  | part id voices =>
    simp only [playEntry, eval_bind, eval_get, ok_bind] at h
    cases hi : c.instrument? id with
    | none =>
      rw [hi] at h
      cases h
      exact .refl c
    | some i =>
      rw [hi] at h
      have hone (v : VoiceStream P) (c d : Context P) (u : PUnit)
          (hv : eval (Functor.discard (perform ⟨i, v.voice, base, measure⟩ v.items)) c =
            .ok (u, d)) : Grows [] c d := by
        obtain ⟨tick, hv⟩ := eval_discard_eq_ok hv
        rw [eval_perform] at hv
        obtain ⟨line, -, -, hsung⟩ := line_of_runSteps hv
        exact hsung.grows
      have hall := Grows.forM hone h
      rw [List.flatMap_eq_nil_iff.mpr fun _ _ => rfl] at hall
      exact hall

/-- A block that was played before grows the list of events and does nothing else. -/
lemma playMeasures_grows {entries : List (Entry P)} {count : Nat} {index : Int} {c d : Context P}
    {u : Unit} (hheader : c.header.applyAll (entries.flatMap Entry.settings) = c.header)
    (h : eval (playMeasures entries count index) c = .ok (u, d)) : Grows [] c d := by
  induction count generalizing index c with
  | zero =>
    cases h
    exact .refl _
  | succ count ih =>
    simp only [playMeasures, eval_bind, eval_get, ok_bind] at h
    obtain ⟨⟨_, c₁⟩, hpass, h⟩ := bind_eq_ok.mp h
    have hgrows := Grows.forM playEntry_grows hpass
    have hsame : c₁.header = c.header := hgrows.header.trans hheader
    have hfirst : Grows [] c c₁ := { hgrows with header := hsame }
    by_cases hfull : c₁.timeline.truncated
    · obtain rfl : c₁ = d := by simpa [hfull] using h
      exact hfirst
    · have hrest : eval (playMeasures entries count (index + 1)) c₁ = .ok (u, d) := by
        simpa [hfull] using h
      exact hfirst.trans (ih (by rw [hsame, hheader]) hrest)

/-- **A block is played under both limits** up to the first event that is refused; then it is
played on under the larger one. -/
lemma playMeasures_tracks (entries : List (Entry P)) (count : Nat) (index : Int) :
    Tracks (playMeasures entries count index) := by
  induction count generalizing index with
  | zero => exact .pure _
  | succ count ih =>
    intro c c' a a' d d' h hrun hrun'
    simp only [playMeasures, eval_bind, eval_get, ok_bind] at hrun hrun'
    obtain ⟨⟨_, c₁⟩, hpass, hrun⟩ := bind_eq_ok.mp hrun
    obtain ⟨⟨_, c₁'⟩, hpass', hrun'⟩ := bind_eq_ok.mp hrun'
    rw [h.header] at hpass
    have h₁ := (playEntries_tracks entries index _ h hpass hpass').2
    cases h₁.course with
    | level newest room truncated truncated' same =>
      refine ih (index + 1) h₁ ?_ ?_
      · simpa [truncated] using hrun
      · simpa [truncated'] using hrun'
    | cut truncated room newest =>
      refine ⟨rfl, ?_⟩
      obtain rfl : c₁ = d := by simpa [truncated] using hrun
      by_cases hfull : c₁'.timeline.truncated
      · obtain rfl : c₁' = d' := by simpa [hfull] using hrun'
        exact h₁
      · -- the settings of the block are in force already
        have hheader : c₁'.header.applyAll (entries.flatMap Entry.settings) = c₁'.header := by
          rw [(Grows.forM playEntry_grows hpass').header, Header.applyAll_applyAll]
        have hgrows : Grows [] c₁' d' := by
          have hrest : eval (playMeasures entries count (index + 1)) c₁' = .ok (a', d') := by
            simpa [hfull] using hrun'
          exact playMeasures_grows hheader hrest
        exact h₁.grows truncated room newest hgrows

lemma playMeasure_tracks (b : MeasureBlock P) : Tracks (playMeasure b) := by
  refine .bind (Tracks.lift _).placed fun range => ?_
  split
  · exact .report _ _
  · exact .report _ _
  · refine .get_bind (fun c c' h => by simp only [h.span]) fun c => ?_
    dsimp only
    split
    · exact .bind (.report _ _) fun _ => .get_bind (fun c c' h => by simp only [h.defines_eq])
        fun _ => (playMeasures_tracks _ _ _).placed
    · exact .get_bind (fun c c' h => by simp only [h.defines_eq])
        fun _ => (playMeasures_tracks _ _ _).placed

lemma declare_tracks (d : Declaration P) : Tracks (declare d) := by
  cases d with
  | header b => exact applyHeader_tracks b
  | group b => exact defineGroup_tracks b
  | instrument b => exact (defineInstrument_tracks none b).discard
  | template b => exact (defineMacro_tracks b).discard
  | measure b => exact playMeasure_tracks b

end Run

/-! ### Compilations -/

lemma Trails.start (o : Options) {n m : Nat} (hle : n ≤ m) (l : Library) :
    Trails (P := P) (.start { o with maxEvents := n } l) (.start { o with maxEvents := m } l) :=
  ⟨rfl, rfl, rfl, rfl, rfl, rfl, rfl, rfl, .level rfl hle rfl rfl ⟨rfl, fun _ => ⟨rfl, rfl⟩⟩⟩

/-- The first holds as many events as its limit allows, of those of the second. -/
lemma Trails.events_eq {c c' : Context P} (h : Trails c c') {n : Nat}
    (hroom : c.timeline.newest.length + c.timeline.room = n) :
    c.timeline.events = c'.timeline.events.take n := by
  cases h.course with
  | level newest room truncated truncated' same =>
    have hlength : c'.timeline.events.length ≤ n := by
      rw [Timeline.events, List.length_reverse, ← newest]
      omega
    rw [List.take_of_length_le hlength, Timeline.events, Timeline.events, newest]
  | cut truncated room newest =>
    obtain ⟨more, hmore⟩ := newest
    have hlength : n = c.timeline.events.length := by
      rw [Timeline.events, List.length_reverse]
      omega
    have hevents : c'.timeline.events = c.timeline.events ++ more.reverse := by
      simp [Timeline.events, ← hmore]
    rw [hevents, hlength, List.take_left]

lemma eval_of_compileTokens {o : Options} {l : Library} {ts : List (Token P)} {c : Context P}
    (h : compileTokens o l ts = .ok () c) :
    eval (declareAll (readDocument ts)) (.start o l) = .ok ((), c) := by
  have heval := eval_eq_ok.mpr h
  rw [eval_bind] at heval
  obtain ⟨⟨_, d⟩, hdeclare, hwrite⟩ := bind_eq_ok.mp heval
  rw [eval_bind, eval_get, ok_bind] at hwrite
  obtain ⟨-, rfl⟩ := eval_lift_eq_ok.mp hwrite
  exact hdeclare

/-- **A limit on events is a cut.** Of two compilations that differ in this limit only, the
scores agree in all that was declared, and the events under the smaller limit are the first ones
of those under the larger limit. -/
theorem compile_maxEvents {o : Options} {n m : Nat} (hle : n ≤ m) {l l₁ l₂ : Library}
    {source : String} {r r' : Compiled}
    (h : compile { o with maxEvents := n } l source = (.ok r, l₁))
    (h' : compile { o with maxEvents := m } l source = (.ok r', l₂)) :
    (r.score.header = r'.score.header ∧ r.score.instruments = r'.score.instruments ∧
        r.score.groups = r'.score.groups) ∧
      ∃ c c', compileTokens { o with maxEvents := n } l (tokenize source) = .ok () c ∧
        compileTokens { o with maxEvents := m } l (tokenize source) = .ok () c' ∧
        c.timeline.events = c'.timeline.events.take n ∧
        IsStableSort Event.start c.timeline.events r.score.timeline ∧
        IsStableSort Event.start c'.timeline.events r'.score.timeline := by
  obtain ⟨c, hc, hsound, rfl⟩ := compile_eq_ok h
  obtain ⟨c', hc', -, rfl⟩ := compile_eq_ok h'
  have htrails := (Tracks.forM declare_tracks (.start o hle l) (eval_of_compileTokens hc)
    (eval_of_compileTokens hc')).2
  exact ⟨⟨htrails.header, htrails.instruments, htrails.groups⟩, c, c', hc, hc',
    htrails.events_eq hsound.room, c.timeline.sorted_isStableSort,
    c'.timeline.sorted_isStableSort⟩

/-- A block that is played three times, with settings of its own. -/
def refrain : String :=
  "def p measure 1-3 \x7b meta \x7b tempo: 90, mood: calm \x7d p: c5:8 d \x7d"

/-- The second event of the second measure is refused, and there is no third measure then. -/
theorem compile_maxEvents_refrain :
    ∃ r r' l₁ l₂, compile { maxEvents := 3 } .shipped refrain = (.ok r, l₁) ∧
      compile { maxEvents := 9 } .shipped refrain = (.ok r', l₂) ∧
      r.score.timeline.length = 3 ∧ r'.score.timeline.length = 6 ∧
      (r.score.header = r'.score.header ∧ r.score.instruments = r'.score.instruments ∧
        r.score.groups = r'.score.groups) ∧
      ∃ c c', compileTokens { maxEvents := 3 } .shipped (tokenize refrain) = .ok () c ∧
        compileTokens { maxEvents := 9 } .shipped (tokenize refrain) = .ok () c' ∧
        c.timeline.events = c'.timeline.events.take 3 ∧
        IsStableSort Event.start c.timeline.events r.score.timeline ∧
        IsStableSort Event.start c'.timeline.events r'.score.timeline := by
  obtain ⟨r, l₁, h, hlength⟩ := exists_compile_length (o := { maxEvents := 3 }) rfl refrain 3
    (by decide +kernel)
  obtain ⟨r', l₂, h', hlength'⟩ := exists_compile_length (o := { maxEvents := 9 }) rfl refrain 6
    (by decide +kernel)
  exact ⟨r, r', l₁, l₂, h, h', hlength, hlength',
    compile_maxEvents (o := {}) (by decide : 3 ≤ 9) h h'⟩

end Partitura
