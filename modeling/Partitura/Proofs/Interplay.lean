import Partitura.Proofs.Layout

/-!
Two voices do not interfere.

Each voice plays a line that depends on its own cursor only, and leaves the cursors of all
others alone. The one thing that two voices share besides the timeline is the count of expanded
calls, and a script that keeps within the budget does not depend on it (`script_shift`). So two
voices that meet no limit play the same lines in either order.
-/

namespace Partitura

open Run

variable {P : Type}

/-! ### Scripts after other calls -/

/-- A call that is not refused for the budget is refused after any number of calls. -/
lemma lookUp_of_not_budget {book : Book P} {depth used : Nat} {name : String} {issue : Issue}
    (h : book.lookUp depth used name = .error issue) (hissue : ∀ n, issue ≠ .macroBudget n)
    (used' : Nat) : book.lookUp depth used' name = .error issue := by
  unfold Book.lookUp at h ⊢
  split at h
  · exact h
  · split at h
    · rename_i hdepth
      rw [if_pos hdepth, h]
    · split at h
      · cases h
      · cases h
        exact absurd rfl (hissue _)

/-- Calls are expanded up to the budget; where it is used up before, none is. -/
lemma script_total_le (book : Book P) (depth used : Nat) (items : List (Placed (Item P))) :
    (script book depth used items).total ≤ max used book.maxExpansions := by
  induction depth, used, items using script_induction book with
  | nil depth used => simp
  | event depth used e unread rest ih => simpa [Script.cons] using ih
  | broken depth used f unread rest ih => simpa [Script.cons] using ih
  | refuse depth used t name args unread rest issue h ih =>
    simpa [script_refuse _ _ h, Script.cons] using ih
  | expand depth used t name args unread rest m h ih₁ ih₂ =>
    have hused := (lookUp_eq_ok.mp h).2.2
    rw [script_expand _ _ h]
    simp only
    omega

/-- **A script that keeps within the budget is the same after `k` more calls**, if it expands no
call or the budget suffices for all of them. -/
lemma script_shift (book : Book P) (k depth used : Nat) (items : List (Placed (Item P)))
    (h : WithinBudget (script book depth used items).steps)
    (hk : (script book depth used items).steps.countP (·.value.isExpand) = 0 ∨
      (script book depth used items).total + k ≤ book.maxExpansions) :
    script book depth (used + k) items =
      ⟨(script book depth used items).steps, (script book depth used items).total + k⟩ := by
  induction depth, used, items using script_induction book with
  | nil => simp
  | event depth used e unread rest ih =>
    rw [script_event] at h hk
    rw [script_event, script_event, ih (withinBudget_cons.mp h).2
      (by simpa [Script.cons, Step.isExpand] using hk)]
    rfl
  | broken depth used f unread rest ih =>
    rw [script_broken] at h hk
    rw [script_broken, script_broken, ih (withinBudget_cons.mp h).2
      (by simpa [Script.cons, Step.isExpand] using hk)]
    rfl
  | refuse depth used t name args unread rest issue hissue ih =>
    rw [script_refuse _ _ hissue] at h hk
    have hother (n : Nat) : issue ≠ .macroBudget n := by
      rintro rfl
      exact (withinBudget_cons.mp h).1 n t rfl
    rw [script_refuse _ _ hissue, script_refuse _ _ (lookUp_of_not_budget hissue hother _),
      ih (withinBudget_cons.mp h).2 (by simpa [Script.cons, Step.isExpand] using hk)]
    rfl
  | expand depth used t name args unread rest m hm ih₁ ih₂ =>
    obtain ⟨hget, hdepth, -⟩ := lookUp_eq_ok.mp hm
    rw [script_expand _ _ hm] at h hk
    simp only [withinBudget_cons, withinBudget_append, List.countP_cons, List.countP_append,
      Step.isExpand_expand, if_true] at h hk
    -- a call is expanded here, so the budget suffices for it and for those behind it
    have htotal := script_total book depth (used + 1) (m.items args unread)
    have htotal' := script_total book (depth + 1)
      (script book depth (used + 1) (m.items args unread)).total rest
    have hsuffices := hk.resolve_left (by omega)
    have hm' : book.lookUp (depth + 1) (used + k) name = .ok m :=
      lookUp_eq_ok.mpr ⟨hget, hdepth, by omega⟩
    have hinner := ih₁ h.2.1 (.inr (by omega))
    rw [script_expand _ _ hm, script_expand _ _ hm', Nat.add_right_comm used k 1, hinner]
    simp only
    rw [ih₂ h.2.2 (.inr hsuffices)]

/-! ### Voice streams -/

def Context.lineOf (c : Context P) (s : Stage) (ts : List (Token P)) : Except Fault Line :=
  c.recite s (c.stepsIn ts) 0

def Context.callsIn (c : Context P) (ts : List (Token P)) : Nat :=
  (c.stepsIn ts).countP (·.value.isExpand)

section LineOf

variable {s : Stage} {ts rest : List (Token P)} {c d : Context P} {a : Int} {line : Line}

lemma Run.runEvents_of_line (h : c.lineOf s ts = .ok line) :
    ∃ d, (runEvents s 0 0 ts).run c = .ok (line.tick, (c.itemsAt 0 ts).2) d ∧
      Sung s.key line (c.callsIn ts) c d := by
  obtain ⟨d, hrun, hsung⟩ := runSteps_of_recite h
  exact ⟨d, by rw [run_voice, eval_eq_ok.mp hrun], hsung⟩

lemma Run.line_of_runEvents (h : (runEvents s 0 0 ts).run c = .ok (a, rest) d) :
    ∃ line, c.lineOf s ts = .ok line ∧ line.tick = a ∧ (c.itemsAt 0 ts).2 = rest ∧
      Sung s.key line (c.callsIn ts) c d := by
  rw [run_voice] at h
  cases hrun : (runSteps s (c.stepsIn ts) 0).run c with
  | error st e =>
    rw [hrun] at h
    cases h
  | ok tick e =>
    rw [hrun] at h
    cases h
    obtain ⟨line, hline, htick, hsung⟩ := line_of_runSteps (eval_eq_ok.mpr hrun)
    exact ⟨line, hline, htick, rfl, hsung⟩

lemma Context.length_lineOf (h : c.lineOf s ts = .ok line) :
    line.events.length = (c.eventsIn ts).length :=
  (Context.recite_of h).made.length_eq.symm

def Event.key (e : Event) : VoiceKey := ⟨e.instrument, e.voice⟩

lemma Context.key_of_mem_lineOf (h : c.lineOf s ts = .ok line) :
    ∀ e ∈ line.events, e.key = s.key := by
  intro e he
  obtain ⟨w, hw⟩ := (Context.recite_of h).exists_madeOn e he
  rw [Event.key, hw.stage.1, hw.stage.2.1]
  rfl

end LineOf

namespace Sung

variable {key : VoiceKey} {line : Line} {calls : Nat} {c d : Context P}

lemma stock (h : Sung key line calls c d) : d.stock = c.stock := by
  simp only [Context.stock, h.options, h.macros, h.instruments]

/-- The script of a stream after so many calls more. -/
lemma stepsIn_eq (h : Sung key line calls c d) (ts : List (Token P)) :
    d.stepsIn ts = (script c.book c.options.maxMacroDepth (c.expansions + calls)
      (c.itemsAt 0 ts).1).steps := by
  rw [Context.stepsIn, Context.stepsAt, Context.itemsAt_congr h.stock, Context.book_congr h.stock,
    h.options, h.expansions]
  rfl

/-- Another voice has the same line as before, if it has the same script. -/
lemma lineOf_eq (h : Sung key line calls c d) {s : Stage} (hs : s.key ≠ key) {ts : List (Token P)}
    (hsteps : d.stepsIn ts = c.stepsIn ts) : d.lineOf s ts = c.lineOf s ts := by
  rw [Context.lineOf, Context.lineOf, hsteps, Context.recite, Context.recite, h.cursor_of_ne hs]

/-- Where there was room for every event, the voice stands behind the last one. -/
lemma cursor_self (h : Sung key line calls c d) (hroom : line.events.length ≤ c.timeline.room) :
    d.cursor key = ⟨line.octave, line.duration, line.lastStop (c.cursor key).tick⟩ := by
  rw [← h.octave, ← h.duration, ← h.tick hroom]

lemma room_eq (h : Sung key line calls c d) :
    d.timeline.room = c.timeline.room - line.events.length := by
  rw [h.timeline, Timeline.addAll_room]

lemma events_eq (h : Sung key line calls c d) (hroom : line.events.length ≤ c.timeline.room) :
    d.timeline.events = c.timeline.events ++ line.events := by
  rw [h.timeline, Timeline.addAll_events, List.take_of_length_le hroom]

end Sung

/-! ### Two voices -/

/-- From `c` on, the stream `ts` is played up to `d`: it comes as far as `tick` and leaves `rest`,
and none of its events and calls is refused for a limit. -/
structure Plays (s : Stage) (ts : List (Token P)) (c : Context P) (tick : Int)
    (rest : List (Token P)) (d : Context P) : Prop where
  run : (runEvents s 0 0 ts).run c = .ok (tick, rest) d
  events : (c.eventsIn ts).length ≤ c.timeline.room
  calls : WithinBudget (c.stepsIn ts)

/-- Two voices are played from `c`, over `c₁` up to `d` and the other way round over `c₂` up to
`d'`; their events are `es` and `es'`. -/
structure Interchanged (key key' : VoiceKey) (es es' : List Event) (c c₁ d c₂ d' : Context P) :
    Prop where
  own : ∀ e ∈ es, e.key = key
  own' : ∀ e ∈ es', e.key = key'
  entered : c₁.timeline.events = c.timeline.events ++ es ∧
    d.timeline.events = c₁.timeline.events ++ es'
  entered' : c₂.timeline.events = c.timeline.events ++ es' ∧
    d'.timeline.events = c₂.timeline.events ++ es
  perm : d.timeline.events.Perm d'.timeline.events
  cursors : ∀ k, d.cursor k = d'.cursor k ∧ d.hasCursor k = d'.hasCursor k
  others : ∀ k, k ≠ key → k ≠ key' → d.cursor k = c.cursor k ∧ d.hasCursor k = c.hasCursor k
  header : d.header = c.header ∧ d'.header = c.header
  macros : d.macros = c.macros ∧ d'.macros = c.macros
  instruments : d.instruments = c.instruments ∧ d'.instruments = c.instruments

/-- Lines of two voices that there is room for may be entered in either order. -/
lemma Sung.interchanged {key key' : VoiceKey} (hkey : key ≠ key') {line line' : Line}
    {calls calls' : Nat} {c c₁ d c₂ d' : Context P} (h : Sung key line calls c c₁)
    (h' : Sung key' line' calls' c₁ d) (g' : Sung key' line' calls' c c₂)
    (g : Sung key line calls c₂ d')
    (hroom : line.events.length + line'.events.length ≤ c.timeline.room)
    (hown : ∀ e ∈ line.events, e.key = key) (hown' : ∀ e ∈ line'.events, e.key = key') :
    Interchanged key key' line.events line'.events c c₁ d c₂ d' := by
  have hroom₁ := h.room_eq
  have hroom₂ := g'.room_eq
  have hentered := h.events_eq (by omega)
  have hentered' := g'.events_eq (by omega)
  refine ⟨hown, hown', ⟨hentered, h'.events_eq (by omega)⟩, ⟨hentered', g.events_eq (by omega)⟩,
    ?_, ?_, ?_, ⟨h'.header.trans h.header, g.header.trans g'.header⟩,
    ⟨h'.macros.trans h.macros, g.macros.trans g'.macros⟩,
    ⟨h'.instruments.trans h.instruments, g.instruments.trans g'.instruments⟩⟩
  · rw [h'.events_eq (by omega), g.events_eq (by omega), hentered, hentered', List.append_assoc,
      List.append_assoc]
    exact List.Perm.append_left _ List.perm_append_comm
  · intro k
    by_cases hk : k = key
    · subst hk
      rw [h'.cursor_of_ne hkey, h.cursor_self (by omega), g.cursor_self (by omega),
        g'.cursor_of_ne hkey, h'.hasCursor_of_ne hkey, h.known, g.known, g'.hasCursor_of_ne hkey]
      exact ⟨rfl, rfl⟩
    · by_cases hk' : k = key'
      · subst hk'
        rw [h'.cursor_self (by omega), h.cursor_of_ne hk, g.cursor_of_ne hk,
          g'.cursor_self (by omega), h'.known, h.hasCursor_of_ne hk, g.hasCursor_of_ne hk, g'.known]
        exact ⟨rfl, rfl⟩
      · rw [h'.cursor_of_ne hk', h.cursor_of_ne hk, g.cursor_of_ne hk, g'.cursor_of_ne hk',
          h'.hasCursor_of_ne hk', h.hasCursor_of_ne hk, g.hasCursor_of_ne hk,
          g'.hasCursor_of_ne hk']
        exact ⟨rfl, rfl⟩
  · intro k hk hk'
    rw [h'.cursor_of_ne hk', h.cursor_of_ne hk, h'.hasCursor_of_ne hk', h.hasCursor_of_ne hk]
    exact ⟨rfl, rfl⟩

/-- A script that keeps within the budget after the calls of another stream is the one without
them. -/
lemma Sung.stepsIn_of_withinBudget {key : VoiceKey} {line : Line} {calls : Nat} {c d : Context P}
    (h : Sung key line calls c d) {ts : List (Token P)} (hcalls : WithinBudget (d.stepsIn ts)) :
    d.stepsIn ts = c.stepsIn ts := by
  rw [h.stepsIn_eq] at hcalls ⊢
  rw [script_add _ _ _ _ _ hcalls]
  rfl

/-- If two streams keep within the budget one after the other, the first has the same script when
it comes second. -/
lemma Sung.stepsIn_interchange {key key' : VoiceKey} {line line' : Line} {ts ts' : List (Token P)}
    {c c₁ c₂ : Context P} (h : Sung key line (c.callsIn ts) c c₁)
    (hcalls : WithinBudget (c.stepsIn ts)) (hcalls' : WithinBudget (c₁.stepsIn ts'))
    (g : Sung key' line' (c.callsIn ts') c c₂) : c₂.stepsIn ts = c.stepsIn ts := by
  have htotal := script_total c.book c.options.maxMacroDepth c.expansions (c.itemsAt 0 ts).1
  have hle := script_total_le c.book c.options.maxMacroDepth c.expansions (c.itemsAt 0 ts).1
  have htotal' := script_total c.book c.options.maxMacroDepth (c.expansions + c.callsIn ts)
    (c.itemsAt 0 ts').1
  have hle' := script_total_le c.book c.options.maxMacroDepth (c.expansions + c.callsIn ts)
    (c.itemsAt 0 ts').1
  rw [← h.stepsIn_eq, h.stepsIn_of_withinBudget hcalls', ← Context.callsIn] at htotal'
  change _ = c.expansions + c.callsIn ts at htotal
  have hsuffices : c.callsIn ts = 0 ∨ (script c.book c.options.maxMacroDepth c.expansions
      (c.itemsAt 0 ts).1).total + c.callsIn ts' ≤ c.book.maxExpansions := by omega
  rw [g.stepsIn_eq, script_shift _ _ c.options.maxMacroDepth _ _ hcalls hsuffices]
  rfl

/-- **Voices do not interfere.** Two streams of different voices that are played one after the
other and meet no limit are played the other way round with the same results, the same events
and the same cursors, and nothing else is touched. -/
theorem plays_interchange {s s' : Stage} (hkey : s.key ≠ s'.key)
    {ts ts' rest rest' : List (Token P)} {a a' : Int} {c c₁ d : Context P}
    (h : Plays s ts c a rest c₁) (h' : Plays s' ts' c₁ a' rest' d) :
    ∃ c₂ d', Plays s' ts' c a' rest' c₂ ∧ Plays s ts c₂ a rest d' ∧
      ∃ es es', Interchanged s.key s'.key es es' c c₁ d c₂ d' := by
  obtain ⟨line, hline, rfl, rfl, hsung⟩ := line_of_runEvents h.run
  obtain ⟨line', hline', rfl, rfl, hsung'⟩ := line_of_runEvents h'.run
  have hsteps' : c₁.stepsIn ts' = c.stepsIn ts' := hsung.stepsIn_of_withinBudget h'.calls
  have hcalls : c₁.callsIn ts' = c.callsIn ts' := by rw [Context.callsIn, hsteps', Context.callsIn]
  have hfirst : c.lineOf s' ts' = .ok line' := by
    rw [← hline', hsung.lineOf_eq hkey.symm hsteps']
  obtain ⟨c₂, hrun₂, hsung₂⟩ := runEvents_of_line hfirst
  have hsteps : c₂.stepsIn ts = c.stepsIn ts := hsung.stepsIn_interchange h.calls h'.calls hsung₂
  have hsecond : c₂.lineOf s ts = .ok line := by rw [← hline, hsung₂.lineOf_eq hkey hsteps]
  obtain ⟨d', hrun, hsung₂'⟩ := runEvents_of_line hsecond
  -- there is room for the events of both
  have hroom := h.events
  have hroom' := h'.events
  rw [← Context.length_lineOf hline] at hroom
  rw [← Context.length_lineOf hline', hsung.room_eq] at hroom'
  have hroom₂ := hsung₂.room_eq
  refine ⟨c₂, d', ⟨?_, ?_, hsteps' ▸ h'.calls⟩, ⟨?_, ?_, hsteps ▸ h.calls⟩,
    line.events, line'.events, ?_⟩
  · rw [hrun₂, Context.itemsAt_congr hsung.stock]
  · rw [← Context.length_lineOf hfirst]
    omega
  · rw [hrun, Context.itemsAt_congr hsung₂.stock]
  · rw [← Context.length_lineOf hsecond]
    omega
  · rw [hcalls] at hsung'
    have hsung₂' : Sung s.key line (c.callsIn ts) c₂ d' := by
      rwa [Context.callsIn, hsteps, ← Context.callsIn] at hsung₂'
    exact hsung.interchanged hkey hsung' hsung₂ hsung₂' (by omega)
      (Context.key_of_mem_lineOf hline) (Context.key_of_mem_lineOf hline')

def partner : Stage := { soloist with voice := "v2" }

def allExpanded (steps : List (Placed (Step P))) : Bool :=
  steps.all fun p => match p.value with
    | .refuse _ _ => false
    | _ => true

lemma withinBudget_of_allExpanded {steps : List (Placed (Step P))} (h : allExpanded steps = true) :
    WithinBudget steps := by
  intro p hp n t hrefuse
  have := List.all_eq_true.mp h p hp
  simp [hrefuse] at this

/-- Two voices that call the same macro, where three calls may be expanded. -/
theorem plays_interchange_partner :
    soloist.key ≠ partner.key ∧ ∃ c₁ d,
      Plays soloist (callOf "M" :: behindCall) (withCalls 3) 1920 [] c₁ ∧
      Plays partner [callOf "N", sign "e"] c₁ 3840 [] d ∧
      ∃ c₂ d', Plays partner [callOf "N", sign "e"] (withCalls 3) 3840 [] c₂ ∧
        Plays soloist (callOf "M" :: behindCall) c₂ 1920 [] d' ∧
        ∃ es es', Interchanged soloist.key partner.key es es' (withCalls 3) c₁ d c₂ d' := by
  have hkey : soloist.key ≠ partner.key := by decide
  have hevents : ((withCalls 3).eventsIn (callOf "M" :: behindCall)).length ≤
      (withCalls 3).timeline.room := by decide +kernel
  have hcalls : WithinBudget ((withCalls 3).stepsIn (callOf "M" :: behindCall)) :=
    withinBudget_of_allExpanded (by decide +kernel)
  have hruns : passes (runEvents soloist 0 0 (callOf "M" :: behindCall)) (withCalls 3)
      (fun q c₁ => q.1 == 1920 && q.2.isEmpty &&
        passes (runEvents partner 0 0 [callOf "N", sign "e"]) c₁
          (fun q' _ => q'.1 == 3840 && q'.2.isEmpty) &&
        decide ((c₁.eventsIn [callOf "N", sign "e"]).length ≤ c₁.timeline.room) &&
        allExpanded (c₁.stepsIn [callOf "N", sign "e"])) = true := by decide +kernel
  obtain ⟨⟨a, rest⟩, c₁, hrun, hchecks⟩ := exists_of_passes hruns
  simp only [Bool.and_eq_true, beq_iff_eq, List.isEmpty_iff, decide_eq_true_eq] at hchecks
  obtain ⟨⟨⟨⟨rfl, rfl⟩, hpartner⟩, hevents'⟩, hcalls'⟩ := hchecks
  obtain ⟨⟨a', rest'⟩, d, hrun', hends'⟩ := exists_of_passes hpartner
  simp only [Bool.and_eq_true, beq_iff_eq, List.isEmpty_iff] at hends'
  obtain ⟨rfl, rfl⟩ := hends'
  have h : Plays soloist (callOf "M" :: behindCall) (withCalls 3) 1920 [] c₁ :=
    ⟨hrun, hevents, hcalls⟩
  have h' : Plays partner [callOf "N", sign "e"] c₁ 3840 [] d :=
    ⟨hrun', hevents', withinBudget_of_allExpanded hcalls'⟩
  exact ⟨hkey, c₁, d, h, h', plays_interchange hkey h h'⟩

end Partitura
