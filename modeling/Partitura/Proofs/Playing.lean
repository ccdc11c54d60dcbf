import Partitura.Proofs.Rendering

/-!
Playing a script, step by step.

`eval_runSteps_cons` and `step_cases` say once what a step can do. A script depends on how many
calls were expanded before it only through the calls that are refused for it: without such a
call (`script_add`), and where no call can be expanded any more (`script_exhausted`), the steps
are the same.
-/

namespace Partitura

variable {P : Type}

/-! ### Scripts after earlier calls -/

/-- No call is refused because too many were expanded. -/
def WithinBudget (steps : List (Placed (Step P))) : Prop :=
  ∀ p ∈ steps, ∀ n t, p.value ≠ .refuse (.macroBudget n) t

lemma withinBudget_cons {p : Placed (Step P)} {steps : List (Placed (Step P))} :
    WithinBudget (p :: steps) ↔
      (∀ n t, p.value ≠ .refuse (.macroBudget n) t) ∧ WithinBudget steps :=
  List.forall_mem_cons

lemma withinBudget_append {xs ys : List (Placed (Step P))} :
    WithinBudget (xs ++ ys) ↔ WithinBudget xs ∧ WithinBudget ys :=
  List.forall_mem_append

lemma lookUp_eq_ok {book : Book P} {depth used : Nat} {name : String} {m : Macro P} :
    book.lookUp depth used name = .ok m ↔
      get? name book.macros = some m ∧ 0 < depth ∧ used < book.maxExpansions := by
  unfold Book.lookUp
  split
  · simp_all
  · rcases Nat.eq_zero_or_pos depth with rfl | hpos
    · simp
    · have hne : depth ≠ 0 := by omega
      by_cases hused : used < book.maxExpansions
      · simp_all
      · simp [hne, hused]

lemma le_of_lookUp_budget {book : Book P} {depth used : Nat} {name : String} {n : Nat}
    (h : book.lookUp depth used name = .error (.macroBudget n)) : book.maxExpansions ≤ used := by
  by_contra hlt
  unfold Book.lookUp at h
  split at h
  · simp at h
  · split at h
    · simp at h
    · rw [if_pos (by omega)] at h
      simp at h

/-- Only the budget distinguishes two lookups of one name at one depth. -/
lemma lookUp_cases (book : Book P) (depth used k : Nat) (name : String) :
    book.lookUp depth (used + k) name = .error (.macroBudget book.maxExpansions) ∨
      book.lookUp depth (used + k) name = book.lookUp depth used name := by
  unfold Book.lookUp
  split
  · exact .inr rfl
  · split
    · exact .inr rfl
    · by_cases h : used + k < book.maxExpansions
      · exact .inr (by rw [if_pos h, if_pos (by omega)])
      · exact .inl (by rw [if_neg h])

/-- **Earlier calls do not change a script that stays within the budget.** -/
lemma script_add (book : Book P) (k : Nat) (depth used : Nat) (items : List (Placed (Item P)))
    (h : WithinBudget (script book depth (used + k) items).steps) :
    script book depth (used + k) items =
      ⟨(script book depth used items).steps, (script book depth used items).total + k⟩ := by
  induction depth, used, items using script_induction book with
  | nil => simp
  | event depth used e unread rest ih =>
    rw [script_event, script_event] at *
    rw [ih (withinBudget_cons.mp h).2]
    rfl
  | broken depth used f unread rest ih =>
    rw [script_broken, script_broken] at *
    rw [ih (withinBudget_cons.mp h).2]
    rfl
  | refuse depth used t name args unread rest issue hissue ih =>
    rcases lookUp_cases book depth used k name with hbudget | hsame
    · rw [script_refuse _ _ hbudget] at h
      exact absurd rfl ((withinBudget_cons.mp h).1 _ _)
    · rw [hissue] at hsame
      rw [script_refuse _ _ hsame] at h ⊢
      rw [script_refuse _ _ hissue, ih (withinBudget_cons.mp h).2]
      rfl
  | expand depth used t name args unread rest m hm ih₁ ih₂ =>
    rcases lookUp_cases book (depth + 1) used k name with hbudget | hsame
    · rw [script_refuse _ _ hbudget] at h
      exact absurd rfl ((withinBudget_cons.mp h).1 _ _)
    · rw [hm] at hsame
      rw [script_expand _ _ hsame] at h ⊢
      rw [script_expand _ _ hm]
      simp only [withinBudget_cons, withinBudget_append, Nat.add_right_comm used k 1] at h ⊢
      have hinner := ih₁ h.2.1
      rw [hinner] at h ⊢
      rw [ih₂ h.2.2]

/-- Where all calls are spent, no call is expanded, and it does not matter how many were. -/
lemma script_exhausted (book : Book P) {used used' : Nat} (h : book.maxExpansions ≤ used)
    (h' : book.maxExpansions ≤ used') (depth : Nat) (items : List (Placed (Item P))) :
    (script book depth used items).steps = (script book depth used' items).steps := by
  have hsame (name : String) : book.lookUp depth used name = book.lookUp depth used' name := by
    simp only [Book.lookUp, Nat.not_lt.mpr h, Nat.not_lt.mpr h', if_false]
  induction items with
  | nil => simp
  | cons p rest ih =>
    match p with
    | ⟨.event e, unread⟩ => simp [Script.cons, ih]
    | ⟨.broken f, unread⟩ => simp [Script.cons, ih]
    | ⟨.call t name args, unread⟩ =>
      cases hl : book.lookUp depth used name with
      | ok m => exact absurd (lookUp_eq_ok.mp hl).2.2 (by omega)
      | error issue =>
        rw [script_refuse _ _ hl, script_refuse _ _ (hsame name ▸ hl)]
        simp [Script.cons, ih]

def Step.isExpand : Step P → Bool
  | .expand => true
  | _ => false

@[simp] lemma Step.isExpand_expand : (Step.expand : Step P).isExpand = true := rfl

/-- A script counts the calls it expands. -/
lemma script_total (book : Book P) (depth used : Nat) (items : List (Placed (Item P))) :
    (script book depth used items).total =
      used + (script book depth used items).steps.countP (·.value.isExpand) := by
  induction depth, used, items using script_induction book with
  | nil => simp
  | event depth used e unread rest ih => simp [Script.cons, Step.isExpand, ih]
  | broken depth used f unread rest ih => simp [Script.cons, Step.isExpand, ih]
  | refuse depth used t name args unread rest issue h ih =>
    simp [script_refuse _ _ h, Script.cons, Step.isExpand, ih]
  | expand depth used t name args unread rest m h ih₁ ih₂ =>
    simp only [script_expand _ _ h, List.countP_cons, List.countP_append, Step.isExpand_expand,
      if_true]
    omega

/-- A call that is refused for the budget stands behind as many expanded calls as are allowed. -/
lemma script_budget (book : Book P) (depth used : Nat) (items : List (Placed (Item P)))
    (h : ¬ WithinBudget (script book depth used items).steps) :
    book.maxExpansions ≤ (script book depth used items).total := by
  induction depth, used, items using script_induction book with
  | nil => exact absurd (by simp [WithinBudget]) h
  | event depth used e unread rest ih =>
    rw [script_event] at h ⊢
    exact ih fun hrest => h (withinBudget_cons.mpr ⟨by simp, hrest⟩)
  | broken depth used f unread rest ih =>
    rw [script_broken] at h ⊢
    exact ih fun hrest => h (withinBudget_cons.mpr ⟨by simp, hrest⟩)
  | refuse depth used t name args unread rest issue hissue ih =>
    rw [script_refuse _ _ hissue] at h ⊢
    by_cases hrest : WithinBudget (script book depth used rest).steps
    · have hused : book.maxExpansions ≤ used := by
        by_contra hlt
        refine h (withinBudget_cons.mpr ⟨?_, hrest⟩)
        rintro n t ⟨⟩
        exact hlt (le_of_lookUp_budget hissue)
      have htotal := script_total book depth used rest
      simp only [Script.cons]
      omega
    · exact ih hrest
  | expand depth used t name args unread rest m hm ih₁ ih₂ =>
    rw [script_expand _ _ hm] at h ⊢
    simp only [withinBudget_cons, withinBudget_append, not_and] at h ⊢
    by_cases hinner : WithinBudget (script book depth (used + 1) (m.items args unread)).steps
    · exact ih₂ (h (by simp) hinner)
    · have htotal := script_total book (depth + 1)
        (script book depth (used + 1) (m.items args unread)).total rest
      have := ih₁ hinner
      omega

/-! ### Steps -/

namespace Run

/-- Play the steps of a script, `offset` ticks into the stream. -/
def runSteps (s : Stage) (steps : List (Placed (Step P))) (offset : Int) : Run P Int :=
  steps.foldlM (fun offset p => placed (.unread p.unread) (step s offset p.value)) offset

lemma eval_perform (s : Stage) (items : List (Placed (Item P))) (c : Context P) :
    eval (perform s items) c = eval (runSteps s (scriptOf c items) 0) c := rfl

@[simp] lemma eval_runSteps_nil (s : Stage) (offset : Int) (c : Context P) :
    eval (runSteps s [] offset) c = .ok (offset, c) := rfl

lemma runSteps_cons (s : Stage) (p : Placed (Step P)) (steps : List (Placed (Step P)))
    (offset : Int) :
    runSteps s (p :: steps) offset =
      placed (.unread p.unread) (step s offset p.value) >>= runSteps s steps :=
  List.foldlM_cons

lemma runSteps_append (s : Stage) (xs ys : List (Placed (Step P))) (offset : Int) :
    runSteps s (xs ++ ys) offset = runSteps s xs offset >>= runSteps s ys :=
  List.foldlM_append

lemma eval_runSteps_cons (s : Stage) (p : Placed (Step P)) (steps : List (Placed (Step P)))
    (offset : Int) (c : Context P) :
    eval (runSteps s (p :: steps) offset) c =
      eval (step s offset p.value) c >>= fun q => eval (runSteps s steps q.1) q.2 := by
  rw [runSteps_cons, eval_bind, eval_placed]

section Step

variable (s : Stage) (offset : Int) (c : Context P)

lemma eval_step_play (e : WrittenEvent P) :
    eval (step s offset (.play e)) c =
      (fun r => (offset + r.ticks, c.enter s.key e.anchor r)) <$>
        e.render s (c.cursor s.key) offset := by
  simp only [step, eval_bind, eval_play]
  cases e.render s (c.cursor s.key) offset <;> simp

lemma eval_step_expand :
    eval (step s offset .expand) c = .ok (offset, { c with expansions := c.expansions + 1 }) := rfl

lemma eval_step_refuse (issue : Issue) (t : Token P) :
    eval (step s offset (.refuse issue t)) c = .ok (offset, c.noteOnce issue (some t)) := by
  simp [step]

end Step

/-- **What a step can do**: it enters a rendering, counts a call, or reports one. -/
lemma step_cases {s : Stage} {offset offset' : Int} {step : Step P} {c d : Context P}
    (h : eval (Run.step s offset step) c = .ok (offset', d)) :
    (∃ e r, step = .play e ∧ e.render s (c.cursor s.key) offset = .ok r ∧
        offset' = offset + r.ticks ∧ d = c.enter s.key e.anchor r) ∨
      (step = .expand ∧ offset' = offset ∧ d = { c with expansions := c.expansions + 1 }) ∨
      ∃ issue t, step = .refuse issue t ∧ offset' = offset ∧ d = c.noteOnce issue (some t) := by
  cases step with
  | play e =>
    rw [eval_step_play] at h
    rcases hr : e.render s (c.cursor s.key) offset with f | r
    · simp [hr] at h
    · obtain ⟨rfl, rfl⟩ : offset + r.ticks = offset' ∧ c.enter s.key e.anchor r = d := by
        simpa [hr] using h
      exact .inl ⟨e, r, rfl, hr, rfl, rfl⟩
  | expand =>
    rw [eval_step_expand] at h
    obtain ⟨rfl, rfl⟩ : offset = offset' ∧ _ = d := by simpa using h
    exact .inr (.inl ⟨rfl, rfl, rfl⟩)
  | refuse issue t =>
    rw [eval_step_refuse] at h
    obtain ⟨rfl, rfl⟩ : offset = offset' ∧ _ = d := by simpa using h
    exact .inr (.inr ⟨issue, t, rfl, rfl, rfl⟩)
  | halt f => cases h

end Run

/-! ### What was played -/

namespace Context

@[simp] lemma mem_once_noteOnce {c : Context P} {issue issue' : Issue} {t : Option (Token P)} :
    issue' ∈ (c.noteOnce issue t).once ↔ issue' = issue ∨ issue' ∈ c.once := by
  unfold noteOnce
  dsimp only
  split
  · rename_i h
    constructor
    · exact .inr
    · rintro (rfl | h')
      · exact h
      · exact h'
  · exact List.mem_cons

lemma enter_once (c : Context P) (key : VoiceKey) (t : Option (Token P)) (r : Rendering) :
    (c.enter key t r).once = if (c.timeline.add r.event).1 then c.once
      else (c.noteOnce (.eventLimit c.options.maxEvents) t).once := by
  unfold enter place
  dsimp only
  split <;> rename_i h
  · exact (if_pos h).symm
  · exact (if_neg h).symm

/-- Entering an event reports nothing once but that there is no room for it. -/
lemma mem_once_enter {c : Context P} {key : VoiceKey} {t : Option (Token P)} {r : Rendering}
    {issue : Issue} (h : issue ∈ (c.enter key t r).once) :
    issue = .eventLimit c.options.maxEvents ∨ issue ∈ c.once := by
  rw [enter_once] at h
  split at h
  · exact .inr h
  · simpa using h

lemma once_subset_enter (c : Context P) (key : VoiceKey) (t : Option (Token P)) (r : Rendering) :
    c.once ⊆ (c.enter key t r).once := by
  intro issue h
  rw [enter_once]
  split
  · exact h
  · exact mem_once_noteOnce.mpr (.inr h)

end Context

def Context.stock (c : Context P) : Options × List (String × Macro P) × List Instrument :=
  (c.options, c.macros, c.instruments)

/-- What the steps of a script leave behind in a state. -/
structure Played (steps : List (Placed (Step P))) (c d : Context P) : Prop where
  options : d.options = c.options
  macros : d.macros = c.macros
  instruments : d.instruments = c.instruments
  expansions : d.expansions = c.expansions + steps.countP (·.value.isExpand)
  once : c.once ⊆ d.once
  refused : ∀ p ∈ steps, ∀ issue t, p.value = .refuse issue t → issue ∈ d.once
  budget : ∀ n, .macroBudget n ∈ d.once → .macroBudget n ∈ c.once ∨ ¬ WithinBudget steps
  truncated : c.timeline.truncated = true → d.timeline.truncated = true
  room : (c.timeline.truncated = true → c.timeline.room = 0) →
    d.timeline.truncated = true → d.timeline.room = 0
  full : c.timeline.room = 0 → d.timeline.room = 0 ∧ d.timeline.newest = c.timeline.newest

namespace Played

variable {steps : List (Placed (Step P))} {c d e : Context P}

lemma nil (c : Context P) : Played [] c c where
  options := rfl
  macros := rfl
  instruments := rfl
  expansions := by simp
  once := fun _ h => h
  refused := by simp
  budget := fun _ h => .inl h
  truncated := id
  room := id
  full := fun h => ⟨h, rfl⟩

lemma cons {p : Placed (Step P)} (h : Played [p] c d) (h' : Played steps d e) :
    Played (p :: steps) c e where
  options := h'.options.trans h.options
  macros := h'.macros.trans h.macros
  instruments := h'.instruments.trans h.instruments
  expansions := by
    have := h.expansions
    have := h'.expansions
    simp only [List.countP_cons, List.countP_nil] at *
    omega
  once := fun _ hmem => h'.once (h.once hmem)
  refused := by
    rintro q (_ | ⟨_, hq⟩) issue t hq'
    · exact h'.once (h.refused p (by simp) issue t hq')
    · exact h'.refused q hq issue t hq'
  budget := by
    intro n hn
    rw [withinBudget_cons, not_and_or]
    rcases h'.budget n hn with hn | hn
    · rcases h.budget n hn with hn | hn
      · exact .inl hn
      · rw [withinBudget_cons, not_and_or] at hn
        exact .inr (.inl (hn.resolve_right (by simp [WithinBudget])))
    · exact .inr (.inr hn)
  truncated := h'.truncated ∘ h.truncated
  room := h'.room ∘ h.room
  full := by
    intro hroom
    obtain ⟨hroom, hnewest⟩ := h.full hroom
    obtain ⟨hroom', hnewest'⟩ := h'.full hroom
    exact ⟨hroom', hnewest'.trans hnewest⟩

lemma stock (h : Played steps c d) : d.stock = c.stock := by
  simp only [Context.stock, h.options, h.macros, h.instruments]

end Played

lemma Timeline.add_truncated (t : Timeline) (e : Event) (h : t.truncated = true) :
    (t.add e).2.truncated = true := by
  unfold Timeline.add
  split
  · rfl
  · exact h

namespace Run

lemma played_step {s : Stage} {offset offset' : Int} {p : Placed (Step P)} {c d : Context P}
    (h : eval (step s offset p.value) c = .ok (offset', d)) : Played [p] c d := by
  rcases step_cases h with ⟨e, r, hp, -, -, rfl⟩ | ⟨hp, -, rfl⟩ | ⟨issue, t, hp, -, rfl⟩
  · refine ⟨by simp, by simp, by simp, by simp [hp, Step.isExpand], c.once_subset_enter _ _ r,
      by simp [hp], ?_, ?_, ?_, ?_⟩
    · intro n hn
      rcases Context.mem_once_enter hn with h | h
      · cases h
      · exact .inl h
    · rw [Context.enter_timeline]
      exact c.timeline.add_truncated r.event
    · rw [Context.enter_timeline, Timeline.add]
      intro hroom
      split
      · intro _; assumption
      · intro htrunc
        simp_all
    · rw [Context.enter_timeline, Timeline.add]
      intro hroom
      simp [hroom]
  · exact ⟨rfl, rfl, rfl, by simp [hp], fun _ h => h, by simp [hp], fun _ h => .inl h, id, id,
      fun h => ⟨h, rfl⟩⟩
  · refine ⟨rfl, rfl, rfl, by simp [hp, Step.isExpand, Context.noteOnce], ?_, ?_, ?_, id, id,
      fun h => ⟨h, rfl⟩⟩
    · exact fun _ h => Context.mem_once_noteOnce.mpr (.inr h)
    · simp only [List.forall_mem_singleton, hp]
      rintro _ _ ⟨⟩
      exact Context.mem_once_noteOnce.mpr (.inl rfl)
    · intro n hn
      rcases Context.mem_once_noteOnce.mp hn with rfl | hn
      · exact .inr fun hwithin => hwithin p (by simp) n t hp
      · exact .inl hn

/-- **Playing a script expands the calls it says and reports the ones it refuses.** -/
lemma played_runSteps {s : Stage} {steps : List (Placed (Step P))} {offset offset' : Int}
    {c d : Context P} (h : eval (runSteps s steps offset) c = .ok (offset', d)) :
    Played steps c d := by
  induction steps generalizing offset c with
  | nil =>
    obtain ⟨rfl, rfl⟩ : offset = offset' ∧ c = d := by simpa using h
    exact .nil c
  | cons p steps ih =>
    rw [eval_runSteps_cons] at h
    obtain ⟨⟨offset₁, c₁⟩, h₁, h₂⟩ := bind_eq_ok.mp h
    exact (played_step h₁).cons (ih h₂)

end Run

end Partitura
