import Partitura.Library.Shipped
import Partitura.Proofs.Events
import Partitura.Proofs.Playing

/-!
A macro call and what it holds.

`runEvents` plays the tokens of a stream at any depth of macros and from any tick on, and
`runEvents_event` and `runEvents_call` take it one item further. Complete events are read and
played alike inside a macro and in its place, so a call and what it holds lead to states that
differ in the count of expanded calls only (`OneCallApart`, `runEvents_inline`). A later call
that is refused because of that count tells the two apart.
-/

namespace Partitura

open Run

variable {P α β : Type}

/-! ### Streams of tokens -/

namespace Context

def book (c : Context P) : Book P :=
  ⟨c.macros, c.options.maxMacroDepth, c.options.maxMacroExpansions⟩

/-- Whether a stream that is `depth` macros deep ends before these tokens. A macro is played to
its last token. -/
def endsAt (c : Context P) (depth : Nat) (ts : List (Token P)) : Bool :=
  depth == 0 && endsStream c.defines ts

/-- The items of a stream that is `depth` macros deep, and the tokens it leaves. -/
def itemsAt (c : Context P) (depth : Nat) (ts : List (Token P)) :
    List (Placed (Item P)) × List (Token P) :=
  readItems (c.endsAt depth) ts

def stepsAt (c : Context P) (depth : Nat) (items : List (Placed (Item P))) :
    List (Placed (Step P)) :=
  (script c.book (c.options.maxMacroDepth - depth) c.expansions items).steps

def counted (c : Context P) : Context P := { c with expansions := c.expansions + 1 }

lemma defines_congr {c d : Context P} (h : d.stock = c.stock) : d.defines = c.defines := by
  have hinstruments : d.instruments = c.instruments := congrArg (·.2.2) h
  funext id
  rw [defines, defines, hinstruments]

lemma itemsAt_congr {c d : Context P} (h : d.stock = c.stock) (depth : Nat)
    (ts : List (Token P)) : d.itemsAt depth ts = c.itemsAt depth ts := by
  have hends : d.endsAt depth = c.endsAt depth := by
    funext us
    rw [endsAt, endsAt, defines_congr h]
  rw [itemsAt, itemsAt, hends]

lemma book_congr {c d : Context P} (h : d.stock = c.stock) : d.book = c.book := by
  have hoptions : d.options = c.options := congrArg (·.1) h
  have hmacros : d.macros = c.macros := congrArg (·.2.1) h
  rw [book, book, hoptions, hmacros]

lemma stepsAt_congr {c d : Context P} (h : d.stock = c.stock)
    (hcount : d.expansions = c.expansions) (depth : Nat) (items : List (Placed (Item P))) :
    d.stepsAt depth items = c.stepsAt depth items := by
  have hoptions : d.options = c.options := congrArg (·.1) h
  rw [stepsAt, stepsAt, book_congr h, hoptions, hcount]

lemma itemsAt_event {c : Context P} {depth : Nat} {t : Token P} {ts : List (Token P)}
    (hends : c.endsAt depth (t :: ts) = false) (ht : startsEvent t = true) :
    c.itemsAt depth (t :: ts) =
      (⟨itemOf (readEvent (t :: ts)).1, (readEvent (t :: ts)).2.length⟩ ::
          (c.itemsAt depth (readEvent (t :: ts)).2).1,
        (c.itemsAt depth (readEvent (t :: ts)).2).2) := by
  rw [itemsAt, readItems, if_neg (by simp [hends])]
  split
  · simp_all [startsEvent]
  · rw [if_pos ht]
    rfl

lemma itemsAt_call (c : Context P) (depth : Nat) (name : String) (p : P) (ts : List (Token P)) :
    c.itemsAt depth (⟨.call name, p⟩ :: ts) =
      (⟨.call ⟨.call name, p⟩ name (readCallArgs ts).1, (readCallArgs ts).2.length⟩ ::
          (c.itemsAt depth (readCallArgs ts).2).1,
        (c.itemsAt depth (readCallArgs ts).2).2) := by
  have hends : c.endsAt depth (⟨.call name, p⟩ :: ts) = false := by simp [endsAt, endsStream]
  rw [itemsAt, readItems, if_neg (by simp [hends])]
  rfl

end Context

namespace Run

/-- Play a stream of tokens that is `depth` macros deep, `offset` ticks into it. The result is
how far it has come then, and the tokens it leaves. -/
def runEvents (s : Stage) (depth : Nat) (offset : Int) (ts : List (Token P)) :
    Run P (Int × List (Token P)) := do
  let c ← get
  let (items, rest) := c.itemsAt depth ts
  return (← runSteps s (c.stepsAt depth items) offset, rest)

/-- The stream of a voice is played from its start and outside of macros. -/
lemma runEvents_zero (s : Stage) (ts : List (Token P)) :
    runEvents s 0 0 ts = do
      let c ← get
      let (items, rest) := readStream c.defines ts
      return (← perform s items, rest) := rfl

lemma run_runEvents (s : Stage) (depth : Nat) (offset : Int) (ts : List (Token P))
    (c : Context P) :
    (runEvents s depth offset ts).run c =
      (runSteps s (c.stepsAt depth (c.itemsAt depth ts).1) offset >>= fun tick =>
        pure (tick, (c.itemsAt depth ts).2)).run c := rfl

lemma runEvents_nil (s : Stage) (depth : Nat) (offset : Int) (c : Context P) :
    (runEvents s depth offset []).run c = .ok (offset, []) c := by
  have hitems : c.itemsAt depth [] = ([], []) := by rw [Context.itemsAt, readItems]
  rw [run_runEvents, hitems, Context.stepsAt, script_nil]
  rfl

lemma played_event {s : Stage} {offset tick : Int} {e : WrittenEvent P} {place : Place}
    {c d : Context P} (h : (placed place (step s offset (.play e))).run c = .ok tick d) :
    d.stock = c.stock ∧ d.expansions = c.expansions := by
  have hplayed : Played [⟨.play e, 0⟩] c d := played_step (by simpa using eval_eq_ok.mpr h)
  exact ⟨hplayed.stock, by simpa [Step.isExpand] using hplayed.expansions⟩

/-- A stream goes on behind an event, in the state that playing it leads to. -/
lemma runEvents_event {s : Stage} {depth : Nat} {offset : Int} {c : Context P} {t : Token P}
    {ts rest : List (Token P)} {e : WrittenEvent P} (hends : c.endsAt depth (t :: ts) = false)
    (ht : startsEvent t = true) (hread : readEvent (t :: ts) = (.ok e, rest)) :
    (runEvents s depth offset (t :: ts)).run c =
      (placed (.unread rest.length) (step s offset (.play e)) >>= fun tick =>
        runEvents s depth tick rest).run c := by
  have hsteps : c.stepsAt depth (⟨.event e, rest.length⟩ :: (c.itemsAt depth rest).1) =
      ⟨.play e, rest.length⟩ :: c.stepsAt depth (c.itemsAt depth rest).1 := by
    rw [Context.stepsAt, script_event]
    rfl
  simp only [run_runEvents, Context.itemsAt_event hends ht, hread, itemOf, hsteps, runSteps_cons,
    bind_assoc]
  refine run_bind_congr fun tick d hstep => ?_
  obtain ⟨hstock, hcount⟩ := played_event hstep
  rw [run_runEvents, Context.itemsAt_congr hstock, Context.stepsAt_congr hstock hcount]

/-- An event that cannot be read stops a stream. -/
lemma runEvents_broken {s : Stage} {depth : Nat} {offset : Int} {c : Context P} {t : Token P}
    {ts rest : List (Token P)} {f : Fault} (hends : c.endsAt depth (t :: ts) = false)
    (ht : startsEvent t = true) (hread : readEvent (t :: ts) = (.error f, rest)) :
    (runEvents s depth offset (t :: ts)).run c = .error ⟨f, .unread rest.length⟩ c := by
  have hsteps : c.stepsAt depth (⟨.broken f, rest.length⟩ :: (c.itemsAt depth rest).1) =
      ⟨.halt f, rest.length⟩ :: c.stepsAt depth (c.itemsAt depth rest).1 := by
    rw [Context.stepsAt, script_broken]
    rfl
  simp only [run_runEvents, Context.itemsAt_event hends ht, hread, itemOf, hsteps, runSteps_cons,
    bind_assoc]
  rfl

section IsEvent

variable {s : Stage} {depth : Nat} {offset : Int} {c : Context P} {us rest : List (Token P)}

/-- A complete event is played, whatever breaks off behind it. -/
lemma runEvents_ok {e : WrittenEvent P} (hus : IsEvent us) (hread : ReadsAs readEvent us (.ok e))
    (hrest : BreaksOff rest) (hends : c.endsAt depth (us ++ rest) = false) :
    (runEvents s depth offset (us ++ rest)).run c =
      (placed (.unread rest.length) (step s offset (.play e)) >>= fun tick =>
        runEvents s depth tick rest).run c := by
  have hread := hread.ok hrest
  obtain ⟨t, ts, rfl, ht⟩ := hus.exists_cons
  exact runEvents_event hends ht hread

lemma runEvents_error {f : Fault} (hus : IsEvent us) (hread : ReadsAs readEvent us (.error f))
    (hrest : BreaksOff rest) (hends : c.endsAt depth (us ++ rest) = false) :
    ∃ place, (runEvents s depth offset (us ++ rest)).run c = .error ⟨f, place⟩ c := by
  obtain ⟨behind, hread⟩ := hread.error hrest
  obtain ⟨t, ts, rfl, ht⟩ := hus.exists_cons
  exact ⟨_, runEvents_broken hends ht hread⟩

end IsEvent

end Run

/-! ### Calls -/

def Placed.leaving (n : Nat) (p : Placed α) : Placed α := { p with unread := n }

lemma Macro.items_leaving (m : Macro P) (args : List (List (Token P))) (n k : Nat) :
    (m.items args k).map (·.leaving n) = m.items args n := by
  simp [Macro.items, Placed.leaving]

def Script.leaving (n : Nat) (s : Script P) : Script P :=
  { s with steps := s.steps.map (·.leaving n) }

/-- The places of items are those of their steps. -/
lemma script_leaving (book : Book P) (n depth used : Nat) (items : List (Placed (Item P))) :
    script book depth used (items.map (·.leaving n)) =
      (script book depth used items).leaving n := by
  induction depth, used, items using script_induction book with
  | nil => simp [Script.leaving]
  | event depth used e unread rest ih =>
    rw [List.map_cons, Placed.leaving, script_event, script_event, ih]
    rfl
  | broken depth used f unread rest ih =>
    rw [List.map_cons, Placed.leaving, script_broken, script_broken, ih]
    rfl
  | refuse depth used t name args unread rest issue h ih =>
    rw [List.map_cons, Placed.leaving, script_refuse _ _ h, script_refuse _ _ h, ih]
    rfl
  | expand depth used t name args unread rest m h ih₁ ih₂ =>
    rw [List.map_cons, Placed.leaving, script_expand _ _ h, script_expand _ _ h,
      ← m.items_leaving args n unread, ih₁]
    simp only [Script.leaving, List.map_cons, List.map_append] at ih₂ ⊢
    rw [ih₂]
    rfl

namespace Run

lemma runSteps_leaving (s : Stage) (n : Nat) (steps : List (Placed (Step P))) (offset : Int) :
    runSteps s (steps.map (·.leaving n)) offset = placed (.unread n) (runSteps s steps offset) := by
  induction steps generalizing offset with
  | nil => rfl
  | cons p steps ih =>
    rw [List.map_cons, runSteps_cons, runSteps_cons, placed_bind, placed_placed]
    simp only [← ih]
    rfl

/-- The script of what a macro holds, in the state where the call is counted. -/
def insideScript (c : Context P) (depth : Nat) (body : List (Token P)) : Script P :=
  script c.book (c.options.maxMacroDepth - (depth + 1)) (c.expansions + 1)
    (c.counted.itemsAt (depth + 1) body).1

lemma stepsAt_call {depth : Nat} {c : Context P} {name : String} {args : List (List (Token P))}
    {m : Macro P} (hm : get? name c.macros = some m) (hdepth : depth < c.options.maxMacroDepth)
    (hleft : c.expansions < c.options.maxMacroExpansions) (t : Token P) (n : Nat)
    (items : List (Placed (Item P))) :
    c.stepsAt depth (⟨.call t name args, n⟩ :: items) =
      ⟨.expand, n⟩ :: ((insideScript c depth (m.expand args)).steps.map (·.leaving n) ++
        (script c.book (c.options.maxMacroDepth - depth)
          (insideScript c depth (m.expand args)).total items).steps) := by
  have hlevel : c.options.maxMacroDepth - depth = c.options.maxMacroDepth - (depth + 1) + 1 := by
    omega
  have hlookUp : c.book.lookUp (c.options.maxMacroDepth - (depth + 1) + 1) c.expansions name =
      .ok m := lookUp_eq_ok.mpr ⟨hm, by omega, hleft⟩
  have hbody : m.items args n =
      (c.counted.itemsAt (depth + 1) (m.expand args)).1.map (·.leaving n) := rfl
  rw [Context.stepsAt, hlevel, script_expand _ _ hlookUp, hbody, script_leaving]
  rfl

/-- **A call that is expanded plays what the macro holds**, one macro deeper; then the stream
goes on behind the call. -/
lemma runEvents_call {s : Stage} {depth : Nat} {offset : Int} {c : Context P} {name : String}
    {p : P} {ts rest : List (Token P)} {args : List (List (Token P))} {m : Macro P}
    (hm : get? name c.macros = some m) (hdepth : depth < c.options.maxMacroDepth)
    (hleft : c.expansions < c.options.maxMacroExpansions) (hcall : readCallArgs ts = (args, rest)) :
    (runEvents s depth offset (⟨.call name, p⟩ :: ts)).run c =
      (placed (.unread rest.length) (runEvents s (depth + 1) offset (m.expand args)) >>=
        fun q => runEvents s depth q.1 rest).run c.counted := by
  have hexpand : (placed (.unread rest.length) (step s offset .expand)).run c =
      .ok offset c.counted := rfl
  have hinside : (placed (.unread rest.length) (runEvents s (depth + 1) offset (m.expand args))).run
      c.counted = (placed (.unread rest.length)
        (runSteps s (insideScript c depth (m.expand args)).steps offset) >>= fun tick =>
          pure (tick, (c.counted.itemsAt (depth + 1) (m.expand args)).2)).run c.counted := by
    rw [placed_congr _ (run_runEvents s (depth + 1) offset (m.expand args) c.counted), placed_bind]
    rfl
  rw [run_runEvents, Context.itemsAt_call, hcall]
  simp only [stepsAt_call hm hdepth hleft, runSteps_cons, runSteps_append, runSteps_leaving,
    bind_assoc]
  rw [EStateM.run_bind, hexpand, EStateM.run_bind (x := placed _ (runEvents _ _ _ _)), hinside,
    ← EStateM.run_bind]
  simp only [bind_assoc, pure_bind]
  refine run_bind_congr fun tick d hrun => ?_
  have hplayed : Played (insideScript c depth (m.expand args)).steps c.counted d :=
    played_runSteps (by simpa using eval_eq_ok.mpr hrun)
  have hcount : d.expansions = (insideScript c depth (m.expand args)).total := by
    rw [hplayed.expansions, insideScript, script_total]
    rfl
  have hoptions : d.options = c.options := hplayed.options
  rw [run_runEvents, Context.itemsAt_congr hplayed.stock, Context.stepsAt,
    Context.book_congr hplayed.stock, hcount, hoptions]
  rfl

end Run

/-! ### One call more -/

/-- Two runs end alike, with one result or with one fault, and in the first one more call was
expanded. -/
inductive OneCallApart :
    EStateM.Result Stop (Context P) α → EStateM.Result Stop (Context P) α → Prop
  | ok (a : α) (c : Context P) : OneCallApart (.ok a c.counted) (.ok a c)
  | error (f : Fault) (place place' : Place) (c : Context P) :
    OneCallApart (.error ⟨f, place⟩ c.counted) (.error ⟨f, place'⟩ c)

namespace Run

/-- From states one call apart, two runs stay so. -/
def Parallel (x y : Run P α) : Prop := ∀ c, OneCallApart (x.run c.counted) (y.run c)

namespace Parallel

lemma pure (a : α) : Parallel (pure a : Run P α) (pure a) := fun c => .ok a c

lemma throw (s : Stop) : Parallel (throw s : Run P α) (throw s) := fun c => .error _ _ _ c

lemma lift (x : Except Fault α) : Parallel (lift x : Run P α) (lift x) := by
  cases x with
  | ok a => exact .pure a
  | error f => exact .throw _

lemma modify {f : Context P → Context P} (h : ∀ c, f c.counted = (f c).counted) :
    Parallel (modify f) (modify f) := by
  intro c
  have hrun : (MonadState.modifyGet fun c => ((), f c) : Run P Unit).run c.counted =
      .ok () (f c).counted := by rw [← h]; rfl
  exact hrun ▸ .ok () (f c)

/-- What follows has to be parallel only where the second run leads. -/
lemma run_bind {x y : Run P α} {f g : α → Run P β} (hx : Parallel x y) {c : Context P}
    (hf : ∀ a d, y.run c = .ok a d → OneCallApart ((f a).run d.counted) ((g a).run d)) :
    OneCallApart ((x >>= f).run c.counted) ((y >>= g).run c) := by
  have h := hx c
  rw [EStateM.run_bind, EStateM.run_bind]
  generalize x.run c.counted = r at h ⊢
  generalize hy : y.run c = r' at h ⊢
  cases h with
  | ok a d => exact hf a d hy
  | error f place place' d => exact .error f place place' d

lemma bind {x y : Run P α} {f g : α → Run P β} (hx : Parallel x y)
    (hf : ∀ a, Parallel (f a) (g a)) : Parallel (x >>= f) (y >>= g) :=
  fun _ => hx.run_bind fun a d _ => hf a d

lemma get_bind {f g : Context P → Run P α} (h : ∀ c, Parallel (f c.counted) (g c)) :
    Parallel (get >>= f) (get >>= g) := fun c => h c c

lemma placed {x y : Run P α} (h : Parallel x y) (place place' : Place) :
    Parallel (placed place x) (placed place' y) := by
  intro c
  have h := h c
  rw [Run.placed, Run.placed, EStateM.run_adaptExcept, EStateM.run_adaptExcept]
  generalize x.run c.counted = r, y.run c = r' at h ⊢
  cases h with
  | ok a d => exact .ok a d
  | error f _ _ d => exact .error f place place' d

lemma ite {p : Prop} [Decidable p] {x x' : Run P α} (h : Parallel x x) (h' : Parallel x' x') :
    Parallel (if p then x else x') (if p then x else x') := by
  split
  · exact h
  · exact h'

lemma mapM {γ : Type} {f : γ → Run P α} (h : ∀ x, Parallel (f x) (f x)) (xs : List γ) :
    Parallel (xs.mapM f) (xs.mapM f) := by
  induction xs with
  | nil => exact .pure []
  | cons x xs ih =>
    rw [List.mapM_cons]
    exact (h x).bind fun _ => ih.bind fun _ => .pure _

end Parallel

lemma report_parallel (issue : Issue) (t : Option (Token P)) :
    Parallel (report issue t) (report issue t) :=
  .modify fun _ => rfl

lemma reportOnce_parallel (issue : Issue) (t : Option (Token P)) :
    Parallel (reportOnce issue t) (reportOnce issue t) :=
  .get_bind fun c => .ite (p := issue ∈ c.once) (.pure ()) <|
    .bind (.modify fun _ => rfl) fun _ => report_parallel issue t

lemma modifyCursor_parallel (key : VoiceKey) (f : Cursor → Cursor) :
    Parallel (modifyCursor key f : Run P Unit) (modifyCursor key f) :=
  .modify fun _ => rfl

lemma resolve_parallel (i : Instrument) (key : VoiceKey) (t : Option (Token P)) (pitch : String) :
    Parallel (resolve i key t pitch) (resolve i key t pitch) := by
  refine .get_bind fun c => .bind (modifyCursor_parallel _ _) fun _ =>
    .bind (.lift _) fun found => ?_
  cases found with
  | some p => exact .pure p
  | none => exact .bind (report_parallel _ _) fun _ => .pure _

lemma setLength_parallel (key : VoiceKey) (e : WrittenEvent P) :
    Parallel (setLength key e) (setLength key e) := by
  unfold setLength
  split
  · exact modifyCursor_parallel _ _
  · exact modifyCursor_parallel _ _
  · exact .bind (modifyCursor_parallel _ _) fun _ => report_parallel _ _

lemma sound_parallel (s : Stage) (e : WrittenEvent P) : Parallel (sound s e) (sound s e) :=
  .ite (.pure _) (.bind (.mapM (fun _ => resolve_parallel _ _ _ _) _) fun _ => .pure _)

lemma place_parallel (key : VoiceKey) (e : Event) (t : Option (Token P)) :
    Parallel (place key e t) (place key e t) := by
  refine .get_bind fun c => .bind (.modify fun _ => rfl) fun _ => ?_
  exact .ite (p := (c.timeline.add e).1 = true) (modifyCursor_parallel _ _)
    (reportOnce_parallel _ _)

lemma play_parallel (s : Stage) (offset : Int) (e : WrittenEvent P) :
    Parallel (play s offset e) (play s offset e) :=
  .bind (setLength_parallel _ _) fun _ => .bind (sound_parallel _ _) fun _ => .get_bind fun _ =>
    .bind (.lift _) fun _ => .bind (.lift _) fun _ => .bind (.lift _) fun _ =>
      .bind (place_parallel _ _ _) fun _ => .pure _

lemma step_parallel (s : Stage) (offset : Int) (step : Step P) :
    Parallel (Run.step s offset step) (Run.step s offset step) := by
  cases step with
  | play e => exact .bind (play_parallel s offset e) fun _ => .pure _
  | expand => exact .bind (.modify fun _ => rfl) fun _ => .pure _
  | refuse issue t => exact .bind (reportOnce_parallel _ _) fun _ => .pure _
  | halt f => exact .throw _

lemma runSteps_parallel (s : Stage) (steps : List (Placed (Step P))) (offset : Int) :
    Parallel (runSteps s steps offset) (runSteps s steps offset) := by
  induction steps generalizing offset with
  | nil => exact .pure offset
  | cons p steps ih =>
    rw [runSteps_cons]
    exact .bind ((step_parallel s offset p.value).placed _ _) ih

/-! ### Inlining -/

/-- A stream that keeps within the budget after one more call is played as it is without. -/
lemma runEvents_counted {s : Stage} {depth : Nat} {offset : Int} {ts : List (Token P)}
    {c : Context P} (h : WithinBudget (c.counted.stepsAt depth (c.itemsAt depth ts).1)) :
    OneCallApart ((runEvents s depth offset ts).run c.counted)
      ((runEvents s depth offset ts).run c) := by
  have hsteps : c.counted.stepsAt depth (c.itemsAt depth ts).1 =
      c.stepsAt depth (c.itemsAt depth ts).1 := by
    have hadd := script_add c.book 1 (c.options.maxMacroDepth - depth) c.expansions _ h
    exact (congrArg Script.steps hadd :)
  have hitems : c.counted.itemsAt depth ts = c.itemsAt depth ts := rfl
  rw [run_runEvents, run_runEvents, hitems, hsteps]
  exact (runSteps_parallel s _ offset).bind (fun _ => .pure _) c

/-- Complete events are played alike in a macro that was just called and in its place. -/
lemma runEvents_flatten {s : Stage} {depth : Nat} {place : Place} {rest : List (Token P)}
    (hrest : BreaksOff rest) {events : List (List (Token P))} (hevents : ∀ e ∈ events, IsEvent e)
    {offset : Int} {c : Context P} (hstay : ∀ e ∈ events, endsStream c.defines e = false)
    (hbudget : WithinBudget (c.counted.stepsAt depth (c.itemsAt depth rest).1)) :
    OneCallApart
      ((placed place (runEvents s (depth + 1) offset events.flatten) >>=
        fun q => runEvents s depth q.1 rest).run c.counted)
      ((runEvents s depth offset (events.flatten ++ rest)).run c) := by
  induction events generalizing offset c with
  | nil =>
    have hnil : (placed place (runEvents s (depth + 1) offset [])).run c.counted =
        .ok (offset, []) c.counted := by
      rw [placed, EStateM.run_adaptExcept, runEvents_nil]
    rw [List.flatten_nil, EStateM.run_bind, hnil]
    exact runEvents_counted hbudget
  | cons e events ih =>
    obtain ⟨he, hothers⟩ := List.forall_mem_cons.mp hevents
    obtain ⟨hends, hstay⟩ := List.forall_mem_cons.mp hstay
    have hbody : BreaksOff events.flatten := by
      simpa using breaksOff_flatten hothers (show BreaksOff [] by simp [BreaksOff])
    have hbehind : BreaksOff (events.flatten ++ rest) := breaksOff_flatten hothers hrest
    have hinside : c.counted.endsAt (depth + 1) (e ++ events.flatten) = false := rfl
    have houtside : c.endsAt depth (e ++ (events.flatten ++ rest)) = false := by
      rw [Context.endsAt, endsStream_append hends hbehind, Bool.and_false]
    rw [List.flatten_cons, List.append_assoc, EStateM.run_bind]
    obtain ⟨r, hr⟩ := he.read
    cases r with
    | error f =>
      obtain ⟨_, h₁⟩ := runEvents_error (s := s) he hr hbody hinside
      obtain ⟨_, h₂⟩ := runEvents_error (s := s) he hr hbehind houtside
      rw [h₂, placed, EStateM.run_adaptExcept, h₁]
      exact .error f _ _ c
    | ok ev =>
      rw [placed_congr place (runEvents_ok he hr hbody hinside), placed_bind, placed_placed,
        ← EStateM.run_bind, bind_assoc, runEvents_ok he hr hbehind houtside]
      refine ((step_parallel s offset (.play ev)).placed _ _).run_bind fun tick d hrun => ?_
      -- an event leaves alone what the others are read and played with
      obtain ⟨hstock, hcount⟩ := played_event hrun
      have hcounted : d.counted.stepsAt depth = c.counted.stepsAt depth :=
        funext (Context.stepsAt_congr (c := c.counted) (d := d.counted) hstock
          (congrArg (· + 1) hcount) depth)
      refine ih hothers ?_ ?_
      · rwa [Context.defines_congr hstock]
      · rwa [Context.itemsAt_congr hstock, hcounted]

/-- A call within the limits whose macro holds complete events, `rest` behind it. None of the
events would end the stream in its place, and `rest` does not go on with the last one. -/
structure Inlinable (c : Context P) (depth : Nat) (name : String) (ts body rest : List (Token P)) :
    Prop where
  expands : ∃ m args, get? name c.macros = some m ∧ readCallArgs ts = (args, rest) ∧
    m.expand args = body
  nests : depth < c.options.maxMacroDepth
  counts : c.expansions < c.options.maxMacroExpansions
  complete : ∃ events : List (List (Token P)), body = events.flatten ∧
    (∀ e ∈ events, IsEvent e) ∧ ∀ e ∈ events, endsStream c.defines e = false
  breaksOff : BreaksOff rest

/-- **A macro call means what the macro holds**, as long as no call behind it is refused because
too many were expanded. -/
theorem runEvents_inline {c : Context P} {depth : Nat} {name : String}
    {ts body rest : List (Token P)} (h : Inlinable c depth name ts body rest)
    (hbudget : WithinBudget (c.counted.stepsAt depth (c.itemsAt depth rest).1)) (s : Stage)
    (offset : Int) (p : P) :
    OneCallApart ((runEvents s depth offset (⟨.call name, p⟩ :: ts)).run c)
      ((runEvents s depth offset (body ++ rest)).run c) := by
  obtain ⟨m, args, hm, hcall, rfl⟩ := h.expands
  obtain ⟨events, hbody, hevents, hstay⟩ := h.complete
  rw [runEvents_call hm h.nests h.counts hcall, hbody]
  exact runEvents_flatten h.breaksOff hevents hstay hbudget

/-! A macro of a note that takes its pitch from the call and of a chord, called before another
macro. -/

def mark (p : Punct) : Token Unit := ⟨.punct p, ()⟩

def sign (s : String) : Token Unit := ⟨.symbol s, ()⟩

def callOf (name : String) : Token Unit := ⟨.call name, ()⟩

def soloist : Stage where
  instrument := { id := "p", label := "p" }
  voice := "v1"
  base := 0
  measure := some 1

def withCalls (calls : Nat) : Context Unit :=
  { Context.start { maxMacroExpansions := calls } .shipped with
    macros := [
      ("M", ⟨"M", ["x"], [callOf "x", mark .colon, sign "8.vol", mark .openParen, sign "90",
        mark .closeParen, mark .openBracket, sign "c", sign "e", mark .closeBracket,
        sign ".grace"]⟩),
      ("N", ⟨"N", [], [sign "d"]⟩)] }

def behindCall : List (Token Unit) :=
  [mark .openParen, sign "c5", mark .closeParen, callOf "N"]

def heldEvents : List (List (Token Unit)) := [
  [sign "c5", mark .colon, sign "8.vol", mark .openParen, sign "90", mark .closeParen],
  [mark .openBracket, sign "c", sign "e", mark .closeBracket, sign ".grace"]]

lemma heldEvents_isEvent : ∀ e ∈ heldEvents, IsEvent e := by
  have hname : (holdsName ((Text.cutAt '.' "c5".toList).2.getD []) || lengthHoldsName "8.vol") =
      true := by decide +kernel
  have hargs : IsClosed 0 [sign "90", mark .closeParen] := .pass (by decide) (.close ())
  have htail : IsTail true true [mark .openParen, sign "90", mark .closeParen] :=
    .args () hargs .nil
  have hchord : ∀ t ∈ [sign "c", sign "e"],
      t.lexeme ∉ [.punct .bar, .punct .closeBrace, .punct .closeBracket] := by decide
  have hgrace : ".grace".toList = '.' :: "grace".toList := by decide
  rintro e (_ | ⟨_, _ | ⟨_, ⟨⟩⟩⟩)
  · exact .single () (by decide) (.length () () (hname ▸ htail))
  · exact .chord () () hchord (.names () hgrace .nil)

lemma withCalls_inlinable {calls : Nat} (h : 0 < calls) :
    Inlinable (withCalls calls) 0 "M" behindCall heldEvents.flatten [callOf "N"] where
  expands := ⟨_, [[sign "c5"]], rfl, rfl, by decide⟩
  nests := Nat.zero_lt_succ 31
  counts := h
  complete := by
    refine ⟨heldEvents, rfl, heldEvents_isEvent, ?_⟩
    show ∀ e ∈ heldEvents, endsStream (fun _ => false) e = false
    decide
  breaksOff := by simp [BreaksOff, continuesEvent, callOf]

/-- With two calls left, both are expanded. -/
theorem runEvents_inline_withCalls :
    Inlinable (withCalls 2) 0 "M" behindCall heldEvents.flatten [callOf "N"] ∧
      WithinBudget ((withCalls 2).counted.stepsAt 0 ((withCalls 2).itemsAt 0 [callOf "N"]).1) ∧
      OneCallApart ((runEvents soloist 0 0 (callOf "M" :: behindCall)).run (withCalls 2))
        ((runEvents soloist 0 0 (heldEvents.flatten ++ [callOf "N"])).run (withCalls 2)) := by
  have hinlinable := withCalls_inlinable (show 0 < 2 by decide)
  have hbudget : WithinBudget
      ((withCalls 2).counted.stepsAt 0 ((withCalls 2).itemsAt 0 [callOf "N"]).1) := by
    have hexpanded : ((withCalls 2).counted.stepsAt 0
        ((withCalls 2).itemsAt 0 [callOf "N"]).1).all (fun p => match p.value with
          | .refuse _ _ => false
          | _ => true) = true := by decide +kernel
    intro p hp n t hrefuse
    have := List.all_eq_true.mp hexpanded p hp
    simp [hrefuse] at this
  exact ⟨hinlinable, hbudget, runEvents_inline hinlinable hbudget soloist 0 ()⟩

/-- **The last call that may be expanded cannot be replaced** where another one follows: only
without the first one there is a call left for it. -/
theorem not_inline_lastCall :
    Inlinable (withCalls 1) 0 "M" behindCall heldEvents.flatten [callOf "N"] ∧
      ¬ OneCallApart ((runEvents soloist 0 0 (callOf "M" :: behindCall)).run (withCalls 1))
        ((runEvents soloist 0 0 (heldEvents.flatten ++ [callOf "N"])).run (withCalls 1)) := by
  refine ⟨withCalls_inlinable (by decide), fun h => ?_⟩
  have hlengths : (match (runEvents soloist 0 0 (callOf "M" :: behindCall)).run (withCalls 1),
        (runEvents soloist 0 0 (heldEvents.flatten ++ [callOf "N"])).run (withCalls 1) with
      | .ok _ c, .ok _ d => c.timeline.newest.length == 2 && d.timeline.newest.length == 3
      | _, _ => false) = true := by decide +kernel
  generalize (runEvents soloist 0 0 (callOf "M" :: behindCall)).run (withCalls 1) = r
    at h hlengths
  generalize (runEvents soloist 0 0 (heldEvents.flatten ++ [callOf "N"])).run (withCalls 1) = r'
    at h hlengths
  cases h with
  | ok q c =>
    simp only [Context.counted, Bool.and_eq_true, beq_iff_eq] at hlengths
    omega
  | error => cases hlengths

end Run

end Partitura
