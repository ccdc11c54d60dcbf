import Partitura.Compile
import Partitura.Proofs.Attributes
import Partitura.Proofs.Lexing
import Partitura.Proofs.Playing
import Partitura.Proofs.Relabel

/-!
What a source text means does not depend on where its tokens stand.

A compilation carries positions from tokens into reports and looks at none of them. `Relabels f g`
says this of a run: from a state whose tokens were moved by `f` it comes to the same result, with
the tokens moved. The judgement has a rule for each way to put runs together, so that every step of
a compilation has a lemma of one or two lines, and `compileTokens_map` follows. Two texts with the
same tokens are then compared through the compilation of tokens that stand nowhere.
-/

namespace Partitura

open Number Run

variable {P Q α β γ δ : Type}

/-! ### Scripts -/

section Scripts

variable (f : P → Q)

def Macro.map (m : Macro P) : Macro Q := ⟨m.name, m.params, m.body.map (Token.map f)⟩

lemma get?_map (g : α → β) (key : String) (l : List (String × α)) :
    get? key (l.map (Prod.map id g)) = (get? key l).map g := by
  fun_induction get? key l <;> simp_all [get?]

lemma put_map (g : α → β) (key : String) (value : α) (l : List (String × α)) :
    put key (g value) (l.map (Prod.map id g)) = (put key value l).map (Prod.map id g) := by
  fun_induction put key value l <;> simp_all [put]

lemma Macro.slot?_map (m : Macro P) (t : Token P) : (m.map f).slot? (t.map f) = m.slot? t := rfl

lemma Macro.expand_map (m : Macro P) (args : List (List (Token P))) :
    (m.map f).expand (args.map (List.map (Token.map f))) = (m.expand args).map (Token.map f) := by
  simp only [expand, map, List.flatMap_map, List.map_flatMap]
  congr 1
  funext t
  rw [← Macro.map, slot?_map]
  cases m.slot? t with
  | none => rfl
  | some i => cases h : args[i]? <;> simp [h]

lemma Macro.items_map (m : Macro P) (args : List (List (Token P))) (unread : Nat) :
    (m.map f).items (args.map (List.map (Token.map f))) unread =
      (m.items args unread).map (Placed.map (Item.map f)) := by
  rw [items, expand_map, readBody_map]
  simp [items, Placed.map]

def Book.map (book : Book P) : Book Q :=
  ⟨book.macros.map (Prod.map id (Macro.map f)), book.maxDepth, book.maxExpansions⟩

lemma Book.lookUp_map (book : Book P) (depth used : Nat) (name : String) :
    (book.map f).lookUp depth used name = (book.lookUp depth used name).map (Macro.map f) := by
  simp only [lookUp, map, get?_map]
  cases get? name book.macros with
  | none => rfl
  | some m =>
    by_cases hdepth : depth = 0
    · simp [hdepth, Except.map]
    · by_cases hused : used < book.maxExpansions <;> simp [hdepth, hused, Except.map]

def Step.map : Step P → Step Q
  | .play e => .play (e.map f)
  | .expand => .expand
  | .refuse issue t => .refuse issue (t.map f)
  | .halt fault => .halt fault

def Script.map (s : Script P) : Script Q := ⟨s.steps.map (Placed.map (Step.map f)), s.total⟩

lemma script_map (book : Book P) (depth used : Nat) (items : List (Placed (Item P))) :
    script (book.map f) depth used (items.map (Placed.map (Item.map f))) =
      (script book depth used items).map f := by
  induction depth, used, items using script_induction book with
  | nil => simp [Script.map]
  | event depth used e unread rest ih =>
    rw [List.map_cons, Placed.map, Item.map, script_event, script_event, ih]
    rfl
  | broken depth used fault unread rest ih =>
    rw [List.map_cons, Placed.map, Item.map, script_broken, script_broken, ih]
    rfl
  | refuse depth used t name args unread rest issue h ih =>
    have h' : (book.map f).lookUp depth used name = .error issue := by
      rw [Book.lookUp_map, h]
      rfl
    rw [List.map_cons, Placed.map, Item.map, script_refuse _ _ h, script_refuse _ _ h', ih]
    rfl
  | expand depth used t name args unread rest m h ih₁ ih₂ =>
    have h' : (book.map f).lookUp (depth + 1) used name = .ok (m.map f) := by
      rw [Book.lookUp_map, h]
      rfl
    rw [List.map_cons, Placed.map, Item.map, script_expand _ _ h, script_expand _ _ h',
      Macro.items_map, ih₁]
    simp only [Script.map, List.map_cons, List.map_append] at ih₂ ⊢
    rw [ih₂]
    rfl

end Scripts

/-! ### States -/

def Context.map (f : P → Q) (c : Context P) : Context Q where
  options := c.options
  library := c.library
  header := c.header
  macros := c.macros.map (Prod.map id (Macro.map f))
  instruments := c.instruments
  groups := c.groups
  cursors := c.cursors
  timeline := c.timeline
  reports := c.reports.map (Report.map f)
  once := c.once
  expansions := c.expansions

/-- The result of a run with the tokens of its state elsewhere. -/
def mapResult (f : P → Q) (g : α → β) :
    EStateM.Result Stop (Context P) α → EStateM.Result Stop (Context Q) β
  | .ok a c => .ok (g a) (c.map f)
  | .error s c => .error s (c.map f)

namespace Run

/-- In a state with its tokens elsewhere, the run `y` does what `x` does. -/
def Relabels (f : P → Q) (g : α → β) (x : Run P α) (y : Run Q β) : Prop :=
  ∀ c, y.run (c.map f) = mapResult f g (x.run c)

namespace Relabels

variable {f : P → Q} {g : α → β}

lemma pure (g : α → β) (a : α) : Relabels f g (pure a) (pure (g a)) := fun _ => rfl

lemma throw (s : Stop) : Relabels f g (throw s) (throw s) := fun _ => rfl

lemma lift (x : Except Fault α) : Relabels f id (lift x) (lift x) := by
  cases x with
  | ok a => exact .pure id a
  | error fault => exact .throw _

lemma modify {h : Context P → Context P} {h' : Context Q → Context Q}
    (hmap : ∀ c, h' (c.map f) = (h c).map f) : Relabels f id (modify h) (modify h') := by
  intro c
  show EStateM.Result.ok () (h' (c.map f)) = .ok () ((h c).map f)
  rw [hmap]

lemma bind {g' : γ → δ} {x : Run P α} {y : Run Q β} {h : α → Run P γ} {h' : β → Run Q δ}
    (hx : Relabels f g x y) (hh : ∀ a, Relabels f g' (h a) (h' (g a))) :
    Relabels f g' (x >>= h) (y >>= h') := by
  intro c
  rw [EStateM.run_bind, EStateM.run_bind, hx c]
  cases x.run c with
  | ok a d => exact hh a d
  | error s d => rfl

lemma get_bind {h : Context P → Run P α} {h' : Context Q → Run Q β}
    (hh : ∀ c, Relabels f g (h c) (h' (c.map f))) : Relabels f g (get >>= h) (get >>= h') :=
  fun c => hh c c

lemma placed {x : Run P α} {y : Run Q β} (h : Relabels f g x y) (place : Place) :
    Relabels f g (placed place x) (placed place y) := by
  intro c
  rw [Run.placed, Run.placed, EStateM.run_adaptExcept, EStateM.run_adaptExcept, h c]
  cases x.run c <;> rfl

lemma discard {x : Run P α} {y : Run Q β} (h : Relabels f g x y) :
    Relabels f id (discard x) (discard y) :=
  .bind h fun _ => .pure id ()

lemma ite {p : Prop} [Decidable p] {x x' : Run P α} {y y' : Run Q β} (h : Relabels f g x y)
    (h' : Relabels f g x' y') : Relabels f g (if p then x else x') (if p then y else y') := by
  split
  · exact h
  · exact h'

lemma forM {h : γ → δ} {x : γ → Run P PUnit} {y : δ → Run Q PUnit}
    (hxy : ∀ a, Relabels f id (x a) (y (h a))) (l : List γ) :
    Relabels f id (l.forM x) ((l.map h).forM y) := by
  induction l with
  | nil => exact .pure id ()
  | cons a l ih => exact .bind (hxy a) fun _ => ih

lemma foldlM {h : γ → δ} {x : α → γ → Run P α} {y : α → δ → Run Q α}
    (hxy : ∀ a c, Relabels f id (x a c) (y a (h c))) (l : List γ) (a : α) :
    Relabels f id (l.foldlM x a) ((l.map h).foldlM y a) := by
  induction l generalizing a with
  | nil => exact .pure id a
  | cons c l ih =>
    rw [List.map_cons, List.foldlM_cons, List.foldlM_cons]
    exact .bind (hxy a c) ih

lemma mapM {x : γ → Run P α} {y : γ → Run Q α} (hxy : ∀ a, Relabels f id (x a) (y a))
    (l : List γ) : Relabels f id (l.mapM x) (l.mapM y) := by
  induction l with
  | nil => exact .pure id []
  | cons a l ih =>
    rw [List.mapM_cons, List.mapM_cons]
    exact .bind (hxy a) fun _ => .bind ih fun _ => .pure id _

end Relabels

variable (f : P → Q)

lemma report_relabels (issue : Issue) (t : Option (Token P)) :
    Relabels f id (report issue t) (report issue (t.map (Token.map f))) :=
  .modify fun c => by simp [Context.map, Report.map, Function.comp_def]

lemma reportOnce_relabels (issue : Issue) (t : Option (Token P)) :
    Relabels f id (reportOnce issue t) (reportOnce issue (t.map (Token.map f))) := by
  refine .get_bind fun c => .ite (p := issue ∈ c.once) (.pure id ()) ?_
  exact .bind (.modify fun _ => rfl) fun _ => report_relabels f issue t

lemma modifyCursor_relabels (key : VoiceKey) (h : Cursor → Cursor) :
    Relabels f id (modifyCursor key h : Run P Unit) (modifyCursor key h) :=
  .modify fun _ => rfl

/-! ### Declarations -/

lemma applySetting_relabels (key value : String) (t : Option (Token P)) :
    Relabels f id (applySetting key value t) (applySetting key value (t.map (Token.map f))) := by
  refine .get_bind fun c => ?_
  have hheader : (c.map f).header = c.header := rfl
  rw [hheader]
  rcases c.header.apply key value with ⟨header, issue⟩
  refine .bind (g := id) (.modify fun _ => rfl) fun _ => ?_
  cases issue with
  | some issue => exact report_relabels f issue t
  | none => exact .pure id ()

lemma missingBlock_relabels (keyword : Option (Token P)) :
    Relabels f id (report (.missingBlock (textOf keyword)) keyword)
      (report (.missingBlock (textOf (keyword.map (Token.map f))))
        (keyword.map (Token.map f))) := by
  rw [textOf_map]
  exact report_relabels f _ keyword

lemma applyHeader_relabels (b : HeaderBlock P) :
    Relabels f id (applyHeader b) (applyHeader (b.map f)) := by
  obtain ⟨keyword, settings⟩ := b
  cases settings with
  | none => exact missingBlock_relabels f keyword
  | some settings =>
    exact .forM (h := Prod.map (Token.map f) id) (fun p => applySetting_relabels f _ _ (some p.1))
      settings

lemma search_relabels {α : Type} (s : Search α) :
    Relabels f id (search (P := P) s) (search s) := by
  have consulted {β : Type} (look : Library → Except Fault (β × Library)) :
      Relabels f id (consult (P := P) look) (consult look) :=
    .get_bind fun _ => .bind (.lift _) fun _ => .bind (.modify fun _ => rfl) fun _ => .pure id _
  cases s with
  | written found => exact .lift found
  | kit name g => exact .bind (consulted _) fun _ => .pure id _
  | tuning name g => exact .bind (consulted _) fun _ => .pure id _

lemma setAttribute_relabels (i : Instrument) (a : Attribute P) :
    Relabels f id (setAttribute i a) (setAttribute i (a.map f)) := by
  obtain ⟨key, value, t⟩ := a
  obtain ⟨s, issue, -, -, hset⟩ := exists_setBy i key value
  rw [Attribute.map, hset, hset]
  refine .bind (search_relabels f s) fun found => ?_
  cases found with
  | some j => exact .pure id j
  | none => exact .bind (report_relabels f issue (some t)) fun _ => .pure id i

lemma defineInstrument_relabels (group : Option String) (b : InstrumentBlock P) :
    Relabels f id (defineInstrument group b) (defineInstrument group (b.map f)) := by
  obtain ⟨keyword, body⟩ := b
  cases body with
  | none =>
    have hreport : Relabels f id (report (.missingId (textOf keyword)) keyword)
        (report (.missingId (textOf (keyword.map (Token.map f)))) (keyword.map (Token.map f))) := by
      rw [textOf_map]
      exact report_relabels f _ keyword
    exact .bind hreport fun _ => .pure id none
  | some d =>
    refine .bind (.foldlM (h := Attribute.map f) (setAttribute_relabels f) d.attributes _) fun i =>
      .get_bind fun c => ?_
    refine .ite (p := c.defines d.id.value = true) ?_ ?_
    · exact .bind (report_relabels f _ (some d.id)) fun _ => .pure id none
    · exact .bind (.modify fun _ => rfl) fun _ => .bind (.modify fun _ => rfl) fun _ => .pure id _

lemma defineGroup_relabels (b : GroupBlock P) :
    Relabels f id (defineGroup b) (defineGroup (b.map f)) := by
  obtain ⟨keyword, label, attributes, members⟩ := b
  cases members with
  | none => exact missingBlock_relabels f keyword
  | some blocks =>
    have hattributes : (attributes.map (Attribute.map f)).map (fun a => (a.key, a.value)) =
        attributes.map fun a => (a.key, a.value) := by
      simp [Attribute.map]
    refine .bind (.foldlM (h := Prod.map (InstrumentBlock.map f) id) (fun members p => ?_)
      blocks []) fun members => ?_
    · refine .bind ((defineInstrument_relabels f _ p.1).placed _) fun i => ?_
      cases i <;> exact .pure id _
    · simp only [GroupBlock.map, hattributes]
      exact .modify fun _ => rfl

lemma defineMacro_relabels (b : MacroBlock P) :
    Relabels f (Option.map (Macro.map f)) (defineMacro b) (defineMacro (b.map f)) := by
  obtain ⟨keyword, name, params, body⟩ := b
  have hparams : Relabels f id (declareParams name params)
      (declareParams name (params.map (Token.map f))) := by
    refine .foldlM (h := Token.map f) (fun names t => ?_) params []
    exact .ite (p := bareName t.value ∈ names)
      (.bind (report_relabels f _ (some t)) fun _ => .pure id _) (.pure id _)
  refine .bind hparams fun names => ?_
  cases body with
  | none => exact .bind (missingBlock_relabels f keyword) fun _ => .pure _ none
  | some body =>
    refine .bind (g := id) (.modify fun c => ?_) fun _ => .pure (Option.map (Macro.map f)) _
    exact congrArg (fun macros => { c.map f with macros })
      (put_map (Macro.map f) name ⟨name, names, body⟩ c.macros)

/-! ### Voices -/

lemma resolve_relabels (i : Instrument) (key : VoiceKey) (t : Option (Token P)) (s : String) :
    Relabels f id (resolve i key t s) (resolve i key (t.map (Token.map f)) s) := by
  refine .get_bind fun c => .bind (modifyCursor_relabels f _ _) fun _ =>
    .bind (.lift _) fun found => ?_
  cases found with
  | some p => exact .pure id p
  | none => exact .bind (report_relabels f _ t) fun _ => .pure id _

lemma setLength_relabels (key : VoiceKey) (e : WrittenEvent P) :
    Relabels f id (setLength key e) (setLength key (e.map f)) := by
  obtain ⟨anchor, pitches, chord, length, modifiers⟩ := e
  cases length with
  | unwritten => exact modifyCursor_relabels f _ _
  | value d => exact modifyCursor_relabels f key fun c => { c with duration := d.quarters }
  | unreadable text =>
    exact .bind (modifyCursor_relabels f _ _) fun _ => report_relabels f _ anchor

lemma sound_relabels (s : Stage) (e : WrittenEvent P) :
    Relabels f id (sound s e) (sound s (e.map f)) :=
  .ite (p := e.isRest = true) (.pure id _) <|
    .bind (.mapM (fun _ => resolve_relabels f _ _ e.anchor _) e.pitches) fun _ => .pure id _

lemma place_relabels (key : VoiceKey) (e : Event) (t : Option (Token P)) :
    Relabels f id (place key e t) (place key e (t.map (Token.map f))) := by
  refine .get_bind fun c => .bind (.modify fun _ => rfl) fun _ => ?_
  exact .ite (p := (c.timeline.add e).1 = true) (modifyCursor_relabels f _ _)
    (reportOnce_relabels f _ t)

lemma play_relabels (s : Stage) (offset : Int) (e : WrittenEvent P) :
    Relabels f id (play s offset e) (play s offset (e.map f)) :=
  .bind (setLength_relabels f _ e) fun _ => .bind (sound_relabels f s e) fun _ =>
    .get_bind fun _ => .bind (.lift _) fun _ => .bind (.lift _) fun _ => .bind (.lift _) fun _ =>
      .bind (place_relabels f _ _ e.anchor) fun _ => .pure id _

lemma step_relabels (s : Stage) (offset : Int) (step : Step P) :
    Relabels f id (Run.step s offset step) (Run.step s offset (step.map f)) := by
  cases step with
  | play e => exact .bind (play_relabels f s offset e) fun _ => .pure id _
  | expand => exact .bind (.modify fun _ => rfl) fun _ => .pure id _
  | refuse issue t => exact .bind (reportOnce_relabels f issue (some t)) fun _ => .pure id _
  | halt fault => exact .throw _

lemma scriptOf_map (c : Context P) (items : List (Placed (Item P))) :
    scriptOf (c.map f) (items.map (Placed.map (Item.map f))) =
      (scriptOf c items).map (Placed.map (Step.map f)) :=
  congrArg Script.steps (script_map f
    ⟨c.macros, c.options.maxMacroDepth, c.options.maxMacroExpansions⟩ c.options.maxMacroDepth
    c.expansions items)

lemma perform_relabels (s : Stage) (items : List (Placed (Item P))) :
    Relabels f id (perform s items) (perform s (items.map (Placed.map (Item.map f)))) := by
  refine .get_bind fun c => ?_
  rw [scriptOf_map]
  exact .foldlM (h := Placed.map (Step.map f))
    (fun offset p => (step_relabels f s offset p.value).placed _) _ 0

/-! ### Measures -/

lemma playEntry_relabels (base : Int) (measure : Option Int) (e : Entry P) :
    Relabels f id (playEntry base measure e) (playEntry base measure (e.map f)) := by
  cases e with
  | header b => exact applyHeader_relabels f b
  | part id voices =>
    refine .get_bind fun c => ?_
    have hinstrument : (c.map f).instrument? id = c.instrument? id := rfl
    rw [hinstrument]
    cases c.instrument? id with
    | none => exact .pure _ ()
    | some i =>
      exact .forM (h := VoiceStream.map f) (fun v => (perform_relabels f _ v.items).discard) voices

lemma playMeasures_relabels (entries : List (Entry P)) (count : Nat) (index : Int) :
    Relabels f id (playMeasures entries count index)
      (playMeasures (entries.map (Entry.map f)) count index) := by
  induction count generalizing index with
  | zero => exact .pure id ()
  | succ count ih =>
    refine .get_bind fun c => .bind (.forM (playEntry_relabels f _ _) entries) fun _ =>
      .get_bind fun d => ?_
    exact .ite (p := d.timeline.truncated = true) (.pure id ()) (ih _)

lemma rangeOf_map (b : MeasureBlock P) : rangeOf (b.map f) = rangeOf b := by
  obtain ⟨keyword, _ | ⟨_ | _ | _ | _, p⟩, body⟩ := b <;> rfl

lemma playMeasure_relabels (b : MeasureBlock P) :
    Relabels f id (playMeasure b) (playMeasure (b.map f)) := by
  unfold playMeasure
  rw [rangeOf_map]
  refine .bind ((Relabels.lift _).placed _) fun range => ?_
  obtain ⟨keyword, token, body⟩ := b
  rcases body with _ | body
  · exact missingBlock_relabels f keyword
  rcases range with _ | ⟨first, last⟩
  · show Relabels f id (report (.invalidRange (textOf token)) keyword)
      (report (.invalidRange (textOf (token.map (Token.map f)))) (keyword.map (Token.map f)))
    rw [textOf_map]
    exact report_relabels f _ keyword
  · refine .get_bind fun c => ?_
    have hplay : Relabels f id
        (do
          let entries := readEntries (← get).defines body
          placed .behind
            (playMeasures entries (min (span first last) c.options.maxMeasureSpan) first))
        (do
          let entries := readEntries (← get).defines (body.map (Token.map f))
          placed .behind
            (playMeasures entries (min (span first last) c.options.maxMeasureSpan) first)) := by
      refine .get_bind fun d => ?_
      rw [readEntries_map]
      exact (playMeasures_relabels f _ _ _).placed _
    refine .ite (p := c.options.maxMeasureSpan < span first last) ?_ hplay
    dsimp only [MeasureBlock.map]
    rw [textOf_map]
    exact .bind (report_relabels f _ token) fun _ => hplay

lemma declare_relabels (d : Declaration P) :
    Relabels f id (declare d) (declare (d.map f)) := by
  cases d with
  | header b => exact applyHeader_relabels f b
  | group b => exact defineGroup_relabels f b
  | instrument b => exact (defineInstrument_relabels f none b).discard
  | template b => exact (defineMacro_relabels f b).discard
  | measure b => exact playMeasure_relabels f b

end Run

/-- **Compiling commutes with moving the tokens.** -/
lemma compileTokens_map (f : P → Q) (o : Options) (l : Library) (ts : List (Token P)) :
    compileTokens o l (ts.map (Token.map f)) = mapResult f id (compileTokens o l ts) := by
  have hrun : Relabels f id
      (do
        declareAll (readDocument ts)
        lift (discard (writeInt (← get).timeline.ticks)))
      (do
        declareAll (readDocument (ts.map (Token.map f)))
        lift (discard (writeInt (← get).timeline.ticks))) := by
    rw [readDocument_map]
    exact .bind (.forM (declare_relabels f) _) fun _ => .get_bind fun c => .lift _
  exact hrun (.start o l)

/-- **What was found wrong was found at a token.** A position that no token has cannot come up,
since no position is ever made. -/
lemma exists_mem_of_report {o : Options} {l : Library} {ts : List (Token P)} {c : Context P}
    (h : compileTokens o l ts = .ok () c) {r : Report P} (hr : r ∈ c.reports) {p : P}
    (hp : r.pos = some p) : ∃ t ∈ ts, t.pos = p := by
  -- the tokens, each with the proof that it is one of them
  let placed : List (Token { p : P // ∃ t ∈ ts, t.pos = p }) :=
    ts.attach.map fun t => ⟨t.1.lexeme, t.1.pos, t.1, t.2, rfl⟩
  have hplaced : placed.map (Token.map Subtype.val) = ts := by
    simp [placed, Token.map, Function.comp_def]
  rw [← hplaced, compileTokens_map] at h
  cases hrun : compileTokens o l placed with
  | error s d => rw [hrun] at h; cases h
  | ok _ d =>
    rw [hrun] at h
    have hreports : d.reports.map (Report.map Subtype.val) = c.reports :=
      congrArg Context.reports (EStateM.Result.ok.inj h).2
    rw [← hreports] at hr
    obtain ⟨r', -, rfl⟩ := List.mem_map.mp hr
    obtain ⟨q, -, rfl⟩ := Option.map_eq_some_iff.mp hp
    exact q.2

/-! ### Outcomes -/

/-- Two outcomes of compilations that tell the same: one score and notices that are related one by
one, or failures of one kind, and for a fault the same fault. -/
inductive SameOutcome (same : Notice → Notice → Prop) :
    Except Failure Compiled → Except Failure Compiled → Prop
  | score (s : Score) {ns ns' : Notices} (h : List.Forall₂ same ns ns') :
    SameOutcome same (.ok ⟨s, ns⟩) (.ok ⟨s, ns'⟩)
  | internal (f : Fault) : SameOutcome same (.error (.internal f)) (.error (.internal f))
  | strict {ns ns' : Notices} (h : List.Forall₂ same ns ns') :
    SameOutcome same (.error (.strict ns)) (.error (.strict ns'))

/-- Two results of runs with one score and with reports that are related one by one, or with one
fault. What a failed run found does not matter. -/
inductive AlikeResult (same : Report P → Report Q → Prop) :
    EStateM.Result Stop (Context P) Unit → EStateM.Result Stop (Context Q) Unit → Prop
  | ok {c : Context P} {d : Context Q} (score : c.score = d.score)
    (found : List.Forall₂ same c.found d.found) : AlikeResult same (.ok () c) (.ok () d)
  | error {s s' : Stop} {c : Context P} {d : Context Q} (fault : s.fault = s'.fault) :
    AlikeResult same (.error s c) (.error s' d)

lemma Notices.isClean_congr {same : Notice → Notice → Prop}
    (hseverity : ∀ n n', same n n' → n.severity = n'.severity) {ns ns' : Notices}
    (h : List.Forall₂ same ns ns') : ns.isClean = ns'.isClean := by
  induction h with
  | nil => rfl
  | cons hn _ ih =>
    simp only [isClean, List.all_cons] at ih ⊢
    rw [hseverity _ _ hn, ih]

lemma AlikeResult.imp {same same' : Report P → Report Q → Prop}
    {r : EStateM.Result Stop (Context P) Unit} {r' : EStateM.Result Stop (Context Q) Unit}
    (himp : ∀ c, r = .ok () c → ∀ a ∈ c.found, ∀ b, same a b → same' a b)
    (h : AlikeResult same r r') : AlikeResult same' r r' := by
  cases h with
  | @ok c d score found =>
    have hmem : List.Forall₂ (fun a b => a ∈ c.found ∧ same a b) c.found d.found :=
      (List.forall₂_and_left _ _).mpr ⟨fun _ ha => ha, found⟩
    exact .ok score (hmem.imp fun a b h => himp c rfl a h.1 b h.2)
  | error fault => exact .error fault

/-- The two texts of a comparison may have different line maps. -/
lemma compile_sameOutcome {same : Notice → Notice → Prop}
    (hseverity : ∀ n n', same n n' → n.severity = n'.severity) {o : Options} {l : Library}
    {source source' : String}
    (h : AlikeResult
      (fun r r' => same (r.issue.notice (r.pos.map (LineMap.ofSource source).locate))
        (r'.issue.notice (r'.pos.map (LineMap.ofSource source').locate)))
      (compileTokens o l (tokenize source)) (compileTokens o l (tokenize source'))) :
    SameOutcome same (compile o l source).1 (compile o l source').1 := by
  unfold compile
  generalize compileTokens o l (tokenize source) = r at h ⊢
  generalize compileTokens o l (tokenize source') = r' at h ⊢
  cases h with
  | error fault =>
    dsimp only
    rw [fault]
    exact .internal _
  | @ok c d score found =>
    have hnotices : List.Forall₂ same (locateAll (.ofSource source) c.found)
        (locateAll (.ofSource source') d.found) := by
      rw [locateAll, locateAll, List.forall₂_map_left_iff, List.forall₂_map_right_iff]
      exact found
    dsimp only
    rw [Notices.isClean_congr hseverity hnotices]
    split
    · exact .strict hnotices
    · rw [score]
      exact .score _ hnotices

def finalLibrary : EStateM.Result Stop (Context P) Unit → Library
  | .ok _ c => c.library
  | .error _ c => c.library

lemma finalLibrary_map (f : P → Q) (r : EStateM.Result Stop (Context P) Unit) :
    finalLibrary (mapResult f id r) = finalLibrary r := by
  cases r <;> rfl

lemma compile_library (o : Options) (l : Library) (source : String) :
    (compile o l source).2 = finalLibrary (compileTokens o l (tokenize source)) := by
  unfold compile
  generalize compileTokens o l (tokenize source) = r
  cases r with
  | error s c => rfl
  | ok _ c =>
    dsimp only
    split <;> rfl

lemma alikeResult_of_map {f : P → γ} {g : Q → γ} {r : EStateM.Result Stop (Context P) Unit}
    {r' : EStateM.Result Stop (Context Q) Unit} (h : mapResult f id r = mapResult g id r') :
    AlikeResult (fun a b => a.map f = b.map g) r r' := by
  cases r with
  | ok _ c =>
    cases r' with
    | error s d => cases h
    | ok _ d =>
      have hstate := (EStateM.Result.ok.inj h).2
      have hscore : c.score = d.score := congrArg Context.score hstate
      have hequal : List.Forall₂ (· = ·) (c.reports.map (Report.map f))
          (d.reports.map (Report.map g)) := by
        rw [show c.reports.map (Report.map f) = d.reports.map (Report.map g) from
          congrArg Context.reports hstate]
        exact List.forall₂_refl _
      refine .ok hscore ?_
      rw [Context.found, Context.found, List.forall₂_reverse_iff]
      rwa [List.forall₂_map_left_iff, List.forall₂_map_right_iff] at hequal
  | error s c =>
    cases r' with
    | ok _ d => cases h
    | error s' d => exact .error (congrArg Stop.fault (EStateM.Result.error.inj h).1)

/-! ### Layout -/

def Token.spelling (t : Token P) : String × String := (t.lexeme.kind, t.text)

lemma Punct.char_injective : Function.Injective Punct.char := by
  intro p p' h
  have hsome := Punct.ofChar?_char p
  rw [h, Punct.ofChar?_char] at hsome
  exact (Option.some.inj hsome).symm

lemma Lexeme.eq_of_kind_text {l l' : Lexeme} (hkind : l.kind = l'.kind) (htext : l.text = l'.text) :
    l = l' := by
  cases l <;> cases l'
  case punct.punct p p' =>
    have hchar : p.char = p'.char := by simpa [text] using htext
    rw [Punct.char_injective hchar]
  case quoted.quoted s s' => simpa [text] using htext
  case call.call s s' => simpa [text] using htext
  case symbol.symbol s s' => simpa [text] using htext
  all_goals simp [kind] at hkind

/-- Tokens that are spelled alike are the same tokens once they stand nowhere. -/
lemma map_unit_of_spelling {ts : List (Token P)} {ts' : List (Token Q)}
    (h : ts.map Token.spelling = ts'.map Token.spelling) :
    ts.map (Token.map fun _ => ()) = ts'.map (Token.map fun _ => ()) := by
  have hlexeme (t : Token P) (t' : Token Q) (h : t.spelling = t'.spelling) :
      t.map (fun _ => ()) = t'.map fun _ => () := by
    obtain ⟨hkind, htext⟩ := Prod.mk.inj h
    rw [Token.map, Token.map, Lexeme.eq_of_kind_text hkind htext]
  induction ts generalizing ts' with
  | nil =>
    rw [List.map_eq_nil_iff.1 h.symm]
    rfl
  | cons t ts ih =>
    cases ts' with
    | nil => cases h
    | cons t' ts' =>
      obtain ⟨hhead, htail⟩ := List.cons.inj h
      rw [List.map_cons, List.map_cons, hlexeme t t' hhead, ih htail]

/-- Whether two notices say the same, perhaps of different places. -/
def Notice.SaysTheSame (n n' : Notice) : Prop :=
  n.severity = n'.severity ∧ n.code = n'.code ∧ n.message = n'.message

lemma Issue.notice_saysTheSame (i : Issue) (place place' : Option (Nat × Nat)) :
    (i.notice place).SaysTheSame (i.notice place') := by
  cases place <;> cases place' <;> exact ⟨rfl, rfl, rfl⟩

/-- **Layout has no meaning.** Two texts whose tokens have the same kinds and characters have the
same outcome, whatever stands between the tokens; their notices differ in lines and columns only. -/
theorem compile_layout (o : Options) (l : Library) {source source' : String}
    (h : (tokenize source).map Token.spelling = (tokenize source').map Token.spelling) :
    SameOutcome Notice.SaysTheSame (compile o l source).1 (compile o l source').1 ∧
      (compile o l source).2 = (compile o l source').2 := by
  have hmapped : mapResult (fun _ => ()) id (compileTokens o l (tokenize source)) =
      mapResult (fun _ => ()) id (compileTokens o l (tokenize source')) := by
    rw [← compileTokens_map, ← compileTokens_map, map_unit_of_spelling h]
  refine ⟨compile_sameOutcome (fun _ _ hsame => hsame.1)
    ((alikeResult_of_map hmapped).imp fun _ _ r _ r' hr => ?_), ?_⟩
  · have hissue : r.issue = r'.issue := (Report.mk.inj hr).1
    rw [hissue]
    exact r'.issue.notice_saysTheSame _ _
  · rw [compile_library, compile_library, ← finalLibrary_map fun _ => (), hmapped,
      finalLibrary_map]

/-- A tune with an unknown macro, on one line and on six. -/
theorem compile_layout_tune :
    let crowded := "def p measure 1\x7bp:c $M\x7d"
    let spread := "%% a tune\ndef p;\n\nmeasure 1 \x7b %% one bar\n  p: c ~\n  $M\n\x7d"
    (tokenize crowded).map Token.spelling = (tokenize spread).map Token.spelling ∧
      SameOutcome Notice.SaysTheSame (compile {} .shipped crowded).1
        (compile {} .shipped spread).1 ∧
      (compile {} .shipped crowded).2 = (compile {} .shipped spread).2 := by
  intro crowded spread
  have hspelling : (tokenize crowded).map Token.spelling =
      (tokenize spread).map Token.spelling := by
    decide +kernel
  exact ⟨hspelling, compile_layout {} .shipped hspelling⟩

end Partitura
