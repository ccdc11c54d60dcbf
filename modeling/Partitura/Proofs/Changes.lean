import Mathlib.Logic.Relation
import Partitura.Compile
import Partitura.Proofs.Attributes

/-!
What a compilation can do to its state.

`Change` lists the single writes there are. Every declaration is a row of them
(`declare_writesAt`), also one that fails half-way, since a failed run keeps the state it had
reached. So what each single write keeps or can only add to, a whole compilation keeps or can only
add to. Reports are written at the places where blocks and events begin, which `StandsAt` collects.
-/

namespace Partitura

variable {P α β γ : Type}

inductive Change : Context P → Context P → Prop
  | header (c : Context P) (header : Header) : Change c { c with header }
  | library (c : Context P) (library : Library) : Change c { c with library }
  | define (c : Context P) (i : Instrument) :
    Change c { c with instruments := c.instruments ++ [i] }
  | group (c : Context P) (g : Group) : Change c { c with groups := c.groups ++ [g] }
  | template (c : Context P) (name : String) (m : Macro P) :
    Change c { c with macros := put name m c.macros }
  | cursors (c : Context P) (cursors : List (VoiceKey × Cursor)) : Change c { c with cursors }
  | event (c : Context P) (e : Event) : Change c { c with timeline := (c.timeline.add e).2 }
  | call (c : Context P) : Change c { c with expansions := c.expansions + 1 }
  | once (c : Context P) (issue : Issue) : Change c { c with once := issue :: c.once }
  | report (c : Context P) (r : Report P) : Change c { c with reports := r :: c.reports }

/-- One write, where what is reported stands at a place that satisfies `T`. -/
def Change.At (T : Option P → Prop) (c d : Context P) : Prop :=
  Change c d ∧ ∀ r ∈ d.reports, r ∈ c.reports ∨ T r.pos

abbrev Changes : Context P → Context P → Prop := Relation.ReflTransGen Change

namespace Run

/-- The state a run leaves, whether it fails or not. -/
def leaves (x : Run P α) (c : Context P) : Context P :=
  match x.run c with
  | .ok _ d => d
  | .error _ d => d

/-- A run that changes a state by nothing but writes. -/
def Writes (x : Run P α) : Prop := ∀ c, Changes c (leaves x c)

/-- A run that does the same and reports only where `T` holds. -/
def WritesAt (T : Option P → Prop) (x : Run P α) : Prop :=
  ∀ c, Relation.ReflTransGen (Change.At T) c (leaves x c)

lemma leaves_bind (x : Run P α) (f : α → Run P β) (c : Context P) :
    leaves (x >>= f) c = match x.run c with
      | .ok a d => leaves (f a) d
      | .error _ d => d := by
  unfold leaves
  rw [EStateM.run_bind]
  cases x.run c <;> rfl

variable {T : Option P → Prop}

namespace WritesAt

lemma writes {x : Run P α} (h : WritesAt T x) : Writes x :=
  fun c => (h c).lift id fun _ _ => And.left

/-- What is reported afterwards was reported before, or where `T` holds. -/
lemma reports {x : Run P α} (h : WritesAt T x) (c : Context P) :
    ∀ r ∈ (leaves x c).reports, r ∈ c.reports ∨ T r.pos := by
  have hrow := h c
  generalize leaves x c = d at hrow
  induction hrow with
  | refl => exact fun r hr => .inl hr
  | tail _ hstep ih =>
    intro r hr
    rcases hstep.2 r hr with hold | hnew
    · exact ih r hold
    · exact .inr hnew

lemma pure (a : α) : WritesAt T (pure a : Run P α) := fun _ => .refl

lemma throw (s : Stop) : WritesAt T (throw s : Run P α) := fun _ => .refl

lemma lift (x : Except Fault α) : WritesAt T (lift x : Run P α) := by
  cases x with
  | ok a => exact .pure a
  | error f => exact .throw _

lemma modify {f : Context P → Context P} (h : ∀ c, Change c (f c))
    (hreports : ∀ c, (f c).reports = c.reports) : WritesAt T (modify f) :=
  fun c => .single ⟨h c, fun _ hr => .inl (hreports c ▸ hr)⟩

/-- The first of two runs may be known to write from this state only. -/
lemma bind_at {x : Run P α} {f : α → Run P β} {c : Context P}
    (hx : Relation.ReflTransGen (Change.At T) c (leaves x c)) (hf : ∀ a, WritesAt T (f a)) :
    Relation.ReflTransGen (Change.At T) c (leaves (x >>= f) c) := by
  rw [leaves_bind]
  unfold leaves at hx
  generalize x.run c = r at hx
  cases r with
  | ok a d => exact hx.trans (hf a d)
  | error s d => exact hx

lemma bind {x : Run P α} {f : α → Run P β} (hx : WritesAt T x) (hf : ∀ a, WritesAt T (f a)) :
    WritesAt T (x >>= f) := fun c => bind_at (hx c) hf

lemma get_bind {f : Context P → Run P α} (h : ∀ c, WritesAt T (f c)) : WritesAt T (get >>= f) :=
  fun c => h c c

/-- What was read is known behind it. -/
lemma placed_lift_bind {x : Except Fault α} {f : α → Run P β} (place : Place)
    (h : ∀ a, x = .ok a → WritesAt T (f a)) :
    WritesAt T (Run.placed place (Run.lift x) >>= f) := by
  cases x with
  | ok a => exact fun c => h a rfl c
  | error f => exact fun c => .refl

lemma placed {x : Run P α} (h : WritesAt T x) (place : Place) : WritesAt T (placed place x) := by
  intro c
  have hc := h c
  unfold leaves at hc ⊢
  rw [Run.placed, EStateM.run_adaptExcept]
  generalize x.run c = r at hc
  cases r <;> exact hc

lemma discard {x : Run P α} (h : WritesAt T x) : WritesAt T (discard x) :=
  .bind h fun _ => .pure _

lemma forM {xs : List γ} {f : γ → Run P PUnit} (h : ∀ x ∈ xs, WritesAt T (f x)) :
    WritesAt T (xs.forM f) := by
  induction xs with
  | nil => exact .pure _
  | cons x xs ih =>
    obtain ⟨hx, hxs⟩ := List.forall_mem_cons.mp h
    exact .bind hx fun _ => ih hxs

lemma foldlM {xs : List γ} {f : β → γ → Run P β} (b : β)
    (h : ∀ x ∈ xs, ∀ b, WritesAt T (f b x)) : WritesAt T (xs.foldlM f b) := by
  induction xs generalizing b with
  | nil => exact .pure b
  | cons x xs ih =>
    obtain ⟨hx, hxs⟩ := List.forall_mem_cons.mp h
    rw [List.foldlM_cons]
    exact .bind (hx b) fun b => ih b hxs

lemma mapM {xs : List γ} {f : γ → Run P β} (h : ∀ x, WritesAt T (f x)) :
    WritesAt T (xs.mapM f) := by
  induction xs with
  | nil => exact .pure []
  | cons x xs ih =>
    rw [List.mapM_cons]
    exact .bind (h x) fun _ => .bind ih fun _ => .pure _

lemma report (issue : Issue) {t : Option (Token P)} (ht : T (t.map Token.pos)) :
    WritesAt T (report issue t) :=
  fun c => .single ⟨.report c _, List.forall_mem_cons.mpr ⟨.inr ht, fun _ => .inl⟩⟩

lemma reportOnce (issue : Issue) {t : Option (Token P)} (ht : T (t.map Token.pos)) :
    WritesAt T (reportOnce issue t) := by
  refine .get_bind fun c => ?_
  split
  · exact .pure _
  · exact .bind (.modify (fun c => .once c _) fun _ => rfl) fun _ => .report issue ht

lemma modifyCursor (key : VoiceKey) (f : Cursor → Cursor) :
    WritesAt T (modifyCursor key f : Run P Unit) :=
  .modify (fun c => .cursors c _) fun _ => rfl

end WritesAt

/-! ### Declarations -/

section Declarations

variable (hT : ∀ p, T (some p))

include hT

lemma applySetting_writesAt (key value : String) (t : Token P) :
    WritesAt T (applySetting key value (some t)) := by
  refine .get_bind fun c => .bind (.modify (fun c => .header c _) fun _ => rfl) fun _ => ?_
  split
  · exact .report _ (hT _)
  · exact .pure _

lemma applyHeader_writesAt {b : HeaderBlock P} (hb : T (b.keyword.map Token.pos)) :
    WritesAt T (applyHeader b) := by
  unfold applyHeader
  split
  · exact .report _ hb
  · exact .forM fun p _ => applySetting_writesAt hT _ _ _

omit hT in
lemma search_writesAt {α : Type} (s : Search α) : WritesAt T (search (P := P) s) := by
  have consulted {β : Type} (look : Library → Except Fault (β × Library)) :
      WritesAt T (consult (P := P) look) :=
    .get_bind fun _ => .bind (.lift _) fun _ =>
      .bind (.modify (fun c => .library c _) fun _ => rfl) fun _ => .pure _
  cases s with
  | written found => exact .lift found
  | kit name g => exact .bind (consulted _) fun _ => .pure _
  | tuning name g => exact .bind (consulted _) fun _ => .pure _

lemma setAttribute_writesAt (i : Instrument) (a : Attribute P) :
    WritesAt T (setAttribute i a) := by
  obtain ⟨key, value, t⟩ := a
  obtain ⟨s, issue, -, -, hset⟩ := exists_setBy i key value
  rw [hset]
  refine .bind (search_writesAt s) fun found => ?_
  cases found with
  | some j => exact .pure j
  | none => exact .bind (.report issue (hT _)) fun _ => .pure i

lemma defineInstrument_writesAt (group : Option String) {b : InstrumentBlock P}
    (hb : T (b.keyword.map Token.pos)) : WritesAt T (defineInstrument group b) := by
  unfold defineInstrument
  split
  · exact .bind (.report _ hb) fun _ => .pure _
  · refine .bind (.foldlM _ fun a _ i => setAttribute_writesAt hT i a) fun i =>
      .get_bind fun c => ?_
    split
    · exact .bind (.report _ (hT _)) fun _ => .pure _
    · exact .bind (.modify (fun c => .define c i) fun _ => rfl) fun _ =>
        .bind (.modify (fun c => .cursors c _) fun _ => rfl) fun _ => .pure _

lemma defineGroup_writesAt {b : GroupBlock P} (hb : T (b.keyword.map Token.pos))
    (hmembers : ∀ blocks, b.members = some blocks →
      ∀ p ∈ blocks, T (p.1.keyword.map Token.pos)) : WritesAt T (defineGroup b) := by
  unfold defineGroup
  split
  · exact .report _ hb
  · rename_i blocks hblocks
    refine .bind (.foldlM _ fun p hp members => ?_) fun _ =>
      .modify (fun c => .group c _) fun _ => rfl
    refine .bind ((defineInstrument_writesAt hT _ (hmembers blocks hblocks p hp)).placed _)
      fun i => ?_
    split <;> exact .pure _

lemma defineMacro_writesAt {b : MacroBlock P} (hb : T (b.keyword.map Token.pos)) :
    WritesAt T (defineMacro b) := by
  have params : WritesAt T (declareParams b.name b.params) := by
    refine .foldlM _ fun t _ names => ?_
    dsimp only
    split
    · exact .bind (.report _ (hT _)) fun _ => .pure _
    · exact .pure _
  refine .bind params fun params => ?_
  split
  · exact .bind (.report _ hb) fun _ => .pure _
  · exact .bind (.modify (fun c => .template c _ _) fun _ => rfl) fun _ => .pure _

end Declarations

/-! ### Playing -/

section Playing

variable {e : WrittenEvent P} (he : T (e.anchor.map Token.pos))

lemma resolve_writesAt (i : Instrument) (key : VoiceKey) {t : Option (Token P)}
    (ht : T (t.map Token.pos)) (s : String) : WritesAt T (resolve i key t s) := by
  refine .get_bind fun c => .bind (.modifyCursor _ _) fun _ => .bind (.lift _) fun found => ?_
  split
  · exact .pure _
  · exact .bind (.report _ ht) fun _ => .pure _

lemma place_writesAt (key : VoiceKey) (e : Event) {t : Option (Token P)}
    (ht : T (t.map Token.pos)) : WritesAt T (place key e t) := by
  intro c
  -- the timeline is written back before anything else can change it
  have hadd : Relation.ReflTransGen (Change.At T) c
      (leaves (modify fun d => { d with timeline := (c.timeline.add e).2 }) c) :=
    .single ⟨.event c e, fun _ => .inl⟩
  have hrest : WritesAt T (if (c.timeline.add e).1 then
        Run.modifyCursor key fun cursor => { cursor with tick := e.stop }
      else Run.reportOnce (.eventLimit c.options.maxEvents) t) := by
    split
    · exact .modifyCursor _ _
    · exact .reportOnce _ ht
  have hboth := WritesAt.bind_at hadd fun _ => hrest
  exact hboth

include he

lemma setLength_writesAt (key : VoiceKey) : WritesAt T (setLength key e) := by
  unfold setLength
  split
  · exact .modifyCursor _ _
  · exact .modifyCursor _ _
  · exact .bind (.modifyCursor _ _) fun _ => .report _ he

lemma sound_writesAt (s : Stage) : WritesAt T (sound s e) := by
  unfold sound
  split
  · exact .pure _
  · exact .bind (.mapM fun _ => resolve_writesAt _ _ he _) fun _ => .pure _

lemma play_writesAt (s : Stage) (offset : Int) : WritesAt T (play s offset e) :=
  .bind (setLength_writesAt he _) fun _ => .bind (sound_writesAt he s) fun _ => .get_bind fun _ =>
    .bind (.lift _) fun _ => .bind (.lift _) fun _ => .bind (.lift _) fun _ =>
      .bind (place_writesAt _ _ he) fun _ => .pure _

end Playing

end Run

/-- The places where an entry of a measure block can be reported: its keyword, or where the events
of its streams begin, whatever macros there are. -/
def Entry.StandsAt (T : Option P → Prop) : Entry P → Prop
  | .header b => T (b.keyword.map Token.pos)
  | .part _ voices => ∀ v ∈ voices, ∀ c : Context P, ∀ p ∈ Run.scriptOf c v.items,
      ∀ e, p.value = .play e → T (e.anchor.map Token.pos)

def Declaration.StandsAt (T : Option P → Prop) : Declaration P → Prop
  | .header b => T (b.keyword.map Token.pos)
  | .group b => T (b.keyword.map Token.pos) ∧
      ∀ blocks, b.members = some blocks → ∀ p ∈ blocks, T (p.1.keyword.map Token.pos)
  | .instrument b => T (b.keyword.map Token.pos)
  | .template b => T (b.keyword.map Token.pos)
  | .measure b => T (b.keyword.map Token.pos) ∧
      (∀ range, Run.rangeOf b = .ok (some range) → T (b.range.map Token.pos)) ∧
      ∀ body, b.body = some body → ∀ defined, ∀ e ∈ readEntries defined body, e.StandsAt T

namespace Run

section Measures

variable {T : Option P → Prop} (hT : ∀ p, T (some p))

include hT

lemma step_writesAt (s : Stage) (offset : Int) {step : Step P}
    (hstep : ∀ e, step = .play e → T (e.anchor.map Token.pos)) :
    WritesAt T (Run.step s offset step) := by
  cases step with
  | play e => exact .bind (play_writesAt (hstep e rfl) s offset) fun _ => .pure _
  | expand => exact .bind (.modify (fun c => .call c) fun _ => rfl) fun _ => .pure _
  | refuse issue t => exact .bind (.reportOnce issue (hT _)) fun _ => .pure _
  | halt f => exact .throw _

lemma perform_writesAt (s : Stage) {items : List (Placed (Item P))}
    (hitems : ∀ c : Context P, ∀ p ∈ scriptOf c items, ∀ e, p.value = .play e →
      T (e.anchor.map Token.pos)) : WritesAt T (perform s items) :=
  .get_bind fun c => .foldlM _ fun p hp offset =>
    (step_writesAt hT s offset (hitems c p hp)).placed _

lemma playEntry_writesAt (base : Int) (measure : Option Int) {e : Entry P} (he : e.StandsAt T) :
    WritesAt T (playEntry base measure e) := by
  cases e with
  | header b => exact applyHeader_writesAt hT he
  | part id voices =>
    refine .get_bind fun c => ?_
    split
    · exact .forM fun v hv => (perform_writesAt hT _ (he v hv)).discard
    · exact .pure _

lemma playMeasures_writesAt {entries : List (Entry P)} (hentries : ∀ e ∈ entries, e.StandsAt T)
    (count : Nat) (index : Int) : WritesAt T (playMeasures entries count index) := by
  induction count generalizing index with
  | zero => exact .pure _
  | succ count ih =>
    refine .get_bind fun c => .bind (.forM fun e he => playEntry_writesAt hT _ _ (hentries e he))
      fun _ => .get_bind fun d => ?_
    split
    · exact .pure _
    · exact ih _

lemma playMeasure_writesAt {b : MeasureBlock P} (hb : Declaration.StandsAt T (.measure b)) :
    WritesAt T (playMeasure b) := by
  obtain ⟨hkeyword, hrange, hentries⟩ := hb
  refine .placed_lift_bind _ fun range hread => ?_
  split
  · exact .report _ hkeyword
  · exact .report _ hkeyword
  · rename_i body first last hbody
    have hplay (count : Nat) : WritesAt T (do
        let entries := readEntries (← get).defines body
        Run.placed .behind (playMeasures entries count first)) :=
      .get_bind fun c => (playMeasures_writesAt hT (hentries body hbody _) _ _).placed _
    refine .get_bind fun c => ?_
    dsimp only
    split
    · exact .bind (.report _ (hrange _ hread)) fun _ => hplay _
    · exact hplay _

/-- Every declaration is a row of writes. -/
lemma declare_writesAt {d : Declaration P} (hd : d.StandsAt T) : WritesAt T (declare d) := by
  cases d with
  | header b => exact applyHeader_writesAt hT hd
  | group b => exact defineGroup_writesAt hT hd.1 hd.2
  | instrument b => exact (defineInstrument_writesAt hT none hd).discard
  | template b => exact (defineMacro_writesAt hT hd).discard
  | measure b => exact playMeasure_writesAt hT hd

lemma declareAll_writesAt {ds : List (Declaration P)} (hds : ∀ d ∈ ds, d.StandsAt T) :
    WritesAt T (declareAll ds) :=
  .forM fun d hd => declare_writesAt hT (hds d hd)

end Measures

lemma declareAll_writes (ds : List (Declaration P)) : Writes (declareAll ds) := by
  have hall (d : Declaration P) : d.StandsAt fun _ => True := by
    cases d with
    | measure b =>
      refine ⟨trivial, fun _ _ => trivial, fun _ _ _ e _ => ?_⟩
      cases e with
      | header b => exact trivial
      | part id voices => exact fun _ _ _ _ _ _ _ => trivial
    | group b => exact ⟨trivial, fun _ _ _ _ => trivial⟩
    | _ => exact trivial
  exact (declareAll_writesAt (fun _ => trivial) fun d _ => hall d).writes

end Run

end Partitura
