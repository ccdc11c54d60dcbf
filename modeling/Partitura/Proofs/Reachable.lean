import Partitura.Compile
import Partitura.Proofs.Attributes
import Partitura.Proofs.Playing

/-!
States that declarations lead to.

Only playing writes to the record of a state: its timeline, the events and calls that are reported
as refused, and the count of expanded calls. All other declarations frame it, so what every
reachable state knows about its limits follows from what performing a voice does.
-/

namespace Partitura

open Number Run

variable {P : Type}

def Context.Reachable (c : Context P) : Prop :=
  ∃ (o : Options) (l : Library) (ds : List (Declaration P)),
    (declareAll ds).run (.start o l) = .ok () c

/-- Once an event or a call was refused for a limit, that limit is used up. -/
structure Context.Spent (c : Context P) : Prop where
  room : c.timeline.truncated = true → c.timeline.room = 0
  budget : ∀ n, .macroBudget n ∈ c.once → c.options.maxMacroExpansions ≤ c.expansions

def Context.refusals (c : Context P) : List Issue :=
  (c.reports.map (·.issue)).filter Issue.isRefusal

/-- The part of a state that only playing writes to. -/
def Context.record (c : Context P) : Options × Timeline × List Issue × List Issue × Nat :=
  (c.options, c.timeline, c.once, c.refusals, c.expansions)

namespace Run

/-- A run that leaves the record alone. -/
def Frames {α : Type} (x : Run P α) : Prop :=
  ∀ r, Keeps (fun c => c.record = r) (fun _ => True) x fun _ => True

namespace Frames

variable {α β γ : Type}

lemma pure (a : α) : Frames (pure a : Run P α) := fun _ => Keeps.pure trivial

lemma lift (x : Except Fault α) : Frames (lift x : Run P α) :=
  fun _ => Keeps.lift (fun _ _ => trivial) fun _ _ => trivial

lemma get : Frames (get : Run P (Context P)) := fun _ _ hc => .ok hc trivial

lemma modify {f : Context P → Context P} (h : ∀ c, (f c).record = c.record) :
    Frames (modify f) :=
  fun _ => Keeps.modify fun c hc => (h c).trans hc

lemma report {issue : Issue} (h : issue.isRefusal = false) (t : Option (Token P)) :
    Frames (report issue t) :=
  modify fun c => by simp [Context.record, Context.refusals, h]

lemma bind {x : Run P α} {f : α → Run P β} (hx : Frames x) (hf : ∀ a, Frames (f a)) :
    Frames (x >>= f) :=
  fun r => (hx r).bind fun a _ => hf a r

lemma placed {x : Run P α} {place : Place} (h : Frames x) : Frames (placed place x) :=
  fun r => (h r).placed

lemma discard {x : Run P α} (h : Frames x) : Frames (discard x) := fun r => (h r).discard

lemma forM {xs : List γ} {f : γ → Run P PUnit} (h : ∀ x, Frames (f x)) : Frames (xs.forM f) :=
  fun r => Keeps.forM fun x _ => h x r

lemma foldlM {xs : List γ} {f : β → γ → Run P β} (b : β) (h : ∀ b x, Frames (f b x)) :
    Frames (xs.foldlM f b) :=
  fun r => Keeps.foldlM trivial fun b _ x _ => h b x r

end Frames

lemma apply_isRefusal {key value : String} {h : Header} {issue : Issue}
    (hissue : (h.apply key value).2 = some issue) : issue.isRefusal = false := by
  unfold Header.apply at hissue
  dsimp only at hissue
  repeat' split at hissue
  all_goals cases hissue
  all_goals rfl

lemma applySetting_frames (key value : String) (t : Option (Token P)) :
    Frames (applySetting key value t) := by
  refine .bind .get fun c => .bind (.modify fun _ => rfl) fun _ => ?_
  split
  · rename_i issue hissue
    exact .report (apply_isRefusal hissue) t
  · exact .pure _

lemma applyHeader_frames (b : HeaderBlock P) : Frames (applyHeader b) := by
  unfold applyHeader
  split
  · exact .report rfl _
  · exact .forM fun p => applySetting_frames _ _ _

lemma search_frames {α : Type} (s : Search α) : Frames (search (P := P) s) := by
  have consulted {β : Type} (look : Library → Except Fault (β × Library)) :
      Frames (consult (P := P) look) :=
    .bind .get fun _ => .bind (.lift _) fun _ => .bind (.modify fun _ => rfl) fun _ => .pure _
  cases s with
  | written found => exact .lift found
  | kit name g => exact .bind (consulted _) fun _ => .pure _
  | tuning name g => exact .bind (consulted _) fun _ => .pure _

lemma setAttribute_frames (i : Instrument) (a : Attribute P) : Frames (setAttribute i a) :=
  fun r => setAttribute_keeps_of trivial (fun _ h => Frames.report h _ r)
    fun s _ => (search_frames s r).imp fun _ _ _ _ => trivial

lemma defineInstrument_frames (group : Option String) (b : InstrumentBlock P) :
    Frames (defineInstrument group b) := by
  unfold defineInstrument
  split
  · exact .bind (.report rfl _) fun _ => .pure _
  · refine .bind (.foldlM _ fun i a => setAttribute_frames i a) fun i => .bind .get fun c => ?_
    split
    · exact .bind (.report rfl _) fun _ => .pure _
    · exact .bind (.modify fun _ => rfl) fun _ => .bind (.modify fun _ => rfl) fun _ => .pure _

lemma defineGroup_frames (b : GroupBlock P) : Frames (defineGroup b) := by
  unfold defineGroup
  split
  · exact .report rfl _
  · refine .bind (.foldlM _ fun members p => ?_) fun _ => .modify fun _ => rfl
    refine .bind (defineInstrument_frames _ p.1).placed fun i => ?_
    split <;> exact .pure _

lemma defineMacro_frames (b : MacroBlock P) : Frames (defineMacro b) := by
  have params : Frames (declareParams b.name b.params) := by
    refine .foldlM _ fun names t => ?_
    dsimp only
    split
    · exact .bind (.report rfl _) fun _ => .pure _
    · exact .pure _
  refine .bind params fun params => ?_
  split
  · exact .bind (.report rfl _) fun _ => .pure _
  · exact .bind (.modify fun _ => rfl) fun _ => .pure _

/-- All declarations but measure blocks leave the record alone. -/
lemma declare_frames {d : Declaration P} (h : ∀ b, d ≠ .measure b) : Frames (declare d) := by
  cases d with
  | header b => exact applyHeader_frames b
  | group b => exact defineGroup_frames b
  | instrument b => exact .discard (defineInstrument_frames none b)
  | template b => exact .discard (defineMacro_frames b)
  | measure b => exact absurd rfl (h b)

lemma Frames.record_eq {α : Type} {x : Run P α} (h : Frames x) {c d : Context P} {a : α}
    (hx : eval x c = .ok (a, d)) : d.record = c.record :=
  (h c.record).state_of_ok rfl hx

/-! ### What playing keeps -/

section Playing

variable {I : Context P → Prop}

section Entries

/- Playing a block keeps what reports and its entries keep. -/
variable (hreport : ∀ (c : Context P) reports, I c → I { c with reports })
  (hentry : ∀ base measure e,
    Keeps I (fun _ => True) (playEntry (P := P) base measure e) fun _ => True)

include hentry

lemma playMeasures_keeps_of_entries (entries : List (Entry P)) (count : Nat) (index : Int) :
    Keeps I (fun _ => True) (playMeasures entries count index) fun _ => True := by
  induction count generalizing index with
  | zero => exact Keeps.pure trivial
  | succ count ih =>
    refine Keeps.get_bind fun c _ =>
      (Keeps.forM fun e _ => hentry _ _ e).bind fun _ _ => Keeps.get_bind fun d _ => ?_
    split
    · exact Keeps.pure trivial
    · exact ih _

include hreport

lemma playMeasure_keeps_of_entries (b : MeasureBlock P) :
    Keeps I (fun _ => True) (playMeasure b) fun _ => True := by
  have report (issue : Issue) (t : Option (Token P)) :
      Keeps I (fun _ => True) (Run.report issue t) fun _ => True :=
    Keeps.modify fun c hc => hreport c _ hc
  have range : Keeps I (fun _ => True) (Run.lift (rangeOf b)) fun _ => True :=
    Keeps.lift (fun _ _ => trivial) fun _ _ => trivial
  refine range.placed.bind fun range _ => ?_
  split
  · exact report _ _
  · exact report _ _
  · refine Keeps.get_bind fun c _ => ?_
    dsimp only
    split
    · exact (report _ _).bind fun _ _ => Keeps.get_bind fun d _ =>
        (playMeasures_keeps_of_entries hentry _ _ _).placed
    · exact Keeps.get_bind fun d _ => (playMeasures_keeps_of_entries hentry _ _ _).placed

end Entries

/- Entries keep what settings and performing a voice keep. -/
variable (hheader : ∀ (c : Context P) header reports, I c → I { c with header, reports })

include hheader

lemma applyHeader_keeps_of (b : HeaderBlock P) :
    Keeps I (fun _ => True) (applyHeader b) fun _ => True := by
  have report (issue : Issue) (t : Option (Token P)) :
      Keeps I (fun _ => True) (Run.report issue t) fun _ => True :=
    Keeps.modify fun c hc => hheader c c.header _ hc
  unfold applyHeader
  split
  · exact report _ _
  · refine Keeps.forM fun p _ => Keeps.get_bind fun c _ => ?_
    refine (Keeps.modify fun c hc => hheader c _ c.reports hc).bind fun _ _ => ?_
    split
    · exact report _ _
    · exact Keeps.pure trivial

variable (hperform : ∀ s items, Keeps I (fun _ => True) (perform (P := P) s items) fun _ => True)

include hperform

lemma playEntry_keeps_of (base : Int) (measure : Option Int) (e : Entry P) :
    Keeps I (fun _ => True) (playEntry base measure e) fun _ => True := by
  cases e with
  | header b => exact applyHeader_keeps_of hheader b
  | part id voices =>
    refine Keeps.get_bind fun c _ => ?_
    split
    · exact Keeps.forM fun v _ => (hperform _ _).discard
    · exact Keeps.pure trivial

lemma playMeasures_keeps_of (entries : List (Entry P)) (count : Nat) (index : Int) :
    Keeps I (fun _ => True) (playMeasures entries count index) fun _ => True :=
  playMeasures_keeps_of_entries (playEntry_keeps_of hheader hperform) entries count index

lemma playMeasure_keeps_of (b : MeasureBlock P) :
    Keeps I (fun _ => True) (playMeasure b) fun _ => True :=
  playMeasure_keeps_of_entries (fun c => hheader c c.header) (playEntry_keeps_of hheader hperform) b

end Playing

/-- Performing a voice keeps what the steps of every script keep. -/
lemma perform_keeps_of {I : Context P → Prop}
    (h : ∀ steps c d, Played steps c d → I c → I d) (s : Stage) (items : List (Placed (Item P))) :
    Keeps I (fun _ => True) (perform s items) fun _ => True := by
  intro c hc
  cases hrun : eval (perform s items) c with
  | error f => exact .error trivial
  | ok p =>
    rw [eval_perform] at hrun
    exact .ok (h _ c p.2 (played_runSteps hrun) hc) trivial

/-! ### Limits that are used up -/

lemma Frames.keeps {α : Type} {x : Run P α} (h : Frames x) {I : Context P → Prop}
    (hI : ∀ c d, d.record = c.record → I c → I d) : Keeps I (fun _ => True) x fun _ => True :=
  fun c hc => (h c.record c rfl).imp (fun d hd => hI c d hd hc) fun _ h => h

lemma spent_of_record (c d : Context P) (h : d.record = c.record) (hc : c.Spent) : d.Spent := by
  simp only [Context.record, Prod.mk.injEq] at h
  obtain ⟨ho, ht, honce, -, hexp⟩ := h
  exact ⟨by rw [ht]; exact hc.room, by rw [ho, honce, hexp]; exact hc.budget⟩

lemma perform_spent (s : Stage) (items : List (Placed (Item P))) :
    Keeps Context.Spent (fun _ => True) (perform s items) fun _ => True := by
  intro c hc
  cases h : eval (perform s items) c with
  | error f => exact .error trivial
  | ok p =>
    rw [eval_perform] at h
    have hplayed := played_runSteps h
    refine .ok ⟨hplayed.room hc.room, fun n hn => ?_⟩ trivial
    rw [hplayed.options, hplayed.expansions]
    rcases hplayed.budget n hn with hn | hn
    · have := hc.budget n hn
      omega
    · have hbudget := script_budget _ _ _ _ hn
      rwa [script_total] at hbudget

lemma declare_spent (d : Declaration P) :
    Keeps Context.Spent (fun _ => True) (declare d) fun _ => True := by
  cases d with
  | measure b =>
    exact playMeasure_keeps_of (fun c _ _ hc => ⟨hc.room, hc.budget⟩) perform_spent b
  | _ => exact (declare_frames (by simp)).keeps spent_of_record

end Run

/-- **A reachable state that refused something has nothing left of it.** -/
theorem Context.Reachable.spent {c : Context P} (h : c.Reachable) : c.Spent := by
  obtain ⟨o, l, ds, hrun⟩ := h
  have hall : Keeps Context.Spent (fun _ => True) (declareAll ds) fun _ => True :=
    Keeps.forM fun d _ => declare_spent d
  exact hall.state_of_ok ⟨by simp [Context.start], by simp [Context.start]⟩ (eval_eq_ok.mpr hrun)

end Partitura
