import Partitura.Proofs.Bounds
import Partitura.Proofs.Causality
import Partitura.Proofs.Roster

/-!
What a walk comes upon.

A walk comes upon events and calls. They are written down step by step (`encounters`), with what
the limits leave at that point, and independently of what is reported. The events among them are
what it reads (`readings`), also where the timeline has no room for them. `Met` says what a step
does about what it comes upon, and what holds of the log and the state at the start and is kept by
every such step holds all along the walk (`walk_log`).
-/

namespace Partitura

open Number Run

variable {P : Type}

/-! ### The log of a walk -/

/-- An event that is read in a voice, and what is made of it. -/
structure Reading (P : Type) where
  stage : Stage
  written : WrittenEvent P
  made : Except Fault Event

inductive Encounter (P : Type)
  /-- An event that is read, and whether there is room for it. -/
  | event (r : Reading P) (room : Bool)
  /-- A call: whether its macro is defined, whether no further macro can be opened, and whether no
  further call can be expanded. -/
  | call (name : String) (defined deep spent : Bool)

namespace Encounter

def refusal? (o : Options) : Encounter P → Option Issue
  | .event _ true => none
  | .event _ false => some (.eventLimit o.maxEvents)
  | .call name false _ _ => some (.unknownMacro name)
  | .call name true true _ => some (.macroTooDeep name o.maxMacroDepth)
  | .call _ true false true => some (.macroBudget o.maxMacroExpansions)
  | .call _ true false false => none

def reading? : Encounter P → Option (Reading P)
  | .event r _ => some r
  | .call _ _ _ _ => none

def event? : Encounter P → Option Event
  | .event r _ => r.made.toOption
  | .call _ _ _ _ => none

def taken? : Encounter P → Option Event
  | .event r true => r.made.toOption
  | _ => none

def isCall : Encounter P → Bool
  | .call _ _ _ _ => true
  | .event _ _ => false

def isExpanded : Encounter P → Bool
  | .call _ true false false => true
  | _ => false

/-- **What is refused, and why**: whether a macro is defined is asked first, then how many are
open, then how many calls were expanded. -/
lemma refusal?_eq_some {o : Options} {x : Encounter P} {issue : Issue} :
    x.refusal? o = some issue ↔
      (∃ e, x = .event e false ∧ issue = .eventLimit o.maxEvents) ∨
      (∃ name deep spent, x = .call name false deep spent ∧ issue = .unknownMacro name) ∨
      (∃ name spent, x = .call name true true spent ∧
        issue = .macroTooDeep name o.maxMacroDepth) ∨
      ∃ name, x = .call name true false true ∧ issue = .macroBudget o.maxMacroExpansions := by
  unfold refusal?
  split <;> simp [eq_comm]

end Encounter

namespace Context

def eventAt (c : Context P) (r : Reading P) : Encounter P :=
  .event r (c.timeline.newest.length < c.options.maxEvents)

/-- Coming upon a call while `depth` macros are open. -/
def callAt (c : Context P) (depth : Nat) (name : String) : Encounter P :=
  .call name (get? name c.macros).isSome (c.options.maxMacroDepth ≤ depth)
    (c.options.maxMacroExpansions ≤ c.expansions)

end Context

namespace Walk

/-- What the next tokens of a row of events are, `tick` ticks into the stream. -/
def meets (s : Stage) (depth : Nat) (tick : Int) (c : Context P) :
    List (Token P) → Option (Encounter P)
  | [] => none
  | t :: ts =>
    if c.endsAt depth (t :: ts) then none
    else
      match t.lexeme with
      | .call name => some (c.callAt depth name)
      | _ =>
        if startsEvent t then
          match (readEvent (t :: ts)).1 with
          | .ok e => some (c.eventAt ⟨s, e, Rendering.event <$> e.render s (c.cursor s.key) tick⟩)
          | .error _ => none
        else none

/-- What the next step of a walk comes upon, if anything. -/
def encounter? (rs : List (Reader P)) (c : Context P) : Option (Encounter P) :=
  match rs with
  | ⟨.voice _ _ s tick, ts⟩ :: _ => meets s (openMacros rs) tick c ts
  | ⟨.body s tick, ts⟩ :: _ => meets s (openMacros rs) tick c ts
  | _ => none

/-- All that so many steps of a walk come upon. -/
def encounters : Nat → List (Reader P) → Context P → List (Encounter P)
  | 0, _, _ => []
  | n + 1, rs, c =>
    (encounter? rs c).toList ++
      match eval (walkStep rs) c with
      | .ok (rs', d) => encounters n rs' d
      | .error _ => []

def readings (n : Nat) (rs : List (Reader P)) (c : Context P) : List (Reading P) :=
  (encounters n rs c).filterMap Encounter.reading?

section Meets

variable {s : Stage} {depth : Nat} {tick : Int} {c : Context P} {t : Token P}
  {ts : List (Token P)}

lemma meets_over (h : ts = [] ∨ c.endsAt depth ts = true) : meets s depth tick c ts = none := by
  cases ts with
  | nil => rfl
  | cons t ts => rw [meets, if_pos (h.resolve_left (List.cons_ne_nil t ts))]

lemma meets_call {name : String} {p : P} :
    meets s depth tick c (⟨.call name, p⟩ :: ts) = some (c.callAt depth name) := by
  have hends : c.endsAt depth (⟨.call name, p⟩ :: ts) = false := by
    simp [Context.endsAt, endsStream]
  simp [meets, hends]

lemma meets_event (hends : c.endsAt depth (t :: ts) = false) (ht : startsEvent t = true)
    {e : WrittenEvent P} (he : (readEvent (t :: ts)).1 = .ok e) :
    meets s depth tick c (t :: ts) =
      some (c.eventAt ⟨s, e, Rendering.event <$> e.render s (c.cursor s.key) tick⟩) := by
  rw [meets, if_neg (by simp [hends])]
  split
  · simp_all [startsEvent]
  · rw [if_pos ht, he]

lemma meets_skip (hends : c.endsAt depth (t :: ts) = false) (hcall : ∀ name, t.lexeme ≠ .call name)
    (ht : startsEvent t = false) : meets s depth tick c (t :: ts) = none := by
  rw [meets, if_neg (by simp [hends])]
  split
  · rename_i name hname
    exact absurd hname (hcall name)
  · rw [if_neg (by simp [ht])]

lemma meets_eq_event {r : Reading P} {room : Bool}
    (h : meets s depth tick c ts = some (.event r room)) :
    ∃ t us e, ts = t :: us ∧ c.endsAt depth (t :: us) = false ∧ startsEvent t = true ∧
      (readEvent (t :: us)).1 = .ok e ∧
      r = ⟨s, e, Rendering.event <$> e.render s (c.cursor s.key) tick⟩ := by
  cases ts with
  | nil => cases h
  | cons t us =>
    rw [meets] at h
    split at h
    · cases h
    rename_i hends
    split at h
    · cases h
    split at h
    · rename_i ht
      split at h
      · rename_i e he
        cases h
        exact ⟨t, us, e, rfl, Bool.not_eq_true _ ▸ hends, ht, he, rfl⟩
      · cases h
    · cases h

end Meets

end Walk

/-! ### Steps that leave the record alone -/

lemma hear_isRefusal {i : Instrument} {octave : Int} {ss : List String} {h : Hearing}
    (hhear : hear i octave ss = .ok h) : ∀ issue ∈ h.issues, issue.isRefusal = false := by
  induction ss generalizing octave h with
  | nil =>
    cases hhear
    simp
  | cons s ss ih =>
    rw [hear] at hhear
    obtain ⟨p, -, hhear⟩ := bind_eq_ok.mp hhear
    cases p with
    | some p =>
      obtain ⟨h', hrest, hhear⟩ := bind_eq_ok.mp hhear
      cases hhear
      simpa using ih hrest
    | none =>
      obtain ⟨h', hrest, hhear⟩ := bind_eq_ok.mp hhear
      cases hhear
      exact List.forall_mem_cons.mpr ⟨rfl, ih hrest⟩

/-- What is wrong with an event is no refusal. -/
lemma render_isRefusal {e : WrittenEvent P} {s : Stage} {cursor : Cursor} {offset : Int}
    {r : Rendering} (h : e.render s cursor offset = .ok r) :
    ∀ issue ∈ r.issues, issue.isRefusal = false := by
  rw [WrittenEvent.render] at h
  obtain ⟨hearing, hhear, h⟩ := bind_eq_ok.mp h
  obtain ⟨d, -, h⟩ := bind_eq_ok.mp h
  obtain ⟨velocity, -, h⟩ := bind_eq_ok.mp h
  obtain ⟨event, -, h⟩ := bind_eq_ok.mp h
  cases h
  rw [List.forall_mem_append]
  constructor
  · unfold Length.issues
    split
    · simp [Issue.isRefusal]
    · simp
  · unfold WrittenEvent.hearing at hhear
    split at hhear
    · cases hhear
      simp
    · exact hear_isRefusal hhear

namespace Walk

lemma playback?_frames (b : MeasureBlock P) : Frames (playback? b) := by
  refine .bind (.lift _) fun range => ?_
  split
  · exact .bind (.report rfl _) fun _ => .pure _
  · exact .bind (.report rfl _) fun _ => .pure _
  · refine .bind .get fun c => ?_
    dsimp only
    split
    · exact .bind (.report rfl _) fun _ => .pure _
    · exact .pure _

lemma finish_frames (below : List (Reader P)) : Frames (finish below) :=
  .bind .get fun _ => .bind (.lift _) fun _ => .pure _

lemma stepDocument_frames (wrapped : Bool) (below : List (Reader P)) (ts : List (Token P)) :
    Frames (stepDocument wrapped below ts) := by
  cases ts with
  | nil => exact finish_frames below
  | cons t ts =>
    rw [stepDocument]
    split
    · split
      · exact finish_frames below
      · exact .pure _
    · split
      · refine .bind (playback?_frames _) fun p => ?_
        split
        · exact .pure _
        · exact .bind .get fun _ => .pure _
      · rename_i hne _
        exact .bind (declare_frames hne) fun _ => .pure _
      · exact .pure _

lemma stepEntries_frames (b : Playback P) (below : List (Reader P)) (ts : List (Token P)) :
    Frames (stepEntries b below ts) := by
  cases ts with
  | nil =>
    refine .bind .get fun c => ?_
    split
    · exact .pure _
    · split
      · exact .pure _
      · exact .pure _
  | cons t ts =>
    rw [stepEntries]
    split
    · split
      · exact .bind (applyHeader_frames _) fun _ => .pure _
      · refine .bind .get fun c => ?_
        split
        · exact .pure _
        · exact .pure _
    · exact .pure _

end Walk

/-! ### The instruments that are played -/

def Loop.instrument? : Loop P → Option Instrument
  | .voices _ i => some i
  | .voice _ _ s _ => some s.instrument
  | .body s _ => some s.instrument
  | _ => none

/-- The open streams play instruments that are defined under their names. -/
def Staffed (c : Context P) (rs : List (Reader P)) : Prop :=
  ∀ r ∈ rs, ∀ i ∈ r.loop.instrument?, c.instrument? i.id = some i

section Staffed

variable {c d : Context P} {r : Reader P} {rs : List (Reader P)}

lemma Context.instrument?_of_prefix (h : c.instruments <+: d.instruments) {id : String}
    {i : Instrument} (hi : c.instrument? id = some i) : d.instrument? id = some i := by
  obtain ⟨more, hmore⟩ := h
  unfold Context.instrument? at hi ⊢
  rw [← hmore, List.find?_append, hi, Option.some_or]

lemma Context.instrument?_id {id : String} {i : Instrument} (h : c.instrument? id = some i) :
    c.instrument? i.id = some i := by
  have hid : i.id = id := by simpa using List.find?_some h
  rw [hid, h]

lemma Staffed.mono (h : Staffed c rs) (hcd : c.instruments <+: d.instruments) : Staffed d rs :=
  fun r hr i hi => Context.instrument?_of_prefix hcd (h r hr i hi)

lemma staffed_cons :
    Staffed c (r :: rs) ↔ (∀ i ∈ r.loop.instrument?, c.instrument? i.id = some i) ∧ Staffed c rs :=
  List.forall_mem_cons

lemma Staffed.cons_none (h : Staffed c rs) (hr : r.loop.instrument? = none) : Staffed c (r :: rs) :=
  staffed_cons.mpr ⟨by simp [hr], h⟩

lemma Staffed.cons_some (h : Staffed c rs) {i : Instrument} (hr : r.loop.instrument? = some i)
    (hi : c.instrument? i.id = some i) : Staffed c (r :: rs) := by
  refine staffed_cons.mpr ⟨fun j hj => ?_, h⟩
  rw [hr] at hj
  cases hj
  exact hi

end Staffed

/-! ### What a step does about what it comes upon -/

/-- A state that is reached without an event: instruments may be added. -/
structure Context.Continues (l : Library) (c d : Context P) : Prop where
  tabled : ∃ defs, Tabled l defs d.groups d
  instruments : c.instruments <+: d.instruments
  cursors : d.cursors = c.cursors

namespace Walk

variable {l : Library} {defs : List (Option String × Definition P)} {c d : Context P}
  {rs rs' below : List (Reader P)}

/-- The state behind a step that comes upon something: an event is entered, a call is counted or
reported; and otherwise nothing is refused. -/
inductive Met (l : Library) (c : Context P) : Option (Encounter P) → Context P → Prop
  | nothing {d : Context P} (hrecord : d.record = c.record) (h : c.Continues l d) : Met l c none d
  | event {s : Stage} {e : WrittenEvent P} {tick : Int} {r : Rendering}
      (hs : c.instrument? s.instrument.id = some s.instrument)
      (hr : e.render s (c.cursor s.key) tick = .ok r) :
      Met l c (some (c.eventAt ⟨s, e, .ok r.event⟩)) (c.enter s.key e.anchor r)
  | expanded {depth : Nat} {name : String} {m : Macro P}
      (h : c.book.lookUp (c.options.maxMacroDepth - depth) c.expansions name = .ok m) :
      Met l c (some (c.callAt depth name)) c.counted
  | refused {depth : Nat} {name : String} {issue : Issue} (t : Option (Token P))
      (h : c.book.lookUp (c.options.maxMacroDepth - depth) c.expansions name = .error issue) :
      Met l c (some (c.callAt depth name)) (c.noteOnce issue t)

lemma Met.instruments {x : Option (Encounter P)} (h : Met l c x d) :
    c.instruments <+: d.instruments := by
  cases h with
  | nothing _ h => exact h.instruments
  | event hs hr => exact (c.enter_instruments _ _ _).symm ▸ List.prefix_rfl
  | expanded | refused => exact List.prefix_rfl

lemma Met.tabled {x : Option (Encounter P)} (h : Met l c x d) (hc : Tabled l defs c.groups c) :
    ∃ defs, Tabled l defs d.groups d := by
  cases h with
  | nothing _ h => exact h.tabled
  | @event s e _ r hs hr =>
    have hdefined : c.defines s.key.instrument = true :=
      Context.defines_iff.mpr (List.mem_map_of_mem (List.mem_of_find?_eq_some hs))
    exact ⟨defs, enter_tabled hc hdefined e.anchor r⟩
  | expanded | refused => exact ⟨defs, hc.congr rfl⟩

lemma continues_of_tables (h : Tabled l defs c.groups c) (htables : d.tables = c.tables) :
    c.Continues l d where
  tabled := ⟨defs, h.congr htables⟩
  instruments := by
    have hsame : d.instruments = c.instruments := congrArg (·.2.1) htables
    exact hsame ▸ List.prefix_rfl
  cursors := congrArg (·.2.2.2) htables

lemma continues_refl (h : Tabled l defs c.groups c) : c.Continues l c :=
  continues_of_tables h rfl

/-- A declaration outside of measure blocks adds instruments at most. -/
lemma continues_of_declare (h : Tabled l defs c.groups c) {decl : Declaration P}
    (hne : ∀ b, decl ≠ .measure b) (hrun : eval (declare decl) c = .ok ((), d)) :
    c.Continues l d where
  tabled := ⟨_, declare_tabled h hrun⟩
  instruments := by
    have hall : eval (declareAll [decl]) c = .ok ((), d) := by
      rw [declareAll, eval_forM_cons, hrun]
      rfl
    have hextends := (declareAll_writes [decl] c).extends
    rw [leaves, eval_eq_ok.mp hall] at hextends
    exact hextends.instruments
  cursors := declare_cursors h hne hrun

lemma playback?_keeps {I : Context P → Prop}
    (h : ∀ (c : Context P) reports, I c → I { c with reports }) (b : MeasureBlock P) :
    Keeps I (fun _ => True) (playback? b) fun _ => True := by
  have report (issue : Issue) (t : Option (Token P)) :
      Keeps I (fun _ => True) (Run.report issue t) fun _ => True :=
    Keeps.modify fun c hc => h c _ hc
  refine (Keeps.lift (fun _ _ => trivial) fun _ _ => trivial).bind fun range _ => ?_
  split
  · exact (report _ _).bind fun _ _ => Keeps.pure trivial
  · exact (report _ _).bind fun _ _ => Keeps.pure trivial
  · refine Keeps.get_bind fun c _ => ?_
    dsimp only
    split
    · exact (report _ _).bind fun _ _ => Keeps.pure trivial
    · exact Keeps.pure trivial

lemma continues_of_stepDocument (h : Tabled l defs c.groups c) (hbelow : Staffed c below)
    {wrapped : Bool} {ts : List (Token P)}
    (hstep : eval (stepDocument wrapped below ts) c = .ok (rs', d)) :
    c.Continues l d ∧ Staffed c rs' := by
  have hdocument (us : List (Token P)) : Staffed c (⟨.document wrapped, us⟩ :: below) :=
    hbelow.cons_none rfl
  cases ts with
  | nil =>
    rw [stepDocument] at hstep
    obtain ⟨rfl, rfl⟩ := eval_finish_eq_ok hstep
    exact ⟨continues_refl h, hbelow⟩
  | cons t ts =>
    rw [stepDocument] at hstep
    split at hstep
    · split at hstep
      · obtain ⟨rfl, rfl⟩ := eval_finish_eq_ok hstep
        exact ⟨continues_refl h, hbelow⟩
      · cases hstep
        exact ⟨continues_refl h, hdocument ts⟩
    · split at hstep
      · rw [openMeasure, eval_bind] at hstep
        obtain ⟨⟨p, e⟩, hp, hstep⟩ := bind_eq_ok.mp hstep
        have hsame : e.tables = c.tables :=
          (playback?_keeps (I := fun d => d.tables = c.tables) (fun _ _ hc => hc) _).state_of_ok
            rfl hp
        have hcontinues := continues_of_tables h hsame
        cases p with
        | none =>
          cases hstep
          exact ⟨hcontinues, hdocument _⟩
        | some b =>
          cases hstep
          exact ⟨hcontinues, (hdocument _).cons_none rfl⟩
      · rename_i decl rest hne hread
        rw [eval_bind] at hstep
        obtain ⟨⟨_, e⟩, hdeclare, hstep⟩ := bind_eq_ok.mp hstep
        cases hstep
        exact ⟨continues_of_declare h hne hdeclare, hdocument rest⟩
      · cases hstep
        exact ⟨continues_refl h, hdocument ts⟩

lemma continues_of_stepEntries (h : Tabled l defs c.groups c) (hbelow : Staffed c below)
    {b : Playback P} {ts : List (Token P)}
    (hstep : eval (stepEntries b below ts) c = .ok (rs', d)) :
    c.Continues l d ∧ Staffed c rs' := by
  have hentries (us : List (Token P)) : Staffed c (⟨.entries b, us⟩ :: below) :=
    hbelow.cons_none rfl
  cases ts with
  | nil =>
    simp only [stepEntries, eval_bind, eval_get, ok_bind] at hstep
    split at hstep
    · cases hstep
      exact ⟨continues_refl h, hbelow⟩
    split at hstep
    · cases hstep
      exact ⟨continues_refl h, hbelow⟩
    · cases hstep
      exact ⟨continues_refl h, hbelow.cons_none rfl⟩
  | cons t ts =>
    simp only [stepEntries] at hstep
    split at hstep
    · split at hstep
      · rw [eval_bind] at hstep
        obtain ⟨⟨_, e⟩, hheader, hstep⟩ := bind_eq_ok.mp hstep
        have hsame : e.tables = c.tables :=
          (applyHeader_keeps_of (I := fun d => d.tables = c.tables) (fun _ _ _ hc => hc)
            _).state_of_ok rfl hheader
        cases hstep
        exact ⟨continues_of_tables h hsame, hentries _⟩
      · simp only [eval_bind, eval_get, ok_bind] at hstep
        split at hstep
        · rename_i i hfound
          cases hstep
          have hi := Context.instrument?_id hfound
          refine ⟨continues_refl h, ?_⟩
          rcases openPart_cases b i ts with ⟨p, rest, -, hopen, -⟩ | ⟨hopen, -⟩
          · rw [hopen]
            exact hbelow.cons_some rfl hi
          · rw [hopen]
            exact hbelow.cons_some rfl hi
        · cases hstep
          exact ⟨continues_refl h, hentries ts⟩
    · cases hstep
      exact ⟨continues_refl h, hentries ts⟩

lemma staffed_stepVoices (hbelow : Staffed c below) {i : Instrument}
    (hi : c.instrument? i.id = some i) (b : Playback P) (ts : List (Token P)) :
    Staffed c (stepVoices b i below ts) := by
  cases ts with
  | nil => exact hbelow.cons_none rfl
  | cons t ts =>
    rw [stepVoices]
    split
    · exact hbelow.cons_none rfl
    · exact hbelow.cons_some rfl hi
    · exact hbelow.cons_some rfl hi

lemma staffed_closeVoice (hbelow : Staffed c below) {s : Stage}
    (hs : c.instrument? s.instrument.id = some s.instrument) (b : Playback P) (named : Bool)
    (rest : List (Token P)) : Staffed c (closeVoice b named s below rest) := by
  cases named with
  | false => exact hbelow.cons_none rfl
  | true => exact hbelow.cons_some rfl hs

lemma instrument?_moveTo (tick : Int) (loop : Loop P) :
    (moveTo tick loop).instrument? = loop.instrument? := by
  cases loop <;> rfl

lemma staffed_closeBody (hbelow : Staffed c below) (tick : Int) :
    Staffed c (closeBody tick below) := by
  cases below with
  | nil => exact hbelow
  | cons r below =>
    rw [staffed_cons] at hbelow
    refine staffed_cons.mpr ⟨?_, hbelow.2⟩
    rw [instrument?_moveTo]
    exact hbelow.1

/-- A step in a row of events deals with what stands next in the row. -/
lemma ReadsEvents.met {s : Stage} {depth : Nat} {tick : Int} {loop : Int → Loop P}
    {close : Int → List (Token P) → List (Reader P)} {ts : List (Token P)}
    (hreads : ReadsEvents s depth loop close below) (h : Tabled l defs c.groups c)
    (hloop : ∀ tick, (loop tick).instrument? = some s.instrument)
    (hs : c.instrument? s.instrument.id = some s.instrument) (hbelow : Staffed c below)
    (hclose : ∀ tick ts, Staffed c (close tick ts))
    (hstep : eval (walkStep (⟨loop tick, ts⟩ :: below)) c = .ok (rs', d)) :
    Met l c (meets s depth tick c ts) d ∧ Staffed c rs' := by
  have hrow (tick : Int) (us : List (Token P)) : Staffed c (⟨loop tick, us⟩ :: below) :=
    hbelow.cons_some (hloop tick) hs
  rw [hreads.step] at hstep
  cases rowStep_of_stepEvents hstep with
  | closes hover =>
    rw [meets_over hover]
    exact ⟨.nothing rfl (continues_refl h), hclose tick ts⟩
  | refused hlook =>
    rw [meets_call]
    exact ⟨.refused _ hlook, hrow _ _⟩
  | call hlook =>
    rw [meets_call]
    exact ⟨.expanded hlook, (hrow _ _).cons_some rfl hs⟩
  | event hends ht he hr =>
    rw [meets_event hends ht he, hr]
    exact ⟨.event hs hr, hrow _ _⟩
  | skip hends hcall ht =>
    rw [meets_skip hends hcall ht]
    exact ⟨.nothing rfl (continues_refl h), hrow _ _⟩

/-- **Every step of a walk deals with what it comes upon.** -/
lemma met_of_walkStep (h : Tabled l defs c.groups c) (hrs : Staffed c rs)
    (hstep : eval (walkStep rs) c = .ok (rs', d)) :
    Met l c (encounter? rs c) d ∧ Staffed d rs' := by
  suffices hboth : Met l c (encounter? rs c) d ∧ Staffed c rs' from
    ⟨hboth.1, hboth.2.mono hboth.1.instruments⟩
  rcases rs with _ | ⟨⟨loop, ts⟩, below⟩
  · cases hstep
    exact ⟨.nothing rfl (continues_refl h), hrs⟩
  obtain ⟨htop, hbelow⟩ := staffed_cons.mp hrs
  cases loop with
  | document wrapped =>
    obtain ⟨hd, hrs'⟩ := continues_of_stepDocument h hbelow hstep
    exact ⟨.nothing ((stepDocument_frames wrapped below ts).record_eq hstep) hd, hrs'⟩
  | entries b =>
    obtain ⟨hd, hrs'⟩ := continues_of_stepEntries h hbelow hstep
    exact ⟨.nothing ((stepEntries_frames b below ts).record_eq hstep) hd, hrs'⟩
  | voices b i =>
    cases hstep
    exact ⟨.nothing rfl (continues_refl h), staffed_stepVoices hbelow (htop i rfl) b ts⟩
  | voice b named s tick =>
    have hs := htop s.instrument rfl
    exact (readsEvents_voice b named s below).met h (fun _ => rfl) hs hbelow
      (fun _ => staffed_closeVoice hbelow hs b named) hstep
  | body s tick =>
    have hreads := readsEvents_body s below
    have hmet := hreads.met h (fun _ => rfl) (htop s.instrument rfl) hbelow
      (fun tick _ => staffed_closeBody hbelow tick) hstep
    rw [← hreads.depth tick ts] at hmet
    exact hmet

/-- A step that makes an event of what it reads ends well. -/
lemma ReadsEvents.ok_of_made {s : Stage} {depth : Nat} {tick : Int} {loop : Int → Loop P}
    {close : Int → List (Token P) → List (Reader P)} {ts : List (Token P)}
    (hreads : ReadsEvents s depth loop close below) {r : Reading P} {room : Bool} {e : Event}
    (hr : meets s depth tick c ts = some (.event r room)) (he : r.made = .ok e) :
    ∃ q, eval (walkStep (⟨loop tick, ts⟩ :: below)) c = .ok q := by
  obtain ⟨t, us, w, rfl, hends, ht, hw, rfl⟩ := meets_eq_event hr
  obtain ⟨made, hmade⟩ : ∃ made, w.render s (c.cursor s.key) tick = .ok made := by
    cases hrender : w.render s (c.cursor s.key) tick with
    | error f =>
      rw [hrender] at he
      cases he
    | ok made => exact ⟨made, rfl⟩
  refine ⟨(⟨loop (tick + made.ticks), (readEvent (t :: us)).2⟩ :: below,
    c.enter s.key w.anchor made), ?_⟩
  rw [hreads.step, stepEvents_event hends ht, eval_bind, hw, stepOf, eval_step_play, hmade]
  rfl

lemma ok_of_made {r : Reading P} {room : Bool} {e : Event}
    (hr : encounter? rs c = some (.event r room)) (he : r.made = .ok e) :
    ∃ q, eval (walkStep rs) c = .ok q := by
  unfold encounter? at hr
  split at hr
  · exact (readsEvents_voice _ _ _ _).ok_of_made hr he
  · rw [(readsEvents_body _ _).depth] at hr
    exact (readsEvents_body _ _).ok_of_made hr he
  · cases hr

/-! ### What a whole walk keeps -/

lemma staffed_opening (o : Options) (l : Library) (ts : List (Token P)) :
    Staffed (.start o l) (opening ts) := by
  obtain ⟨wrapped, us, hopening, -⟩ := opening_eq ts
  rw [hopening]
  simp [Staffed, Loop.instrument?]

/-- **What every step keeps of the log and the state holds all along a walk**: at its end, and
before the step at which it stops. -/
lemma walk_log {J : List (Encounter P) → Context P → Prop}
    (hstep : ∀ {log c x d} {defs : List (Option String × Definition P)},
      Tabled l defs c.groups c → J log c → Met l c x d → J (log ++ x.toList) d)
    (n : Nat) {log : List (Encounter P)} (h : J log c) (htabled : Tabled l defs c.groups c)
    (hrs : Staffed c rs) :
    (∀ rs' d, eval (walk n rs) c = .ok (rs', d) → J (log ++ encounters n rs c) d) ∧
      ∀ f, eval (walk n rs) c = .error f → ∃ log' rs' c', J log' c' ∧
        eval (walkStep rs') c' = .error f ∧
        log ++ encounters n rs c = log' ++ (encounter? rs' c').toList := by
  induction n generalizing log rs c defs with
  | zero =>
    rw [encounters, List.append_nil]
    refine ⟨fun rs' d hwalk => ?_, fun f hwalk => ?_⟩
    · cases hwalk
      exact h
    · cases hwalk
  | succ n ih =>
    rw [walk, eval_bind, encounters]
    cases hone : eval (walkStep rs) c with
    | ok q =>
      obtain ⟨rs₁, c₁⟩ := q
      obtain ⟨hmet, hrs₁⟩ := met_of_walkStep htabled hrs hone
      obtain ⟨defs₁, htabled₁⟩ := hmet.tabled htabled
      rw [ok_bind, ← List.append_assoc]
      exact ih (hstep htabled h hmet) htabled₁ hrs₁
    | error f =>
      -- what the failing step came upon is the last of the log, and `J` is known before it only
      rw [error_bind, List.append_nil]
      refine ⟨fun rs' d hwalk => ?_, fun g hwalk => ?_⟩
      · cases hwalk
      · cases hwalk
        exact ⟨log, rs, c, h, hone, rfl⟩

end Walk

end Partitura
