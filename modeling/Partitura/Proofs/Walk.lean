import Partitura.Compile
import Partitura.Proofs.Inlining

/-!
The walk through the tokens of a text, one step at a time.

The streams that are open stand on a stack, the innermost first: the document, a measure block
that is played, and above it the macros whose calls are expanded. A step takes the next tokens of
the innermost stream, and may open one above it; at its end the stream is closed, or rewound for
the next measure. Here a row of events is walked through (`leads_events`): the walk comes to what
playing the row at once leads to, with every macro in the place of its call.
-/

namespace Partitura

open Number Run

variable {P α β : Type}

/-! ### Open streams -/

structure Playback (P : Type) where
  body : List (Token P)
  /-- The first measure of its range. -/
  first : Int
  /-- The measures that were begun, the newest first. -/
  begun : List Int := []
  /-- The measure that is played, the tick it starts at, and how many are left behind it. -/
  index : Int
  base : Int := 0
  left : Nat

/-- What is read in a stream. -/
inductive Loop (P : Type)
  | document (wrapped : Bool)
  /-- The entries of a measure block. -/
  | entries (b : Playback P)
  /-- Named voices of an instrument, up to a closing brace. -/
  | voices (b : Playback P) (i : Instrument)
  /-- A voice, one of several named ones or the only one. -/
  | voice (b : Playback P) (named : Bool) (s : Stage) (tick : Int)
  /-- The body of a macro. -/
  | body (s : Stage) (tick : Int)

structure Reader (P : Type) where
  loop : Loop P
  rest : List (Token P)

def Loop.isBody : Loop P → Bool
  | .body _ _ => true
  | _ => false

def openMacros (rs : List (Reader P)) : Nat := rs.countP (·.loop.isBody)

namespace Walk

/-- The same loop, come as far as `tick`. -/
def moveTo (tick : Int) : Loop P → Loop P
  | .voice b named s _ => .voice b named s tick
  | .body s _ => .body s tick
  | loop => loop

/-- Close a macro that has come as far as `tick`. -/
def closeBody (tick : Int) : List (Reader P) → List (Reader P)
  | [] => []
  | r :: below => ⟨moveTo tick r.loop, r.rest⟩ :: below

def begun (c : Context P) (b : Playback P) : Playback P :=
  { b with begun := b.index :: b.begun, base := (b.index - 1) * c.header.signature.ticks }

def begin (c : Context P) (b : Playback P) : Reader P := ⟨.entries (begun c b), b.body⟩

/-! ### Steps -/

def stepOf : Except Fault (WrittenEvent P) → Step P
  | .ok e => .play e
  | .error f => .halt f

def stepEvents (s : Stage) (depth : Nat) (tick : Int) (loop : Int → Loop P)
    (close : Int → List (Token P) → List (Reader P)) (below : List (Reader P)) :
    List (Token P) → Run P (List (Reader P))
  | [] => return close tick []
  | t :: ts => do
    let c ← get
    if c.endsAt depth (t :: ts) then return close tick (t :: ts)
    match t.lexeme with
    | .call name =>
      let (args, rest) := readCallArgs ts
      match c.book.lookUp (c.options.maxMacroDepth - depth) c.expansions name with
      | .error issue => return ⟨loop (← step s tick (.refuse issue t)), rest⟩ :: below
      | .ok m =>
        let tick ← step s tick .expand
        return ⟨.body s tick, m.expand args⟩ :: ⟨loop tick, rest⟩ :: below
    | _ =>
      if startsEvent t then
        let (e, rest) := readEvent (t :: ts)
        return ⟨loop (← step s tick (stepOf e)), rest⟩ :: below
      else return ⟨loop tick, ts⟩ :: below

def stepVoices (b : Playback P) (i : Instrument) (below : List (Reader P)) :
    List (Token P) → List (Reader P)
  | [] => ⟨.entries b, []⟩ :: below
  | t :: ts =>
    match t.lexeme with
    | .punct .closeBrace => ⟨.entries b, ts⟩ :: below
    | .punct _ => ⟨.voices b i, ts⟩ :: below
    | _ => ⟨.voice b true ⟨i, t.value, b.base, some b.index⟩ 0, skipPunct .colon ts⟩ :: below

def openPart (b : Playback P) (i : Instrument) (ts : List (Token P)) : Reader P :=
  match skipPunct .colon ts with
  | ⟨.punct .openBrace, _⟩ :: rest => ⟨.voices b i, rest⟩
  | rest => ⟨.voice b false ⟨i, defaultVoice, b.base, some b.index⟩ 0, rest⟩

def stepEntries (b : Playback P) (below : List (Reader P)) :
    List (Token P) → Run P (List (Reader P))
  | [] => do
    let c ← get
    if c.timeline.truncated then return below
    match b.left with
    | 0 => return below
    | left + 1 => return begin c { b with index := b.index + 1, left } :: below
  | t :: ts => do
    match t.lexeme with
    | .symbol s =>
      if Text.lower s == "meta" then
        applyHeader (readHeader (t :: ts)).1
        return ⟨.entries b, (readHeader (t :: ts)).2⟩ :: below
      match (← get).instrument? s with
      | some i => return openPart b i ts :: below
      | none => return ⟨.entries b, ts⟩ :: below
    | _ => return ⟨.entries b, ts⟩ :: below

/-- A block before its first measure, if it has so many. -/
def playbackOf (body : List (Token P)) (first : Int) : Nat → Option (Playback P)
  | 0 => none
  | left + 1 => some { body, first, index := first, left }

def playback? (b : MeasureBlock P) : Run P (Option (Playback P)) := do
  let range ← lift (rangeOf b)
  match b.body, range with
  | none, _ => report (.missingBlock (textOf b.keyword)) b.keyword; return none
  | some _, none => report (.invalidRange (textOf b.range)) b.keyword; return none
  | some body, some (first, last) =>
    let limit := (← get).options.maxMeasureSpan
    if limit < span first last then
      report (.rangeTruncated (textOf b.range) limit) b.range
    return playbackOf body first (min (span first last) limit)

def openMeasure (b : MeasureBlock P) (below : List (Reader P)) : Run P (List (Reader P)) := do
  match ← playback? b with
  | none => return below
  | some p => return begin (← get) p :: below

def finish (below : List (Reader P)) : Run P (List (Reader P)) := do
  lift (discard (writeInt (← get).timeline.ticks))
  return below

def stepDocument (wrapped : Bool) (below : List (Reader P)) :
    List (Token P) → Run P (List (Reader P))
  | [] => finish below
  | t :: ts =>
    if t.isPunct .closeBrace then
      if wrapped then finish below else return ⟨.document wrapped, ts⟩ :: below
    else
      match readDeclaration? t ts with
      | some (.measure b, rest) => openMeasure b (⟨.document wrapped, rest⟩ :: below)
      | some (d, rest) => do declare d; return ⟨.document wrapped, rest⟩ :: below
      | none => return ⟨.document wrapped, ts⟩ :: below

/-- Behind a voice its instrument goes on, or the block. -/
def closeVoice (b : Playback P) (named : Bool) (s : Stage) (below : List (Reader P))
    (rest : List (Token P)) : List (Reader P) :=
  ⟨if named then .voices b s.instrument else .entries b, skipPunct .bar rest⟩ :: below

def walkStep : List (Reader P) → Run P (List (Reader P))
  | [] => return []
  | ⟨.document wrapped, ts⟩ :: below => stepDocument wrapped below ts
  | ⟨.entries b, ts⟩ :: below => stepEntries b below ts
  | ⟨.voices b i, ts⟩ :: below => return stepVoices b i below ts
  | ⟨.voice b named s tick, ts⟩ :: below =>
    stepEvents s (openMacros below) tick (.voice b named s) (fun _ => closeVoice b named s below)
      below ts
  | ⟨.body s tick, ts⟩ :: below =>
    stepEvents s (openMacros below + 1) tick (.body s) (fun tick _ => closeBody tick below) below ts

def walk : Nat → List (Reader P) → Run P (List (Reader P))
  | 0, rs => return rs
  | n + 1, rs => do walk n (← walkStep rs)

def opening (ts : List (Token P)) : List (Reader P) :=
  match ts with
  | [] => [⟨.document false, []⟩]
  | t :: rest =>
    if t.isWord "omniscore" then
      match rest with
      | ⟨.punct .openBrace, _⟩ :: body => [⟨.document true, body⟩]
      | _ => [⟨.document false, rest⟩]
    else [⟨.document false, ts⟩]

/-! ### Where a walk leads -/

/-- From the stack `rs` in the state `c`, the walk comes to the stack and the state that `x` leads
to, or to its fault. -/
def Leads (rs : List (Reader P)) (x : Run P (List (Reader P))) (c : Context P) : Prop :=
  ∃ n, eval (walk n rs) c = eval x c

lemma walk_add (n m : Nat) (rs : List (Reader P)) : walk (n + m) rs = walk n rs >>= walk m := by
  induction n generalizing rs with
  | zero => simp [walk]
  | succ n ih =>
    rw [Nat.add_right_comm, walk, walk, bind_assoc]
    simp only [ih]

namespace Leads

variable {rs : List (Reader P)} {x y : Run P (List (Reader P))} {c : Context P}

lemma refl (rs : List (Reader P)) (c : Context P) : Leads rs (pure rs) c := ⟨0, rfl⟩

lemma congr (h : Leads rs x c) (hxy : eval x c = eval y c) : Leads rs y c := by
  obtain ⟨n, hn⟩ := h
  exact ⟨n, hn.trans hxy⟩

/-- A walk that does `z`, and one behind it. -/
lemma bind {z : Run P α} {next : α → List (Reader P)} {f : α → Run P (List (Reader P))}
    (h : Leads rs (z >>= fun a => pure (next a)) c)
    (hf : ∀ a d, eval z c = .ok (a, d) → Leads (next a) (f a) d) : Leads rs (z >>= f) c := by
  obtain ⟨n, hn⟩ := h
  rw [eval_bind] at hn
  cases hz : eval z c with
  | error e => exact ⟨n, by rw [hn, eval_bind, hz, error_bind, error_bind]⟩
  | ok p =>
    obtain ⟨m, hm⟩ := hf p.1 p.2 hz
    refine ⟨n + m, ?_⟩
    rw [walk_add, eval_bind, hn, eval_bind, hz, ok_bind, ok_bind, eval_pure, ok_bind, hm]

/-- A step that does `z`, and a walk behind it. -/
lemma step {z : Run P α} {next : α → List (Reader P)} {f : α → Run P (List (Reader P))}
    (hstep : eval (walkStep rs) c = eval (z >>= fun a => pure (next a)) c)
    (hf : ∀ a d, eval z c = .ok (a, d) → Leads (next a) (f a) d) : Leads rs (z >>= f) c := by
  refine bind ⟨1, ?_⟩ hf
  have hone : walk 1 rs = walkStep rs := by simp [walk]
  rw [hone, hstep]

/-- A step to a known state, and a walk behind it. -/
lemma move {r : List (Reader P)} {d : Context P} (hstep : eval (walkStep rs) c = .ok (r, d))
    (h : Leads r x d) (hxy : eval y c = eval x d) : Leads rs y c := by
  obtain ⟨n, hn⟩ := h
  exact ⟨n + 1, by rw [walk, eval_bind, hstep, ok_bind, hn, hxy]⟩

end Leads

/-! ### Rows of events -/

lemma eval_of_run {x y : Run P α} {c d : Context P} (h : x.run c = y.run d) :
    eval x c = eval y d := by
  unfold eval
  rw [h]

section Events

variable {s : Stage} {depth : Nat} {tick : Int} {c : Context P} {t : Token P}
  {ts : List (Token P)}

lemma eval_runEvents_over (h : c.endsAt depth ts = true) :
    eval (runEvents s depth tick ts) c = .ok ((tick, ts), c) := by
  have hitems : c.itemsAt depth ts = ([], ts) := by
    cases ts with
    | nil => rw [Context.itemsAt, readItems]
    | cons t ts => rw [Context.itemsAt, readItems, if_pos h]
  refine eval_eq_ok.mpr ?_
  rw [run_runEvents, hitems, Context.stepsAt, script_nil]
  rfl

/-- A call that is refused is reported, and the stream goes on behind it. -/
lemma eval_runEvents_refused {name : String} {p : P} {issue : Issue}
    (hissue : c.book.lookUp (c.options.maxMacroDepth - depth) c.expansions name = .error issue) :
    eval (runEvents s depth tick (⟨.call name, p⟩ :: ts)) c =
      eval (step s tick (.refuse issue ⟨.call name, p⟩) >>= fun tick =>
        runEvents s depth tick (readCallArgs ts).2) c := by
  have hsteps : c.stepsAt depth (⟨.call ⟨.call name, p⟩ name (readCallArgs ts).1,
      (readCallArgs ts).2.length⟩ :: (c.itemsAt depth (readCallArgs ts).2).1) =
        ⟨.refuse issue ⟨.call name, p⟩, (readCallArgs ts).2.length⟩ ::
          c.stepsAt depth (c.itemsAt depth (readCallArgs ts).2).1 := by
    rw [Context.stepsAt, script_refuse _ _ hissue]
    rfl
  rw [eval_of_run (run_runEvents s depth tick _ c), Context.itemsAt_call, hsteps, eval_bind,
    eval_runSteps_cons, eval_step_refuse, ok_bind, eval_bind, eval_step_refuse, ok_bind,
    eval_of_run (run_runEvents s depth tick _ _), eval_bind]
  rfl

lemma eval_runEvents_call {name : String} {p : P} {m : Macro P}
    (hm : c.book.lookUp (c.options.maxMacroDepth - depth) c.expansions name = .ok m) :
    eval (runEvents s depth tick (⟨.call name, p⟩ :: ts)) c =
      eval (runEvents s (depth + 1) tick (m.expand (readCallArgs ts).1) >>= fun q =>
        runEvents s depth q.1 (readCallArgs ts).2) c.counted := by
  obtain ⟨hget, hdepth, hcalls⟩ := lookUp_eq_ok.mp hm
  have hdepth' : depth < c.options.maxMacroDepth := by omega
  have hargs : readCallArgs ts = ((readCallArgs ts).1, (readCallArgs ts).2) := rfl
  rw [eval_of_run (runEvents_call hget hdepth' hcalls hargs), eval_bind, eval_placed, eval_bind]

/-- An event is played; what cannot be read as one stops the stream. -/
lemma eval_runEvents_event (hends : c.endsAt depth (t :: ts) = false)
    (ht : startsEvent t = true) :
    eval (runEvents s depth tick (t :: ts)) c =
      eval (step s tick (stepOf (readEvent (t :: ts)).1) >>= fun tick =>
        runEvents s depth tick (readEvent (t :: ts)).2) c := by
  rcases hread : readEvent (t :: ts) with ⟨f | e, rest⟩
  · rw [eval, runEvents_broken hends ht hread]
    rfl
  · rw [eval_of_run (runEvents_event hends ht hread), eval_bind, eval_placed, eval_bind]
    rfl

/-- What begins neither a call nor an event is passed over. -/
lemma eval_runEvents_skip (hends : c.endsAt depth (t :: ts) = false)
    (hcall : ∀ name, t.lexeme ≠ .call name) (ht : startsEvent t = false) :
    eval (runEvents s depth tick (t :: ts)) c = eval (runEvents s depth tick ts) c := by
  have hitems : c.itemsAt depth (t :: ts) = c.itemsAt depth ts := by
    rw [Context.itemsAt, readItems, if_neg (by simp [hends])]
    split
    · rename_i name hname
      exact absurd hname (hcall name)
    · rw [if_neg (by simp [ht])]
      rfl
  rw [eval_of_run (run_runEvents s depth tick _ c), hitems,
    eval_of_run (run_runEvents s depth tick ts c)]

/-- Nothing is defined in a row of events. -/
lemma stock_of_runEvents {q : Int × List (Token P)} {d : Context P}
    (h : eval (runEvents s depth tick ts) c = .ok (q, d)) : d.stock = c.stock := by
  rw [eval_of_run (run_runEvents s depth tick ts c), eval_bind] at h
  obtain ⟨⟨tick', e⟩, hrun, hpure⟩ := bind_eq_ok.mp h
  cases hpure
  exact (played_runSteps hrun).stock

end Events

/-- A loop over the events of a stream that is `depth` macros deep. -/
structure ReadsEvents (s : Stage) (depth : Nat) (loop : Int → Loop P)
    (close : Int → List (Token P) → List (Reader P)) (below : List (Reader P)) : Prop where
  step : ∀ tick ts, walkStep (⟨loop tick, ts⟩ :: below) =
    stepEvents s depth tick loop close below ts
  moveTo : ∀ tick tick', moveTo tick' (loop tick) = loop tick'
  depth : ∀ tick ts, openMacros (⟨loop tick, ts⟩ :: below) = depth

lemma readsEvents_voice (b : Playback P) (named : Bool) (s : Stage) (below : List (Reader P)) :
    ReadsEvents s (openMacros below) (.voice b named s) (fun _ => closeVoice b named s below)
      below where
  step := fun _ _ => rfl
  moveTo := fun _ _ => rfl
  depth := fun _ _ => rfl

lemma readsEvents_body (s : Stage) (below : List (Reader P)) :
    ReadsEvents s (openMacros below + 1) (.body s) (fun tick _ => closeBody tick below) below where
  step := fun _ _ => rfl
  moveTo := fun _ _ => rfl
  depth := fun _ _ => by simp [openMacros, Loop.isBody]

section ReadsEvents

variable {s : Stage} {depth : Nat} {tick : Int} {loop : Int → Loop P}
  {close : Int → List (Token P) → List (Reader P)} {below : List (Reader P)} {c : Context P}
  {t : Token P} {ts rest : List (Token P)}

lemma stepEvents_over (h : c.endsAt depth (t :: ts) = true) :
    eval (stepEvents s depth tick loop close below (t :: ts)) c =
      .ok (close tick (t :: ts), c) := by
  simp [stepEvents, h]

lemma stepEvents_refused {name : String} {p : P} {issue : Issue}
    (hissue : c.book.lookUp (c.options.maxMacroDepth - depth) c.expansions name = .error issue) :
    eval (stepEvents s depth tick loop close below (⟨.call name, p⟩ :: ts)) c =
      eval (step s tick (.refuse issue ⟨.call name, p⟩) >>= fun tick =>
        pure (⟨loop tick, (readCallArgs ts).2⟩ :: below)) c := by
  have hends : c.endsAt depth (⟨.call name, p⟩ :: ts) = false := by
    simp [Context.endsAt, endsStream]
  simp only [stepEvents, eval_bind, eval_get, ok_bind, hends, Bool.false_eq_true, if_false, hissue]

lemma stepEvents_call {name : String} {p : P} {m : Macro P}
    (hm : c.book.lookUp (c.options.maxMacroDepth - depth) c.expansions name = .ok m) :
    eval (stepEvents s depth tick loop close below (⟨.call name, p⟩ :: ts)) c =
      .ok (⟨.body s tick, m.expand (readCallArgs ts).1⟩ ::
        ⟨loop tick, (readCallArgs ts).2⟩ :: below, c.counted) := by
  have hends : c.endsAt depth (⟨.call name, p⟩ :: ts) = false := by
    simp [Context.endsAt, endsStream]
  simp only [stepEvents, eval_bind, eval_get, ok_bind, hends, Bool.false_eq_true, if_false, hm,
    eval_step_expand, eval_pure]
  rfl

lemma stepEvents_event (hends : c.endsAt depth (t :: ts) = false) (ht : startsEvent t = true) :
    eval (stepEvents s depth tick loop close below (t :: ts)) c =
      eval (step s tick (stepOf (readEvent (t :: ts)).1) >>= fun tick =>
        pure (⟨loop tick, (readEvent (t :: ts)).2⟩ :: below)) c := by
  simp only [stepEvents, eval_bind, eval_get, ok_bind, hends, Bool.false_eq_true, if_false]
  split
  · simp_all [startsEvent]
  · rw [if_pos ht, eval_bind]

lemma stepEvents_skip (hends : c.endsAt depth (t :: ts) = false)
    (hcall : ∀ name, t.lexeme ≠ .call name) (ht : startsEvent t = false) :
    eval (stepEvents s depth tick loop close below (t :: ts)) c =
      .ok (⟨loop tick, ts⟩ :: below, c) := by
  simp only [stepEvents, eval_bind, eval_get, ok_bind, hends, ht, Bool.false_eq_true, if_false,
    eval_pure]

end ReadsEvents

/-- What a step in a row of events does: the open streams and the state behind it. -/
inductive RowStep (s : Stage) (depth : Nat) (tick : Int) (loop : Int → Loop P)
    (close : Int → List (Token P) → List (Reader P)) (below : List (Reader P)) (c : Context P) :
    List (Token P) → List (Reader P) → Context P → Prop
  | closes {ts : List (Token P)} (hover : ts = [] ∨ c.endsAt depth ts = true) :
      RowStep s depth tick loop close below c ts (close tick ts) c
  | refused {name : String} {p : P} {ts : List (Token P)} {issue : Issue}
      (hlook : c.book.lookUp (c.options.maxMacroDepth - depth) c.expansions name = .error issue) :
      RowStep s depth tick loop close below c (⟨.call name, p⟩ :: ts)
        (⟨loop tick, (readCallArgs ts).2⟩ :: below) (c.noteOnce issue (some ⟨.call name, p⟩))
  | call {name : String} {p : P} {ts : List (Token P)} {m : Macro P}
      (hlook : c.book.lookUp (c.options.maxMacroDepth - depth) c.expansions name = .ok m) :
      RowStep s depth tick loop close below c (⟨.call name, p⟩ :: ts)
        (⟨.body s tick, m.expand (readCallArgs ts).1⟩ :: ⟨loop tick, (readCallArgs ts).2⟩ :: below)
        c.counted
  | event {t : Token P} {ts : List (Token P)} {e : WrittenEvent P} {r : Rendering}
      (hends : c.endsAt depth (t :: ts) = false) (ht : startsEvent t = true)
      (he : (readEvent (t :: ts)).1 = .ok e) (hr : e.render s (c.cursor s.key) tick = .ok r) :
      RowStep s depth tick loop close below c (t :: ts)
        (⟨loop (tick + r.ticks), (readEvent (t :: ts)).2⟩ :: below) (c.enter s.key e.anchor r)
  /-- What begins neither a call nor an event is passed over. -/
  | skip {t : Token P} {ts : List (Token P)} (hends : c.endsAt depth (t :: ts) = false)
      (hcall : ∀ name, t.lexeme ≠ .call name) (ht : startsEvent t = false) :
      RowStep s depth tick loop close below c (t :: ts) (⟨loop tick, ts⟩ :: below) c

/-- **Every step in a row of events that ends well is one of these.** -/
lemma rowStep_of_stepEvents {s : Stage} {depth : Nat} {tick : Int} {loop : Int → Loop P}
    {close : Int → List (Token P) → List (Reader P)} {below rs' : List (Reader P)}
    {c d : Context P} {ts : List (Token P)}
    (h : eval (stepEvents s depth tick loop close below ts) c = .ok (rs', d)) :
    RowStep s depth tick loop close below c ts rs' d := by
  cases ts with
  | nil =>
    cases h
    exact .closes (.inl rfl)
  | cons t ts =>
    by_cases hends : c.endsAt depth (t :: ts) = true
    · rw [stepEvents_over hends] at h
      cases h
      exact .closes (.inr hends)
    rw [Bool.not_eq_true] at hends
    by_cases hcall : ∃ name, t.lexeme = .call name
    · obtain ⟨_, p⟩ := t
      obtain ⟨name, rfl⟩ := hcall
      cases hlook : c.book.lookUp (c.options.maxMacroDepth - depth) c.expansions name with
      | error issue =>
        rw [stepEvents_refused hlook, eval_bind, eval_step_refuse, ok_bind] at h
        cases h
        exact .refused hlook
      | ok m =>
        rw [stepEvents_call hlook] at h
        cases h
        exact .call hlook
    · rw [not_exists] at hcall
      cases ht : startsEvent t with
      | true =>
        rw [stepEvents_event hends ht, eval_bind] at h
        obtain ⟨⟨tick', d'⟩, hstep, h⟩ := bind_eq_ok.mp h
        cases h
        cases he : (readEvent (t :: ts)).1 with
        | error f =>
          rw [he] at hstep
          cases hstep
        | ok e =>
          rw [he, stepOf, eval_step_play] at hstep
          cases hr : e.render s (c.cursor s.key) tick with
          | error f => simp [hr] at hstep
          | ok r =>
            obtain ⟨rfl, rfl⟩ : tick + r.ticks = tick' ∧ c.enter s.key e.anchor r = d' := by
              simpa [hr] using hstep
            exact .event hends ht he hr
      | false =>
        rw [stepEvents_skip hends hcall ht] at h
        cases h
        exact .skip hends hcall ht

/-- A step of a row of events leads on to the events behind it. -/
lemma leads_step {s : Stage} {depth : Nat} {loop : Int → Loop P}
    {close : Int → List (Token P) → List (Reader P)} {below : List (Reader P)}
    (h : ReadsEvents s depth loop close below) {tick : Int} {ts rest : List (Token P)}
    {c : Context P} {st : Step P}
    (hstep : eval (stepEvents s depth tick loop close below ts) c =
      eval (step s tick st >>= fun tick => pure (⟨loop tick, rest⟩ :: below)) c)
    (hrun : eval (runEvents s depth tick ts) c =
      eval (step s tick st >>= fun tick => runEvents s depth tick rest) c)
    (hrest : ∀ tick' d, d.stock = c.stock → Leads (⟨loop tick', rest⟩ :: below)
      (runEvents s depth tick' rest >>= fun q => pure (close q.1 q.2)) d) :
    Leads (⟨loop tick, ts⟩ :: below)
      (runEvents s depth tick ts >>= fun q => pure (close q.1 q.2)) c := by
  have hleads : Leads (⟨loop tick, ts⟩ :: below) (step s tick st >>= fun tick' =>
      runEvents s depth tick' rest >>= fun q => pure (close q.1 q.2)) c := by
    refine .step (by rw [h.step, hstep]) fun tick' d hd => hrest tick' d ?_
    exact (played_step (p := ⟨st, 0⟩) hd).stock
  refine hleads.congr ?_
  rw [← bind_assoc, eval_bind, ← hrun, eval_bind]

/-- **A row of events is played step by step**, and so is what the calls in it expand to. -/
lemma leads_events {s : Stage} {depth : Nat} {loop : Int → Loop P}
    {close : Int → List (Token P) → List (Reader P)} {below : List (Reader P)}
    (h : ReadsEvents s depth loop close below) (tick : Int) (ts : List (Token P)) (c : Context P) :
    Leads (⟨loop tick, ts⟩ :: below)
      (runEvents s depth tick ts >>= fun q => pure (close q.1 q.2)) c := by
  -- on how many macros may still be opened, then on the tokens that are left
  induction hm : c.options.maxMacroDepth - depth using Nat.strongRecOn
    generalizing depth loop close below tick ts c with
  | ind m deeper =>
  induction hn : ts.length using Nat.strongRecOn generalizing tick ts c with
  | ind n ih =>
  have behind (rest : List (Token P)) (hrest : rest.length < n) (tick' : Int) (d : Context P)
      (hstock : d.stock = c.stock) : Leads (⟨loop tick', rest⟩ :: below)
        (runEvents s depth tick' rest >>= fun q => pure (close q.1 q.2)) d := by
    have hoptions : d.options = c.options := congrArg (·.1) hstock
    exact ih rest.length hrest tick' rest d (by rw [hoptions, hm]) rfl
  cases ts with
  | nil =>
    refine .move (r := close tick []) (d := c) (by rw [h.step]; rfl) (.refl _ c) ?_
    rw [eval_bind, eval_eq_ok.mpr (runEvents_nil s depth tick c), ok_bind]
  | cons t ts =>
    have hlength : ts.length < n := by simp [← hn]
    by_cases hends : c.endsAt depth (t :: ts) = true
    · refine .move (by rw [h.step]; exact stepEvents_over hends) (.refl _ c) ?_
      rw [eval_bind, eval_runEvents_over hends, ok_bind]
    rw [Bool.not_eq_true] at hends
    by_cases hcall : ∃ name, t.lexeme = .call name
    · obtain ⟨_, p⟩ := t
      obtain ⟨name, rfl⟩ := hcall
      have hargs := length_readCallArgs ts
      cases hlook : c.book.lookUp (c.options.maxMacroDepth - depth) c.expansions name with
      | error issue =>
        exact leads_step h (stepEvents_refused hlook) (eval_runEvents_refused hlook)
          (behind _ (by omega))
      | ok m' =>
        -- the macro is closed where the stream goes on behind the call
        have hbody := readsEvents_body s (⟨loop tick, (readCallArgs ts).2⟩ :: below)
        rw [h.depth] at hbody
        have hdepth := (lookUp_eq_ok.mp hlook).2.1
        have hinside := deeper (m - 1) (by omega) hbody tick (m'.expand (readCallArgs ts).1)
          c.counted (by simp only [Context.counted]; omega)
        have hboth : Leads (⟨.body s tick, m'.expand (readCallArgs ts).1⟩ ::
            ⟨loop tick, (readCallArgs ts).2⟩ :: below)
            (runEvents s (depth + 1) tick (m'.expand (readCallArgs ts).1) >>= fun q =>
              runEvents s depth q.1 (readCallArgs ts).2 >>= fun q => pure (close q.1 q.2))
            c.counted := by
          refine .bind hinside fun q d hd => ?_
          have hstock : d.stock = c.counted.stock := stock_of_runEvents hd
          rw [closeBody, h.moveTo]
          exact behind (readCallArgs ts).2 (by omega) q.1 d hstock
        refine .move (by rw [h.step]; exact stepEvents_call hlook) hboth ?_
        rw [← bind_assoc, eval_bind, eval_runEvents_call hlook, eval_bind (runEvents _ _ _ _ >>= _)]
    · rw [not_exists] at hcall
      cases ht : startsEvent t with
      | true =>
        have hread := length_readEvent t ts
        exact leads_step h (stepEvents_event hends ht) (eval_runEvents_event hends ht)
          (behind _ (by omega))
      | false =>
        refine .move (by rw [h.step]; exact stepEvents_skip hends hcall ht)
          (behind ts hlength tick c rfl) ?_
        rw [eval_bind, eval_bind, eval_runEvents_skip hends hcall ht]

end Walk

end Partitura
