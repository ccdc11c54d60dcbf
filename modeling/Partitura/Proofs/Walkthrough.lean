import Partitura.Proofs.Reading
import Partitura.Proofs.Replay
import Partitura.Proofs.Walk

/-!
The walk through a whole text comes to its end.

Voices, the entries of a block, its measures and the declarations of the document are walked
through one after the other, and each loop leads to what the program does there. So there is a
last step, and the walk ends as the compilation of the text does (`exists_endsAs`).
-/

namespace Partitura

open Number Run

variable {P α : Type}

namespace Walk

/-! ### Measure blocks -/

section Block

variable {b : Playback P} {below : List (Reader P)}

lemma leads_voice (hbelow : openMacros below = 0) (named : Bool) (s : Stage) (ts : List (Token P))
    (c : Context P) :
    Leads (⟨.voice b named s 0, ts⟩ :: below)
      (Functor.discard (perform s (readStream c.defines ts).1) >>= fun _ =>
        pure (closeVoice b named s below (readStream c.defines ts).2)) c := by
  have hreads := readsEvents_voice b named s below
  rw [hbelow] at hreads
  refine (leads_events hreads 0 ts c).congr ?_
  rw [runEvents_zero, eval_bind, eval_bind, eval_bind, eval_get, ok_bind, eval_bind, eval_discard]
  cases eval (perform s (readStream c.defines ts).1) c <;> rfl

lemma defines_of_perform {s : Stage} {items : List (Placed (Item P))} {c d : Context P} {u : Unit}
    (h : eval (Functor.discard (perform s items)) c = .ok (u, d)) : d.defines = c.defines := by
  obtain ⟨tick, h⟩ := eval_discard_eq_ok h
  exact Context.defines_congr (played_runSteps h).stock

lemma stepVoices_name {t : Token P} (ht : ∀ p, t.lexeme = .punct p → False) (b : Playback P)
    (i : Instrument) (below : List (Reader P)) (ts : List (Token P)) :
    stepVoices b i below (t :: ts) =
      ⟨.voice b true ⟨i, t.value, b.base, some b.index⟩ 0, skipPunct .colon ts⟩ :: below := by
  unfold stepVoices
  split <;> simp_all

/-- The voices of an instrument are played one after the other. -/
lemma leads_voices (hbelow : openMacros below = 0) (i : Instrument) (ts : List (Token P))
    (c : Context P) :
    Leads (⟨.voices b i, ts⟩ :: below)
      (playPart i (readVoices c.defines ts).1 b.base (some b.index) >>= fun _ =>
        pure (⟨.entries b, (readVoices c.defines ts).2⟩ :: below)) c := by
  generalize hdefined : c.defines = defined
  fun_induction readVoices defined ts generalizing c with
  | case1 => exact .move rfl (.refl _ c) rfl
  | case2 t ts ht =>
    refine .move (r := ⟨.entries b, ts⟩ :: below) (d := c) ?_ (.refl _ c) rfl
    simp [walkStep, stepVoices, ht]
  | case3 t ts p hne ht ih =>
    refine .move (d := c) ?_ (ih c hdefined) rfl
    simp [walkStep, stepVoices, ht]
  | case4 t ts _ _ _ items voices behind hread _ hname ih =>
    rw [hread] at ih
    have hvoice := leads_voice (b := b) hbelow true ⟨i, t.value, b.base, some b.index⟩
      (skipPunct .colon ts) c
    rw [hdefined] at hvoice
    refine .move (d := c) ?_
      (.bind hvoice fun _ d hd => ih d ((defines_of_perform hd).trans hdefined)) ?_
    · simp [walkStep, stepVoices_name hname]
    · exact congrArg (eval · c) (bind_assoc _ _ _)

lemma openPart_cases (b : Playback P) (i : Instrument) (ts : List (Token P)) :
    (∃ p rest, skipPunct .colon ts = ⟨.punct .openBrace, p⟩ :: rest ∧
        openPart b i ts = ⟨.voices b i, rest⟩ ∧
        ∀ defined, readPart defined ts = readVoices defined rest) ∨
      (openPart b i ts =
          ⟨.voice b false ⟨i, defaultVoice, b.base, some b.index⟩ 0, skipPunct .colon ts⟩ ∧
        ∀ defined, readPart defined ts =
          ([⟨defaultVoice, (readStream defined (skipPunct .colon ts)).1⟩],
            skipPunct .bar (readStream defined (skipPunct .colon ts)).2)) := by
  unfold openPart
  split
  · rename_i p rest h
    exact .inl ⟨p, rest, h, rfl, fun _ => by rw [readPart, h]⟩
  · exact .inr ⟨rfl, fun _ => by simp [readPart]⟩

/-- The only voice of an instrument, or all that stand in braces. -/
lemma leads_part (hbelow : openMacros below = 0) (i : Instrument) (ts : List (Token P))
    (c : Context P) :
    Leads (openPart b i ts :: below)
      (playPart i (readPart c.defines ts).1 b.base (some b.index) >>= fun _ =>
        pure (⟨.entries b, (readPart c.defines ts).2⟩ :: below)) c := by
  rcases openPart_cases b i ts with ⟨p, rest, -, hopen, hread⟩ | ⟨hopen, hread⟩
  · rw [hopen, hread]
    exact leads_voices hbelow i rest c
  · rw [hopen, hread]
    refine (leads_voice hbelow false _ (skipPunct .colon ts) c).congr ?_
    rw [playPart, eval_bind, eval_bind, eval_forM_cons]
    cases eval (Functor.discard (perform _ _)) c <;> rfl

/-- Nothing is defined in a block. -/
lemma defines_of_playEntry {base : Int} {measure : Option Int} {e : Entry P} {c d : Context P}
    {u : Unit} (h : eval (playEntry base measure e) c = .ok (u, d)) : d.defines = c.defines := by
  have hends := playEntry_keeps_of (I := fun d : Context P => d.stock = c.stock)
    (fun _ _ _ hc => hc)
    (perform_keeps_of fun steps c₁ d₁ hplayed hc => hplayed.stock.trans hc) base measure e c rfl
  rw [h] at hends
  cases hends with
  | ok hd _ => exact Context.defines_congr hd

lemma instrument?_of_defines {c : Context P} {id : String} (h : c.defines id = true) :
    ∃ i, c.instrument? id = some i := by
  rw [Context.defines, ← List.isSome_find?] at h
  exact Option.isSome_iff_exists.mp h

/-- The entries of a block are played one after the other. -/
lemma leads_entries (hbelow : openMacros below = 0) (ts : List (Token P)) (c : Context P) :
    Leads (⟨.entries b, ts⟩ :: below)
      (playEntries (readEntries c.defines ts) b.index b.base >>= fun _ =>
        pure (⟨.entries b, []⟩ :: below)) c := by
  generalize hdefined : c.defines = defined
  fun_induction readEntries defined ts generalizing c with
  | case1 => exact .refl _ c
  | case2 t ts s ht hmeta _ block ih =>
    refine Leads.congr (.step (z := playEntry b.base (some b.index) (.header block)) ?_
      fun _ d hd => ih d ((defines_of_playEntry hd).trans hdefined))
      (congrArg (eval · c) (bind_assoc _ _ _).symm)
    simp only [walkStep, stepEntries, ht, hmeta, if_true]
    rfl
  | case3 t ts s ht hmeta hs _ voices ih =>
    obtain ⟨i, hi⟩ := instrument?_of_defines (hdefined ▸ hs)
    have hpart := leads_part (b := b) hbelow i ts c
    rw [hdefined] at hpart
    have hplay : eval (playEntry b.base (some b.index) (.part s voices)) c =
        eval (playPart i voices b.base (some b.index)) c := by simp [playEntry, hi]
    have hentry : Leads (openPart b i ts :: below) (playEntry b.base (some b.index) (.part s voices)
        >>= fun _ => pure (⟨.entries b, (readPart defined ts).2⟩ :: below)) c :=
      hpart.congr (by rw [eval_bind, eval_bind, hplay])
    refine .move (d := c) ?_
      (.bind hentry fun _ d hd => ih d ((defines_of_playEntry hd).trans hdefined))
      (congrArg (eval · c) (bind_assoc _ _ _))
    simp [walkStep, stepEntries, ht, hmeta, hi]
  | case4 t ts s ht hmeta hs ih =>
    have hnone : c.instrument? s = none := by
      rw [Context.instrument?, List.find?_eq_none]
      simpa [Context.defines, ← hdefined] using hs
    refine .move (d := c) ?_ (ih c hdefined) rfl
    simp [walkStep, stepEntries, ht, hmeta, hnone]
  | case5 t ts ht ih =>
    refine .move (d := c) ?_ (ih c hdefined) rfl
    simp only [walkStep, stepEntries, eval_pure]

lemma eval_playMeasures_succ (entries : List (Entry P)) (count : Nat) (index : Int)
    (c : Context P) :
    eval (playMeasures entries (count + 1) index) c =
      eval (playEntries entries index ((index - 1) * c.header.signature.ticks)) c >>= fun p =>
        if p.2.timeline.truncated then .ok ((), p.2)
        else eval (playMeasures entries count (index + 1)) p.2 := by
  simp only [playMeasures, eval_bind, eval_get, ok_bind]
  congr 1
  funext p
  split <;> rfl

/-- One measure of a block, and those that are left if no event was refused. -/
lemma leads_pass (hbelow : openMacros below = 0) (b : Playback P) (c : Context P)
    (hleft : ∀ d : Context P, d.defines = c.defines → d.timeline.truncated = false →
      Leads (⟨.entries (begun c b), []⟩ :: below)
        (playMeasures (readEntries c.defines b.body) b.left (b.index + 1) >>= fun _ => pure below)
        d) :
    Leads (begin c b :: below)
      (playMeasures (readEntries c.defines b.body) (b.left + 1) b.index >>= fun _ => pure below)
      c := by
  have hentries := leads_entries (b := begun c b) hbelow b.body c
  have hpass : Leads (begin c b :: below)
      (playEntries (readEntries c.defines b.body) b.index (begun c b).base >>= fun _ => do
        if (← get).timeline.truncated then return below
        playMeasures (readEntries c.defines b.body) b.left (b.index + 1)
        return below) c := by
    refine .bind hentries fun _ d hd => ?_
    cases ht : d.timeline.truncated with
    | true =>
      refine .move (r := below) (d := d) ?_ (.refl below d) ?_
      · simp [walkStep, stepEntries, ht]
      · simp [ht]
    | false =>
      refine (hleft d (Context.defines_congr (playEntries_stock hd)) ht).congr ?_
      simp [ht]
  refine hpass.congr ?_
  rw [eval_bind, eval_bind, eval_playMeasures_succ, begun]
  cases eval (playEntries _ _ _) c with
  | error f => rfl
  | ok p =>
    rw [ok_bind, ok_bind, eval_bind, eval_get, ok_bind]
    split
    · rfl
    · exact eval_bind _ _ _

/-- A block is played in all its measures, or until an event is refused. -/
lemma leads_measures (hbelow : openMacros below = 0) (b : Playback P) (c : Context P) :
    Leads (begin c b :: below)
      (playMeasures (readEntries c.defines b.body) (b.left + 1) b.index >>= fun _ => pure below)
      c := by
  induction hb : b.left generalizing b c with
  | zero =>
    rw [← hb]
    refine leads_pass hbelow b c fun d _ ht => .move (r := below) (d := d) ?_ (.refl below d) ?_
    · simp [walkStep, stepEntries, begun, hb]
    · simp [hb, playMeasures]
  | succ left ih =>
    rw [← hb]
    refine leads_pass hbelow b c fun d hd ht => ?_
    refine .move (d := d) ?_ (ih { begun c b with index := b.index + 1, left } d rfl) ?_
    · simp [walkStep, stepEntries, begun, ht, hb]
    · rw [hd, hb]
      rfl

end Block

/-! ### Documents -/

lemma Leads.fail {rs : List (Reader P)} {x : Run P (List (Reader P))} {c : Context P} {f : Fault}
    (hstep : eval (walkStep rs) c = .error f) (hx : eval x c = .error f) : Leads rs x c :=
  ⟨1, by rw [walk, eval_bind, hstep, hx, error_bind]⟩

def playFrom : Option (Playback P) → Run P Unit
  | none => return
  | some b => do playMeasures (readEntries (← get).defines b.body) (b.left + 1) b.index

lemma eval_playFrom (body : List (Token P)) (first : Int) (count : Nat) (c : Context P) :
    eval (playFrom (playbackOf body first count)) c =
      eval (playMeasures (readEntries c.defines body) count first) c := by
  cases count <;> rfl

/-- A measure block is played as its playback says. -/
lemma eval_playMeasure (b : MeasureBlock P) (c : Context P) :
    eval (playMeasure b) c = eval (playback? b >>= playFrom) c := by
  unfold playMeasure playback?
  rw [eval_bind, eval_placed, bind_assoc, eval_bind]
  cases eval (lift (rangeOf b)) c with
  | error f => rfl
  | ok p =>
    obtain ⟨range, d⟩ := p
    rw [ok_bind, ok_bind]
    cases b.body with
    | none => rfl
    | some body =>
      cases range with
      | none => rfl
      | some r =>
        obtain ⟨first, last⟩ := r
        by_cases hlimit : d.options.maxMeasureSpan < span first last
        · simp only [eval_bind, eval_get, ok_bind, hlimit, if_true, eval_placed, eval_pure,
            eval_report, eval_playFrom]
        · simp only [eval_bind, eval_get, ok_bind, hlimit, if_false, eval_placed, eval_pure,
            eval_playFrom]

lemma leads_finish {wrapped : Bool} {ts : List (Token P)}
    (h : stepDocument wrapped [] ts = finish []) (c : Context P) :
    Leads [⟨.document wrapped, ts⟩] (finish []) c :=
  ⟨1, by simp [walk, walkStep, h]⟩

/-- A measure block is opened above the document, and played before the document goes on. -/
lemma leads_openMeasure {rs below : List (Reader P)} {b : MeasureBlock P} {c : Context P}
    (hbelow : openMacros below = 0) (hstep : walkStep rs = openMeasure b below)
    {x : Run P (List (Reader P))} (hx : ∀ d, Leads below x d) :
    Leads rs (playMeasure b >>= fun _ => x) c := by
  have hboth : Leads rs (playback? b >>= fun p => playFrom p >>= fun _ => x) c := by
    cases hb : eval (playback? b) c with
    | error f =>
      refine .fail (f := f) ?_ ?_
      · rw [hstep, openMeasure, eval_bind, hb, error_bind]
      · rw [eval_bind, hb, error_bind]
    | ok q =>
      obtain ⟨_ | p, d⟩ := q
      · refine .move (r := below) (d := d) ?_ (hx d) ?_
        · rw [hstep, openMeasure, eval_bind, hb, ok_bind, eval_pure]
        · rw [eval_bind, hb, ok_bind, playFrom, pure_bind]
      · refine .move (r := begin d p :: below) (d := d) ?_
          (.bind (leads_measures hbelow p d) fun _ e _ => hx e) ?_
        · rw [hstep, openMeasure, eval_bind, hb, ok_bind, eval_bind, eval_get, ok_bind, eval_pure]
        · rw [eval_bind, hb, ok_bind, playFrom, eval_bind, eval_bind, eval_get, ok_bind, eval_bind]
  refine hboth.congr ?_
  rw [← bind_assoc, eval_bind, ← eval_playMeasure, eval_bind]

lemma declareAll_nil_bind (x : Run P α) : (declareAll [] >>= fun _ => x) = x :=
  pure_bind () fun _ => x

lemma declareAll_cons_bind (d : Declaration P) (ds : List (Declaration P)) (x : Run P α) :
    (declareAll (d :: ds) >>= fun _ => x) = declare d >>= fun _ => declareAll ds >>= fun _ => x :=
  bind_assoc (declare d) (fun _ => declareAll ds) fun _ => x

/-- The declarations of a document are carried out one after the other. -/
lemma leads_document (wrapped : Bool) (ts : List (Token P)) (c : Context P) :
    Leads [⟨.document wrapped, ts⟩]
      (declareAll (readDeclarations wrapped ts) >>= fun _ => finish []) c := by
  fun_induction readDeclarations wrapped ts generalizing c with
  | case1 =>
    rw [declareAll_nil_bind]
    exact leads_finish (by rw [stepDocument]) c
  | case2 t ts ht hwrapped =>
    rw [declareAll_nil_bind]
    exact leads_finish (by simp only [stepDocument, ht, hwrapped, if_true]) c
  | case3 t ts ht hwrapped ih =>
    refine .move (d := c) ?_ (ih c) rfl
    simp [walkStep, stepDocument, ht, hwrapped]
  | case4 t ts ht d rest hread _ ih =>
    rw [declareAll_cons_bind]
    have hstep : walkStep [⟨.document wrapped, t :: ts⟩] = stepDocument wrapped [] (t :: ts) := rfl
    rw [stepDocument, if_neg ht] at hstep
    rw [hread] at hstep
    cases d with
    | measure b => exact leads_openMeasure rfl hstep ih
    | _ => exact .step (congrArg (eval · c) hstep) fun _ e _ => ih e
  | case5 t ts ht hread ih =>
    refine .move (d := c) ?_ (ih c) rfl
    simp [walkStep, stepDocument, ht, hread]

/-- The end of a walk: nothing is open, and the state is that of the compilation, or the fault
is. -/
inductive EndsAs : Except Fault (List (Reader P) × Context P) →
    EStateM.Result Stop (Context P) Unit → Prop
  | ok (c : Context P) : EndsAs (.ok ([], c)) (.ok () c)
  | error (f : Fault) (place : Place) (c : Context P) : EndsAs (.error f) (.error ⟨f, place⟩ c)

/-- A walk opens with the document. -/
lemma opening_eq (ts : List (Token P)) : ∃ wrapped us, opening ts = [⟨.document wrapped, us⟩] ∧
    readDocument ts = readDeclarations wrapped us := by
  unfold opening readDocument
  split
  · exact ⟨false, [], rfl, by rw [readDeclarations]⟩
  · split
    · split
      · exact ⟨true, _, rfl, by simp_all⟩
      · exact ⟨false, _, rfl, by simp_all⟩
    · exact ⟨false, _, rfl, by simp_all⟩

/-- **The walk through a text ends**, and it ends as the compilation of the text does. -/
lemma exists_endsAs (o : Options) (l : Library) (ts : List (Token P)) :
    ∃ n, EndsAs (eval (walk n (opening ts)) (.start o l)) (compileTokens o l ts) := by
  obtain ⟨wrapped, us, hopening, hread⟩ := opening_eq ts
  obtain ⟨n, hn⟩ := leads_document wrapped us (.start o l)
  rw [← hopening, ← hread] at hn
  have hfinish : (declareAll (readDocument ts) >>= fun _ => finish [] : Run P (List (Reader P))) =
      (do
        declareAll (readDocument ts)
        lift (Functor.discard (writeInt (← get).timeline.ticks)) : Run P Unit) >>= fun _ =>
          pure [] := by
    simp only [finish, bind_assoc]
  refine ⟨n, ?_⟩
  rw [hn, hfinish, eval_bind, eval, ← compileTokens]
  cases compileTokens o l ts with
  | ok u c => exact .ok c
  | error st c => exact .error st.fault st.place c

end Walk

end Partitura
