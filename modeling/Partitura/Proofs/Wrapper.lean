import Partitura.Proofs.Causality
import Partitura.Proofs.Lexing
import Partitura.Proofs.Offsets

/-!
A wrapper around a text changes nothing but the lines.

The closing brace of a wrapper stands where the bare text ends. A declaration that was complete
before does not see it. One that went on to the end either leaves the brace, or has its block
closed by it, or takes it in; then the brace may stand in the body of a macro that nothing calls
any more, or of a measure that passes over it (`Closing`). So the two walks keep step until
they end (`declareAll_wrapped`), the tokens of the wrapped text are those of the bare one further
on by one line (`tokenize_wrap`), and what offsets mean was settled before.
-/

namespace Partitura

open Number Run

variable {P : Type}

/-! ### Declarations with a brace behind them -/

/-- Two ends of a walk with the same score and the same reports, or with the same fault. -/
inductive SameEnd : Except Fault (Unit × Context P) → Except Fault (Unit × Context P) → Prop
  | ok {c d : Context P} (score : c.score = d.score) (reports : c.reports = d.reports) :
    SameEnd (.ok ((), c)) (.ok ((), d))
  | error (f : Fault) : SameEnd (.error f) (.error f)

lemma SameEnd.refl (r : Except Fault (Unit × Context P)) : SameEnd r r := by
  rcases r with f | ⟨_, c⟩
  · exact .error f
  · exact .ok rfl rfl

lemma SameEnd.fault_eq {f f' : Fault} (h : SameEnd (P := P) (.error f) (.error f')) : f = f' := by
  cases h
  rfl

namespace Run

lemma eval_perform_leaving (s : Stage) (n : Nat) (items : List (Placed (Item P)))
    (c : Context P) : eval (perform s (items.map (·.leaving n))) c = eval (perform s items) c := by
  have hscript : scriptOf c (items.map (·.leaving n)) = (scriptOf c items).map (·.leaving n) := by
    rw [scriptOf, script_leaving]
    rfl
  rw [eval_perform, eval_perform, hscript, runSteps_leaving, eval_placed]

lemma eval_forM_congr {γ δ : Type} {g : γ → δ} {x : δ → Run P PUnit} {y : γ → Run P PUnit}
    (h : ∀ a c, eval (x (g a)) c = eval (y a) c) (l : List γ) (c : Context P) :
    eval ((l.map g).forM x) c = eval (l.forM y) c := by
  induction l generalizing c with
  | nil => rfl
  | cons a l ih =>
    rw [List.map_cons, eval_forM_cons, eval_forM_cons, h]
    exact congrArg _ (funext fun q => ih q.2)

lemma eval_playEntry_leaving (base : Int) (measure : Option Int) (n : Nat) (e : Entry P)
    (c : Context P) :
    eval (playEntry base measure (e.leaving n)) c = eval (playEntry base measure e) c := by
  cases e with
  | header b => rfl
  | part id voices =>
    simp only [Entry.leaving_part, playEntry, eval_bind, eval_get, ok_bind]
    cases c.instrument? id with
    | none => rfl
    | some i =>
      refine eval_forM_congr (fun v d => ?_) voices c
      rw [eval_discard, eval_discard]
      exact congrArg _ (eval_perform_leaving _ n v.items d)

/-- Where the tokens behind an event end does not show in how it is played. -/
lemma eval_playEntries_congr {es es' : List (Entry P)}
    (h : es'.map (·.leaving 0) = es.map (·.leaving 0)) (index base : Int) (c : Context P) :
    eval (playEntries es' index base) c = eval (playEntries es index base) c := by
  have hleaving (es : List (Entry P)) :
      eval (playEntries (es.map (·.leaving 0)) index base) c =
        eval (playEntries es index base) c :=
    eval_forM_congr (eval_playEntry_leaving base (some index) 0) es c
  rw [← hleaving es', h, hleaving]

lemma eval_playMeasures_congr {es es' : List (Entry P)}
    (h : es'.map (·.leaving 0) = es.map (·.leaving 0)) (count : Nat) (index : Int)
    (c : Context P) :
    eval (playMeasures es' count index) c = eval (playMeasures es count index) c := by
  induction count generalizing index c with
  | zero => rfl
  | succ count ih =>
    simp only [playMeasures, eval_bind, eval_get, ok_bind, eval_playEntries_congr h]
    refine congrArg _ (funext fun q => ?_)
    split
    · rfl
    · exact ih _ _

lemma eval_playMeasure_last (p : P) (keyword range : Option (Token P)) (body : List (Token P))
    (c : Context P) :
    eval (playMeasure ⟨keyword, range, some (body ++ [⟨.punct .closeBrace, p⟩])⟩) c =
      eval (playMeasure ⟨keyword, range, some body⟩) c := by
  have hplay (count : Nat) (first : Int) (c : Context P) :
      eval (playMeasures (readEntries c.defines (body ++ [⟨.punct .closeBrace, p⟩]))
          count first) c =
        eval (playMeasures (readEntries c.defines body) count first) c :=
    eval_playMeasures_congr (readEntries_last p c.defines body) count first c
  have hrange : rangeOf ⟨keyword, range, some (body ++ [⟨.punct .closeBrace, p⟩])⟩ =
      rangeOf ⟨keyword, range, some body⟩ := rfl
  unfold playMeasure
  rw [eval_bind, eval_bind, eval_placed, eval_placed, hrange, eval_lift]
  rcases rangeOf ⟨keyword, range, some body⟩ with f | _ | ⟨first, last⟩
  · rfl
  · rfl
  · simp only [ok_map, ok_bind, eval_bind, eval_get]
    split
    · simp only [eval_bind, eval_get, ok_bind, eval_placed, hplay]
    · simp only [eval_bind, eval_get, ok_bind, eval_placed, hplay]

end Run

/-- A declaration and what it left, and the same with a closing brace behind the text. If the
declaration was not the last, it has not changed. -/
structure Closing (p : P) (r r' : Declaration P × List (Token P)) : Prop where
  rest : Behind p r.2 r'.2
  declaration : r'.1 = r.1 ∨
    r.2 = [] ∧ ∀ c, SameEnd (eval (declare r'.1) c) (eval (declare r.1) c)

section Closing

variable (p : P) (t : Token P) (ts : List (Token P))

lemma readHeader_closing : Closing p
    (.header (readHeader (t :: ts)).1, (readHeader (t :: ts)).2)
    (.header (readHeader (t :: (ts ++ [⟨.punct .closeBrace, p⟩]))).1,
      (readHeader (t :: (ts ++ [⟨.punct .closeBrace, p⟩]))).2) := by
  obtain ⟨hblock, hrest⟩ := readHeader_last p t ts
  exact ⟨hrest, .inl (congrArg Declaration.header hblock)⟩

lemma readInstrument_closing : Closing p
    (.instrument (readInstrument (t :: ts)).1, (readInstrument (t :: ts)).2)
    (.instrument (readInstrument (t :: (ts ++ [⟨.punct .closeBrace, p⟩]))).1,
      (readInstrument (t :: (ts ++ [⟨.punct .closeBrace, p⟩]))).2) := by
  rw [readInstrument_brace (.closes p)]
  exact ⟨.inl rfl, .inl rfl⟩

lemma readGroup_closing : Closing p
    (.group (readGroup (t :: ts)).1, (readGroup (t :: ts)).2)
    (.group (readGroup (t :: (ts ++ [⟨.punct .closeBrace, p⟩]))).1,
      (readGroup (t :: (ts ++ [⟨.punct .closeBrace, p⟩]))).2) := by
  by_cases hts : ts = []
  · -- the group has no label, but it has no members either
    subst hts
    have hbare : readGroup [t] = (⟨some t, "", [], none⟩, []) := by
      simp [readGroup_eq, readGroupLabel, readAttributes, seekBlock, behindOpen?]
    have hlast : readGroup [t, ⟨.punct .closeBrace, p⟩] =
        (⟨some t, t.text, [], none⟩, [⟨.punct .closeBrace, p⟩]) := by
      simp [readGroup_eq, readGroupLabel, readAttributes_cons, afterEquals?_of_brace (.closes p),
        seekBlock, Token.isReserved, behindOpen?, textOf]
    rw [List.nil_append, hbare, hlast]
    exact ⟨.inl rfl, .inr ⟨rfl, fun c => .refl _⟩⟩
  · have hsize := (seekBlock_group_suffix t ts).length_le
    simp only [readGroup_eq, List.head?_cons, textOf, List.tail_cons,
      readGroupLabel_brace (.closes p) t.text hts, readAttributes_brace (.closes p),
      seekBlock_brace (.closes p), Prod.map_fst, Prod.map_snd, id_eq, behindOpen?_close]
    cases hopen : behindOpen? (seekBlock (readAttributes (readGroupLabel t.text ts).2).2) with
    | none => exact ⟨.inl rfl, .inl rfl⟩
    | some body =>
      obtain ⟨q, hbody⟩ := behindOpen?_eq_some hopen
      rw [hbody, List.length_cons] at hsize
      have hlength : (t :: (ts ++ [⟨.punct .closeBrace, p⟩])).length = (t :: ts).length + 1 := by
        simp
      have hbound : body.length ≤ (t :: ts).length := by
        simp only [List.length_cons]
        omega
      obtain ⟨hmembers, hrest⟩ := readMembers_last p hbound
      simp only [Option.map_some, hlength, hmembers]
      exact ⟨hrest, .inl rfl⟩

/-- Neither the score nor the reports know the bodies of macros. -/
lemma defineMacro_sameEnd (keyword : Option (Token P)) (name : String)
    (params body body' : List (Token P)) (c : Context P) :
    SameEnd (eval (declare (.template ⟨keyword, name, params, some body'⟩)) c)
      (eval (declare (.template ⟨keyword, name, params, some body⟩)) c) := by
  simp only [declare, defineMacro, eval_discard, eval_bind]
  cases eval (declareParams name params) c with
  | error f => exact .error f
  | ok r => exact .ok rfl rfl

lemma readMacro_closing : Closing p
    (.template (readMacro (t :: ts)).1, (readMacro (t :: ts)).2)
    (.template (readMacro (t :: (ts ++ [⟨.punct .closeBrace, p⟩]))).1,
      (readMacro (t :: (ts ++ [⟨.punct .closeBrace, p⟩]))).2) := by
  rcases ts with _ | ⟨name, ts⟩
  · -- the brace stands where the name should, but there is no body
    have hnone (name name' : String) (c : Context P) :
        SameEnd (eval (declare (.template ⟨some t, name', [], none⟩)) c)
          (eval (declare (.template ⟨some t, name, [], none⟩)) c) := .refl _
    exact ⟨.inr ⟨rfl, rfl⟩, .inr ⟨rfl, hnone _ _⟩⟩
  obtain ⟨hparams, hrest⟩ := readParamList_last p ts
  have hhead : Behind p (skipPunct .equals (readParamList ts).2)
      (skipPunct .equals (readParamList (ts ++ [⟨.punct .closeBrace, p⟩])).2) := by
    rcases hrest with hrest | ⟨hrest, hrest'⟩
    · rw [hrest]
      exact .inl (skipPunct_brace p (by decide) _ [])
    · rw [hrest, hrest']
      exact .inr ⟨rfl, rfl⟩
  simp only [readMacro_eq, List.head?_cons, List.tail_cons, List.cons_append, hparams]
  generalize skipPunct .equals (readParamList ts).2 = head at hhead
  generalize skipPunct .equals (readParamList (ts ++ [⟨.punct .closeBrace, p⟩])).2 = head' at hhead
  rcases hhead with rfl | ⟨rfl, rfl⟩
  · rw [behindOpen?_close]
    cases behindOpen? head with
    | none => exact ⟨.inl rfl, .inl rfl⟩
    | some body =>
      cases hclose : (takeBlock 0 body).2 with
      | some rest =>
        simp only [Option.map_some, takeBlock_append hclose, hclose]
        exact ⟨.inl rfl, .inl rfl⟩
      | none =>
        obtain ⟨hbody, hlast | hlast⟩ := takeBlock_last p hclose
        · simp only [Option.map_some, hlast, hclose, hbody]
          exact ⟨.inr ⟨rfl, rfl⟩, .inl rfl⟩
        · simp only [Option.map_some, hlast, hclose, hbody]
          exact ⟨.inr ⟨rfl, rfl⟩, .inr ⟨rfl, fun c => defineMacro_sameEnd _ _ _ _ _ c⟩⟩
  · exact ⟨.inr ⟨rfl, rfl⟩, .inl rfl⟩

lemma readMeasure_closing : Closing p
    (.measure (readMeasure (t :: ts)).1, (readMeasure (t :: ts)).2)
    (.measure (readMeasure (t :: (ts ++ [⟨.punct .closeBrace, p⟩]))).1,
      (readMeasure (t :: (ts ++ [⟨.punct .closeBrace, p⟩]))).2) := by
  rcases ts with _ | ⟨range, ts⟩
  · -- the brace stands where the range should, but there is no body
    exact ⟨.inl rfl, .inr ⟨rfl, fun c => .refl _⟩⟩
  have hhead : skipSymbol (range :: (ts ++ [⟨.punct .closeBrace, p⟩])) =
      skipSymbol (range :: ts) ++ [⟨.punct .closeBrace, p⟩] :=
    skipSymbol_append (List.cons_ne_nil range ts) _
  simp only [readMeasure_eq, List.head?_cons, List.tail_cons, List.cons_append, hhead,
    behindOpen?_close]
  cases behindOpen? (skipSymbol (range :: ts)) with
  | none => exact ⟨.inl rfl, .inl rfl⟩
  | some body =>
    cases hclose : (takeBlock 0 body).2 with
    | some rest =>
      simp only [Option.map_some, takeBlock_append hclose, hclose]
      exact ⟨.inl rfl, .inl rfl⟩
    | none =>
      obtain ⟨hbody, hlast | hlast⟩ := takeBlock_last p hclose
      · simp only [Option.map_some, hlast, hclose, hbody]
        exact ⟨.inr ⟨rfl, rfl⟩, .inl rfl⟩
      · simp only [Option.map_some, hlast, hclose, hbody]
        refine ⟨.inr ⟨rfl, rfl⟩, .inr ⟨rfl, fun c => ?_⟩⟩
        simp only [declare, eval_playMeasure_last]
        exact .refl _

lemma readDeclaration?_closing {t : Token P} {ts : List (Token P)}
    {r : Declaration P × List (Token P)} (h : readDeclaration? t ts = some r) :
    ∃ r', readDeclaration? t (ts ++ [⟨.punct .closeBrace, p⟩]) = some r' ∧ Closing p r r' := by
  unfold readDeclaration? at h ⊢
  split_ifs at h ⊢
  all_goals obtain rfl := Option.some.inj h
  · exact ⟨_, rfl, readHeader_closing p t ts⟩
  · exact ⟨_, rfl, readGroup_closing p t ts⟩
  · exact ⟨_, rfl, readInstrument_closing p t ts⟩
  · exact ⟨_, rfl, readMacro_closing p t ts⟩
  · exact ⟨_, rfl, readMeasure_closing p t ts⟩

end Closing

/-! ### The wrapped walk -/

/-- Whether the bare walk from a state comes to a closing brace between declarations. -/
inductive MeetsBrace : Context P → List (Token P) → Prop
  | here {c : Context P} {t : Token P} {ts : List (Token P)} (h : t.isPunct .closeBrace = true) :
    MeetsBrace c (t :: ts)
  | skip {c : Context P} {t : Token P} {ts : List (Token P)} (h : readDeclaration? t ts = none)
    (rest : MeetsBrace c ts) : MeetsBrace c (t :: ts)
  | declare {c d : Context P} {t : Token P} {ts rest : List (Token P)} {e : Declaration P}
    (h : readDeclaration? t ts = some (e, rest)) (run : eval (declare e) c = .ok ((), d))
    (rest : MeetsBrace d rest) : MeetsBrace c (t :: ts)

/-- **A walk that meets no brace of its own ends as it does before the brace of a wrapper.** -/
lemma declareAll_wrapped (p : P) {ts : List (Token P)} {c : Context P} (h : ¬MeetsBrace c ts) :
    SameEnd (eval (declareAll (readDeclarations true (ts ++ [⟨.punct .closeBrace, p⟩]))) c)
      (eval (declareAll (readDeclarations false ts)) c) := by
  generalize hn : ts.length = n
  induction n using Nat.strong_induction_on generalizing ts c with
  | _ n ih =>
  cases ts with
  | nil =>
    have hnone : readDeclarations true ([] ++ [⟨.punct .closeBrace, p⟩]) = [] := by
      simp [readDeclarations, Token.isPunct]
    rw [hnone, readDeclarations]
    exact .refl _
  | cons t ts =>
    have hbrace : t.isPunct .closeBrace = false := by
      by_contra hbrace
      exact h (.here (by simpa using hbrace))
    rw [List.cons_append, readDeclarations_cons, readDeclarations_cons, hbrace]
    cases hd : readDeclaration? t ts with
    | none =>
      rw [readDeclaration?_eq_none hd]
      exact ih _ (by rw [← hn]; simp) (fun hmeets => h (.skip hd hmeets)) rfl
    | some r =>
      obtain ⟨e, rest⟩ := r
      obtain ⟨⟨e', rest'⟩, hd', hrest, hdeclaration⟩ := readDeclaration?_closing p hd
      rw [hd']
      dsimp only at hrest hdeclaration
      simp only [Bool.false_eq_true, if_false]
      rw [declareAll, declareAll, eval_forM_cons, eval_forM_cons]
      rcases hdeclaration with rfl | ⟨rfl, hsame⟩
      · -- the same declaration: it fails in both, or the walks go on from one state
        cases hrun : eval (declare e') c with
        | error f => exact .error f
        | ok q =>
          rcases hrest with rfl | ⟨rfl, rfl⟩
          · have hlength := length_readDeclaration? hd
            exact ih rest.length (by simp only [List.length_cons] at hn; omega)
              (fun hmeets => h (.declare hd hrun hmeets)) rfl
          · simp only [readDeclarations]
            exact .refl _
      · -- the last declaration: nothing is left in either
        have hnone : readDeclarations true rest' = [] := by
          rcases hrest with rfl | ⟨-, rfl⟩ <;> simp [readDeclarations, Token.isPunct]
        rw [hnone, readDeclarations]
        have hboth := hsame c
        generalize eval (declare e') c = q' at hboth
        generalize eval (declare e) c = q at hboth
        cases hboth with
        | ok score reports => exact .ok score reports
        | error f => exact .error f

/-! ### The wrapped text -/

/-- A text in braces behind the word that begins a wrapped document. -/
def wrap (body : String) : String := "omniscore \x7b\n" ++ body ++ "\n\x7d"

/-- **The tokens of a wrapped text** are its own, all further on by the first line. -/
lemma tokenize_wrap (body : String) :
    tokenize (wrap body) = ⟨.symbol "omniscore", 0⟩ :: ⟨.punct .openBrace, 10⟩ ::
      (tokenize body ++ [(⟨.punct .closeBrace, body.length + 1⟩ : Token Nat)]).map
        (Token.map (· + 12)) := by
  have hchars : (wrap body).toList =
      "omniscore \x7b".toList ++ '\n' :: (body.toList ++ '\n' :: ['\x7d']) := by
    simp [wrap]
  -- the first line has neither comments nor quotes, and the last one is a brace
  have hfirst : scan 0 (blankComments false "omniscore \x7b".toList) =
      [⟨.symbol "omniscore", 0⟩, ⟨.punct .openBrace, 10⟩] := by
    decide +kernel
  have hquote : '"' ∉ blankComments false "omniscore \x7b".toList := by decide +kernel
  have hblank : blankComments false ['\x7d'] = ['\x7d'] := by decide +kernel
  have hquote' : '"' ∉ ['\x7d'] := by decide +kernel
  have hlast (offset : Nat) : scan offset ['\x7d'] = [⟨.punct .closeBrace, offset⟩] := by
    have hcut : Lexeme.cut? ['\x7d'] = some (.punct .closeBrace, []) := rfl
    rw [scan_cons, hcut]
    simp [scan]
  have hoffset : 0 + (blankComments false "omniscore \x7b".toList).length + 1 = 0 + 12 := by
    decide +kernel
  have hend : 0 + 12 + (blankComments false body.toList).length + 1 = body.length + 1 + 12 := by
    rw [blankComments_length, String.length_toList]
    omega
  rw [tokenize, hchars, blankComments_newline, blankComments_newline, hblank,
    scan_newline 0 (.inl hquote), scan_newline _ (.inr hquote'), hfirst, hlast, hoffset, hend,
    scan_shift 12 0]
  simp [tokenize]

/-- The lines of a wrapped text are one further down. -/
lemma LineMap.locate_wrap (body : String) {p : Nat} (hp : p ≤ body.length) :
    (ofSource (wrap body)).locate (p + 12) =
      (((ofSource body).locate p).1 + 1, ((ofSource body).locate p).2) := by
  have hstarts : (ofSource (wrap body)).starts =
      0 :: ((ofSource body).starts.map (· + 12) ++ [body.length + 13]) := by
    have hchars : (wrap body).toList =
        "omniscore \x7b\n".toList ++ (body.toList ++ "\n\x7d".toList) := by
      simp [wrap]
    have hfirst : startsFrom 0 "omniscore \x7b\n".toList = [12] := by decide +kernel
    have hlength : 0 + "omniscore \x7b\n".toList.length = 0 + 12 := by decide +kernel
    have hlast (offset : Nat) : startsFrom offset "\n\x7d".toList = [offset + 1] := by
      simp [startsFrom]
    show 0 :: startsFrom 0 (wrap body).toList = _
    rw [hchars, startsFrom_append, hfirst, hlength, startsFrom_append, startsFrom_shift 12 0, hlast,
      String.length_toList]
    simp [ofSource]
    omega
  have htake : (ofSource (wrap body)).starts.takeWhile (· ≤ p + 12) =
      0 :: ((ofSource body).starts.takeWhile (· ≤ p)).map (· + 12) := by
    rw [hstarts, List.takeWhile_cons_of_pos (by simp),
      takeWhile_append_of_neg (by simp; omega), List.takeWhile_map]
    simp [Function.comp_def]
  have hnonempty : (ofSource body).starts.takeWhile (· ≤ p) ≠ [] := by
    simp [ofSource]
  simp only [locate, htake, List.length_cons, List.length_map]
  generalize (ofSource body).starts.takeWhile (· ≤ p) = before at hnonempty
  obtain ⟨front, start, rfl⟩ := (List.eq_nil_or_concat before).resolve_left hnonempty
  rw [List.concat_eq_append, List.map_append, List.map_singleton, ← List.cons_append,
    List.getLast?_concat, List.getLast?_concat, Option.getD_some, Option.getD_some]
  congr 1
  omega

def Notice.lowered (n : Notice) : Notice :=
  match n.line with
  | .int line => { n with line := .int (line + 1) }
  | _ => n

lemma Issue.notice_lowered (i : Issue) (place : Option (Nat × Nat)) :
    (i.notice place).lowered = i.notice (place.map fun q => (q.1 + 1, q.2)) := by
  rcases place with _ | ⟨line, column⟩ <;> rfl

lemma Notice.severity_lowered (n : Notice) : n.lowered.severity = n.severity := by
  unfold lowered
  split <;> rfl

lemma readDocument_wrapped (p q : P) (ts : List (Token P)) :
    readDocument (⟨.symbol "omniscore", p⟩ :: ⟨.punct .openBrace, q⟩ :: ts) =
      readDeclarations true ts := by
  have hword : (⟨.symbol "omniscore", p⟩ : Token P).isWord "omniscore" = true := by
    show (Text.lower "omniscore" == "omniscore") = true
    decide +kernel
  rw [readDocument_cons, if_pos hword]
  rfl

lemma readDocument_bare {ts : List (Token P)}
    (h : ∀ t, ts.head? = some t → t.isWord "omniscore" = false) :
    readDocument ts = readDeclarations false ts := by
  cases ts with
  | nil => simp [readDocument, readDeclarations]
  | cons t ts => simp [readDocument_cons, h t rfl]

/-- Two runs that end alike still do after a look at the length of the score. -/
lemma SameEnd.alikeResult {x x' : Run P Unit} {c : Context P} (f : Int → Except Fault Unit)
    (h : SameEnd (eval x' c) (eval x c)) :
    AlikeResult (· = ·) ((do x; lift (f (← get).timeline.ticks) : Run P Unit).run c)
      ((do x'; lift (f (← get).timeline.ticks) : Run P Unit).run c) := by
  rw [EStateM.run_bind, EStateM.run_bind]
  unfold eval at h
  cases hx : x.run c with
  | error s d =>
    cases hx' : x'.run c with
    | ok _ d' => rw [hx, hx'] at h; cases h
    | error s' d' =>
      rw [hx, hx'] at h
      exact .error h.fault_eq.symm
  | ok _ d =>
    cases hx' : x'.run c with
    | error s' d' => rw [hx, hx'] at h; cases h
    | ok _ d' =>
      rw [hx, hx'] at h
      cases h with
      | ok score reports =>
        have hticks : d'.timeline.ticks = d.timeline.ticks := congrArg Score.durationTicks score
        have hfound : d.found = d'.found := congrArg List.reverse reports.symm
        show AlikeResult _ ((lift (f d.timeline.ticks)).run d) ((lift (f d'.timeline.ticks)).run d')
        rw [hticks]
        cases f d.timeline.ticks with
        | error fault => exact .error rfl
        | ok _ =>
          refine .ok score.symm ?_
          rw [hfound]
          exact List.forall₂_refl _

lemma AlikeResult.map_right {r r' : EStateM.Result Stop (Context P) Unit}
    (h : AlikeResult (· = ·) r r') (f : P → Q) :
    AlikeResult (fun a b => b = a.map f) r (mapResult f id r') := by
  cases h with
  | @ok c d score found =>
    have hfound : c.found = d.found := by simpa using found
    have hmap : (d.map f).found = c.found.map (Report.map f) := by
      rw [hfound, Context.found, Context.found, List.map_reverse]
      rfl
    refine .ok score ?_
    rw [hmap, List.forall₂_map_right_iff, List.forall₂_same]
    exact fun _ _ => rfl
  | error fault => exact .error fault

/-- The tokens of a wrapped text compile as those of the text do, with every report moved behind
the first line. -/
lemma compileTokens_wrap (o : Options) (l : Library) {body : String}
    (hfirst : ∀ t, (tokenize body).head? = some t → t.isWord "omniscore" = false)
    (hbrace : ¬MeetsBrace (.start o l) (tokenize body)) :
    AlikeResult (fun r r' => r' = r.map (· + 12)) (compileTokens o l (tokenize body))
      (compileTokens o l (tokenize (wrap body))) := by
  -- the wrapped document before its tokens are moved behind the first line
  let closed : List (Token Nat) := ⟨.symbol "omniscore", 0⟩ :: ⟨.punct .openBrace, 0⟩ ::
    (tokenize body ++ [⟨.punct .closeBrace, body.length + 1⟩])
  have hmoved : compileTokens o l (tokenize (wrap body)) =
      mapResult (· + 12) id (compileTokens o l closed) := by
    have hdocument : readDocument (tokenize (wrap body)) =
        readDocument (closed.map (Token.map (· + 12))) := by
      rw [tokenize_wrap, readDocument_wrapped]
      exact (readDocument_wrapped _ _ _).symm
    rw [← compileTokens_map, compileTokens, compileTokens, hdocument]
  rw [hmoved]
  refine AlikeResult.map_right (SameEnd.alikeResult (fun ticks => discard (writeInt ticks)) ?_) _
  rw [readDocument_wrapped, readDocument_bare hfirst]
  exact declareAll_wrapped _ hbrace

/-- What is reported of a text is found one line further down in its wrapper. -/
lemma notice_wrap {o : Options} {l : Library} {body : String} {c : Context Nat}
    (hrun : compileTokens o l (tokenize body) = .ok () c) {r : Report Nat} (hr : r ∈ c.found) :
    r.issue.notice ((r.pos.map (· + 12)).map (LineMap.ofSource (wrap body)).locate) =
      (r.issue.notice (r.pos.map (LineMap.ofSource body).locate)).lowered := by
  rw [Issue.notice_lowered]
  cases hpos : r.pos with
  | none => rfl
  | some p =>
    obtain ⟨t, ht, rfl⟩ := exists_mem_of_report hrun (by simpa [Context.found] using hr) hpos
    rw [Option.map_some, Option.map_some,
      LineMap.locate_wrap body (pos_lt_of_mem_tokenize ht).le]
    rfl

/-- **A wrapper is transparent.** If a text does not begin a wrapped document itself and its walk
comes to no closing brace between declarations, then in a wrapper it has the same outcome, with
every notice one line further down. -/
theorem compile_wrap (o : Options) (l : Library) (body : String)
    (hfirst : ∀ t, (tokenize body).head? = some t → t.isWord "omniscore" = false)
    (hbrace : ¬MeetsBrace (.start o l) (tokenize body)) :
    SameOutcome (fun n n' => n' = n.lowered) (compile o l body).1 (compile o l (wrap body)).1 := by
  refine compile_sameOutcome (fun n n' h => by rw [h, n.severity_lowered]) ?_
  refine (compileTokens_wrap o l hfirst hbrace).imp fun c hrun r hr r' hr' => ?_
  rw [hr']
  exact notice_wrap hrun hr

/-- A block that is left open, with a tempo that is none. -/
theorem compile_wrap_unclosed :
    let body := "meta \x7b tempo: fast,\n  key: c"
    (∀ t, (tokenize body).head? = some t → t.isWord "omniscore" = false) ∧
      ¬MeetsBrace (.start {} .shipped) (tokenize body) ∧
      SameOutcome (fun n n' => n' = n.lowered) (compile {} .shipped body).1
        (compile {} .shipped (wrap body)).1 := by
  intro body
  have hfirst (t : Token Nat) (ht : (tokenize body).head? = some t) :
      t.isWord "omniscore" = false := by
    have hhead : (tokenize body).head?.any (·.isWord "omniscore") = false := by decide +kernel
    rwa [ht] at hhead
  have hbrace : ¬MeetsBrace (.start {} .shipped) (tokenize body) := by
    have htokens : tokenize body = ⟨.symbol "meta", 0⟩ :: (tokenize body).tail := by
      decide +kernel
    have hread : (readDeclaration? ⟨.symbol "meta", 0⟩ (tokenize body).tail).map Prod.snd =
        some [] := by
      decide +kernel
    rw [htokens]
    rintro (⟨h⟩ | ⟨h, -⟩ | ⟨h, -, hrest⟩)
    · cases h
    · rw [h] at hread
      cases hread
    · rw [h] at hread
      obtain rfl := Option.some.inj hread
      cases hrest
  exact ⟨hfirst, hbrace, compile_wrap {} .shipped body hfirst hbrace⟩

end Partitura
