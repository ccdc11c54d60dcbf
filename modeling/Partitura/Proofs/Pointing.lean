import Partitura.Proofs.Changes
import Partitura.Proofs.Offsets
import Partitura.Proofs.Refusals
import Partitura.Proofs.Tokenization

/-!
Every notice points into the text.

A report may be made where no token is left, and a notice may be without a place, but neither
happens in a compilation. Reports are written where blocks and events begin (`declareAll_writesAt`),
and each block that was read begins with its keyword, each event with a token, however deep in
macros it was read (`readDocument_standsAt`). Which positions can come up is known already
(`exists_mem_of_report`), so each notice has the line and the column of a token, counted in the text
as it was before comments were blanked.
-/

namespace Partitura

open Number Run

variable {P : Type}

/-! ### First tokens -/

lemma Reads.isSome_anchor {us : List (Token P)} {e : WrittenEvent P} (h : Reads us (.ok e)) :
    e.anchor.isSome = true := by
  obtain ⟨t, ts, -, -, hread⟩ := h
  rw [anchor_of_readEvent hread]
  rfl

lemma Item.From.mono {us vs : List (Token P)} {i : Item P} (h : i.From us) (hsub : us ⊆ vs) :
    i.From vs := by
  cases i with
  | event e =>
    obtain ⟨t, ts, hts, hstart, hread⟩ := h
    exact ⟨t, ts, List.Subset.trans hts hsub, hstart, hread⟩
  | broken f =>
    obtain ⟨t, ts, hts, hstart, hread⟩ := h
    exact ⟨t, ts, List.Subset.trans hts hsub, hstart, hread⟩
  | call t name args => exact fun a ha => List.Subset.trans (h a ha) hsub

/-- The events of a script begin with tokens, also those out of macros. -/
lemma scriptOf_isSome_anchor (c : Context P) {us : List (Token P)} {items : List (Placed (Item P))}
    (hitems : ∀ p ∈ items, p.value.From us) {p : Placed (Step P)} (hp : p ∈ scriptOf c items)
    {e : WrittenEvent P} (he : p.value = .play e) : e.anchor.isSome = true := by
  -- what can be read is in the stream or in the body of a macro
  set vs := us ++ c.macros.flatMap fun q => q.2.body
  let book : Book P := ⟨c.macros, c.options.maxMacroDepth, c.options.maxMacroExpansions⟩
  have hbodies : ∀ q ∈ book.macros, q.2.body ⊆ vs := fun q hq t ht =>
    List.mem_append_right _ (List.mem_flatMap.mpr ⟨q, hq, ht⟩)
  have hfrom := script_from hbodies _ _ items
    (fun q hq => (hitems q hq).mono (List.subset_append_left _ _)) p hp
  rw [he] at hfrom
  exact Reads.isSome_anchor hfrom

lemma readHeader_keyword (t : Token P) (ts : List (Token P)) :
    (readHeader (t :: ts)).1.keyword = some t := by
  simp only [readHeader]
  split <;> rfl

lemma readInstrument_keyword (t : Token P) (ts : List (Token P)) :
    (readInstrument (t :: ts)).1.keyword = some t := by
  simp only [readInstrument]
  repeat' split
  all_goals rfl

lemma readGroup_keyword (t : Token P) (ts : List (Token P)) :
    (readGroup (t :: ts)).1.keyword = some t := by
  simp only [readGroup]
  split <;> rfl

lemma readMacro_keyword (t : Token P) (ts : List (Token P)) :
    (readMacro (t :: ts)).1.keyword = some t := by
  simp only [readMacro]
  split <;> rfl

lemma readMeasure_keyword (t : Token P) (ts : List (Token P)) :
    (readMeasure (t :: ts)).1.keyword = some t := by
  simp only [readMeasure]
  split <;> rfl

lemma readMembers_keyword (size : Nat) (ts : List (Token P)) :
    ∀ p ∈ (readMembers size ts).1, p.1.keyword.isSome = true := by
  fun_induction readMembers size ts with
  | case1 => simp
  | case2 => simp
  | case3 t ts _ _ _ block rest hblock members _ heq ih =>
    have hkeyword : block.keyword = some t := by simpa [hblock] using readInstrument_keyword t ts
    rw [heq] at ih
    exact List.forall_mem_cons.mpr ⟨by simp [hkeyword], ih⟩
  | case4 t ts _ _ ih => exact ih

/-- The settings in a measure begin with their keyword. -/
lemma readEntries_keyword (defined : String → Bool) (ts : List (Token P)) :
    ∀ b, .header b ∈ readEntries defined ts → b.keyword.isSome = true := by
  fun_induction readEntries defined ts with
  | case1 => simp
  | case2 t ts _ _ _ _ _ ih =>
    intro b hb
    rcases List.mem_cons.mp hb with hfirst | hmem
    · obtain rfl := Entry.header.inj hfirst
      exact Option.isSome_iff_exists.mpr ⟨t, readHeader_keyword t ts⟩
    · exact ih b hmem
  | case3 t ts _ _ _ _ _ _ ih =>
    intro b hb
    rcases List.mem_cons.mp hb with hfirst | hmem
    · cases hfirst
    · exact ih b hmem
  | case4 t ts _ _ _ _ ih => exact ih
  | case5 t ts _ ih => exact ih

/-- A range that could be read stands at a token. -/
lemma isSome_of_rangeOf {b : MeasureBlock P} {range : Int × Int}
    (h : rangeOf b = .ok (some range)) : b.range.isSome = true := by
  unfold rangeOf at h
  split at h
  · rename_i heq
    simp [heq]
  · cases h

lemma readGroup_members (t : Token P) (ts : List (Token P)) :
    ∀ blocks, (readGroup (t :: ts)).1.members = some blocks →
      ∀ p ∈ blocks, p.1.keyword.isSome = true := by
  intro blocks hblocks
  simp only [readGroup] at hblocks
  split at hblocks
  · obtain rfl := Option.some.inj hblocks
    exact readMembers_keyword _ _
  · cases hblocks

/-! ### Blocks -/

def IsPlace (p : Option P) : Prop := p.isSome = true

@[simp] lemma isPlace_map (t : Option (Token P)) :
    IsPlace (t.map Token.pos) ↔ t.isSome = true := by
  simp [IsPlace]

lemma isPlace_of_eq_some {t : Option (Token P)} {u : Token P} (h : t = some u) :
    IsPlace (t.map Token.pos) := by
  rw [isPlace_map, h]
  rfl

lemma readEntries_standsAt (defined : String → Bool) (body : List (Token P)) :
    ∀ e ∈ readEntries defined body, e.StandsAt IsPlace := by
  intro e he
  cases e with
  | header b => simpa [Entry.StandsAt] using readEntries_keyword defined body b he
  | part id voices =>
    intro v hv c p hp e hplay
    have hfrom := readEntries_from defined (List.Subset.refl body) _ he v hv
    simpa using scriptOf_isSome_anchor c hfrom hp hplay

lemma readDeclaration?_standsAt {t : Token P} {ts rest : List (Token P)} {d : Declaration P}
    (h : readDeclaration? t ts = some (d, rest)) : d.StandsAt IsPlace := by
  unfold readDeclaration? at h
  repeat' split at h
  all_goals simp only [Option.some.injEq, Prod.mk.injEq, reduceCtorEq] at h
  all_goals obtain ⟨rfl, -⟩ := h
  · exact isPlace_of_eq_some (readHeader_keyword t ts)
  · exact ⟨isPlace_of_eq_some (readGroup_keyword t ts), by simpa using readGroup_members t ts⟩
  · exact isPlace_of_eq_some (readInstrument_keyword t ts)
  · exact isPlace_of_eq_some (readMacro_keyword t ts)
  · exact ⟨isPlace_of_eq_some (readMeasure_keyword t ts),
      fun _ hrange => by simpa using isSome_of_rangeOf hrange,
      fun body _ defined => readEntries_standsAt defined body⟩

lemma readDeclarations_standsAt (wrapped : Bool) (ts : List (Token P)) :
    ∀ d ∈ readDeclarations wrapped ts, d.StandsAt IsPlace := by
  fun_induction readDeclarations wrapped ts with
  | case1 => simp
  | case2 => simp
  | case3 t ts _ _ ih => exact ih
  | case4 t ts _ d rest heq _ ih =>
    exact List.forall_mem_cons.mpr ⟨readDeclaration?_standsAt heq, ih⟩
  | case5 t ts _ _ ih => exact ih

/-- What was read from a text is reported at its tokens. -/
lemma readDocument_standsAt (ts : List (Token P)) :
    ∀ d ∈ readDocument ts, d.StandsAt IsPlace := by
  unfold readDocument
  split
  · simp
  · split
    · split <;> exact readDeclarations_standsAt _ _
    · exact readDeclarations_standsAt _ _

/-- What was found wrong was found at a token of the text. -/
lemma exists_token_of_report {o : Options} {l : Library} {ts : List (Token P)} {c : Context P}
    (h : compileTokens o l ts = .ok () c) {r : Report P} (hr : r ∈ c.reports) :
    ∃ t ∈ ts, r.pos = some t.pos := by
  have hwrites : WritesAt IsPlace (do
      declareAll (readDocument ts)
      Run.lift (discard (writeInt (← get).timeline.ticks)) : Run P Unit) :=
    .bind (declareAll_writesAt (fun _ => rfl) (readDocument_standsAt ts)) fun _ =>
      .get_bind fun c => .lift _
  have hleaves : leaves (do
      declareAll (readDocument ts)
      Run.lift (discard (writeInt (← get).timeline.ticks)) : Run P Unit) (.start o l) = c := by
    unfold compileTokens at h
    rw [leaves, h]
  have hreports := hwrites.reports (.start o l)
  rw [hleaves] at hreports
  rcases hreports r hr with hold | hplace
  · cases hold
  · obtain ⟨p, hp⟩ := Option.isSome_iff_exists.mp hplace
    obtain ⟨t, ht, rfl⟩ := exists_mem_of_report h hr hp
    exact ⟨t, ht, hp⟩

/-! ### Notices -/

/-- A token begins where the source, comments and all, has its first character. -/
lemma head?_text_of_mem_tokenize {source : String} {t : Token Nat} (ht : t ∈ tokenize source) :
    t.text.toList.head? = source.toList[t.pos]? := by
  set clean := blankComments false source.toList
  have hword : Lexeme.cut? (clean.drop t.pos) = some (t.lexeme, clean.drop t.stop) :=
    ((scan_eq_iff rfl).mp rfl : TokenizesFrom clean 0 (tokenize source)).word t ht
  cases hdrop : clean.drop t.pos with
  | nil =>
    rw [hdrop] at hword
    cases hword
  | cons c cs =>
    rw [hdrop] at hword
    have htext : t.text.toList.head? = some c := by
      obtain ⟨happend, hspelled, -⟩ := Lexeme.cut?_eq_some_iff.mp hword
      have hhead := congrArg List.head? happend
      rwa [List.head?_append_of_ne_nil _ (Lexeme.text_ne_nil hspelled)] at hhead
    -- a blank begins no token, so the character was there before comments were blanked
    have hblank : c ≠ ' ' := by
      rintro rfl
      cases hword
    have hc : clean[t.pos]? = some c := by
      rw [← List.head?_drop, hdrop]
      rfl
    rw [htext, getElem?_of_blankComments hc hblank]

/-- A notice with the line and the column, both counted from one, of the first character of a
token. -/
structure Notice.PointsAt (source : String) (t : Token Nat) (n : Notice) : Prop where
  inside : t.pos < source.length
  first : t.text.toList.head? = source.toList[t.pos]?
  line : n.line = .int (1 + (source.toList.take t.pos).count '\n' : Nat)
  column : n.column = .int (1 + ((source.toList.take t.pos).rtakeWhile (· ≠ '\n')).length : Nat)

lemma Issue.notice_pointsAt {source : String} {t : Token Nat} (ht : t ∈ tokenize source)
    (i : Issue) : (i.notice (some ((LineMap.ofSource source).locate t.pos))).PointsAt source t := by
  have hlt := pos_lt_of_mem_tokenize ht
  rw [LineMap.locate_eq hlt.le]
  exact ⟨hlt, head?_text_of_mem_tokenize ht, rfl, rfl⟩

def noticesOf : Except Failure Compiled → Notices
  | .ok compiled => compiled.notices
  | .error (.strict notices) => notices
  | .error (.internal _) => []

lemma exists_report_of_mem_noticesOf {o : Options} {l : Library} {source : String} {n : Notice}
    (h : n ∈ noticesOf (compile o l source).1) :
    ∃ c, compileTokens o l (tokenize source) = .ok () c ∧
      ∃ r ∈ c.reports, r.issue.notice (r.pos.map (LineMap.ofSource source).locate) = n := by
  unfold compile at h
  split at h
  · cases h
  · rename_i c hrun
    have hfound : n ∈ locateAll (.ofSource source) c.found := by
      dsimp only at h
      split at h <;> exact h
    obtain ⟨r, hr, rfl⟩ := List.mem_map.mp hfound
    exact ⟨c, hrun, r, List.mem_reverse.mp hr, rfl⟩

/-- **Every notice points at a token.** Whatever the source and the options, a notice of the
compilation or of its refusal has the line and column in the source where some token begins. -/
theorem notice_pointsAt_token (o : Options) (l : Library) (source : String) {n : Notice}
    (h : n ∈ noticesOf (compile o l source).1) : ∃ t ∈ tokenize source, n.PointsAt source t := by
  obtain ⟨c, hrun, r, hr, rfl⟩ := exists_report_of_mem_noticesOf h
  obtain ⟨t, ht, hpos⟩ := exists_token_of_report hrun hr
  refine ⟨t, ht, ?_⟩
  rw [hpos]
  exact Issue.notice_pointsAt ht r.issue

/-- A macro that is not defined is called out of the body of another, behind a comment and in a
measure that is played twice. -/
theorem notice_pointsAt_token_macro :
    let source := "%% tune\ndef p\nmacro M(x) = \x7b $x $N \x7d\nmeasure 1-2 \x7b p: $M(zz:0) \x7d"
    ∃ compiled l, compile {} .shipped source = (.ok compiled, l) ∧
      compiled.notices.map (·.code) = ["INVALID_DURATION", "UNRESOLVED_PITCH", "UNKNOWN_MACRO",
        "INVALID_DURATION", "UNRESOLVED_PITCH"] ∧
      ∃ n ∈ compiled.notices, n.code = "UNKNOWN_MACRO" ∧
        ∃ t ∈ tokenize source, n.PointsAt source t := by
  intro source
  obtain ⟨compiled, l, hcompile, hcodes⟩ := compile_codes (o := {}) rfl source
    ["INVALID_DURATION", "UNRESOLVED_PITCH", "UNKNOWN_MACRO", "INVALID_DURATION",
      "UNRESOLVED_PITCH"] (by decide +kernel)
  obtain ⟨n, hn, hcode⟩ : ∃ n ∈ compiled.notices, n.code = "UNKNOWN_MACRO" :=
    List.mem_map.mp (hcodes ▸ by decide)
  exact ⟨compiled, l, hcompile, hcodes, n, hn, hcode,
    notice_pointsAt_token {} .shipped source (by rwa [hcompile])⟩

end Partitura
