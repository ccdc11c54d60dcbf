import Mathlib.Data.Nat.Basic
import Mathlib.Order.Basic
import Partitura.Proofs.Lexing

/-!
The tokens of a text, described without the scan.

`IsTokenization` says where tokens stand and what may be left between them, in no order of reading:
each token is spelled as its kind asks, symbols and names go as far as they can, and what no token
covers could not have begun one. One text has exactly one such list (`tokenize_eq_iff`). Both halves
follow the scan. A token in front is a well-spelled word that does not go on (`cut?_eq_some_iff`),
and where there is none the character stays loose (`cut?_eq_none_iff`), so the list is determined
from left to right; that quotes come in pairs need not be counted.
-/

namespace Partitura

open Text

/-! ### Words -/

namespace Lexeme

/-- A token whose characters are those of its kind: a quoted text has no quote inside, a name
begins with a letter or an underscore, and a symbol is not empty. -/
def WellSpelled : Lexeme → Prop
  | punct _ => True
  | quoted body => '"' ∉ body.toList
  | call name => (∃ c ∈ name.toList.head?, isNameStart c = true) ∧
      ∀ c ∈ name.toList, isNameChar c = true
  | symbol s => s.toList ≠ [] ∧ ∀ c ∈ s.toList, isSymbolChar c = true

/-- Whether a symbol or a name would go on with this character. -/
def goesOn : Lexeme → Char → Bool
  | call _, c => isNameChar c
  | symbol _, c => isSymbolChar c
  | _, _ => false

end Lexeme

/-- Whether tokens begin with this character, or symbols hold it. -/
def isTokenChar (c : Char) : Bool :=
  (Punct.ofChar? c).isSome || c == '"' || c == '$' || isSymbolChar c

/-- A character before `rest` that may stand in no token. -/
inductive Loose (c : Char) (rest : List Char) : Prop
  | foreign (h : isTokenChar c = false)
  | dollar (h : c = '$') (hname : ∀ d ∈ rest.head?, isNameStart d = false)
  | quote (h : c = '"') (hlast : '"' ∉ rest)

lemma ofChar?_eq_none_of_isSymbolChar {c : Char} (h : isSymbolChar c = true) :
    Punct.ofChar? c = none := by
  refine List.find?_eq_none.mpr fun p _ hp => ?_
  obtain rfl : p.char = c := by simpa using hp
  cases p <;> exact absurd h (by decide)

namespace Lexeme

lemma text_ne_nil {l : Lexeme} (h : l.WellSpelled) : l.text.toList ≠ [] := by
  cases l with
  | symbol s => exact h.1
  | _ => simp [text]

lemma WellSpelled.length_pos {l : Lexeme} (h : l.WellSpelled) : 0 < l.text.length := by
  rw [← String.length_toList]
  exact List.length_pos_iff.mpr (text_ne_nil h)

/-- A word that does not go on is the token in front. -/
lemma cut?_append {l : Lexeme} (hl : l.WellSpelled) {rest : List Char}
    (hrest : ∀ c ∈ rest.head?, l.goesOn c = false) :
    cut? (l.text.toList ++ rest) = some (l, rest) := by
  cases l with
  | punct p => simp [text, cut?, Punct.ofChar?_char]
  | quoted body =>
    have hmark : Punct.ofChar? '"' = none := rfl
    simp [text, cut?, hmark, cutAt_append_of_not_mem hl]
  | call name =>
    obtain ⟨⟨d, hd, hstart⟩, hname⟩ := hl
    have hmark : Punct.ofChar? '$' = none := rfl
    obtain ⟨ds, hds⟩ : ∃ ds, name.toList = d :: ds := by
      cases hchars : name.toList with
      | nil => simp [hchars] at hd
      | cons e ds => exact ⟨ds, by simp_all⟩
    have htake := takeWhile_word hname hrest
    have hdrop := dropWhile_word hname hrest
    rw [hds, List.cons_append] at htake hdrop
    have htext : (call name).text.toList = '$' :: d :: ds := by simp [text, hds]
    have hback : String.ofList (d :: ds) = name := by rw [← hds, String.ofList_toList]
    rw [htext]
    simp [cut?, hmark, hstart, htake, hdrop, hback]
  | symbol s =>
    obtain ⟨hne, hs⟩ := hl
    obtain ⟨c, cs, hcs⟩ := List.exists_cons_of_ne_nil hne
    have hc : isSymbolChar c = true := hs c (by simp [hcs])
    have hquote : c ≠ '"' := by rintro rfl; exact absurd hc (by decide)
    have hdollar : c ≠ '$' := by rintro rfl; exact absurd hc (by decide)
    have htail : ∀ d ∈ cs, isSymbolChar d = true := fun d hd => hs d (by simp [hcs, hd])
    have htext : (symbol s).text.toList = c :: cs := hcs
    have hback : String.ofList (c :: cs) = s := by rw [← hcs, String.ofList_toList]
    rw [htext]
    simp [cut?, ofChar?_eq_none_of_isSymbolChar hc, hquote, hdollar, hc,
      takeWhile_word htail hrest, dropWhile_word htail hrest, hback]

lemma not_mem_cutAt (sep : Char) (cs : List Char) : sep ∉ (cutAt sep cs).1 := by
  fun_induction cutAt sep cs with
  | case1 => simp
  | case2 => simp
  | case3 c cs hc before behind heq ih => simp_all [Ne.symm hc]

lemma not_of_head?_dropWhile {p : Char → Bool} {cs : List Char} :
    ∀ c ∈ (cs.dropWhile p).head?, p c = false := by
  intro c hc
  have hnot := List.head?_dropWhile_not p cs
  rw [Option.mem_def.mp hc] at hnot
  simpa using hnot

/-- The token in front is a word that does not go on. -/
lemma wellSpelled_of_cut? {cs rest : List Char} {l : Lexeme} (h : cut? cs = some (l, rest)) :
    l.WellSpelled ∧ ∀ c ∈ rest.head?, l.goesOn c = false := by
  unfold cut? at h
  split at h
  · cases h
  · rename_i c cs
    split at h
    · obtain ⟨rfl, rfl⟩ := Prod.mk.inj (Option.some.inj h)
      exact ⟨trivial, fun _ _ => rfl⟩
    · split_ifs at h with hq hcall hsymbol
      · split at h
        · rename_i body behind hcut
          obtain ⟨rfl, rfl⟩ := Prod.mk.inj (Option.some.inj h)
          have hbody := not_mem_cutAt '"' cs
          rw [hcut] at hbody
          exact ⟨by simpa [WellSpelled] using hbody, fun _ _ => rfl⟩
        · cases h
      · split at h
        · rename_i d ds
          split_ifs at h with hd
          obtain ⟨rfl, rfl⟩ := Prod.mk.inj (Option.some.inj h)
          have hd' : isNameChar d = true := by
            simp only [isNameStart, isNameChar, Char.isAlphanum, Bool.or_eq_true] at hd ⊢
            tauto
          refine ⟨⟨⟨d, by simp [hd'], hd⟩, fun e he => ?_⟩, not_of_head?_dropWhile⟩
          rw [String.toList_ofList] at he
          exact List.all_eq_true.mp List.all_takeWhile e he
        · cases h
      · obtain ⟨rfl, rfl⟩ := Prod.mk.inj (Option.some.inj h)
        refine ⟨⟨by simp, fun e he => ?_⟩, not_of_head?_dropWhile⟩
        rw [String.toList_ofList, List.mem_cons] at he
        rcases he with rfl | he
        · exact hsymbol
        · exact List.all_eq_true.mp List.all_takeWhile e he

lemma cut?_eq_some_iff {cs rest : List Char} {l : Lexeme} :
    cut? cs = some (l, rest) ↔
      l.text.toList ++ rest = cs ∧ l.WellSpelled ∧ ∀ c ∈ rest.head?, l.goesOn c = false := by
  constructor
  · exact fun h => ⟨cut?_eq_some h, wellSpelled_of_cut? h⟩
  · rintro ⟨rfl, hl, hrest⟩
    exact cut?_append hl hrest

/-- Where no token begins the character is loose. -/
lemma cut?_eq_none_iff {c : Char} {cs : List Char} : cut? (c :: cs) = none ↔ Loose c cs := by
  constructor
  · intro h
    simp only [cut?] at h
    split at h
    · cases h
    · rename_i hmark
      split_ifs at h with hq hdollar hsymbol
      · split at h
        · cases h
        · rename_i hcut
          exact .quote hq (cutAt_eq_none.mp (by rw [hcut]))
      · split at h
        · rename_i d ds
          split_ifs at h with hd
          exact .dollar hdollar (by simpa using hd)
        · exact .dollar hdollar (by simp)
      · exact .foreign (by simp [isTokenChar, hmark, hq, hdollar, hsymbol])
  · intro h
    cases h with
    | foreign h =>
      simp only [isTokenChar, Bool.or_eq_false_iff, Option.isSome_eq_false_iff,
        Option.isNone_iff_eq_none, beq_eq_false_iff_ne] at h
      obtain ⟨⟨⟨hmark, hq⟩, hdollar⟩, hsymbol⟩ := h
      simp [cut?, hmark, hq, hdollar, hsymbol]
    | dollar h hname =>
      subst h
      have hmark : Punct.ofChar? '$' = none := rfl
      cases cs with
      | nil => simp [cut?, hmark]
      | cons d ds => simp [cut?, hmark, hname d rfl]
    | quote h hlast =>
      subst h
      have hmark : Punct.ofChar? '"' = none := rfl
      simp [cut?, hmark, cutAt_of_not_mem hlast]

end Lexeme

/-! ### Tokens of a text -/

namespace Token

def stop (t : Token Nat) : Nat := t.pos + t.text.length

def Covers (t : Token Nat) (i : Nat) : Prop := t.pos ≤ i ∧ i < t.stop

end Token

/-- The tokens of a text without comments. -/
structure IsTokenization (cs : List Char) (ts : List (Token Nat)) : Prop where
  increasing : ts.Pairwise fun t u => t.pos < u.pos
  apart : ts.Pairwise fun t u => t.stop ≤ u.pos
  /-- The text is the slice at the offset. -/
  slice : ∀ t ∈ ts, cs.extract t.pos t.stop = t.text.toList
  spelled : ∀ t ∈ ts, t.lexeme.WellSpelled
  maximal : ∀ t ∈ ts, ∀ c ∈ cs[t.stop]?, t.lexeme.goesOn c = false
  loose : ∀ i, ∀ c ∈ cs[i]?, (∀ t ∈ ts, ¬ t.Covers i) → Loose c (cs.drop (i + 1))

/-- The tokens of a text from an offset on, each the one in front where it stands. -/
structure TokenizesFrom (cs : List Char) (k : Nat) (ts : List (Token Nat)) : Prop where
  behind : ∀ t ∈ ts, k ≤ t.pos
  apart : ts.Pairwise fun t u => t.stop ≤ u.pos
  word : ∀ t ∈ ts, Lexeme.cut? (cs.drop t.pos) = some (t.lexeme, cs.drop t.stop)
  loose : ∀ i, k ≤ i → ∀ c ∈ cs[i]?, (∀ t ∈ ts, ¬ t.Covers i) → Loose c (cs.drop (i + 1))

lemma Token.pos_lt_stop {t : Token Nat} (h : t.lexeme.WellSpelled) : t.pos < t.stop := by
  have hpos : 0 < t.text.length := h.length_pos
  unfold stop
  omega

namespace TokenizesFrom

variable {cs : List Char} {k : Nat} {ts : List (Token Nat)}

lemma pos_lt_stop (h : TokenizesFrom cs k ts) {t : Token Nat} (ht : t ∈ ts) : t.pos < t.stop :=
  Token.pos_lt_stop (Lexeme.wellSpelled_of_cut? (h.word t ht)).1

/-- Behind the last character there are no tokens. -/
lemma iff_nil (hk : cs.length ≤ k) : TokenizesFrom cs k ts ↔ ts = [] := by
  constructor
  · intro h
    refine List.eq_nil_iff_forall_not_mem.mpr fun t ht => ?_
    have hword := h.word t ht
    rw [List.drop_eq_nil_of_le (hk.trans (h.behind t ht))] at hword
    cases hword
  · rintro rfl
    refine ⟨by simp, .nil, by simp, fun i hi c hc => ?_⟩
    rw [List.getElem?_eq_none (hk.trans hi)] at hc
    cases hc

/-- Where no token begins the tokens are those from the next character on. -/
lemma iff_succ (hcut : Lexeme.cut? (cs.drop k) = none) :
    TokenizesFrom cs k ts ↔ TokenizesFrom cs (k + 1) ts := by
  constructor
  · intro h
    refine ⟨fun t ht => ?_, h.apart, h.word, fun i hi => h.loose i (by omega)⟩
    have hne : t.pos ≠ k := by
      intro hpos
      have hword := h.word t ht
      rw [hpos, hcut] at hword
      cases hword
    have := h.behind t ht
    omega
  · intro h
    refine ⟨fun t ht => (Nat.le_succ k).trans (h.behind t ht), h.apart, h.word,
      fun i hi c hc hfree => ?_⟩
    rcases hi.eq_or_lt with rfl | hlt
    · have hdrop : cs.drop k = c :: cs.drop (k + 1) := by
        obtain ⟨hlen, rfl⟩ := List.getElem?_eq_some_iff.mp hc
        exact List.drop_eq_getElem_cons hlen
      rw [hdrop] at hcut
      exact Lexeme.cut?_eq_none_iff.mp hcut
    · exact h.loose i hlt c hc hfree

/-- Where a token begins it is the first one, and the others stand behind it. -/
lemma iff_cons {l : Lexeme} {rest : List Char} (hcut : Lexeme.cut? (cs.drop k) = some (l, rest)) :
    TokenizesFrom cs k ts ↔
      ∃ ts', ts = ⟨l, k⟩ :: ts' ∧ TokenizesFrom cs (k + l.text.length) ts' := by
  obtain ⟨htext, hspelled, -⟩ := Lexeme.cut?_eq_some_iff.mp hcut
  have hrest : rest = cs.drop (k + l.text.length) := by
    rw [← List.drop_drop, ← htext, ← String.length_toList, List.drop_left]
  subst hrest
  constructor
  · intro h
    -- the character at the offset is not loose, so a token covers it
    obtain ⟨t, ht, hcovers⟩ : ∃ t ∈ ts, t.Covers k := by
      by_contra hfree
      push Not at hfree
      rcases hdrop : cs.drop k with _ | ⟨c, cs'⟩
      · rw [hdrop] at hcut
        cases hcut
      · have hc : cs[k]? = some c := by rw [← List.head?_drop, hdrop]; rfl
        have htail : cs' = cs.drop (k + 1) := by rw [← List.drop_drop, hdrop]; rfl
        have hloose := h.loose k le_rfl c hc hfree
        rw [← htail] at hloose
        rw [hdrop, Lexeme.cut?_eq_none_iff.mpr hloose] at hcut
        cases hcut
    have hpos : t.pos = k := le_antisymm hcovers.1 (h.behind t ht)
    have hl : t.lexeme = l := by
      have hword := h.word t ht
      rw [hpos, hcut] at hword
      exact (Prod.mk.inj (Option.some.inj hword)).1.symm
    cases ts with
    | nil => cases ht
    | cons u ts' =>
      obtain ⟨hfirst, hothers⟩ := List.pairwise_cons.mp h.apart
      -- a token before it would end after the offset it begins at
      have hu : u = t := by
        rcases List.mem_cons.mp ht with rfl | hmem
        · rfl
        · have hle := hfirst t hmem
          have hlt := h.pos_lt_stop (t := u) (by simp)
          have := h.behind u (by simp)
          omega
      have htoken : u = ⟨l, k⟩ := by rw [hu, ← hl, ← hpos]
      subst htoken
      refine ⟨ts', rfl, fun v hv => hfirst v hv, hothers, fun v hv => h.word v (by simp [hv]),
        fun i hi c hc hfree => ?_⟩
      refine h.loose i (by omega) c hc (List.forall_mem_cons.mpr ⟨fun hcover => ?_, hfree⟩)
      exact absurd hcover.2 (by simpa [Token.stop] using hi)
  · rintro ⟨ts', rfl, h⟩
    refine ⟨?_, ?_, ?_, fun i hi c hc hfree => ?_⟩
    · exact List.forall_mem_cons.mpr
        ⟨le_rfl, fun t ht => (Nat.le_add_right k _).trans (h.behind t ht)⟩
    · exact List.pairwise_cons.mpr ⟨h.behind, h.apart⟩
    · exact List.forall_mem_cons.mpr ⟨hcut, h.word⟩
    · obtain ⟨hfirst, hothers⟩ := List.forall_mem_cons.mp hfree
      have hstop : k + l.text.length ≤ i := by
        by_contra hlt
        exact hfirst ⟨hi, by simpa [Token.stop] using hlt⟩
      exact h.loose i hstop c hc hothers

end TokenizesFrom

/-- The scan from an offset on finds the tokens from there on. -/
lemma scan_eq_iff {cs suffix : List Char} {k : Nat} {ts : List (Token Nat)}
    (hsuffix : cs.drop k = suffix) : scan k suffix = ts ↔ TokenizesFrom cs k ts := by
  fun_induction scan k suffix generalizing ts with
  | case1 k =>
    rw [TokenizesFrom.iff_nil (List.drop_eq_nil_iff.mp hsuffix)]
    exact eq_comm
  | case2 k c cs' l rest hcut _ ih =>
    rw [← hsuffix] at hcut
    have hrest : cs.drop (k + l.text.length) = rest := by
      rw [← List.drop_drop, ← (Lexeme.cut?_eq_some_iff.mp hcut).1, ← String.length_toList,
        List.drop_left]
    rw [TokenizesFrom.iff_cons hcut]
    constructor
    · rintro rfl
      exact ⟨_, rfl, (ih hrest).mp rfl⟩
    · rintro ⟨ts', rfl, h⟩
      rw [(ih hrest).mpr h]
  | case3 k c cs' hcut ih =>
    rw [← hsuffix] at hcut
    rw [TokenizesFrom.iff_succ hcut]
    exact ih (by rw [← List.drop_drop, hsuffix]; rfl)

lemma isTokenization_iff {cs : List Char} {ts : List (Token Nat)} :
    IsTokenization cs ts ↔ TokenizesFrom cs 0 ts := by
  have hword (t : Token Nat) : Lexeme.cut? (cs.drop t.pos) = some (t.lexeme, cs.drop t.stop) ↔
      cs.extract t.pos t.stop = t.text.toList ∧ t.lexeme.WellSpelled ∧
        ∀ c ∈ cs[t.stop]?, t.lexeme.goesOn c = false := by
    have hslice : t.text.toList ++ cs.drop t.stop = cs.drop t.pos ↔
        cs.extract t.pos t.stop = t.text.toList := by
      have hlength : t.stop - t.pos = t.text.length := by simp [Token.stop]
      have hsplit : cs.extract t.pos t.stop ++ cs.drop t.stop = cs.drop t.pos := by
        rw [List.extract_eq_take_drop, hlength, Token.stop, ← List.drop_drop, List.take_append_drop]
      rw [← hsplit, List.append_left_inj, eq_comm]
    rw [Lexeme.cut?_eq_some_iff, hslice, List.head?_drop]
  constructor
  · intro h
    exact ⟨fun _ _ => Nat.zero_le _, h.apart,
      fun t ht => (hword t).mpr ⟨h.slice t ht, h.spelled t ht, h.maximal t ht⟩,
      fun i _ => h.loose i⟩
  · intro h
    have hwords (t : Token Nat) (ht : t ∈ ts) := (hword t).mp (h.word t ht)
    refine ⟨?_, h.apart, fun t ht => (hwords t ht).1, fun t ht => (hwords t ht).2.1,
      fun t ht => (hwords t ht).2.2, fun i => h.loose i (Nat.zero_le i)⟩
    exact h.apart.imp_of_mem fun ht _ hle => (h.pos_lt_stop ht).trans_le hle

/-- **The tokens of a text are the one list that tokenizes it** once its comments are blank. -/
theorem tokenize_eq_iff (source : String) (ts : List (Token Nat)) :
    tokenize source = ts ↔ IsTokenization (stripComments source).toList ts := by
  rw [isTokenization_iff, stripComments, String.toList_ofList]
  exact scan_eq_iff rfl

-- the dollar sign has no name behind it, and the last quote has no partner
example : (tokenize "c$ 4\"a b\"\"").map Token.text = ["c", "4", "\"a b\""] := by decide +kernel

end Partitura
