import Mathlib.Data.List.Infix
import Partitura.Proofs.Offsets
import Partitura.Proofs.Spelling

/-!
Texts that are made of the tokens of another text.

The tokens of a text, with a blank between neighbours, are a text again. Its tokens are the same
ones: a blank goes on with no name and no symbol, the quotes in it come in the pairs they were
read in, and no comment begins in it. Two percent signs in a row could only stand in a quoted text,
and blanking has left none there.
-/

namespace Partitura

open Text

def reprint (source : String) : String := join " " ((tokenize source).map Token.text)

/-! ### Comments -/

def Uncommented (cs : List Char) : Prop := ¬ ['%', '%'] <:+: cs

namespace Uncommented

lemma of_part {cs ds : List Char} (h : Uncommented ds) (hcs : cs <:+: ds) : Uncommented cs :=
  fun hpercent => h (hpercent.trans hcs)

lemma nil : Uncommented [] := by simp [Uncommented]

/-- Any other character in front begins no comment, nor does a percent sign that stands alone. -/
lemma cons {c : Char} {cs : List Char} (h : Uncommented cs)
    (hc : c = '%' → cs.head? ≠ some '%') : Uncommented (c :: cs) := by
  intro hpercent
  rcases List.infix_cons_iff.mp hpercent with hfront | hrest
  · obtain ⟨rest, hrest⟩ := hfront
    obtain ⟨rfl, rfl⟩ := List.cons.inj hrest
    exact hc rfl rfl
  · exact h hrest

/-- A blank keeps percent signs apart. -/
lemma append_blank {cs ds : List Char} (hcs : Uncommented cs) (hds : Uncommented ds) :
    Uncommented (cs ++ ' ' :: ds) := by
  induction cs with
  | nil => exact hds.cons (by simp)
  | cons c cs ih =>
    have htail : Uncommented cs := hcs.of_part (List.suffix_cons c cs).isInfix
    refine (ih htail).cons ?_
    rintro rfl hhead
    cases cs with
    | nil => cases hhead
    | cons d cs =>
      obtain rfl := Option.some.inj hhead
      exact hcs ⟨[], cs, rfl⟩

end Uncommented

lemma head?_blankComments {cs : List Char} (h : (blankComments false cs).head? = some '%') :
    cs.head? = some '%' := by
  rw [List.head?_eq_getElem?] at h ⊢
  exact getElem?_of_blankComments h (by decide)

/-- Blanking leaves no comment. -/
lemma uncommented_blankComments (inside : Bool) (cs : List Char) :
    Uncommented (blankComments inside cs) := by
  fun_induction blankComments inside cs with
  | case1 => exact .nil
  | case2 cs ih => exact ih.cons fun h => absurd h (by decide)
  | case3 c cs hc ih => exact ih.cons fun h => absurd h (by decide)
  | case4 inside _ rest ih =>
    exact (ih.cons fun h => absurd h (by decide)).cons fun h => absurd h (by decide)
  | case5 inside _ c cs hcomment ih =>
    refine ih.cons ?_
    rintro rfl hhead
    obtain ⟨ds, rfl⟩ := List.head?_eq_some_iff.mp (head?_blankComments hhead)
    exact hcomment ds rfl rfl

/-- Where no comment begins, nothing is blanked. -/
lemma blankComments_of_uncommented {cs : List Char} (h : Uncommented cs) :
    blankComments false cs = cs := by
  induction cs with
  | nil => rfl
  | cons c cs ih =>
    have htail : Uncommented cs := h.of_part (List.suffix_cons c cs).isInfix
    have hcomment : ∀ rest, c = '%' → cs ≠ '%' :: rest := by
      rintro rest rfl rfl
      exact h ⟨[], rest, rfl⟩
    rw [blankComments.eq_def]
    simp only [Bool.false_eq_true, ↓reduceIte]
    rw [ih htail]

/-! ### Tokens -/

/-- A token is spelled as its kind asks, and its characters stand together in the text. -/
lemma spelled_of_mem_scan {offset : Nat} {cs : List Char} {t : Token Nat}
    (h : t ∈ scan offset cs) : t.lexeme.WellSpelled ∧ t.text.toList <:+: cs := by
  fun_induction scan offset cs with
  | case1 => cases h
  | case2 offset c cs l rest hcut _ ih =>
    obtain ⟨htext, hspelled, -⟩ := Lexeme.cut?_eq_some_iff.mp hcut
    rw [← htext]
    rcases List.mem_cons.mp h with rfl | hmem
    · exact ⟨hspelled, (List.prefix_append _ rest).isInfix⟩
    · obtain ⟨ht, hpart⟩ := ih hmem
      exact ⟨ht, hpart.trans (List.suffix_append _ rest).isInfix⟩
  | case3 offset c cs _ ih =>
    obtain ⟨ht, hpart⟩ := ih h
    exact ⟨ht, hpart.trans (List.suffix_cons c cs).isInfix⟩

lemma uncommented_of_mem_tokenize {source : String} {t : Token Nat} (h : t ∈ tokenize source) :
    Uncommented t.text.toList :=
  (uncommented_blankComments false source.toList).of_part (spelled_of_mem_scan h).2

/-- The characters of a row of words, with a blank between neighbours. -/
def spaced : List Lexeme → List Char
  | [] => []
  | [l] => l.text.toList
  | l :: ls => l.text.toList ++ ' ' :: spaced ls

lemma toList_reprint (source : String) :
    (reprint source).toList = spaced ((tokenize source).map Token.lexeme) := by
  have hjoin (ts : List (Token Nat)) : (join " " (ts.map Token.text)).toList =
      spaced (ts.map Token.lexeme) := by
    induction ts with
    | nil => rfl
    | cons t ts ih => cases ts <;> simp_all [join, spaced]
  exact hjoin (tokenize source)

lemma uncommented_spaced {ls : List Lexeme} (h : ∀ l ∈ ls, Uncommented l.text.toList) :
    Uncommented (spaced ls) := by
  fun_induction spaced ls with
  | case1 => exact .nil
  | case2 l => exact h l (by simp)
  | case3 l ls _ ih =>
    exact (h l (by simp)).append_blank (ih fun m hm => h m (List.mem_cons_of_mem l hm))

/-- A blank ends every word. -/
lemma Lexeme.goesOn_blank (l : Lexeme) : l.goesOn ' ' = false := by
  cases l <;> rfl

/-- Words with blanks between them are read one by one. -/
lemma scan_spaced {ls : List Lexeme} (h : ∀ l ∈ ls, l.WellSpelled) (offset : Nat) :
    (scan offset (spaced ls)).map Token.lexeme = ls := by
  fun_induction spaced ls generalizing offset with
  | case1 => simp [scan]
  | case2 l =>
    have hstop : ∀ c ∈ ([] : List Char).head?, l.goesOn c = false := by simp
    have hscan := scan_word (h l (by simp)) hstop offset
    rw [List.append_nil] at hscan
    simp [hscan, scan]
  | case3 l ls _ ih =>
    have hstop : ∀ c ∈ (' ' :: spaced ls).head?, l.goesOn c = false := by
      rintro c ⟨⟩
      exact l.goesOn_blank
    rw [scan_word (h l (by simp)) hstop, scan_blank (by decide), List.map_cons,
      ih fun m hm => h m (List.mem_cons_of_mem l hm)]

lemma lexemes_reprint (source : String) :
    (tokenize (reprint source)).map Token.lexeme = (tokenize source).map Token.lexeme := by
  have hwords : ∀ l ∈ (tokenize source).map Token.lexeme,
      l.WellSpelled ∧ Uncommented l.text.toList := by
    intro l hl
    obtain ⟨t, ht, rfl⟩ := List.mem_map.mp hl
    exact ⟨(spelled_of_mem_scan ht).1, uncommented_of_mem_tokenize ht⟩
  have hblanked : blankComments false (reprint source).toList = (reprint source).toList := by
    rw [toList_reprint]
    exact blankComments_of_uncommented (uncommented_spaced fun l hl => (hwords l hl).2)
  rw [tokenize, hblanked, toList_reprint]
  exact scan_spaced (fun l hl => (hwords l hl).1) 0

/-- **Reprinting is canonical.** A text and the row of its tokens with blanks between them have
tokens of the same kinds and characters, and a text that was reprinted once stays as it is. -/
theorem tokenize_reprint (source : String) :
    (tokenize (reprint source)).map Token.spelling = (tokenize source).map Token.spelling ∧
      reprint (reprint source) = reprint source := by
  have hlexemes := lexemes_reprint source
  have hspelling (ts : List (Token Nat)) : ts.map Token.spelling =
      (ts.map Token.lexeme).map fun l => (l.kind, l.text) := by
    rw [List.map_map]
    rfl
  have htext (ts : List (Token Nat)) : ts.map Token.text =
      (ts.map Token.lexeme).map Lexeme.text := by
    rw [List.map_map]
    rfl
  constructor
  · rw [hspelling, hspelling, hlexemes]
  · rw [reprint, htext, hlexemes, ← htext, reprint]

-- the comment runs into the quoted text, and the last quote has no partner
example : reprint "c:4\"50% %% x\n%y\" $M.p\"" = "c : 4 \"50%     \n%y\" $M .p" := by
  decide +kernel

end Partitura
