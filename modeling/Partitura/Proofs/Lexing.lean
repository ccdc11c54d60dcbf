import Mathlib.Data.List.DropRight
import Mathlib.Tactic.Common
import Partitura.Token.Lexer
import Partitura.Token.LineMap

/-!
Tokens and lines of a text that was put together from parts.

A line break ends comments, names and symbols, so a text can be cut there: its tokens are those of
the first part and, at their offsets, those of the second, unless a quoted text spans the break.
Offsets count characters, and the line map counts line breaks, so both move along with a text that
is put behind another.
-/

namespace Partitura

open Text

/-! ### Single tokens -/

lemma Punct.ofChar?_char (p : Punct) : ofChar? p.char = some p := by
  cases p <;> rfl

lemma cutAt_append {sep : Char} {cs rest : List Char} (h : (cutAt sep cs).2 = some rest)
    (ys : List Char) : cutAt sep (cs ++ ys) = ((cutAt sep cs).1, some (rest ++ ys)) := by
  fun_induction cutAt sep cs <;> simp_all [cutAt]

lemma cutAt_eq_none {sep : Char} {cs : List Char} : (cutAt sep cs).2 = none ↔ sep ∉ cs := by
  fun_induction cutAt sep cs with
  | case1 => simp
  | case2 cs => simp
  | case3 c cs hc before behind heq ih => simp_all [Ne.symm hc]

lemma cutAt_eq_some {sep : Char} {cs rest : List Char} (h : (cutAt sep cs).2 = some rest) :
    (cutAt sep cs).1 ++ sep :: rest = cs := by
  fun_induction cutAt sep cs <;> simp_all

lemma cutAt_of_not_mem {sep : Char} {cs : List Char} (h : sep ∉ cs) :
    cutAt sep cs = (cs, none) := by
  induction cs with
  | nil => rfl
  | cons c cs ih =>
    simp only [List.mem_cons, not_or] at h
    simp [cutAt, Ne.symm h.1, ih h.2]

lemma cutAt_append_of_not_mem {sep : Char} {cs : List Char} (h : sep ∉ cs) (rest : List Char) :
    cutAt sep (cs ++ sep :: rest) = (cs, some rest) := by
  induction cs with
  | nil => simp [cutAt]
  | cons c cs ih =>
    simp only [List.mem_cons, not_or] at h
    simp [cutAt, Ne.symm h.1, ih h.2]

lemma takeWhile_append_of_neg {α : Type} {p : α → Bool} {a : α} (ha : p a = false)
    (xs ys : List α) : (xs ++ a :: ys).takeWhile p = xs.takeWhile p := by
  induction xs with
  | nil => simp [ha]
  | cons x xs ih => by_cases hx : p x <;> simp [hx, ih]

lemma dropWhile_append_of_neg {α : Type} {p : α → Bool} {a : α} (ha : p a = false)
    (xs ys : List α) : (xs ++ a :: ys).dropWhile p = xs.dropWhile p ++ a :: ys := by
  induction xs with
  | nil => simp [ha]
  | cons x xs ih => by_cases hx : p x <;> simp [hx, ih]

/-- A word is taken as far as its class goes. -/
lemma takeWhile_word {α : Type} {p : α → Bool} {xs rest : List α} (hxs : ∀ a ∈ xs, p a = true)
    (hrest : ∀ a ∈ rest.head?, p a = false) : (xs ++ rest).takeWhile p = xs := by
  rw [List.takeWhile_append_of_pos hxs]
  cases rest with
  | nil => simp
  | cons a rest => simp [hrest a rfl]

lemma dropWhile_word {α : Type} {p : α → Bool} {xs rest : List α} (hxs : ∀ a ∈ xs, p a = true)
    (hrest : ∀ a ∈ rest.head?, p a = false) : (xs ++ rest).dropWhile p = rest := by
  rw [List.dropWhile_append_of_pos hxs]
  cases rest with
  | nil => rfl
  | cons a rest => simp [hrest a rfl]

namespace Lexeme

/-- A token ends before a line break, unless it is a quoted text that goes on behind it. -/
lemma cut?_newline (c : Char) {cs ys : List Char} (hquote : '"' ∉ c :: cs ∨ '"' ∉ ys) :
    cut? (c :: (cs ++ '\n' :: ys)) = (cut? (c :: cs)).map (Prod.map id (· ++ '\n' :: ys)) := by
  simp only [cut?]
  cases Punct.ofChar? c with
  | some p => rfl
  | none =>
    dsimp only
    split_ifs with hq hcall hsymbol
    · -- a quoted text that is not closed before the break is not closed at all
      have hys : '"' ∉ ys := hquote.resolve_left (by simp [hq])
      cases hcut : (cutAt '"' cs).2 with
      | some rest =>
        rcases hcs : cutAt '"' cs with ⟨body, behind⟩
        obtain rfl : behind = some rest := by simpa [hcs] using hcut
        simp [cutAt_append hcut, hcs]
      | none =>
        have hnone : (cutAt '"' (cs ++ '\n' :: ys)).2 = none := by
          rw [cutAt_eq_none] at hcut ⊢
          simp [hcut, hys]
        rcases hcs : cutAt '"' cs with ⟨body, behind⟩
        rcases hall : cutAt '"' (cs ++ '\n' :: ys) with ⟨body', behind'⟩
        simp_all
    · cases cs with
      | nil => rfl
      | cons d ds =>
        simp only [List.cons_append]
        split_ifs with hd
        · rw [← List.cons_append, takeWhile_append_of_neg (by decide),
            dropWhile_append_of_neg (by decide)]
          rfl
        · rfl
    · rw [takeWhile_append_of_neg (by decide), dropWhile_append_of_neg (by decide)]
      rfl
    · rfl

/-- The characters of a token stand in front of what is left. -/
lemma cut?_eq_some {cs rest : List Char} {l : Lexeme} (h : cut? cs = some (l, rest)) :
    l.text.toList ++ rest = cs := by
  unfold cut? at h
  split at h
  · cases h
  · rename_i c cs
    split at h
    · rename_i p hp
      obtain ⟨rfl, rfl⟩ := Prod.mk.inj (Option.some.inj h)
      have hchar : p.char = c := by simpa using List.find?_some hp
      simp [text, hchar]
    · split_ifs at h with hq hcall hsymbol
      · split at h
        · rename_i body behind hcut
          obtain ⟨rfl, rfl⟩ := Prod.mk.inj (Option.some.inj h)
          have hcs : body ++ '"' :: behind = cs := by
            have hsome : (cutAt '"' cs).2 = some behind := by rw [hcut]
            simpa [hcut] using cutAt_eq_some hsome
          simp [text, hq, ← hcs]
        · cases h
      · split at h
        · split_ifs at h with hd
          obtain ⟨rfl, rfl⟩ := Prod.mk.inj (Option.some.inj h)
          simp [text, hcall, List.takeWhile_append_dropWhile]
        · cases h
      · obtain ⟨rfl, rfl⟩ := Prod.mk.inj (Option.some.inj h)
        simp [text, List.takeWhile_append_dropWhile]

end Lexeme

/-! ### Rows of tokens -/

lemma blankComments_newline (inside : Bool) (xs ys : List Char) :
    blankComments inside (xs ++ '\n' :: ys) =
      blankComments inside xs ++ '\n' :: blankComments false ys := by
  fun_induction blankComments inside xs with
  | case3 c cs hc ih =>
    rw [List.cons_append, blankComments.eq_def]
    simp [hc, ih]
  | case5 inside hinside c cs hcomment ih =>
    -- a percent sign at the end of the first part begins no comment
    have hbreak : ∀ rest, c = '%' → cs ++ '\n' :: ys ≠ '%' :: rest := by
      rintro rest rfl h
      cases cs with
      | nil => simp at h
      | cons d ds =>
        obtain ⟨rfl, -⟩ := List.cons.inj h
        exact hcomment ds rfl rfl
    rw [List.cons_append, blankComments.eq_def]
    simp only [hinside, Bool.false_eq_true, ↓reduceIte]
    rw [ih, List.cons_append]
  | _ => simp_all [blankComments]

lemma blankComments_length (inside : Bool) (cs : List Char) :
    (blankComments inside cs).length = cs.length := by
  fun_induction blankComments inside cs <;> simp_all

/-- What is not blank afterwards was there before. -/
lemma getElem?_of_blankComments {inside : Bool} {cs : List Char} {i : Nat} {c : Char}
    (h : (blankComments inside cs)[i]? = some c) (hc : c ≠ ' ') : cs[i]? = some c := by
  fun_induction blankComments inside cs generalizing i with
  | case1 => exact h
  | case4 inside _ rest ih => rcases i with _ | _ | i <;> grind
  | _ => rcases i with _ | i <;> grind

lemma scan_cons (offset : Nat) (c : Char) (cs : List Char) :
    scan offset (c :: cs) = match Lexeme.cut? (c :: cs) with
      | some (l, rest) => ⟨l, offset⟩ :: scan (offset + l.text.length) rest
      | none => scan (offset + 1) cs := by
  rw [scan]
  split <;> simp_all

lemma scan_newline (offset : Nat) {xs ys : List Char} (hquote : '"' ∉ xs ∨ '"' ∉ ys) :
    scan offset (xs ++ '\n' :: ys) =
      scan offset xs ++ scan (offset + xs.length + 1) ys := by
  fun_induction scan offset xs with
  | case1 offset =>
    have hnone : Lexeme.cut? ('\n' :: ys) = none := rfl
    rw [List.nil_append, scan_cons, hnone]
    simp
  | case2 offset c cs l rest h _ ih =>
    have hcs := Lexeme.cut?_eq_some h
    have hlength := congrArg List.length hcs
    have hrest : '"' ∉ rest ∨ '"' ∉ ys := by
      refine hquote.imp_left fun hmem hrest => hmem ?_
      rw [← hcs]
      exact List.mem_append_right _ hrest
    rw [List.length_append, String.length_toList] at hlength
    rw [List.cons_append, scan_cons, Lexeme.cut?_newline c hquote, h]
    simp only [Option.map_some, Prod.map_apply, id_eq, ih hrest, List.cons_append]
    rw [← hlength, ← Nat.add_assoc]
  | case3 offset c cs h ih =>
    have hrest : '"' ∉ cs ∨ '"' ∉ ys :=
      hquote.imp_left fun hmem hrest => hmem (List.mem_cons_of_mem c hrest)
    rw [List.cons_append, scan_cons, Lexeme.cut?_newline c hquote, h]
    simp only [Option.map_none, ih hrest, List.length_cons]
    congr 2
    omega

lemma scan_shift (k offset : Nat) (cs : List Char) :
    scan (offset + k) cs = (scan offset cs).map (Token.map (· + k)) := by
  fun_induction scan offset cs with
  | case1 offset => simp [scan]
  | case2 offset c cs l rest h _ ih =>
    rw [scan_cons, h, List.map_cons, ← ih]
    simp only [Token.map]
    congr 2
    omega
  | case3 offset c cs h ih =>
    rw [scan_cons, h, ← ih]
    dsimp only
    congr 1
    omega

lemma pos_lt_of_mem_scan {offset : Nat} {cs : List Char} {t : Token Nat}
    (h : t ∈ scan offset cs) : t.pos < offset + cs.length := by
  fun_induction scan offset cs with
  | case1 offset => cases h
  | case2 offset c cs l rest hcut _ ih =>
    have hlength := congrArg List.length (Lexeme.cut?_eq_some hcut)
    rw [List.length_append, String.length_toList] at hlength
    rcases List.mem_cons.mp h with rfl | hmem
    · simp
    · have := ih hmem
      omega
  | case3 offset c cs hcut ih =>
    have := ih h
    simp only [List.length_cons]
    omega

lemma pos_lt_of_mem_tokenize {source : String} {t : Token Nat} (ht : t ∈ tokenize source) :
    t.pos < source.length := by
  have hlt := pos_lt_of_mem_scan ht
  rwa [blankComments_length, String.length_toList, Nat.zero_add] at hlt

/-! ### Lines -/

namespace LineMap

lemma startsFrom_append (offset : Nat) (xs ys : List Char) :
    startsFrom offset (xs ++ ys) = startsFrom offset xs ++ startsFrom (offset + xs.length) ys := by
  fun_induction startsFrom offset xs <;> simp_all [startsFrom, Nat.add_assoc, Nat.add_comm 1]

lemma startsFrom_shift (k offset : Nat) (cs : List Char) :
    startsFrom (offset + k) cs = (startsFrom offset cs).map (· + k) := by
  fun_induction startsFrom offset cs <;> simp_all [startsFrom, Nat.add_right_comm]

lemma length_startsFrom (offset : Nat) (cs : List Char) :
    (startsFrom offset cs).length = cs.count '\n' := by
  fun_induction startsFrom offset cs <;> simp_all

/-- A line starts behind the line break before it. -/
lemma bounds_of_mem_startsFrom {offset start : Nat} {cs : List Char}
    (h : start ∈ startsFrom offset cs) : offset < start ∧ start ≤ offset + cs.length := by
  fun_induction startsFrom offset cs with
  | case1 => cases h
  | case2 offset cs ih =>
    rw [List.length_cons]
    rcases List.mem_cons.mp h with rfl | hmem
    · omega
    · have := ih hmem
      omega
  | case3 offset c cs _ ih =>
    have := ih h
    rw [List.length_cons]
    omega

/-- The last line of a text begins behind its last line break. -/
lemma getLast?_startsFrom (cs : List Char) :
    (0 :: startsFrom 0 cs).getLast?.getD 0 + (cs.rtakeWhile (· ≠ '\n')).length = cs.length := by
  induction cs using List.reverseRecOn with
  | nil => rfl
  | append_singleton cs c ih =>
    rw [startsFrom_append, Nat.zero_add]
    by_cases hc : c = '\n'
    · subst hc
      have hlast : (0 :: (startsFrom 0 cs ++ startsFrom cs.length ['\n'])).getLast? =
          some (cs.length + 1) := by
        simp [startsFrom, List.getLast?_cons]
      rw [hlast, List.rtakeWhile_concat_neg _ _ _ (by simp)]
      simp
    · simp only [startsFrom, hc, if_false, List.append_nil]
      rw [List.rtakeWhile_concat_pos _ _ _ (by simpa using hc), List.length_append,
        List.length_append, ← ih]
      omega

/-- Offsets are located by counting: the line breaks before, and the characters behind the last of
them. -/
lemma locate_eq {source : String} {offset : Nat} (h : offset ≤ source.length) :
    (ofSource source).locate offset =
      (1 + (source.toList.take offset).count '\n',
        1 + ((source.toList.take offset).rtakeWhile (· ≠ '\n')).length) := by
  set before := source.toList.take offset with hbefore
  have hlength : before.length = offset := by
    rw [hbefore, List.length_take, String.length_toList]
    omega
  have hstarts : (0 :: startsFrom 0 source.toList).takeWhile (· ≤ offset) =
      0 :: startsFrom 0 before := by
    rw [← List.take_append_drop offset source.toList, ← hbefore, startsFrom_append,
      ← List.cons_append, hlength, Nat.zero_add]
    refine takeWhile_word (fun s hs => ?_) fun s hs => ?_
    · rcases List.mem_cons.mp hs with rfl | hmem
      · simp
      · have := bounds_of_mem_startsFrom hmem
        simp only [decide_eq_true_eq]
        omega
    · have := bounds_of_mem_startsFrom (List.mem_of_mem_head? hs)
      simp only [decide_eq_false_iff_not]
      omega
  have hlast := getLast?_startsFrom before
  simp only [locate, ofSource, hstarts, List.length_cons, length_startsFrom]
  refine Prod.ext ?_ ?_ <;> simp only <;> omega

end LineMap

end Partitura
