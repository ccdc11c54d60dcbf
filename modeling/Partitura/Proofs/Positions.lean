import Mathlib.Data.Prod.Lex
import Mathlib.Order.Monotone.Defs
import Partitura.Proofs.Reprinting
import Partitura.Stored.Rhythm

/-!
Comments and lines, position by position.

Blanking reads a text from left to right and remembers only whether it stands in a comment, and an
offset is located among the starts of all lines. Both can be said of a position alone. It is blank
if a comment begins before it on its line (`CommentedAt`), and its line begins behind the last line
break before it (`BeginsLine`). Line breaks are never blanked, so both texts have the same lines.
-/

namespace Partitura

open Number

/-! ### Comments -/

/-- Two percent signs stand at or before a position, and no line break between them and it. -/
def CommentedAt (cs : List Char) (i : Nat) : Prop :=
  ∃ j ≤ i, ['%', '%'] <+: cs.drop j ∧ '\n' ∉ cs.extract j (i + 1)

instance (cs : List Char) (i : Nat) : Decidable (CommentedAt cs i) :=
  inferInstanceAs (Decidable (∃ j ≤ i, _ ∧ _))

lemma not_newline_of_percents {cs : List Char} (h : ['%', '%'] <+: cs) (n : Nat) :
    '\n' ∉ cs.take (n + 1) ↔ '\n' ∉ cs.tail.take n := by
  obtain ⟨rest, rfl⟩ := h
  simp

lemma commentedAt_zero {cs : List Char} : CommentedAt cs 0 ↔ ['%', '%'] <+: cs := by
  constructor
  · rintro ⟨j, hj, hpercents, -⟩
    obtain rfl : j = 0 := by omega
    simpa using hpercents
  · intro h
    refine ⟨0, le_rfl, by simpa using h, ?_⟩
    rw [List.extract_eq_take_drop, List.drop_zero]
    exact (not_newline_of_percents h 0).mpr (by simp)

/-- A comment at a later position begins with the text or behind its first character. -/
lemma commentedAt_succ {c : Char} {cs : List Char} {i : Nat} : CommentedAt (c :: cs) (i + 1) ↔
    ['%', '%'] <+: c :: cs ∧ '\n' ∉ cs.take (i + 1) ∨ CommentedAt cs i := by
  constructor
  · rintro ⟨_ | j, hj, hpercents, hline⟩
    · rw [List.extract_eq_take_drop, List.drop_zero] at hline
      exact .inl ⟨hpercents, (not_newline_of_percents hpercents _).mp hline⟩
    · refine .inr ⟨j, by omega, hpercents, ?_⟩
      simpa [List.extract_eq_take_drop] using hline
  · rintro (⟨hpercents, hline⟩ | ⟨j, hj, hpercents, hline⟩)
    · refine ⟨0, by omega, hpercents, ?_⟩
      rw [List.extract_eq_take_drop, List.drop_zero]
      exact (not_newline_of_percents hpercents _).mpr hline
    · refine ⟨j + 1, by omega, hpercents, ?_⟩
      simpa [List.extract_eq_take_drop] using hline

/-- A position is blanked where the comment goes on that the text begins in, or in one of its
own. -/
lemma getElem?_blankComments (inside : Bool) (cs : List Char) (i : Nat) :
    (blankComments inside cs)[i]? = cs[i]?.map fun c =>
      if inside = true ∧ '\n' ∉ cs.take (i + 1) ∨ CommentedAt cs i then ' ' else c := by
  fun_induction blankComments inside cs generalizing i with
  | case1 => simp
  | case2 cs ih =>
    rcases i with _ | i
    · simp [commentedAt_zero]
    · simp [ih, commentedAt_succ]
  | case3 c cs hc ih =>
    rcases i with _ | i
    · simp [Ne.symm hc]
    · have hline : '\n' ∉ (c :: cs).take (i + 1 + 1) ↔ '\n' ∉ cs.take (i + 1) := by
        simp [Ne.symm hc]
      simp only [List.getElem?_cons_succ, ih, commentedAt_succ, hline]
      congr! 3
      tauto
  | case4 inside hinside rest ih =>
    have hfront (cs : List Char) : ['%', '%'] <+: '%' :: '%' :: cs := ⟨cs, rfl⟩
    rcases i with _ | _ | i
    · simp [commentedAt_zero, hfront]
    · simp [commentedAt_succ, hfront]
    · have hline : '\n' ∉ ('%' :: rest).take (i + 1 + 1) ↔ '\n' ∉ rest.take (i + 1) := by simp
      simp only [List.getElem?_cons_succ, ih, commentedAt_succ, hline]
      congr! 3
      simp only [Bool.not_eq_true] at hinside
      simp only [hinside, hfront]
      tauto
  | case5 inside hinside c cs hcomment ih =>
    have hfront : ¬ ['%', '%'] <+: c :: cs := by
      rintro ⟨rest, hrest⟩
      obtain ⟨rfl, rfl⟩ := List.cons.inj hrest
      exact hcomment rest rfl rfl
    rcases i with _ | i
    · simp [hinside, commentedAt_zero, hfront]
    · simp [hinside, ih, commentedAt_succ, hfront]

/-! ### Lines -/

/-- The line of an offset begins at `start`: with the text, or behind the last line break before
the offset. -/
structure BeginsLine (cs : List Char) (offset start : Nat) : Prop where
  le : start ≤ offset
  first : start = 0 ∨ cs[start - 1]? = some '\n'
  last : '\n' ∉ cs.extract start offset

namespace LineMap

/-- Blanking leaves every line break where it is. -/
lemma startsFrom_blankComments (offset : Nat) (inside : Bool) (cs : List Char) :
    startsFrom offset (blankComments inside cs) = startsFrom offset cs := by
  fun_induction blankComments inside cs generalizing offset with
  | case1 => rfl
  | case2 cs ih => simp [startsFrom, ih]
  | case3 c cs hc ih => simp [startsFrom, hc, ih]
  | case4 inside _ rest ih => simp [startsFrom, ih]
  | case5 inside _ c cs _ ih => simp [startsFrom, ih]

lemma ofSource_stripComments (source : String) :
    ofSource (stripComments source) = ofSource source := by
  rw [ofSource, stripComments, String.toList_ofList, startsFrom_blankComments, ofSource]

/-- The characters between the last line break and an offset are the line up to it. -/
lemma beginsLine_sub_rtakeWhile {cs : List Char} {offset : Nat} (h : offset ≤ cs.length) :
    BeginsLine cs offset (offset - ((cs.take offset).rtakeWhile (· ≠ '\n')).length) := by
  -- up to the offset stands the line, and before it nothing or what ends in a line break
  have hfront := List.rdropWhile_append_rtakeWhile (l := cs.take offset) (p := (· ≠ '\n'))
  have hlast := List.rdropWhile_last_not (· ≠ '\n') (cs.take offset)
  set line := (cs.take offset).rtakeWhile (· ≠ '\n')
  generalize (cs.take offset).rdropWhile (· ≠ '\n') = front at hfront hlast
  have hlength : offset = front.length + line.length := by
    rw [← List.length_append, hfront, List.length_take, min_eq_left h]
  have hcs : cs = front ++ (line ++ cs.drop offset) := by
    rw [← List.append_assoc, hfront, List.take_append_drop]
  have hstart : offset - line.length = front.length := by omega
  rw [hstart]
  refine ⟨by omega, ?_, ?_⟩
  · rcases eq_or_ne front [] with rfl | hne
    · exact .inl rfl
    · have hpos := List.length_pos_iff.mpr hne
      have hbreak : front.getLast hne = '\n' := by simpa using hlast hne
      rw [hcs, List.getElem?_append_left (by omega), ← List.getLast?_eq_getElem?,
        List.getLast?_eq_some_getLast hne, hbreak]
      exact .inr rfl
  · have hextract : cs.extract front.length offset = line := by
      rw [List.extract_eq_take_drop, hlength, Nat.add_sub_cancel_left]
      conv_lhs => rw [hcs]
      rw [List.drop_left, List.take_left]
    rw [hextract]
    intro hmem
    simpa using List.mem_rtakeWhile_imp hmem

/-- The starts up to an offset are the first of those up to a later one. -/
lemma takeWhile_prefix_takeWhile (starts : List Nat) {o p : Nat} (h : o ≤ p) :
    starts.takeWhile (· ≤ o) <+: starts.takeWhile (· ≤ p) := by
  induction starts with
  | nil => exact List.prefix_rfl
  | cons s starts ih =>
    by_cases hs : s ≤ o
    · rw [List.takeWhile_cons_of_pos (by simpa using hs),
        List.takeWhile_cons_of_pos (by simpa using hs.trans h)]
      exact (List.prefix_cons_inj s).mpr ih
    · rw [List.takeWhile_cons_of_neg (by simpa using hs)]
      exact List.nil_prefix

/-- The last start up to an offset is not behind it. -/
lemma start_le (m : LineMap) (o : Nat) : (m.starts.takeWhile (· ≤ o)).getLast?.getD 0 ≤ o := by
  cases hlast : (m.starts.takeWhile (· ≤ o)).getLast? with
  | none => exact Nat.zero_le o
  | some s => simpa using List.mem_takeWhile_imp (List.mem_of_getLast? hlast)

/-- A later offset is on a later line, or on the same one further on. -/
lemma locate_strictMono (m : LineMap) : StrictMono fun o => toLex (m.locate o) := by
  intro o p hlt
  have hprefix := takeWhile_prefix_takeWhile m.starts hlt.le
  rw [Prod.Lex.toLex_lt_toLex]
  simp only [locate]
  rcases hprefix.length_le.lt_or_eq with hline | hline
  · exact .inl hline
  · -- the line is the same, and it does not begin behind the first offset
    have hstarts := hprefix.eq_of_length hline
    rw [← hstarts]
    have hstart := start_le m o
    exact .inr ⟨rfl, by omega⟩

/-- An offset that is given as data is located in the same way. -/
lemma locateAt_int (m : LineMap) (o : Nat) :
    m.locateAt (.int o) =
      .ok (some (Prod.map id (fun column : Nat => .int column) (m.locate o))) := by
  have hquantity : (Data.int o).quantity = .ok (.whole o) := rfl
  have hnotBefore : (Quantity.whole o).less (.whole 0) = false := by simp [Quantity.less]
  have hstarts : (m.starts.takeWhile fun n : Nat => !(Quantity.whole o).less (.whole n)) =
      m.starts.takeWhile (· ≤ o) := by
    congr 1
    funext n
    rw [Bool.eq_iff_iff]
    simp [Quantity.less]
  have hstart := start_le m o
  simp only [locateAt, hquantity, ok_bind, hnotBefore, hstarts, Quantity.sub, Quantity.add,
    Quantity.combine, Bool.false_eq_true, if_false]
  have hcolumn : (o : Int) - ((m.starts.takeWhile (· ≤ o)).getLast?.getD 0 : Nat) + 1 =
      (m.locate o).2 := by
    simp only [locate]
    omega
  rw [hcolumn]
  rfl

end LineMap

/-- **Comments and lines are what they are by position.** A text keeps its length when its comments
are blanked. A character becomes a blank if two percent signs stand at or before it on its line, and
stays as it is otherwise. No two percent signs in a row are left, so there is nothing to blank a
second time. The line of an offset is one more than the line breaks before it, and the column counts
from where its line begins. Later offsets are further on by line and column, and both texts have the
same lines. -/
theorem stripComments_locate (source : String) :
    (stripComments source).length = source.length ∧
      (stripComments source).toList = source.toList.mapIdx (fun i c =>
        if CommentedAt source.toList i then ' ' else c) ∧
      Uncommented (stripComments source).toList ∧
      stripComments (stripComments source) = stripComments source ∧
      (∀ o ≤ source.length, ∃ start, BeginsLine source.toList o start ∧
        (LineMap.ofSource source).locate o =
          (1 + (source.toList.take o).count '\n', o - start + 1)) ∧
      (∀ o : Nat, (LineMap.ofSource source).locateAt (.int o) =
        .ok (some (Prod.map id (fun column : Nat => .int column)
          ((LineMap.ofSource source).locate o)))) ∧
      StrictMono (fun o => toLex ((LineMap.ofSource source).locate o)) ∧
      LineMap.ofSource (stripComments source) = LineMap.ofSource source := by
  have huncommented : Uncommented (stripComments source).toList := by
    rw [stripComments, String.toList_ofList]
    exact uncommented_blankComments false source.toList
  refine ⟨?_, ?_, huncommented, ?_, fun o ho => ?_, LineMap.locateAt_int _,
    LineMap.locate_strictMono _, LineMap.ofSource_stripComments source⟩
  · rw [← String.length_toList, stripComments, String.toList_ofList, blankComments_length,
      String.length_toList]
  · refine List.ext_getElem? fun i => ?_
    rw [stripComments, String.toList_ofList, getElem?_blankComments, List.getElem?_mapIdx]
    simp
  · rw [stripComments, blankComments_of_uncommented huncommented, String.ofList_toList]
  · have hoffset : o ≤ source.toList.length := by rwa [String.length_toList]
    have hbegins := LineMap.beginsLine_sub_rtakeWhile hoffset
    refine ⟨_, hbegins, ?_⟩
    have hline := (List.rtakeWhile_suffix (· ≠ '\n') (source.toList.take o)).length_le
    rw [List.length_take, min_eq_left hoffset] at hline
    rw [LineMap.locate_eq ho, Nat.sub_sub_self hline, Nat.add_comm 1 (List.length _)]

/-- Three percent signs at the end of a line, and one alone. -/
theorem stripComments_locate_marks :
    let source := "c%%%\n%d"
    7 ≤ source.length ∧ (stripComments source).toList = "c   \n%d".toList ∧
      ∃ start, BeginsLine source.toList 7 start ∧
        (LineMap.ofSource source).locate 7 = (2, 7 - start + 1) := by
  intro source
  obtain ⟨-, hchars, -, -, hlocate, -⟩ := stripComments_locate source
  have hlines : 1 + (source.toList.take 7).count '\n' = 2 := by decide +kernel
  refine ⟨by decide +kernel, hchars.trans (by decide +kernel), ?_⟩
  rw [← hlines]
  exact hlocate 7 (by decide +kernel)

end Partitura
