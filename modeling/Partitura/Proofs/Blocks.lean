import Mathlib.Data.List.Infix
import Mathlib.Order.Bounds.Basic
import Partitura.Proofs.Braces
import Partitura.Proofs.History
import Partitura.Proofs.Roster
import Partitura.Proofs.Seclusion

/-!
Where a block is closed.

A block is captured by counting how deep its braces are nested. The brace that closes it can be
told without counting along: what stands before it opens as many blocks as it closes, and no part
of it from the beginning on closes more than it opens (`ClosesAt`). There is at most one such brace.
A stream that passes over a block stops behind it, or at its end if there is none, and what macros
and measures hold is cut out between these places.
-/

namespace Partitura

open Number Run

variable {P : Type}

/-! ### Balance -/

def opened (us : List (Token P)) : Nat := us.countP (·.isPunct .openBrace)

def closed (us : List (Token P)) : Nat := us.countP (·.isPunct .closeBrace)

/-- Tokens that close none but the `depth` blocks they stand in, and those they open. -/
def StaysOpen (depth : Nat) (us : List (Token P)) : Prop :=
  ∀ vs, vs <+: us → closed vs ≤ depth + opened vs

/-- As many blocks open as close, and none is closed before it is opened. -/
structure Balanced (us : List (Token P)) : Prop where
  within : ∀ vs, vs <+: us → closed vs ≤ opened vs
  even : opened us = closed us

lemma StaysOpen.nil (depth : Nat) : StaysOpen depth ([] : List (Token P)) := by
  intro vs hvs
  rw [List.prefix_nil.mp hvs]
  exact Nat.zero_le _

/-- A token that leaves `next` blocks open, and tokens that stay within them. -/
lemma staysOpen_cons {depth next : Nat} {t : Token P} {us : List (Token P)}
    (hnext : next + closed [t] = depth + opened [t]) :
    StaysOpen depth (t :: us) ↔ StaysOpen next us := by
  have hcons (vs : List (Token P)) :
      closed (t :: vs) ≤ depth + opened (t :: vs) ↔ closed vs ≤ next + opened vs := by
    simp only [closed, opened, List.countP_cons, List.countP_nil] at hnext ⊢
    omega
  constructor
  · exact fun h vs hvs => (hcons vs).mp (h (t :: vs) ((List.prefix_cons_inj t).mpr hvs))
  · intro h vs hvs
    rcases List.prefix_cons_iff.mp hvs with rfl | ⟨vs', rfl, hvs'⟩
    · exact Nat.zero_le _
    · exact (hcons vs').mpr (h vs' hvs')

/-! ### Blocks -/

/-- A token closes the block, or leaves some number of blocks open. -/
lemma closes_or_next (depth : Nat) (t : Token P) :
    depth = 0 ∧ t.isPunct .closeBrace = true ∨ ∃ next, next + closed [t] = depth + opened [t] := by
  obtain ⟨lexeme, p⟩ := t
  rcases lexeme with mark | _ | _ | _
  · cases mark with
    | closeBrace =>
      cases depth with
      | zero => exact .inl ⟨rfl, rfl⟩
      | succ next => exact .inr ⟨next, rfl⟩
    | openBrace => exact .inr ⟨depth + 1, rfl⟩
    | _ => exact .inr ⟨depth, rfl⟩
  all_goals exact .inr ⟨depth, rfl⟩

lemma takeBlock_close {t : Token P} (ht : t.isPunct .closeBrace = true) (us : List (Token P)) :
    takeBlock 0 (t :: us) = ([], some us) := by
  obtain ⟨lexeme, p⟩ := t
  obtain rfl : lexeme = .punct .closeBrace := by simpa [Token.isPunct] using ht
  rfl

lemma takeBlock_next {depth next : Nat} {t : Token P}
    (hnext : next + closed [t] = depth + opened [t]) (us : List (Token P)) :
    takeBlock depth (t :: us) = (t :: (takeBlock next us).1, (takeBlock next us).2) := by
  obtain ⟨lexeme, p⟩ := t
  rcases lexeme with mark | _ | _ | _
  · cases mark with
    | closeBrace =>
      obtain rfl : next + 1 = depth := hnext
      rfl
    | openBrace =>
      obtain rfl : next = depth + 1 := hnext
      rfl
    | _ =>
      obtain rfl : next = depth := hnext
      rfl
  all_goals
    obtain rfl : next = depth := hnext
    rfl

/-- What stays open is taken up to the brace that closes the block. -/
lemma takeBlock_append_close {depth : Nat} {body : List (Token P)} (hopen : StaysOpen depth body)
    (heven : depth + opened body = closed body) {t : Token P} (ht : t.isPunct .closeBrace = true)
    (rest : List (Token P)) : takeBlock depth (body ++ t :: rest) = (body, some rest) := by
  induction body generalizing depth with
  | nil =>
    obtain rfl : depth = 0 := by simpa [opened, closed] using heven
    exact takeBlock_close ht rest
  | cons u body ih =>
    obtain ⟨next, hnext⟩ : ∃ next, next + closed [u] = depth + opened [u] :=
      ⟨_, Nat.sub_add_cancel (hopen [u] ⟨body, rfl⟩)⟩
    have hbody : next + opened body = closed body := by
      simp only [closed, opened, List.countP_cons, List.countP_nil] at heven hnext ⊢
      omega
    rw [List.cons_append, takeBlock_next hnext, ih ((staysOpen_cons hnext).mp hopen) hbody]

lemma takeBlock_eq_some {depth : Nat} {us body rest : List (Token P)}
    (h : takeBlock depth us = (body, some rest)) :
    ∃ t, t.isPunct .closeBrace = true ∧ us = body ++ t :: rest ∧ StaysOpen depth body ∧
      depth + opened body = closed body := by
  induction us generalizing depth body with
  | nil => cases h
  | cons t us ih =>
    rcases closes_or_next depth t with ⟨rfl, ht⟩ | ⟨next, hnext⟩
    · rw [takeBlock_close ht] at h
      cases h
      exact ⟨t, ht, rfl, .nil 0, rfl⟩
    · rcases hinside : takeBlock next us with ⟨body', rest'⟩
      rw [takeBlock_next hnext, hinside] at h
      cases h
      obtain ⟨u, hu, hus, hopen, heven⟩ := ih hinside
      refine ⟨u, hu, congrArg (t :: ·) hus, (staysOpen_cons hnext).mpr hopen, ?_⟩
      simp only [closed, opened, List.countP_cons, List.countP_nil] at heven hnext ⊢
      omega

/-- A block that is not closed holds all that is left. -/
lemma takeBlock_eq_none {depth : Nat} {us body : List (Token P)}
    (h : takeBlock depth us = (body, none)) : body = us := by
  induction us generalizing depth body with
  | nil =>
    cases h
    rfl
  | cons t us ih =>
    rcases closes_or_next depth t with ⟨rfl, ht⟩ | ⟨next, hnext⟩
    · rw [takeBlock_close ht] at h
      cases h
    · rcases hinside : takeBlock next us with ⟨body', rest'⟩
      rw [takeBlock_next hnext, hinside] at h
      cases h
      rw [ih hinside]

/-- The block that begins at the place `start` is closed at the place `close`. -/
structure ClosesAt (ts : List (Token P)) (start close : Nat) : Prop where
  le : start ≤ close
  brace : ts[close]?.any (·.isPunct .closeBrace) = true
  balanced : Balanced (ts.extract start close)

instance (us : List (Token P)) : Decidable (Balanced us) :=
  decidable_of_iff ((∀ vs ∈ us.inits, closed vs ≤ opened vs) ∧ opened us = closed us)
    ⟨fun h => ⟨fun vs hvs => h.1 vs (List.mem_inits vs us |>.mpr hvs), h.2⟩,
      fun h => ⟨fun vs hvs => h.within vs (List.mem_inits vs us |>.mp hvs), h.even⟩⟩

instance (ts : List (Token P)) (start close : Nat) : Decidable (ClosesAt ts start close) :=
  decidable_of_iff (start ≤ close ∧ ts[close]?.any (·.isPunct .closeBrace) = true ∧
      Balanced (ts.extract start close))
    ⟨fun h => ⟨h.1, h.2.1, h.2.2⟩, fun h => ⟨h.le, h.brace, h.balanced⟩⟩

lemma balanced_iff {us : List (Token P)} :
    Balanced us ↔ StaysOpen 0 us ∧ 0 + opened us = closed us := by
  simp only [StaysOpen, Nat.zero_add]
  exact ⟨fun h => ⟨h.within, h.even⟩, fun h => ⟨h.1, h.2⟩⟩

section ClosesAt

variable {ts body : List (Token P)} {t : Token P} {start close stop : Nat}

lemma extract_append_extract (h : start ≤ close) (h' : close ≤ stop) :
    ts.extract start close ++ ts.extract close stop = ts.extract start stop := by
  have hsize : stop - start = close - start + (stop - close) := by omega
  simp only [List.extract_eq_take_drop, hsize, List.take_add, List.drop_drop,
    Nat.add_sub_cancel' h]

lemma extract_eq_cons (ht : ts[start]? = some t) (h : start < stop) :
    ts.extract start stop = t :: ts.extract (start + 1) stop := by
  obtain ⟨hlt, rfl⟩ := List.getElem?_eq_some_iff.mp ht
  have hsize : stop - start = stop - (start + 1) + 1 := by omega
  rw [List.extract_eq_take_drop, List.drop_eq_getElem_cons hlt, hsize, List.take_succ_cons,
    List.extract_eq_take_drop]

/-- A block that is closed before the end is taken up to there. -/
lemma ClosesAt.takeBlock (h : ClosesAt ts start close) (hclose : close < stop) :
    takeBlock 0 (ts.extract start stop) =
      (ts.extract start close, some (ts.extract (close + 1) stop)) := by
  obtain ⟨t, ht, hbrace⟩ := (Option.any_eq_true _ _).mp h.brace
  obtain ⟨hopen, heven⟩ := balanced_iff.mp h.balanced
  rw [← extract_append_extract h.le hclose.le, extract_eq_cons ht hclose]
  exact takeBlock_append_close hopen heven hbrace _

/-- What is taken of a block ends where it is closed. -/
lemma closesAt_of_takeBlock {rest : List (Token P)}
    (h : takeBlock 0 (ts.extract start stop) = (body, some rest)) :
    start + body.length < stop ∧ ClosesAt ts start (start + body.length) ∧
      ts.extract start (start + body.length) = body := by
  obtain ⟨t, ht, hsplit, hopen, heven⟩ := takeBlock_eq_some h
  rw [List.extract_eq_take_drop] at hsplit
  have hlength := congrArg List.length hsplit
  simp only [List.length_take, List.length_drop, List.length_append, List.length_cons] at hlength
  have hbody : ts.extract start (start + body.length) = body := by
    have hprefix : body <+: ts.drop start :=
      (List.prefix_append body (t :: rest)).trans (hsplit ▸ List.take_prefix _ _)
    rw [List.extract_eq_take_drop, Nat.add_sub_cancel_left, ← List.prefix_iff_eq_take.mp hprefix]
  have hbrace : ts[start + body.length]? = some t := by
    have hinside : ((ts.drop start).take (stop - start))[body.length]? =
        (ts.drop start)[body.length]? := List.getElem?_take_of_lt (by omega)
    rw [← List.getElem?_drop, ← hinside, hsplit]
    simp
  refine ⟨by omega, ⟨Nat.le_add_right _ _, by simp [hbrace, ht], ?_⟩, hbody⟩
  rw [hbody]
  exact balanced_iff.mpr ⟨hopen, heven⟩

end ClosesAt

/-! ### Streams -/

namespace Stream

/-- The tokens from an index on, up to a tear. -/
lemma viewFrom_eq (ts : List (Token P)) (n : Nat) {i : Nat} (h : i ≤ ts.length) :
    viewFrom ts n i = (ts.extract i (i + n), decide (ts.length < i + n)) := by
  induction n generalizing i with
  | zero =>
    have hin : ¬ ts.length < i := by omega
    simp [viewFrom, List.extract_eq_take_drop, hin]
  | succ n ih =>
    have hindex : index? ts i = ts[i]? := by simp [index?]
    rw [viewFrom, hindex]
    cases ht : ts[i]? with
    | none =>
      have hlength : ts.length = i := by
        have := List.getElem?_eq_none_iff.mp ht
        omega
      simp [List.extract_eq_take_drop, hlength]
    | some t =>
      have hlt : i < ts.length := (List.getElem?_eq_some_iff.mp ht).1
      have hrest := ih (i := i + 1) hlt
      have hcast : ((i : Int) + 1) = ((i + 1 : Nat) : Int) := by omega
      have hstop : i + 1 + n = i + (n + 1) := by omega
      simp only [hcast, hrest, hstop]
      rw [extract_eq_cons ht (by omega)]

variable {s : Stream P} {start stop : Nat}

lemma atEnd_eq (hpos : s.pos = .int start) (hstop : s.stop = .int stop) :
    s.atEnd = .ok (decide (stop ≤ start)) := by
  rw [atEnd, hpos, hstop, Data.atMost_int]
  simp

/-- The tokens from the place of a stream to its end, and whether the end lies beyond them. -/
lemma view_eq (hpos : s.pos = .int start) (hstop : s.stop = .int stop) (hle : start ≤ stop)
    (hin : start ≤ s.tokens.length) :
    s.view = .ok (s.tokens.extract start stop, decide (s.tokens.length < stop)) := by
  have hplace : (Data.int start).quantity = .ok (.whole start) := rfl
  have hend : (Data.int stop).quantity = .ok (.whole stop) := rfl
  rw [view, atEnd_eq hpos hstop, ok_bind]
  rcases hle.eq_or_lt with rfl | hlt
  · have hempty : s.tokens.extract start start = [] := by simp [List.extract_eq_take_drop]
    simp only [le_refl, decide_true, if_true, hempty, hin.not_gt, decide_false]
    rfl
  · have hroom : room s.tokens start (.whole stop) = stop - start := by
      simp only [room]
      omega
    simp only [hlt.not_ge, decide_false, Bool.false_eq_true, if_false, hpos, hstop, hplace, hend,
      ok_bind, hroom, viewFrom_eq _ _ hin, Nat.add_sub_cancel' hle]
    rfl

lemma advance_eq (hpos : s.pos = .int start) (n : Nat) :
    s.advance n = .ok { s with pos := .int (start + n : Nat) } := by
  have hplace : (Data.int start).quantity = .ok (.whole start) := rfl
  have hsum : (Quantity.whole start).add (.whole n) = .ok (.whole (start + n : Nat)) := by
    simp [Quantity.add, Quantity.combine]
  rw [advance]
  split_ifs with hn
  · rw [hn, Nat.add_zero, ← hpos]
    rfl
  · rw [hpos, hplace, ok_bind, hsum]
    rfl

/-- A stream passes over a block to behind the brace that closes it. -/
lemma skipBlock_of_closesAt {close : Nat} (hpos : s.pos = .int start) (hstop : s.stop = .int stop)
    (hin : start ≤ s.tokens.length) (hclose : close < stop) (h : ClosesAt s.tokens start close) :
    s.skipBlock = (.ok (.int close), { s with pos := .int (close + 1 : Nat) }) := by
  have hlength : (s.tokens.extract start close).length = close - start := by
    obtain ⟨t, ht, -⟩ := (Option.any_eq_true _ _).mp h.brace
    have hlt := (List.getElem?_eq_some_iff.mp ht).1
    simp only [List.extract_eq_take_drop, List.length_take, List.length_drop]
    omega
  have hplace : (Data.int start).quantity = .ok (.whole start) := rfl
  have hsum : (Quantity.whole start).add (.whole (close - start : Nat)) = .ok (.whole close) := by
    have hle := h.le
    simp only [Quantity.add, Quantity.combine, Except.ok.injEq, Quantity.whole.injEq]
    omega
  have hbehind : start + (close - start + 1) = close + 1 := by
    have hle := h.le
    omega
  rw [skipBlock, reading, view_eq hpos hstop (h.le.trans hclose.le) hin]
  simp only [h.takeBlock hclose, hlength, advance_eq hpos, hpos, hplace, ok_bind, hsum, hbehind]
  rfl

/-- Where no brace closes the block, a stream comes to its end, or to a tear before it. -/
lemma skipBlock_of_open (hpos : s.pos = .int start) (hstop : s.stop = .int stop)
    (hle : start ≤ stop) (hin : start ≤ s.tokens.length)
    (h : ∀ close < stop, ¬ ClosesAt s.tokens start close) :
    s.skipBlock =
      if stop ≤ s.tokens.length then (.ok (.int stop), { s with pos := .int stop })
      else (.error .tokenOutOfRange, { s with pos := .int s.tokens.length }) := by
  rcases hblock : takeBlock 0 (s.tokens.extract start stop) with ⟨body, _ | rest⟩
  · have hbehind : start + body.length = min stop s.tokens.length := by
      rw [takeBlock_eq_none hblock, List.extract_eq_take_drop, List.length_take, List.length_drop]
      omega
    rw [skipBlock, reading, view_eq hpos hstop hle hin]
    simp only [hblock, advance_eq hpos, hbehind, hstop]
    split_ifs with htorn hinside hinside
    · exact absurd hinside (by simpa using htorn)
    · rw [min_eq_right (by omega)]
    · rw [min_eq_left hinside]
    · exact absurd htorn (by simpa using hinside)
  · obtain ⟨hclose, hcloses, -⟩ := closesAt_of_takeBlock hblock
    exact absurd hcloses (h _ hclose)

end Stream

/-! ### Macros and measures -/

/-- A block that is cut out of a row of tokens: it begins behind a brace at the place `start`, and a
stream of all tokens passes over it to the place `close`. -/
structure Captures (ts : List (Token P)) (start close : Nat) (body rest : List (Token P)) :
    Prop where
  opens : 0 < start ∧ ts[start - 1]?.any (·.isPunct .openBrace) = true
  le : start ≤ close
  inside : close ≤ ts.length
  skips : ∀ s : Stream P, s.tokens = ts → s.pos = .int start → s.stop = .int ts.length →
    s.skipBlock.1 = .ok (.int close)
  body_eq : body = ts.extract start close
  rest_eq : rest = ts.drop (close + 1)
  /-- Where the block is closed, its braces match. -/
  balanced : close < ts.length → Balanced body

/-- What is taken behind an opening brace is cut out of the tokens around it. -/
lemma exists_captures_drop (ts : List (Token P)) {start : Nat} {t : Token P} (hstart : 0 < start)
    (hopen : ts[start - 1]? = some t) (ht : t.isPunct .openBrace = true) :
    ∃ close, Captures ts start close (takeBlock 0 (ts.drop start)).1
      ((takeBlock 0 (ts.drop start)).2.getD []) := by
  have hin : start ≤ ts.length := by
    have := (List.getElem?_eq_some_iff.mp hopen).1
    omega
  have hdrop : ts.extract start ts.length = ts.drop start := by
    rw [List.extract_eq_take_drop, List.take_of_length_le (by simp)]
  rcases hblock : takeBlock 0 (ts.drop start) with ⟨body, _ | rest⟩
  · have hnone : ∀ close < ts.length, ¬ ClosesAt ts start close := by
      intro close hclose hcloses
      have htake := hcloses.takeBlock hclose
      rw [hdrop, hblock] at htake
      cases htake
    refine ⟨ts.length, ⟨hstart, by simp [hopen, ht]⟩, hin, le_rfl, ?_, ?_, by simp,
      fun hlt => by omega⟩
    · rintro s rfl hpos hstop
      rw [Stream.skipBlock_of_open hpos hstop hin hin hnone, if_pos le_rfl]
    · rw [takeBlock_eq_none hblock, hdrop]
  · obtain ⟨hclose, hcloses, hbody⟩ := closesAt_of_takeBlock (hdrop ▸ hblock)
    refine ⟨start + body.length, ⟨hstart, by simp [hopen, ht]⟩, hcloses.le, hclose.le, ?_,
      hbody.symm, ?_, ?_⟩
    · rintro s rfl hpos hstop
      rw [Stream.skipBlock_of_closesAt hpos hstop hin hclose hcloses]
    · obtain ⟨u, -, hsplit, -⟩ := takeBlock_eq_some hblock
      rw [Nat.add_assoc, ← List.drop_drop, hsplit, ← List.drop_drop, List.drop_left]
      rfl
    · exact fun _ => hbody ▸ hcloses.balanced

lemma exists_captures {ts after : List (Token P)} {p : P}
    (h : ⟨.punct .openBrace, p⟩ :: after <:+ ts) :
    ∃ start close,
      Captures ts start close (takeBlock 0 after).1 ((takeBlock 0 after).2.getD []) := by
  obtain ⟨front, rfl⟩ := h
  have hafter : (front ++ ⟨.punct .openBrace, p⟩ :: after).drop (front.length + 1) = after := by
    rw [← List.drop_drop, List.drop_left]
    rfl
  have hcaptures := exists_captures_drop (front ++ ⟨.punct .openBrace, p⟩ :: after)
    (t := ⟨.punct .openBrace, p⟩) (Nat.succ_pos front.length) (by simp) rfl
  rw [hafter] at hcaptures
  exact ⟨_, hcaptures⟩

def MacroBlock.names (b : MacroBlock P) : List String :=
  (b.params.map fun t => bareName t.value).eraseDups

lemma exists_declareParams (name : String) (params : List (Token P)) (c : Context P) :
    ∃ d, eval (declareParams name params) c =
      .ok ((params.map fun t => bareName t.value).eraseDups, d) := by
  -- from the end on: one more parameter is looked up among the names before it
  induction params using List.reverseRecOn with
  | nil => exact ⟨c, rfl⟩
  | append_singleton params t ih =>
    obtain ⟨d, hd⟩ := ih
    rw [declareParams] at hd ⊢
    rw [List.foldlM_append, eval_bind, hd, ok_bind, List.map_append, List.map_singleton,
      eraseDups_concat, List.foldlM_cons]
    simp only [List.mem_eraseDups]
    split_ifs
    · exact ⟨_, rfl⟩
    · exact ⟨_, rfl⟩

/-- A macro with a body is put under its name, with the names of its parameters. -/
lemma eval_defineMacro {b : MacroBlock P} {body : List (Token P)} (hbody : b.body = some body)
    (c : Context P) :
    ∃ d, eval (defineMacro b) c = .ok (some ⟨b.name, b.names, body⟩, d) ∧
      get? b.name d.macros = some ⟨b.name, b.names, body⟩ := by
  obtain ⟨d, hparams⟩ := exists_declareParams b.name b.params c
  refine ⟨{ d with macros := put b.name ⟨b.name, b.names, body⟩ d.macros }, ?_, ?_⟩
  · rw [defineMacro, eval_bind, hparams, ok_bind, hbody]
    rfl
  · simp only [get?_put, if_true]

/-- A macro is put under its name with the body that was read. -/
lemma exists_defineMacro {b : MacroBlock P} {body : List (Token P)} (hbody : b.body = some body)
    (c : Context P) :
    ∃ m d, eval (defineMacro b) c = .ok (some m, d) ∧ get? b.name d.macros = some m ∧
      m.body = body := by
  obtain ⟨d, hdefine, hget⟩ := eval_defineMacro hbody c
  exact ⟨_, d, hdefine, hget, rfl⟩

/-- The body of a macro is a block of the text it is read from. -/
lemma exists_captures_readMacro {ts : List (Token P)} {body : List (Token P)}
    (h : (readMacro ts).1.body = some body) :
    ∃ start close, Captures ts start close body (readMacro ts).2 := by
  rw [readMacro_eq] at h ⊢
  dsimp only at h ⊢
  cases hopen : behindOpen? (skipPunct .equals (readParamList ts.tail.tail).2) with
  | none => simp [hopen] at h
  | some after =>
    obtain rfl : (takeBlock 0 after).1 = body := by simpa [hopen] using h
    obtain ⟨p, hp⟩ := behindOpen?_eq_some hopen
    refine exists_captures (p := p) ?_
    rw [← hp]
    exact (((skipPunct_suffix .equals _).trans (readParamList_suffix _)).trans
      (List.tail_suffix _)).trans (List.tail_suffix ts)

/-- The body of a measure is a block of the text it is read from. -/
lemma exists_captures_readMeasure {ts : List (Token P)} {body : List (Token P)}
    (h : (readMeasure ts).1.body = some body) :
    ∃ start close, Captures ts start close body (readMeasure ts).2 := by
  rw [readMeasure_eq] at h ⊢
  cases hopen : behindOpen? (skipSymbol ts.tail) with
  | none => simp [hopen] at h
  | some after =>
    obtain rfl : (takeBlock 0 after).1 = body := by simpa [hopen] using h
    obtain ⟨p, hp⟩ := behindOpen?_eq_some hopen
    refine exists_captures (p := p) ?_
    rw [← hp]
    exact (skipSymbol_suffix _).trans (List.tail_suffix ts)

/-- Played in its place, a block is played as its body. -/
lemma Captures.run_replay {ts body rest : List (Token P)} {start close : Nat}
    (h : Captures ts start close body rest) {w : Window P} (htokens : w.tokens = ts)
    (hstop : w.stop = close) (index base : Int) (c : Context P) :
    (w.replay index base start).run c =
      (playEntries (readEntries c.defines body) index base >>= fun _ => pure close).run c := by
  have hat : w.At start body := by
    refine ⟨hstop ▸ h.le, ?_⟩
    rw [htokens, hstop, List.drop_take, h.body_eq, List.extract_eq_take_drop]
  rw [Window.run_replay hat, hstop]

/-- **A block ends at the brace that belongs to it.** Behind an opening brace, a stream passes over
a block to the first closing brace with as many blocks opened as closed before it and none closed
before it was opened, and stands behind this brace then. Without such a brace it comes to its end;
only where its end lies beyond the tokens, reading on fails at the last of them. What is kept as the
body of a macro, and what is played of a measure, stands between these places, so its braces match
if the block is closed. -/
theorem skipBlock_captures :
    (∀ (s : Stream P) (start stop : Nat), s.pos = .int start → s.stop = .int stop →
      start ≤ stop → start ≤ s.tokens.length →
      (∀ close, IsLeast {q | q < stop ∧ ClosesAt s.tokens start q} close →
        s.skipBlock = (.ok (.int close), { s with pos := .int (close + 1 : Nat) })) ∧
      ((∀ q < stop, ¬ ClosesAt s.tokens start q) →
        s.skipBlock =
          if stop ≤ s.tokens.length then (.ok (.int stop), { s with pos := .int stop })
          else (.error .tokenOutOfRange, { s with pos := .int s.tokens.length }))) ∧
    (∀ ts body : List (Token P), (readMacro ts).1.body = some body →
      ∃ start close, Captures ts start close body (readMacro ts).2 ∧
        ∀ c, ∃ m d, eval (defineMacro (readMacro ts).1) c = .ok (some m, d) ∧
          get? (readMacro ts).1.name d.macros = some m ∧ m.body = body) ∧
    ∀ ts body : List (Token P), (readMeasure ts).1.body = some body →
      ∃ start close, Captures ts start close body (readMeasure ts).2 ∧
        ∀ w : Window P, w.tokens = ts → w.stop = close → ∀ index base c,
          (w.replay index base start).run c =
            (playEntries (readEntries c.defines body) index base >>=
              fun _ => pure close).run c := by
  refine ⟨fun s start stop hpos hstop hle hin => ⟨fun close hclose => ?_, fun hopen => ?_⟩,
    fun ts body hbody => ?_, fun ts body hbody => ?_⟩
  · obtain ⟨⟨hlt, hcloses⟩, -⟩ := hclose
    exact Stream.skipBlock_of_closesAt hpos hstop hin hlt hcloses
  · exact Stream.skipBlock_of_open hpos hstop hle hin hopen
  · obtain ⟨start, close, hcaptures⟩ := exists_captures_readMacro hbody
    exact ⟨start, close, hcaptures, exists_defineMacro hbody⟩
  · obtain ⟨start, close, hcaptures⟩ := exists_captures_readMeasure hbody
    exact ⟨start, close, hcaptures, fun w htokens hstop => hcaptures.run_replay htokens hstop⟩

/-- A block in a block, and a brace too many behind them. -/
def nestedBlock : Stream Unit where
  tokens := [mark .openBrace, mark .openBrace, mark .closeBrace, sign "c", mark .closeBrace,
    mark .closeBrace]
  pos := .int 1
  stop := .int 6

theorem skipBlock_captures_nested :
    IsLeast {q | q < 6 ∧ ClosesAt nestedBlock.tokens 1 q} 4 ∧
      nestedBlock.skipBlock = (.ok (.int 4), { nestedBlock with pos := .int 5 }) := by
  have hfirst : ∀ q < 4, ¬ ClosesAt nestedBlock.tokens 1 q := by decide
  have hleast : IsLeast {q | q < 6 ∧ ClosesAt nestedBlock.tokens 1 q} 4 := by
    refine ⟨⟨by decide, by decide⟩, fun q hq => ?_⟩
    by_contra hlt
    exact hfirst q (by omega) hq.2
  obtain ⟨hskip, -⟩ := skipBlock_captures
  exact ⟨hleast, (hskip nestedBlock 1 6 rfl rfl (by decide) (by decide)).1 4 hleast⟩

end Partitura
