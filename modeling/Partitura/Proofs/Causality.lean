import Partitura.Proofs.Braces
import Partitura.Proofs.Changes
import Partitura.Proofs.WellFormed

/-!
A text behind a closed block cannot reach back.

`endsClosed` says that walking some tokens ends with a declaration whose block the last token
closes. No reader has looked beyond that token, so a walk that goes on reads the same declarations
and then those of the rest. What they did to the state was done before the rest was read, and all
the rest can do is add.
-/

namespace Partitura

open Number Run

variable {P : Type}

/-! ### Closed declarations -/

/-- What follows the brace that closes the block of a declaration, from behind its keyword on; none
if there is no block or it is left open. Settings and groups end at the first closing brace, macros
and measures at the one that belongs to their opening brace. -/
def behindBlock? (t : Token P) (ts : List (Token P)) : Option (List (Token P)) :=
  if t.isWord "meta" then (behindOpen? ts).bind behindClose?
  else if t.isWord "group" then
    (behindOpen? (seekBlock (readAttributes (readGroupLabel t.text ts).2).2)).bind behindClose?
  else if t.isWord "def" then none
  else if t.isWord "macro" then
    (behindOpen? (skipPunct .equals (readParamList ts.tail).2)).bind fun body =>
      (takeBlock 0 body).2
  else if t.isWord "measure" then
    (behindOpen? (skipSymbol ts)).bind fun body => (takeBlock 0 body).2
  else none

/-- Whether walking the tokens ends with a declaration whose block the last token closes. -/
def endsClosed : List (Token P) → Bool
  | [] => false
  | t :: ts =>
    if (behindBlock? t ts).any List.isEmpty then true
    else
      match h : readDeclaration? t ts with
      | some (_, rest) =>
        have := length_readDeclaration? h
        endsClosed rest
      | none => endsClosed ts
termination_by ts => ts.length

lemma behindBlock?_eq_nil {t : Token P} {ts : List (Token P)}
    (h : (behindBlock? t ts).any List.isEmpty = true) : behindBlock? t ts = some [] := by
  cases hblock : behindBlock? t ts with
  | none => simp [hblock] at h
  | some rest => simpa [hblock] using h

section Append

variable {t : Token P} {ts : List (Token P)}

lemma readHeader_append (hts : ts ≠ [])
    (hclosed : ∀ body, behindOpen? ts = some body → behindClose? body ≠ none)
    (us : List (Token P)) :
    readHeader (t :: (ts ++ us)) = Prod.map id (· ++ us) (readHeader (t :: ts)) := by
  simp only [readHeader_eq, List.tail_cons, behindOpen?_append hts]
  cases hopen : behindOpen? ts with
  | none => rfl
  | some body => simp [readSettings_append (hclosed body hopen)]

lemma readInstrument_append {b : Token P} {pre post : List (Token P)} (hb : b.Brace)
    (hts : ts = pre ++ b :: post) (us : List (Token P)) :
    readInstrument (t :: (ts ++ us)) = Prod.map id (· ++ us) (readInstrument (t :: ts)) := by
  rw [hts, List.append_assoc, List.cons_append, readInstrument_brace hb, readInstrument_brace hb]
  simp [Prod.map]

lemma readGroupLabel_settled {b : Token P} (hb : b.Brace) (keyword : String)
    (pre : List (Token P)) : ∃ label rest, ∀ post,
      readGroupLabel keyword (pre ++ b :: post) = (label, rest ++ b :: post) := by
  by_cases hpre : pre = []
  · subst hpre
    exact ⟨keyword, [], fun post => by cases hb <;> rfl⟩
  · exact ⟨_, _, readGroupLabel_brace hb keyword hpre⟩

lemma readGroup_append {b : Token P} {pre post : List (Token P)} (hb : b.Brace)
    (hts : ts = pre ++ b :: post)
    (hclosed : ∀ body, behindOpen? (seekBlock (readAttributes (readGroupLabel t.text ts).2).2) =
      some body → behindClose? body ≠ none) (us : List (Token P)) :
    readGroup (t :: (ts ++ us)) = Prod.map id (· ++ us) (readGroup (t :: ts)) := by
  obtain ⟨label, rest, hlabel⟩ := readGroupLabel_settled hb t.text pre
  generalize hfound : seekBlock (readAttributes rest).2 = found
  have hsize := (seekBlock_group_suffix t ts).length_le
  rw [hts, hlabel, readAttributes_brace hb, Prod.map_snd, seekBlock_brace hb, hfound]
    at hclosed hsize
  have hbehind : behindOpen? (found ++ b :: (post ++ us)) =
      (behindOpen? (found ++ b :: post)).map (· ++ us) := by
    rw [← behindOpen?_append (by simp), List.append_assoc, List.cons_append]
  rw [hts, List.append_assoc, List.cons_append, readGroup_eq, readGroup_eq]
  simp only [List.head?_cons, textOf, List.tail_cons, hlabel, readAttributes_brace hb,
    seekBlock_brace hb, hfound, Prod.map_fst, Prod.map_snd, id_eq, hbehind]
  cases hopen : behindOpen? (found ++ b :: post) with
  | none => simp
  | some body =>
    obtain ⟨p, hbody⟩ := behindOpen?_eq_some hopen
    have hlength : (t :: (pre ++ b :: (post ++ us))).length =
        (t :: (pre ++ b :: post)).length + us.length := by
      simp only [List.length_cons, List.length_append]
      omega
    rw [hbody] at hsize
    simp only [Option.map_some, hlength]
    rw [readMembers_append (by simp only [List.length_cons] at hsize ⊢; omega) (hclosed body hopen)]
    rfl

lemma readMacro_append (hhead : skipPunct .equals (readParamList ts.tail).2 ≠ [])
    (hclosed : ∀ body, behindOpen? (skipPunct .equals (readParamList ts.tail).2) = some body →
      (takeBlock 0 body).2 ≠ none) (us : List (Token P)) :
    readMacro (t :: (ts ++ us)) = Prod.map id (· ++ us) (readMacro (t :: ts)) := by
  have hparams : (readParamList ts.tail).2 ≠ [] := by
    intro h
    rw [h] at hhead
    exact hhead rfl
  have hts : ts ≠ [] := by
    rintro rfl
    exact hparams rfl
  have htail : (ts ++ us).tail = ts.tail ++ us := List.tail_append_of_ne_nil hts
  have hname : (ts ++ us).head? = ts.head? := List.head?_append_of_ne_nil _ hts
  simp only [readMacro_eq, List.tail_cons, htail, hname, readParamList_append hparams, Prod.map_fst,
    Prod.map_snd, skipPunct_append .equals hparams, behindOpen?_append hhead]
  cases hopen : behindOpen? (skipPunct .equals (readParamList ts.tail).2) with
  | none => rfl
  | some body =>
    obtain ⟨rest, hrest⟩ := Option.ne_none_iff_exists'.mp (hclosed body hopen)
    simp [takeBlock_append hrest, hrest]

lemma readMeasure_append (hhead : skipSymbol ts ≠ [])
    (hclosed : ∀ body, behindOpen? (skipSymbol ts) = some body → (takeBlock 0 body).2 ≠ none)
    (us : List (Token P)) :
    readMeasure (t :: (ts ++ us)) = Prod.map id (· ++ us) (readMeasure (t :: ts)) := by
  have hts : ts ≠ [] := by
    rintro rfl
    exact hhead rfl
  have hrange : (ts ++ us).head? = ts.head? := List.head?_append_of_ne_nil _ hts
  simp only [readMeasure_eq, List.tail_cons, hrange, skipSymbol_append hts,
    behindOpen?_append hhead]
  cases hopen : behindOpen? (skipSymbol ts) with
  | none => rfl
  | some body =>
    obtain ⟨rest, hrest⟩ := Option.ne_none_iff_exists'.mp (hclosed body hopen)
    simp [takeBlock_append hrest, hrest]

/-- A closed declaration is the same whatever follows it. -/
lemma readDeclaration?_closed {rest : List (Token P)} (h : behindBlock? t ts = some rest) :
    ∃ d, readDeclaration? t ts = some (d, rest) ∧
      ∀ us, readDeclaration? t (ts ++ us) = some (d, rest ++ us) := by
  have hne {found body : List (Token P)} (hopen : behindOpen? found = some body) : found ≠ [] := by
    rintro rfl
    cases hopen
  unfold behindBlock? at h
  unfold readDeclaration?
  split_ifs at h ⊢ with hmeta hgroup hdef hmacro hmeasure
  · obtain ⟨body, hopen, hclose⟩ := Option.bind_eq_some_iff.mp h
    have hrest : (readHeader (t :: ts)).2 = rest := by
      rw [readHeader_eq, List.tail_cons, hopen]
      exact readSettings_behind hclose
    refine ⟨_, by rw [hrest], fun us => ?_⟩
    rw [readHeader_append (hne hopen) (by simp [hopen, hclose]), Prod.map_fst, Prod.map_snd, hrest]
    rfl
  · obtain ⟨body, hopen, hclose⟩ := Option.bind_eq_some_iff.mp h
    obtain ⟨p, hbody⟩ := behindOpen?_eq_some hopen
    obtain ⟨pre, hts⟩ := seekBlock_group_suffix t ts
    rw [hbody] at hts
    have hrest : (readGroup (t :: ts)).2 = rest := by
      have hsize : body.length ≤ (t :: ts).length := by
        simp only [← hts, List.length_cons, List.length_append]
        omega
      simp only [readGroup_eq, List.head?_cons, textOf, List.tail_cons, hopen]
      exact readMembers_behind hsize hclose
    refine ⟨_, by rw [hrest], fun us => ?_⟩
    rw [readGroup_append (.opens p) hts.symm (by simp [hopen, hclose]), Prod.map_fst, Prod.map_snd,
      hrest]
    rfl
  · obtain ⟨body, hopen, hclose⟩ := Option.bind_eq_some_iff.mp h
    have hrest : (readMacro (t :: ts)).2 = rest := by
      simp [readMacro_eq, hopen, hclose]
    refine ⟨_, by rw [hrest], fun us => ?_⟩
    rw [readMacro_append (hne hopen) (by simp [hopen, hclose]), Prod.map_fst, Prod.map_snd, hrest]
    rfl
  · obtain ⟨body, hopen, hclose⟩ := Option.bind_eq_some_iff.mp h
    have hrest : (readMeasure (t :: ts)).2 = rest := by
      simp [readMeasure_eq, hopen, hclose]
    refine ⟨_, by rw [hrest], fun us => ?_⟩
    rw [readMeasure_append (hne hopen) (by simp [hopen, hclose]), Prod.map_fst, Prod.map_snd, hrest]
    rfl

/-- So is a declaration behind which a closing brace is left. -/
lemma readDeclaration?_append {pre rest : List (Token P)} {p : P} {d : Declaration P}
    (hts : ts = pre ++ [⟨.punct .closeBrace, p⟩]) (h : readDeclaration? t ts = some (d, rest))
    (hrest : rest ≠ []) (us : List (Token P)) :
    readDeclaration? t (ts ++ us) = some (d, rest ++ us) := by
  have hne : ts ≠ [] := by simp [hts]
  unfold readDeclaration? at h ⊢
  split_ifs at h ⊢ with hmeta hgroup hdef hmacro hmeasure
  all_goals
    obtain ⟨rfl, rfl⟩ := Prod.mk.inj (Option.some.inj h)
  · rw [readHeader_append hne]
    · rfl
    · intro body hopen hclose
      refine hrest ?_
      rw [readHeader_eq, List.tail_cons, hopen]
      exact readSettings_unclosed hclose
  · rw [readGroup_append (.closes p) hts]
    · rfl
    · intro body hopen hclose
      refine hrest ?_
      simp only [readGroup_eq, List.head?_cons, textOf, List.tail_cons, hopen]
      exact readMembers_unclosed _ hclose
  · rw [readInstrument_append (.closes p) hts]
    rfl
  · rw [readMacro_append]
    · rfl
    · intro hhead
      exact hrest (by simp [readMacro_eq, hhead, behindOpen?])
    · intro body hopen hclose
      exact hrest (by simp [readMacro_eq, hopen, hclose])
  · rw [readMeasure_append]
    · rfl
    · intro hhead
      exact hrest (by simp [readMeasure_eq, hhead, behindOpen?])
    · intro body hopen hclose
      exact hrest (by simp [readMeasure_eq, hopen, hclose])

end Append

/-! ### Texts that end closed -/

/-- The brace that closes a block stands before what follows it. -/
lemma takeBlock_close_suffix {depth : Nat} {ts rest : List (Token P)}
    (h : (takeBlock depth ts).2 = some rest) : ∃ p, ⟨.punct .closeBrace, p⟩ :: rest <:+ ts := by
  fun_induction takeBlock depth ts with
  | case1 => cases h
  | case3 t ts ht =>
    obtain ⟨l, p⟩ := t
    obtain rfl : l = .punct .closeBrace := ht
    obtain rfl : ts = rest := by simpa using h
    exact ⟨p, List.suffix_rfl⟩
  | case2 depth t ts ht body behind heq ih | case4 t ts ht depth body behind heq ih
  | case5 depth t ts body behind heq hopen hclose ih =>
    obtain ⟨p, hp⟩ := ih (by simpa [heq] using h)
    exact ⟨p, hp.trans (List.suffix_cons t ts)⟩

lemma behindClose?_close_suffix {ts rest : List (Token P)} (h : behindClose? ts = some rest) :
    ∃ p, ⟨.punct .closeBrace, p⟩ :: rest <:+ ts := by
  obtain ⟨pre, p, rfl, -⟩ := behindClose?_eq_some h
  exact ⟨p, List.suffix_append _ _⟩

lemma behindBlock?_close_suffix {t : Token P} {ts rest : List (Token P)}
    (h : behindBlock? t ts = some rest) : ∃ p, ⟨.punct .closeBrace, p⟩ :: rest <:+ ts := by
  have hinside {found body : List (Token P)} (hfound : found <:+ ts)
      (hopen : behindOpen? found = some body)
      (hclose : ∃ p, ⟨.punct .closeBrace, p⟩ :: rest <:+ body) :
      ∃ p, ⟨.punct .closeBrace, p⟩ :: rest <:+ ts := by
    obtain ⟨q, rfl⟩ := behindOpen?_eq_some hopen
    obtain ⟨p, hp⟩ := hclose
    exact ⟨p, hp.trans ((List.suffix_cons _ _).trans hfound)⟩
  unfold behindBlock? at h
  split_ifs at h
  all_goals obtain ⟨body, hopen, hclose⟩ := Option.bind_eq_some_iff.mp h
  · exact hinside List.suffix_rfl hopen (behindClose?_close_suffix hclose)
  · exact hinside (seekBlock_group_suffix t ts) hopen (behindClose?_close_suffix hclose)
  · have hsuffix := ((skipPunct_suffix .equals _).trans (readParamList_suffix ts.tail)).trans
      (List.tail_suffix ts)
    exact hinside hsuffix hopen (takeBlock_close_suffix hclose)
  · exact hinside (skipSymbol_suffix ts) hopen (takeBlock_close_suffix hclose)

lemma endsClosed_close_suffix {ts : List (Token P)} (h : endsClosed ts = true) :
    ∃ p, [⟨.punct .closeBrace, p⟩] <:+ ts := by
  fun_induction endsClosed ts with
  | case1 => cases h
  | case2 t ts hclosed =>
    obtain ⟨p, hp⟩ := behindBlock?_close_suffix (behindBlock?_eq_nil hclosed)
    exact ⟨p, hp.trans (List.suffix_cons t ts)⟩
  | case3 t ts hopen d rest hd _ ih =>
    obtain ⟨p, hp⟩ := ih h
    exact ⟨p, hp.trans ((readDeclaration?_suffix hd).trans (List.suffix_cons t ts))⟩
  | case4 t ts hopen hd ih =>
    obtain ⟨p, hp⟩ := ih h
    exact ⟨p, hp.trans (List.suffix_cons t ts)⟩

lemma not_close_of_readDeclaration? {t : Token P} {ts rest : List (Token P)} {d : Declaration P}
    (h : readDeclaration? t ts = some (d, rest)) : t.isPunct .closeBrace = false := by
  obtain ⟨mark | _ | _ | _, p⟩ := t
  · cases h
  all_goals rfl

lemma readDeclaration?_eq_none {t : Token P} {ts : List (Token P)}
    (h : readDeclaration? t ts = none) (us : List (Token P)) : readDeclaration? t us = none := by
  unfold readDeclaration? at h ⊢
  split_ifs at h ⊢
  rfl

/-- **The declarations of a text behind a closed block follow those before it.** -/
lemma readDeclarations_append {ts : List (Token P)} (h : endsClosed ts = true)
    (us : List (Token P)) :
    readDeclarations false (ts ++ us) = readDeclarations false ts ++ readDeclarations false us := by
  fun_induction endsClosed ts with
  | case1 => cases h
  | case2 t ts hclosed =>
    obtain ⟨d, hd, happend⟩ := readDeclaration?_closed (behindBlock?_eq_nil hclosed)
    rw [List.cons_append, readDeclarations_cons, readDeclarations_cons, hd, happend,
      not_close_of_readDeclaration? hd]
    simp [readDeclarations]
  | case3 t ts hopen d rest hd _ ih =>
    obtain ⟨p, hp⟩ := endsClosed_close_suffix h
    obtain ⟨pre, hts⟩ := hp.trans (readDeclaration?_suffix hd)
    have hrest : rest ≠ [] := by
      rintro rfl
      simp [endsClosed] at h
    rw [List.cons_append, readDeclarations_cons, readDeclarations_cons, hd,
      readDeclaration?_append hts.symm hd hrest, not_close_of_readDeclaration? hd]
    simp [ih h]
  | case4 t ts hopen hd ih =>
    rw [List.cons_append, readDeclarations_cons, readDeclarations_cons, hd,
      readDeclaration?_eq_none hd, ih h]
    simp

/-! ### Walking on -/

/-- What a walk has made: instruments, events, and what was found wrong, each in order. -/
structure Context.Extends (c d : Context P) : Prop where
  instruments : c.instruments <+: d.instruments
  events : c.timeline.events <+: d.timeline.events
  found : c.found <+: d.found

lemma Change.extends {c d : Context P} (h : Change c d) : c.Extends d := by
  cases h with
  | define i => exact ⟨List.prefix_append _ _, List.prefix_rfl, List.prefix_rfl⟩
  | report r =>
    refine ⟨List.prefix_rfl, List.prefix_rfl, ?_⟩
    rw [Context.found, Context.found, List.reverse_prefix]
    exact List.suffix_cons _ _
  | event e =>
    refine ⟨List.prefix_rfl, ?_, List.prefix_rfl⟩
    unfold Timeline.events Timeline.add
    split
    · exact List.prefix_rfl
    · rw [List.reverse_prefix]
      exact List.suffix_cons _ _
  | _ => exact ⟨List.prefix_rfl, List.prefix_rfl, List.prefix_rfl⟩

lemma Changes.extends {c d : Context P} (h : Changes c d) : c.Extends d := by
  induction h with
  | refl => exact ⟨List.prefix_rfl, List.prefix_rfl, List.prefix_rfl⟩
  | tail _ hstep ih =>
    have hlast := Change.extends hstep
    exact ⟨ih.instruments.trans hlast.instruments, ih.events.trans hlast.events,
      ih.found.trans hlast.found⟩

/-- Between sorted lists it is enough to compare what has the same key. -/
lemma sublist_of_filter_sublist {α : Type} {key : α → Int} {xs ys : List α}
    (hxs : xs.Pairwise fun a b => key a ≤ key b) (hys : ys.Pairwise fun a b => key a ≤ key b)
    (h : ∀ k, (xs.filter (key · = k)).Sublist (ys.filter (key · = k))) : xs.Sublist ys := by
  induction ys generalizing xs with
  | nil =>
    cases xs with
    | nil => exact .slnil
    | cons x xs => simpa using h (key x)
  | cons y ys ih =>
    have hys' := List.pairwise_cons.mp hys
    -- either the first of `ys` is passed over, or both lists begin with it
    by_cases hpass : (xs.filter (key · = key y)).Sublist (ys.filter (key · = key y))
    · refine (ih hxs hys'.2 fun k => ?_).cons y
      by_cases hk : key y = k
      · exact hk ▸ hpass
      · simpa [hk] using h k
    · cases xs with
      | nil => exact absurd (List.nil_sublist _) hpass
      | cons x xs =>
        have hxs' := List.pairwise_cons.mp hxs
        have hle : key y ≤ key x := by
          have hx : x ∈ (y :: ys).filter (key · = key x) := (h (key x)).subset (by simp)
          rcases List.mem_cons.mp (List.mem_filter.mp hx).1 with rfl | hmem
          · exact le_rfl
          · exact hys'.1 x hmem
        have hkey : key x = key y := by
          by_contra hne
          have hnone : (x :: xs).filter (key · = key y) = [] := by
            simp only [List.filter_eq_nil_iff, decide_eq_true_eq, List.mem_cons]
            rintro z (rfl | hz) hzk
            · exact hne hzk
            · have := hxs'.1 z hz
              omega
          exact hpass (hnone ▸ List.nil_sublist _)
        have hboth := h (key y)
        simp only [List.filter_cons, hkey, decide_true, if_true] at hboth hpass
        cases hboth with
        | cons _ hskip => exact absurd hskip hpass
        | cons_cons _ hrest =>
          refine (ih hxs'.2 hys'.2 fun k => ?_).cons_cons y
          by_cases hk : key y = k
          · exact hk ▸ hrest
          · simpa [hk] using h k

/-- Events that were added do not change the order of the earlier ones in the score. -/
lemma Context.Extends.timeline_sublist {c d : Context P} (h : c.Extends d) :
    c.score.timeline.Sublist d.score.timeline := by
  have hc := c.timeline.sorted_isStableSort
  have hd := d.timeline.sorted_isStableSort
  show c.timeline.sorted.Sublist d.timeline.sorted
  refine sublist_of_filter_sublist hc.sorted hd.sorted fun k => ?_
  rw [hc.stable, hd.stable]
  exact h.events.sublist.filter _

def Run.walkTokens (ts : List (Token P)) : Run P Unit := declareAll (readDeclarations false ts)

/-- **A walk goes on where it stood.** Behind a text that ends closed, the walk through the rest
starts from the state that the text has left, and it only adds to what was made. -/
theorem walkTokens_append {ts : List (Token P)} (h : endsClosed ts = true) (us : List (Token P))
    (c : Context P) :
    (walkTokens (ts ++ us)).run c = (match (walkTokens ts).run c with
      | .ok _ d => (walkTokens us).run d
      | .error s d => .error s d) ∧
    ((walkTokens ts).leaves c).Extends ((walkTokens (ts ++ us)).leaves c) ∧
    ((walkTokens ts).leaves c).score.timeline.Sublist
      ((walkTokens (ts ++ us)).leaves c).score.timeline := by
  have hwalk : walkTokens (ts ++ us) = walkTokens ts >>= fun _ => walkTokens us := by
    rw [walkTokens, readDeclarations_append h, declareAll]
    exact List.forM_append
  have hextends : ((walkTokens ts).leaves c).Extends ((walkTokens (ts ++ us)).leaves c) := by
    rw [hwalk, leaves_bind]
    unfold leaves
    cases (walkTokens ts).run c with
    | ok _ d => exact (declareAll_writes _ d).extends
    | error s d => exact Changes.extends .refl
  refine ⟨?_, hextends, hextends.timeline_sublist⟩
  rw [hwalk, EStateM.run_bind]
  cases (walkTokens ts).run c <;> rfl

/-- A macro that is defined again behind a measure that has called it. -/
theorem walkTokens_append_refrain :
    let song := tokenize "def p macro M \x7b c \x7d measure 1 \x7b p: $M \x7d"
    let more := tokenize "macro M \x7b d e \x7d measure 2 \x7b p: $M \x7d"
    endsClosed song = true ∧
      ∃ d e, (walkTokens song).run (.start {} .shipped) = .ok () d ∧
        (walkTokens more).run d = .ok () e ∧
        (walkTokens (song ++ more)).run (.start {} .shipped) = .ok () e ∧
        d.timeline.events.length = 1 ∧ e.timeline.events.length = 3 ∧ d.Extends e := by
  intro song more
  have hclosed : endsClosed song = true := by decide +kernel
  obtain ⟨hrun, hextends, -⟩ := walkTokens_append hclosed more (.start {} .shipped)
  have hcounts : passes (walkTokens song) (.start {} .shipped) (fun _ d =>
      d.timeline.newest.length == 1 &&
        passes (walkTokens more) d fun _ e => e.timeline.newest.length == 3) = true := by
    decide +kernel
  obtain ⟨_, d, hsong, hcount⟩ := exists_of_passes hcounts
  rw [Bool.and_eq_true, beq_iff_eq] at hcount
  obtain ⟨_, e, hmore, hcount'⟩ := exists_of_passes hcount.2
  rw [beq_iff_eq] at hcount'
  rw [hsong] at hrun
  dsimp only at hrun
  rw [hmore] at hrun
  unfold leaves at hextends
  rw [hsong, hrun] at hextends
  refine ⟨hclosed, d, e, hsong, hmore, hrun, ?_, ?_, hextends⟩
  · simpa [Timeline.events] using hcount.1
  · simpa [Timeline.events] using hcount'

end Partitura
