import Mathlib.Data.List.Infix
import Partitura.Grammar.Arguments

/-!
What is read between parentheses.

A written list of arguments is read as just these arguments, however deep the parentheses in them
are nested and wherever empty ones stand (`readCallArgs_writtenArgs`). One empty argument alone
cannot be told from none. The readers for texts and for tokens collect the same arguments of any
tokens, also of a list that is never closed (`readTexts_readLists`). They part only where all
collected tokens are without text, as a pair of quotes is.
-/

namespace Partitura

variable {P : Type}

/-! ### Nesting -/

def openings (us : List (Token P)) : Nat := us.countP (·.isPunct .openParen)

def closings (us : List (Token P)) : Nat := us.countP (·.isPunct .closeParen)

/-- Tokens that stay within an argument, `depth` parentheses deep: they close no other parentheses
than these, have commas in parentheses only, and no bar or closing brace. -/
structure StaysWithin (depth : Nat) (us : List (Token P)) : Prop where
  closes : ∀ vs, vs <+: us → closings vs ≤ depth + openings vs
  commas : ∀ vs t, vs ++ [t] <+: us → t.isPunct .comma = true → closings vs < depth + openings vs
  marks : ∀ t ∈ us, t.isPunct .bar = false ∧ t.isPunct .closeBrace = false

structure IsArgument (us : List (Token P)) : Prop extends StaysWithin 0 us where
  balanced : openings us = closings us

instance [DecidableEq P] (depth : Nat) (us : List (Token P)) : Decidable (StaysWithin depth us) :=
  decidable_of_iff
    ((∀ vs ∈ us.inits, closings vs ≤ depth + openings vs) ∧
      (∀ vs ∈ us.inits, ∀ t ∈ us, vs ++ [t] ∈ us.inits → t.isPunct .comma = true →
        closings vs < depth + openings vs) ∧
      ∀ t ∈ us, t.isPunct .bar = false ∧ t.isPunct .closeBrace = false) <| by
    simp only [List.mem_inits]
    constructor
    · rintro ⟨hcloses, hcommas, hmarks⟩
      refine ⟨hcloses, fun vs t hvs => ?_, hmarks⟩
      exact hcommas vs ((List.prefix_append vs [t]).trans hvs) t (hvs.subset (by simp)) hvs
    · rintro ⟨hcloses, hcommas, hmarks⟩
      exact ⟨hcloses, fun vs _ t _ => hcommas vs t, hmarks⟩

instance [DecidableEq P] (us : List (Token P)) : Decidable (IsArgument us) :=
  decidable_of_iff (StaysWithin 0 us ∧ openings us = closings us)
    ⟨fun h => ⟨h.1, h.2⟩, fun h => ⟨h.toStaysWithin, h.balanced⟩⟩

lemma StaysWithin.tail {depth next : Nat} {t : Token P} {us : List (Token P)}
    (h : StaysWithin depth (t :: us)) (hnext : next + closings [t] = depth + openings [t]) :
    StaysWithin next us where
  closes vs hvs := by
    have hcons := h.closes (t :: vs) ((List.prefix_cons_inj t).mpr hvs)
    simp only [closings, openings, List.countP_cons, List.countP_nil] at hcons hnext ⊢
    omega
  commas vs u hvs hu := by
    have hcons := h.commas (t :: vs) u ((List.prefix_cons_inj t).mpr hvs) hu
    simp only [closings, openings, List.countP_cons, List.countP_nil] at hcons hnext ⊢
    omega
  marks u hu := h.marks u (List.mem_cons_of_mem t hu)

/-- A token within an argument is collected. -/
lemma readLists_collect {depth next : Nat} {t : Token P}
    (hnext : next + closings [t] = depth + openings [t])
    (hcomma : t.isPunct .comma = true → 0 < depth) (hbar : t.isPunct .bar = false)
    (hbrace : t.isPunct .closeBrace = false) (done : List (List (Token P)))
    (current ts : List (Token P)) :
    readLists depth done current (t :: ts) = readLists next done (t :: current) ts := by
  obtain ⟨lexeme, p⟩ := t
  rcases lexeme with mark | _ | _ | _
  · cases mark with
    | bar => cases hbar
    | closeBrace => cases hbrace
    | closeParen =>
      obtain rfl : next + 1 = depth := hnext
      rfl
    | openParen =>
      obtain rfl : next = depth + 1 := hnext
      rfl
    | comma =>
      obtain rfl : next = depth := hnext
      obtain ⟨d, rfl⟩ := Nat.exists_eq_add_one.mpr (hcomma rfl)
      rfl
    | _ =>
      obtain rfl : next = depth := hnext
      rfl
  all_goals
    obtain rfl : next = depth := hnext
    rfl

/-- What stays within an argument is collected, and reading goes on as deep as it has come. -/
lemma StaysWithin.readLists {depth depth' : Nat} {us : List (Token P)} (h : StaysWithin depth us)
    (hdepth : depth' + closings us = depth + openings us) (done : List (List (Token P)))
    (current rest : List (Token P)) :
    readLists depth done current (us ++ rest) =
      readLists depth' done (us.reverse ++ current) rest := by
  induction us generalizing depth current with
  | nil =>
    obtain rfl : depth' = depth := by simpa [closings, openings] using hdepth
    rfl
  | cons t us ih =>
    obtain ⟨next, hnext⟩ : ∃ next, next + closings [t] = depth + openings [t] :=
      ⟨_, Nat.sub_add_cancel (h.closes [t] ⟨us, rfl⟩)⟩
    have hus : depth' + closings us = next + openings us := by
      simp only [closings, openings, List.countP_cons, List.countP_nil] at hdepth hnext ⊢
      omega
    have hcomma (ht : t.isPunct .comma = true) : 0 < depth := h.commas [] t ⟨us, rfl⟩ ht
    obtain ⟨hbar, hbrace⟩ := h.marks t (by simp)
    calc Partitura.readLists depth done current (t :: (us ++ rest))
        = Partitura.readLists next done (t :: current) (us ++ rest) :=
          readLists_collect hnext hcomma hbar hbrace done current _
      _ = Partitura.readLists depth' done (us.reverse ++ t :: current) rest :=
          ih (h.tail hnext) hus (t :: current)
      _ = Partitura.readLists depth' done ((t :: us).reverse ++ current) rest := by simp

/-- An argument is collected whole. -/
lemma IsArgument.readLists {a : List (Token P)} (h : IsArgument a)
    (done : List (List (Token P))) (rest : List (Token P)) :
    readLists 0 done [] (a ++ rest) = readLists 0 done a.reverse rest := by
  have hdepth : 0 + closings a = 0 + openings a := by rw [h.balanced]
  rw [h.toStaysWithin.readLists hdepth, List.append_nil]

/-! ### Written lists -/

/-- The tokens of a list of arguments, from behind the opening parenthesis to the closing one, with
commas between the arguments. -/
inductive WrittenArgs : List (List (Token P)) → List (Token P) → Prop
  | none (p : P) : WrittenArgs [] [⟨.punct .closeParen, p⟩]
  | last (a : List (Token P)) (p : P) : WrittenArgs [a] (a ++ [⟨.punct .closeParen, p⟩])
  | more (a : List (Token P)) (p : P) {b : List (Token P)} {args : List (List (Token P))}
    {us : List (Token P)} (h : WrittenArgs (b :: args) us) :
    WrittenArgs (a :: b :: args) (a ++ ⟨.punct .comma, p⟩ :: us)

/-- One argument and those behind it are read behind the earlier ones. -/
lemma WrittenArgs.readLists_cons {args : List (List (Token P))} {us : List (Token P)}
    (h : WrittenArgs args us) (hargs : ∀ a ∈ args, IsArgument a) (hsome : args ≠ [])
    (done : List (List (Token P))) (hlone : done = [] → args ≠ [[]]) (rest : List (Token P)) :
    readLists 0 done [] (us ++ rest) = (done.reverse ++ args, rest) := by
  induction h generalizing done with
  | none p => contradiction
  | last a p =>
    have hkept : a = [] → done ≠ [] := by
      rintro rfl hdone
      exact hlone hdone rfl
    rw [List.append_assoc, (hargs a (by simp)).readLists]
    simpa [readLists, closeLists] using hkept
  | @more a p b args us _ ih =>
    have hbehind := ih (fun c hc => hargs c (by simp_all)) (by simp) (a :: done) (by simp)
    rw [List.append_assoc, (hargs a (by simp)).readLists]
    simpa [readLists] using hbehind

/-- **The arguments of a call are read as they are written**, whatever stands behind the list. A
list of one empty argument is written like one without any. -/
theorem readCallArgs_writtenArgs {args : List (List (Token P))} {us : List (Token P)}
    (hus : WrittenArgs args us) (hargs : ∀ a ∈ args, IsArgument a) (hblank : args ≠ [[]]) (p : P)
    (rest : List (Token P)) :
    readCallArgs (⟨.punct .openParen, p⟩ :: (us ++ rest)) = (args, rest) := by
  have hread : readCallArgs (⟨.punct .openParen, p⟩ :: (us ++ rest)) =
      readLists 0 [] [] (us ++ rest) := rfl
  rw [hread]
  cases args with
  | nil =>
    cases hus
    rfl
  | cons a args => exact hus.readLists_cons hargs (by simp) [] (fun _ => hblank) rest

/-- A call `(, $f(c, d), [e])` before a closing parenthesis: an empty argument, one with an inner
list, and a chord. -/
theorem readCallArgs_writtenArgs_nested :
    let call : List (Token Nat) := [⟨.call "f", 2⟩, ⟨.punct .openParen, 3⟩, ⟨.symbol "c", 4⟩,
      ⟨.punct .comma, 5⟩, ⟨.symbol "d", 6⟩, ⟨.punct .closeParen, 7⟩]
    let chord : List (Token Nat) :=
      [⟨.punct .openBracket, 9⟩, ⟨.symbol "e", 10⟩, ⟨.punct .closeBracket, 11⟩]
    let us := ⟨.punct .comma, 1⟩ :: (call ++ ⟨.punct .comma, 8⟩ ::
      (chord ++ [⟨.punct .closeParen, 12⟩]))
    WrittenArgs [[], call, chord] us ∧ (∀ a ∈ [[], call, chord], IsArgument a) ∧
      readCallArgs (⟨.punct .openParen, 0⟩ :: (us ++ [⟨.punct .closeParen, 13⟩])) =
        ([[], call, chord], [⟨.punct .closeParen, 13⟩]) := by
  intro call chord us
  have hus : WrittenArgs [[], call, chord] us := .more [] 1 (.more call 8 (.last chord 12))
  have hargs : ∀ a ∈ [[], call, chord], IsArgument a := by decide +kernel
  exact ⟨hus, hargs, readCallArgs_writtenArgs hus hargs (by simp) 0 _⟩

/-! ### Texts and tokens -/

def argText (a : List (Token P)) : String := String.join (a.map Token.value)

lemma argText_concat (a : List (Token P)) (t : Token P) :
    argText (a ++ [t]) = argText a ++ t.value := by
  simp [argText, String.join]

/-- Both readers come to the same arguments, the one to their texts and the other to their tokens,
and leave the same tokens. -/
lemma exists_collected (depth : Nat) (done : List (List (Token P))) (current ts : List (Token P)) :
    ∃ done' current' rest,
      readLists depth done current ts = (closeLists done' current', rest) ∧
      readTexts depth (done.map argText) (argText current.reverse) ts =
        (closeTexts (done'.map argText) (argText current'.reverse), rest) := by
  fun_induction readLists depth done current ts with
  | case1 depth done current => exact ⟨done, current, _, rfl, rfl⟩
  | case2 depth done current t ts ht => exact ⟨done, current, _, rfl, by simp [readTexts, ht]⟩
  | case3 depth done current t ts ht => exact ⟨done, current, _, rfl, by simp [readTexts, ht]⟩
  | case4 done current t ts ht => exact ⟨done, current, _, rfl, by simp [readTexts, ht]⟩
  | case5 done current t ts ht depth ih => simpa [readTexts, ht, argText_concat] using ih
  | case6 depth done current t ts ht ih => simpa [readTexts, ht, argText_concat] using ih
  | case7 done current t ts ht ih => simpa [readTexts, ht, argText] using ih
  | case8 done current t ts ht depth ih => simpa [readTexts, ht, argText_concat] using ih
  | case9 depth done current t ts _ _ _ _ _ ih =>
    have hstep : readTexts depth (done.map argText) (argText current.reverse) (t :: ts) =
        readTexts depth (done.map argText) (argText current.reverse ++ t.value) ts := by
      rw [readTexts.eq_def]
      split <;> simp_all
    rw [hstep]
    simpa [argText_concat] using ih

/-- Among texts a single empty one counts as no argument. -/
lemma closeTexts_eq (done : List (List (Token P))) (current : List (Token P)) :
    closeTexts (done.map argText) (argText current.reverse) =
      if (closeLists done current).map argText = [""] then []
      else (closeLists done current).map argText := by
  cases done with
  | cons a done =>
    have hmore : (closeLists (a :: done) current).map argText ≠ [""] := by
      intro h
      have hlength := congrArg List.length h
      simp [closeLists] at hlength
    rw [if_neg hmore]
    simp [closeTexts, closeLists]
  | nil =>
    cases current with
    | nil => rfl
    | cons t current =>
      by_cases hblank : argText (t :: current).reverse = ""
      · rw [if_pos (by simpa [closeLists] using hblank), hblank]
        rfl
      · rw [if_neg (by simpa [closeLists] using hblank)]
        simpa [closeTexts, closeLists] using hblank

/-- **The two readers agree.** Behind an opening parenthesis both take the same tokens, whatever
they are and whether or not the list is closed. The texts are those of the lists of tokens; only
for a single argument without any text there is no text at all. -/
theorem readTexts_readLists (ts : List (Token P)) :
    (readTexts 0 [] "" ts).2 = (readLists 0 [] [] ts).2 ∧
      (readTexts 0 [] "" ts).1 =
        if (readLists 0 [] [] ts).1.map argText = [""] then []
        else (readLists 0 [] [] ts).1.map argText := by
  obtain ⟨done, current, rest, hlists, htexts⟩ := exists_collected 0 [] [] ts
  have hnothing : argText ([] : List (Token P)).reverse = "" := rfl
  rw [List.map_nil, hnothing] at htexts
  rw [hlists, htexts]
  exact ⟨rfl, closeTexts_eq done current⟩

/-- A pair of quotes is an argument of a macro, but none of a modifier. -/
example : (readLists 0 [] [] [(⟨.quoted "", 0⟩ : Token Nat)]).1 = [[⟨.quoted "", 0⟩]] ∧
    (readTexts 0 [] "" [(⟨.quoted "", 0⟩ : Token Nat)]).1 = [] := by decide

end Partitura
