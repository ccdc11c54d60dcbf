import Partitura.Proofs.Events
import Partitura.Proofs.Literals
import Partitura.Proofs.Relabel
import Partitura.Proofs.Spelling

/-!
Events that are written down and read again.

However the modifiers of an event are distributed over its text, reading the text gives the event
back and stops at what stands behind it (`readEvent_text`). Names that stand in one symbol are read
as if each stood in a symbol of its own (`IsNames.extend`), so reading the tokens of modifiers adds
them to the chain one by one (`readTail_lead`), wherever they stand. Tokens are read without their
positions, which reading does not look at.
-/

namespace Partitura

open Number Text

/-! ### Chains of names -/

lemma pieces_ne_nil (sep : Char) (xs : List Char) : pieces sep xs ≠ [] := by
  fun_cases pieces sep xs <;> simp_all

lemma pieces_append (sep : Char) (xs ys : List Char) :
    pieces sep (xs ++ sep :: ys) = pieces sep xs ++ pieces sep ys := by
  fun_induction pieces sep xs with
  | case1 => simp [pieces]
  | case2 xs ih => simp [pieces, ih]
  | case3 c xs hc p ps heq ih => simp [pieces, hc, ih, heq]
  | case4 c xs hc heq ih => exact absurd heq (pieces_ne_nil sep xs)

lemma pieces_of_not_mem {sep : Char} {xs : List Char} (h : sep ∉ xs) : pieces sep xs = [xs] := by
  induction xs with
  | nil => rfl
  | cons c xs ih =>
    simp only [List.mem_cons, not_or] at h
    simp [pieces, Ne.symm h.1, ih h.2]

namespace Chain

variable (chain : Chain)

lemma extend_append (xs ys : List Char) :
    chain.extend (xs ++ '.' :: ys) = (chain.extend xs).extend ys := by
  rw [extend, pieces_append, List.foldl_append]
  rfl

@[simp] lemma extend_nil : chain.extend [] = chain := rfl

@[simp] lemma extend_point (xs : List Char) : chain.extend ('.' :: xs) = chain.extend xs :=
  chain.extend_append [] xs

def push (ms : List ModifierText) : Chain :=
  ms.foldl (fun chain m => (m.name, m.texts) :: chain) chain

lemma extend_name (m : ModifierText) : chain.extend m.name.toList = (m.name, []) :: chain := by
  have hne : m.name.toList ≠ [] := by
    obtain ⟨c, hc, -⟩ := m.letter
    rintro hnil
    simp [hnil] at hc
  simp [extend, pieces_of_not_mem m.noPoint, hne]

lemma modifiers_push (ms : List ModifierText) :
    (chain.push ms).modifiers =
      chain.modifiers ++ ms.map fun m => Modifier.create m.name m.texts := by
  simp [push, modifiers]

end Chain

namespace IsNames

variable {s t : List Char}

/-- Names are added to a chain one behind the other, also where they stand in one symbol. -/
lemma extend (ht : IsNames t) (chain : Chain) (xs : List Char) :
    chain.extend (xs ++ t) = (chain.extend xs).extend t := by
  cases ht with
  | nil => simp
  | cons _ _ => rw [Chain.extend_append, Chain.extend_point]

lemma extend_tail (ht : IsNames t) (chain : Chain) : chain.extend t.tail = chain.extend t := by
  cases ht with
  | nil => rfl
  | cons _ _ => rw [Chain.extend_point, List.tail_cons]

lemma cutAt (ht : IsNames t) (hs : '.' ∉ s) : Text.cutAt '.' (s ++ t) = (s, t.tail?) := by
  cases ht with
  | nil => simpa using cutAt_of_not_mem hs
  | cons _ _ => exact cutAt_append_of_not_mem hs _

end IsNames

/-! ### Reading the tokens -/

def unplaced (ls : List Lexeme) : List (Token Unit) := ls.map fun l => ⟨l, ()⟩

@[simp] lemma unplaced_nil : unplaced [] = [] := rfl

@[simp] lemma unplaced_cons (l : Lexeme) (ls : List Lexeme) :
    unplaced (l :: ls) = ⟨l, ()⟩ :: unplaced ls := rfl

@[simp] lemma unplaced_append (ls ls' : List Lexeme) :
    unplaced (ls ++ ls') = unplaced ls ++ unplaced ls' :=
  List.map_append

lemma SymbolText.text_ne_empty (s : SymbolText) : s.text ≠ "" := by
  have hne := s.spelled.1
  rintro hempty
  simp [hempty] at hne

lemma readTexts_separated (done : List String) (s : SymbolText) (ss : List SymbolText)
    (rest : List (Token Unit)) :
    readTexts 0 done "" (unplaced (separated [.punct .comma] (s :: ss)) ++
      ⟨.punct .closeParen, ()⟩ :: rest) =
        (done.reverse ++ (s :: ss).map SymbolText.text, rest) := by
  induction ss generalizing done s with
  | nil => simp [separated, readTexts, closeTexts, Token.value, Lexeme.value, Lexeme.text,
      s.text_ne_empty]
  | cons s' ss ih =>
    have hstep := ih (s.text :: done) s'
    simpa [separated, readTexts, Lexeme.value, Lexeme.text] using hstep

lemma readChord_separated (ss : List SymbolText) (rest : List (Token Unit)) :
    readChord (unplaced (separated [] ss) ++ ⟨.punct .closeBracket, ()⟩ :: rest) =
      (ss.map SymbolText.text, rest) := by
  fun_induction separated [] ss with
  | case1 => rfl
  | case2 s => rfl
  | case3 s ss _ ih => simp [readChord, ih]

namespace NoteText

variable (n : NoteText) {t : List Char}

def lengthText (ht : IsNames t) : LengthText where
  digits := ⟨digitChars n.denominator, Nat.toDigits_ne_nil, fun _ hc =>
    Nat.isDigit_of_mem_toDigits (by decide) le_rfl hc⟩
  dots := n.dots
  names := t.tail
  letter := by
    cases ht with
    | nil => simp
    | cons hc _ =>
      rintro d ⟨⟩
      exact hc

lemma text_lengthText (ht : IsNames t) :
    (n.lengthText ht).text = .ofList (n.text.toList ++ t) := by
  have hbehind : LengthText.behind t.tail = t := by cases ht <;> rfl
  rw [LengthText.text, n.toList_text, List.append_assoc]
  simp only [lengthText, hbehind]

/-- A note value is read with the names on it. -/
lemma read_names (ht : IsNames t) :
    Duration.read (.ofList (n.text.toList ++ t)) = .ok (some (n.duration, .ofList t.tail)) := by
  have hvalue : (n.lengthText ht).digits.value = n.denominator := Nat.ofDigitChars_ten_toDigits
  have hpos := n.pos
  have hsymbol : ∀ c ∈ (n.lengthText ht).text.toList, isSymbolChar c = true := by
    rw [n.text_lengthText ht]
    exact (ht.spelled n.spelled).2
  have hline : '\n' ∉ (n.lengthText ht).text.toList := fun hmem =>
    absurd (hsymbol _ hmem) (by decide)
  have hlimit : (digitChars n.denominator).length ≤ digitLimit :=
    length_digitChars_le (by decide) n.short
  rcases (n.lengthText ht).read_text hline hlimit with ⟨hzero, -⟩ | ⟨-, ⟨q, hq⟩, hread, hquarters⟩
  · omega
  · rw [hvalue] at hquarters
    obtain rfl : q = n.quarters := hquarters
    rw [← n.text_lengthText ht, hread]
    rfl

end NoteText

section Tail

open ModifierText

variable (chain : Chain) (length : Length) (rest : List (Token Unit))

lemma readTail_list (m : ModifierText) (hm : m.listed = true) :
    readTail ((m.name, []) :: chain) length (unplaced m.list ++ rest) =
      readTail ((m.name, m.texts) :: chain) length rest := by
  have hargs : readTexts 0 [] "" (unplaced (separated [.punct .comma] m.args) ++
      ⟨.punct .closeParen, ()⟩ :: rest) = (m.texts, rest) := by
    unfold texts
    cases m.args with
    | nil => rfl
    | cons s ss => exact readTexts_separated [] s ss rest
  simp only [list, hm, if_true, unplaced_cons, unplaced_append, unplaced_nil, List.cons_append,
    List.append_assoc, List.nil_append, readTail_args, hargs]

lemma readTail_flush {names : List Char × List Lexeme} (hnames : IsNames names.1) :
    readTail chain length (unplaced (flush names) ++ rest) =
      readTail (chain.extend names.1) length (unplaced names.2 ++ rest) := by
  obtain ⟨t, behind⟩ := names
  cases hnames with
  | nil => rfl
  | @cons c t _ _ =>
    have hpoint : (String.ofList ('.' :: c :: t)).toList = '.' :: c :: t := String.toList_ofList
    rw [Chain.extend_point]
    exact readTail_names chain length hpoint () _

/-- Reading the tokens of modifiers adds them to the chain. -/
lemma readTail_lead (ms : List ModifierText) :
    readTail (chain.extend (lead ms).1) length (unplaced (lead ms).2 ++ rest) =
      readTail (chain.push ms) length rest := by
  induction ms generalizing chain with
  | nil => rfl
  | cons m ms ih =>
    have hpush : chain.push (m :: ms) = Chain.push ((m.name, m.texts) :: chain) ms := rfl
    cases hm : m.listed with
    | true =>
      simp only [lead, hm, if_true]
      rw [Chain.extend_point, Chain.extend_name, unplaced_append, List.append_assoc,
        readTail_list _ _ _ m hm, readTail_flush _ _ _ (isNames_lead ms), ih, hpush]
    | false =>
      -- without a list the names behind go on with this one
      have hargs : m.texts = [] := by
        simp only [listed, Bool.or_eq_false_iff, Bool.not_eq_false', List.isEmpty_iff] at hm
        simp [texts, hm.2]
      simp only [lead, hm, Bool.false_eq_true, if_false]
      rw [(isNames_lead ms).extend, Chain.extend_point, Chain.extend_name, ih, hpush, hargs]

/-- Each modifier behind an event is read by itself. -/
lemma readTail_behind (ms : List ModifierText) :
    readTail chain length (unplaced (ms.flatMap fun m => flush (lead [m])) ++ rest) =
      readTail (chain.push ms) length rest := by
  induction ms generalizing chain with
  | nil => rfl
  | cons m ms ih =>
    have hpush : chain.push (m :: ms) = (chain.push [m]).push ms := rfl
    rw [List.flatMap_cons, unplaced_append, List.append_assoc,
      readTail_flush _ _ _ (isNames_lead [m]), readTail_lead, ih, hpush]

lemma readTail_note {e : EventText} (s : e.Split) :
    readTail chain .unwritten (unplaced s.noteLexemes ++ rest) =
      readTail (chain.push s.onNote) e.length rest := by
  have htimed := s.timed
  unfold EventText.Split.noteLexemes EventText.length
  cases hnote : e.note with
  | none =>
    rw [htimed hnote]
    rfl
  | some n =>
    have hnames := isNames_lead s.onNote
    simp only [unplaced_cons, List.cons_append, readTail_length, n.read_names hnames,
      String.toList_ofList, hnames.extend_tail, readTail_lead]

/-- The head is read with the names on it; what is left of its modifiers is read behind it. -/
lemma readHead_lexemes {e : EventText} (s : e.Split) :
    ∃ chain behind, readHead (unplaced s.headLexemes ++ rest) =
        ((e.head.pitches, e.head.isChord, chain), behind) ∧
      readTail chain .unwritten behind = readTail (Chain.push [] s.onHead) .unwritten rest := by
  unfold EventText.Split.headLexemes
  have hnames := isNames_lead s.onHead
  cases e.head with
  | pitch p hpoint =>
    refine ⟨Chain.extend [] (lead s.onHead).1, unplaced (lead s.onHead).2 ++ rest, ?_,
      readTail_lead _ _ _ s.onHead⟩
    have htail : (lead s.onHead).1.tail?.getD [] = (lead s.onHead).1.tail := by
      cases (lead s.onHead).1 <;> rfl
    simp [readHead, Token.isPunct, Token.text, Lexeme.text, hnames.cutAt hpoint, htail,
      hnames.extend_tail, HeadText.pitches, HeadText.isChord]
  | chord ps =>
    refine ⟨[], unplaced (flush (lead s.onHead)) ++ rest, ?_, ?_⟩
    · simp [readHead, Token.isPunct, readChord_separated, HeadText.pitches, HeadText.isChord]
    · rw [readTail_flush _ _ _ hnames, readTail_lead]

end Tail

/-- Reading the tokens of an event gives what it says. -/
lemma readEvent_lexemes {e : EventText} (s : e.Split) {rest : List (Token Unit)}
    (hrest : BreaksOff rest) :
    readEvent (unplaced s.lexemes ++ rest) =
      (.ok (e.written (unplaced s.lexemes ++ rest).head?), rest) := by
  have hlexemes : unplaced s.lexemes ++ rest = unplaced s.headLexemes ++
      (unplaced s.noteLexemes ++ (unplaced (s.behind.flatMap fun m =>
        ModifierText.flush (ModifierText.lead [m])) ++ rest)) := by
    simp [EventText.Split.lexemes]
  have hpush : ((Chain.push [] s.onHead).push s.onNote).push s.behind =
      Chain.push [] e.modifiers := by
    rw [← s.whole]
    simp [Chain.push]
  obtain ⟨chain, behind, hhead, htail⟩ := readHead_lexemes (unplaced s.noteLexemes ++
    (unplaced (s.behind.flatMap fun m => ModifierText.flush (ModifierText.lead [m])) ++ rest)) s
  rw [readTail_note, readTail_behind, readTail_breaksOff _ _ hrest, hpush] at htail
  rw [← hlexemes] at hhead
  simp only [readEvent, hhead, htail, EventText.written, Chain.modifiers_push]
  rfl

variable {P : Type}

/-- What is read from tokens without positions is read from the tokens. -/
lemma readEvent_of_unplaced {ts rest : List (Token P)} {w : WrittenEvent Unit} (hts : ts ≠ [])
    (h : readEvent ((ts ++ rest).map (Token.map fun _ => ())) =
      (.ok w, rest.map (Token.map fun _ => ()))) :
    readEvent (ts ++ rest) =
      (.ok ⟨(ts ++ rest).head?, w.pitches, w.chord, w.length, w.modifiers⟩, rest) := by
  obtain ⟨t, ts, rfl⟩ := List.exists_cons_of_ne_nil hts
  rw [readEvent_map] at h
  rcases hread : readEvent (t :: ts ++ rest) with ⟨f | e, behind⟩
  · rw [hread] at h
    cases h
  · rw [hread] at h
    obtain ⟨hevent, hbehind⟩ := Prod.mk.inj h
    have hanchor : e.anchor = some t := anchor_of_readEvent (by rw [← List.cons_append, hread])
    have hsuffix : behind <:+ t :: ts ++ rest := by
      have := (readEvent_suffix t (ts ++ rest)).trans (List.suffix_cons t _)
      rwa [← List.cons_append, hread] at this
    have hlength : behind.length = rest.length := by
      simpa using congrArg List.length hbehind
    obtain rfl : behind = rest :=
      (List.suffix_of_suffix_length_le hsuffix (List.suffix_append _ _) hlength.le).eq_of_length
        hlength
    obtain rfl := Except.ok.inj hevent
    rw [List.cons_append, List.head?_cons, ← hanchor]
    rfl

lemma BreaksOff.map {Q : Type} {f : P → Q} {ts : List (Token P)} (h : BreaksOff ts) :
    BreaksOff (ts.map (Token.map f)) := by
  cases ts with
  | nil => simp [BreaksOff]
  | cons t ts =>
    rintro u ⟨⟩
    exact h t rfl

lemma EventText.Split.lexemes_ne_nil {e : EventText} (s : e.Split) : s.lexemes ≠ [] := by
  have hhead : s.headLexemes ≠ [] := by
    unfold headLexemes
    split <;> simp
  simp [lexemes, hhead]

/-- A text of an event is read as the event, up to what stands behind it. -/
lemma readEvent_split {e : EventText} (s : e.Split) {gap further : String} (hgap : gap ≠ "")
    (hblank : ∀ c ∈ gap.toList, isBlank c = true) (hfurther : BreaksOff (tokenize further)) :
    readEvent (tokenize (s.text ++ gap ++ further)) =
      (.ok (e.written (tokenize (s.text ++ gap ++ further)).head?),
        (tokenize further).map (Token.map (· + (s.text ++ gap).length))) := by
  obtain ⟨ts, hts, htokens⟩ := tokenize_spelled s.spells (by simpa using hgap) hblank further
  rw [← String.toList_append, String.ofList_toList, String.length_toList] at htokens
  have hne : ts ≠ [] := by
    rintro rfl
    exact s.lexemes_ne_nil hts.symm
  have hunplaced (rest : List (Token Nat)) : (ts ++ rest).map (Token.map fun _ => ()) =
      unplaced s.lexemes ++ rest.map (Token.map fun _ => ()) := by
    simp [← hts, unplaced, Token.map, Function.comp_def]
  have hrest : BreaksOff (((tokenize further).map (Token.map (· + (s.text ++ gap).length))).map
      (Token.map fun _ => ())) := hfurther.map.map
  have hlexemes := readEvent_lexemes s hrest
  rw [← hunplaced] at hlexemes
  rw [htokens]
  exact readEvent_of_unplaced hne hlexemes

/-- **Events are read back as they were written.** Whichever modifiers stand on the head, on the
note value and behind the event, a text of the event before blanks and anything that does not go on
with it is read as the pitches, the duration and the modifiers in their order, and reading stops
there. So all such texts say the same. -/
theorem readEvent_text (e : EventText) {gap further : String} (hgap : gap ≠ "")
    (hblank : ∀ c ∈ gap.toList, isBlank c = true) (hfurther : BreaksOff (tokenize further)) :
    (∀ s : e.Split, let source := s.text ++ gap ++ further
      readEvent (tokenize source) = (.ok (e.written (tokenize source).head?),
        (tokenize further).map (Token.map (· + (s.text ++ gap).length)))) ∧
    ∀ (s s' : e.Split) (w w' : WrittenEvent Nat),
      (readEvent (tokenize (s.text ++ gap ++ further))).1 = .ok w →
      (readEvent (tokenize (s'.text ++ gap ++ further))).1 = .ok w' →
      w' = { w with anchor := w'.anchor } := by
  refine ⟨fun s => readEvent_split s hgap hblank hfurther, fun s s' w w' hw hw' => ?_⟩
  rw [readEvent_split s hgap hblank hfurther] at hw
  rw [readEvent_split s' hgap hblank hfurther] at hw'
  obtain rfl := Except.ok.inj hw
  obtain rfl := Except.ok.inj hw'
  rfl

lemma wellSpelled_of_all {s : String}
    (h : (!s.toList.isEmpty && s.toList.all isSymbolChar) = true) :
    (Lexeme.symbol s).WellSpelled := by
  simpa [Lexeme.WellSpelled] using h

def dottedEighth : EventText where
  head := .pitch ⟨"c#4", wellSpelled_of_all (by decide +kernel)⟩ (by decide +kernel)
  note := some ⟨8, 1, by decide, by decide +kernel⟩
  modifiers := [
    ⟨"vol", [⟨"90", wellSpelled_of_all (by decide +kernel)⟩], true, ⟨'v', rfl, rfl⟩,
      (wellSpelled_of_all (by decide +kernel)).2, by decide +kernel⟩,
    ⟨"stacc", [], false, ⟨'s', rfl, rfl⟩, (wellSpelled_of_all (by decide +kernel)).2,
      by decide +kernel⟩,
    ⟨"bend", [⟨"1.5", wellSpelled_of_all (by decide +kernel)⟩,
      ⟨"full", wellSpelled_of_all (by decide +kernel)⟩], true, ⟨'b', rfl, rfl⟩,
      (wellSpelled_of_all (by decide +kernel)).2, by decide +kernel⟩]

theorem readEvent_text_dottedEighth :
    let s : dottedEighth.Split := ⟨dottedEighth.modifiers.take 1,
      (dottedEighth.modifiers.drop 1).take 1, dottedEighth.modifiers.drop 2, rfl,
      by simp [dottedEighth]⟩
    s.text = "c#4.vol(90):8..stacc .bend(1.5,full)" ∧
      dottedEighth.length = .value ⟨3 / 4, by norm_num⟩ ∧ BreaksOff (tokenize "d:4") ∧
      let source := s.text ++ "\n " ++ "d:4"
      readEvent (tokenize source) = (.ok (dottedEighth.written (tokenize source).head?),
        (tokenize "d:4").map (Token.map (· + (s.text ++ "\n ").length))) := by
  intro s
  have hbreaks : BreaksOff (tokenize "d:4") := by
    have htokens : tokenize "d:4" = [⟨.symbol "d", 0⟩, ⟨.punct .colon, 1⟩, ⟨.symbol "4", 2⟩] := by
      decide +kernel
    rw [htokens]
    rintro t ⟨⟩
    rfl
  exact ⟨by decide +kernel, by decide +kernel, hbreaks,
    (readEvent_text dottedEighth (by decide) (List.all_eq_true.mp (by decide +kernel)) hbreaks).1 s⟩

end Partitura
