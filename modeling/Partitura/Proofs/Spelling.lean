import Partitura.Proofs.Notation
import Partitura.Proofs.Reading
import Partitura.Proofs.Tokenization

/-!
The texts of an event and their tokens.

An event has a pitch or a chord, perhaps a note value, and modifiers. Each modifier may be written
on the head of the event, on its note value or behind it, as long as their order stays; a `Split`
says where they stand. Names without arguments run together with the symbol in front of them, so
the tokens depend on the split: `lead` says which characters go on with a symbol and which tokens
follow it. `Spells` relates a text to the symbols and marks it is made of, and these are its tokens
(`tokenize_spelled`).
-/

namespace Partitura

open Number Text

/-! ### Texts of events -/

structure SymbolText where
  text : String
  spelled : (Lexeme.symbol text).WellSpelled

/-- A modifier as it is written. Parentheses with nothing in them may be left out. -/
structure ModifierText where
  name : String
  args : List SymbolText
  parens : Bool
  letter : ∃ c ∈ name.toList.head?, c.isAlpha = true
  symbol : ∀ c ∈ name.toList, isSymbolChar c = true
  noPoint : '.' ∉ name.toList

inductive HeadText
  | pitch (s : SymbolText) (noPoint : '.' ∉ s.text.toList)
  | chord (pitches : List SymbolText)

structure NoteText where
  denominator : Nat
  dots : Fin 3
  pos : 1 ≤ denominator
  short : denominator < Nat.pow 10 digitLimit

structure EventText where
  head : HeadText
  note : Option NoteText
  modifiers : List ModifierText

/-- The modifiers of an event on its head, on its note value and behind it. -/
structure EventText.Split (e : EventText) where
  onHead : List ModifierText
  onNote : List ModifierText
  behind : List ModifierText
  whole : onHead ++ onNote ++ behind = e.modifiers
  timed : e.note = none → onNote = []

namespace ModifierText

def listed (m : ModifierText) : Bool := m.parens || !m.args.isEmpty

def texts (m : ModifierText) : List String := m.args.map SymbolText.text

def text (m : ModifierText) : String :=
  "." ++ m.name ++ if m.listed then "(" ++ join "," m.texts ++ ")" else ""

def textOfAll (ms : List ModifierText) : String := join "" (ms.map text)

end ModifierText

namespace HeadText

def pitches : HeadText → List String
  | pitch s _ => [s.text]
  | chord ss => ss.map SymbolText.text

def isChord : HeadText → Bool
  | pitch _ _ => false
  | chord _ => true

def text : HeadText → String
  | pitch s _ => s.text
  | chord ss => "[" ++ join " " (ss.map SymbolText.text) ++ "]"

end HeadText

namespace NoteText

def text (n : NoteText) : String := decimal n.denominator ++ .ofList (.replicate n.dots '.')

/-- Four quarters over the denominator, a half more with a dot and three quarters with two. -/
def quarters (n : NoteText) : Rat := 4 / n.denominator * Duration.dotFactor n.dots

def duration (n : NoteText) : Duration := ⟨n.quarters, Duration.noteLength_nonneg _ _⟩

end NoteText

namespace EventText

def length (e : EventText) : Length :=
  match e.note with
  | none => .unwritten
  | some n => .value n.duration

/-- What an event says, read at some token. -/
def written {P : Type} (e : EventText) (anchor : Option (Token P)) : WrittenEvent P :=
  ⟨anchor, e.head.pitches, e.head.isChord, e.length,
    e.modifiers.map fun m => Modifier.create m.name m.texts⟩

def Split.noteText {e : EventText} (s : e.Split) : String :=
  match e.note with
  | none => ""
  | some n => ":" ++ n.text ++ ModifierText.textOfAll s.onNote

def Split.text {e : EventText} (s : e.Split) : String :=
  e.head.text ++ ModifierText.textOfAll s.onHead ++ s.noteText ++
    join "" (s.behind.map fun m => " " ++ m.text)

end EventText

/-! ### Tokens of a spelled text -/

/-- Nothing in front goes on with a symbol. -/
def Breaks (cs : List Char) : Prop := ∀ c ∈ cs.head?, isSymbolChar c = false

/-- A text that is made of these symbols and marks, and of blanks. -/
inductive Spells : List Char → List Lexeme → Prop
  | nil : Spells [] []
  | symbol {s cs : List Char} {ls : List Lexeme} (hs : (Lexeme.symbol (.ofList s)).WellSpelled)
    (hstop : Breaks cs) (h : Spells cs ls) : Spells (s ++ cs) (.symbol (.ofList s) :: ls)
  | mark (p : Punct) {cs : List Char} {ls : List Lexeme} (h : Spells cs ls) :
    Spells (p.char :: cs) (.punct p :: ls)
  | blank {c : Char} {cs : List Char} {ls : List Lexeme} (hc : isBlank c = true)
    (h : Spells cs ls) : Spells (c :: cs) ls

lemma isTokenChar_bounds {c : Char} (h : isTokenChar c = true) : 33 ≤ c.toNat ∧ c.toNat ≤ 126 := by
  simp only [isTokenChar, Bool.or_eq_true, beq_iff_eq] at h
  rcases h with ((h | rfl) | rfl) | h
  · obtain ⟨p, hp⟩ := Option.isSome_iff_exists.mp h
    obtain rfl : p.char = c := by simpa using List.find?_some hp
    cases p <;> decide
  · decide
  · decide
  · exact isSymbolChar_bounds h

lemma isTokenChar_of_isBlank {c : Char} (h : isBlank c = true) : isTokenChar c = false := by
  have hblanks : ∀ r ∈ blanks, r.2 < 33 ∨ 126 < r.1 := by decide
  by_contra htoken
  have hbounds := isTokenChar_bounds (Bool.eq_true_of_not_eq_false htoken)
  simp only [isBlank, CharClass.has, List.any_eq_true, Bool.and_eq_true, decide_eq_true_eq] at h
  obtain ⟨r, hr, hc⟩ := h
  have := hblanks r hr
  omega

lemma scan_word {l : Lexeme} (hl : l.WellSpelled) {rest : List Char}
    (hrest : ∀ c ∈ rest.head?, l.goesOn c = false) (offset : Nat) :
    scan offset (l.text.toList ++ rest) = ⟨l, offset⟩ :: scan (offset + l.text.length) rest := by
  have hcut := Lexeme.cut?_append hl hrest
  obtain ⟨c, cs, hcs⟩ := List.exists_cons_of_ne_nil (Lexeme.text_ne_nil hl)
  rw [hcs, List.cons_append] at hcut ⊢
  rw [scan_cons, hcut]

lemma scan_blank {c : Char} (hc : isBlank c = true) (offset : Nat) (rest : List Char) :
    scan offset (c :: rest) = scan (offset + 1) rest := by
  rw [scan_cons, Lexeme.cut?_eq_none_iff.mpr (.foreign (isTokenChar_of_isBlank hc))]

lemma scan_gap {gap : List Char} (hgap : ∀ c ∈ gap, isBlank c = true) (offset : Nat)
    (rest : List Char) : scan offset (gap ++ rest) = scan (offset + gap.length) rest := by
  induction gap generalizing offset with
  | nil => simp
  | cons c gap ih =>
    obtain ⟨hc, hgap⟩ := List.forall_mem_cons.mp hgap
    rw [List.cons_append, scan_blank hc, ih hgap, List.length_cons, Nat.add_assoc, Nat.add_comm 1]

lemma Breaks.append {cs rest : List Char} (hcs : Breaks cs) (hrest : Breaks rest) :
    Breaks (cs ++ rest) := by
  cases cs with
  | nil => exact hrest
  | cons c cs => exact hcs

lemma Breaks.of_isBlank {c : Char} (hc : isBlank c = true) (cs : List Char) : Breaks (c :: cs) := by
  have htoken := isTokenChar_of_isBlank hc
  simp only [isTokenChar, Bool.or_eq_false_iff] at htoken
  simpa [Breaks] using htoken.2

lemma Breaks.of_mark (p : Punct) (cs : List Char) : Breaks (p.char :: cs) := by
  cases p <;> simp [Breaks, Punct.char] <;> decide

namespace Spells

variable {cs : List Char} {ls : List Lexeme}

/-- The tokens of a spelled text are those it was made of. -/
lemma scan (h : Spells cs ls) {rest : List Char} (hrest : Breaks rest) (offset : Nat) :
    ∃ ts, ts.map Token.lexeme = ls ∧
      Partitura.scan offset (cs ++ rest) = ts ++ Partitura.scan (offset + cs.length) rest := by
  induction h generalizing offset with
  | nil => exact ⟨[], rfl, rfl⟩
  | @symbol s cs ls hs hstop h ih =>
    obtain ⟨ts, rfl, hts⟩ := ih (offset + s.length)
    have hscan := scan_word hs (hstop.append hrest) offset
    simp only [Lexeme.text, String.toList_ofList, String.length_ofList] at hscan
    refine ⟨⟨.symbol (.ofList s), offset⟩ :: ts, rfl, ?_⟩
    rw [List.append_assoc, hscan, hts, List.length_append, Nat.add_assoc, List.cons_append]
  | @mark p cs ls h ih =>
    obtain ⟨ts, rfl, hts⟩ := ih (offset + 1)
    have hstop : ∀ c ∈ (cs ++ rest).head?, (Lexeme.punct p).goesOn c = false := fun _ _ => rfl
    have hscan := scan_word (l := .punct p) trivial hstop offset
    simp only [Lexeme.text, String.toList_ofList, String.length_ofList] at hscan
    refine ⟨⟨.punct p, offset⟩ :: ts, rfl, ?_⟩
    rw [List.cons_append, List.length_cons, Nat.add_comm cs.length, ← Nat.add_assoc,
      List.cons_append, ← hts]
    exact hscan
  | @blank c cs ls hc h ih =>
    obtain ⟨ts, hls, hts⟩ := ih (offset + 1)
    refine ⟨ts, hls, ?_⟩
    rw [List.cons_append, scan_blank hc, hts, List.length_cons, Nat.add_assoc, Nat.add_comm 1]

lemma percent_not_mem (h : Spells cs ls) : '%' ∉ cs := by
  induction h with
  | nil => simp
  | symbol hs hstop h ih =>
    have hpercent : ∀ c ∈ _, isSymbolChar c = true := hs.2
    rw [String.toList_ofList] at hpercent
    rw [List.mem_append, not_or]
    exact ⟨fun hmem => absurd (hpercent _ hmem) (by decide), ih⟩
  | mark p h ih => cases p <;> simpa [Punct.char] using ih
  | blank hc h ih =>
    rw [List.mem_cons, not_or]
    exact ⟨by rintro rfl; exact absurd hc (by decide), ih⟩

end Spells

lemma blankComments_append {cs : List Char} (h : '%' ∉ cs) (rest : List Char) :
    blankComments false (cs ++ rest) = cs ++ blankComments false rest := by
  induction cs with
  | nil => rfl
  | cons c cs ih =>
    simp only [List.mem_cons, not_or] at h
    rw [List.cons_append, blankComments.eq_def]
    simp [Ne.symm h.1, ih h.2]

/-- The tokens of a spelled text before blanks and a further text. -/
lemma tokenize_spelled {cs gap : List Char} {ls : List Lexeme} (h : Spells cs ls) (hgap : gap ≠ [])
    (hblank : ∀ c ∈ gap, isBlank c = true) (further : String) :
    ∃ ts, ts.map Token.lexeme = ls ∧ tokenize (.ofList (cs ++ gap) ++ further) =
      ts ++ (tokenize further).map (Token.map (· + (cs ++ gap).length)) := by
  have hpercent : '%' ∉ cs ++ gap := by
    rw [List.mem_append, not_or]
    exact ⟨h.percent_not_mem, fun hmem => absurd (hblank _ hmem) (by decide)⟩
  obtain ⟨c, gap', rfl⟩ := List.exists_cons_of_ne_nil hgap
  have hrest : Breaks (c :: gap' ++ blankComments false further.toList) :=
    .of_isBlank (hblank c (by simp)) _
  obtain ⟨ts, hls, hts⟩ := h.scan hrest 0
  refine ⟨ts, hls, ?_⟩
  rw [tokenize, String.toList_append, String.toList_ofList, blankComments_append hpercent,
    List.append_assoc, hts, scan_gap hblank, Nat.add_assoc, ← List.length_append, scan_shift]
  rfl

/-! ### The tokens of an event -/

def separated (between : List Lexeme) : List SymbolText → List Lexeme
  | [] => []
  | [s] => [.symbol s.text]
  | s :: ss => .symbol s.text :: between ++ separated between ss

namespace ModifierText

def list (m : ModifierText) : List Lexeme :=
  if m.listed then
    .punct .openParen :: separated [.punct .comma] m.args ++ [.punct .closeParen]
  else []

/-- A symbol of its own for names that go on with no other. -/
def flush (names : List Char × List Lexeme) : List Lexeme :=
  match names.1 with
  | [] => names.2
  | c :: cs => .symbol (.ofList (c :: cs)) :: names.2

/-- The names in front, which go on with a symbol before them, and the tokens behind. -/
def lead : List ModifierText → List Char × List Lexeme
  | [] => ([], [])
  | m :: ms =>
    if m.listed then ('.' :: m.name.toList, m.list ++ flush (lead ms))
    else ('.' :: m.name.toList ++ (lead ms).1, (lead ms).2)

end ModifierText

namespace EventText

open ModifierText

def Split.headLexemes {e : EventText} (s : e.Split) : List Lexeme :=
  match e.head with
  | .pitch p _ =>
    .symbol (.ofList (p.text.toList ++ (lead s.onHead).1)) :: (lead s.onHead).2
  | .chord ps =>
    .punct .openBracket :: separated [] ps ++ .punct .closeBracket :: flush (lead s.onHead)

def Split.noteLexemes {e : EventText} (s : e.Split) : List Lexeme :=
  match e.note with
  | none => []
  | some n =>
    .punct .colon :: .symbol (.ofList (n.text.toList ++ (lead s.onNote).1)) :: (lead s.onNote).2

def Split.lexemes {e : EventText} (s : e.Split) : List Lexeme :=
  s.headLexemes ++ s.noteLexemes ++ s.behind.flatMap fun m => flush (lead [m])

end EventText

/-! ### The text is spelled by its tokens -/

lemma toList_join (ss : List String) : (join "" ss).toList = ss.flatMap String.toList := by
  fun_induction join "" ss with
  | case1 => rfl
  | case2 => simp
  | case3 s ss hss ih => simp [ih]

namespace Spells

variable {cs : List Char} {ls : List Lexeme}

/-- Symbols with a separator between them, before something that goes on with none. -/
lemma join (sep : String) (between : List Lexeme)
    (hsep : ∀ {cs ls}, Spells cs ls → Spells (sep.toList ++ cs) (between ++ ls))
    (hbreaks : ∀ cs, Breaks (sep.toList ++ cs)) (h : Spells cs ls) (hcs : Breaks cs)
    (ss : List SymbolText) :
    Spells ((Text.join sep (ss.map SymbolText.text)).toList ++ cs)
      (separated between ss ++ ls) := by
  have hsymbol (s : SymbolText) {cs : List Char} {ls : List Lexeme} (h : Spells cs ls)
      (hcs : Breaks cs) : Spells (s.text.toList ++ cs) (.symbol s.text :: ls) := by
    have hspelled := s.spelled
    rw [← String.ofList_toList (s := s.text)] at hspelled
    simpa using Spells.symbol hspelled hcs h
  fun_induction separated between ss with
  | case1 => exact h
  | case2 s => exact hsymbol s h hcs
  | case3 s ss hss ih =>
    obtain ⟨s', ss', rfl⟩ := List.exists_cons_of_ne_nil hss
    have hrest := hsymbol s (hsep ih) (hbreaks _)
    simpa [Text.join, List.append_assoc] using hrest

lemma list (h : Spells cs ls) {m : ModifierText} (hm : m.listed = true) :
    Spells (("(" ++ Text.join "," m.texts ++ ")").toList ++ cs) (m.list ++ ls) := by
  have hclose := Spells.mark .closeParen h
  have hargs := Spells.join "," [.punct .comma] (Spells.mark .comma)
    (Breaks.of_mark .comma) hclose (Breaks.of_mark .closeParen _) m.args
  simpa [ModifierText.list, hm, ModifierText.texts, Punct.char] using Spells.mark .openParen hargs

end Spells

/-- Names with a point before each, or nothing. -/
inductive IsNames : List Char → Prop
  | nil : IsNames []
  | cons {c : Char} {cs : List Char} (hc : c.isAlpha = true)
    (hcs : ∀ d ∈ c :: cs, isSymbolChar d = true) : IsNames ('.' :: c :: cs)

lemma IsNames.isSymbolChar {t : List Char} (h : IsNames t) : ∀ c ∈ t, isSymbolChar c = true := by
  cases h with
  | nil => simp
  | cons _ hcs => exact List.forall_mem_cons.mpr ⟨rfl, hcs⟩

/-- A symbol stays one with names behind it. -/
lemma IsNames.spelled {s t : List Char} (ht : IsNames t)
    (hs : (Lexeme.symbol (.ofList s)).WellSpelled) :
    (Lexeme.symbol (.ofList (s ++ t))).WellSpelled := by
  simp only [Lexeme.WellSpelled, String.toList_ofList] at hs ⊢
  exact ⟨by simp [hs.1], List.forall_mem_append.mpr ⟨hs.2, ht.isSymbolChar⟩⟩

namespace ModifierText

lemma exists_name_eq (m : ModifierText) :
    ∃ c cs, m.name.toList = c :: cs ∧ c.isAlpha = true := by
  obtain ⟨c, hc, halpha⟩ := m.letter
  obtain ⟨cs, hcs⟩ := List.head?_eq_some_iff.mp hc
  exact ⟨c, cs, hcs, halpha⟩

lemma isNames_lead (ms : List ModifierText) : IsNames (lead ms).1 := by
  induction ms with
  | nil => exact .nil
  | cons m ms ih =>
    obtain ⟨c, cs, hname, hc⟩ := m.exists_name_eq
    have hsymbol := m.symbol
    rw [hname] at hsymbol
    unfold lead
    split
    · rw [hname]
      exact .cons hc hsymbol
    · rw [hname]
      exact .cons hc (List.forall_mem_append.mpr ⟨hsymbol, ih.isSymbolChar⟩)

lemma toList_textOfAll_cons (m : ModifierText) (ms : List ModifierText) :
    (textOfAll (m :: ms)).toList = m.text.toList ++ (textOfAll ms).toList := by
  simp [textOfAll, toList_join]

end ModifierText

namespace Spells

variable {cs : List Char} {ls : List Lexeme}

open ModifierText

lemma flush {names : List Char × List Lexeme} (hnames : IsNames names.1)
    (h : Spells cs (names.2 ++ ls)) (hcs : Breaks cs) :
    Spells (names.1 ++ cs) (ModifierText.flush names ++ ls) := by
  obtain ⟨t, behind⟩ := names
  cases hnames with
  | nil => exact h
  | @cons c t hc ht =>
    refine .symbol ⟨by simp, ?_⟩ hcs h
    rw [String.toList_ofList]
    exact (IsNames.cons hc ht).isSymbolChar

/-- Modifiers are spelled by the names in front and the tokens behind them. -/
lemma lead (ms : List ModifierText) :
    ∃ t, (textOfAll ms).toList = (ModifierText.lead ms).1 ++ t ∧
      ∀ {cs ls}, Spells cs ls → Breaks cs →
        Spells (t ++ cs) ((ModifierText.lead ms).2 ++ ls) ∧ Breaks (t ++ cs) := by
  induction ms with
  | nil => exact ⟨[], rfl, fun h hcs => ⟨h, hcs⟩⟩
  | cons m ms ih =>
    obtain ⟨t, ht, hspells⟩ := ih
    rw [toList_textOfAll_cons]
    cases hm : m.listed with
    | true =>
      refine ⟨("(" ++ Text.join "," m.texts ++ ")").toList ++ (textOfAll ms).toList,
        by simp [ModifierText.lead, ModifierText.text, hm], fun h hcs => ?_⟩
      have hbehind := hspells h hcs
      have hflush := Spells.flush (isNames_lead ms) hbehind.1 hbehind.2
      rw [← List.append_assoc, ← ht] at hflush
      refine ⟨?_, by simpa [Punct.char] using Breaks.of_mark .openParen _⟩
      simpa [ModifierText.lead, hm] using hflush.list hm
    | false =>
      refine ⟨t, by simp [ModifierText.lead, ModifierText.text, hm, ht], fun h hcs => ?_⟩
      simpa [ModifierText.lead, hm] using hspells h hcs

lemma flush_lead (ms : List ModifierText) (h : Spells cs ls) (hcs : Breaks cs) :
    Spells ((textOfAll ms).toList ++ cs) (ModifierText.flush (ModifierText.lead ms) ++ ls) := by
  obtain ⟨t, ht, hspells⟩ := Spells.lead ms
  obtain ⟨hbehind, hbreaks⟩ := hspells h hcs
  rw [ht, List.append_assoc]
  exact Spells.flush (isNames_lead ms) hbehind hbreaks

/-- A symbol with modifiers on it. -/
lemma symbol_lead {s : List Char} (hs : (Lexeme.symbol (.ofList s)).WellSpelled)
    (ms : List ModifierText) (h : Spells cs ls) (hcs : Breaks cs) :
    Spells (s ++ (textOfAll ms).toList ++ cs)
      (.symbol (.ofList (s ++ (ModifierText.lead ms).1)) :: (ModifierText.lead ms).2 ++ ls) := by
  obtain ⟨t, ht, hspells⟩ := Spells.lead ms
  obtain ⟨hbehind, hbreaks⟩ := hspells h hcs
  rw [ht, ← List.append_assoc, List.append_assoc]
  exact Spells.symbol ((isNames_lead ms).spelled hs) hbreaks hbehind

/-- Modifiers behind an event, each with a blank before it. -/
lemma behind (ms : List ModifierText) :
    Spells (Text.join "" (ms.map fun m => " " ++ m.text)).toList
        (ms.flatMap fun m => ModifierText.flush (ModifierText.lead [m])) ∧
      Breaks (Text.join "" (ms.map fun m => " " ++ m.text)).toList := by
  rw [toList_join]
  induction ms with
  | nil => exact ⟨.nil, by simp [Breaks]⟩
  | cons m ms ih =>
    have hblank : isBlank ' ' = true := by decide
    have hm : (textOfAll [m]).toList = m.text.toList := rfl
    have hflush := Spells.flush_lead [m] ih.1 ih.2
    rw [hm] at hflush
    exact ⟨by simpa using Spells.blank hblank hflush, by simpa using Breaks.of_isBlank hblank _⟩

end Spells

lemma NoteText.toList_text (n : NoteText) :
    n.text.toList = digitChars n.denominator ++ .replicate n.dots '.' := by
  simp [text, decimal]

/-- The digits and dots of a note value are a symbol. -/
lemma NoteText.spelled (n : NoteText) : (Lexeme.symbol (.ofList n.text.toList)).WellSpelled := by
  have hdigit : ∀ c ∈ digitChars n.denominator, isSymbolChar c = true := by
    intro c hc
    have hdigit : c.isDigit = true := Nat.isDigit_of_mem_toDigits (by decide) le_rfl hc
    simp [isSymbolChar, Char.isAlphanum, hdigit]
  have hne : digitChars n.denominator ≠ [] := Nat.toDigits_ne_nil
  rw [Lexeme.WellSpelled, String.toList_ofList, n.toList_text]
  refine ⟨by simp [hne], List.forall_mem_append.mpr ⟨hdigit, fun c hc => ?_⟩⟩
  rw [(List.mem_replicate.mp hc).2]
  rfl

namespace EventText.Split

variable {e : EventText} (s : e.Split) {cs : List Char} {ls : List Lexeme}

lemma spells_note (h : Spells cs ls) (hcs : Breaks cs) :
    Spells (s.noteText.toList ++ cs) (s.noteLexemes ++ ls) ∧ Breaks (s.noteText.toList ++ cs) := by
  unfold noteText noteLexemes
  cases e.note with
  | none => exact ⟨h, hcs⟩
  | some n =>
    have hsymbol := Spells.symbol_lead n.spelled s.onNote h hcs
    refine ⟨?_, by simpa [Punct.char] using Breaks.of_mark .colon _⟩
    simpa [Punct.char] using Spells.mark .colon hsymbol

lemma spells_head (h : Spells cs ls) (hcs : Breaks cs) :
    Spells ((e.head.text ++ ModifierText.textOfAll s.onHead).toList ++ cs)
      (s.headLexemes ++ ls) := by
  unfold headLexemes
  cases e.head with
  | pitch p hpoint =>
    have hspelled := p.spelled
    rw [← String.ofList_toList (s := p.text)] at hspelled
    simpa [HeadText.text] using Spells.symbol_lead hspelled s.onHead h hcs
  | chord ps =>
    have hblank : isBlank ' ' = true := by decide
    have hbehind := Spells.mark .closeBracket (Spells.flush_lead s.onHead h hcs)
    have hpitches := Spells.join " " [] (Spells.blank hblank)
      (Breaks.of_isBlank hblank) hbehind (Breaks.of_mark .closeBracket _) ps
    simpa [HeadText.text, Punct.char] using Spells.mark .openBracket hpitches

/-- The text of an event is spelled by its tokens. -/
lemma spells : Spells s.text.toList s.lexemes := by
  obtain ⟨hbehind, hbreaks⟩ := Spells.behind s.behind
  obtain ⟨hnote, hstop⟩ := s.spells_note hbehind hbreaks
  simpa [text, lexemes] using s.spells_head hnote hstop

end EventText.Split

end Partitura
