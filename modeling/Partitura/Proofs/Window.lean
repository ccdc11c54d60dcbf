import Partitura.Grammar.Stream
import Partitura.Proofs.Walkthrough

/-!
Reading a block where it stands.

A window is a part of a row of tokens that is read in its place: the tokens before and behind it
are still there, and only the end is known before which is to be read. Every reader of a measure
block is given here for places of a window, and moves from place to place by looking at one token
at a time. What it leaves to be read is the place it has come to, so it has to mind the end wherever
it looks ahead, also where a bracket, parenthesis or brace is never closed.
-/

namespace Partitura

open Run

variable {P α : Type}

/-! ### Whole numbers among data -/

lemma Data.less_int (m n : Int) : (Data.int m).less (.int n) = .ok (decide (m < n)) := by
  simp [Data.less, Data.ordered, Data.orderedScalars, Scalar.quantity?, Scalar.whole?,
    Number.Quantity.less]

lemma Data.atMost_int (m n : Int) : (Data.int m).atMost (.int n) = .ok (decide (m ≤ n)) := by
  have horder : (Number.Quantity.whole m).atMost (.whole n) = decide (m ≤ n) := by
    rw [Bool.eq_iff_iff]
    simp only [Number.Quantity.atMost, Number.Quantity.less, Number.Quantity.same,
      Bool.or_eq_true, decide_eq_true_eq, beq_iff_eq]
    omega
  simp [Data.atMost, Data.ordered, Data.orderedScalars, Scalar.quantity?, Scalar.whole?, horder]

/-- A row of tokens, and an end in it before which is read. -/
structure Window (P : Type) where
  tokens : List (Token P)
  stop : Nat
  inside : stop ≤ tokens.length

namespace Window

variable {w : Window P} {pos : Nat} {t : Token P}

/-! ### Looking -/

def stream (w : Window P) (pos : Nat) : Stream P :=
  (Stream.ofTokens w.tokens).window (.int pos) (.int w.stop)

def peek? (w : Window P) (pos : Nat) : Option (Token P) :=
  match (w.stream pos).peek with
  | .ok t => t
  | .error _ => none

/-- What is looked at lies before the end. -/
lemma peek_stream (w : Window P) (pos : Nat) :
    (w.stream pos).peek =
      if pos < w.stop then
        match w.tokens[pos]? with
        | some t => .ok (some t)
        | none => .error .tokenOutOfRange
      else .ok none := by
  have hless : (Data.ofQuantity (.whole pos)).less (.int w.stop) = .ok (decide (pos < w.stop)) := by
    simp [Data.ofQuantity, Data.less_int]
  have hplace : (Number.Quantity.whole pos).add (.whole 0) = .ok (.whole pos) := by
    simp [Number.Quantity.add, Number.Quantity.combine]
  have hindex : Stream.index? w.tokens pos = w.tokens[pos]? := by simp [Stream.index?]
  have hpos : (w.stream pos).pos.quantity = .ok (.whole pos) := rfl
  have hnone : (Data.int 0).quantity = .ok (.whole 0) := rfl
  have hstop : (w.stream pos).stop = .int w.stop := rfl
  have htokens : (w.stream pos).tokens = w.tokens := rfl
  simp only [Stream.peek, hpos, hnone, ok_bind, hplace, hstop, hless, htokens, hindex]
  by_cases h : pos < w.stop
  · simp only [h, decide_true, if_true]
    rfl
  · simp only [h, decide_false, if_false]
    rfl

lemma peek?_eq (w : Window P) (pos : Nat) :
    w.peek? pos = if pos < w.stop then w.tokens[pos]? else none := by
  rw [peek?, peek_stream]
  split_ifs with h
  · cases w.tokens[pos]? <;> rfl
  · rfl

lemma lt_of_peek? (h : w.peek? pos = some t) : pos < w.stop := by
  by_contra hle
  rw [peek?_eq, if_neg hle] at h
  cases h

def shows (w : Window P) (p : Punct) (pos : Nat) : Bool := (w.peek? pos).any (·.isPunct p)

/-- The place behind a mark, if it stands there. -/
def skip (w : Window P) (p : Punct) (pos : Nat) : Nat := if w.shows p pos then pos + 1 else pos

lemma le_skip (w : Window P) (p : Punct) (pos : Nat) : pos ≤ w.skip p pos := by
  unfold skip
  split <;> omega

/-! ### Arguments -/

/-- How deep parentheses are nested behind a token. -/
def nested (t : Token P) (depth : Nat) : Nat :=
  if t.isPunct .openParen then depth + 1
  else if t.isPunct .closeParen then depth - 1
  else depth

/-- Collect arguments up to the closing parenthesis, to a bar or to a closing brace: those that are
complete, the newest first, and the one that is begun. An argument is `blank` at first and takes in
one token after the other. -/
def collect (w : Window P) (blank : α) (add : α → Token P → α) (depth : Nat) (done : List α)
    (current : α) (pos : Nat) : (List α × α) × Nat :=
  match _h : w.peek? pos with
  | none => ((done, current), pos)
  | some t =>
    if t.isPunct .bar || t.isPunct .closeBrace then ((done, current), pos)
    else if depth == 0 && t.isPunct .closeParen then ((done, current), pos + 1)
    else if depth == 0 && t.isPunct .comma then
      w.collect blank add 0 (current :: done) blank (pos + 1)
    else w.collect blank add (nested t depth) done (add current t) (pos + 1)
termination_by w.stop - pos
decreasing_by
  all_goals
    have := lt_of_peek? _h
    omega

def texts (w : Window P) (pos : Nat) : List String × Nat :=
  let ((done, current), behind) := w.collect "" (fun s t => s ++ t.value) 0 [] "" pos
  (closeTexts done current, behind)

def callArgs (w : Window P) (pos : Nat) : List (List (Token P)) × Nat :=
  if w.shows .openParen pos then
    let ((done, current), behind) := w.collect [] (fun us t => t :: us) 0 [] [] (pos + 1)
    (closeLists (done.map List.reverse) current, behind)
  else ([], pos)

lemma le_collect (w : Window P) (blank : α) (add : α → Token P → α) (depth : Nat) (done : List α)
    (current : α) (pos : Nat) : pos ≤ (w.collect blank add depth done current pos).2 := by
  fun_induction collect w blank add depth done current pos <;> simp_all <;> omega

lemma le_texts (w : Window P) (pos : Nat) : pos ≤ (w.texts pos).2 := le_collect ..

lemma le_callArgs (w : Window P) (pos : Nat) : pos ≤ (w.callArgs pos).2 := by
  unfold callArgs
  split
  · exact Nat.le_of_succ_le (le_collect ..)
  · exact Nat.le_refl pos

/-! ### Events -/

def chord (w : Window P) (pos : Nat) : List String × Nat :=
  match _h : w.peek? pos with
  | none => ([], pos)
  | some t =>
    if t.isPunct .closeBracket then ([], pos + 1)
    else if t.isPunct .bar || t.isPunct .closeBrace then ([], pos)
    else
      match t.lexeme with
      | .symbol s => (s :: (w.chord (pos + 1)).1, (w.chord (pos + 1)).2)
      | _ => w.chord (pos + 1)
termination_by w.stop - pos
decreasing_by
  all_goals
    have := lt_of_peek? _h
    omega

def tail (w : Window P) (chain : Chain) (length : Length) (pos : Nat) :
    Except Fault (Chain × Length) × Nat :=
  match _h : w.peek? pos with
  | none => (.ok (chain, length), pos)
  | some t =>
    match t.lexeme, chain, length with
    | .punct .openParen, (name, _) :: older, length =>
      w.tail ((name, (w.texts (pos + 1)).1) :: older) length (w.texts (pos + 1)).2
    | .punct .colon, chain, .unwritten =>
      match w.peek? (pos + 1) with
      | some ⟨.symbol s, _⟩ =>
        match Duration.read s with
        | .error f => (.error f, pos + 2)
        | .ok none => w.tail chain (.unreadable s) (pos + 2)
        | .ok (some (d, names)) => w.tail (chain.extend names.toList) (.value d) (pos + 2)
      | _ => w.tail chain .unwritten (pos + 1)
    | .symbol s, chain, length =>
      match s.toList with
      | '.' :: names => w.tail (chain.extend names) length (pos + 1)
      | _ => (.ok (chain, length), pos)
    | _, chain, length => (.ok (chain, length), pos)
termination_by w.stop - pos
decreasing_by
  all_goals
    have := lt_of_peek? _h
    have := le_texts w (pos + 1)
    omega

/-- The head of an event: its pitches, whether they are a chord, and the names of modifiers on the
pitch. -/
def head (w : Window P) (pos : Nat) : (List String × Bool × Chain) × Nat :=
  match w.peek? pos with
  | none => (([""], false, []), pos)
  | some t =>
    if t.isPunct .openBracket then (((w.chord (pos + 1)).1, true, []), (w.chord (pos + 1)).2)
    else
      let (pitch, names) := Text.cutAt '.' t.text.toList
      (([.ofList pitch], false, Chain.extend [] (names.getD [])), pos + 1)

def event (w : Window P) (pos : Nat) : Except Fault (WrittenEvent P) × Nat :=
  let ((pitches, chord, chain), behind) := w.head pos
  match w.tail chain .unwritten behind with
  | (.error f, last) => (.error f, last)
  | (.ok (chain, length), last) =>
    (.ok ⟨w.peek? pos, pitches, chord, length, chain.modifiers⟩, last)

lemma le_chord (w : Window P) (pos : Nat) : pos ≤ (w.chord pos).2 := by
  fun_induction chord w pos <;> simp_all <;> omega

lemma le_tail (w : Window P) (chain : Chain) (length : Length) (pos : Nat) :
    pos ≤ (w.tail chain length pos).2 := by
  have := fun pos => le_texts w pos
  fun_induction tail w chain length pos <;> grind

lemma lt_head (h : w.peek? pos = some t) : pos < (w.head pos).2 := by
  have := le_chord w (pos + 1)
  unfold head
  rw [h]
  simp only
  split <;> simp only <;> omega

lemma lt_event (h : w.peek? pos = some t) : pos < (w.event pos).2 := by
  have hhead := lt_head h
  have htail := le_tail w (w.head pos).1.2.2 .unwritten (w.head pos).2
  unfold event
  simp only
  split <;> rename_i heq <;> rw [heq] at htail <;> simp at htail ⊢ <;> omega

/-! ### Voices -/

/-- Whether a voice ends at a place: a bar, a closing brace, the word `meta`, or the name of a
defined instrument before a colon. -/
def endsVoice (w : Window P) (defined : String → Bool) (pos : Nat) : Bool :=
  match w.peek? pos with
  | none => true
  | some t =>
    match t.lexeme with
    | .punct p => p == .bar || p == .closeBrace
    | .symbol s => Text.lower s == "meta" || (defined s && w.shows .colon (pos + 1))
    | _ => false

def items (w : Window P) (defined : String → Bool) (pos : Nat) :
    List (Placed (Item P)) × Nat :=
  match _h : w.peek? pos with
  | none => ([], pos)
  | some t =>
    if w.endsVoice defined pos then ([], pos)
    else
      match t.lexeme with
      | .call name =>
        let (args, behind) := w.callArgs (pos + 1)
        let (items, last) := w.items defined (w.callArgs (pos + 1)).2
        (⟨.call t name args, w.stop - behind⟩ :: items, last)
      | _ =>
        if startsEvent t then
          let (e, behind) := w.event pos
          let (items, last) := w.items defined (w.event pos).2
          (⟨itemOf e, w.stop - behind⟩ :: items, last)
        else w.items defined (pos + 1)
termination_by w.stop - pos
decreasing_by
  all_goals
    have := lt_of_peek? _h
    have := le_callArgs w (pos + 1)
    have := lt_event _h
    omega

lemma le_items (w : Window P) (defined : String → Bool) (pos : Nat) :
    pos ≤ (w.items defined pos).2 := by
  have := fun pos => le_callArgs w pos
  have := fun pos t (h : w.peek? pos = some t) => lt_event h
  fun_induction items w defined pos <;> grind

def voices (w : Window P) (defined : String → Bool) (pos : Nat) :
    List (VoiceStream P) × Nat :=
  match _h : w.peek? pos with
  | none => ([], pos)
  | some t =>
    match t.lexeme with
    | .punct p => if p == .closeBrace then ([], pos + 1) else w.voices defined (pos + 1)
    | _ =>
      let items := w.items defined (w.skip .colon (pos + 1))
      let (voices, last) := w.voices defined (w.skip .bar items.2)
      (⟨t.value, items.1⟩ :: voices, last)
termination_by w.stop - pos
decreasing_by
  all_goals have := lt_of_peek? _h
  · omega
  · have := le_skip w .colon (pos + 1)
    have := le_items w defined (w.skip .colon (pos + 1))
    have := le_skip w .bar (w.items defined (w.skip .colon (pos + 1))).2
    omega

lemma le_voices (w : Window P) (defined : String → Bool) (pos : Nat) :
    pos ≤ (w.voices defined pos).2 := by
  have := fun pos => le_items w defined pos
  have := fun p pos => le_skip w p pos
  fun_induction voices w defined pos <;> grind

def part (w : Window P) (defined : String → Bool) (pos : Nat) : List (VoiceStream P) × Nat :=
  if w.shows .openBrace (w.skip .colon pos) then w.voices defined (w.skip .colon pos + 1)
  else
    let (items, behind) := w.items defined (w.skip .colon pos)
    ([⟨defaultVoice, items⟩], w.skip .bar behind)

lemma le_part (w : Window P) (defined : String → Bool) (pos : Nat) :
    pos ≤ (w.part defined pos).2 := by
  have := le_skip w .colon pos
  have := le_voices w defined (w.skip .colon pos + 1)
  have := le_items w defined (w.skip .colon pos)
  have := le_skip w .bar (w.items defined (w.skip .colon pos)).2
  unfold part
  split
  · omega
  · simp only
    omega

/-! ### Settings -/

def bracket (w : Window P) (text : String) (pos : Nat) : String × Nat :=
  match _h : w.peek? pos with
  | none => (text, pos)
  | some t =>
    if t.isPunct .closeBrace then (text, pos)
    else if t.isPunct .closeBracket then (text ++ t.value, pos + 1)
    else w.bracket (text ++ t.value) (pos + 1)
termination_by w.stop - pos
decreasing_by
  have := lt_of_peek? _h
  omega

def setting (w : Window P) (pos : Nat) : String × Nat :=
  match w.peek? pos with
  | none => ("", pos)
  | some t =>
    if t.isPunct .closeBrace || t.isPunct .comma then ("", pos)
    else if t.isPunct .openBracket then w.bracket t.value (pos + 1)
    else (t.value, pos + 1)

lemma le_bracket (w : Window P) (text : String) (pos : Nat) : pos ≤ (w.bracket text pos).2 := by
  fun_induction bracket w text pos <;> grind

lemma le_setting (w : Window P) (pos : Nat) : pos ≤ (w.setting pos).2 := by
  have := fun text => le_bracket w text (pos + 1)
  fun_cases setting w pos <;> grind

def settings (w : Window P) (pos : Nat) : List (Token P × String) × Nat :=
  match _h : w.peek? pos with
  | none => ([], pos)
  | some t =>
    match t.lexeme with
    | .punct p => if p == .closeBrace then ([], pos + 1) else w.settings (pos + 1)
    | _ =>
      let value := w.setting (w.skip .colon (pos + 1))
      let (settings, last) := w.settings (w.skip .comma value.2)
      ((t, value.1) :: settings, last)
termination_by w.stop - pos
decreasing_by
  all_goals
    have := lt_of_peek? _h
    have := le_skip w .colon (pos + 1)
    have := le_setting w (w.skip .colon (pos + 1))
    have := le_skip w .comma (w.setting (w.skip .colon (pos + 1))).2
    omega

lemma le_settings (w : Window P) (pos : Nat) : pos ≤ (w.settings pos).2 := by
  have := fun pos => le_setting w pos
  have := fun p pos => le_skip w p pos
  fun_induction settings w pos <;> grind

/-- A `meta` block from its keyword on. -/
def header (w : Window P) (pos : Nat) : HeaderBlock P × Nat :=
  if w.shows .openBrace (pos + 1) then
    let (settings, behind) := w.settings (pos + 2)
    (⟨w.peek? pos, some settings⟩, behind)
  else (⟨w.peek? pos, none⟩, pos + 1)

lemma lt_header (w : Window P) (pos : Nat) : pos < (w.header pos).2 := by
  have := le_settings w (pos + 2)
  unfold header
  split <;> simp only <;> omega

/-! ### Measures -/

/-- Play a measure block from a place on, in a measure that starts at the tick `base`. The result is
the place where it ends. -/
def replay (w : Window P) (index base : Int) (pos : Nat) : Run P Nat :=
  match _h : w.peek? pos with
  | none => return pos
  | some t =>
    match t.lexeme with
    | .symbol s =>
      if Text.lower s == "meta" then do
        applyHeader (w.header pos).1
        w.replay index base (w.header pos).2
      else do
        let c ← get
        match c.instrument? s with
        | some i =>
          playPart i (w.part c.defines (pos + 1)).1 base (some index)
          w.replay index base (w.part c.defines (pos + 1)).2
        | none => w.replay index base (pos + 1)
    | _ => w.replay index base (pos + 1)
termination_by w.stop - pos
decreasing_by
  all_goals
    have := lt_of_peek? _h
    have := lt_header w pos
  · omega
  · have := le_part w c.defines (pos + 1)
    omega
  · omega
  · omega

end Window

end Partitura
