import Mathlib.Tactic.Common
import Partitura.Grammar.Voice

/-!
The tokens of an event, and where its reading stops.

`IsEvent` is the grammar of a complete event: a symbol or a closed chord, then at most one
length, names of modifiers, and closed lists of arguments that belong to a name. Such an event
is read the same whatever stands behind it (`IsEvent.read`), unless what stands behind goes on
with it: a colon, a parenthesis, or a symbol with a point in front.
-/

namespace Partitura

open Text

variable {P : Type}

/-! ### The grammar -/

def continuesEvent (t : Token P) : Bool :=
  match t.lexeme with
  | .punct .colon => true
  | .punct .openParen => true
  | .symbol s => s.toList.head? == some '.'
  | _ => false

def BreaksOff (ts : List (Token P)) : Prop := ∀ t ∈ ts.head?, continuesEvent t = false

/-- Arguments without bars and closing braces, from behind the opening parenthesis to the one
that closes it, `depth` parentheses deep. -/
inductive IsClosed : (depth : Nat) → List (Token P) → Prop
  | close (p : P) : IsClosed 0 [⟨.punct .closeParen, p⟩]
  | leave {depth : Nat} (p : P) {us : List (Token P)} :
    IsClosed depth us → IsClosed (depth + 1) (⟨.punct .closeParen, p⟩ :: us)
  | enter {depth : Nat} (p : P) {us : List (Token P)} :
    IsClosed (depth + 1) us → IsClosed depth (⟨.punct .openParen, p⟩ :: us)
  | pass {depth : Nat} {t : Token P} {us : List (Token P)} :
    t.lexeme ∉ [.punct .bar, .punct .closeBrace, .punct .openParen, .punct .closeParen] →
    IsClosed depth us → IsClosed depth (t :: us)

def holdsName (text : List Char) : Bool := (pieces '.' text).any (!·.isEmpty)

/-- Whether names of modifiers stand on a length. Where it is a fault, nothing behind it is
read. -/
def lengthHoldsName (s : String) : Bool :=
  match Duration.read s with
  | .error _ => true
  | .ok none => false
  | .ok (some (_, tail)) => holdsName tail.toList

/-- Lengths and modifiers behind a pitch; `named` says that a modifier was named before, `timed`
that a length was given. -/
inductive IsTail : (named timed : Bool) → List (Token P) → Prop
  | nil {named timed : Bool} : IsTail named timed []
  | names {named timed : Bool} {s : String} {text : List Char} (p : P) {us : List (Token P)} :
    s.toList = '.' :: text → IsTail (named || holdsName text) timed us →
    IsTail named timed (⟨.symbol s, p⟩ :: us)
  | args {timed : Bool} (p : P) {us vs : List (Token P)} :
    IsClosed 0 us → IsTail true timed vs → IsTail true timed (⟨.punct .openParen, p⟩ :: (us ++ vs))
  | length {named : Bool} {s : String} (p q : P) {us : List (Token P)} :
    IsTail (named || lengthHoldsName s) true us →
    IsTail named false (⟨.punct .colon, p⟩ :: ⟨.symbol s, q⟩ :: us)

inductive IsEvent : List (Token P) → Prop
  | single {s : String} (p : P) {us : List (Token P)} :
    s.toList.head? ≠ some '.' → IsTail (holdsName ((cutAt '.' s.toList).2.getD [])) false us →
    IsEvent (⟨.symbol s, p⟩ :: us)
  | chord (p q : P) {us vs : List (Token P)} :
    (∀ t ∈ us, t.lexeme ∉ [.punct .bar, .punct .closeBrace, .punct .closeBracket]) →
    IsTail false false vs →
    IsEvent (⟨.punct .openBracket, p⟩ :: (us ++ ⟨.punct .closeBracket, q⟩ :: vs))

/-! ### Reading -/

/-- Whatever stands behind `us` and does not go on with it, reading takes `us` and gives `r`;
a fault may leave some of it unread. -/
def ReadsAs {α : Type} (read : List (Token P) → Except Fault α × List (Token P))
    (us : List (Token P)) (r : Except Fault α) : Prop :=
  ∀ rest, BreaksOff rest → (read (us ++ rest)).1 = r ∧
    ∀ a, r = .ok a → (read (us ++ rest)).2 = rest

lemma ReadsAs.ok {α : Type} {read : List (Token P) → Except Fault α × List (Token P)}
    {us rest : List (Token P)} {a : α} (h : ReadsAs read us (.ok a)) (hrest : BreaksOff rest) :
    read (us ++ rest) = (.ok a, rest) :=
  Prod.ext (h rest hrest).1 ((h rest hrest).2 a rfl)

lemma ReadsAs.error {α : Type} {read : List (Token P) → Except Fault α × List (Token P)}
    {us rest : List (Token P)} {f : Fault} (h : ReadsAs read us (.error f))
    (hrest : BreaksOff rest) : ∃ behind, read (us ++ rest) = (.error f, behind) :=
  ⟨_, Prod.ext (h rest hrest).1 rfl⟩

/-- A token among arguments changes only what was collected. -/
lemma readTexts_pass {depth : Nat} {t : Token P}
    (h : t.lexeme ∉ [.punct .bar, .punct .closeBrace, .punct .openParen, .punct .closeParen])
    (done : List String) (current : String) :
    ∃ done' current', ∀ ts,
      readTexts depth done current (t :: ts) = readTexts depth done' current' ts := by
  obtain ⟨lexeme, p⟩ := t
  rcases lexeme with mark | _ | _ | _
  · cases mark <;> cases depth <;> simp at h <;> exact ⟨_, _, fun _ => rfl⟩
  all_goals exact ⟨_, _, fun _ => rfl⟩

lemma IsClosed.readTexts {depth : Nat} {us : List (Token P)} (h : IsClosed depth us)
    (done : List String) (current : String) :
    ∃ texts, ∀ rest, readTexts depth done current (us ++ rest) = (texts, rest) := by
  induction h generalizing done current with
  | close p => exact ⟨_, fun rest => rfl⟩
  | leave p _ ih => exact ih done _
  | enter p _ ih => exact ih done _
  | pass ht _ ih =>
    obtain ⟨done', current', hstep⟩ := readTexts_pass ht done current
    obtain ⟨texts, htexts⟩ := ih done' current'
    exact ⟨texts, fun rest => (hstep _).trans (htexts rest)⟩

lemma readChord_append {us : List (Token P)}
    (h : ∀ t ∈ us, t.lexeme ∉ [.punct .bar, .punct .closeBrace, .punct .closeBracket]) (q : P) :
    ∃ pitches, ∀ rest,
      readChord (us ++ ⟨.punct .closeBracket, q⟩ :: rest) = (pitches, rest) := by
  induction us with
  | nil => exact ⟨[], fun rest => rfl⟩
  | cons t us ih =>
    obtain ⟨ht, hus⟩ := List.forall_mem_cons.mp h
    obtain ⟨pitches, hpitches⟩ := ih hus
    obtain ⟨lexeme, p⟩ := t
    rcases lexeme with mark | _ | _ | s
    · cases mark <;> simp at ht <;> exact ⟨pitches, hpitches⟩
    · exact ⟨pitches, hpitches⟩
    · exact ⟨pitches, hpitches⟩
    · exact ⟨s :: pitches, fun rest => by simp [readChord, hpitches]⟩

lemma Chain.length_extend (chain : Chain) (text : List Char) :
    (chain.extend text).length = chain.length + (pieces '.' text).countP (!·.isEmpty) := by
  unfold Chain.extend
  induction pieces '.' text generalizing chain with
  | nil => simp
  | cons name names ih =>
    rw [List.foldl_cons, ih, List.countP_cons]
    split <;> simp_all [Nat.add_assoc, Nat.add_comm 1]

lemma Chain.extend_ne_nil {chain : Chain} {text : List Char}
    (h : chain ≠ [] ∨ holdsName text = true) : chain.extend text ≠ [] := by
  rw [← List.length_pos_iff, Chain.length_extend]
  rcases h with hchain | htext
  · have := List.length_pos_iff.mpr hchain
    omega
  · have := List.countP_pos_iff.mpr (List.any_eq_true.mp htext)
    omega

lemma readTail_breaksOff (chain : Chain) (length : Length) {rest : List (Token P)}
    (h : BreaksOff rest) : readTail chain length rest = (.ok (chain, length), rest) := by
  rw [readTail.eq_def]
  rcases rest with _ | ⟨⟨lexeme, p⟩, rest⟩
  · rfl
  · have ht : continuesEvent ⟨lexeme, p⟩ = false := h _ rfl
    rcases lexeme with mark | _ | _ | s
    · cases mark <;> first | rfl | cases ht
    · rfl
    · rfl
    · simp only
      split
      · simp_all [continuesEvent]
      · rfl

lemma readTail_names (chain : Chain) (length : Length) {s : String} {text : List Char}
    (hs : s.toList = '.' :: text) (p : P) (ts : List (Token P)) :
    readTail chain length (⟨.symbol s, p⟩ :: ts) = readTail (chain.extend text) length ts := by
  rw [readTail.eq_def]
  simp only [hs]

lemma readTail_args (name : String) (old : List String) (older : Chain) (length : Length) (p : P)
    (ts : List (Token P)) :
    readTail ((name, old) :: older) length (⟨.punct .openParen, p⟩ :: ts) =
      readTail ((name, (readTexts 0 [] "" ts).1) :: older) length (readTexts 0 [] "" ts).2 := by
  rw [readTail.eq_def]

lemma readTail_length (chain : Chain) (s : String) (p q : P) (ts : List (Token P)) :
    readTail chain .unwritten (⟨.punct .colon, p⟩ :: ⟨.symbol s, q⟩ :: ts) =
      match Duration.read s with
      | .error f => (.error f, ts)
      | .ok none => readTail chain (.unreadable s) ts
      | .ok (some (d, tail)) => readTail (chain.extend tail.toList) (.value d) ts := by
  rewrite [readTail.eq_def]
  rcases hread : Duration.read s with f | _ | ⟨d, tail⟩ <;> simp only [hread]

/-- Reading the tail of an event stops behind it. -/
lemma IsTail.read {named timed : Bool} {us : List (Token P)} (h : IsTail named timed us)
    (chain : Chain) (length : Length) (hchain : named = true → chain ≠ [])
    (hlength : timed = false → length = .unwritten) :
    ∃ r, ReadsAs (readTail chain length) us r := by
  induction h generalizing chain length with
  | nil =>
    refine ⟨.ok (chain, length), fun rest hrest => ?_⟩
    rw [List.nil_append, readTail_breaksOff chain length hrest]
    exact ⟨rfl, fun _ _ => rfl⟩
  | names p hs _ ih =>
    obtain ⟨r, hr⟩ := ih (chain.extend _) length
      (fun hnamed => Chain.extend_ne_nil ((Bool.or_eq_true_iff.mp hnamed).imp_left hchain)) hlength
    refine ⟨r, fun rest hrest => ?_⟩
    rw [List.cons_append, readTail_names chain length hs]
    exact hr rest hrest
  | args p hus _ ih =>
    obtain ⟨⟨name, old⟩, older, rfl⟩ := List.exists_cons_of_ne_nil (hchain rfl)
    obtain ⟨texts, htexts⟩ := hus.readTexts [] ""
    obtain ⟨r, hr⟩ := ih ((name, texts) :: older) length (by simp) hlength
    refine ⟨r, fun rest hrest => ?_⟩
    rw [List.cons_append, List.append_assoc, readTail_args, htexts]
    exact hr rest hrest
  | @length named s p q us _ ih =>
    obtain rfl := hlength rfl
    unfold ReadsAs
    simp only [List.cons_append, readTail_length]
    rcases hread : Duration.read s with f | _ | ⟨d, tail⟩
    · exact ⟨.error f, fun rest _ => ⟨rfl, by simp⟩⟩
    · -- a length that cannot be read names no modifier
      simp only [lengthHoldsName, hread, Bool.or_false] at ih
      exact ih chain _ hchain (by simp)
    · simp only [lengthHoldsName, hread] at ih
      exact ih _ _ (fun hnamed => Chain.extend_ne_nil
        ((Bool.or_eq_true_iff.mp hnamed).imp_left hchain)) (by simp)

/-- An event is read as its head and its tail are. -/
lemma ReadsAs.event (t : Token P) (us : List (Token P)) {vs : List (Token P)}
    {pitches : List String} {chord : Bool} {chain : Chain} {r : Except Fault (Chain × Length)}
    (hhead : ∀ ts, readHead (t :: (us ++ ts)) = ((pitches, chord, chain), ts))
    (hr : ReadsAs (readTail chain .unwritten) vs r) :
    ∃ r', ReadsAs readEvent (t :: (us ++ vs)) r' := by
  refine ⟨r.map fun q => ⟨some t, pitches, chord, q.2, q.1.modifiers⟩, fun rest hrest => ?_⟩
  obtain ⟨hresult, hbehind⟩ := hr rest hrest
  simp only [List.cons_append, List.append_assoc, readEvent, hhead]
  rcases htail : readTail chain .unwritten (vs ++ rest) with ⟨f | ⟨chain', length⟩, behind⟩
  · rw [htail] at hresult
    subst hresult
    exact ⟨rfl, by simp [Except.map]⟩
  · rw [htail] at hresult hbehind
    subst hresult
    exact ⟨rfl, fun _ _ => hbehind _ rfl⟩

/-- **An event is read the same whatever breaks off behind it.** -/
lemma IsEvent.read {us : List (Token P)} (h : IsEvent us) : ∃ r, ReadsAs readEvent us r := by
  cases h with
  | @single s p us hs hus =>
    obtain ⟨r, hr⟩ := hus.read (Chain.extend [] ((cutAt '.' s.toList).2.getD [])) .unwritten
      (fun hnamed => Chain.extend_ne_nil (.inr hnamed)) fun _ => rfl
    exact ReadsAs.event ⟨.symbol s, p⟩ [] (fun ts => rfl) hr
  | @chord p q us vs hus hvs =>
    obtain ⟨pitches, hpitches⟩ := readChord_append hus q
    obtain ⟨r, hr⟩ := hvs.read [] .unwritten (by simp) fun _ => rfl
    have hhead (ts : List (Token P)) :
        readHead (⟨.punct .openBracket, p⟩ :: (us ++ [⟨.punct .closeBracket, q⟩] ++ ts)) =
          ((pitches, true, []), ts) := by
      have hbracket : Token.isPunct .openBracket ⟨.punct .openBracket, p⟩ = true := rfl
      rw [List.append_assoc, List.singleton_append, readHead, if_pos hbracket, hpitches]
    simpa using ReadsAs.event _ _ hhead hr

/-! ### Where an event stands -/

lemma IsEvent.exists_cons {us : List (Token P)} (h : IsEvent us) :
    ∃ t ts, us = t :: ts ∧ startsEvent t = true := by
  cases h with
  | single p hs _ => exact ⟨_, _, rfl, by simpa [startsEvent] using hs⟩
  | chord p q _ _ => exact ⟨_, _, rfl, rfl⟩

/-- What begins an event does not go on with the one before. -/
lemma not_continuesEvent {t : Token P} (h : startsEvent t = true) : continuesEvent t = false := by
  obtain ⟨lexeme, p⟩ := t
  rcases lexeme with mark | _ | _ | s
  · cases mark <;> first | rfl | cases h
  · rfl
  · rfl
  · simpa [startsEvent, continuesEvent] using h

/-- Further events break off, and so do further events before what breaks off. -/
lemma breaksOff_flatten {events : List (List (Token P))} (h : ∀ e ∈ events, IsEvent e)
    {rest : List (Token P)} (hrest : BreaksOff rest) : BreaksOff (events.flatten ++ rest) := by
  cases events with
  | nil => simpa using hrest
  | cons e events =>
    obtain ⟨t, ts, rfl, ht⟩ := (h e (by simp)).exists_cons
    simp [BreaksOff, not_continuesEvent ht]

/-- A stream that does not end at an event alone does not end there. -/
lemma endsStream_append {defined : String → Bool} {us rest : List (Token P)}
    (h : endsStream defined us = false) (hrest : BreaksOff rest) :
    endsStream defined (us ++ rest) = false := by
  match us with
  | [] => cases h
  | [t] =>
    cases rest with
    | nil => exact h
    | cons u rest =>
      have hcolon : u.isPunct .colon = false := by
        have hu : continuesEvent u = false := hrest u rfl
        by_contra hcolon
        simp_all [Token.isPunct, continuesEvent]
      simp_all [endsStream]
  | t :: u :: us => exact h

end Partitura
