import Partitura.Proofs.Window

/-!
A measure block sees only itself.

Whatever a reader does at the places of a window, it does as the reader of lists does on the tokens
from there to the end (`Follows`), and what is left tells the place it has come to. So in two
windows that have the same tokens between a place and one end, all readers do the same, and so does
playing the block (`replay_secluded`).
-/

namespace Partitura

open Run

variable {P α : Type}

namespace Window

variable {v w : Window P} {pos start : Nat} {t : Token P} {ts : List (Token P)}

/-! ### What is still to be read -/

/-- The tokens from a place to the end of the window. -/
structure At (w : Window P) (pos : Nat) (ts : List (Token P)) : Prop where
  le : pos ≤ w.stop
  rest : (w.tokens.take w.stop).drop pos = ts

namespace At

lemma length_eq (h : w.At pos ts) : ts.length = w.stop - pos := by
  simp [← h.rest, Nat.min_eq_left w.inside]

lemma peek? (h : w.At pos ts) : w.peek? pos = ts.head? := by
  rw [peek?_eq, ← h.rest, List.head?_drop, List.getElem?_take]

lemma peek?_cons (h : w.At pos (t :: ts)) : w.peek? pos = some t := h.peek?

lemma next (h : w.At pos (t :: ts)) : w.At (pos + 1) ts := by
  have hlt : pos < w.stop := lt_of_peek? h.peek?_cons
  exact ⟨hlt, by rw [← List.drop_drop, h.rest, List.drop_one, List.tail_cons]⟩

/-- What is left to be read tells the place. -/
lemma pos_eq (h : w.At pos ts) : pos = w.stop - ts.length := by
  have := h.length_eq
  have := h.le
  omega

lemma shows (h : w.At pos ts) (p : Punct) : w.shows p pos = ts.head?.any (·.isPunct p) := by
  rw [Window.shows, h.peek?]

lemma skip (h : w.At pos ts) (p : Punct) : w.At (w.skip p pos) (skipPunct p ts) := by
  rw [Window.skip, h.shows]
  cases ts with
  | nil => exact h
  | cons t ts =>
    by_cases ht : t.isPunct p = true
    · simpa [skipPunct, ht] using h.next
    · simpa [skipPunct, ht] using h

end At

/-- Where a mark does not stand in front, it is not shown. -/
lemma any_isPunct_eq_false {q : Punct} (h : ∀ p rest, ts = ⟨.punct q, p⟩ :: rest → False) :
    ts.head?.any (·.isPunct q) = false := by
  cases ts with
  | nil => rfl
  | cons t ts =>
    obtain ⟨l, p⟩ := t
    have hl : l ≠ .punct q := fun hl => h p ts (by rw [hl])
    simpa [Token.isPunct] using hl

/-- A reader at the places of a window reads as one of lists does, from there to the end. -/
def Follows (w : Window P) (g : Nat → α × Nat) (f : List (Token P) → α × List (Token P)) : Prop :=
  ∀ {pos ts}, w.At pos ts → (g pos).1 = (f ts).1 ∧ w.At (g pos).2 (f ts).2

/-! ### Arguments -/

lemma collect_texts (h : w.At pos ts) (depth : Nat) (done : List String) (current : String) :
    let r := w.collect "" (fun s t => s ++ t.value) depth done current pos
    closeTexts r.1.1 r.1.2 = (readTexts depth done current ts).1 ∧
      w.At r.2 (readTexts depth done current ts).2 := by
  intro r
  simp only [r]
  fun_induction readTexts depth done current ts generalizing pos with
  | case1 =>
    rw [collect, h.peek?]
    exact ⟨rfl, h⟩
  | case2 _ _ _ t ts ht | case3 _ _ _ t ts ht =>
    rw [collect, h.peek?_cons]
    simpa [Token.isPunct, ht] using h
  | case4 _ _ t ts ht =>
    rw [collect, h.peek?_cons]
    simpa [Token.isPunct, ht] using h.next
  | case5 _ _ t ts ht _ ih | case6 _ _ _ t ts ht ih | case7 _ _ t ts ht ih
    | case8 _ _ t ts ht _ ih =>
    rw [collect, h.peek?_cons]
    simpa [Token.isPunct, ht, nested] using ih h.next
  | case9 _ _ _ t ts _ _ _ _ _ ih =>
    rw [collect, h.peek?_cons]
    simp_all [Token.isPunct, nested, ih h.next]

lemma collect_lists (h : w.At pos ts) (depth : Nat) (done : List (List (Token P)))
    (current : List (Token P)) :
    let r := w.collect [] (fun us t => t :: us) depth done current pos
    closeLists (r.1.1.map List.reverse) r.1.2 =
        (readLists depth (done.map List.reverse) current ts).1 ∧
      w.At r.2 (readLists depth (done.map List.reverse) current ts).2 := by
  intro r
  simp only [r]
  generalize hdone : done.map List.reverse = written
  fun_induction readLists depth written current ts generalizing pos done with
  | case1 =>
    rw [collect, h.peek?]
    simpa [hdone] using h
  | case2 _ _ _ t ts ht | case3 _ _ _ t ts ht =>
    rw [collect, h.peek?_cons]
    simpa [Token.isPunct, ht, hdone] using h
  | case4 _ _ t ts ht =>
    rw [collect, h.peek?_cons]
    simpa [Token.isPunct, ht, hdone] using h.next
  | case7 _ current t ts ht ih =>
    rw [collect, h.peek?_cons]
    simpa [Token.isPunct, ht, nested] using ih h.next (current :: done) (by simp [hdone])
  | case5 _ _ t ts ht _ ih | case6 _ _ _ t ts ht ih | case8 _ _ t ts ht _ ih =>
    rw [collect, h.peek?_cons]
    simpa [Token.isPunct, ht, nested] using ih h.next done hdone
  | case9 _ _ _ t ts _ _ _ _ _ ih =>
    rw [collect, h.peek?_cons]
    simp_all [Token.isPunct, nested, ih h.next done hdone]

lemma follows_texts (w : Window P) : w.Follows w.texts (readTexts 0 [] "") :=
  fun h => collect_texts h 0 [] ""

lemma follows_callArgs (w : Window P) : w.Follows w.callArgs readCallArgs := by
  intro pos ts h
  unfold callArgs readCallArgs
  rw [h.shows]
  cases ts with
  | nil => exact ⟨rfl, h⟩
  | cons t ts =>
    by_cases ht : t.isPunct .openParen = true
    · simpa [ht] using collect_lists h.next 0 [] []
    · simpa [ht] using h

/-! ### Events -/

lemma follows_chord (w : Window P) : w.Follows w.chord readChord := by
  intro pos ts h
  fun_induction readChord ts generalizing pos with
  | case1 =>
    rw [chord, h.peek?]
    exact ⟨rfl, h⟩
  | case2 t ts ht =>
    rw [chord, h.peek?_cons]
    simpa [Token.isPunct, ht] using h.next
  | case3 t ts ht | case4 t ts ht =>
    rw [chord, h.peek?_cons]
    simpa [Token.isPunct, ht] using h
  | case5 t ts s ht pitches rest hread ih =>
    have hnext := ih h.next
    rw [hread] at hnext
    rw [chord, h.peek?_cons]
    simpa [Token.isPunct, ht] using hnext
  | case6 t ts _ _ _ _ ih =>
    have hnext := ih h.next
    rw [chord, h.peek?_cons]
    simp_all [Token.isPunct]

lemma follows_tail (w : Window P) (chain : Chain) (length : Length) :
    w.Follows (w.tail chain length) (readTail chain length) := by
  intro pos ts h
  fun_induction readTail chain length ts generalizing pos with
  | case1 =>
    rw [tail, h.peek?]
    exact ⟨rfl, h⟩
  | case2 length t ts ht =>
    rw [tail, h.peek?_cons]
    simpa [ht] using h
  | case3 length t ts ht name args older _ ih =>
    obtain ⟨htexts, hbehind⟩ := follows_texts w h.next
    rw [tail, h.peek?_cons]
    simpa [ht, htexts] using ih hbehind
  | case4 chain t ht s p rest f hread =>
    rw [tail, h.peek?_cons]
    simpa [ht, h.next.peek?_cons, hread] using h.next.next
  | case5 chain t ht s p rest hread ih =>
    rw [tail, h.peek?_cons]
    simpa [ht, h.next.peek?_cons, hread] using ih h.next.next
  | case6 chain t ht s p rest d names hread ih =>
    rw [tail, h.peek?_cons]
    simpa [ht, h.next.peek?_cons, hread] using ih h.next.next
  | case7 chain t ht ts hts ih =>
    -- a colon without a length behind it, or with the end of the window
    have hsymbol : ∀ s p, ts.head? ≠ some ⟨.symbol s, p⟩ := by
      intro s p hs
      obtain ⟨rest, hrest⟩ := List.head?_eq_some_iff.mp hs
      exact hts s p rest hrest
    rw [tail, h.peek?_cons]
    simp only [ht, h.next.peek?]
    exact ih h.next
  | case8 chain length t ts ht hlength =>
    rw [tail, h.peek?_cons]
    cases length with
    | unwritten => exact absurd rfl hlength
    | _ => simpa [ht] using h
  | case9 chain length t ts s ht names hs ih =>
    rw [tail, h.peek?_cons]
    simpa [ht, hs] using ih h.next
  | case10 chain length t ts s ht hs =>
    rw [tail, h.peek?_cons]
    simpa [ht] using h
  | case11 chain length t ts hparen hcolon hsymbol =>
    rw [tail, h.peek?_cons]
    simp only
    split
    · exact absurd ‹_› hparen
    · exact absurd ‹_› hcolon
    · exact absurd ‹_› (hsymbol _)
    · exact ⟨rfl, h⟩

lemma follows_head (w : Window P) : w.Follows w.head readHead := by
  intro pos ts h
  cases ts with
  | nil =>
    rw [head, h.peek?]
    exact ⟨rfl, h⟩
  | cons t ts =>
    have hchord := follows_chord w h.next
    rw [head, h.peek?_cons, readHead]
    by_cases ht : t.isPunct .openBracket = true
    · simpa [ht] using hchord
    · simpa [ht] using h.next

lemma follows_event (w : Window P) : w.Follows w.event readEvent := by
  intro pos ts h
  obtain ⟨hhead, hrest⟩ := follows_head w h
  obtain ⟨htail, hlast⟩ := follows_tail w (readHead ts).1.2.2 .unwritten hrest
  unfold event readEvent
  simp only [hhead, h.peek?]
  generalize w.tail (readHead ts).1.2.2 .unwritten (w.head pos).2 = r at htail hlast ⊢
  generalize readTail (readHead ts).1.2.2 .unwritten (readHead ts).2 = r' at htail hlast ⊢
  obtain ⟨e, behind⟩ := r
  obtain ⟨e', rest⟩ := r'
  simp only at htail
  subst htail
  cases e with
  | error f => exact ⟨rfl, hlast⟩
  | ok e => exact ⟨rfl, hlast⟩

/-! ### Voices -/

lemma At.endsVoice (h : w.At pos ts) (defined : String → Bool) :
    w.endsVoice defined pos = endsStream defined ts := by
  unfold Window.endsVoice endsStream
  cases ts with
  | nil => rw [h.peek?]; rfl
  | cons t ts =>
    simp only [h.peek?_cons, h.next.shows]
    cases t.lexeme with
    | punct p => cases p <;> rfl
    | _ => rfl

lemma follows_items (w : Window P) (defined : String → Bool) :
    w.Follows (w.items defined) (readStream defined) := by
  intro pos ts h
  unfold readStream
  fun_induction readItems (endsStream defined) ts generalizing pos with
  | case1 =>
    rw [items, h.peek?]
    exact ⟨rfl, h⟩
  | case2 t ts hends =>
    rw [items, h.peek?_cons]
    simpa [h.endsVoice, hends] using h
  | case3 t ts hends name ht _ args rest hread items behind hitems ih =>
    obtain ⟨hargs, hrest⟩ := follows_callArgs w h.next
    have hplace := hrest.length_eq
    have hnext := ih hrest
    rw [hitems] at hnext
    rw [hread] at hargs hplace
    rw [Window.items, h.peek?_cons]
    simpa [h.endsVoice, hends, ht, hargs, hplace] using hnext
  | case4 t ts hends hstart _ e rest hread items behind hitems hcall ih =>
    obtain ⟨hevent, hrest⟩ := follows_event w h
    have hplace := hrest.length_eq
    have hnext := ih hrest
    rw [hitems] at hnext
    rw [hread] at hevent hplace
    rw [Window.items, h.peek?_cons]
    simpa [h.endsVoice, hends, hstart, hevent, hplace] using hnext
  | case5 t ts hends hstart hcall ih =>
    rw [items, h.peek?_cons]
    simpa [h.endsVoice, hends, hstart] using ih h.next

lemma follows_voices (w : Window P) (defined : String → Bool) :
    w.Follows (w.voices defined) (readVoices defined) := by
  intro pos ts h
  fun_induction readVoices defined ts generalizing pos with
  | case1 =>
    rw [voices, h.peek?]
    exact ⟨rfl, h⟩
  | case2 t ts ht =>
    rw [voices, h.peek?_cons]
    simpa [ht] using h.next
  | case3 t ts p hp ht ih =>
    have hne : (p == .closeBrace) = false := beq_eq_false_iff_ne.mpr hp
    rw [voices, h.peek?_cons]
    simpa [ht, hne] using ih h.next
  | case4 t ts _ _ _ items voices rest hread _ hname =>
    rename_i ih
    obtain ⟨hitems, hbehind⟩ := follows_items w defined (h.next.skip .colon)
    have hnext := ih (hbehind.skip .bar)
    rw [hread] at hnext
    rw [Window.voices, h.peek?_cons]
    simpa [hitems, items] using hnext

lemma follows_part (w : Window P) (defined : String → Bool) :
    w.Follows (w.part defined) (readPart defined) := by
  intro pos ts h
  have hcolon := h.skip .colon
  obtain ⟨hitems, hbehind⟩ := follows_items w defined hcolon
  unfold part
  rw [hcolon.shows]
  fun_cases readPart defined ts with
  | case1 p rest heq =>
    rw [heq] at hcolon
    simpa [heq, Token.isPunct] using follows_voices w defined hcolon.next
  | case2 items rest hopen hread =>
    rw [hread] at hitems hbehind
    simpa [any_isPunct_eq_false hopen, hitems] using hbehind.skip .bar

/-! ### Settings -/

lemma follows_bracket (w : Window P) (text : String) :
    w.Follows (w.bracket text) (readBracket text) := by
  intro pos ts h
  fun_induction readBracket text ts generalizing pos with
  | case1 =>
    rw [bracket, h.peek?]
    exact ⟨rfl, h⟩
  | case2 text t ts ht =>
    rw [bracket, h.peek?_cons]
    simpa [Token.isPunct, ht] using h
  | case3 text t ts ht =>
    rw [bracket, h.peek?_cons]
    simpa [Token.isPunct, ht] using h.next
  | case4 text t ts _ _ ih =>
    have hnext := ih h.next
    rw [bracket, h.peek?_cons]
    simp_all [Token.isPunct]

lemma follows_setting (w : Window P) : w.Follows w.setting readSetting := by
  intro pos ts h
  cases ts with
  | nil =>
    rw [setting, h.peek?]
    exact ⟨rfl, h⟩
  | cons t ts =>
    have hbracket := follows_bracket w t.value h.next
    obtain ⟨lexeme, p⟩ := t
    rw [setting, h.peek?_cons]
    rcases lexeme with mark | _ | _ | _
    · cases mark with
      | closeBrace | comma => exact ⟨rfl, h⟩
      | openBracket => exact hbracket
      | _ => exact ⟨rfl, h.next⟩
    all_goals exact ⟨rfl, h.next⟩

lemma follows_settings (w : Window P) : w.Follows w.settings readSettings := by
  intro pos ts h
  fun_induction readSettings ts generalizing pos with
  | case1 =>
    rw [settings, h.peek?]
    exact ⟨rfl, h⟩
  | case2 t ts ht =>
    rw [settings, h.peek?_cons]
    simpa [ht] using h.next
  | case3 t ts p hp ht ih =>
    have hne : (p == .closeBrace) = false := beq_eq_false_iff_ne.mpr hp
    rw [settings, h.peek?_cons]
    simpa [ht, hne] using ih h.next
  | case4 t ts _ _ _ value settings rest hread _ hname =>
    rename_i ih
    obtain ⟨hvalue, hbehind⟩ := follows_setting w (h.next.skip .colon)
    have hnext := ih (hbehind.skip .comma)
    rw [hread] at hnext
    rw [Window.settings, h.peek?_cons]
    simpa [hvalue, value] using hnext

lemma follows_header (w : Window P) (h : w.At pos (t :: ts)) :
    (w.header pos).1 = (readHeader (t :: ts)).1 ∧
      w.At (w.header pos).2 (readHeader (t :: ts)).2 := by
  unfold header
  rw [h.next.shows, h.peek?_cons]
  fun_cases readHeader (t :: ts) with
  | case1 p rest heq settings behind hread =>
    obtain rfl : ts = ⟨.punct .openBrace, p⟩ :: rest := heq
    have hsettings := follows_settings w h.next.next
    rw [hread] at hsettings
    simpa [Token.isPunct] using hsettings
  | case2 hopen =>
    have hshown : ts.head?.any (·.isPunct .openBrace) = false := any_isPunct_eq_false hopen
    simpa [hshown] using h.next

/-! ### Measures -/

lemma playEntries_cons (e : Entry P) (es : List (Entry P)) (index base : Int) :
    playEntries (e :: es) index base =
      playEntry base (some index) e >>= fun _ => playEntries es index base := rfl

/-- A part is played from the voices that are read in its place. -/
lemma run_replay_part {s : String} {i : Instrument} {c : Context P} (index base : Int)
    (h : w.peek? pos = some t) (ht : t.lexeme = .symbol s)
    (hmeta : (Text.lower s == "meta") = false) (hi : c.instrument? s = some i) :
    (w.replay index base pos).run c =
      (playPart i (w.part c.defines (pos + 1)).1 base (some index) >>= fun _ =>
        w.replay index base (w.part c.defines (pos + 1)).2).run c := by
  rw [replay, h]
  simp [ht, hmeta, hi]

/-- What begins no entry is passed over. -/
lemma run_replay_pass {c : Context P} (index base : Int) (h : w.peek? pos = some t)
    (ht : ∀ s, t.lexeme = .symbol s →
      (Text.lower s == "meta") = false ∧ c.instrument? s = none) :
    (w.replay index base pos).run c = (w.replay index base (pos + 1)).run c := by
  rw [replay, h]
  simp only
  split
  · rename_i s hs
    obtain ⟨hmeta, hnone⟩ := ht s hs
    simp [hmeta, hnone]
  · rfl

/-- Played from a place on, a block is played entry by entry, and the end is come to. -/
lemma run_replay (h : w.At pos ts) (index base : Int) (c : Context P) :
    (w.replay index base pos).run c =
      (playEntries (readEntries c.defines ts) index base >>= fun _ => pure w.stop).run c := by
  -- nothing is defined in a block, so what is defined at first holds for all its entries
  generalize hdefined : c.defines = defined
  fun_induction readEntries defined ts generalizing pos c with
  | case1 =>
    have hpos : pos = w.stop := by simpa using h.pos_eq
    rw [replay, h.peek?, hpos]
    rfl
  | case2 t ts s ht hmeta _ block =>
    rename_i ih
    obtain ⟨hblock, hbehind⟩ := follows_header w h
    have hplay : playEntry base (some index) (.header block) = applyHeader (w.header pos).1 := by
      rw [hblock]
      rfl
    have hstep : w.replay index base pos =
        playEntry base (some index) (.header block) >>= fun _ =>
          w.replay index base (w.header pos).2 := by
      rw [replay, h.peek?_cons, hplay]
      simp [ht, hmeta]
    rw [hstep, playEntries_cons, bind_assoc]
    exact run_bind_congr fun _ d hd =>
      ih hbehind d ((Walk.defines_of_playEntry (eval_eq_ok.mpr hd)).trans hdefined)
  | case3 t ts s ht hmeta hs _ voices =>
    rename_i ih
    obtain ⟨i, hi⟩ := Walk.instrument?_of_defines (hdefined ▸ hs)
    obtain ⟨hpart, hbehind⟩ := follows_part w defined h.next
    have hplay : ∀ f : Unit → Run P Nat,
        (playPart i (w.part defined (pos + 1)).1 base (some index) >>= f).run c =
          (playEntry base (some index) (.part s voices) >>= f).run c := by
      intro f
      rw [hpart]
      simp [playEntry, hi, voices]
    rw [run_replay_part index base h.peek?_cons ht (by simpa using hmeta) hi, hdefined,
      playEntries_cons, bind_assoc, hplay]
    exact run_bind_congr fun _ d hd =>
      ih hbehind d ((Walk.defines_of_playEntry (eval_eq_ok.mpr hd)).trans hdefined)
  | case4 t ts s ht hmeta hs ih =>
    have hnone : c.instrument? s = none := by
      rw [Context.instrument?, List.find?_eq_none]
      simpa [Context.defines, ← hdefined] using hs
    rw [run_replay_pass index base h.peek?_cons, ih h.next c hdefined]
    intro s' hs'
    obtain rfl : s = s' := by simpa [ht] using hs'
    exact ⟨by simpa using hmeta, hnone⟩
  | case5 t ts ht ih =>
    rw [run_replay_pass index base h.peek?_cons fun s hs => absurd hs (ht s),
      ih h.next c hdefined]

/-! ### Windows with the same block -/

/-- Two windows with one end, and the same tokens from a place to there. -/
structure Agree (v w : Window P) (start : Nat) : Prop where
  stop : v.stop = w.stop
  token : ∀ i < v.stop, start ≤ i → v.tokens[i]? = w.tokens[i]?

instance [DecidableEq P] (v w : Window P) (start : Nat) : Decidable (v.Agree w start) :=
  decidable_of_iff
    (v.stop = w.stop ∧ ∀ i < v.stop, start ≤ i → v.tokens[i]? = w.tokens[i]?)
    ⟨fun ⟨hstop, htoken⟩ => ⟨hstop, htoken⟩, fun h => ⟨h.stop, h.token⟩⟩

/-- In two windows that agree, the same is still to be read. -/
lemma Agree.rest (h : v.Agree w start) (hstart : start ≤ pos) (hpos : v.At pos ts) :
    w.At pos ts := by
  refine ⟨h.stop ▸ hpos.le, ?_⟩
  rw [← hpos.rest]
  apply List.ext_getElem?
  intro i
  rw [List.getElem?_drop, List.getElem?_drop, List.getElem?_take, List.getElem?_take, ← h.stop]
  split
  · rename_i hlt
    rw [h.token (pos + i) hlt (by omega)]
  · rfl

/-- Two readers give the same at a place, and the place they come to is not beyond the end. -/
def Alike (stop pos : Nat) (g g' : Nat → α × Nat) : Prop := g pos = g' pos ∧ (g pos).2 ≤ stop

/-- What is read and what is left then are the same, so the places are. -/
lemma Agree.alike_of {g g' : Nat → α × Nat} {r : α × List (Token P)} (h : v.Agree w start)
    (hg : (g pos).1 = r.1 ∧ v.At (g pos).2 r.2) (hg' : (g' pos).1 = r.1 ∧ w.At (g' pos).2 r.2) :
    Alike v.stop pos g g' := by
  obtain ⟨hread, hbehind⟩ := hg
  obtain ⟨hread', hbehind'⟩ := hg'
  have hplace : (g pos).2 = (g' pos).2 := by rw [hbehind.pos_eq, hbehind'.pos_eq, h.stop]
  exact ⟨Prod.ext (hread.trans hread'.symm) hplace, hbehind.le⟩

/-- Readers that follow one reader of lists are alike in windows that agree. -/
lemma Agree.alike {g g' : Nat → α × Nat} {f : List (Token P) → α × List (Token P)}
    (h : v.Agree w start) (hg : v.Follows g f) (hg' : w.Follows g' f) (hstart : start ≤ pos)
    (hpos : pos ≤ v.stop) : Alike v.stop pos g g' :=
  h.alike_of (hg ⟨hpos, rfl⟩) (hg' (h.rest hstart ⟨hpos, rfl⟩))

structure ReadsAlike (v w : Window P) (pos : Nat) : Prop where
  texts : Alike v.stop pos v.texts w.texts
  callArgs : Alike v.stop pos v.callArgs w.callArgs
  chord : Alike v.stop pos v.chord w.chord
  event : Alike v.stop pos v.event w.event
  endsVoice : ∀ defined, v.endsVoice defined pos = w.endsVoice defined pos
  items : ∀ defined, Alike v.stop pos (v.items defined) (w.items defined)
  voices : ∀ defined, Alike v.stop pos (v.voices defined) (w.voices defined)
  part : ∀ defined, Alike v.stop pos (v.part defined) (w.part defined)
  setting : Alike v.stop pos v.setting w.setting
  settings : Alike v.stop pos v.settings w.settings
  -- a `meta` block is only read where its keyword stands
  header : pos < v.stop → Alike v.stop pos v.header w.header

lemma Agree.readsAlike (h : v.Agree w start) (hstart : start ≤ pos) (hpos : pos ≤ v.stop) :
    v.ReadsAlike w pos where
  texts := h.alike (follows_texts v) (follows_texts w) hstart hpos
  callArgs := h.alike (follows_callArgs v) (follows_callArgs w) hstart hpos
  chord := h.alike (follows_chord v) (follows_chord w) hstart hpos
  event := h.alike (follows_event v) (follows_event w) hstart hpos
  endsVoice defined := by
    have hrest : v.At pos _ := ⟨hpos, rfl⟩
    rw [hrest.endsVoice, (h.rest hstart hrest).endsVoice]
  items defined := h.alike (follows_items v defined) (follows_items w defined) hstart hpos
  voices defined := h.alike (follows_voices v defined) (follows_voices w defined) hstart hpos
  part defined := h.alike (follows_part v defined) (follows_part w defined) hstart hpos
  setting := h.alike (follows_setting v) (follows_setting w) hstart hpos
  settings := h.alike (follows_settings v) (follows_settings w) hstart hpos
  header hlt := by
    have hrest : v.At pos _ := ⟨hpos, rfl⟩
    generalize (v.tokens.take v.stop).drop pos = ts at hrest
    cases ts with
    | nil =>
      have := hrest.length_eq
      simp at this
      omega
    | cons t ts =>
      exact h.alike_of (follows_header v hrest) (follows_header w (h.rest hstart hrest))

/-! ### Blocks -/

/-- What a block holds is what stands in front. -/
lemma takeBlock_prefix (depth : Nat) (ts : List (Token P)) : (takeBlock depth ts).1 <+: ts := by
  fun_induction takeBlock depth ts <;> simp_all

/-- A window that ends where a block is closed shows its body. -/
lemma at_of_takeBlock {body : List (Token P)} (hbody : (takeBlock 0 (w.tokens.drop start)).1 = body)
    (hstop : w.stop = start + body.length) : w.At start body := by
  have hprefix : body <+: w.tokens.drop start := hbody ▸ takeBlock_prefix 0 _
  refine ⟨by omega, ?_⟩
  rw [List.drop_take, hstop, Nat.add_sub_cancel_left]
  exact (List.prefix_iff_eq_take.mp hprefix).symm

/-- **A measure block sees only itself.** Where two windows have the same tokens from `start` to the
end they share, every reader gives the same at every place between and never comes to a place
beyond the end, whatever is left open there. So playing the block from `start` on is the same run in
both, with the same state, the same result or the same failure. It is the run of the entries that
are written between `start` and the end, and where it does not fail it comes to the end. If the end
is where the block is closed, these are the entries of its body. -/
theorem replay_secluded (h : v.Agree w start) (hstart : start ≤ v.stop) (index base : Int)
    (c : Context P) :
    (∀ pos, start ≤ pos → pos ≤ v.stop → v.ReadsAlike w pos) ∧
      (v.replay index base start).run c = (w.replay index base start).run c ∧
      (v.replay index base start).run c =
        (playEntries (readEntries c.defines ((v.tokens.take v.stop).drop start)) index base >>=
          fun _ => pure v.stop).run c ∧
      ∀ body, (takeBlock 0 (v.tokens.drop start)).1 = body → v.stop = start + body.length →
        (v.replay index base start).run c =
          (playEntries (readEntries c.defines body) index base >>= fun _ => pure v.stop).run c := by
  have hrest : v.At start _ := ⟨hstart, rfl⟩
  refine ⟨fun pos hpos hle => h.readsAlike hpos hle, ?_, run_replay hrest index base c,
    fun body hbody hstop => run_replay (at_of_takeBlock hbody hstop) index base c⟩
  rw [run_replay hrest, run_replay (h.rest (Nat.le_refl start) hrest), h.stop]

def withSoloist : Context Unit := { withCalls 3 with instruments := [soloist.instrument] }

/-- A block that ends within an argument list, and a parenthesis behind it. -/
def unclosed : Window Unit where
  tokens := [mark .openBrace, sign "p", mark .colon, sign "c.vol", mark .openParen, sign "9",
    mark .closeBrace, mark .closeParen]
  stop := 6
  inside := by decide

/-- The same block at the end of other tokens. -/
def unclosedLast : Window Unit where
  tokens := [sign "x", sign "p", mark .colon, sign "c.vol", mark .openParen, sign "9"]
  stop := 6
  inside := by decide

theorem replay_secluded_unclosed :
    unclosed.Agree unclosedLast 1 ∧ 1 ≤ unclosed.stop ∧
      (∀ pos, 1 ≤ pos → pos ≤ unclosed.stop → unclosed.ReadsAlike unclosedLast pos) ∧
      (unclosed.replay 1 0 1).run withSoloist = (unclosedLast.replay 1 0 1).run withSoloist ∧
      (unclosed.replay 1 0 1).run withSoloist =
        (playEntries (readEntries withSoloist.defines [sign "p", mark .colon, sign "c.vol",
          mark .openParen, sign "9"]) 1 0 >>= fun _ => pure 6).run withSoloist := by
  have hagree : unclosed.Agree unclosedLast 1 := by decide
  have hstart : 1 ≤ unclosed.stop := by decide
  obtain ⟨hreads, hplays, -, hbody⟩ := replay_secluded hagree hstart 1 0 withSoloist
  exact ⟨hagree, hstart, hreads, hplays, hbody _ (by decide) (by decide)⟩

end Window

end Partitura
