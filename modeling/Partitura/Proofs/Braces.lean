import Partitura.Proofs.Inlining
import Partitura.Proofs.Relabel

/-!
No reader looks past a brace.

The head of a declaration is read up to a brace, and what is in a block up to its closing brace:
whatever stands behind the brace, the same is read before it, and the rest is left with the brace
in front (the lemmas that end in `_brace`). A reader of a whole block takes the brace that closes
it, and is settled then (`_append`). Last comes what a closing brace changes that is put behind the
last token of a text (`_last`): it is left, or it closes what was open to the end, and nothing
else that is read depends on it.
-/

namespace Partitura

open Text

variable {P : Type}

inductive Token.Brace : Token P → Prop
  | opens (p : P) : Brace ⟨.punct .openBrace, p⟩
  | closes (p : P) : Brace ⟨.punct .closeBrace, p⟩

variable {b : Token P}

/-! ### Heads of declarations -/

lemma behindOpen?_eq_some {ts body : List (Token P)} (h : behindOpen? ts = some body) :
    ∃ p, ts = ⟨.punct .openBrace, p⟩ :: body := by
  unfold behindOpen? at h
  split at h
  · rename_i p rest
    exact ⟨p, by rw [Option.some.inj h]⟩
  · cases h

lemma behindOpen?_append {ts : List (Token P)} (hts : ts ≠ []) (us : List (Token P)) :
    behindOpen? (ts ++ us) = (behindOpen? ts).map (· ++ us) := by
  rcases ts with _ | ⟨⟨mark | _ | _ | _, p⟩, ts⟩
  · exact absurd rfl hts
  · cases mark <;> rfl
  all_goals rfl

lemma skipPunct_append (p : Punct) {ts : List (Token P)} (hts : ts ≠ []) (us : List (Token P)) :
    skipPunct p (ts ++ us) = skipPunct p ts ++ us := by
  rcases ts with _ | ⟨t, ts⟩
  · exact absurd rfl hts
  · simp only [skipPunct, List.cons_append]
    split <;> rfl

lemma skipSymbol_append {ts : List (Token P)} (hts : ts ≠ []) (us : List (Token P)) :
    skipSymbol (ts ++ us) = skipSymbol ts ++ us := by
  rcases ts with _ | ⟨⟨_ | _ | _ | _, p⟩, ts⟩
  · exact absurd rfl hts
  all_goals rfl

lemma seekBlock_brace (hb : b.Brace) (pre post : List (Token P)) :
    seekBlock (pre ++ b :: post) = seekBlock pre ++ b :: post := by
  fun_induction seekBlock pre with
  | case1 => cases hb <;> rfl
  | case2 t ts h => simp [seekBlock, h]
  | case3 t ts h ih => simp [seekBlock, h, ih]

lemma afterEquals?_of_brace (hb : b.Brace) (ts : List (Token P)) : afterEquals? b ts = none := by
  cases hb <;> (unfold afterEquals?; split <;> rfl)

lemma afterEquals?_brace (hb : b.Brace) (t : Token P) (pre post : List (Token P)) :
    afterEquals? t (pre ++ b :: post) = (afterEquals? t pre).map (· ++ b :: post) := by
  rcases pre with _ | ⟨⟨mark | _ | _ | _, p⟩, pre⟩
  · cases hb <;> rfl
  · cases mark <;> try rfl
    simp only [afterEquals?, List.cons_append]
    split
    · rfl
    · split <;> rfl
  all_goals rfl

lemma readAttributeValue_brace (hb : b.Brace) (pre post : List (Token P)) :
    readAttributeValue (pre ++ b :: post) =
      Prod.map id (· ++ b :: post) (readAttributeValue pre) := by
  rcases pre with _ | ⟨t, pre⟩
  · cases hb <;> rfl
  · simp only [readAttributeValue, List.cons_append]
    split
    · rfl
    · split <;> rfl
    · rfl

lemma readAttributes_brace (hb : b.Brace) (pre post : List (Token P)) :
    readAttributes (pre ++ b :: post) = Prod.map id (· ++ b :: post) (readAttributes pre) := by
  fun_induction readAttributes pre with
  | case1 =>
    rw [List.nil_append, readAttributes_cons, afterEquals?_of_brace hb]
    rfl
  | case2 t ts rest hrest _ _ value attributes behind heq ih =>
    rw [List.cons_append, readAttributes_cons, afterEquals?_brace hb, hrest]
    simp_all [readAttributeValue_brace hb, value]
  | case3 t ts h =>
    rw [List.cons_append, readAttributes_cons, afterEquals?_brace hb, h]
    rfl

lemma readLabel_brace (hb : b.Brace) (name : String) (pre post : List (Token P)) :
    readLabel name (pre ++ b :: post) = Prod.map id (· ++ b :: post) (readLabel name pre) := by
  rcases pre with _ | ⟨⟨_ | _ | _ | _, p⟩, pre⟩
  · cases hb <;> rfl
  all_goals rfl

lemma readInstrument_brace (hb : b.Brace) (t : Token P) (pre post : List (Token P)) :
    readInstrument (t :: (pre ++ b :: post)) =
      Prod.map id (· ++ b :: post) (readInstrument (t :: pre)) := by
  rcases pre with _ | ⟨u, pre⟩
  · cases hb <;> rfl
  · simp only [readInstrument, List.cons_append, List.tail_cons, readLabel_brace hb,
      readAttributes_brace hb, Prod.map_fst, Prod.map_snd, id_eq]
    split <;> rfl

lemma readGroupLabel_brace (hb : b.Brace) (keyword : String) {pre : List (Token P)}
    (hpre : pre ≠ []) (post : List (Token P)) :
    readGroupLabel keyword (pre ++ b :: post) =
      Prod.map id (· ++ b :: post) (readGroupLabel keyword pre) := by
  rcases pre with _ | ⟨t, pre⟩
  · exact absurd rfl hpre
  · have hfree : ((pre ++ b :: post).head?.any (·.isPunct .equals)) =
        pre.head?.any (·.isPunct .equals) := by
      rcases pre with _ | ⟨u, pre⟩
      · cases hb <;> rfl
      · rfl
    simp only [readGroupLabel, List.cons_append, hfree]
    split
    · split <;> rfl
    · split <;> rfl
    · rfl

/-! ### Blocks -/

def behindClose? : List (Token P) → Option (List (Token P))
  | [] => none
  | t :: ts => if t.isPunct .closeBrace then some ts else behindClose? ts

lemma behindClose?_eq_none {ts : List (Token P)} :
    behindClose? ts = none ↔ ∀ t ∈ ts, t.isPunct .closeBrace = false := by
  induction ts with
  | nil => simp [behindClose?]
  | cons t ts ih =>
    by_cases h : t.isPunct .closeBrace <;> simp [behindClose?, h, ih]

lemma behindClose?_of_suffix {ts us : List (Token P)} (hsuffix : us <:+ ts)
    (h : behindClose? ts = none) : behindClose? us = none :=
  behindClose?_eq_none.mpr fun t ht => behindClose?_eq_none.mp h t (hsuffix.subset ht)

lemma behindClose?_eq_some {ts rest : List (Token P)} (h : behindClose? ts = some rest) :
    ∃ pre p, ts = pre ++ ⟨.punct .closeBrace, p⟩ :: rest ∧ behindClose? pre = none := by
  induction ts with
  | nil => cases h
  | cons t ts ih =>
    obtain ⟨l, p⟩ := t
    by_cases hclose : (⟨l, p⟩ : Token P).isPunct .closeBrace
    · obtain rfl : l = .punct .closeBrace := by simpa [Token.isPunct] using hclose
      obtain rfl : ts = rest := by simpa [behindClose?, hclose] using h
      exact ⟨[], p, rfl, rfl⟩
    · obtain ⟨pre, q, rfl, hpre⟩ := ih (by simpa [behindClose?, hclose] using h)
      exact ⟨⟨l, p⟩ :: pre, q, rfl, by simpa [behindClose?, hclose] using hpre⟩

lemma readBracket_brace (p : P) (text : String) (pre post : List (Token P)) :
    readBracket text (pre ++ ⟨.punct .closeBrace, p⟩ :: post) =
      Prod.map id (· ++ ⟨.punct .closeBrace, p⟩ :: post) (readBracket text pre) := by
  fun_induction readBracket text pre <;> simp_all [readBracket]

lemma readSetting_brace (p : P) (pre post : List (Token P)) :
    readSetting (pre ++ ⟨.punct .closeBrace, p⟩ :: post) =
      Prod.map id (· ++ ⟨.punct .closeBrace, p⟩ :: post) (readSetting pre) := by
  fun_cases readSetting pre <;> simp_all [readSetting, readBracket_brace]

lemma skipPunct_brace (p : P) {mark : Punct} (hmark : mark ≠ .closeBrace)
    (pre post : List (Token P)) :
    skipPunct mark (pre ++ ⟨.punct .closeBrace, p⟩ :: post) =
      skipPunct mark pre ++ ⟨.punct .closeBrace, p⟩ :: post := by
  cases pre with
  | nil => simp [skipPunct, Token.isPunct, hmark.symm]
  | cons t pre => exact skipPunct_append mark (List.cons_ne_nil t pre) _

lemma readSettings_brace (p : P) {pre : List (Token P)} (hpre : behindClose? pre = none)
    (post : List (Token P)) :
    readSettings (pre ++ ⟨.punct .closeBrace, p⟩ :: post) = ((readSettings pre).1, post) := by
  fun_induction readSettings pre with
  | case1 => simp [readSettings]
  | case2 t ts h => simp [behindClose?, Token.isPunct, h] at hpre
  | case3 t ts mark hne h ih =>
    have := behindClose?_of_suffix (List.suffix_cons _ _) hpre
    rw [List.cons_append, readSettings.eq_def]
    simp_all
  | case4 t ts _ _ _ value settings rest hrest ht ih =>
    have hsuffix := (((skipPunct_suffix .comma _).trans (readSetting_suffix _)).trans
      (skipPunct_suffix .colon ts)).trans (List.suffix_cons t ts)
    have h := behindClose?_of_suffix hsuffix hpre
    rw [List.cons_append, readSettings.eq_def]
    simp_all [skipPunct_brace, readSetting_brace, value]

/-- Settings that no brace closes are read to the end. -/
lemma readSettings_unclosed {ts : List (Token P)} (h : behindClose? ts = none) :
    (readSettings ts).2 = [] := by
  fun_induction readSettings ts with
  | case1 => rfl
  | case2 t ts ht => simp [behindClose?, Token.isPunct, ht] at h
  | case3 t ts mark hne ht ih => exact ih (behindClose?_of_suffix (List.suffix_cons t ts) h)
  | case4 t ts _ _ _ value settings rest hrest ht hne ih =>
    have hsuffix := (((skipPunct_suffix .comma _).trans (readSetting_suffix _)).trans
      (skipPunct_suffix .colon ts)).trans (List.suffix_cons t ts)
    simpa [hrest] using ih (behindClose?_of_suffix hsuffix h)

lemma readSettings_append {ts : List (Token P)} (h : behindClose? ts ≠ none)
    (us : List (Token P)) :
    readSettings (ts ++ us) = Prod.map id (· ++ us) (readSettings ts) := by
  obtain ⟨rest, hrest⟩ := Option.ne_none_iff_exists'.mp h
  obtain ⟨pre, p, rfl, hpre⟩ := behindClose?_eq_some hrest
  rw [List.append_assoc, List.cons_append, readSettings_brace p hpre, readSettings_brace p hpre]
  rfl

lemma readSettings_behind {ts rest : List (Token P)} (h : behindClose? ts = some rest) :
    (readSettings ts).2 = rest := by
  obtain ⟨pre, p, rfl, hpre⟩ := behindClose?_eq_some h
  rw [readSettings_brace p hpre]

lemma readMembers_brace (p : P) (size : Nat) {pre : List (Token P)}
    (hpre : behindClose? pre = none) (post : List (Token P)) :
    readMembers (size + (post.length + 1)) (pre ++ ⟨.punct .closeBrace, p⟩ :: post) =
      ((readMembers size pre).1, post) := by
  fun_induction readMembers size pre with
  | case1 => simp [readMembers, Token.isPunct]
  | case2 t ts h => simp [behindClose?, h] at hpre
  | case3 t ts hclose hdef _ block rest hblock members behind heq ih =>
    have hsuffix := (readInstrument_suffix t ts).trans (List.suffix_cons t ts)
    have h := behindClose?_of_suffix hsuffix hpre
    have hread := readInstrument_brace (.closes p) t ts post
    rw [List.cons_append, readMembers.eq_def]
    simp_all
    omega
  | case4 t ts hclose hdef ih =>
    have h := behindClose?_of_suffix (List.suffix_cons t ts) hpre
    rw [List.cons_append, readMembers.eq_def]
    simp_all

lemma readMembers_unclosed (size : Nat) {ts : List (Token P)} (h : behindClose? ts = none) :
    (readMembers size ts).2 = [] := by
  fun_induction readMembers size ts with
  | case1 => rfl
  | case2 t ts ht => simp [behindClose?, ht] at h
  | case3 t ts hclose hdef _ block rest hblock members behind heq ih =>
    have hsuffix := (readInstrument_suffix t ts).trans (List.suffix_cons t ts)
    simpa [heq] using ih (behindClose?_of_suffix hsuffix h)
  | case4 t ts hclose hdef ih => exact ih (behindClose?_of_suffix (List.suffix_cons t ts) h)

lemma readMembers_append {size : Nat} {ts : List (Token P)} (hsize : ts.length ≤ size)
    (h : behindClose? ts ≠ none) (us : List (Token P)) :
    readMembers (size + us.length) (ts ++ us) =
      Prod.map id (· ++ us) (readMembers size ts) := by
  obtain ⟨rest, hrest⟩ := Option.ne_none_iff_exists'.mp h
  obtain ⟨pre, p, rfl, hpre⟩ := behindClose?_eq_some hrest
  obtain ⟨n, rfl⟩ : ∃ n, size = n + (rest.length + 1) := by
    simp only [List.length_append, List.length_cons] at hsize
    exact ⟨size - (rest.length + 1), by omega⟩
  have hlength : n + (rest.length + 1) + us.length = n + ((rest ++ us).length + 1) := by
    simp only [List.length_append]
    omega
  rw [List.append_assoc, List.cons_append, hlength, readMembers_brace p n hpre,
    readMembers_brace p n hpre]
  rfl

lemma readMembers_behind {size : Nat} {ts rest : List (Token P)} (hsize : ts.length ≤ size)
    (h : behindClose? ts = some rest) : (readMembers size ts).2 = rest := by
  obtain ⟨pre, p, rfl, hpre⟩ := behindClose?_eq_some h
  obtain ⟨n, rfl⟩ : ∃ n, size = n + (rest.length + 1) := by
    simp only [List.length_append, List.length_cons] at hsize
    exact ⟨size - (rest.length + 1), by omega⟩
  rw [readMembers_brace p n hpre]

lemma takeBlock_append {depth : Nat} {ts rest : List (Token P)}
    (h : (takeBlock depth ts).2 = some rest) (us : List (Token P)) :
    takeBlock depth (ts ++ us) = ((takeBlock depth ts).1, some (rest ++ us)) := by
  fun_induction takeBlock depth ts <;> simp_all [takeBlock]

lemma readParams_append {ts : List (Token P)} (h : (readParams ts).2 ≠ []) (us : List (Token P)) :
    readParams (ts ++ us) = Prod.map id (· ++ us) (readParams ts) := by
  fun_induction readParams ts <;> simp_all [readParams]

lemma readParamList_append {ts : List (Token P)} (h : (readParamList ts).2 ≠ [])
    (us : List (Token P)) :
    readParamList (ts ++ us) = Prod.map id (· ++ us) (readParamList ts) := by
  rcases ts with _ | ⟨⟨mark | _ | _ | _, p⟩, ts⟩
  · exact absurd rfl h
  · cases mark <;> first | rfl | exact readParams_append h us
  all_goals rfl

/-! ### Events -/

section Close

variable (p : P)

lemma readTexts_brace (depth : Nat) (done : List String) (current : String)
    (pre post : List (Token P)) :
    readTexts depth done current (pre ++ ⟨.punct .closeBrace, p⟩ :: post) =
      Prod.map id (· ++ ⟨.punct .closeBrace, p⟩ :: post) (readTexts depth done current pre) := by
  fun_induction readTexts depth done current pre <;> simp_all [readTexts]

lemma readLists_brace (depth : Nat) (done : List (List (Token P)))
    (current pre post : List (Token P)) :
    readLists depth done current (pre ++ ⟨.punct .closeBrace, p⟩ :: post) =
      Prod.map id (· ++ ⟨.punct .closeBrace, p⟩ :: post) (readLists depth done current pre) := by
  fun_induction readLists depth done current pre <;> simp_all [readLists]

lemma readCallArgs_brace (pre post : List (Token P)) :
    readCallArgs (pre ++ ⟨.punct .closeBrace, p⟩ :: post) =
      Prod.map id (· ++ ⟨.punct .closeBrace, p⟩ :: post) (readCallArgs pre) := by
  fun_cases readCallArgs pre <;> simp_all [readCallArgs, readLists_brace, Token.isPunct]

lemma readChord_brace (pre post : List (Token P)) :
    readChord (pre ++ ⟨.punct .closeBrace, p⟩ :: post) =
      Prod.map id (· ++ ⟨.punct .closeBrace, p⟩ :: post) (readChord pre) := by
  fun_induction readChord pre <;> simp_all [readChord]

lemma readTail_brace (chain : Chain) (length : Length) (pre post : List (Token P)) :
    readTail chain length (pre ++ ⟨.punct .closeBrace, p⟩ :: post) =
      Prod.map id (· ++ ⟨.punct .closeBrace, p⟩ :: post) (readTail chain length pre) := by
  fun_induction readTail chain length pre with
  | case7 chain t ht ts hts ih =>
    -- no symbol follows the colon
    rw [List.cons_append, readTail.eq_def]
    rcases ts with _ | ⟨⟨_ | _ | _ | _, q⟩, ts⟩ <;> simp_all
  | _ => rw [readTail.eq_def]; simp_all [readTexts_brace]

lemma readHead_brace (t : Token P) (pre post : List (Token P)) :
    readHead (t :: (pre ++ ⟨.punct .closeBrace, p⟩ :: post)) =
      Prod.map id (· ++ ⟨.punct .closeBrace, p⟩ :: post) (readHead (t :: pre)) := by
  simp only [readHead, readChord_brace]
  split <;> rfl

lemma readEvent_brace (t : Token P) (pre post : List (Token P)) :
    readEvent (t :: (pre ++ ⟨.punct .closeBrace, p⟩ :: post)) =
      Prod.map id (· ++ ⟨.punct .closeBrace, p⟩ :: post) (readEvent (t :: pre)) := by
  simp only [readEvent, readHead_brace, Prod.map_fst, Prod.map_snd, id_eq, readTail_brace]
  rcases readTail (readHead (t :: pre)).1.2.2 .unwritten (readHead (t :: pre)).2 with
    ⟨_ | ⟨chain, length⟩, rest⟩ <;> rfl

/-! ### Streams

How many tokens are unread behind an item depends on what follows the brace, so items are compared
as they are if none were left. -/

lemma endsStream_brace (defined : String → Bool) (pre post : List (Token P)) :
    endsStream defined (pre ++ ⟨.punct .closeBrace, p⟩ :: post) = endsStream defined pre := by
  rcases pre with _ | ⟨t, _ | ⟨u, pre⟩⟩
  · rfl
  · obtain ⟨mark | _ | _ | _, q⟩ := t
    · cases mark <;> rfl
    all_goals rfl
  · rfl

lemma readStream_brace (defined : String → Bool) (pre post : List (Token P)) :
    (readStream defined (pre ++ ⟨.punct .closeBrace, p⟩ :: post)).1.map (·.leaving 0) =
        (readStream defined pre).1.map (·.leaving 0) ∧
      (readStream defined (pre ++ ⟨.punct .closeBrace, p⟩ :: post)).2 =
        (readStream defined pre).2 ++ ⟨.punct .closeBrace, p⟩ :: post := by
  unfold readStream
  fun_induction readItems (endsStream defined) pre with
  | case1 => simp [readItems, endsStream]
  | case2 t ts h =>
    have hover := endsStream_brace p defined (t :: ts) post
    rw [List.cons_append, readItems.eq_def]
    simp_all
  | case3 t ts h name ht _ args rest hargs items behind hitems ih =>
    have hover := endsStream_brace p defined (t :: ts) post
    rw [List.cons_append, readItems.eq_def]
    simp_all [readCallArgs_brace, Placed.leaving]
  | case4 t ts h hstart _ e rest hevent items behind hitems ht ih =>
    have hover := endsStream_brace p defined (t :: ts) post
    have hread := readEvent_brace p t ts post
    rw [List.cons_append, readItems.eq_def]
    simp_all [Placed.leaving]
  | case5 t ts h hstart ht ih =>
    have hover := endsStream_brace p defined (t :: ts) post
    rw [List.cons_append, readItems.eq_def]
    simp_all

end Close

def VoiceStream.leaving (n : Nat) (v : VoiceStream P) : VoiceStream P :=
  ⟨v.voice, v.items.map (·.leaving n)⟩

def Entry.leaving (n : Nat) : Entry P → Entry P
  | .header b => .header b
  | .part id voices => .part id (voices.map (·.leaving n))

@[simp] lemma Entry.leaving_header (n : Nat) (b : HeaderBlock P) :
    (Entry.header b).leaving n = .header b := rfl

@[simp] lemma Entry.leaving_part (n : Nat) (id : String) (voices : List (VoiceStream P)) :
    (Entry.part id voices).leaving n = .part id (voices.map (·.leaving n)) := rfl

lemma readVoices_brace (p : P) (defined : String → Bool) {pre : List (Token P)}
    (hpre : behindClose? pre = none) (post : List (Token P)) :
    (readVoices defined (pre ++ ⟨.punct .closeBrace, p⟩ :: post)).1.map (·.leaving 0) =
        (readVoices defined pre).1.map (·.leaving 0) ∧
      (readVoices defined (pre ++ ⟨.punct .closeBrace, p⟩ :: post)).2 = post := by
  fun_induction readVoices defined pre with
  | case1 => simp [readVoices]
  | case2 t ts h => simp [behindClose?, Token.isPunct, h] at hpre
  | case3 t ts mark hne h ih =>
    have := behindClose?_of_suffix (List.suffix_cons _ _) hpre
    rw [List.cons_append, readVoices.eq_def]
    simp_all
  | case4 t ts _ _ _ items voices rest hrest hne ht ih =>
    have hsuffix : skipPunct .bar (readStream defined (skipPunct .colon ts)).2 <:+ t :: ts :=
      (((skipPunct_suffix .bar _).trans (readItems_suffix _ _)).trans
        (skipPunct_suffix .colon ts)).trans (List.suffix_cons t ts)
    have h := behindClose?_of_suffix hsuffix hpre
    have hstream := readStream_brace p defined (skipPunct .colon ts) post
    rw [List.cons_append, readVoices.eq_def]
    simp_all [skipPunct_brace, VoiceStream.leaving, items]

/-! ### A brace behind the last token -/

/-- What is left when a closing brace was put behind a text: the brace too, unless it closed what
was open to the end. -/
def Behind (p : P) (rest rest' : List (Token P)) : Prop :=
  rest' = rest ++ [⟨.punct .closeBrace, p⟩] ∨ rest = [] ∧ rest' = []

section Last

variable (p : P)

lemma behindOpen?_close (ts us : List (Token P)) :
    behindOpen? (ts ++ ⟨.punct .closeBrace, p⟩ :: us) =
      (behindOpen? ts).map (· ++ ⟨.punct .closeBrace, p⟩ :: us) := by
  cases ts with
  | nil => rfl
  | cons t ts => exact behindOpen?_append (List.cons_ne_nil t ts) _

lemma readSettings_last (ts : List (Token P)) :
    (readSettings (ts ++ [⟨.punct .closeBrace, p⟩])).1 = (readSettings ts).1 ∧
      Behind p (readSettings ts).2 (readSettings (ts ++ [⟨.punct .closeBrace, p⟩])).2 := by
  by_cases h : behindClose? ts = none
  · rw [readSettings_brace p h, readSettings_unclosed h]
    exact ⟨rfl, .inr ⟨rfl, rfl⟩⟩
  · rw [readSettings_append h]
    exact ⟨rfl, .inl rfl⟩

lemma readMembers_last {size : Nat} {ts : List (Token P)} (hsize : ts.length ≤ size) :
    (readMembers (size + 1) (ts ++ [⟨.punct .closeBrace, p⟩])).1 = (readMembers size ts).1 ∧
      Behind p (readMembers size ts).2
        (readMembers (size + 1) (ts ++ [⟨.punct .closeBrace, p⟩])).2 := by
  by_cases h : behindClose? ts = none
  · have hbrace := readMembers_brace p size h []
    rw [List.length_nil, Nat.zero_add] at hbrace
    rw [hbrace, readMembers_unclosed size h]
    exact ⟨rfl, .inr ⟨rfl, rfl⟩⟩
  · have happend := readMembers_append hsize h [⟨.punct .closeBrace, p⟩]
    rw [List.length_singleton] at happend
    rw [happend]
    exact ⟨rfl, .inl rfl⟩

lemma readVoices_unclosed (defined : String → Bool) {ts : List (Token P)}
    (h : behindClose? ts = none) : (readVoices defined ts).2 = [] := by
  fun_induction readVoices defined ts with
  | case1 => rfl
  | case2 t ts ht => simp [behindClose?, Token.isPunct, ht] at h
  | case3 t ts mark hne ht ih => exact ih (behindClose?_of_suffix (List.suffix_cons t ts) h)
  | case4 t ts _ _ _ items voices rest hrest hne ht ih =>
    have hsuffix : skipPunct .bar (readStream defined (skipPunct .colon ts)).2 <:+ t :: ts :=
      (((skipPunct_suffix .bar _).trans (readItems_suffix _ _)).trans
        (skipPunct_suffix .colon ts)).trans (List.suffix_cons t ts)
    simpa [hrest] using ih (behindClose?_of_suffix hsuffix h)

lemma readVoices_last (defined : String → Bool) (ts : List (Token P)) :
    (readVoices defined (ts ++ [⟨.punct .closeBrace, p⟩])).1.map (·.leaving 0) =
        (readVoices defined ts).1.map (·.leaving 0) ∧
      Behind p (readVoices defined ts).2
        (readVoices defined (ts ++ [⟨.punct .closeBrace, p⟩])).2 := by
  cases h : behindClose? ts with
  | none =>
    obtain ⟨hvoices, hrest⟩ := readVoices_brace p defined h []
    exact ⟨hvoices, .inr ⟨readVoices_unclosed defined h, hrest⟩⟩
  | some rest =>
    obtain ⟨pre, q, rfl, hpre⟩ := behindClose?_eq_some h
    have hbare := readVoices_brace q defined hpre rest
    have hclosed := readVoices_brace q defined hpre (rest ++ [⟨.punct .closeBrace, p⟩])
    rw [List.append_assoc, List.cons_append]
    refine ⟨hclosed.1.trans hbare.1.symm, .inl ?_⟩
    rw [hclosed.2, hbare.2]

lemma readHeader_last (t : Token P) (ts : List (Token P)) :
    (readHeader (t :: (ts ++ [⟨.punct .closeBrace, p⟩]))).1 = (readHeader (t :: ts)).1 ∧
      Behind p (readHeader (t :: ts)).2
        (readHeader (t :: (ts ++ [⟨.punct .closeBrace, p⟩]))).2 := by
  simp only [readHeader_eq, List.head?_cons, List.tail_cons, behindOpen?_close]
  cases behindOpen? ts with
  | none => exact ⟨rfl, .inl rfl⟩
  | some body =>
    obtain ⟨hsettings, hrest⟩ := readSettings_last p body
    exact ⟨by simp [hsettings], hrest⟩

lemma readPart_last (defined : String → Bool) (ts : List (Token P)) :
    (readPart defined (ts ++ [⟨.punct .closeBrace, p⟩])).1.map (·.leaving 0) =
        (readPart defined ts).1.map (·.leaving 0) ∧
      Behind p (readPart defined ts).2
        (readPart defined (ts ++ [⟨.punct .closeBrace, p⟩])).2 := by
  have hcolon : Punct.colon ≠ .closeBrace := by decide
  simp only [readPart_eq, skipPunct_brace p hcolon, behindOpen?_close]
  cases behindOpen? (skipPunct .colon ts) with
  | some body => exact readVoices_last p defined body
  | none =>
    obtain ⟨hitems, hrest⟩ := readStream_brace p defined (skipPunct .colon ts) []
    refine ⟨by simp [VoiceStream.leaving, hitems], .inl ?_⟩
    simp only [Option.map_none, hrest]
    exact skipPunct_brace p (by decide) _ []

lemma readEntries_last (defined : String → Bool) (ts : List (Token P)) :
    (readEntries defined (ts ++ [⟨.punct .closeBrace, p⟩])).map (·.leaving 0) =
      (readEntries defined ts).map (·.leaving 0) := by
  have hbehind {rest rest' : List (Token P)} (h : Behind p rest rest')
      (ih : (readEntries defined (rest ++ [⟨.punct .closeBrace, p⟩])).map (·.leaving 0) =
        (readEntries defined rest).map (·.leaving 0)) :
      (readEntries defined rest').map (·.leaving 0) =
        (readEntries defined rest).map (·.leaving 0) := by
    rcases h with rfl | ⟨rfl, rfl⟩
    · exact ih
    · rfl
  fun_induction readEntries defined ts with
  | case1 => simp [readEntries]
  | case2 t ts s ht hmeta _ block ih =>
    obtain ⟨hblock, hrest⟩ := readHeader_last p t ts
    rw [List.cons_append, readEntries.eq_def]
    simp [ht, hmeta, hblock, hbehind hrest ih, block]
  | case3 t ts s ht hmeta hdefined _ voices ih =>
    obtain ⟨hvoices, hrest⟩ := readPart_last p defined ts
    rw [List.cons_append, readEntries.eq_def]
    simp [ht, hmeta, hdefined, hvoices, hbehind hrest ih, voices]
  | _ => rw [List.cons_append, readEntries.eq_def]; simp_all

lemma readParams_last (ts : List (Token P)) :
    (readParams (ts ++ [⟨.punct .closeBrace, p⟩])).1 = (readParams ts).1 ∧
    Behind p (readParams ts).2 (readParams (ts ++ [⟨.punct .closeBrace, p⟩])).2 := by
  fun_induction readParams ts <;> simp_all [readParams, Behind]

lemma readParamList_last (ts : List (Token P)) :
    (readParamList (ts ++ [⟨.punct .closeBrace, p⟩])).1 = (readParamList ts).1 ∧
      Behind p (readParamList ts).2 (readParamList (ts ++ [⟨.punct .closeBrace, p⟩])).2 := by
  rcases ts with _ | ⟨⟨mark | _ | _ | _, q⟩, ts⟩
  · exact ⟨rfl, .inl rfl⟩
  · cases mark <;> first | exact ⟨rfl, .inl rfl⟩ | exact readParams_last p ts
  all_goals exact ⟨rfl, .inl rfl⟩

/-- A block that is open at the end is closed by the brace, or it takes the brace in. -/
lemma takeBlock_last {depth : Nat} {ts : List (Token P)} (h : (takeBlock depth ts).2 = none) :
    (takeBlock depth ts).1 = ts ∧
      (takeBlock depth (ts ++ [⟨.punct .closeBrace, p⟩]) = (ts, some []) ∨
        takeBlock depth (ts ++ [⟨.punct .closeBrace, p⟩]) =
          (ts ++ [⟨.punct .closeBrace, p⟩], none)) := by
  fun_induction takeBlock depth ts with
  | case1 depth => cases depth <;> simp [takeBlock]
  | case3 t ts ht => cases h
  | case2 depth t ts ht body behind heq ih | case4 t ts ht depth body behind heq ih
  | case5 depth t ts body behind heq hopen hclose ih =>
    obtain ⟨hbody, hlast⟩ := ih (by simpa [heq] using h)
    rw [heq] at hbody
    rcases hlast with hlast | hlast <;> simp_all [takeBlock]

end Last

end Partitura
