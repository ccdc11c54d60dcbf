import Partitura.Compile.Perform
import Partitura.Proofs.Notation
import Partitura.Token.Lexer

/-!
What is read is made of the tokens it is read from.

Every reader leaves a suffix of its tokens. So a property of tokens passes from a text to its
declarations, to the bodies of its macros, to the items of its streams and to the steps of a
script, however deep the macros are nested. An event that was read has one pitch unless it is a
chord, and a length that can be written.
-/

namespace Partitura

open Text

variable {P : Type}

/-! ### Suffixes -/

lemma readTexts_suffix (depth : Nat) (done : List String) (current : String)
    (ts : List (Token P)) : (readTexts depth done current ts).2 <:+ ts := by
  fun_induction readTexts depth done current ts <;> simp_all [List.suffix_cons_iff]

lemma readLists_suffix (depth : Nat) (done : List (List (Token P))) (current : List (Token P))
    (ts : List (Token P)) : (readLists depth done current ts).2 <:+ ts := by
  fun_induction readLists depth done current ts <;> simp_all [List.suffix_cons_iff]

lemma readCallArgs_suffix (ts : List (Token P)) : (readCallArgs ts).2 <:+ ts := by
  fun_cases readCallArgs ts
  · exact List.suffix_refl _
  · exact (readLists_suffix 0 [] [] _).trans (List.suffix_cons _ _)
  · exact List.suffix_refl _

lemma readChord_suffix (ts : List (Token P)) : (readChord ts).2 <:+ ts := by
  fun_induction readChord ts <;> simp_all [List.suffix_cons_iff]

lemma readTail_suffix (chain : Chain) (length : Length) (ts : List (Token P)) :
    (readTail chain length ts).2 <:+ ts := by
  fun_induction readTail chain length ts with
  | case3 _ _ ts _ _ _ _ _ ih =>
    exact (ih.trans (readTexts_suffix 0 [] "" ts)).trans (List.suffix_cons _ _)
  | _ => simp_all [List.suffix_cons_iff]

lemma readHead_suffix (t : Token P) (ts : List (Token P)) : (readHead (t :: ts)).2 <:+ ts := by
  simp only [readHead]
  split
  · exact readChord_suffix ts
  · exact List.suffix_refl ts

lemma readEvent_suffix (t : Token P) (ts : List (Token P)) : (readEvent (t :: ts)).2 <:+ ts := by
  have h := readTail_suffix (readHead (t :: ts)).1.2.2 .unwritten (readHead (t :: ts)).2
  unfold readEvent
  simp only
  split <;> rename_i heq <;> rw [heq] at h <;> exact h.trans (readHead_suffix t ts)

lemma anchor_of_readEvent {t : Token P} {ts : List (Token P)} {e : WrittenEvent P}
    (h : (readEvent (t :: ts)).1 = .ok e) : e.anchor = some t := by
  unfold readEvent at h
  dsimp only at h
  split at h
  · cases h
  · cases h
    rfl

lemma readItems_suffix (ends : List (Token P) → Bool) (ts : List (Token P)) :
    (readItems ends ts).2 <:+ ts := by
  fun_induction readItems ends ts with
  | case1 => exact List.suffix_refl _
  | case2 => exact List.suffix_refl _
  | case3 t ts _ _ _ _ _ _ _ _ _ hitems ih =>
    rw [hitems] at ih
    exact (ih.trans (readCallArgs_suffix ts)).trans (List.suffix_cons t ts)
  | case4 t ts _ _ _ _ _ _ _ _ hitems _ ih =>
    rw [hitems] at ih
    exact (ih.trans (readEvent_suffix t ts)).trans (List.suffix_cons t ts)
  | case5 t ts _ _ _ ih => exact ih.trans (List.suffix_cons t ts)

lemma skipPunct_suffix (p : Punct) (ts : List (Token P)) : skipPunct p ts <:+ ts := by
  fun_cases skipPunct p ts <;> simp

lemma readBracket_suffix (text : String) (ts : List (Token P)) :
    (readBracket text ts).2 <:+ ts := by
  fun_induction readBracket text ts <;> simp_all [List.suffix_cons_iff]

lemma readSetting_suffix (ts : List (Token P)) : (readSetting ts).2 <:+ ts := by
  unfold readSetting
  split
  · exact List.suffix_refl _
  · split
    · exact List.suffix_refl _
    · exact List.suffix_refl _
    · exact (readBracket_suffix _ _).trans (List.suffix_cons _ _)
    · exact List.suffix_cons _ _

lemma readSettings_suffix (ts : List (Token P)) : (readSettings ts).2 <:+ ts := by
  fun_induction readSettings ts with
  | case1 => exact List.suffix_refl _
  | case2 t ts _ => exact List.suffix_cons t ts
  | case3 t ts _ _ _ ih => exact ih.trans (List.suffix_cons t ts)
  | case4 t ts _ _ _ _ _ _ heq _ _ ih =>
    rw [heq] at ih
    exact (((ih.trans (skipPunct_suffix _ _)).trans (readSetting_suffix _)).trans
      (skipPunct_suffix _ ts)).trans (List.suffix_cons t ts)

lemma readHeader_suffix (t : Token P) (ts : List (Token P)) :
    (readHeader (t :: ts)).2 <:+ ts := by
  simp only [readHeader, List.tail_cons]
  split
  · exact (readSettings_suffix _).trans (List.suffix_cons _ _)
  · exact List.suffix_refl _

lemma readVoices_suffix (defined : String → Bool) (ts : List (Token P)) :
    (readVoices defined ts).2 <:+ ts := by
  fun_induction readVoices defined ts with
  | case1 => exact List.suffix_refl _
  | case2 t ts _ => exact List.suffix_cons t ts
  | case3 t ts _ _ _ ih => exact ih.trans (List.suffix_cons t ts)
  | case4 t ts _ _ _ _ _ _ heq _ _ ih =>
    rw [heq] at ih
    exact (((ih.trans (skipPunct_suffix _ _)).trans (readItems_suffix _ _)).trans
      (skipPunct_suffix _ ts)).trans (List.suffix_cons t ts)

lemma readPart_suffix (defined : String → Bool) (ts : List (Token P)) :
    (readPart defined ts).2 <:+ ts := by
  have h := skipPunct_suffix .colon ts
  unfold readPart
  split
  · rename_i heq
    rw [heq] at h
    exact (readVoices_suffix defined _).trans ((List.suffix_cons _ _).trans h)
  · exact ((skipPunct_suffix _ _).trans (readItems_suffix _ _)).trans h

lemma readAttributeValue_suffix (ts : List (Token P)) : (readAttributeValue ts).2 <:+ ts := by
  unfold readAttributeValue
  repeat' split
  all_goals simp

lemma suffix_of_afterEquals? {t : Token P} {ts rest : List (Token P)}
    (h : afterEquals? t ts = some rest) : rest <:+ ts := by
  unfold afterEquals? at h
  repeat' split at h
  all_goals simp at h
  exact h ▸ List.suffix_cons _ _

lemma readAttributes_suffix (ts : List (Token P)) : (readAttributes ts).2 <:+ ts := by
  fun_induction readAttributes ts with
  | case1 => exact List.suffix_refl _
  | case2 t ts rest hrest _ _ _ _ _ heq ih =>
    rw [heq] at ih
    exact ((ih.trans (readAttributeValue_suffix rest)).trans (suffix_of_afterEquals? hrest)).trans
      (List.suffix_cons t ts)
  | case3 => exact List.suffix_refl _

lemma readLabel_suffix (name : String) (ts : List (Token P)) : (readLabel name ts).2 <:+ ts := by
  fun_cases readLabel name ts <;> simp

lemma readInstrument_suffix (t : Token P) (ts : List (Token P)) :
    (readInstrument (t :: ts)).2 <:+ ts := by
  simp only [readInstrument, List.tail_cons]
  split
  · split
    · exact ((readAttributes_suffix _).trans (readLabel_suffix _ _)).trans (List.suffix_cons _ _)
    · exact List.suffix_refl _
  · exact List.suffix_refl _

lemma readGroupLabel_suffix (keyword : String) (ts : List (Token P)) :
    (readGroupLabel keyword ts).2 <:+ ts := by
  unfold readGroupLabel
  split
  · exact List.suffix_refl _
  · simp only
    repeat' split
    all_goals simp

lemma seekBlock_suffix (ts : List (Token P)) : seekBlock ts <:+ ts := by
  fun_induction seekBlock ts <;> simp_all [List.suffix_cons_iff]

lemma readMembers_suffix (size : Nat) (ts : List (Token P)) : (readMembers size ts).2 <:+ ts := by
  fun_induction readMembers size ts with
  | case1 => exact List.suffix_refl _
  | case2 t ts _ => exact List.suffix_cons t ts
  | case3 t ts _ _ _ _ _ _ _ _ heq ih =>
    rw [heq] at ih
    exact (ih.trans (readInstrument_suffix t ts)).trans (List.suffix_cons t ts)
  | case4 t ts _ _ ih => exact ih.trans (List.suffix_cons t ts)

/-- The block of a group, if one follows, stands behind its keyword. -/
lemma seekBlock_group_suffix (t : Token P) (ts : List (Token P)) :
    seekBlock (readAttributes (readGroupLabel t.text ts).2).2 <:+ ts :=
  ((seekBlock_suffix _).trans (readAttributes_suffix _)).trans (readGroupLabel_suffix _ ts)

lemma readGroup_suffix (t : Token P) (ts : List (Token P)) :
    (readGroup (t :: ts)).2 <:+ ts := by
  have h := seekBlock_group_suffix t ts
  simp only [readGroup, List.tail_cons, List.head?_cons, textOf]
  split
  · rename_i heq
    rw [heq] at h
    exact (readMembers_suffix _ _).trans ((List.suffix_cons _ _).trans h)
  · exact h

lemma takeBlock_suffix (depth : Nat) (ts : List (Token P)) :
    (takeBlock depth ts).2.getD [] <:+ ts := by
  fun_induction takeBlock depth ts <;> simp_all [List.suffix_cons_iff]

lemma readParamList_suffix (ts : List (Token P)) : (readParamList ts).2 <:+ ts := by
  have h (ts : List (Token P)) : (readParams ts).2 <:+ ts := by
    fun_induction readParams ts <;> simp_all [List.suffix_cons_iff]
  fun_cases readParamList ts
  · exact (h _).trans (List.suffix_cons _ _)
  · exact List.suffix_refl _

lemma skipSymbol_suffix (ts : List (Token P)) : skipSymbol ts <:+ ts := by
  fun_cases skipSymbol ts <;> simp

lemma readMacro_suffix (t : Token P) (ts : List (Token P)) : (readMacro (t :: ts)).2 <:+ ts := by
  have h := ((skipPunct_suffix .equals _).trans (readParamList_suffix ts.tail)).trans
    (List.tail_suffix ts)
  simp only [readMacro, List.tail_cons]
  split
  · rename_i heq
    rw [heq] at h
    exact (takeBlock_suffix _ _).trans ((List.suffix_cons _ _).trans h)
  · exact h

lemma readMeasure_suffix (t : Token P) (ts : List (Token P)) :
    (readMeasure (t :: ts)).2 <:+ ts := by
  have h := skipSymbol_suffix ts
  simp only [readMeasure, List.tail_cons]
  split
  · rename_i heq
    rw [heq] at h
    exact (takeBlock_suffix _ _).trans ((List.suffix_cons _ _).trans h)
  · exact h

lemma readDeclaration?_suffix {t : Token P} {ts rest : List (Token P)} {d : Declaration P}
    (h : readDeclaration? t ts = some (d, rest)) : rest <:+ ts := by
  unfold readDeclaration? at h
  repeat' split at h
  all_goals simp only [Option.some.injEq, Prod.mk.injEq, reduceCtorEq] at h
  all_goals obtain ⟨-, rfl⟩ := h
  · exact readHeader_suffix t ts
  · exact readGroup_suffix t ts
  · exact readInstrument_suffix t ts
  · exact readMacro_suffix t ts
  · exact readMeasure_suffix t ts

/-! ### Where items come from

`us` stands for the tokens of the whole text. -/

variable {us : List (Token P)}

/-- The result of reading an event somewhere in a text. -/
def Reads (us : List (Token P)) (r : Except Fault (WrittenEvent P)) : Prop :=
  ∃ t ts, t :: ts ⊆ us ∧ startsEvent t = true ∧ (readEvent (t :: ts)).1 = r

def Item.From (us : List (Token P)) : Item P → Prop
  | .event e => Reads us (.ok e)
  | .broken f => Reads us (.error f)
  | .call _ _ args => ∀ a ∈ args, a ⊆ us

def Step.From (us : List (Token P)) : Step P → Prop
  | .play e => Reads us (.ok e)
  | .halt f => Reads us (.error f)
  | _ => True

lemma closeLists_from {done : List (List (Token P))} {current : List (Token P)}
    (hdone : ∀ a ∈ done, a ⊆ us) (hcurrent : current ⊆ us) :
    ∀ a ∈ closeLists done current, a ⊆ us := by
  unfold closeLists
  split
  · simp
  · simp only [List.reverse_cons, List.forall_mem_append, List.mem_reverse,
      List.forall_mem_singleton]
    exact ⟨hdone, by simpa using hcurrent⟩

lemma readLists_from (depth : Nat) (done : List (List (Token P))) (current ts : List (Token P))
    (hdone : ∀ a ∈ done, a ⊆ us) (hcurrent : current ⊆ us) (hts : ts ⊆ us) :
    ∀ a ∈ (readLists depth done current ts).1, a ⊆ us := by
  fun_induction readLists depth done current ts with
  | case1 => exact closeLists_from hdone hcurrent
  | case2 => exact closeLists_from hdone hcurrent
  | case3 => exact closeLists_from hdone hcurrent
  | case4 => exact closeLists_from hdone hcurrent
  | _ => simp_all

lemma readCallArgs_from {ts : List (Token P)} (hts : ts ⊆ us) :
    ∀ a ∈ (readCallArgs ts).1, a ⊆ us := by
  fun_cases readCallArgs ts
  · simp
  · exact readLists_from 0 [] [] _ (by simp) (by simp) (by simp_all)
  · simp

lemma readItems_from (ends : List (Token P) → Bool) {ts : List (Token P)} (hts : ts ⊆ us) :
    ∀ p ∈ (readItems ends ts).1, p.value.From us := by
  fun_induction readItems ends ts with
  | case1 => simp
  | case2 => simp
  | case3 t ts _ _ _ _ args rest hargs items _ hitems ih =>
    have hts' : ts ⊆ us := List.subset_of_cons_subset hts
    have ih' := ih (List.Subset.trans (readCallArgs_suffix ts).subset hts')
    rw [hitems] at ih'
    rintro p (_ | ⟨_, hp⟩)
    · have h := readCallArgs_from hts'
      rwa [hargs] at h
    · exact ih' p hp
  | case4 t ts _ hstart _ e rest he items _ hitems _ ih =>
    have ih' := ih
      (List.Subset.trans (readEvent_suffix t ts).subset (List.subset_of_cons_subset hts))
    rw [hitems] at ih'
    rintro p (_ | ⟨_, hp⟩)
    · have hread : Reads us e := ⟨t, ts, hts, hstart, by rw [he]⟩
      cases e <;> exact hread
    · exact ih' p hp
  | case5 t ts _ _ _ ih => exact ih (List.subset_of_cons_subset hts)

lemma Macro.expand_subset {m : Macro P} {args : List (List (Token P))} (hbody : m.body ⊆ us)
    (hargs : ∀ a ∈ args, a ⊆ us) : m.expand args ⊆ us := by
  intro t ht
  obtain ⟨b, hb, ht⟩ := List.mem_flatMap.mp ht
  split at ht
  · rename_i i _
    rcases ha : args[i]? with _ | a
    · simp [ha] at ht
    · exact hargs a (List.mem_of_getElem? ha) (by simpa [ha] using ht)
  · exact List.mem_singleton.mp ht ▸ hbody hb

lemma Macro.items_from {m : Macro P} {args : List (List (Token P))} (hbody : m.body ⊆ us)
    (hargs : ∀ a ∈ args, a ⊆ us) (unread : Nat) : ∀ p ∈ m.items args unread, p.value.From us := by
  intro p hp
  obtain ⟨q, hq, rfl⟩ := List.mem_map.mp hp
  exact readItems_from _ (expand_subset hbody hargs) q hq

lemma mem_of_get? {α : Type} {key : String} {l : List (String × α)} {v : α}
    (h : get? key l = some v) : (key, v) ∈ l := by
  fun_induction get? key l <;> simp_all

lemma mem_put {α : Type} {key : String} {v : α} {l : List (String × α)} {p : String × α}
    (h : p ∈ put key v l) : p.2 = v ∨ p ∈ l := by
  fun_induction put key v l <;> grind

lemma mem_of_lookUp {book : Book P} {depth used : Nat} {name : String} {m : Macro P}
    (h : book.lookUp depth used name = .ok m) : (name, m) ∈ book.macros := by
  unfold Book.lookUp at h
  split at h
  · simp at h
  · rename_i m' hget
    repeat' split at h
    all_goals simp at h
    exact h ▸ mem_of_get? hget

/-- However deep the macros are nested, every step of a script is read from the text. -/
lemma script_from {book : Book P} (hbook : ∀ p ∈ book.macros, p.2.body ⊆ us) (depth used : Nat)
    (items : List (Placed (Item P))) (hitems : ∀ p ∈ items, p.value.From us) :
    ∀ p ∈ (script book depth used items).steps, p.value.From us := by
  induction depth, used, items using script_induction book with
  | nil => simp
  | event depth used e unread rest ih =>
    simp only [List.forall_mem_cons, script_event, Script.cons] at hitems ⊢
    exact ⟨hitems.1, ih hitems.2⟩
  | broken depth used f unread rest ih =>
    simp only [List.forall_mem_cons, script_broken, Script.cons] at hitems ⊢
    exact ⟨hitems.1, ih hitems.2⟩
  | refuse depth used t name args unread rest issue h ih =>
    simp only [List.forall_mem_cons, script_refuse _ _ h, Script.cons] at hitems ⊢
    exact ⟨trivial, ih hitems.2⟩
  | expand depth used t name args unread rest m h ih₁ ih₂ =>
    simp only [List.forall_mem_cons, script_expand _ _ h, List.forall_mem_append] at hitems ⊢
    have hbody : m.body ⊆ us := hbook (name, m) (mem_of_lookUp h)
    exact ⟨trivial, ih₁ (Macro.items_from hbody hitems.1 unread), ih₂ hitems.2⟩

/-! ### Where declarations come from -/

/-- A value is empty, or a quoted text or symbol of the text. -/
def Attribute.From (us : List (Token P)) (a : Attribute P) : Prop :=
  a.value = "" ∨ ∃ t ∈ us, t.lexeme = .quoted a.value ∨ t.lexeme = .symbol a.value

def InstrumentBlock.From (us : List (Token P)) (b : InstrumentBlock P) : Prop :=
  ∀ d, b.body = some d → ∀ a ∈ d.attributes, a.From us

def VoiceStream.From (us : List (Token P)) (v : VoiceStream P) : Prop :=
  ∀ p ∈ v.items, p.value.From us

def Entry.From (us : List (Token P)) : Entry P → Prop
  | .header _ => True
  | .part _ voices => ∀ v ∈ voices, v.From us

def Declaration.From (us : List (Token P)) : Declaration P → Prop
  | .header _ => True
  | .group b => ∀ blocks, b.members = some blocks → ∀ p ∈ blocks, p.1.From us
  | .instrument b => b.From us
  | .template b => ∀ body, b.body = some body → body ⊆ us
  | .measure b => ∀ body, b.body = some body → body ⊆ us

lemma readVoices_from (defined : String → Bool) {ts : List (Token P)} (hts : ts ⊆ us) :
    ∀ v ∈ (readVoices defined ts).1, v.From us := by
  fun_induction readVoices defined ts with
  | case1 => simp
  | case2 => simp
  | case3 t ts _ _ _ ih => exact ih (List.subset_of_cons_subset hts)
  | case4 t ts _ _ _ _ voices _ heq _ _ ih =>
    have hbehind : skipPunct .colon ts ⊆ us :=
      List.Subset.trans (skipPunct_suffix .colon ts).subset (List.subset_of_cons_subset hts)
    have hrest := (skipPunct_suffix .bar _).trans
      (readItems_suffix (endsStream defined) (skipPunct .colon ts))
    have ih' := ih (List.Subset.trans hrest.subset hbehind)
    rw [heq] at ih'
    rintro v (_ | ⟨_, hv⟩)
    · exact readItems_from _ hbehind
    · exact ih' v hv

lemma readPart_from (defined : String → Bool) {ts : List (Token P)} (hts : ts ⊆ us) :
    ∀ v ∈ (readPart defined ts).1, v.From us := by
  have h := List.Subset.trans (skipPunct_suffix .colon ts).subset hts
  unfold readPart
  split
  · rename_i heq
    rw [heq] at h
    exact readVoices_from defined (List.subset_of_cons_subset h)
  · simp only [List.forall_mem_singleton]
    exact readItems_from _ h

lemma readEntries_from (defined : String → Bool) {ts : List (Token P)} (hts : ts ⊆ us) :
    ∀ e ∈ readEntries defined ts, e.From us := by
  fun_induction readEntries defined ts with
  | case1 => simp
  | case2 t ts s _ _ _ _ ih =>
    simp only [List.forall_mem_cons]
    exact ⟨trivial,
      ih (List.Subset.trans (readHeader_suffix t ts).subset (List.subset_of_cons_subset hts))⟩
  | case3 t ts s _ _ _ _ _ ih =>
    have hts' := List.subset_of_cons_subset hts
    simp only [List.forall_mem_cons]
    exact ⟨readPart_from defined hts',
      ih (List.Subset.trans (readPart_suffix defined ts).subset hts')⟩
  | case4 t ts _ _ _ _ ih => exact ih (List.subset_of_cons_subset hts)
  | case5 t ts _ ih => exact ih (List.subset_of_cons_subset hts)

lemma readAttributeValue_from {ts : List (Token P)} (hts : ts ⊆ us) :
    (readAttributeValue ts).1 = "" ∨ ∃ t ∈ us, t.lexeme = .quoted (readAttributeValue ts).1 ∨
      t.lexeme = .symbol (readAttributeValue ts).1 := by
  fun_cases readAttributeValue ts with
  | case2 t ts s ht => exact .inr ⟨t, hts (by simp), .inl ht⟩
  | case4 t ts s ht _ => exact .inr ⟨t, hts (by simp), .inr ht⟩
  | _ => exact .inl rfl

lemma readAttributes_from {ts : List (Token P)} (hts : ts ⊆ us) :
    ∀ a ∈ (readAttributes ts).1, a.From us := by
  fun_induction readAttributes ts with
  | case1 => simp
  | case2 t ts rest hrest _ _ value attributes _ heq ih =>
    have hsub : rest ⊆ us := List.Subset.trans (suffix_of_afterEquals? hrest).subset
      (List.subset_of_cons_subset hts)
    have ih' := ih (List.Subset.trans (readAttributeValue_suffix rest).subset hsub)
    rw [heq] at ih'
    simp only [List.forall_mem_cons]
    exact ⟨readAttributeValue_from hsub, ih'⟩
  | case3 => simp

lemma readInstrument_from {t : Token P} {ts : List (Token P)} (hts : t :: ts ⊆ us) :
    (readInstrument (t :: ts)).1.From us := by
  have hts' := List.subset_of_cons_subset hts
  simp only [readInstrument, List.tail_cons]
  split
  · rename_i u rest
    split
    · rintro d ⟨⟩
      exact readAttributes_from (List.Subset.trans (readLabel_suffix _ rest).subset
        (List.subset_of_cons_subset hts'))
    · rintro d ⟨⟩
  · rintro d ⟨⟩

lemma readMembers_from (size : Nat) {ts : List (Token P)} (hts : ts ⊆ us) :
    ∀ p ∈ (readMembers size ts).1, p.1.From us := by
  fun_induction readMembers size ts with
  | case1 => simp
  | case2 => simp
  | case3 t ts _ _ _ block rest hblock members _ heq ih =>
    have ih' := ih (List.Subset.trans (readInstrument_suffix t ts).subset
      (List.subset_of_cons_subset hts))
    rw [heq] at ih'
    simp only [List.forall_mem_cons]
    have h := readInstrument_from hts
    rw [hblock] at h
    exact ⟨h, ih'⟩
  | case4 t ts _ _ ih => exact ih (List.subset_of_cons_subset hts)

lemma takeBlock_subset (depth : Nat) (ts : List (Token P)) : (takeBlock depth ts).1 ⊆ ts := by
  fun_induction takeBlock depth ts <;> simp_all

lemma readGroup_from {t : Token P} {ts : List (Token P)} (hts : ts ⊆ us) :
    Declaration.From us (.group (readGroup (t :: ts)).1) := by
  have h := List.Subset.trans (seekBlock_group_suffix t ts).subset hts
  simp only [readGroup, List.tail_cons, List.head?_cons, textOf]
  split
  · rename_i heq
    rw [heq] at h
    rintro blocks ⟨⟩
    exact readMembers_from _ (List.subset_of_cons_subset h)
  · rintro blocks ⟨⟩

lemma readMacro_from {t : Token P} {ts : List (Token P)} (hts : ts ⊆ us) :
    Declaration.From us (.template (readMacro (t :: ts)).1) := by
  have h := List.Subset.trans (((skipPunct_suffix .equals _).trans
    (readParamList_suffix ts.tail)).trans (List.tail_suffix ts)).subset hts
  simp only [readMacro, List.tail_cons]
  split
  · rename_i heq
    rw [heq] at h
    rintro body ⟨⟩
    exact List.Subset.trans (takeBlock_subset 0 _) (List.subset_of_cons_subset h)
  · rintro body ⟨⟩

lemma readMeasure_from {t : Token P} {ts : List (Token P)} (hts : ts ⊆ us) :
    Declaration.From us (.measure (readMeasure (t :: ts)).1) := by
  have h := List.Subset.trans (skipSymbol_suffix ts).subset hts
  simp only [readMeasure, List.tail_cons]
  split
  · rename_i heq
    rw [heq] at h
    rintro body ⟨⟩
    exact List.Subset.trans (takeBlock_subset 0 _) (List.subset_of_cons_subset h)
  · rintro body ⟨⟩

lemma readDeclaration?_from {t : Token P} {ts rest : List (Token P)} {d : Declaration P}
    (hts : t :: ts ⊆ us) (h : readDeclaration? t ts = some (d, rest)) :
    d.From us ∧ rest ⊆ us := by
  have hts' := List.subset_of_cons_subset hts
  unfold readDeclaration? at h
  repeat' split at h
  all_goals simp only [Option.some.injEq, Prod.mk.injEq, reduceCtorEq] at h
  all_goals obtain ⟨rfl, rfl⟩ := h
  · exact ⟨trivial, List.Subset.trans (readHeader_suffix t ts).subset hts'⟩
  · exact ⟨readGroup_from hts', List.Subset.trans (readGroup_suffix t ts).subset hts'⟩
  · exact ⟨readInstrument_from hts, List.Subset.trans (readInstrument_suffix t ts).subset hts'⟩
  · exact ⟨readMacro_from hts', List.Subset.trans (readMacro_suffix t ts).subset hts'⟩
  · exact ⟨readMeasure_from hts', List.Subset.trans (readMeasure_suffix t ts).subset hts'⟩

lemma readDeclarations_from (wrapped : Bool) {ts : List (Token P)} (hts : ts ⊆ us) :
    ∀ d ∈ readDeclarations wrapped ts, d.From us := by
  fun_induction readDeclarations wrapped ts with
  | case1 => simp
  | case2 => simp
  | case3 t ts _ _ ih => exact ih (List.subset_of_cons_subset hts)
  | case4 t ts _ d rest heq _ ih =>
    obtain ⟨hd, hrest⟩ := readDeclaration?_from hts heq
    simp only [List.forall_mem_cons]
    exact ⟨hd, ih hrest⟩
  | case5 t ts _ _ ih => exact ih (List.subset_of_cons_subset hts)

/-- Every declaration of a document is made of its tokens. -/
lemma readDocument_from (us : List (Token P)) : ∀ d ∈ readDocument us, d.From us := by
  unfold readDocument
  split
  · simp
  · split
    · split
      · exact readDeclarations_from true fun t ht => by simp [ht]
      · exact readDeclarations_from false fun t ht => by simp [ht]
    · exact readDeclarations_from false fun t ht => ht

/-! ### Symbols of a text -/

/-- A symbol has the characters of symbols only. -/
def Token.Plain (t : Token P) : Prop :=
  ∀ s, t.lexeme = .symbol s → ∀ c ∈ s.toList, isSymbolChar c = true

lemma isSymbolChar_bounds {c : Char} (h : isSymbolChar c = true) :
    33 ≤ c.toNat ∧ c.toNat ≤ 126 := by
  have hrange {a b : Char} (hab : c.val ≥ a.val ∧ c.val ≤ b.val) (ha : 33 ≤ a.toNat)
      (hb : b.toNat ≤ 126) : 33 ≤ c.toNat ∧ c.toNat ≤ 126 :=
    ⟨ha.trans (UInt32.le_iff_toNat_le.mp hab.1), (UInt32.le_iff_toNat_le.mp hab.2).trans hb⟩
  simp only [isSymbolChar, Char.isAlphanum, Char.isDigit] at h
  delta Char.isAlpha at h
  delta Char.isUpper Char.isLower at h
  simp only [Bool.or_eq_true, Bool.and_eq_true, decide_eq_true_eq, beq_iff_eq] at h
  rcases h with ((((((h | h) | h) | rfl) | rfl) | rfl) | rfl) | rfl
  · exact hrange h (by decide) (by decide)
  · exact hrange h (by decide) (by decide)
  · exact hrange h (by decide) (by decide)
  all_goals decide

lemma isSymbolChar_ascii {c : Char} (h : isSymbolChar c = true) : c.toNat < 128 :=
  (isSymbolChar_bounds h).2.trans_lt (by decide)

lemma Token.Plain.isAscii {t : Token P} (h : t.Plain) {s : String} (hs : t.lexeme = .symbol s) :
    IsAscii s :=
  fun c hc => isSymbolChar_ascii (h s hs c hc)

lemma Lexeme.cut?_symbol {cs rest : List Char} {s : String}
    (h : cut? cs = some (.symbol s, rest)) : ∀ c ∈ s.toList, isSymbolChar c = true := by
  unfold cut? at h
  repeat' split at h
  all_goals simp only [Option.some.injEq, Prod.mk.injEq, reduceCtorEq, false_and,
    Lexeme.symbol.injEq] at h
  rename_i hc
  obtain ⟨rfl, -⟩ := h
  simp only [String.toList_ofList, List.forall_mem_cons]
  exact ⟨hc, List.all_eq_true.mp List.all_takeWhile⟩

lemma scan_plain (offset : Nat) (cs : List Char) : ∀ t ∈ scan offset cs, t.Plain := by
  fun_induction scan offset cs with
  | case1 => simp
  | case2 offset c cs l rest hcut _ ih =>
    simp only [List.forall_mem_cons]
    refine ⟨?_, ih⟩
    rintro s rfl
    exact Lexeme.cut?_symbol hcut
  | case3 offset c cs _ ih => exact ih

lemma tokenize_plain (source : String) : ∀ t ∈ tokenize source, t.Plain := scan_plain 0 _

/-! ### Events that were read -/

/-- A length that was read is a note value. -/
def Length.Writable : Length → Prop
  | .value d => NoteValue d.quarters
  | _ => True

/-- What every event that was read has in common. -/
structure WrittenEvent.Shaped (e : WrittenEvent P) : Prop where
  single : e.chord = false → ∃ s, e.pitches = [s]
  ascii : ∀ s ∈ e.pitches, IsAscii s
  length : e.length.Writable

lemma readTail_cases (chain : Chain) (length : Length) (ts : List (Token P))
    (hlength : length.Writable) :
    (∃ chain' length', (readTail chain length ts).1 = .ok (chain', length') ∧ length'.Writable) ∨
      ∃ f, (readTail chain length ts).1 = .error f ∧ f.IsTooLong := by
  fun_induction readTail chain length ts with
  | case4 chain _ _ s _ rest f hread =>
    rcases Duration.read_cases s with h | ⟨d, tail, h, -⟩ | ⟨g, h, hg⟩
    · simp [hread] at h
    · simp [hread] at h
    · obtain rfl : f = g := by simpa [hread] using h
      exact .inr ⟨f, rfl, hg⟩
  | case6 chain _ _ s _ rest d tail hread ih =>
    rcases Duration.read_cases s with h | ⟨d', tail', h, hd⟩ | ⟨g, h, -⟩
    · simp [hread] at h
    · obtain ⟨rfl, rfl⟩ : d = d' ∧ tail = tail' := by simpa [hread] using h
      exact ih hd
    · simp [hread] at h
  | _ => simp_all [Length.Writable]

lemma readChord_ascii {ts : List (Token P)} (hts : ∀ t ∈ ts, t.Plain) :
    ∀ s ∈ (readChord ts).1, IsAscii s := by
  fun_induction readChord ts with
  | case5 t ts s hs pitches rest heq ih =>
    simp only [List.forall_mem_cons] at hts ⊢
    rw [heq] at ih
    exact ⟨hts.1.isAscii hs, ih hts.2⟩
  | _ => simp_all

lemma readHead_single {t : Token P} {ts : List (Token P)}
    (h : (readHead (t :: ts)).1.2.1 = false) : ∃ s, (readHead (t :: ts)).1.1 = [s] := by
  simp only [readHead] at h ⊢
  split at h
  · cases h
  · simp_all

lemma readHead_ascii {t : Token P} {ts : List (Token P)} (hstart : startsEvent t = true)
    (hts : ∀ u ∈ t :: ts, u.Plain) : ∀ s ∈ (readHead (t :: ts)).1.1, IsAscii s := by
  simp only [List.forall_mem_cons] at hts
  simp only [readHead]
  split
  · exact readChord_ascii hts.2
  · rename_i hbracket
    rcases hcut : cutAt '.' t.text.toList with ⟨pitch, names⟩
    simp only [List.forall_mem_singleton]
    rcases ht : t.lexeme with p | q | name | s
    · -- the only mark an event starts with is the bracket of a chord
      rw [startsEvent, ht] at hstart
      split at hstart <;> simp_all [Token.isPunct]
    · simp [startsEvent, ht] at hstart
    · simp [startsEvent, ht] at hstart
    · intro c hc
      have htext : t.text = s := by simp [Token.text, Lexeme.text, ht]
      rw [String.toList_ofList] at hc
      exact hts.1.isAscii ht c (htext ▸ (mem_of_cutAt hcut).1 hc)

/-- An event read from plain tokens is shaped, or a numeral in it is too long. -/
lemma readEvent_cases {t : Token P} {ts : List (Token P)} (hstart : startsEvent t = true)
    (hts : ∀ u ∈ t :: ts, u.Plain) :
    (∃ e, (readEvent (t :: ts)).1 = .ok e ∧ e.Shaped) ∨
      ∃ f, (readEvent (t :: ts)).1 = .error f ∧ f.IsTooLong := by
  unfold readEvent
  rcases hhead : readHead (t :: ts) with ⟨⟨pitches, chord, chain⟩, rest⟩
  have hsingle := @readHead_single _ t ts
  have hascii := readHead_ascii hstart hts
  rw [hhead] at hsingle hascii
  simp only
  rcases readTail_cases chain .unwritten rest trivial with ⟨chain', length, h, hl⟩ | ⟨f, h, hf⟩
  · rcases htail : readTail chain .unwritten rest with ⟨r, rest'⟩
    obtain rfl : r = _ := by simpa [htail] using h
    exact .inl ⟨_, rfl, hsingle, hascii, hl⟩
  · rcases htail : readTail chain .unwritten rest with ⟨r, rest'⟩
    obtain rfl : r = _ := by simpa [htail] using h
    exact .inr ⟨f, rfl, hf⟩

lemma Reads.shaped (hus : ∀ t ∈ us, t.Plain) {e : WrittenEvent P} (h : Reads us (.ok e)) :
    e.Shaped := by
  obtain ⟨t, ts, hsub, hstart, hread⟩ := h
  rcases readEvent_cases hstart (fun u hu => hus u (hsub hu)) with ⟨e', he, hs⟩ | ⟨f, hf, -⟩
  · obtain rfl : e = e' := by simpa [hread] using he
    exact hs
  · simp [hread] at hf

lemma Reads.isTooLong (hus : ∀ t ∈ us, t.Plain) {f : Fault} (h : Reads us (.error f)) :
    f.IsTooLong := by
  obtain ⟨t, ts, hsub, hstart, hread⟩ := h
  rcases readEvent_cases hstart (fun u hu => hus u (hsub hu)) with ⟨e, he, -⟩ | ⟨g, hg, hlong⟩
  · simp [hread] at he
  · obtain rfl : f = g := by simpa [hread] using hg
    exact hlong

end Partitura
