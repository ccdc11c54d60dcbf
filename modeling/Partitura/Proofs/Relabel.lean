import Partitura.Proofs.Reading

/-!
Reading does not look at where tokens stand.

`Token.map f` moves a token to another position, and each thing that is read from tokens has a
`map f` that moves the tokens in it. Every reader commutes with these: from tokens that were moved
it reads what it reads from the tokens themselves, moved, and leaves the same tokens. The lemmas
follow the readers from argument lists up to documents. Where a reader decides by an opening
brace, `behindOpen?` says what stands behind it.
-/

namespace Partitura

open Text

variable {P Q α β : Type}

/-! ### Tokens -/

namespace Token

variable (f : P → Q) (t : Token P)

@[simp] lemma map_mk (l : Lexeme) (p : P) : map f ⟨l, p⟩ = ⟨l, f p⟩ := rfl

@[simp] lemma lexeme_map : (t.map f).lexeme = t.lexeme := rfl

@[simp] lemma pos_map : (t.map f).pos = f t.pos := rfl

@[simp] lemma text_map : (t.map f).text = t.text := rfl

@[simp] lemma value_map : (t.map f).value = t.value := rfl

@[simp] lemma isPunct_map (p : Punct) : (t.map f).isPunct p = t.isPunct p := rfl

@[simp] lemma isWord_map (word : String) : (t.map f).isWord word = t.isWord word := rfl

@[simp] lemma isReserved_map : (t.map f).isReserved = t.isReserved := rfl

@[simp] lemma startsEvent_map : startsEvent (t.map f) = startsEvent t := rfl

@[simp] lemma isName_map : isName (t.map f) = isName t := rfl

end Token

variable (f : P → Q)

@[simp] lemma textOf_map (t : Option (Token P)) : textOf (t.map (Token.map f)) = textOf t := by
  cases t <;> rfl

def behindOpen? : List (Token P) → Option (List (Token P))
  | ⟨.punct .openBrace, _⟩ :: rest => some rest
  | _ => none

lemma behindOpen?_eq_none {ts : List (Token P)}
    (h : ∀ p rest, ts = ⟨.punct .openBrace, p⟩ :: rest → False) : behindOpen? ts = none := by
  unfold behindOpen?
  split
  · exact (h _ _ rfl).elim
  · rfl

lemma behindOpen?_map (ts : List (Token P)) :
    behindOpen? (ts.map (Token.map f)) = (behindOpen? ts).map (List.map (Token.map f)) := by
  rcases ts with _ | ⟨⟨mark | _ | _ | _, p⟩, ts⟩
  · rfl
  · cases mark <;> rfl
  all_goals rfl

/-! ### Arguments -/

lemma readTexts_map (depth : Nat) (done : List String) (current : String) (ts : List (Token P)) :
    readTexts depth done current (ts.map (Token.map f)) =
      Prod.map id (List.map (Token.map f)) (readTexts depth done current ts) := by
  fun_induction readTexts depth done current ts <;> simp_all [readTexts]

lemma closeLists_map (done : List (List (Token P))) (current : List (Token P)) :
    closeLists (done.map (List.map (Token.map f))) (current.map (Token.map f)) =
      (closeLists done current).map (List.map (Token.map f)) := by
  simp only [closeLists, List.isEmpty_map]
  split <;> simp

lemma readLists_map (depth : Nat) (done : List (List (Token P))) (current ts : List (Token P)) :
    readLists depth (done.map (List.map (Token.map f))) (current.map (Token.map f))
        (ts.map (Token.map f)) =
      Prod.map (List.map (List.map (Token.map f))) (List.map (Token.map f))
        (readLists depth done current ts) := by
  fun_induction readLists depth done current ts <;> simp_all [readLists, closeLists_map]

lemma readCallArgs_map (ts : List (Token P)) :
    readCallArgs (ts.map (Token.map f)) =
      Prod.map (List.map (List.map (Token.map f))) (List.map (Token.map f)) (readCallArgs ts) := by
  cases ts with
  | nil => rfl
  | cons t ts =>
    by_cases h : t.isPunct .openParen
    · simpa [readCallArgs, h] using readLists_map f 0 [] [] ts
    · simp [readCallArgs, h]

/-! ### Events -/

lemma readChord_map (ts : List (Token P)) :
    readChord (ts.map (Token.map f)) = Prod.map id (List.map (Token.map f)) (readChord ts) := by
  fun_induction readChord ts <;> simp_all [readChord]

lemma readTail_map (chain : Chain) (length : Length) (ts : List (Token P)) :
    readTail chain length (ts.map (Token.map f)) =
      Prod.map id (List.map (Token.map f)) (readTail chain length ts) := by
  fun_induction readTail chain length ts with
  | case7 chain t ht ts hts ih =>
    -- no symbol follows the colon
    rw [readTail.eq_def]
    rcases ts with _ | ⟨⟨_ | _ | _ | _, p⟩, ts⟩ <;> simp_all
  | _ => rw [readTail.eq_def]; simp_all [readTexts_map]

lemma readHead_map (ts : List (Token P)) :
    readHead (ts.map (Token.map f)) = Prod.map id (List.map (Token.map f)) (readHead ts) := by
  fun_cases readHead ts <;> simp_all [readHead, readChord_map]

def WrittenEvent.map (e : WrittenEvent P) : WrittenEvent Q :=
  ⟨e.anchor.map (Token.map f), e.pitches, e.chord, e.length, e.modifiers⟩

lemma readEvent_map (ts : List (Token P)) :
    readEvent (ts.map (Token.map f)) =
      Prod.map (Except.map (WrittenEvent.map f)) (List.map (Token.map f)) (readEvent ts) := by
  simp only [readEvent, readHead_map, Prod.map_fst, Prod.map_snd, id_eq, readTail_map]
  rcases readTail (readHead ts).1.2.2 .unwritten (readHead ts).2 with ⟨_ | ⟨chain, length⟩, rest⟩
  · rfl
  · simp [Except.map, WrittenEvent.map]

/-! ### Streams -/

def Item.map : Item P → Item Q
  | .event e => .event (e.map f)
  | .call head name args => .call (head.map f) name (args.map (List.map (Token.map f)))
  | .broken fault => .broken fault

def Placed.map (g : α → β) (p : Placed α) : Placed β := ⟨g p.value, p.unread⟩

lemma itemOf_map (r : Except Fault (WrittenEvent P)) :
    itemOf (r.map (WrittenEvent.map f)) = (itemOf r).map f := by
  cases r <;> rfl

lemma endsStream_map (defined : String → Bool) (ts : List (Token P)) :
    endsStream defined (ts.map (Token.map f)) = endsStream defined ts := by
  fun_cases endsStream defined ts <;> simp_all [endsStream, Option.any_map]

lemma readItems_map (ends : List (Token P) → Bool) {ends' : List (Token Q) → Bool}
    (hends : ∀ ts, ends' (ts.map (Token.map f)) = ends ts) (ts : List (Token P)) :
    readItems ends' (ts.map (Token.map f)) =
      Prod.map (List.map (Placed.map (Item.map f))) (List.map (Token.map f))
        (readItems ends ts) := by
  fun_induction readItems ends ts with
  | case1 => simp [readItems]
  | case2 t ts h =>
    have hover := hends (t :: ts)
    rw [readItems.eq_def]
    simp_all
  | case3 t ts h name ht _ args rest hargs items behind hitems ih =>
    have hover := hends (t :: ts)
    rw [readItems.eq_def]
    simp_all [readCallArgs_map, Placed.map, Item.map]
  | case4 t ts h hstart _ e rest hevent items behind hitems ht ih =>
    have hover := hends (t :: ts)
    have hread := readEvent_map f (t :: ts)
    rw [readItems.eq_def]
    simp_all [itemOf_map, Placed.map]
  | case5 t ts h hstart ht ih =>
    have hover := hends (t :: ts)
    rw [readItems.eq_def]
    simp_all

lemma readStream_map (defined : String → Bool) (ts : List (Token P)) :
    readStream defined (ts.map (Token.map f)) =
      Prod.map (List.map (Placed.map (Item.map f))) (List.map (Token.map f))
        (readStream defined ts) :=
  readItems_map f _ (endsStream_map f defined) ts

lemma readBody_map (ts : List (Token P)) :
    readBody (ts.map (Token.map f)) = (readBody ts).map (Placed.map (Item.map f)) := by
  rw [readBody, readItems_map f (fun _ => false) fun _ => rfl]
  rfl

/-! ### Blocks -/

lemma skipPunct_map (p : Punct) (ts : List (Token P)) :
    skipPunct p (ts.map (Token.map f)) = (skipPunct p ts).map (Token.map f) := by
  fun_cases skipPunct p ts <;> simp_all [skipPunct]

lemma takeBlock_map (depth : Nat) (ts : List (Token P)) :
    takeBlock depth (ts.map (Token.map f)) =
      Prod.map (List.map (Token.map f)) (Option.map (List.map (Token.map f)))
        (takeBlock depth ts) := by
  fun_induction takeBlock depth ts <;> simp_all [takeBlock]

lemma readBracket_map (text : String) (ts : List (Token P)) :
    readBracket text (ts.map (Token.map f)) =
      Prod.map id (List.map (Token.map f)) (readBracket text ts) := by
  fun_induction readBracket text ts <;> simp_all [readBracket]

lemma readSetting_map (ts : List (Token P)) :
    readSetting (ts.map (Token.map f)) =
      Prod.map id (List.map (Token.map f)) (readSetting ts) := by
  fun_cases readSetting ts <;> simp_all [readSetting, readBracket_map]

lemma readSettings_map (ts : List (Token P)) :
    readSettings (ts.map (Token.map f)) =
      Prod.map (List.map (Prod.map (Token.map f) id)) (List.map (Token.map f))
        (readSettings ts) := by
  fun_induction readSettings ts with
  | case4 t ts _ _ _ value settings rest hrest ht ih =>
    rw [readSettings.eq_def]
    simp_all [skipPunct_map, readSetting_map, value]
  | _ => rw [readSettings.eq_def]; simp_all

lemma readHeader_eq (ts : List (Token P)) :
    readHeader ts = match behindOpen? ts.tail with
      | some rest => (⟨ts.head?, some (readSettings rest).1⟩, (readSettings rest).2)
      | none => (⟨ts.head?, none⟩, ts.tail) := by
  unfold readHeader
  split
  · rename_i heq
    rw [heq]
    rfl
  · rename_i h
    rw [behindOpen?_eq_none h]

def HeaderBlock.map (b : HeaderBlock P) : HeaderBlock Q :=
  ⟨b.keyword.map (Token.map f), b.settings.map (List.map (Prod.map (Token.map f) id))⟩

lemma readHeader_map (ts : List (Token P)) :
    readHeader (ts.map (Token.map f)) =
      Prod.map (HeaderBlock.map f) (List.map (Token.map f)) (readHeader ts) := by
  rw [readHeader_eq, readHeader_eq, ← List.map_tail, behindOpen?_map]
  cases behindOpen? ts.tail <;> simp [HeaderBlock.map, readSettings_map]

def VoiceStream.map (v : VoiceStream P) : VoiceStream Q :=
  ⟨v.voice, v.items.map (Placed.map (Item.map f))⟩

lemma readVoices_map (defined : String → Bool) (ts : List (Token P)) :
    readVoices defined (ts.map (Token.map f)) =
      Prod.map (List.map (VoiceStream.map f)) (List.map (Token.map f))
        (readVoices defined ts) := by
  fun_induction readVoices defined ts with
  | case4 t ts _ _ _ items voices rest hrest _ ht ih =>
    rw [readVoices.eq_def]
    simp_all [skipPunct_map, readStream_map, VoiceStream.map, items]
  | _ => rw [readVoices.eq_def]; simp_all

lemma readPart_eq (defined : String → Bool) (ts : List (Token P)) :
    readPart defined ts = match behindOpen? (skipPunct .colon ts) with
      | some rest => readVoices defined rest
      | none =>
        ([⟨defaultVoice, (readStream defined (skipPunct .colon ts)).1⟩],
          skipPunct .bar (readStream defined (skipPunct .colon ts)).2) := by
  unfold readPart
  split
  · rename_i heq
    rw [heq]
    rfl
  · rename_i h
    rw [behindOpen?_eq_none h]

lemma readPart_map (defined : String → Bool) (ts : List (Token P)) :
    readPart defined (ts.map (Token.map f)) =
      Prod.map (List.map (VoiceStream.map f)) (List.map (Token.map f)) (readPart defined ts) := by
  rw [readPart_eq, readPart_eq, skipPunct_map, behindOpen?_map, readStream_map]
  cases behindOpen? (skipPunct .colon ts) <;>
    simp [readVoices_map, skipPunct_map, VoiceStream.map]

def Entry.map : Entry P → Entry Q
  | .header b => .header (b.map f)
  | .part id voices => .part id (voices.map (VoiceStream.map f))

lemma readEntries_map (defined : String → Bool) (ts : List (Token P)) :
    readEntries defined (ts.map (Token.map f)) = (readEntries defined ts).map (Entry.map f) := by
  fun_induction readEntries defined ts with
  | case2 t ts s ht hmeta _ block ih =>
    have hread := readHeader_map f (t :: ts)
    rw [readEntries.eq_def]
    simp_all [Entry.map, block]
  | case3 t ts s ht hmeta hdefined _ voices ih =>
    rw [readEntries.eq_def]
    simp_all [readPart_map, Entry.map, voices]
  | _ => rw [readEntries.eq_def]; simp_all

/-! ### Instruments and groups -/

def Attribute.map (a : Attribute P) : Attribute Q := ⟨a.key, a.value, a.token.map f⟩

lemma readAttributeValue_map (ts : List (Token P)) :
    readAttributeValue (ts.map (Token.map f)) =
      Prod.map id (List.map (Token.map f)) (readAttributeValue ts) := by
  fun_cases readAttributeValue ts <;> simp_all [readAttributeValue]

lemma afterEquals?_map (t : Token P) (ts : List (Token P)) :
    afterEquals? (t.map f) (ts.map (Token.map f)) =
      (afterEquals? t ts).map (List.map (Token.map f)) := by
  rcases ts with _ | ⟨⟨mark | _ | _ | _, p⟩, ts⟩
  · rfl
  · cases mark <;> try rfl
    -- behind an equals sign the key decides
    simp only [afterEquals?, List.map_cons, Token.map_mk, Token.lexeme_map, Token.isReserved_map]
    split
    · rfl
    · by_cases h : t.isReserved = true <;> simp [h]
  all_goals rfl

lemma readAttributes_cons (t : Token P) (ts : List (Token P)) :
    readAttributes (t :: ts) = match afterEquals? t ts with
      | some rest =>
        let value := readAttributeValue rest
        (⟨lower t.value, value.1, t⟩ :: (readAttributes value.2).1, (readAttributes value.2).2)
      | none => ([], t :: ts) := by
  rw [readAttributes]
  split <;> simp_all

lemma readAttributes_map (ts : List (Token P)) :
    readAttributes (ts.map (Token.map f)) =
      Prod.map (List.map (Attribute.map f)) (List.map (Token.map f)) (readAttributes ts) := by
  fun_induction readAttributes ts with
  | case1 => simp [readAttributes]
  | case2 t ts rest hrest _ _ value attributes behind heq ih =>
    rw [List.map_cons, readAttributes_cons, afterEquals?_map, hrest]
    simp_all [readAttributeValue_map, Attribute.map, value]
  | case3 t ts h =>
    rw [List.map_cons, readAttributes_cons, afterEquals?_map, h]
    rfl

def Definition.map (d : Definition P) : Definition Q :=
  ⟨d.id.map f, d.label, d.attributes.map (Attribute.map f)⟩

def InstrumentBlock.map (b : InstrumentBlock P) : InstrumentBlock Q :=
  ⟨b.keyword.map (Token.map f), b.body.map (Definition.map f)⟩

lemma readLabel_map (name : String) (ts : List (Token P)) :
    readLabel name (ts.map (Token.map f)) =
      Prod.map id (List.map (Token.map f)) (readLabel name ts) := by
  rcases ts with _ | ⟨⟨_ | _ | _ | _, p⟩, ts⟩ <;> rfl

lemma readInstrument_map (ts : List (Token P)) :
    readInstrument (ts.map (Token.map f)) =
      Prod.map (InstrumentBlock.map f) (List.map (Token.map f)) (readInstrument ts) := by
  rcases ts with _ | ⟨keyword, _ | ⟨t, ts⟩⟩
  · rfl
  · rfl
  · simp only [readInstrument, List.map_cons, List.tail_cons, Token.isName_map, Token.value_map,
      readLabel_map, readAttributes_map, Prod.map_fst, Prod.map_snd, id_eq]
    split <;> rfl

lemma readGroupLabel_map (keyword : String) (ts : List (Token P)) :
    readGroupLabel keyword (ts.map (Token.map f)) =
      Prod.map id (List.map (Token.map f)) (readGroupLabel keyword ts) := by
  rcases ts with _ | ⟨⟨_ | _ | _ | _, p⟩, ts⟩
  · rfl
  · rfl
  · simp only [readGroupLabel, List.map_cons, Token.map_mk, List.head?_map, Option.any_map,
      Token.isPunct_map]
    split <;> rfl
  · rfl
  · simp only [readGroupLabel, List.map_cons, Token.map_mk, List.head?_map, Option.any_map,
      Token.isPunct_map]
    split <;> rfl

lemma seekBlock_map (ts : List (Token P)) :
    seekBlock (ts.map (Token.map f)) = (seekBlock ts).map (Token.map f) := by
  fun_induction seekBlock ts <;> simp_all [seekBlock]

lemma readMembers_map (size : Nat) (ts : List (Token P)) :
    readMembers size (ts.map (Token.map f)) =
      Prod.map (List.map (Prod.map (InstrumentBlock.map f) id)) (List.map (Token.map f))
        (readMembers size ts) := by
  fun_induction readMembers size ts with
  | case3 t ts _ _ _ block rest hblock members behind heq ih =>
    have hread := readInstrument_map f (t :: ts)
    rw [readMembers.eq_def]
    simp_all
  | _ => rw [readMembers.eq_def]; simp_all

lemma readGroup_eq (ts : List (Token P)) :
    readGroup ts =
      let label := readGroupLabel (textOf ts.head?) ts.tail
      let attributes := readAttributes label.2
      match behindOpen? (seekBlock attributes.2) with
      | some rest =>
        (⟨ts.head?, label.1, attributes.1, some (readMembers ts.length rest).1⟩,
          (readMembers ts.length rest).2)
      | none => (⟨ts.head?, label.1, attributes.1, none⟩, seekBlock attributes.2) := by
  unfold readGroup
  dsimp only
  split
  · rename_i heq
    rw [heq]
    rfl
  · rename_i h
    rw [behindOpen?_eq_none h]

def GroupBlock.map (b : GroupBlock P) : GroupBlock Q :=
  ⟨b.keyword.map (Token.map f), b.label, b.attributes.map (Attribute.map f),
    b.members.map (List.map (Prod.map (InstrumentBlock.map f) id))⟩

lemma readGroup_map (ts : List (Token P)) :
    readGroup (ts.map (Token.map f)) =
      Prod.map (GroupBlock.map f) (List.map (Token.map f)) (readGroup ts) := by
  simp only [readGroup_eq, List.head?_map, textOf_map, ← List.map_tail, readGroupLabel_map,
    Prod.map_fst, Prod.map_snd, id_eq, readAttributes_map, seekBlock_map, behindOpen?_map,
    List.length_map]
  cases behindOpen? (seekBlock (readAttributes (readGroupLabel (textOf ts.head?) ts.tail).2).2) <;>
    simp [readMembers_map, GroupBlock.map]

/-! ### Macros and measures -/

def MacroBlock.map (b : MacroBlock P) : MacroBlock Q :=
  ⟨b.keyword.map (Token.map f), b.name, b.params.map (Token.map f),
    b.body.map (List.map (Token.map f))⟩

lemma readParams_map (ts : List (Token P)) :
    readParams (ts.map (Token.map f)) =
      Prod.map (List.map (Token.map f)) (List.map (Token.map f)) (readParams ts) := by
  fun_induction readParams ts <;> simp_all [readParams]

lemma readParamList_map (ts : List (Token P)) :
    readParamList (ts.map (Token.map f)) =
      Prod.map (List.map (Token.map f)) (List.map (Token.map f)) (readParamList ts) := by
  rcases ts with _ | ⟨⟨mark | _ | _ | _, p⟩, ts⟩
  · rfl
  · cases mark <;> first | rfl | exact readParams_map f ts
  all_goals rfl

lemma readMacro_eq (ts : List (Token P)) :
    readMacro ts =
      let name := bareName ((ts.tail.head?.map Token.value).getD "")
      let params := readParamList ts.tail.tail
      match behindOpen? (skipPunct .equals params.2) with
      | some rest =>
        (⟨ts.head?, name, params.1, some (takeBlock 0 rest).1⟩, (takeBlock 0 rest).2.getD [])
      | none => (⟨ts.head?, name, params.1, none⟩, skipPunct .equals params.2) := by
  unfold readMacro
  dsimp only
  split
  · rename_i heq
    rw [heq]
    rfl
  · rename_i h
    rw [behindOpen?_eq_none h]

lemma readMacro_map (ts : List (Token P)) :
    readMacro (ts.map (Token.map f)) =
      Prod.map (MacroBlock.map f) (List.map (Token.map f)) (readMacro ts) := by
  simp only [readMacro_eq, ← List.map_tail, List.head?_map, Option.map_map, readParamList_map,
    Prod.map_fst, Prod.map_snd, skipPunct_map, behindOpen?_map]
  cases behindOpen? (skipPunct .equals (readParamList ts.tail.tail).2) with
  | none => simp [MacroBlock.map, Function.comp_def]
  | some rest =>
    rcases h : takeBlock 0 rest with ⟨body, _ | behind⟩ <;>
      simp [takeBlock_map, h, MacroBlock.map, Function.comp_def]

def MeasureBlock.map (b : MeasureBlock P) : MeasureBlock Q :=
  ⟨b.keyword.map (Token.map f), b.range.map (Token.map f), b.body.map (List.map (Token.map f))⟩

lemma skipSymbol_map (ts : List (Token P)) :
    skipSymbol (ts.map (Token.map f)) = (skipSymbol ts).map (Token.map f) := by
  rcases ts with _ | ⟨⟨_ | _ | _ | _, p⟩, ts⟩ <;> rfl

lemma readMeasure_eq (ts : List (Token P)) :
    readMeasure ts = match behindOpen? (skipSymbol ts.tail) with
      | some rest =>
        (⟨ts.head?, ts.tail.head?, some (takeBlock 0 rest).1⟩, (takeBlock 0 rest).2.getD [])
      | none => (⟨ts.head?, ts.tail.head?, none⟩, skipSymbol ts.tail) := by
  unfold readMeasure
  split
  · rename_i heq
    rw [heq]
    rfl
  · rename_i h
    rw [behindOpen?_eq_none h]

lemma readMeasure_map (ts : List (Token P)) :
    readMeasure (ts.map (Token.map f)) =
      Prod.map (MeasureBlock.map f) (List.map (Token.map f)) (readMeasure ts) := by
  simp only [readMeasure_eq, ← List.map_tail, List.head?_map, skipSymbol_map, behindOpen?_map]
  cases behindOpen? (skipSymbol ts.tail) with
  | none => rfl
  | some rest =>
    rcases h : takeBlock 0 rest with ⟨body, _ | behind⟩ <;>
      simp [takeBlock_map, h, MeasureBlock.map]

/-! ### Documents -/

def Declaration.map : Declaration P → Declaration Q
  | .header b => .header (b.map f)
  | .group b => .group (b.map f)
  | .instrument b => .instrument (b.map f)
  | .template b => .template (b.map f)
  | .measure b => .measure (b.map f)

lemma readDeclaration?_map (t : Token P) (ts : List (Token P)) :
    readDeclaration? (t.map f) (ts.map (Token.map f)) =
      (readDeclaration? t ts).map (Prod.map (Declaration.map f) (List.map (Token.map f))) := by
  simp only [readDeclaration?, Token.isWord_map, ← List.map_cons, readHeader_map, readGroup_map,
    readInstrument_map, readMacro_map, readMeasure_map]
  repeat' split
  all_goals rfl

lemma readDeclarations_cons (wrapped : Bool) (t : Token P) (ts : List (Token P)) :
    readDeclarations wrapped (t :: ts) =
      if t.isPunct .closeBrace then
        if wrapped then [] else readDeclarations wrapped ts
      else
        match readDeclaration? t ts with
        | some (d, rest) => d :: readDeclarations wrapped rest
        | none => readDeclarations wrapped ts := by
  rw [readDeclarations]
  split
  · rfl
  · split <;> simp_all

lemma readDeclarations_map (wrapped : Bool) (ts : List (Token P)) :
    readDeclarations wrapped (ts.map (Token.map f)) =
      (readDeclarations wrapped ts).map (Declaration.map f) := by
  fun_induction readDeclarations wrapped ts with
  | case1 => simp [readDeclarations]
  | _ => simp_all [readDeclarations_cons, readDeclaration?_map]

lemma readDocument_cons (t : Token P) (ts : List (Token P)) :
    readDocument (t :: ts) =
      if t.isWord "omniscore" then
        match behindOpen? ts with
        | some body => readDeclarations true body
        | none => readDeclarations false ts
      else readDeclarations false (t :: ts) := by
  simp only [readDocument]
  split
  · split
    · rfl
    · rename_i h
      rw [behindOpen?_eq_none h]
  · rfl

/-- **A document whose tokens were moved has the same declarations**, with their tokens moved. -/
lemma readDocument_map (ts : List (Token P)) :
    readDocument (ts.map (Token.map f)) = (readDocument ts).map (Declaration.map f) := by
  cases ts with
  | nil => rfl
  | cons t ts =>
    rw [List.map_cons, readDocument_cons, readDocument_cons, Token.isWord_map, behindOpen?_map]
    split
    · cases behindOpen? ts <;> exact readDeclarations_map f _ _
    · exact readDeclarations_map f _ (t :: ts)

end Partitura
