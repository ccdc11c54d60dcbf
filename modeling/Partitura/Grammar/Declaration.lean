import Partitura.Grammar.Block

/-!
# Declarations

A document is a row of declarations: settings, instruments and groups of them, macros, and
measures. It may be wrapped in braces behind the word `omniscore`; a closing brace then ends
it, and is passed over otherwise. What begins no declaration is passed over.
-/

namespace Partitura

variable {P : Type}

/-- `key=value` on an instrument or a group. -/
structure Attribute (P : Type) where
  key : String
  value : String
  token : Token P

/-- A value behind an equals sign: a quoted text or a symbol that begins no declaration. -/
def readAttributeValue : List (Token P) → String × List (Token P)
  | [] => ("", [])
  | t :: ts =>
    match t.lexeme with
    | .quoted s => (s, ts)
    | .symbol s => if t.isReserved then ("", t :: ts) else (s, ts)
    | _ => ("", t :: ts)

theorem length_readAttributeValue (ts : List (Token P)) :
    (readAttributeValue ts).2.length ≤ ts.length := by
  unfold readAttributeValue
  repeat' split
  all_goals simp

/-- What follows the equals sign behind a token that can be a key. -/
def afterEquals? (t : Token P) : List (Token P) → Option (List (Token P))
  | ⟨.punct .equals, _⟩ :: rest =>
    match t.lexeme with
    | .punct _ => none
    | _ => if t.isReserved then none else some rest
  | _ => none

theorem length_of_afterEquals? {t : Token P} {ts rest : List (Token P)}
    (h : afterEquals? t ts = some rest) : rest.length < ts.length := by
  unfold afterEquals? at h
  repeat' split at h
  all_goals simp at h
  simp [h]

def readAttributes : List (Token P) → List (Attribute P) × List (Token P)
  | [] => ([], [])
  | t :: ts =>
    match h : afterEquals? t ts with
    | some rest =>
      have := length_of_afterEquals? h
      have := length_readAttributeValue rest
      let value := (readAttributeValue rest).1
      let (attributes, behind) := readAttributes (readAttributeValue rest).2
      (⟨Text.lower t.value, value, t⟩ :: attributes, behind)
    | none => ([], t :: ts)
termination_by ts => ts.length

/-! ## Instruments -/

structure Definition (P : Type) where
  id : Token P
  label : String
  attributes : List (Attribute P)

/-- The definition of an instrument; nothing behind the keyword if no name follows it. -/
structure InstrumentBlock (P : Type) where
  keyword : Option (Token P)
  body : Option (Definition P)

def isName (t : Token P) : Bool :=
  match t.lexeme with
  | .quoted s => !s.isEmpty
  | .symbol s => !s.isEmpty
  | _ => false

/-- A quoted label in front, or else `name`. -/
def readLabel (name : String) : List (Token P) → String × List (Token P)
  | ⟨.quoted s, _⟩ :: ts => (s, ts)
  | ts => (name, ts)

def readInstrument (ts : List (Token P)) : InstrumentBlock P × List (Token P) :=
  match ts.tail with
  | t :: rest =>
    if isName t then
      let (label, behind) := readLabel t.value rest
      let (attributes, behind) := readAttributes behind
      (⟨ts.head?, some ⟨t, label, attributes⟩⟩, behind)
    else (⟨ts.head?, none⟩, t :: rest)
  | [] => (⟨ts.head?, none⟩, [])

theorem length_readAttributes (ts : List (Token P)) :
    (readAttributes ts).2.length ≤ ts.length := by
  fun_induction readAttributes ts <;> simp_all
  omega

theorem length_readLabel (name : String) (ts : List (Token P)) :
    (readLabel name ts).2.length ≤ ts.length := by
  fun_cases readLabel name ts <;> simp

theorem length_readInstrument (t : Token P) (ts : List (Token P)) :
    (readInstrument (t :: ts)).2.length ≤ ts.length := by
  simp only [readInstrument, List.tail_cons]
  split
  · split
    · exact Nat.le_trans (length_readAttributes _)
        (Nat.le_trans (length_readLabel _ _) (by simp))
    · simp
  · simp

/-! ## Groups -/

/-- A group: its label and attributes, and its members if a block follows. With each member
stands how many tokens of the group were read behind it. -/
structure GroupBlock (P : Type) where
  keyword : Option (Token P)
  label : String
  attributes : List (Attribute P)
  members : Option (List (InstrumentBlock P × Nat))

/-- The label of a group: a quoted text or symbol that no equals sign follows, or `keyword`. -/
def readGroupLabel (keyword : String) (ts : List (Token P)) : String × List (Token P) :=
  match ts with
  | [] => ("", [])
  | t :: rest =>
    let free := !(rest.head?.any (·.isPunct .equals))
    match t.lexeme with
    | .quoted s => if free then (s, rest) else (keyword, ts)
    | .symbol s => if free then (s, rest) else (keyword, ts)
    | _ => (keyword, ts)

/-- Pass over all that stands before the block of a group. -/
def seekBlock : List (Token P) → List (Token P)
  | [] => []
  | t :: ts => if t.isReserved then t :: ts else seekBlock ts

/-- The definitions in a group up to its closing brace. `size` is the number of tokens of the
whole text from the keyword of the group on. -/
def readMembers (size : Nat) :
    List (Token P) → List (InstrumentBlock P × Nat) × List (Token P)
  | [] => ([], [])
  | t :: ts =>
    if t.isPunct .closeBrace then ([], ts)
    else if t.isWord "def" then
      have := length_readInstrument t ts
      let (block, rest) := readInstrument (t :: ts)
      let (members, behind) := readMembers size (readInstrument (t :: ts)).2
      ((block, size - rest.length) :: members, behind)
    else readMembers size ts
termination_by ts => ts.length

def readGroup (ts : List (Token P)) : GroupBlock P × List (Token P) :=
  let (label, rest) := readGroupLabel (textOf ts.head?) ts.tail
  let (attributes, rest) := readAttributes rest
  match seekBlock rest with
  | ⟨.punct .openBrace, _⟩ :: rest =>
    let (members, behind) := readMembers ts.length rest
    (⟨ts.head?, label, attributes, some members⟩, behind)
  | rest => (⟨ts.head?, label, attributes, none⟩, rest)

theorem length_readGroupLabel (keyword : String) (ts : List (Token P)) :
    (readGroupLabel keyword ts).2.length ≤ ts.length := by
  unfold readGroupLabel
  split
  · simp
  · simp only
    repeat' split
    all_goals simp

theorem length_seekBlock (ts : List (Token P)) : (seekBlock ts).length ≤ ts.length := by
  fun_induction seekBlock ts <;> simp_all
  omega

theorem length_readMembers (size : Nat) (ts : List (Token P)) :
    (readMembers size ts).2.length ≤ ts.length := by
  fun_induction readMembers size ts <;> simp_all <;> omega

theorem length_readGroup (t : Token P) (ts : List (Token P)) :
    (readGroup (t :: ts)).2.length ≤ ts.length := by
  have h₁ := length_readGroupLabel t.text ts
  have h₂ := length_readAttributes (readGroupLabel t.text ts).2
  have h₃ := length_seekBlock (readAttributes (readGroupLabel t.text ts).2).2
  simp only [readGroup, List.tail_cons, List.head?_cons, textOf]
  split
  · rename_i heq
    rw [heq] at h₃
    simp at h₃
    exact Nat.le_trans (length_readMembers _ _) (by omega)
  · simp; omega

/-! ## Macros -/

/-- A macro: its name, the tokens of its parameters, and its body if a block follows. -/
structure MacroBlock (P : Type) where
  keyword : Option (Token P)
  name : String
  params : List (Token P)
  body : Option (List (Token P))

def bareName (s : String) : String := .ofList (s.toList.dropWhile (· == '$'))

/-- The parameters behind an opening parenthesis; marks between them are passed over. -/
def readParams : List (Token P) → List (Token P) × List (Token P)
  | [] => ([], [])
  | t :: ts =>
    match t.lexeme with
    | .punct .closeParen => ([], ts)
    | .punct .openBrace => ([], t :: ts)
    | .punct .equals => ([], t :: ts)
    | .punct _ => readParams ts
    | _ =>
      let (params, rest) := readParams ts
      (t :: params, rest)

def readParamList : List (Token P) → List (Token P) × List (Token P)
  | ⟨.punct .openParen, _⟩ :: ts => readParams ts
  | ts => ([], ts)

def readMacro (ts : List (Token P)) : MacroBlock P × List (Token P) :=
  let name := bareName ((ts.tail.head?.map Token.value).getD "")
  let (params, rest) := readParamList ts.tail.tail
  match skipPunct .equals rest with
  | ⟨.punct .openBrace, _⟩ :: rest =>
    let (body, behind) := takeBlock 0 rest
    (⟨ts.head?, name, params, some body⟩, behind.getD [])
  | rest => (⟨ts.head?, name, params, none⟩, rest)

theorem length_takeBlock (depth : Nat) (ts : List (Token P)) :
    ((takeBlock depth ts).2.getD []).length ≤ ts.length := by
  fun_induction takeBlock depth ts <;> simp_all <;> omega

theorem length_readParams (ts : List (Token P)) : (readParams ts).2.length ≤ ts.length := by
  fun_induction readParams ts <;> simp_all <;> omega

theorem length_readParamList (ts : List (Token P)) :
    (readParamList ts).2.length ≤ ts.length := by
  fun_cases readParamList ts
  · exact Nat.le_succ_of_le (length_readParams _)
  · simp

theorem length_readMacro (t : Token P) (ts : List (Token P)) :
    (readMacro (t :: ts)).2.length ≤ ts.length := by
  have h₁ := length_readParamList ts.tail
  have h₂ := length_skipPunct .equals (readParamList ts.tail).2
  have h₃ : ts.tail.length ≤ ts.length := by simp
  simp only [readMacro, List.tail_cons]
  split
  · rename_i heq
    rw [heq] at h₂
    simp only [List.length_cons] at h₂
    exact Nat.le_trans (length_takeBlock _ _) (by omega)
  · simp only; omega

/-! ## Measures -/

/-- A measure: the token where its range should stand, and its body if a block follows. -/
structure MeasureBlock (P : Type) where
  keyword : Option (Token P)
  range : Option (Token P)
  body : Option (List (Token P))

def skipSymbol : List (Token P) → List (Token P)
  | ⟨.symbol _, _⟩ :: ts => ts
  | ts => ts

def readMeasure (ts : List (Token P)) : MeasureBlock P × List (Token P) :=
  match skipSymbol ts.tail with
  | ⟨.punct .openBrace, _⟩ :: rest =>
    let (body, behind) := takeBlock 0 rest
    (⟨ts.head?, ts.tail.head?, some body⟩, behind.getD [])
  | rest => (⟨ts.head?, ts.tail.head?, none⟩, rest)

theorem length_skipSymbol (ts : List (Token P)) : (skipSymbol ts).length ≤ ts.length := by
  fun_cases skipSymbol ts <;> simp

theorem length_readMeasure (t : Token P) (ts : List (Token P)) :
    (readMeasure (t :: ts)).2.length ≤ ts.length := by
  have h := length_skipSymbol ts
  simp only [readMeasure, List.tail_cons]
  split
  · rename_i heq
    rw [heq] at h
    simp only [List.length_cons] at h
    exact Nat.le_trans (length_takeBlock _ _) (by omega)
  · simp only; omega

/-! ## Documents -/

inductive Declaration (P : Type)
  | header (b : HeaderBlock P)
  | group (b : GroupBlock P)
  | instrument (b : InstrumentBlock P)
  | template (b : MacroBlock P)
  | measure (b : MeasureBlock P)

/-- The declaration that begins with this keyword, and the rest; none if it is no keyword. -/
def readDeclaration? (t : Token P) (ts : List (Token P)) :
    Option (Declaration P × List (Token P)) :=
  if t.isWord "meta" then
    some (.header (readHeader (t :: ts)).1, (readHeader (t :: ts)).2)
  else if t.isWord "group" then
    some (.group (readGroup (t :: ts)).1, (readGroup (t :: ts)).2)
  else if t.isWord "def" then
    some (.instrument (readInstrument (t :: ts)).1, (readInstrument (t :: ts)).2)
  else if t.isWord "macro" then
    some (.template (readMacro (t :: ts)).1, (readMacro (t :: ts)).2)
  else if t.isWord "measure" then
    some (.measure (readMeasure (t :: ts)).1, (readMeasure (t :: ts)).2)
  else none

theorem length_readDeclaration? {t : Token P} {ts rest : List (Token P)} {d : Declaration P}
    (h : readDeclaration? t ts = some (d, rest)) : rest.length ≤ ts.length := by
  unfold readDeclaration? at h
  repeat' split at h
  all_goals simp at h
  · rw [← h.2]; exact length_readHeader t ts
  · rw [← h.2]; exact length_readGroup t ts
  · rw [← h.2]; exact length_readInstrument t ts
  · rw [← h.2]; exact length_readMacro t ts
  · rw [← h.2]; exact length_readMeasure t ts

def readDeclarations (wrapped : Bool) : List (Token P) → List (Declaration P)
  | [] => []
  | t :: ts =>
    if t.isPunct .closeBrace then
      if wrapped then [] else readDeclarations wrapped ts
    else
      match h : readDeclaration? t ts with
      | some (d, rest) =>
        have := length_readDeclaration? h
        d :: readDeclarations wrapped rest
      | none => readDeclarations wrapped ts
termination_by ts => ts.length

/-- The declarations of a document, whether it is wrapped or not. -/
def readDocument (ts : List (Token P)) : List (Declaration P) :=
  match ts with
  | [] => []
  | t :: rest =>
    if t.isWord "omniscore" then
      match rest with
      | ⟨.punct .openBrace, _⟩ :: body => readDeclarations true body
      | _ => readDeclarations false rest
    else readDeclarations false ts

end Partitura
