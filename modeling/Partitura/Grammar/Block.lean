import Partitura.Grammar.Voice

/-!
# Blocks

Capturing what stands between braces, the settings of a `meta` block, and the entries of a
measure: settings, and the voices of instruments.
-/

namespace Partitura

variable {P : Type}

/-- Pass over one mark if it stands in front. -/
def skipPunct (p : Punct) : List (Token P) → List (Token P)
  | [] => []
  | t :: ts => if t.isPunct p then ts else t :: ts

theorem length_skipPunct (p : Punct) (ts : List (Token P)) :
    (skipPunct p ts).length ≤ ts.length := by
  fun_cases skipPunct p ts <;> simp

/-- From behind an opening brace: what the block holds, and what follows the brace that closes
it, if it is closed. -/
def takeBlock (depth : Nat) : List (Token P) → List (Token P) × Option (List (Token P))
  | [] => ([], none)
  | t :: ts =>
    match t.lexeme with
    | .punct .openBrace =>
      let (body, rest) := takeBlock (depth + 1) ts
      (t :: body, rest)
    | .punct .closeBrace =>
      match depth with
      | 0 => ([], some ts)
      | d + 1 =>
        let (body, rest) := takeBlock d ts
        (t :: body, rest)
    | _ =>
      let (body, rest) := takeBlock depth ts
      (t :: body, rest)

/-! ## Settings -/

def readBracket (text : String) : List (Token P) → String × List (Token P)
  | [] => (text, [])
  | t :: ts =>
    match t.lexeme with
    | .punct .closeBrace => (text, t :: ts)
    | .punct .closeBracket => (text ++ t.value, ts)
    | _ => readBracket (text ++ t.value) ts

/-- The value of a setting; none before a comma or the end of the block. -/
def readSetting : List (Token P) → String × List (Token P)
  | [] => ("", [])
  | t :: ts =>
    match t.lexeme with
    | .punct .closeBrace => ("", t :: ts)
    | .punct .comma => ("", t :: ts)
    | .punct .openBracket => readBracket t.value ts
    | _ => (t.value, ts)

theorem length_readBracket (text : String) (ts : List (Token P)) :
    (readBracket text ts).2.length ≤ ts.length := by
  fun_induction readBracket text ts <;> simp_all
  omega

theorem length_readSetting (ts : List (Token P)) :
    (readSetting ts).2.length ≤ ts.length := by
  unfold readSetting
  split
  · simp
  · split
    · simp
    · simp
    · exact Nat.le_succ_of_le (length_readBracket _ _)
    · simp

/-- Settings up to the closing brace: the token of each key, and its value. -/
def readSettings : List (Token P) → List (Token P × String) × List (Token P)
  | [] => ([], [])
  | t :: ts =>
    match t.lexeme with
    | .punct .closeBrace => ([], ts)
    | .punct _ => readSettings ts
    | _ =>
      have := length_skipPunct .colon ts
      have := length_readSetting (skipPunct .colon ts)
      have := length_skipPunct .comma (readSetting (skipPunct .colon ts)).2
      let value := (readSetting (skipPunct .colon ts)).1
      let (settings, rest) := readSettings (skipPunct .comma (readSetting (skipPunct .colon ts)).2)
      ((t, value) :: settings, rest)
termination_by ts => ts.length

/-- A `meta` block: its settings, or none if no brace follows the keyword. -/
structure HeaderBlock (P : Type) where
  keyword : Option (Token P)
  settings : Option (List (Token P × String))

def readHeader (ts : List (Token P)) : HeaderBlock P × List (Token P) :=
  match ts.tail with
  | ⟨.punct .openBrace, _⟩ :: rest =>
    let (settings, behind) := readSettings rest
    (⟨ts.head?, some settings⟩, behind)
  | rest => (⟨ts.head?, none⟩, rest)

theorem length_readSettings (ts : List (Token P)) :
    (readSettings ts).2.length ≤ ts.length := by
  fun_induction readSettings ts <;> simp_all <;> omega

theorem length_readHeader (t : Token P) (ts : List (Token P)) :
    (readHeader (t :: ts)).2.length ≤ ts.length := by
  simp only [readHeader, List.tail_cons]
  split
  · exact Nat.le_succ_of_le (length_readSettings _)
  · simp

/-! ## Voices of an instrument -/

structure VoiceStream (P : Type) where
  voice : String
  items : List (Placed (Item P))

/-- The voice of a stream that names none. -/
def defaultVoice : String := "v1"

def readVoices (defined : String → Bool) :
    List (Token P) → List (VoiceStream P) × List (Token P)
  | [] => ([], [])
  | t :: ts =>
    match t.lexeme with
    | .punct .closeBrace => ([], ts)
    | .punct _ => readVoices defined ts
    | _ =>
      have := length_skipPunct .colon ts
      have := length_readItems (endsStream defined) (skipPunct .colon ts)
      have := length_skipPunct .bar (readStream defined (skipPunct .colon ts)).2
      let items := (readStream defined (skipPunct .colon ts)).1
      let (voices, rest) :=
        readVoices defined (skipPunct .bar (readStream defined (skipPunct .colon ts)).2)
      (⟨t.value, items⟩ :: voices, rest)
termination_by ts => ts.length
decreasing_by all_goals simp_all [readStream] <;> omega

/-- The voices of one instrument, from behind its name on. -/
def readPart (defined : String → Bool) (ts : List (Token P)) :
    List (VoiceStream P) × List (Token P) :=
  match skipPunct .colon ts with
  | ⟨.punct .openBrace, _⟩ :: rest => readVoices defined rest
  | rest =>
    let (items, behind) := readStream defined rest
    ([⟨defaultVoice, items⟩], skipPunct .bar behind)

/-- Where the first of some named voices begins, if there is one. -/
def firstVoice? : List (Token P) → Option (List (Token P))
  | [] => none
  | t :: ts =>
    match t.lexeme with
    | .punct .closeBrace => none
    | .punct _ => firstVoice? ts
    | _ => some (skipPunct .colon ts)

/-- Where the first voice of an instrument begins, from behind its name on. -/
def partStart? (ts : List (Token P)) : Option (List (Token P)) :=
  match skipPunct .colon ts with
  | ⟨.punct .openBrace, _⟩ :: rest => firstVoice? rest
  | rest => some rest

theorem length_readVoices (defined : String → Bool) (ts : List (Token P)) :
    (readVoices defined ts).2.length ≤ ts.length := by
  fun_induction readVoices defined ts <;> simp_all [readStream] <;> omega

theorem length_readPart (defined : String → Bool) (ts : List (Token P)) :
    (readPart defined ts).2.length ≤ ts.length := by
  have h := length_skipPunct .colon ts
  unfold readPart
  split
  · rename_i heq
    rw [heq] at h
    have := length_readVoices defined (P := P)
    simp at h
    exact Nat.le_trans (this _) (by omega)
  · have h₁ := length_readItems (endsStream defined) (skipPunct .colon ts)
    exact Nat.le_trans (length_skipPunct _ _) (Nat.le_trans h₁ h)

/-! ## Entries of a measure -/

inductive Entry (P : Type)
  | header (b : HeaderBlock P)
  | part (instrument : String) (voices : List (VoiceStream P))

/-- The entries of a measure block. Whatever begins none is passed over. -/
def readEntries (defined : String → Bool) : List (Token P) → List (Entry P)
  | [] => []
  | t :: ts =>
    match t.lexeme with
    | .symbol s =>
      if Text.lower s == "meta" then
        have := length_readHeader t ts
        let block := (readHeader (t :: ts)).1
        .header block :: readEntries defined (readHeader (t :: ts)).2
      else if defined s then
        have := length_readPart defined ts
        let voices := (readPart defined ts).1
        .part s voices :: readEntries defined (readPart defined ts).2
      else readEntries defined ts
    | _ => readEntries defined ts
termination_by ts => ts.length

end Partitura
