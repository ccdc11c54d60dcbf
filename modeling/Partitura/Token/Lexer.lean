import Partitura.Token
import Partitura.Text.Cut

/-!
# From characters to tokens

Comments run from `%%` to the end of their line and are blanked first, so that offsets stay.
A character that begins no token is passed over. A symbol or the name of a call is taken as
far as it goes.
-/

namespace Partitura

/-- Blank the comments; `inside` says whether the text begins within one. -/
def blankComments (inside : Bool) : List Char → List Char
  | [] => []
  | c :: cs =>
    if inside then
      if c = '\n' then c :: blankComments false cs else ' ' :: blankComments true cs
    else
      match c, cs with
      | '%', '%' :: rest => ' ' :: ' ' :: blankComments true rest
      | c, cs => c :: blankComments false cs

def isNameStart (c : Char) : Bool := c.isAlpha || c == '_'

def isNameChar (c : Char) : Bool := c.isAlphanum || c == '_'

def isSymbolChar (c : Char) : Bool :=
  c.isAlphanum || c == '_' || c == '.' || c == '-' || c == '+' || c == '#'

namespace Lexeme

/-- The token at the front of a text without comments, and the rest. -/
def cut? : List Char → Option (Lexeme × List Char)
  | [] => none
  | c :: cs =>
    match Punct.ofChar? c with
    | some p => some (punct p, cs)
    | none =>
      if c = '"' then
        match Text.cutAt '"' cs with
        | (body, some rest) => some (quoted (.ofList body), rest)
        | (_, none) => none
      else if c = '$' then
        match cs with
        | d :: _ =>
          if isNameStart d then
            some (call (.ofList (cs.takeWhile isNameChar)), cs.dropWhile isNameChar)
          else none
        | [] => none
      else if isSymbolChar c then
        some (symbol (.ofList (c :: cs.takeWhile isSymbolChar)), cs.dropWhile isSymbolChar)
      else none

end Lexeme

theorem Text.length_of_cutAt {sep : Char} {cs before rest : List Char}
    (h : Text.cutAt sep cs = (before, some rest)) : rest.length < cs.length := by
  induction cs generalizing before with
  | nil => simp [Text.cutAt] at h
  | cons c cs ih =>
    unfold Text.cutAt at h
    split at h
    · simp at h; simp [h.2]
    · rcases hc : Text.cutAt sep cs with ⟨b, r⟩
      simp [hc] at h
      have := @ih b (by rw [hc, h.2])
      simp; omega

theorem Lexeme.length_of_cut? {cs rest : List Char} {l : Lexeme}
    (h : Lexeme.cut? cs = some (l, rest)) : rest.length < cs.length := by
  unfold Lexeme.cut? at h
  split at h
  · simp at h
  · rename_i c cs
    split at h
    · simp at h; simp [h.2]
    · split at h
      · split at h
        · rename_i hc
          simp at h
          have := Text.length_of_cutAt hc
          simp [← h.2]; omega
        · simp at h
      · have le (p : Char → Bool) := (List.dropWhile_sublist (l := cs) p).length_le
        split at h
        · split at h
          · split at h
            · simp only [Option.some.injEq, Prod.mk.injEq] at h
              have := le isNameChar
              rw [← h.2]; simp at this ⊢; omega
            · simp at h
          · simp at h
        · split at h
          · simp only [Option.some.injEq, Prod.mk.injEq] at h
            have := le isSymbolChar
            rw [← h.2]; simp; omega
          · simp at h

/-- The tokens of a text without comments whose first character stands at `offset`. -/
def scan (offset : Nat) : List Char → List (Token Nat)
  | [] => []
  | c :: cs =>
    match h : Lexeme.cut? (c :: cs) with
    | some (l, rest) =>
      have := Lexeme.length_of_cut? h
      ⟨l, offset⟩ :: scan (offset + l.text.length) rest
    | none => scan (offset + 1) cs
termination_by cs => cs.length
decreasing_by
  · assumption
  · exact Nat.lt_succ_self _

def stripComments (source : String) : String := .ofList (blankComments false source.toList)

def tokenize (source : String) : List (Token Nat) := scan 0 (blankComments false source.toList)

end Partitura
