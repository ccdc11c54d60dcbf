import Partitura.Token

/-!
# Argument lists

What stands between parentheses, split at the commas that no inner parentheses enclose. A bar
or a closing brace ends a list that was never closed, and stays unread. Modifiers take their
arguments as texts, macro calls as lists of tokens. A list without any argument is empty; a
lone comma separates two empty arguments.
-/

namespace Partitura

variable {P : Type}

/-- Close a list of texts: `done` are the earlier ones, newest first. -/
def closeTexts (done : List String) (current : String) : List String :=
  if current.isEmpty && done.isEmpty then [] else (current :: done).reverse

/-- Arguments as texts, from behind the opening parenthesis on. -/
def readTexts (depth : Nat) (done : List String) (current : String) :
    List (Token P) → List String × List (Token P)
  | [] => (closeTexts done current, [])
  | t :: ts =>
    match t.lexeme with
    | .punct .bar => (closeTexts done current, t :: ts)
    | .punct .closeBrace => (closeTexts done current, t :: ts)
    | .punct .closeParen =>
      match depth with
      | 0 => (closeTexts done current, ts)
      | d + 1 => readTexts d done (current ++ t.value) ts
    | .punct .openParen => readTexts (depth + 1) done (current ++ t.value) ts
    | .punct .comma =>
      match depth with
      | 0 => readTexts 0 (current :: done) "" ts
      | d + 1 => readTexts (d + 1) done (current ++ t.value) ts
    | _ => readTexts depth done (current ++ t.value) ts

/-- Close a list of token lists; the tokens of each and the earlier lists are newest first. -/
def closeLists (done : List (List (Token P))) (current : List (Token P)) :
    List (List (Token P)) :=
  if current.isEmpty && done.isEmpty then [] else (current.reverse :: done).reverse

/-- Arguments as token lists, from behind the opening parenthesis on. -/
def readLists (depth : Nat) (done : List (List (Token P))) (current : List (Token P)) :
    List (Token P) → List (List (Token P)) × List (Token P)
  | [] => (closeLists done current, [])
  | t :: ts =>
    match t.lexeme with
    | .punct .bar => (closeLists done current, t :: ts)
    | .punct .closeBrace => (closeLists done current, t :: ts)
    | .punct .closeParen =>
      match depth with
      | 0 => (closeLists done current, ts)
      | d + 1 => readLists d done (t :: current) ts
    | .punct .openParen => readLists (depth + 1) done (t :: current) ts
    | .punct .comma =>
      match depth with
      | 0 => readLists 0 (current.reverse :: done) [] ts
      | d + 1 => readLists (d + 1) done (t :: current) ts
    | _ => readLists depth done (t :: current) ts

def readCallArgs : List (Token P) → List (List (Token P)) × List (Token P)
  | [] => ([], [])
  | t :: ts => if t.isPunct .openParen then readLists 0 [] [] ts else ([], t :: ts)

/-- Whether an argument list, from behind its opening parenthesis on, ends within the tokens. -/
def argsEnd (depth : Nat) : List (Token P) → Bool
  | [] => false
  | t :: ts =>
    match t.lexeme with
    | .punct .bar => true
    | .punct .closeBrace => true
    | .punct .closeParen =>
      match depth with
      | 0 => true
      | d + 1 => argsEnd d ts
    | .punct .openParen => argsEnd (depth + 1) ts
    | _ => argsEnd depth ts

theorem length_readTexts (depth : Nat) (done : List String) (current : String)
    (ts : List (Token P)) : (readTexts depth done current ts).2.length ≤ ts.length := by
  fun_induction readTexts depth done current ts <;> simp <;> omega

theorem length_readLists (depth : Nat) (done : List (List (Token P))) (current : List (Token P))
    (ts : List (Token P)) : (readLists depth done current ts).2.length ≤ ts.length := by
  fun_induction readLists depth done current ts <;> simp <;> omega

theorem length_readCallArgs (ts : List (Token P)) :
    (readCallArgs ts).2.length ≤ ts.length := by
  unfold readCallArgs
  split
  · simp
  · split
    · have := length_readLists 0 [] [] (P := P)
      simp; exact Nat.le_succ_of_le (this _)
    · simp

end Partitura
