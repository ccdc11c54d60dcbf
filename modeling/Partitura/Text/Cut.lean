/-!
# Cutting text

Splitting a text at a character: everywhere, or at the first place only.
-/

namespace Partitura.Text

/-- What stands before the first `sep`, and what stands behind it if there is one. -/
def cutAt (sep : Char) : List Char → List Char × Option (List Char)
  | [] => ([], none)
  | c :: cs =>
    if c = sep then ([], some cs)
    else
      let (before, behind) := cutAt sep cs
      (c :: before, behind)

/-- The pieces between the occurrences of `sep`, in order; never empty. -/
def pieces (sep : Char) : List Char → List (List Char)
  | [] => [[]]
  | c :: cs =>
    if c = sep then [] :: pieces sep cs
    else match pieces sep cs with
      | p :: ps => (c :: p) :: ps
      | [] => [[c]]

/-- Drop one line break at the end. -/
def chomp (cs : List Char) : List Char :=
  if cs.getLast? = some '\n' then cs.dropLast else cs

def join (sep : String) : List String → String
  | [] => ""
  | [s] => s
  | s :: rest => s ++ sep ++ join sep rest

end Partitura.Text
