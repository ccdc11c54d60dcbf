import Partitura.Text.Cut

/-!
# Paths

A path is a row of names, from the top of the tree or from wherever the reader stands. Empty
names and single points stand for nothing; a pair of points is kept, since it may lead through a
link, until the path is resolved.
-/

namespace Partitura

open Text

structure Path where
  /-- One or two strokes for a path from the top, nothing for any other. -/
  lead : String := ""
  names : List String
  deriving DecidableEq, Repr

namespace Path

/-- The strokes that lead a path: two are kept, more are one. -/
def leadOf : List Char → String
  | '/' :: '/' :: '/' :: _ => "/"
  | '/' :: '/' :: _ => "//"
  | '/' :: _ => "/"
  | _ => ""

def ofText (s : String) : Path where
  lead := leadOf s.toList
  names := ((pieces '/' s.toList).map String.ofList).filter fun name => name ≠ "" ∧ name ≠ "."

def text (p : Path) : String :=
  if p.lead = "" ∧ p.names = [] then "." else p.lead ++ "/".intercalate p.names

/-- The second path as seen from the first. -/
def join (p q : Path) : Path := if q.lead = "" then { p with names := p.names ++ q.names } else q

def entry (p : Path) (name : String) : Path := { p with names := p.names ++ [name] }

/-- A name without its last suffix. A point at either end starts no suffix. -/
def stemOf (name : String) : String :=
  match cutAt '.' name.toList.reverse with
  | (suffix, some rest) =>
    if suffix.isEmpty ∨ rest.isEmpty then name else .ofList rest.reverse
  | (_, none) => name

def stem (p : Path) : String := stemOf (p.names.getLast?.getD "")

/-- Every pair of points goes back by one name, at the top by none. -/
def resolveNames (names : List String) : List String :=
  names.foldl (fun done name => if name = ".." then done.dropLast else done ++ [name]) []

/-- The path from the top, seen from a folder. -/
def resolve (here p : Path) : Path := ⟨"/", resolveNames (here.join p).names⟩

end Path

end Partitura
