import Partitura.Data
import Partitura.Text.Utf8

/-!
# YAML documents

Unlike plain data, a mapping may have keys of any kind, and there are bytes and dates.
-/

namespace Partitura.Yaml

open Text

inductive Node
  | scalar (s : Scalar)
  | bytes (bs : List UInt8)
  /-- A date, or text that holds half of a pair: something that is no plain data. -/
  | other
  | list (items : List Node)
  | mapping (entries : List (Node × Node))
  deriving Repr

namespace Node

/-- The text of a node; bytes count as text if they can be decoded. -/
def text? : Node → Option String
  | scalar (.text s) => some s
  | bytes bs => (decodeUtf8 bs).toOption.map String.ofList
  | _ => none

mutual

/-- A document as plain data; none if it holds anything else, or a key that is no text. -/
def toData? : Node → Option Data
  | scalar s => some (.scalar s)
  | bytes bs => (bytes bs).text?.map .text
  | other => none
  | list items => (itemsData? items).map .list
  | mapping entries => (entriesData? entries).map fun fs => .record (settle fs)

def itemsData? : List Node → Option (List Data)
  | [] => some []
  | n :: ns => do
    let d ← n.toData?
    return d :: (← itemsData? ns)

def entriesData? : List (Node × Node) → Option (List (String × Data))
  | [] => some []
  | (k, n) :: rest => do
    let s ← k.text?
    let d ← n.toData?
    return (s, d) :: (← entriesData? rest)

end

def lookup (name : String) : List (Node × Node) → Option Node
  | [] => none
  | (k, n) :: rest =>
    match k with
    | scalar (.text s) => if s = name then some n else lookup name rest
    | _ => lookup name rest

/-- The entries with one more; a later one takes the place of an earlier one of the same text
key. -/
def put (key value : Node) (entries : List (Node × Node)) : List (Node × Node) :=
  match key with
  | scalar (.text s) =>
    if (lookup s entries).isSome then
      entries.map fun (k, v) =>
        match k with
        | scalar (.text t) => if t = s then (k, value) else (k, v)
        | _ => (k, v)
    else entries ++ [(key, value)]
  | _ => entries ++ [(key, value)]

/-- The fields of a mapping under some names, as plain data. -/
def pick? (names : List String) : Node → Option (List (String × Data))
  | mapping entries =>
    names.foldlM (fun fs name =>
      match lookup name entries with
      | none => some fs
      | some n => n.toData?.map fun d => fs ++ [(name, d)]) []
  | _ => none

end Node

end Partitura.Yaml
