import Partitura.Yaml.Tree
import Partitura.Yaml.Value

/-!
# Reading YAML

A text is cut into tokens, the tokens make a tree, and the tree is given values. Collections
are given theirs level by level, so that of several troubles the one nearest to the top is told.
-/

namespace Partitura.Yaml

/-! ## Merging -/

/-- The tag that makes a key one of its mapping's own. -/
def Tree.asKey : Tree → Tree
  | .scalar .value text => .scalar .str text
  | .list .value items => .list .str items
  | .mapping .value entries => .mapping .str entries
  | t => t

mutual

/-- The entries that a node gives to the mapping it is merged into. -/
def merged : Tree → Read (List (Tree × Tree))
  | .mapping _ entries => do
    let (given, own) ← flatten entries
    return given ++ own
  | .list _ items => mergedAll items
  | .loop => .ok []
  | .scalar _ _ => broken

/-- The entries that mappings give; of two with the same key the first one counts. -/
def mergedAll : List Tree → Read (List (Tree × Tree))
  | [] => .ok []
  | .mapping _ entries :: ts => do
    let (given, own) ← flatten entries
    return (← mergedAll ts) ++ given ++ own
  | .loop :: ts => mergedAll ts
  | _ => broken

/-- The entries that a mapping is given, and its own. -/
def flatten : List (Tree × Tree) → Read (List (Tree × Tree) × List (Tree × Tree))
  | [] => .ok ([], [])
  | (k, v) :: rest =>
    if k.tag = .merge then do
      let now ← merged v
      let (given, own) ← flatten rest
      return (now ++ given, own)
    else do
      let (given, own) ← flatten rest
      return (given, (k.asKey, v) :: own)

end

/-- The entries of a mapping with what is merged into it, which comes first. -/
def allEntries (entries : List (Tree × Tree)) : Read (List (Tree × Tree)) := do
  let (given, own) ← flatten entries
  return given ++ own

/-! ## Checking -/

mutual

/-- The text of a node that must have one: a scalar, or a mapping that names what it stands
for. -/
def contentOf : Tree → Read Scanned
  | .scalar _ text => .ok text
  | .mapping _ entries => contentOfEntries entries
  | _ => broken

def contentOfEntries : List (Tree × Tree) → Read Scanned
  | [] => broken
  | (k, v) :: rest => if k.tag = .value then contentOf v else contentOfEntries rest

end

/-- The node of a tree that is no collection. -/
def leafNode (t : Tree) : Read Node := do
  let text ← contentOf t
  let n ← scalarNode t.tag text.text
  match n with
  | .scalar (.text _) => return if text.whole then n else .other
  | n => return n

/-- What giving a collection its values comes upon. -/
inductive Visit
  | node (t : Tree)
  /-- A key, which must be no collection. -/
  | key (t : Tree)
  | stop

/-- What a list of pairs comes upon. -/
def pairVisits : Tree → List Visit
  | .mapping _ [(k, v)] => [.node k, .node v]
  | _ => [.stop]

/-- What a collection comes upon, in order. -/
def visits : Tree → List Visit
  | .loop => []
  | .scalar _ _ => [.stop]
  | .list tag items =>
    match tag with
    | .seq => items.map .node
    | .omap | .pairs => items.flatMap pairVisits
    | _ => [.stop]
  | .mapping tag entries =>
    match tag with
    | .map | .set =>
      match allEntries entries with
      | .error _ => [.stop]
      | .ok entries => entries.flatMap fun (k, v) => [.key k, .node v]
    | _ => [.stop]

/-- Visit one node. A collection is left for the next level. -/
def visit : Visit → Read (List Tree)
  | .stop => broken
  | .node t => if t.tag.isCollection then .ok [t] else do
      let _ ← leafNode t
      return []
  | .key t => if t.tag.isCollection then broken else do
      let _ ← leafNode t
      return []

/-- Visit collections level by level. -/
def checkLevels : Nat → List Tree → Read Unit
  | 0, _ => .ok ()
  | fuel + 1, ts =>
    if ts.isEmpty then .ok ()
    else do
      let deeper ← (ts.flatMap visits).mapM visit
      checkLevels fuel deeper.flatten

/-! ## Values -/

/-- The node of a tree in which nothing is wrong. -/
def nodeOf : Nat → Tree → Node
  | 0, _ => .other
  | fuel + 1, t =>
    match t with
    | .loop => .other
    | .list tag items =>
      match tag with
      | .omap | .pairs =>
        .list (items.map fun item =>
          match item with
          | .mapping _ [(k, v)] => .list [nodeOf fuel k, nodeOf fuel v]
          | _ => .other)
      | _ => .list (items.map (nodeOf fuel))
    | .mapping tag entries =>
      match tag, allEntries entries with
      | .set, .ok entries => .list (entries.map fun (k, _) => nodeOf fuel k)
      | .map, .ok entries =>
        .mapping (entries.foldl (fun es (k, v) => Node.put (nodeOf fuel k) (nodeOf fuel v) es) [])
      | _, _ =>
        match leafNode (.mapping tag entries) with
        | .ok n => n
        | .error _ => .other
    | .scalar tag text =>
      match leafNode (.scalar tag text) with
      | .ok n => n
      | .error _ => .other

/-! ## Documents -/

def isAllowed (c : Char) : Bool :=
  let n := c.toNat
  n = 9 || n = 10 || n = 13 || (0x20 ≤ n && n ≤ 0x7e) || n = 0x85
    || (0xa0 ≤ n && n ≤ 0xfffd) || 0x10000 ≤ n

/-- Read a document that must stand alone. Its text may be kept from going on. -/
def read (cs : List Char) (beyond : Option Fault) : Read Node := do
  if !cs.all isAllowed then broken
  match ← Tree.ofTokens? (tokensOf cs beyond) with
  | none => return .scalar .null
  | some t =>
    let top ← visit (.node t)
    checkLevels cs.length.succ top
    return nodeOf cs.length.succ t

end Partitura.Yaml
