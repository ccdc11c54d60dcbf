import Partitura.Yaml.Tag
import Partitura.Yaml.Token

/-!
# Trees of YAML

The nodes of a document with their tags, before they are given values. An alias is the node it
names; one that names a collection it stands in is a loop.
-/

namespace Partitura.Yaml

inductive Tree
  | scalar (tag : Tag) (text : Scanned)
  | list (tag : Tag) (items : List Tree)
  | mapping (tag : Tag) (entries : List (Tree × Tree))
  | loop

namespace Tree

def empty : Tree := .scalar .null ⟨[], true⟩

def tag : Tree → Tag
  | scalar t _ => t
  | list t _ => t
  | mapping t _ => t
  | loop => .seq

end Tree

/-! ## Reading tokens -/

/-- What is left to be read, and what was named so far. -/
structure Stock where
  tokens : List Token
  /-- What the handles of tags stand for. -/
  handles : List (String × String)
  /-- The named nodes; one that is still open has no tree. -/
  anchors : List (String × Option Tree) := []

abbrev Parse := StateT Stock (Except Trouble)

namespace Parse

def front : Parse (Option Token) := do return (← get).tokens.head?

def drop : Parse Unit := modify fun s => { s with tokens := s.tokens.tail }

/-- There is no sense in the token in front. -/
def fail {α : Type} : Parse α := do
  match ← front with
  | some (.trouble t) => throw t
  | _ => throw .broken

/-- The name and the tag in front of a node, in either order. -/
def properties : Parse (Option String × Option (Option String × String)) := do
  match ← front with
  | some (.anchor name) =>
    drop
    match ← front with
    | some (.tag h s) =>
      drop
      return (some name, some (h, s))
    | _ => return (some name, none)
  | some (.tag h s) =>
    drop
    match ← front with
    | some (.anchor name) =>
      drop
      return (some name, some (h, s))
    | _ => return (none, some (h, s))
  | _ => return (none, none)

/-- A tag in full. Its handle must be known. -/
def fullTag : Option (Option String × String) → Parse (Option String)
  | none => return none
  | some (none, s) => return some s
  | some (some h, s) => do
    match (← get).handles.lookup h with
    | some lead => return some (lead ++ s)
    | none => throw .broken

/-- Give a node its name, which must be new. -/
def name (anchor : Option String) (t : Option Tree) : Parse Unit :=
  match anchor with
  | none => return
  | some a => do
    if ((← get).anchors.lookup a).isSome then throw .broken
    modify fun s => { s with anchors := (a, t) :: s.anchors }

def close (anchor : Option String) (t : Tree) : Parse Tree :=
  match anchor with
  | none => return t
  | some a => do
    modify fun s => { s with anchors := (a, some t) :: s.anchors }
    return t

def named (a : String) : Parse Tree := do
  match (← get).anchors.lookup a with
  | some (some t) => return t
  | some none => return .loop
  | none => throw .broken

end Parse

/-- The tag of a scalar: the written one, else by its text if it is plain. A lone mark asks for
the same of a scalar that is not. -/
def scalarTag (tag : Option String) (text : Scanned) (plain : Bool) : Tag :=
  match tag with
  | none => if plain then .ofPlain text.text else .str
  | some "!" => .ofPlain text.text
  | some t => .ofText t

def collectionTag (tag : Option String) (default : Tag) : Tag :=
  match tag with
  | none | some "!" => default
  | some t => .ofText t

/-- Whether a node that is left out may be followed by a token. -/
def endsBlockNode (dashes : Bool) : Option Token → Bool
  | some .entry => dashes
  | some .key | some .value => true
  | some .blockEnd => true
  | _ => false

def endsEntry : Option Token → Bool
  | some .entry | some .blockEnd => true
  | _ => false

def endsFlowNode (close : Option Token → Bool) : Option Token → Bool
  | some .comma => true
  | t => close t

def isCloseBracket : Option Token → Bool
  | some .closeBracket => true
  | _ => false

def isCloseBrace : Option Token → Bool
  | some .closeBrace => true
  | _ => false

def isValue : Option Token → Bool
  | some .value => true
  | _ => false

namespace Parse

mutual

/-- A node. Block collections may begin where `block` says so, and a sequence that stands no
further in than the key above it where `dashes` does. -/
def node (block dashes : Bool) : Nat → Parse Tree
  | 0 => throw .broken
  | fuel + 1 => do
    match ← front with
    | some (.alias a) =>
      drop
      named a
    | _ =>
      let (anchor, written) ← properties
      let tag ← fullTag written
      let sequence (items : Parse (List Tree)) : Parse Tree := do
        name anchor none
        close anchor (.list (collectionTag tag .seq) (← items))
      let mapping (entries : Parse (List (Tree × Tree))) : Parse Tree := do
        name anchor none
        close anchor (.mapping (collectionTag tag .map) (← entries))
      let scalar (text : Scanned) (plain : Bool) : Parse Tree := do
        let t := Tree.scalar (scalarTag tag text plain) text
        name anchor (some t)
        return t
      match ← front with
      | some (.scalar text plain) =>
        drop
        scalar text plain
      | some .openBracket =>
        drop
        sequence (bracketItems true fuel)
      | some .openBrace =>
        drop
        mapping (braceEntries true fuel)
      | some .sequenceStart =>
        if block then
          drop
          sequence (blockItems fuel)
        else if anchor.isSome || written.isSome then scalar ⟨[], true⟩ true
        else fail
      | some .mappingStart =>
        if block then
          drop
          mapping (blockEntries fuel)
        else if anchor.isSome || written.isSome then scalar ⟨[], true⟩ true
        else fail
      | some .entry =>
        if dashes then sequence (dashItems fuel)
        else if anchor.isSome || written.isSome then scalar ⟨[], true⟩ true
        else fail
      | some (.trouble t) => throw t
      | _ => if anchor.isSome || written.isSome then scalar ⟨[], true⟩ true else fail

def blockItems : Nat → Parse (List Tree)
  | 0 => throw .broken
  | fuel + 1 => do
    match ← front with
    | some .entry =>
      drop
      let item ← if endsEntry (← front) then pure .empty else node true false fuel
      return item :: (← blockItems fuel)
    | some .blockEnd =>
      drop
      return []
    | _ => fail

/-- The items of a sequence that stands no further in than the key above it. -/
def dashItems : Nat → Parse (List Tree)
  | 0 => throw .broken
  | fuel + 1 => do
    match ← front with
    | some .entry =>
      drop
      let item ← if endsBlockNode true (← front) then pure .empty else node true false fuel
      return item :: (← dashItems fuel)
    | _ => return []

def blockEntries : Nat → Parse (List (Tree × Tree))
  | 0 => throw .broken
  | fuel + 1 => do
    match ← front with
    | some .key =>
      drop
      let key ← if endsBlockNode false (← front) then pure .empty else node true true fuel
      let value ← if isValue (← front) then do
          drop
          if endsBlockNode false (← front) then pure .empty else node true true fuel
        else pure .empty
      return (key, value) :: (← blockEntries fuel)
    | some .blockEnd =>
      drop
      return []
    | _ => fail

/-- What stands behind the mark of a key in a flow collection: the key and its value. -/
def flowPair (closes : Option Token → Bool) : Nat → Parse (Tree × Tree)
  | 0 => throw .broken
  | fuel + 1 => do
    let next ← front
    let key ← if isValue next || endsFlowNode closes next then pure .empty
      else node false false fuel
    let value ← if isValue (← front) then do
        drop
        if endsFlowNode closes (← front) then pure .empty else node false false fuel
      else pure .empty
    return (key, value)

/-- The items of a flow sequence, up to its end. A pair is a mapping of its own. -/
def bracketItems (first : Bool) : Nat → Parse (List Tree)
  | 0 => throw .broken
  | fuel + 1 => do
    if isCloseBracket (← front) then
      drop
      return []
    if !first then
      match ← front with
      | some .comma => drop
      | _ => fail
    match ← front with
    | some .key =>
      drop
      let pair ← flowPair isCloseBracket fuel
      return .mapping .map [pair] :: (← bracketItems false fuel)
    | some .closeBracket =>
      drop
      return []
    | _ =>
      let item ← node false false fuel
      return item :: (← bracketItems false fuel)

/-- The entries of a flow mapping, up to its end. A lone node is a key without a value. -/
def braceEntries (first : Bool) : Nat → Parse (List (Tree × Tree))
  | 0 => throw .broken
  | fuel + 1 => do
    if isCloseBrace (← front) then
      drop
      return []
    if !first then
      match ← front with
      | some .comma => drop
      | _ => fail
    match ← front with
    | some .key =>
      drop
      let pair ← flowPair isCloseBrace fuel
      return pair :: (← braceEntries false fuel)
    | some .closeBrace =>
      drop
      return []
    | _ =>
      let key ← node false false fuel
      return (key, .empty) :: (← braceEntries false fuel)

end

/-! ## Documents -/

/-- The directives in front: whether a version was named, and the handles. -/
def directives :
    Bool → List (String × String) → List Token → Read (List (String × String) × List Token)
  | versioned, handles, .directive d :: ts =>
    match d with
    | .version major => if versioned || major != 1 then broken else directives true handles ts
    | .handle name lead =>
      if (handles.lookup name).isSome then broken
      else directives versioned ((name, lead) :: handles) ts
    | .other => directives versioned handles ts
  | _, handles, ts => .ok (handles, ts)

def defaultHandles : List (String × String) := [("!", "!"), ("!!", Tag.lead)]

def endsDocument : Option Token → Bool
  | none => true
  | some .documentStart | some .documentEnd => true
  | some (.directive _) => true
  | _ => false

/-- The end of the only document. -/
def finish : List Token → Read Unit
  | [] => .ok ()
  | .documentEnd :: ts => finish ts
  | .trouble t :: _ => .error t
  | _ => broken

end Parse

/-- The tree of the only document of some tokens, if there is a document. -/
def Tree.ofTokens? (ts : List Token) : Read (Option Tree) := do
  let run (handles : List (String × String)) (ts : List Token) (p : Parse Tree) :
      Read (Option Tree) := do
    let (t, stock) ← p.run { tokens := ts, handles }
    Parse.finish stock.tokens
    return some t
  let content (fuel : Nat) : Parse Tree := do
    if Parse.endsDocument (← Parse.front) then return .empty else Parse.node true false fuel
  let fuel := 4 * ts.length + 8
  match ts with
  | [] => return none
  | .directive _ :: _ | .documentStart :: _ =>
    match ← Parse.directives false [] ts with
    | (handles, .documentStart :: rest) =>
      run (handles ++ Parse.defaultHandles) rest (content fuel)
    | (_, .trouble t :: _) => throw t
    | _ => broken
  | _ => run Parse.defaultHandles ts (Parse.node true false fuel)

end Partitura.Yaml
