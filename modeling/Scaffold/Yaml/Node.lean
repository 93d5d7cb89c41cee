import Scaffold.Yaml.Tag
import Scaffold.Yaml.Token

/-!
The nodes of a document: scalars, sequences and mappings, each with its tag. A node is known by its
place in the list of all nodes, and what it holds is named by place as well: so an alias is the place
of the node that it names, and a node can hold itself.

`Document.ofTokens` reads the tokens of a text with at most one document. Where a node may be left out
an empty scalar stands in for it.
-/

namespace Scaffold.Yaml

/-- The place of a node among the nodes of its document. -/
abbrev NodeId := Nat

inductive Form where
  | scalar (text : ScalarText)
  | sequence (items : List NodeId)
  | mapping (pairs : List (NodeId × NodeId))
deriving Repr, DecidableEq

structure Node where
  tag : Tag
  form : Form
deriving Repr, DecidableEq

/-- Stands where a node is left out. -/
def Node.empty : Node :=
  ⟨.null, .scalar ⟨"", true⟩⟩

abbrev Graph := Array Node

namespace Graph

def node (g : Graph) (id : NodeId) : Node :=
  (g[id]?).getD .empty

def setForm (id : NodeId) (form : Form) (g : Graph) : Graph :=
  g.modify id fun n => { n with form := form }

def setTag (id : NodeId) (tag : Tag) (g : Graph) : Graph :=
  g.modify id fun n => { n with tag := tag }

end Graph

/-- The nodes of a text, and the node of its document, if there is one. -/
structure Document where
  graph : Graph
  root : Option NodeId
deriving Repr, DecidableEq

structure Reader where
  tokens : Tokens
  /-- What the tag handles stand for. -/
  handles : List (String × String) := []
  anchors : List (String × NodeId) := []
  graph : Graph := #[]

abbrev Read := StateT Reader (Except Refusal)

namespace Read

def malformed {α : Type} : Read α :=
  throw .malformed

/-- The next token. -/
def peek : Read Token := do
  let ts := (← get).tokens
  match ts.list with
  | [] => throw ts.refusal
  | t :: _ => pure t

def advance : Read Unit :=
  modify fun r => { r with tokens := { r.tokens with list := r.tokens.list.drop 1 } }

/-- Whether the next token is `t`, which is then passed. -/
def accept (t : Token) : Read Bool := do
  if (← peek) = t then
    advance
    pure true
  else pure false

def expect (t : Token) : Read Unit := do
  unless ← accept t do malformed

/-- The handles that every document knows. -/
def commonHandles : List (String × String) :=
  [("!", "!"), ("!!", Tag.common)]

/-- The identifier of a tag. -/
def identifier (name : TagName) : Read String := do
  match name.handle with
  | none => pure name.suffix
  | some handle =>
    match (← get).handles.lookup handle with
    | none => malformed
    | some start => pure (start ++ name.suffix)

structure Properties where
  anchor : Option String
  tag : Option String

/-- The anchor and the tag in front of a node, in either order. -/
def properties : Read Properties := do
  match ← peek with
  | .anchor name =>
    advance
    match ← peek with
    | .tag t => do
      advance
      pure ⟨some name, some (← identifier t)⟩
    | _ => pure ⟨some name, none⟩
  | .tag t =>
    advance
    match ← peek with
    | .anchor name => do
      advance
      pure ⟨some name, some (← identifier t)⟩
    | _ => pure ⟨none, some (← identifier t)⟩
  | _ => pure ⟨none, none⟩

/-- The tag of a node: without one, or with a lone exclamation mark, it has the tag `byForm`. -/
def Properties.tagOr (p : Properties) (byForm : Tag) : Tag :=
  match p.tag with
  | none | some "!" => byForm
  | some s => .ofIdentifier s

/-- The tag of a scalar. A quoted one is text, unless it bears a lone exclamation mark. -/
def Properties.scalarTag (p : Properties) (text : String) (plain : Bool) : Tag :=
  p.tagOr (if plain || p.tag = some "!" then .ofForm text else .text)

/-- Adds a node, known by the anchor of `p`. No anchor may be given twice. -/
def add (p : Properties) (n : Node) : Read NodeId := do
  let r ← get
  let id := r.graph.size
  let anchors ← match p.anchor with
    | none => pure r.anchors
    | some a => if (r.anchors.lookup a).isSome then malformed else pure ((a, id) :: r.anchors)
  set { r with graph := r.graph.push n, anchors := anchors }
  pure id

/-- Adds a scalar. -/
def addScalar (p : Properties) (text : ScalarText) (plain : Bool) : Read NodeId :=
  add p ⟨p.scalarTag text.text plain, .scalar text⟩

/-- Adds an empty node. -/
def addEmpty : Read NodeId :=
  add ⟨none, none⟩ .empty

/-- Adds a sequence, and then reads its items, which may name it. -/
def addSequence (p : Properties) (items : Read (List NodeId)) : Read NodeId := do
  let id ← add p ⟨p.tagOr .sequence, .sequence []⟩
  let found ← items
  modify fun r => { r with graph := r.graph.setForm id (.sequence found) }
  pure id

/-- Adds a mapping, and then reads its pairs, which may name it. -/
def addMapping (p : Properties) (pairs : Read (List (NodeId × NodeId))) : Read NodeId := do
  let id ← add p ⟨p.tagOr .mapping, .mapping []⟩
  let found ← pairs
  modify fun r => { r with graph := r.graph.setForm id (.mapping found) }
  pure id

/-- A node without contents, which needs an anchor or a tag. -/
def bare (p : Properties) : Read NodeId :=
  if p.anchor.isSome || p.tag.isSome then addScalar p ⟨"", true⟩ true else malformed

/-- Whether the next token is one of `ts`. -/
def sees (ts : List Token) : Read Bool := do
  pure (ts.contains (← peek))

mutual

/-- A node. Blocks can stand only outside of brackets; `indentless` says that a block sequence may
stand at the column of the mapping around it. -/
def node (fuel : Nat) (block indentless : Bool) : Read NodeId :=
  match fuel with
  | 0 => malformed
  | fuel + 1 => do
    match ← peek with
    | .alias a =>
      advance
      match (← get).anchors.lookup a with
      | none => malformed
      | some id => pure id
    | _ =>
      let p ← properties
      match ← peek, block with
      | .blockEntry, _ => if indentless then addSequence p (indentlessEntries fuel) else bare p
      | .scalar text plain, _ =>
        advance
        addScalar p text plain
      | .flowSequenceStart, _ => addSequence p (advance *> flowEntries fuel true)
      | .flowMappingStart, _ => addMapping p (advance *> flowPairs fuel true)
      | .blockSequenceStart, true => addSequence p (advance *> blockEntries fuel)
      | .blockMappingStart, true => addMapping p (advance *> blockPairs fuel)
      | _, _ => bare p

/-- A node, or nothing if one of `ts` follows. -/
def nodeBefore (ts : List Token) (fuel : Nat) (block indentless : Bool) : Read NodeId :=
  match fuel with
  | 0 => malformed
  | fuel + 1 => do
    if ← sees ts then addEmpty else node fuel block indentless

/-- A node after `t`, or nothing if there is no `t` or one of `ts` follows. -/
def nodeAfter (t : Token) (ts : List Token) (fuel : Nat) (block indentless : Bool) : Read NodeId :=
  match fuel with
  | 0 => malformed
  | fuel + 1 => do
    if ← accept t then nodeBefore ts fuel block indentless else addEmpty

def blockEntries (fuel : Nat) : Read (List NodeId) :=
  match fuel with
  | 0 => malformed
  | fuel + 1 => do
    if ← accept .blockEntry then
      let n ← nodeBefore [.blockEntry, .blockEnd] fuel true false
      pure (n :: (← blockEntries fuel))
    else
      expect .blockEnd
      pure []

/-- The entries of a sequence that ends with the mapping value it is. -/
def indentlessEntries (fuel : Nat) : Read (List NodeId) :=
  match fuel with
  | 0 => malformed
  | fuel + 1 => do
    if ← accept .blockEntry then
      let n ← nodeBefore [.blockEntry, .key, .value, .blockEnd] fuel true false
      pure (n :: (← indentlessEntries fuel))
    else pure []

def blockPairs (fuel : Nat) : Read (List (NodeId × NodeId)) :=
  match fuel with
  | 0 => malformed
  | fuel + 1 => do
    if ← accept .key then
      let k ← nodeBefore [.key, .value, .blockEnd] fuel true true
      let v ← nodeAfter .value [.key, .value, .blockEnd] fuel true true
      pure ((k, v) :: (← blockPairs fuel))
    else if ← accept .blockEnd then pure []
    else malformed

/-- The entries up to a closing bracket. A key among them is a mapping of one pair. -/
def flowEntries (fuel : Nat) (first : Bool) : Read (List NodeId) :=
  match fuel with
  | 0 => malformed
  | fuel + 1 => do
    if ← accept .flowSequenceEnd then return []
    unless first do expect .flowEntry
    if ← accept .flowSequenceEnd then return []
    let n ←
      if (← peek) = .key then
        addMapping ⟨none, none⟩ do
          advance
          let k ← nodeBefore [.value, .flowEntry, .flowSequenceEnd] fuel false false
          let v ← nodeAfter .value [.flowEntry, .flowSequenceEnd] fuel false false
          pure [(k, v)]
      else node fuel false false
    pure (n :: (← flowEntries fuel false))

/-- The pairs up to a closing brace. A node without a key's mark is a key without a value. -/
def flowPairs (fuel : Nat) (first : Bool) : Read (List (NodeId × NodeId)) :=
  match fuel with
  | 0 => malformed
  | fuel + 1 => do
    if ← accept .flowMappingEnd then return []
    unless first do expect .flowEntry
    if ← accept .flowMappingEnd then return []
    let pair ←
      if ← accept .key then
        let k ← nodeBefore [.value, .flowEntry, .flowMappingEnd] fuel false false
        let v ← nodeAfter .value [.flowEntry, .flowMappingEnd] fuel false false
        pure (k, v)
      else
        let k ← node fuel false false
        pure (k, ← addEmpty)
    pure (pair :: (← flowPairs fuel false))

end

/-- The directives before a document. -/
def directives : (fuel : Nat) → (version : Bool) → Read Unit
  | 0, _ => malformed
  | fuel + 1, version => do
    match ← peek with
    | .directive d =>
      advance
      match d with
      | .version major _ =>
        if version || major ≠ 1 then malformed else directives fuel true
      | .tag handle start =>
        if ((← get).handles.lookup handle).isSome then malformed
        else
          modify fun r => { r with handles := (handle, start) :: r.handles }
          directives fuel version
      | .other => directives fuel version
    | _ => modify fun r => { r with handles := r.handles ++ commonHandles }

/-- The directives and the mark that start a document. -/
def opening (fuel : Nat) : Read Unit := do
  modify fun r => { r with handles := [] }
  directives fuel false
  expect .documentStart

/-- Passes the marks that end a document. -/
def passEnds : (fuel : Nat) → Read Unit
  | 0 => malformed
  | fuel + 1 => do
    if ← accept .documentEnd then passEnds fuel

/-- The end of the text. Another document may not follow, even if it starts well. -/
def ending (fuel : Nat) : Read Unit := do
  passEnds fuel
  unless ← accept .streamEnd do
    opening fuel
    malformed

/-- The node of the only document, if there is one. -/
def document (fuel : Nat) : Read (Option NodeId) := do
  match ← peek with
  | .streamEnd => pure none
  | .directive _ | .documentStart =>
    opening fuel
    let id ← match ← peek with
      | .directive _ | .documentStart | .documentEnd | .streamEnd => addEmpty
      | _ => node fuel true false
    ending fuel
    pure (some id)
  | _ =>
    modify fun r => { r with handles := commonHandles }
    let id ← node fuel true false
    ending fuel
    pure (some id)

end Read

/-- The document of a text. Between two tokens at most three calls are made. -/
def Document.ofTokens (ts : Tokens) : Except Refusal Document := do
  let (root, r) ← (Read.document (4 * ts.list.length + 4)).run { tokens := ts }
  pure ⟨r.graph, root⟩

end Scaffold.Yaml
