import Scaffold.Yaml.Binary
import Scaffold.Yaml.Merge

/-!
What the nodes of a document stand for. A container names what it holds by node, so a container may
hold itself. Containers are filled in the order in which they were met, after everything that was met
before them; of two faults the one met first counts. `Graph.data` fills all that a node leads to.
-/

namespace Scaffold.Yaml

inductive Datum where
  | scalar (v : Value)
  /-- What is written as no number. Unlike other such values it is the same as itself. -/
  | notANumber
  | list (items : List NodeId)
  /-- A list of pairs. -/
  | pairs (items : List (NodeId × NodeId))
  | set (items : List NodeId)
  | map (items : List (NodeId × NodeId))
deriving Inhabited

namespace Datum

/-- What a container with a tag is before it is filled; nothing if the tag is that of scalars. -/
def container? : Tag → Option Datum
  | .sequence => some (list [])
  | .pairs | .orderedMap => some (pairs [])
  | .set => some (set [])
  | .mapping => some (map [])
  | _ => none

/-- Whether it can be a key. -/
def isKey : Datum → Bool
  | scalar _ | notANumber => true
  | _ => false

/-- Whether two keys are the same, apart from being one node. -/
def sameKey : Datum → Datum → Bool
  | scalar a, scalar b => a.sameKey b
  | notANumber, notANumber => true
  | _, _ => false

/-- What a scalar with a tag stands for. -/
def ofText (tag : Tag) (t : ScalarText) : Except Refusal Datum :=
  match tag with
  | .null => .ok (scalar .null)
  | .bool =>
    let text := Text.lower t.text
    match Tag.flag? text with
    | some b => .ok (scalar (.bool b))
    | none => .error (.scalar (.unknownFlag text))
  | .int => (Number.int t.text).map fun n => scalar (.int n)
  | .float =>
    if Number.isNone t.text then .ok notANumber
    else (Number.float t.text).map fun x => scalar (.float x)
  | .binary =>
    match Binary.decode? t.text with
    | some bytes => .ok (scalar (.bytes bytes))
    | none => .error .malformed
  | .timestamp =>
    match Stamp.ofText? t.text with
    | some stamp => stamp.value.map scalar
    | none => .error (.scalar .notTimestamp)
  | .text => .ok (scalar (if t.whole then .text t.text else .brokenText t.text))
  | _ => .error .malformed

/-- The value, where `contents` gives the values of nodes. -/
def value (contents : NodeId → Value) : Datum → Value
  | scalar v => v
  | notANumber => .float (0.0 / 0.0)
  | list items => .list (items.map contents)
  | pairs items => .list (items.map fun (k, v) => .list [contents k, contents v])
  | set items => .set (items.map contents)
  | map items => .map (items.map fun (k, v) => (contents k, contents v))

/-- The datum without what it holds. -/
def hollow : Datum → Datum
  | list _ => list []
  | pairs _ => pairs []
  | set _ => set []
  | map _ => map []
  | d => d

end Datum

/-- The text of a node that is tagged as a scalar. A mapping stands for its default value. -/
def Graph.text (g : Graph) (id : NodeId) : (fuel : Nat) → Except Refusal ScalarText
  | 0 => .error (.scalar .endlessDefault)
  | fuel + 1 =>
    match (g.node id).form with
    | .scalar t => .ok t
    | .sequence _ => .error .malformed
    | .mapping pairs =>
      match pairs.find? fun (k, _) => (g.node k).tag = .default with
      | some (_, v) => g.text v fuel
      | none => .error .malformed

/-- What a node stands for that is tagged as a scalar. Some tags stand for nothing. -/
def Graph.scalar (g : Graph) (id : NodeId) : Except Refusal Datum :=
  let n := g.node id
  if [Tag.merge, .default, .unknown].contains n.tag then .error .malformed
  else do
    let t ← g.text id (g.size + 1)
    match n.tag, n.form with
    | .timestamp, .mapping _ => throw (.scalar .mappingAsTimestamp)
    | tag, _ => Datum.ofText tag t

structure Builder where
  graph : Graph
  data : Array (Option Datum)
  /-- The containers to be filled, the one met last first. -/
  waiting : List NodeId := []

/-- What a node that was met stands for so far. -/
def Builder.datum (b : Builder) (id : NodeId) : Datum :=
  ((b.data[id]?).join).getD default

/-- Whether two nodes are the same key. -/
def Builder.sameKey (b : Builder) (i j : NodeId) : Bool :=
  i = j || (b.datum i).sameKey (b.datum j)

abbrev Build := StateT Builder (Except Refusal)

namespace Build

def setDatum (id : NodeId) (d : Datum) : Build Unit :=
  modify fun b => { b with data := b.data.modify id fun _ => some d }

/-- Meets a node: a container waits until it is filled. -/
def meet (id : NodeId) : Build Unit := do
  let b ← get
  if (b.data[id]?).join.isNone then
    match Datum.container? (b.graph.node id).tag with
    | some d =>
      setDatum id d
      modify fun b => { b with waiting := id :: b.waiting }
    | none => setDatum id (← b.graph.scalar id)

/-- `pairs` with the value `v` under the key `k`: a key that is there stays. -/
def insert (b : Builder) (k v : NodeId) (pairs : List (NodeId × NodeId)) : List (NodeId × NodeId) :=
  if pairs.any fun p => b.sameKey p.1 k then
    pairs.map fun p => if b.sameKey p.1 k then (p.1, v) else p
  else pairs ++ [(k, v)]

/-- The pairs of a mapping, each key once with the value given last. -/
def mapping (id : NodeId) : Build (List (NodeId × NodeId)) := do
  let g ← (← get).graph.flatten id
  modify fun b => { b with graph := g }
  (g.pairs id).foldlM (fun found (k, v) => do
    meet k
    unless ((← get).datum k).isKey do throw .malformed
    meet v
    pure (insert (← get) k v found)) []

/-- The pair of a mapping that has only one. -/
def onlyPair (id : NodeId) : Build (NodeId × NodeId) := do
  match ((← get).graph.node id).form with
  | .mapping [(k, v)] =>
    meet k
    meet v
    pure (k, v)
  | _ => throw .malformed

/-- Fills a container. -/
def fill (id : NodeId) : Build Unit := do
  let n := (← get).graph.node id
  match n.tag, n.form with
  | .sequence, .sequence items =>
    items.forM meet
    setDatum id (.list items)
  | .pairs, .sequence items | .orderedMap, .sequence items =>
    setDatum id (.pairs (← items.mapM onlyPair))
  | .set, .mapping _ => setDatum id (.set ((← mapping id).map Prod.fst))
  | .mapping, .mapping _ => setDatum id (.map (← mapping id))
  | _, _ => throw .malformed

/-- Fills the containers that wait, and then those met on the way. -/
def fillAll : (fuel : Nat) → Build Unit
  | 0 => pure ()
  | fuel + 1 => do
    let ids := (← get).waiting.reverse
    modify fun b => { b with waiting := [] }
    ids.forM fill
    unless ids.isEmpty do fillAll fuel

end Build

/-- What the nodes stand for that the node `root` leads to. No container waits twice. -/
def Graph.data (g : Graph) (root : NodeId) : Except Refusal (Array Datum) := do
  let filled := Build.meet root *> Build.fillAll (g.size + 1)
  let ((), b) ← filled.run { graph := g, data := .replicate g.size none }
  pure (b.data.map (·.getD default))

/-- The values of all nodes, seen down to a depth below which containers seem empty. -/
def valuesTo (data : Array Datum) : (depth : Nat) → Array Value
  | 0 => data.map fun d => d.hollow.value fun _ => .null
  | depth + 1 =>
    let inner := valuesTo data depth
    data.map fun d => d.value fun id => (inner[id]?).getD .null

end Scaffold.Yaml
