import Scaffold.Yaml.Node

/-!
Merge keys. A mapping may name other mappings under a merge key; `Graph.flatten` puts their pairs in
front of the mapping's own, so that of several pairs with one key the mapping's own comes last. Of
mappings that are listed under one merge key the first stands last.
-/

namespace Scaffold.Yaml.Graph

def isMerge (g : Graph) (pair : NodeId × NodeId) : Bool :=
  (g.node pair.1).tag = .merge

/-- The pairs of a mapping. Other nodes have none. -/
def pairs (g : Graph) (id : NodeId) : List (NodeId × NodeId) :=
  match (g.node id).form with
  | .mapping pairs => pairs
  | _ => []

/-- Makes the key of a default value a text like others. -/
def plainKey (g : Graph) (id : NodeId) : Graph :=
  if (g.node id).tag = .default then g.setTag id .text else g

/-- How many pairs of all mappings stand under merge keys. -/
def mergeCount (g : Graph) : Nat :=
  (g.toList.flatMap fun n => match n.form with
    | .mapping pairs => pairs.filter g.isMerge
    | _ => []).length

/-- Resolves the merge keys of the mapping `id`, for which `merged` was found so far. Each round
takes one merge key out of the graph. -/
def flattenWith (g : Graph) (id : NodeId) (merged : List (NodeId × NodeId)) :
    (fuel : Nat) → Except Refusal Graph
  | 0 => .error .malformed
  | fuel + 1 =>
    let all := g.pairs id
    let before := all.takeWhile (!g.isMerge ·)
    let g := before.foldl (fun g pair => g.plainKey pair.1) g
    match all.drop before.length with
    | [] => .ok (if merged.isEmpty then g else g.setForm id (.mapping (merged ++ before)))
    | (_, source) :: after =>
      let g := g.setForm id (.mapping (before ++ after))
      match (g.node source).form with
      | .mapping _ => do
        let g ← g.flattenWith source [] fuel
        g.flattenWith id (merged ++ g.pairs source) fuel
      | .sequence items => do
        let step : Graph × List (NodeId × NodeId) → NodeId → Except Refusal (Graph × _)
          | (g, found), item =>
            match (g.node item).form with
            | .mapping _ => do
              let g ← g.flattenWith item [] fuel
              pure (g, g.pairs item ++ found)
            | _ => .error .malformed
        let (g, found) ← items.foldlM step (g, [])
        g.flattenWith id (merged ++ found) fuel
      | .scalar _ => .error .malformed

/-- The graph with the merge keys of the mapping `id` resolved, and of those that it merges. -/
def flatten (g : Graph) (id : NodeId) : Except Refusal Graph :=
  g.flattenWith id [] (g.mergeCount + 1)

end Scaffold.Yaml.Graph
