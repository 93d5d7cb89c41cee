import Scaffold.Yaml.Datum

/-!
Reading YAML. `Yaml.value` gives the value of a text with at most one document. Of several pairs of
a mapping with one key the last one counts; a merge key stands for the pairs of another mapping, and
the mapping's own pairs win over them.
-/

namespace Scaffold.Yaml

/-- How many containers inside one another are seen; a document that holds itself has no end. -/
def seenDepth : Nat := 5

/-- The value of a text; without a document it is null. -/
def value (s : String) : Except Refusal Value := do
  let doc ← Document.ofTokens (.ofString s)
  match doc.root with
  | none => pure .null
  | some root => do
    let data ← doc.graph.data root
    pure (((valuesTo data seenDepth)[root]?).getD .null)

end Scaffold.Yaml
