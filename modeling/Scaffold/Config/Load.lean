import Scaffold.Config
import Scaffold.Tree.Access
import Scaffold.Workspace
import Scaffold.Yaml

/-!
Configuration files. A file without contents stands for the default configuration. A relative base
path in a file is seen from the directory of the file, not from the working directory.
-/

namespace Scaffold.Config

/-- The pairs of a configuration text; `path` names the file in faults. -/
def pairsOfText (path : Path) (text : String) : Except Fault (List (Value × Value)) :=
  match Yaml.value text with
  | .error .malformed => .error (.configUnparsable path.toString)
  | .error (.scalar fault) => .error (.badScalar fault)
  | .ok .null => .ok []
  | .ok (.map pairs) => .ok pairs
  | .ok v => .error (.configNotMapping v.typeName)

/-- The configuration that the text of the file at `path` describes. -/
def ofText (path : Path) (text : String) : Except Fault Config := do
  let pairs ← pairsOfText path text
  let c ← ofValue (.map pairs)
  if (Value.lookup "base_path" pairs).isSome then
    pure { c with basePath := path.parent.append c.basePath }
  else pure c

/-- The configuration in the file at `path`. -/
def ofFile (t : Tree) (path : Path) : Except Fault Config := do
  if ← t.isFile path then ofText path (← t.readText path)
  else throw (.configMissing path.toString)

/-- Reads the file at `path` and says so in the log. -/
def load (path : Path) : Action Config := do
  let c ← Action.look (ofFile · path)
  Action.say .info "smartcrud.config" s!"Loaded config from {path} (base_path={c.basePath})."
  pure c

end Scaffold.Config
