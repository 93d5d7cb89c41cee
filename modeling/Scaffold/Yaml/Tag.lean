import Scaffold.Yaml.Number
import Scaffold.Yaml.Time

/-!
Tags: what kind of value a node is. A plain scalar without a tag gets one by its form.
-/

namespace Scaffold.Yaml

inductive Tag where
  | null
  | bool
  | int
  | float
  | binary
  | timestamp
  | orderedMap
  | pairs
  | set
  | text
  | sequence
  | mapping
  /-- The key whose value is merged into the mapping around it. -/
  | merge
  /-- The key of a default value. -/
  | default
  | unknown
deriving Repr, DecidableEq

namespace Tag

/-- The start of the identifiers of all tags but `unknown`. -/
def common : String := "tag:yaml.org,2002:"

def ofIdentifier (s : String) : Tag :=
  if !s.toList.take common.length == common.toList then unknown
  else match String.ofList (s.toList.drop common.length) with
    | "null" => null
    | "bool" => bool
    | "int" => int
    | "float" => float
    | "binary" => binary
    | "timestamp" => timestamp
    | "omap" => orderedMap
    | "pairs" => pairs
    | "set" => set
    | "str" => text
    | "seq" => sequence
    | "map" => mapping
    | "merge" => merge
    | "value" => default
    | _ => unknown

/-- The texts of flags, in lower case. -/
def flag? (s : String) : Option Bool :=
  if ["yes", "true", "on"].contains s then some true
  else if ["no", "false", "off"].contains s then some false
  else none

/-- Whether a text is in lower case, in upper case, or has only its first letter in upper case. -/
def isUniform (s : String) : Bool :=
  let rest := s.toList.drop 1
  rest.all Char.isLower || s.toList.all Char.isUpper

/-- The tag that a text without a line break at its end has by its form. -/
def ofLine (s : String) : Tag :=
  if isUniform s && (flag? (Text.lower s)).isSome then bool
  else if Number.isFloat s then float
  else if Number.isInt s then int
  else if s = "<<" then merge
  else if ["", "~", "null", "Null", "NULL"].contains s then null
  else if Stamp.isPlain s then timestamp
  else if s = "=" then default
  else if ["!", "&", "*"].contains s then unknown
  else text

/-- The tag that a scalar has by its form. One line break at its end does not count, unless there is
nothing else. -/
def ofForm (s : String) : Tag :=
  if s = "\n" then text else ofLine (.ofList (dropFinalBreak s.toList))

end Tag

end Scaffold.Yaml
