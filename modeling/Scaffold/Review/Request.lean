import Scaffold.Name.Plural
import Scaffold.Options
import Scaffold.Config
import Scaffold.Review
import Scaffold.Tree.Access

/-!
The checks of a request: the entity must give a class name of PHP, the version a level of a
namespace, the configured namespaces must be ones, every path must stay inside the project, and the
options must ask for something.
-/

namespace Scaffold.Review

def isNameStart (c : Char) : Bool :=
  c.isAlpha || c == '_'

def isNameRest (c : Char) : Bool :=
  c.isAlphanum || c == '_'

/-- An ASCII letter or underscore and then ASCII letters, digits and underscores. -/
def isIdentifier : List Char → Bool
  | [] => false
  | c :: cs => isNameStart c && cs.all isNameRest

/-- A letter and then letters, digits and underscores. -/
def isEntityName : List Char → Bool
  | [] => false
  | c :: cs => c.isAlpha && cs.all isNameRest

/-- Identifiers separated by backslashes. -/
def isNamespace (cs : List Char) : Bool :=
  (Text.splitAtChar '\\' cs).all isIdentifier

/-- Whether a text is of the form `p`, or is so up to one final newline. -/
def matchesLine (p : List Char → Bool) (s : String) : Bool :=
  let cs := s.toList
  p cs || cs.getLast? == some '\n' && p cs.dropLast

/-- Words that PHP does not take as the name of a class, in lower case. -/
def reservedWords : List String :=
  ["abstract", "and", "array", "as", "break", "callable", "case", "catch", "class", "clone",
   "const", "continue", "declare", "default", "do", "echo", "else", "elseif", "empty",
   "enddeclare", "endfor", "endforeach", "endif", "endswitch", "endwhile", "enum", "eval", "exit",
   "extends", "final", "finally", "fn", "for", "foreach", "function", "global", "goto", "if",
   "implements", "include", "instanceof", "insteadof", "interface", "isset", "list", "match",
   "namespace", "new", "or", "print", "private", "protected", "public", "readonly", "require",
   "return", "static", "switch", "throw", "trait", "try", "unset", "use", "var", "while", "xor",
   "yield", "bool", "false", "float", "int", "iterable", "mixed", "never", "null", "object",
   "parent", "self", "string", "true", "void"]

def ofEntity (entity : Option String) : Review :=
  let name := Text.stripped (entity.getD "")
  if name.isEmpty then error "ENTITY_EMPTY" "Entity name must not be empty." []
  else if !matchesLine isEntityName name then
    error "ENTITY_INVALID"
      (s!"Entity name '{name}' must start with a letter and contain only letters, digits and " ++
        "underscores.")
      [("entity", name)]
  else
    let model := Name.pascal name
    let one := Name.singular model
    let reserved := if reservedWords.contains (Name.lower model) then
        error "ENTITY_RESERVED"
          s!"'{model}' is a reserved word in PHP and cannot be a class name." [("entity", name)]
      else []
    let plural := if one ≠ model then
        warning "ENTITY_PLURAL"
          s!"Entity name '{model}' looks plural; entities are usually singular ('{one}')."
          [("entity", name)]
      else []
    let changed := if model ≠ name then
        note "ENTITY_NORMALISED" s!"Entity name '{name}' is used as '{model}'."
      else []
    reserved ++ plural ++ changed

def ofVersion (version : Option String) : Review :=
  match version with
  | none => []
  | some v =>
    if !matchesLine isIdentifier v then
      error "API_VERSION_INVALID" s!"API version '{v}' is not a valid namespace segment."
        [("version", v)]
    else if !Text.startsWith v "V" then
      warning "API_VERSION_UNCONVENTIONAL"
        s!"API version '{v}' does not follow the 'V<n>' convention." [("version", v)]
    else []

def ofOptions (o : Options) : Review :=
  (if o.planned.isEmpty then
      error "NOTHING_TO_GENERATE" "The selected flags leave no artifact to generate." []
    else []) ++
  (if o.skipViews && !o.web then
      warning "SKIP_VIEWS_UNUSED"
        "Views are only generated for the web category; skip_views has no effect." []
    else []) ++
  ofVersion o.apiVersion

/-- The configured namespaces, by the names that messages give them. -/
def namespacesOf (n : Namespaces) : List (String × String) :=
  [("controllers.api", n.controllers.api), ("controllers.web", n.controllers.web),
   ("requests.api", n.requests.api), ("requests.web", n.requests.web),
   ("resources", n.resources), ("services", n.services), ("repositories", n.repositories),
   ("dtos", n.dtos), ("exceptions", n.exceptions), ("models", n.models)]

/-- The configured paths, by the names that messages give them. -/
def pathsOf (c : Config) : List (String × String) :=
  let d := c.paths
  [("app_dir", c.appDir), ("paths.controllers.api", d.controllers.api),
   ("paths.controllers.web", d.controllers.web), ("paths.requests.api", d.requests.api),
   ("paths.requests.web", d.requests.web), ("paths.resources", d.resources),
   ("paths.services", d.services), ("paths.repositories", d.repositories),
   ("paths.dtos", d.dtos), ("paths.exceptions", d.exceptions), ("paths.views", d.views),
   ("paths.routes.api", d.routes.api), ("paths.routes.web", d.routes.web)]

/-- Whether a configured path leads out of the project. -/
def leavesProject (s : String) : Bool :=
  let p := Path.ofString s
  p.isAbsolute || p.climbs

def ofNamespace (key ns : String) : Review :=
  if matchesLine isNamespace ns then []
  else error "NAMESPACE_INVALID" s!"namespaces.{key} '{ns}' is not a valid PHP namespace."
    [("key", key), ("namespace", ns)]

def ofPath (key path : String) : Review :=
  if leavesProject path then
    error "PATH_OUTSIDE_PROJECT"
      s!"{key} '{path}' must be a relative path inside the project." [("key", key), ("path", path)]
  else []

def ofRouteFile (key path : String) : Review :=
  if Text.endsWith path ".php" then []
  else warning "ROUTE_FILE_EXTENSION" s!"paths.routes.{key} '{path}' is not a .php file." []

/-- The checks of a configuration that need no look at the file system. -/
def ofSettings (c : Config) : Review :=
  (namespacesOf c.namespaces).flatMap (fun (key, ns) => ofNamespace key ns) ++
  (pathsOf c).flatMap (fun (key, path) => ofPath key path) ++
  ofRouteFile "api" c.paths.routes.api ++ ofRouteFile "web" c.paths.routes.web ++
  ofVersion (some c.defaultApiVersion)

def ofConfig (t : Tree) (c : Config) : Except Fault Review := do
  let there ← t.isDirectory c.basePath
  pure (ofSettings c ++ if there then [] else
    warning "BASE_PATH_MISSING"
      s!"Project base path '{c.basePath}' does not exist; it will be created." [])

/-- All checks of a request. -/
def ofRequest (t : Tree) (entity : Option String) (o : Options) (c : Config) :
    Except Fault Review := do
  pure (ofEntity entity ++ ofOptions o ++ (← ofConfig t c))

end Scaffold.Review
