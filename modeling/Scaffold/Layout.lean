import Scaffold.Artifact
import Scaffold.Config
import Scaffold.Name.Variants

/-!
Where artifacts go. A class file lies below a directory of its family, and its namespace below the
namespace of the same family: both are continued by one list of segments, so that a class is found
from its namespace. Views have a directory; routes go into a file that all entities share.
-/

namespace Scaffold

/-- Where an artifact goes and which class it declares, if any. -/
structure Target where
  path : Path
  «namespace» : String
  className : String
deriving Repr, DecidableEq

/-- The full name of the class, or the namespace where there is none. -/
def Target.fqcn (t : Target) : String :=
  if t.className.isEmpty then t.namespace else t.namespace ++ "\\" ++ t.className

/-- Artifacts that share a directory and a namespace. -/
inductive Family where
  | controllersApi
  | controllersWeb
  | requestsApi
  | requestsWeb
  | resources
  | services
  | repositories
  | dtos
  | exceptions
deriving Repr, DecidableEq

namespace Family

def directory (d : Directories) : Family → String
  | controllersApi => d.controllers.api
  | controllersWeb => d.controllers.web
  | requestsApi => d.requests.api
  | requestsWeb => d.requests.web
  | resources => d.resources
  | services => d.services
  | repositories => d.repositories
  | dtos => d.dtos
  | exceptions => d.exceptions

def baseNamespace (n : Namespaces) : Family → String
  | controllersApi => n.controllers.api
  | controllersWeb => n.controllers.web
  | requestsApi => n.requests.api
  | requestsWeb => n.requests.web
  | resources => n.resources
  | services => n.services
  | repositories => n.repositories
  | dtos => n.dtos
  | exceptions => n.exceptions

end Family

/-- A level below a family's directory and namespace. -/
inductive Segment where
  | model
  | version
  | fixed (name : String)
deriving Repr, DecidableEq

def Segment.text (model version : String) : Segment → String
  | .model => model
  | .version => version
  | .fixed name => name

/-- The place of a class: its family, the levels below it, and what stands around the model in the
name of the class. -/
structure ClassPlace where
  family : Family
  below : List Segment
  before : String
  after : String
deriving Repr, DecidableEq

namespace ClassPlace

def className (p : ClassPlace) (model : String) : String :=
  p.before ++ model ++ p.after

def segments (p : ClassPlace) (model version : String) : List String :=
  p.below.map (Segment.text model version)

def namespaceName (p : ClassPlace) (n : Namespaces) (model version : String) : String :=
  "\\".intercalate (p.family.baseNamespace n :: p.segments model version)

/-- The file, seen from the directory of the family. -/
def file (p : ClassPlace) (model version : String) : String :=
  "/".intercalate (p.segments model version ++ [p.className model ++ ".php"])

end ClassPlace

namespace Layout

/-- The place of every artifact that declares or registers a class. -/
def place? : Category → Kind → Option ClassPlace
  | .common, .service => some ⟨.services, [.model], "", "Service"⟩
  | .common, .repository => some ⟨.repositories, [.model], "", "Repository"⟩
  | .common, .repositoryInterface =>
    some ⟨.repositories, [.model, .fixed "Contracts"], "", "RepositoryInterface"⟩
  | .common, .createDto => some ⟨.dtos, [.model], "", "CreateDTO"⟩
  | .common, .updateDto => some ⟨.dtos, [.model], "", "UpdateDTO"⟩
  | .common, .filterDto => some ⟨.dtos, [.model], "", "FilterDTO"⟩
  | .common, .exception => some ⟨.exceptions, [.model], "", "Exception"⟩
  | .api, .controller => some ⟨.controllersApi, [.version, .model], "", "Controller"⟩
  | .api, .storeRequest => some ⟨.requestsApi, [.version, .model], "Store", "Request"⟩
  | .api, .updateRequest => some ⟨.requestsApi, [.version, .model], "Update", "Request"⟩
  | .api, .resource => some ⟨.resources, [.version, .model], "", "Resource"⟩
  | .api, .collection => some ⟨.resources, [.version, .model], "", "Collection"⟩
  | .api, .routes => some ⟨.controllersApi, [.version, .model], "", "Controller"⟩
  | .web, .controller => some ⟨.controllersWeb, [.model], "", "Controller"⟩
  | .web, .storeRequest => some ⟨.requestsWeb, [.model], "Store", "Request"⟩
  | .web, .updateRequest => some ⟨.requestsWeb, [.model], "Update", "Request"⟩
  | .web, .routes => some ⟨.controllersWeb, [.model], "", "Controller"⟩
  | _, _ => none

/-- The version that is asked for, or the configured one. -/
def version (config : Config) (asked : Option String) : String :=
  match asked with
  | some v => if v.isEmpty then config.defaultApiVersion else v
  | none => config.defaultApiVersion

/-- The route file of a category. -/
def routeFile (config : Config) (c : Category) : Path :=
  config.basePath / (if c = .api then config.paths.routes.api else config.paths.routes.web)

/-- The file of a class. -/
def classFile (config : Config) (p : ClassPlace) (model version : String) : Path :=
  config.applicationPath / p.family.directory config.paths / p.file model version

/-- The directory of an entity's views. -/
def viewDirectory (config : Config) (names : Naming) : Path :=
  config.basePath / config.paths.views / names.many.kebab

/-- Where an artifact goes, if its category has it. -/
def target? (config : Config) (names : Naming) (version : String) (c : Category) (k : Kind) :
    Option Target :=
  if c = .web && k = .views then
    some ⟨viewDirectory config names, names.many.kebab, ""⟩
  else (place? c k).map fun p =>
    { path := if k = .routes then routeFile config c
        else classFile config p names.one.pascal version
      «namespace» := p.namespaceName config.namespaces names.one.pascal version
      className := p.className names.one.pascal }

/-- Where an artifact goes. -/
def target (config : Config) (names : Naming) (version : String) (c : Category) (k : Kind) :
    Except Fault Target :=
  match target? config names version c k with
  | some t => .ok t
  | none => .error (.unsupportedArtifact c.shown k.shown)

/-- The class artifacts of a category, in order. -/
def classTargets (config : Config) (names : Naming) (version : String) (c : Category) :
    List (Kind × Target) :=
  (c.kinds.filter Kind.isClass).filterMap fun k =>
    (target? config names version c k).map (k, ·)

/-- Whether a category has artifacts of a kind. -/
def supports (c : Category) (k : Kind) : Bool :=
  c.kinds.contains k

/-- The configured template ids of a category. -/
def templateIds (config : Config) : Category → List (String × String)
  | .api => config.stubs.api
  | .web => config.stubs.web
  | .common => config.stubs.common

/-- What the template id of an artifact is configured under. Every view has a template of its own. -/
def templateKey (k : Kind) (view : Option String) : String :=
  if k = .views then "view_" ++ view.getD "None" else k.name

/-- The template id of an artifact. -/
def templateId (config : Config) (c : Category) (k : Kind) (view : Option String) :
    Except Fault String :=
  if supports c k then
    let key := templateKey k view
    match (templateIds config c).lookup key with
    | some id => .ok id
    | none => .error (.unsupportedArtifact c.shown key)
  else .error (.unsupportedArtifact c.shown k.shown)

/-- The category and the kind of given names, if the category has the kind. -/
def byName? (category kind : String) : Option (Category × Kind) := do
  let c ← Category.all.find? (·.name == category)
  let k ← Kind.all.find? (·.name == kind)
  if supports c k then pure (c, k) else none

/-- `target` for a category and a kind given by name. -/
def targetByName (config : Config) (names : Naming) (version category kind : String) :
    Except Fault Target :=
  match (byName? category kind).bind fun (c, k) => target? config names version c k with
  | some t => .ok t
  | none => .error (.unsupportedArtifact category kind)

/-- `templateId` for a category and a kind given by name. Views are looked up as one template. -/
def templateIdByName (config : Config) (category kind : String) : Except Fault String :=
  match (byName? category kind).bind fun (c, k) => (templateIds config c).lookup k.name with
  | some id => .ok id
  | none => .error (.unsupportedArtifact category kind)

end Layout

end Scaffold
