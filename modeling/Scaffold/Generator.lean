import Scaffold.Blocks
import Scaffold.Layout
import Scaffold.Report
import Scaffold.Review.Request
import Scaffold.Route.Group
import Scaffold.Route.Merge
import Scaffold.Schema.Introspect
import Scaffold.Template.Renderer
import Scaffold.Writer

/-!
Generating the artifacts of an entity. A request is checked before any file is touched. Then the
columns of its table are looked up, and each artifact is rendered and written on its own: a failure
is noted in the report and the next artifact goes on. Only an artifact without a place or a template
stops the run.
-/

namespace Scaffold

/-- A generator for one project. -/
structure Generator where
  config : Config
  storage : Option Storage
  renderer : Renderer

namespace Generator

def source : String := "smartcrud.generator"

/-- The generator of a configuration, with the packaged templates. -/
def ofConfig (config : Config) : Generator where
  config := config
  storage := none
  renderer := { override := some config.overridePath, default := Stubs.root }

/-- What is fixed for all artifacts of a run. -/
structure Run where
  config : Config
  renderer : Renderer
  names : Naming
  force : Bool
  version : String
  fields : Fields

/-- The substitutions for the namespace and the class of each class artifact of a category. -/
def classSubstitutions (config : Config) (names : Naming) (version : String) (c : Category) :
    List (String × String) :=
  (Layout.classTargets config names version c).flatMap fun (k, t) =>
    [(k.placeholder ++ "Namespace", t.namespace), (k.placeholder ++ "Class", t.className)]

/-- The substitutions that all artifacts of a run share. -/
def baseSubstitutions (config : Config) (names : Naming) (version : String) :
    List (String × String) :=
  let keys := config.api.envelopeKeys
  names.substitutions ++
    [("version", version),
     ("versionLower", Name.lower version),
     ("modelNamespace", config.namespaces.models),
     ("modelClass", config.namespaces.models ++ "\\" ++ names.one.pascal),
     ("repositoryVariable", names.one.camel ++ "Repository"),
     ("serviceVariable", names.one.camel ++ "Service"),
     ("route", names.many.kebab),
     ("viewPrefix", names.many.kebab),
     ("layout", config.web.layout),
     ("apiPerPage", toString config.api.perPage),
     ("webPerPage", toString config.web.perPage),
     ("successKey", keys.success),
     ("messageKey", keys.message),
     ("dataKey", keys.data),
     ("errorsKey", keys.errors),
     ("metaKey", keys.meta_)] ++
    classSubstitutions config names version .common

/-- The number of records on a page, for the categories that have pages. -/
def perPage (config : Config) : Category → List (String × String)
  | .common => []
  | .api => [("perPage", toString config.api.perPage)]
  | .web => [("perPage", toString config.web.perPage)]

/-- The substitutions that all artifacts of a category share. -/
def categorySubstitutions (run : Run) (c : Category) : List (String × String) :=
  baseSubstitutions run.config run.names run.version ++
    (if c = .common then [] else classSubstitutions run.config run.names run.version c) ++
    perPage run.config c

/-- The path that all routes of a category start with. -/
def routePrefix (config : Config) (version : String) (c : Category) : String :=
  if c = .api then
    let parts := [Text.stripChar '/' config.api.routePrefix,
      Text.stripChar '/' (Name.lower version)]
    "/".intercalate (parts.filter (!·.isEmpty))
  else Text.stripChar '/' config.web.routePrefix

/-- The middleware of a category's routes. -/
def middleware (config : Config) (c : Category) : List String :=
  if c = .api then config.api.middleware else config.web.middleware

/-- The substitutions of a block of routes. -/
def routeSubstitutions (run : Run) (c : Category) (t : Target) : List (String × String) :=
  let path := routePrefix run.config run.version c
  let middleware := middleware run.config c
  [("controller", t.className),
   ("controllerNamespace", t.namespace),
   ("controllerFqcn", t.fqcn),
   ("routePrefix", path),
   ("middleware", Php.list middleware),
   ("routeGroup", Route.groupOpening middleware path)]

/-- The variant of the blocks that a class is rendered with. -/
def variantOf (k : Kind) : Variant :=
  if k = .updateDto || k = .updateRequest then .update else .create

/-- The substitutions of a class file. -/
def fileSubstitutions (run : Run) (c : Category) (k : Kind) (t : Target) : List (String × String) :=
  categorySubstitutions run c ++ run.fields.substitutions (variantOf k) ++
    [("namespace", t.namespace), ("class", t.className)]

/-- Generates a class file. -/
def classFile (run : Run) (c : Category) (k : Kind) : Action Result := do
  let t ← Action.ofExcept (Layout.target run.config run.names run.version c k)
  let id ← Action.ofExcept (Layout.templateId run.config c k none)
  let content ← run.renderer.render id (fileSubstitutions run c k t)
  let written ← Writer.write t.path content run.force
  pure <| match written.record with
    | some _ => ⟨c, k, .created, [written.path], ""⟩
    | none => ⟨c, k, .skipped, [written.path], "exists"⟩

/-- The substitutions of a view. -/
def viewSubstitutions (run : Run) (c : Category) (v : View) : List (String × String) :=
  categorySubstitutions run c ++ run.fields.substitutions .create ++ [("viewType", v.name)]

/-- Generates one view below `directory`. -/
def view (run : Run) (c : Category) (directory : Path) (v : View) : Action Written := do
  let id ← Action.ofExcept (Layout.templateId run.config c .views (some v.name))
  let content ← run.renderer.render id (viewSubstitutions run c v)
  Writer.write (directory / (v.name ++ ".blade.php")) content run.force

/-- The result of the views: created if any of them was. -/
def viewsResult (c : Category) (written : List Written) : Result :=
  let (created, skipped) := written.partition (·.record.isSome)
  if created.isEmpty then ⟨c, .views, .skipped, skipped.map (·.path), "exists"⟩
  else ⟨c, .views, .created, (created ++ skipped).map (·.path), ""⟩

/-- Generates the views. -/
def views (run : Run) (c : Category) : Action Result := do
  let t ← Action.ofExcept (Layout.target run.config run.names run.version c .views)
  pure (viewsResult c (← View.all.mapM (view run c t.path)))

/-- The first content of a category's route file. -/
def boilerplate (c : Category) : String :=
  if c = .api then Route.apiBoilerplate else Route.webBoilerplate

/-- Registers the routes. -/
def routes (run : Run) (c : Category) : Action Result := do
  let t ← Action.ofExcept (Layout.target run.config run.names run.version c .routes)
  let id ← Action.ofExcept (Layout.templateId run.config c .routes none)
  let block ← run.renderer.render id (categorySubstitutions run c ++ routeSubstitutions run c t)
  let path := t.path.toString
  pure <| match ← Route.merge t.path run.names block t.fqcn (boilerplate c) with
    | .inserted => ⟨c, .routes, .created, [path], ""⟩
    | .alreadyPresent => ⟨c, .routes, .skipped, [path], "already registered"⟩

/-- Generates one artifact. -/
def artifact (run : Run) (c : Category) : Kind → Action Result
  | .views => views run c
  | .routes => routes run c
  | k => classFile run c k

/-- Generates one artifact; a fault that spoils only this artifact becomes its result. -/
def attempt (run : Run) (c : Category) (k : Kind) : Action Result :=
  tryCatch (artifact run c k) fun fault =>
    if fault.spoilsOneArtifact then do
      Action.say .error source <|
        s!"Failed to generate {c.name}.{k.name} for {run.names.one.pascal}: " ++ fault.message
      pure ⟨c, k, .failed, [], fault.message⟩
    else throw fault

/-- Generates artifacts in order and adds their results to a report. -/
def artifacts (run : Run) : List (Category × Kind) → Report → Action Report
  | [], report => pure report
  | (c, k) :: rest, report => do
    let result ← attempt run c k
    artifacts run rest (report.addResult result)

/-- The storage of a run: that of the generator, or else the one that the configuration names. -/
def storageOf (g : Generator) : Action (Option Storage) := do
  match g.storage, g.config.databaseUrl with
  | some storage, _ => pure (some storage)
  | none, none => pure none
  | none, some url =>
    if url.isEmpty then pure none
    else match Sqlite.locate url with
      | .ok location => pure (some (.sqlite location))
      | .error fault =>
        Action.say .warning source s!"Schema introspection disabled: {fault.message url}"
        pure none

/-- Generates what an accepted request asks for. -/
def accepted (g : Generator) (entity : String) (o : Options) (report : Report) :
    Action Report := do
  match Naming.derive? entity with
  | none => throw (.noWords entity)
  | some names =>
    let storage ← g.storageOf
    let columns ← Introspect.columns storage g.config names
    let run : Run :=
      { config := g.config, renderer := g.renderer, names, force := o.force,
        version := Layout.version g.config o.apiVersion,
        fields := .ofConfig columns names.table g.config }
    artifacts run o.planned
      { report with entity := names.one.pascal, table := names.table,
                    schemaDetected := !columns.isEmpty, columnCount := columns.length }

/-- The checks of a request, with their outcome in the log. -/
def review (g : Generator) (entity : String) (o : Options) : Action Review := do
  let review ← Action.look (Review.ofRequest · (some entity) o g.config)
  let source := "smartcrud.validators"
  if review.hasErrors then
    Action.say .error source s!"Validation FAILED for '{entity}'. {review.summary}"
  else Action.say .info source s!"Validation PASSED for '{entity}'. {review.summary}"
  pure review

/-- Checks a request and generates what it asks for if it is accepted. -/
def checked (g : Generator) (entity : String) (o : Options) : Action Report := do
  let review ← g.review entity o
  let report : Report :=
    { entity, errors := review.errors.map Finding.text,
      warnings := review.warnings.map Finding.text }
  if review.hasErrors then
    Action.say .error source s!"Generation aborted for '{entity}': invalid request."
    pure report
  else g.accepted (Text.stripped entity) o report

/-- Notes in the log that `x` took `elapsed` seconds, also if it fails. -/
def timed (elapsed : Float) (x : Action α) : Action α := fun w =>
  let note : Action Unit := Action.say .debug "smartcrud.utils"
    ("Timer [generate]: " ++ Decimal.fixed 4 elapsed ++ " seconds")
  match x w with
  | .ok a w => (note *> pure a) w
  | .error fault w => (note *> throw fault) w

/-- Handles a request for an entity; the run is reported to take `elapsed` seconds. -/
def generate (g : Generator) (entity : String) (o : Options) (elapsed : Float) : Action Report := do
  let report ← timed elapsed (g.checked entity o)
  let report := { report with elapsed }
  let outcome := if report.success then "success" else "failed"
  Action.say .info source <|
    s!"Generation for '{report.entity}' finished in " ++ Decimal.fixed 3 elapsed ++
      s!"s ({outcome})."
  pure report

end Generator

end Scaffold
