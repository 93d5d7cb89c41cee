import Scaffold.Artifact
import Scaffold.Shape.Record

/-!
The options of one run, and the artifacts that they ask for.
-/

namespace Scaffold

structure Options where
  /-- Overwrite files that exist. -/
  force : Bool := false
  /-- The API version, where it is not the configured one; never empty. -/
  apiVersion : Option String := none
  skipCommon : Bool := false
  skipRoutes : Bool := false
  skipViews : Bool := false
  api : Bool := true
  web : Bool := false
deriving Repr, DecidableEq

namespace Options

/-- A version without the blanks around it; one that is blank counts as not given. -/
def cleanVersion (version : Option String) : Option String :=
  (version.map Text.stripped).filter fun v => !v.isEmpty

def schema : Record Options where
  kind := "GenerationOptions"
  initial := {}
  fields :=
    [.of "force" .flag (·.force) fun x o => { o with force := x },
     .of "api_version" (.optional .text) (·.apiVersion) fun x o =>
       { o with apiVersion := cleanVersion x },
     .of "skip_common" .flag (·.skipCommon) fun x o => { o with skipCommon := x },
     .of "skip_routes" .flag (·.skipRoutes) fun x o => { o with skipRoutes := x },
     .of "skip_views" .flag (·.skipViews) fun x o => { o with skipViews := x },
     .of "api" .flag (·.api) fun x o => { o with api := x },
     .of "web" .flag (·.web) fun x o => { o with web := x }]

def ofValue (v : Value) : Except Fault Options :=
  (schema.read v).mapError .invalid

/-- Whether artifacts of the category are asked for. -/
def wants (o : Options) : Category → Bool
  | .common => !o.skipCommon
  | .api => o.api
  | .web => o.web

/-- Whether artifacts of the kind are left out. -/
def skips (o : Options) : Kind → Bool
  | .routes => o.skipRoutes
  | .views => o.skipViews
  | _ => false

/-- The artifacts that the options ask for, in the order of generation. -/
def planned (o : Options) : List (Category × Kind) :=
  (Category.all.filter o.wants).flatMap fun c =>
    (c.kinds.filter (!o.skips ·)).map (c, ·)

end Options

end Scaffold
