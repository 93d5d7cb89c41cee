import Scaffold.Shape.Record

/-!
The configuration of a project: namespaces, directories, template ids and the column lists that steer
what is generated. The defaults follow the usual layout of a Laravel project, so that an empty
mapping is a full configuration.
-/

namespace Scaffold

/-- A value that differs between the API and the web category. -/
structure PerCategory where
  api : String
  web : String
deriving Repr, DecidableEq

/-- Base namespaces per family of artifacts. -/
structure Namespaces where
  controllers : PerCategory := ⟨"App\\Http\\Controllers\\Api", "App\\Http\\Controllers\\Web"⟩
  requests : PerCategory := ⟨"App\\Http\\Requests\\Api", "App\\Http\\Requests\\Web"⟩
  resources : String := "App\\Http\\Resources\\Api"
  services : String := "App\\Services"
  repositories : String := "App\\Repositories"
  dtos : String := "App\\DTOs"
  exceptions : String := "App\\Exceptions"
  models : String := "App\\Models"
deriving Repr, DecidableEq

/-- Directories per family of artifacts. Those of classes lie below the application directory, the
views and the route files below the project. -/
structure Directories where
  controllers : PerCategory := ⟨"Http/Controllers/Api", "Http/Controllers/Web"⟩
  requests : PerCategory := ⟨"Http/Requests/Api", "Http/Requests/Web"⟩
  resources : String := "Http/Resources/Api"
  services : String := "Services"
  repositories : String := "Repositories"
  dtos : String := "DTOs"
  exceptions : String := "Exceptions"
  views : String := "resources/views"
  routes : PerCategory := ⟨"routes/api.php", "routes/web.php"⟩
deriving Repr, DecidableEq

/-- Template ids per category, by artifact. -/
structure TemplateIds where
  api : List (String × String) :=
    [("controller", "Api/controller.api.stub"),
     ("store_request", "Api/request-store.api.stub"),
     ("update_request", "Api/request-update.api.stub"),
     ("resource", "Api/resource.api.stub"),
     ("collection", "Api/collection.api.stub"),
     ("routes", "Routes/api-routes.stub")]
  web : List (String × String) :=
    [("controller", "Web/controller.web.stub"),
     ("store_request", "Web/request-store.web.stub"),
     ("update_request", "Web/request-update.web.stub"),
     ("view_index", "Web/view-index.stub"),
     ("view_create", "Web/view-create.stub"),
     ("view_edit", "Web/view-edit.stub"),
     ("view_show", "Web/view-show.stub"),
     ("routes", "Routes/web-routes.stub")]
  common : List (String × String) :=
    [("service", "Common/service.stub"),
     ("repository", "Common/repository.stub"),
     ("repository_interface", "Common/repository-interface.stub"),
     ("create_dto", "Common/dto-create.stub"),
     ("update_dto", "Common/dto-update.stub"),
     ("filter_dto", "Common/dto-filter.stub"),
     ("exception", "Common/exception.stub")]
deriving Repr, DecidableEq

/-- Column names with a part of their own. -/
structure ColumnLists where
  /-- Left out of data objects and validation rules. -/
  excluded : List String := ["id", "created_at", "updated_at", "deleted_at"]
  /-- Searched by repositories. -/
  searchable : List String := ["name", "title", "description", "email", "reference"]
  /-- Never sortable and never serialised. -/
  hidden : List String := ["password", "remember_token", "deleted_at"]
deriving Repr, DecidableEq

/-- The keys of the envelope around API responses. -/
structure EnvelopeKeys where
  success : String := "success"
  message : String := "message"
  data : String := "data"
  errors : String := "errors"
  meta_ : String := "meta"
deriving Repr, DecidableEq

structure ApiSettings where
  routePrefix : String := "api"
  middleware : List String := ["api"]
  perPage : Nat := 15
  envelopeKeys : EnvelopeKeys := {}
deriving Repr, DecidableEq

structure WebSettings where
  routePrefix : String := ""
  middleware : List String := ["web"]
  layout : String := "layouts.app"
  perPage : Nat := 15
deriving Repr, DecidableEq

structure Config where
  basePath : Path := Path.here
  appDir : String := "app"
  databaseUrl : Option String := none
  defaultApiVersion : String := "V1"
  overrideDir : String := "resources/stubs/smart-crud"
  namespaces : Namespaces := {}
  paths : Directories := {}
  stubs : TemplateIds := {}
  database : ColumnLists := {}
  api : ApiSettings := {}
  web : WebSettings := {}
deriving Repr, DecidableEq

namespace Config

/-- The application directory of the project. -/
def applicationPath (c : Config) : Path :=
  c.basePath / c.appDir

/-- The directory of the project's own templates. -/
def overridePath (c : Config) : Path :=
  c.basePath / c.overrideDir

def pairRecord : Record PerCategory where
  kind := "CategoryPair"
  initial := ⟨"", ""⟩
  fields :=
    [.mandatory "api" .text (·.api) fun x p => { p with api := x },
     .mandatory "web" .text (·.web) fun x p => { p with web := x }]

def namespacesRecord : Record Namespaces where
  kind := "NamespaceConfig"
  initial := {}
  fields :=
    [.of "controllers" pairRecord.shape (·.controllers) fun x n => { n with controllers := x },
     .of "requests" pairRecord.shape (·.requests) fun x n => { n with requests := x },
     .of "resources" .text (·.resources) fun x n => { n with resources := x },
     .of "services" .text (·.services) fun x n => { n with services := x },
     .of "repositories" .text (·.repositories) fun x n => { n with repositories := x },
     .of "dtos" .text (·.dtos) fun x n => { n with dtos := x },
     .of "exceptions" .text (·.exceptions) fun x n => { n with exceptions := x },
     .of "models" .text (·.models) fun x n => { n with models := x }]

def pathsRecord : Record Directories where
  kind := "PathConfig"
  initial := {}
  fields :=
    [.of "controllers" pairRecord.shape (·.controllers) fun x d => { d with controllers := x },
     .of "requests" pairRecord.shape (·.requests) fun x d => { d with requests := x },
     .of "resources" .text (·.resources) fun x d => { d with resources := x },
     .of "services" .text (·.services) fun x d => { d with services := x },
     .of "repositories" .text (·.repositories) fun x d => { d with repositories := x },
     .of "dtos" .text (·.dtos) fun x d => { d with dtos := x },
     .of "exceptions" .text (·.exceptions) fun x d => { d with exceptions := x },
     .of "views" .text (·.views) fun x d => { d with views := x },
     .of "routes" pairRecord.shape (·.routes) fun x d => { d with routes := x }]

def stubsRecord : Record TemplateIds where
  kind := "StubConfig"
  initial := {}
  fields :=
    [.of "api" .textMap (·.api) fun x s => { s with api := x },
     .of "web" .textMap (·.web) fun x s => { s with web := x },
     .of "common" .textMap (·.common) fun x s => { s with common := x }]

def databaseRecord : Record ColumnLists where
  kind := "DatabaseConfig"
  initial := {}
  fields :=
    [.of "excluded_columns" .texts (·.excluded) fun x l => { l with excluded := x },
     .of "searchable_columns" .texts (·.searchable) fun x l => { l with searchable := x },
     .of "hidden_columns" .texts (·.hidden) fun x l => { l with hidden := x }]

def keysRecord : Record EnvelopeKeys where
  kind := "ResponseKeys"
  initial := {}
  fields :=
    [.of "success" .text (·.success) fun x k => { k with success := x },
     .of "message" .text (·.message) fun x k => { k with message := x },
     .of "data" .text (·.data) fun x k => { k with data := x },
     .of "errors" .text (·.errors) fun x k => { k with errors := x },
     .of "meta" .text (·.meta_) fun x k => { k with meta_ := x }]

/-- The number of records on a page. -/
def perPage : Shape Nat :=
  .number 1 (some 1000)

def apiRecord : Record ApiSettings where
  kind := "ApiConfig"
  initial := {}
  fields :=
    [.of "route_prefix" .text (·.routePrefix) fun x a => { a with routePrefix := x },
     .of "middleware" .texts (·.middleware) fun x a => { a with middleware := x },
     .of "per_page" perPage (·.perPage) fun x a => { a with perPage := x },
     .of "response_keys" keysRecord.shape (·.envelopeKeys) fun x a => { a with envelopeKeys := x }]

def webRecord : Record WebSettings where
  kind := "WebConfig"
  initial := {}
  fields :=
    [.of "route_prefix" .text (·.routePrefix) fun x w => { w with routePrefix := x },
     .of "middleware" .texts (·.middleware) fun x w => { w with middleware := x },
     .of "layout" .text (·.layout) fun x w => { w with layout := x },
     .of "per_page" perPage (·.perPage) fun x w => { w with perPage := x }]

/-- All fields, in the order in which problems with them are reported. The default version must not
be empty, and blanks around it are dropped after that check. -/
def schema : Record Config where
  kind := "SmartCrudConfig"
  initial := {}
  fields :=
    [.of "base_path" .path (·.basePath) fun x c => { c with basePath := x },
     .of "app_dir" .text (·.appDir) fun x c => { c with appDir := x },
     .of "database_url" (.optional .text) (·.databaseUrl) fun x c => { c with databaseUrl := x },
     .of "default_api_version" .filledText (·.defaultApiVersion) fun x c =>
       { c with defaultApiVersion := Text.stripped x },
     .of "stubs_override_dir" .text (·.overrideDir) fun x c => { c with overrideDir := x },
     .of "namespaces" namespacesRecord.shape (·.namespaces) fun x c => { c with namespaces := x },
     .of "paths" pathsRecord.shape (·.paths) fun x c => { c with paths := x },
     .of "stubs" stubsRecord.shape (·.stubs) fun x c => { c with stubs := x },
     .of "database" databaseRecord.shape (·.database) fun x c => { c with database := x },
     .of "api" apiRecord.shape (·.api) fun x c => { c with api := x },
     .of "web" webRecord.shape (·.web) fun x c => { c with web := x }]
  derived :=
    [.of "app_path" .path applicationPath fun _ c => c,
     .of "stubs_override_path" .path overridePath fun _ c => c]

/-- The configuration that a mapping describes. -/
def ofValue (v : Value) : Except Fault Config :=
  (schema.read v).mapError .configInvalid

def toValue (c : Config) : Value :=
  schema.write c

/-- Sets the attribute that dotted names lead to. -/
def assign (c : Config) (names : List String) (v : Value) : Except Fault (Config × Assigned) :=
  schema.assign names v c

end Config

end Scaffold
