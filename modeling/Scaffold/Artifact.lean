import Scaffold.Name.Style

/-!
The artifacts that are generated for an entity. Each category has a fixed list of kinds, in the order
of generation; every kind but views and routes is one class file.
-/

namespace Scaffold

/-- A group of artifacts with its own directories and namespaces. -/
inductive Category where
  | common
  | api
  | web
deriving Repr, DecidableEq

/-- The part that a generated file plays. -/
inductive Kind where
  | service
  | repository
  | repositoryInterface
  | createDto
  | updateDto
  | filterDto
  | exception
  | controller
  | storeRequest
  | updateRequest
  | resource
  | collection
  | views
  | routes
deriving Repr, DecidableEq

/-- The pages that the views of an entity consist of. -/
inductive View where
  | index
  | create
  | edit
  | show_
deriving Repr, DecidableEq

namespace Category

def all : List Category := [common, api, web]

def name : Category → String
  | common => "common"
  | api => "api"
  | web => "web"

/-- The category as messages show it. -/
def shown (c : Category) : String :=
  "ArtifactCategory." ++ Name.upper c.name

end Category

namespace Kind

def all : List Kind :=
  [service, repository, repositoryInterface, createDto, updateDto, filterDto, exception,
   controller, storeRequest, updateRequest, resource, collection, views, routes]

def name : Kind → String
  | service => "service"
  | repository => "repository"
  | repositoryInterface => "repository_interface"
  | createDto => "create_dto"
  | updateDto => "update_dto"
  | filterDto => "filter_dto"
  | exception => "exception"
  | controller => "controller"
  | storeRequest => "store_request"
  | updateRequest => "update_request"
  | resource => "resource"
  | collection => "collection"
  | views => "views"
  | routes => "routes"

/-- The kind as messages show it. -/
def shown (k : Kind) : String :=
  "ArtifactKind." ++ Name.upper k.name

/-- What the placeholders for the namespace and the class of this kind start with. -/
def placeholder : Kind → String
  | service => "service"
  | repository => "repository"
  | repositoryInterface => "repositoryInterface"
  | createDto => "createDTO"
  | updateDto => "updateDTO"
  | filterDto => "filterDTO"
  | exception => "exception"
  | controller => "controller"
  | storeRequest => "storeRequest"
  | updateRequest => "updateRequest"
  | resource => "resource"
  | collection => "collection"
  | views => "views"
  | routes => "routes"

/-- Whether an artifact of this kind is one class file. -/
def isClass (k : Kind) : Bool :=
  k ≠ views && k ≠ routes

end Kind

namespace View

def all : List View := [index, create, edit, show_]

def name : View → String
  | index => "index"
  | create => "create"
  | edit => "edit"
  | show_ => "show"

end View

/-- The kinds of a category, in the order of generation. -/
def Category.kinds : Category → List Kind
  | common => [.service, .repository, .repositoryInterface, .createDto, .updateDto, .filterDto,
      .exception]
  | api => [.controller, .storeRequest, .updateRequest, .resource, .collection, .routes]
  | web => [.controller, .storeRequest, .updateRequest, .views, .routes]

theorem Category.mem_all (c : Category) : c ∈ all := by cases c <;> decide

theorem Kind.mem_all (k : Kind) : k ∈ all := by cases k <;> decide

end Scaffold
