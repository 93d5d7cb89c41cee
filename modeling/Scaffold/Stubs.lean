import Scaffold.Stubs.Api
import Scaffold.Stubs.Common
import Scaffold.Stubs.Routes
import Scaffold.Stubs.Web
import Scaffold.Tree

/-!
The packaged templates as files of a tree.
-/

namespace Scaffold.Stubs

/-- The packaged templates by their ids. -/
def packaged : List (String × String) :=
  [("Api/collection.api.stub", Api.collection),
   ("Api/controller.api.stub", Api.controller),
   ("Api/request-store.api.stub", Api.requestStore),
   ("Api/request-update.api.stub", Api.requestUpdate),
   ("Api/resource.api.stub", Api.resource),
   ("Common/dto-create.stub", Common.dtoCreate),
   ("Common/dto-filter.stub", Common.dtoFilter),
   ("Common/dto-update.stub", Common.dtoUpdate),
   ("Common/exception.stub", Common.exception),
   ("Common/repository-interface.stub", Common.repositoryInterface),
   ("Common/repository.stub", Common.repository),
   ("Common/service.stub", Common.service),
   ("Routes/api-routes.stub", Routes.api),
   ("Routes/web-routes.stub", Routes.web),
   ("Web/controller.web.stub", Web.controller),
   ("Web/request-store.web.stub", Web.requestStore),
   ("Web/request-update.web.stub", Web.requestUpdate),
   ("Web/view-create.stub", Web.viewCreate),
   ("Web/view-edit.stub", Web.viewEdit),
   ("Web/view-index.stub", Web.viewIndex),
   ("Web/view-show.stub", Web.viewShow)]

/-- The directory of the packaged templates. -/
def root : Path :=
  ⟨.root, ["usr", "share", "smartcrud", "stubs"]⟩

/-- The directories that the packaged templates need. -/
def directories : List Location :=
  (List.range root.parts.length).map (fun n => root.parts.take (n + 1)) ++
    ["Api", "Common", "Routes", "Web"].map (root.parts ++ [·])

/-- The packaged templates and their directories as entries of a tree. -/
def entries : List (Location × Entry) :=
  directories.map (·, .directory) ++
    packaged.map fun (id, text) =>
      (root.parts ++ (Path.ofString id).parts, .file 0o644 text.toUTF8)

/-- A tree with the packaged templates and an empty working directory. -/
def freshTree (home : Location) : Tree where
  home := home
  entries := (List.range home.length).map (fun n => (home.take (n + 1), .directory)) ++ entries

end Scaffold.Stubs
