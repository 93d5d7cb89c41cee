import Scaffold.Name.Variants
import Scaffold.Route.Document
import Scaffold.Workspace

/-!
Merging routes into a route file. The routes of an entity count as registered when its name stands in
the file as a quoted text; otherwise the import of the controller and the block of routes are added
and the file is replaced as a whole. A file that breaks the layout is left untouched.
-/

namespace Scaffold.Route

/-- The line above which nothing generated stands. -/
def generatedMarker : String := "// ===== Smart CRUD Generated Routes ====="

/-- The first content of a route file for the API. -/
def apiBoilerplate : String :=
  openTag ++ "\n\nuse Illuminate\\Support\\Facades\\Route;\n\n" ++
    "Route::get('/health', fn () => ['status' => 'ok']);\n\n" ++ generatedMarker ++ "\n"

/-- The first content of a route file for the web. -/
def webBoilerplate : String :=
  openTag ++ "\n\nuse Illuminate\\Support\\Facades\\Route;\n\n" ++
    "Route::get('/', function () \x7b\n    return view('welcome');\n\x7d);\n\n" ++
    generatedMarker ++ "\n"

/-- Whether a text holds `token` in quotes of either kind. -/
def holdsToken (text token : String) : Bool :=
  Text.mentions text ("'" ++ token ++ "'") || Text.mentions text ("\"" ++ token ++ "\"")

inductive Registration where
  | inserted
  | alreadyPresent
deriving Repr, DecidableEq

def Registration.name : Registration → String
  | .inserted => "inserted"
  | .alreadyPresent => "already_present"

/-- The import statement of a class. -/
def importOf (fqcn : String) : String :=
  s!"use {fqcn};"

/-- The text of a route file after a merge: none if the routes are registered. A blank text counts
as the boilerplate. -/
def merged (text boilerplate token fqcn block : String) : Except RouteFlaw (Option String) := do
  let text := if (Text.stripped text).isEmpty then boilerplate else text
  let doc ← Document.parse text
  if holdsToken text token then pure none
  else pure (some (((doc.withImport (importOf fqcn)).1.withBlock block).render))

def source : String := "smartcrud.routes"

/-- Merges the routes of an entity into a file. -/
def merge (file : Path) (names : Naming) (block fqcn boilerplate : String) :
    Action Registration := do
  let there ← Action.look (·.stands file)
  let text ← if there then Action.look (·.readText file) else do
    Action.say .info source s!"Route file {file} missing; starting from boilerplate."
    pure boilerplate
  match merged text boilerplate names.many.kebab fqcn block with
  | .error flaw => throw (.corruptRoutes file.toString flaw)
  | .ok none =>
    Action.say .info source s!"Routes for {names.one.pascal} already registered in {file}."
    pure .alreadyPresent
  | .ok (some new) =>
    let _ ← Action.edit (Edit.replaceFile file new)
    Action.say .info source s!"Registered {names.one.pascal} routes in {file}."
    pure .inserted

end Scaffold.Route
