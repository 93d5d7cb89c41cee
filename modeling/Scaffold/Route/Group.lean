import Scaffold.Php.Literal
import Scaffold.Text.Blank

/-!
The opening line of a route group: middleware and a path that all routes of the group start with.
-/

namespace Scaffold.Route

/-- The call that names the middleware: a single name as a text, several as a list. -/
def middlewareCall : List String → String
  | [] => ""
  | [name] => "middleware(" ++ Php.quote name ++ ")"
  | names => "middleware(" ++ Php.list names ++ ")"

/-- The opening line of a group. Slashes around the path do not count; parts that are empty are left
out. -/
def groupOpening (middleware : List String) (path : String) : String :=
  let cleaned := Text.stripChar '/' path
  let calls := (if middleware.isEmpty then [] else [middlewareCall middleware]) ++
    (if cleaned.isEmpty then [] else ["prefix(" ++ Php.quote cleaned ++ ")"])
  if calls.isEmpty then "Route::group([], function () " ++ "\x7b"
  else "Route::" ++ "->".intercalate calls ++ "->group(function () " ++ "\x7b"

end Scaffold.Route
