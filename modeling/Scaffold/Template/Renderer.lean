import Scaffold.Stubs
import Scaffold.Template
import Scaffold.Workspace

/-!
Finding and filling templates. A template is looked for in the project's own directory first and then
in the default one. Its text is read once: later changes of the file do not show, though a file that
appears in the project's own directory takes precedence from then on.
-/

namespace Scaffold

/-- The directories in which templates are looked for. -/
structure Renderer where
  override : Option Path
  default : Path
deriving Repr, DecidableEq

namespace Renderer

def source : String := "smartcrud.templates"

/-- The directories in the order of the search. -/
def roots (r : Renderer) : List Path :=
  r.override.toList ++ [r.default]

/-- The first of some files that stands. -/
def firstFile? (t : Tree) : List Path → Except Fault (Option Path)
  | [] => .ok none
  | p :: ps => do if ← t.isFile p then pure (some p) else firstFile? t ps

/-- The file of a template. -/
def file (r : Renderer) (id : String) : Action Path := do
  let candidates := r.roots.map (· / id)
  match ← Action.look (firstFile? · candidates) with
  | some p =>
    Action.say .debug source s!"Template {id} resolved to {p}."
    pure p
  | none => throw (.templateMissing id (candidates.map Path.toString))

/-- The text of a template. -/
def text (r : Renderer) (id : String) : Action String := do
  let p ← r.file id
  match (← get).cache.lookup p with
  | some text => pure text
  | none =>
    let text ← Action.look (·.readText p)
    modify fun w => { w with cache := (p, text) :: w.cache }
    pure text

/-- The text of a template with its placeholders filled. -/
def render (r : Renderer) (id : String) (subs : List (String × String)) : Action String := do
  pure (Template.fill (← r.text id) subs)

end Renderer

end Scaffold
