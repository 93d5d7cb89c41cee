import Scaffold.Fault
import Scaffold.Text.Blank
import Scaffold.Text.Lines
import Scaffold.Text.Search

/-!
Route files as lists of tagged lines. The layout is fixed: one line with the opening tag of PHP, then
directives and imports in any order, then statements; blank lines may stand anywhere. An import after
the first statement is refused, because it could not be told from a statement.
-/

namespace Scaffold.Route

/-- What a line is, by its place in the layout. -/
inductive Tag where
  | marker
  | directive
  | import_
  | body
  | blank
deriving Repr, DecidableEq

def Tag.name : Tag → String
  | .marker => "marker"
  | .directive => "directive"
  | .import_ => "import"
  | .body => "body"
  | .blank => "blank"

structure Line where
  text : String
  tag : Tag
deriving Repr, DecidableEq

abbrev Document := List Line

/-- How far the layout of a file has been read. -/
inductive Stage where
  | beforeMarker
  | header
  | body
deriving Repr, DecidableEq

/-- Whether a line without its outer blanks is an import. -/
def isImport (stripped : String) : Bool :=
  Text.startsWith stripped "use "

/-- Whether a line without its outer blanks is a directive. -/
def isDirective (stripped : String) : Bool :=
  Text.startsWith stripped "declare" &&
    ((stripped.toList.drop 7).dropWhile Text.isBlank).head? == some '('

/-- The tag of line `number` and the stage after it. -/
def tagLine (number : Nat) (stage : Stage) (raw : String) : Except RouteFlaw (Tag × Stage) :=
  let stripped := Text.stripped raw
  if stripped.isEmpty then .ok (.blank, stage)
  else match stage with
    | .beforeMarker =>
      if Text.startsWith stripped openTag then .ok (.marker, .header)
      else .error (.markerExpected number)
    | .header =>
      if isDirective stripped then .ok (.directive, .header)
      else if isImport stripped then .ok (.import_, .header)
      else .ok (.body, .body)
    | .body =>
      if isImport stripped then .error (.lateImport number) else .ok (.body, .body)

/-- Tags the lines from line `number` on; a file needs its opening tag. -/
def tagLines (number : Nat) (stage : Stage) : List String → Except RouteFlaw Document
  | [] => if stage = .beforeMarker then .error .noMarker else .ok []
  | raw :: rest => do
    let (tag, stage) ← tagLine number stage raw
    let doc ← tagLines (number + 1) stage rest
    pure (⟨raw, tag⟩ :: doc)

/-- Drops the empty line that a final newline leaves behind. -/
def dropFinalEmpty (doc : Document) : Document :=
  if doc.getLast? == some ⟨"", .blank⟩ then doc.dropLast else doc

namespace Document

/-- The document of a text. -/
def parse (text : String) : Except RouteFlaw Document :=
  (tagLines 1 .beforeMarker (Text.lines text)).map dropFinalEmpty

/-- The imports, without outer blanks. -/
def imports (doc : Document) : List String :=
  (doc.filter (·.tag = .import_)).map fun l => Text.stripped l.text

/-- Where the first statement stands. -/
def firstStatement? (doc : Document) : Option Nat :=
  doc.findIdx? (·.tag = .body)

/-- Whether a line belongs to the part before the statements. -/
def isHeader (l : Line) : Bool :=
  l.tag = .marker || l.tag = .directive || l.tag = .import_

/-- Where the last line with the opening tag, a directive or an import stands. -/
def headerEnd (doc : Document) : Nat :=
  match doc.reverse.findIdx? isHeader with
  | some fromEnd => doc.length - 1 - fromEnd
  | none => 0

/-- Where an import goes: before the first statement, or after the header. -/
def importPlace (doc : Document) : Nat :=
  doc.firstStatement?.getD (doc.headerEnd + 1)

/-- The document with an import, and whether it was added; one that is there is not repeated. -/
def withImport (doc : Document) (statement : String) : Document × Bool :=
  if doc.imports.contains (Text.stripped statement) then (doc, false)
  else
    let i := doc.importPlace
    (doc.take i ++ ⟨statement, .import_⟩ :: doc.drop i, true)

/-- The lines of a block that are neither blank nor imports. -/
def keptLines (block : String) : List String :=
  (Text.lines block).filter fun raw =>
    let stripped := Text.stripped raw
    !stripped.isEmpty && !isImport stripped

/-- Drops the blank lines at the end. -/
def dropTrailingBlanks (doc : Document) : Document :=
  (doc.reverse.dropWhile (·.tag = .blank)).reverse

/-- The document with a block at its end, after one empty line. -/
def withBlock (doc : Document) (block : String) : Document :=
  dropTrailingBlanks doc ++ ⟨"", .blank⟩ :: (keptLines block).map (⟨·, .body⟩)

/-- The text of a document, with a newline after every line. -/
def render (doc : Document) : String :=
  "\n".intercalate (doc.map (·.text)) ++ "\n"

end Document

end Scaffold.Route
