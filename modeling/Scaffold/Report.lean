import Scaffold.Artifact
import Scaffold.Decimal.Fixed

/-!
The report of a run: one result per artifact, in the order of generation, and the findings that
stopped the run, if any.
-/

namespace Scaffold

inductive Status where
  | created
  | skipped
  | failed
deriving Repr, DecidableEq

namespace Status

def all : List Status := [created, skipped, failed]

def name : Status → String
  | created => "created"
  | skipped => "skipped"
  | failed => "failed"

/-- The mark of a result in the summary. -/
def mark : Status → String
  | created => "+"
  | skipped => "="
  | failed => "x"

end Status

/-- What came of one artifact. -/
structure Result where
  category : Category
  kind : Kind
  status : Status
  paths : List String
  reason : String
deriving Repr, DecidableEq

/-- The category and the kind, which no two results of a report share. -/
def Result.label (r : Result) : String :=
  r.category.name ++ "." ++ r.kind.name

/-- The status, with the reason of a failure. -/
def Result.shown (r : Result) : String :=
  if r.status = .failed then "failed:" ++ r.reason else r.status.name

structure Report where
  entity : String := ""
  table : String := ""
  schemaDetected : Bool := false
  columnCount : Int := 0
  results : List Result := []
  errors : List String := []
  warnings : List String := []
  elapsed : Float := 0

namespace Report

/-- The report with one more result, or with a new one in the place of that with the same label. -/
def addResult (r : Report) (new : Result) : Report :=
  if r.results.any (·.label == new.label) then
    { r with results := r.results.map fun old => if old.label == new.label then new else old }
  else { r with results := r.results ++ [new] }

def failed (r : Report) : List Result :=
  r.results.filter (·.status = .failed)

def success (r : Report) : Bool :=
  r.errors.isEmpty && r.failed.isEmpty

def count (r : Report) (s : Status) : Nat :=
  r.results.countP (·.status = s)

/-- `s` filled with spaces up to `width` characters. -/
def padTo (width : Nat) (s : String) : String :=
  s ++ .ofList (List.replicate (width - s.length) ' ')

def ruler (c : Char) : String :=
  .ofList (List.replicate 60 c)

/-- A titled list of findings, with a mark before each; nothing if there is none. -/
def section_ (title mark : String) (items : List String) : List String :=
  if items.isEmpty then []
  else [ruler '-', s!"  {title} ({items.length}):"] ++ items.map (s!"    {mark} " ++ ·)

/-- The report as a text of several lines. -/
def summary (r : Report) : String :=
  let status := if r.success then "SUCCESS" else "FAILED"
  let schema := if r.schemaDetected then s!"{r.columnCount} column(s)" else "default fields"
  let head :=
    [ruler '=', "  SmartCRUD Generation Report", ruler '=',
     s!"  Status:     {status}",
     s!"  Entity:     {r.entity}",
     s!"  Table:      {r.table}",
     s!"  Schema:     {schema}",
     s!"  Artifacts:  {r.count .created} created, {r.count .skipped} skipped, " ++
       s!"{r.count .failed} failed",
     "  Total time: " ++ Decimal.fixed 3 r.elapsed ++ "s"]
  let results := if r.results.isEmpty then []
    else ruler '-' :: r.results.map fun x =>
      "    " ++ x.status.mark ++ " " ++ padTo 28 x.label ++ " " ++ x.shown
  "\n".intercalate <| head ++ results ++ section_ "Validation Errors" "x" r.errors ++
    section_ "Validation Warnings" "!" r.warnings ++ [ruler '=']

end Report

end Scaffold
