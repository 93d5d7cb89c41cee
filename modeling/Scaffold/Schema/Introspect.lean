import Scaffold.Config
import Scaffold.Name.Variants
import Scaffold.Schema.Sqlite

/-!
Finding the columns of an entity's table. No columns are known where there is no backend, where it
cannot be reached, and where the table does not exist. A backend that then fails to list the columns
is a fault; one that fails to describe them leaves their types unknown.
-/

namespace Scaffold

/-- Where table layouts come from. -/
inductive Storage where
  | answers (backend : Backend)
  | sqlite (location : Sqlite.Location)

/-- The backend of a storage. -/
def Storage.connect : Storage → Action Backend
  | answers backend => pure backend
  | sqlite location => Sqlite.connect location

namespace Introspect

def source : String := "smartcrud.introspection"

/-- Asks a backend a question about a table. -/
def ask (question : String) (query : String → Except BackendFault α) (table : String) :
    Action (Except BackendFault α) := do
  modify fun w => { w with queries := (question, table) :: w.queries }
  pure (query table)

/-- Whether a failure to describe columns only leaves their types unknown. -/
def leavesTypesUnknown : BackendFault → Bool
  | .unreachable _ => true
  | .unsupported _ => true
  | .database _ => true
  | .numberAsCollation | .defect _ => false

/-- What is known of the types of a table's columns. -/
def metadata (backend : Backend) (table : String) : Action (List (String × ReportedColumn)) := do
  match ← ask "describe_columns" backend.describe table with
  | .ok known => pure known
  | .error fault =>
    if leavesTypesUnknown fault then
      Action.say .warning source
        s!"Column metadata unavailable for '{table}' ({fault.message}); using names only."
      pure []
    else throw (.backend fault)

/-- The column called `name`, with the type that is known for it. -/
def column (known : List (String × ReportedColumn)) (excluded : List String) (name : String) :
    Except Fault Column :=
  let raw := known.reverse.lookup name
  Column.ofRaw name (raw.map (·.type)) (raw.any (·.nullable)) (excluded.contains name)

/-- The columns of a table that exists. -/
def listed (backend : Backend) (excluded : List String) (table : String) :
    Action (List Column) := do
  match ← ask "column_names" backend.columnNames table with
  | .error fault => throw (.backend fault)
  | .ok names =>
    let known ← metadata backend table
    let columns ← Action.ofExcept (names.mapM (column known excluded))
    let described := (known.map Prod.fst).eraseDups.length
    Action.say .info source
      s!"Introspected '{table}': {columns.length} column(s), metadata for {described}."
    pure columns

/-- The columns of an entity's table, none where no layout is known. -/
def columns (storage : Option Storage) (config : Config) (names : Naming) :
    Action (List Column) := do
  match storage with
  | none =>
    Action.say .info source "No storage backend configured; using default fields."
    pure []
  | some storage =>
    let backend ← storage.connect
    match ← ask "has_table" backend.hasTable names.table with
    | .error (.unreachable reason) =>
      let fault := BackendFault.unreachable reason
      Action.say .warning source <|
        s!"Storage backend unreachable ({fault.message}); using default fields for " ++
          s!"{names.one.pascal}."
      pure []
    | .error fault => throw (.backend fault)
    | .ok false =>
      Action.say .info source s!"Table '{names.table}' not found; using default fields."
      pure []
    | .ok true => listed backend config.database.excluded names.table

end Introspect

end Scaffold
