import Scaffold.Column
import Scaffold.Config

/-!
The blocks of code that depend on the columns of a table: data object properties, validation rules,
search clauses, sortable and serialised fields. Each is a list of lines joined by a separator. Where
no column is known, every block falls back to two fields, `name` and `description`.
-/

namespace Scaffold

/-- Whether code is for creating a record or for changing one. -/
inductive Variant where
  | create
  | update
deriving Repr, DecidableEq

namespace Variant

def name : Variant → String
  | create => "create"
  | update => "update"

/-- The variant of a given name. -/
def ofValue (v : Value) : Except Fault Variant :=
  let found := match v with
    | .text s => [create, update].find? (·.name == s)
    | _ => none
  match found with
  | some variant => .ok variant
  | none => .error (.unknownVariant v.display)

end Variant

/-- The columns of one table and the lists that say which of them can be searched and which are
never shown. -/
structure Fields where
  columns : List Column
  table : String
  searchable : List String
  hidden : List String
deriving Repr, DecidableEq

namespace Fields

def ofConfig (columns : List Column) (table : String) (config : Config) : Fields where
  columns := columns
  table := table
  searchable := config.database.searchable
  hidden := config.database.hidden

def hasSchema (f : Fields) : Bool :=
  !f.columns.isEmpty

/-- The columns that take part in data objects and validation. -/
def fillable (f : Fields) : List Column :=
  f.columns.filter (!·.excluded)

/-- The columns that are not hidden. -/
def visible (f : Fields) : List Column :=
  f.columns.filter fun c => !f.hidden.contains c.name

/-- The indentation of constructor parameters. -/
def propertyIndent : String := "        "

/-- The indentation of array entries and arguments. -/
def entryIndent : String := "            "

/-- The indentation of query clauses. -/
def clauseIndent : String := "                "

def joined (lines : List String) : String :=
  ",\n".intercalate lines

/-- A constructor parameter, which can be left out when the column is nullable or only changed. -/
def constructorLine (v : Variant) (c : Column) : String :=
  if v = .update || c.nullable then
    propertyIndent ++ s!"public readonly ?{c.type.phpType} ${c.name} = null"
  else propertyIndent ++ s!"public readonly {c.type.phpType} ${c.name}"

def defaultConstructor : Variant → List String
  | .create =>
    [propertyIndent ++ "public readonly string $name",
     propertyIndent ++ "public readonly ?string $description = null"]
  | .update =>
    [propertyIndent ++ "public readonly ?string $name = null",
     propertyIndent ++ "public readonly ?string $description = null"]

def constructor (f : Fields) (v : Variant) : List String :=
  if f.hasSchema then f.fillable.map (constructorLine v) else defaultConstructor v

/-- The value that stands for a field that a request does not name. -/
def fallback (c : Column) : String :=
  if c.nullable then "null" else c.type.defaultLiteral

def requestLine (c : Column) : String :=
  entryIndent ++ s!"{c.name}: $data['{c.name}'] ?? {fallback c}"

def defaultRequest : List String :=
  [entryIndent ++ "name: $data['name'] ?? ''",
   entryIndent ++ "description: $data['description'] ?? null"]

/-- The arguments that are read from a request. -/
def fromRequest (f : Fields) : List String :=
  if f.hasSchema then f.fillable.map requestLine else defaultRequest

def arrayLine (c : Column) : String :=
  entryIndent ++ s!"'{c.name}' => $this->{c.name}"

def defaultArray : List String :=
  [entryIndent ++ "'name' => $this->name",
   entryIndent ++ "'description' => $this->description"]

/-- The entries of a data object written as an array. -/
def toArray (f : Fields) : List String :=
  if f.hasSchema then f.fillable.map arrayLine else defaultArray

/-- The rule that checks the type of a column. -/
def typeRule : ColumnClass → String
  | .integer => "integer"
  | .float => "numeric"
  | .boolean => "boolean"
  | .text => "string"

def lengthRules (c : Column) : List String :=
  match c.type, c.maxLength with
  | .text, some n => [s!"max:{n}"]
  | _, _ => []

/-- Whether the values of a column are taken for addresses, by its name. -/
def holdsEmail (c : Column) : Bool :=
  Text.mentions c.name "email"

/-- The rule that no two rows share a value. For a change it ends in a comma, after which the
rendered line appends the record's own key. -/
def uniqueRule (table : String) (v : Variant) (c : Column) : String :=
  s!"unique:{table},{c.name}" ++ (if v = .update then "," else "")

/-- The rules of one column, in order. -/
def rules (f : Fields) (v : Variant) (c : Column) : List String :=
  (if v = .create && !c.nullable then "required" else "sometimes") ::
    typeRule c.type :: lengthRules c ++
    (if holdsEmail c then ["email", uniqueRule f.table v c] else [])

def rulesLine (f : Fields) (v : Variant) (c : Column) : String :=
  entryIndent ++ s!"'{c.name}' => '" ++ "|".intercalate (f.rules v c) ++ "'" ++
    (if v = .update && holdsEmail c then " . $this->route('id')" else "")

def defaultRules : Variant → List String
  | .create =>
    [entryIndent ++ "'name' => 'required|string|max:255'",
     entryIndent ++ "'description' => 'nullable|string'"]
  | .update =>
    [entryIndent ++ "'name' => 'sometimes|string|max:255'",
     entryIndent ++ "'description' => 'sometimes|string'"]

def validation (f : Fields) (v : Variant) : List String :=
  if f.hasSchema then f.fillable.map (f.rulesLine v) else defaultRules v

def searchLine (c : Column) : String :=
  clauseIndent ++ s!"$q->orWhere('{c.name}', 'like', '%' . $filters->search . '%');"

def defaultSearch : String :=
  clauseIndent ++ "$q->where('id', '>', 0); // Add searchable fields"

/-- The columns that are searched. -/
def searched (f : Fields) : List Column :=
  f.columns.filter fun c => f.searchable.contains c.name

def search (f : Fields) : List String :=
  if f.searched.isEmpty then [defaultSearch] else f.searched.map searchLine

def defaultSortable : List String := ["'id'", "'created_at'", "'updated_at'"]

def sortable (f : Fields) : List String :=
  if f.hasSchema then f.visible.map fun c => s!"'{c.name}'" else defaultSortable

/-- Columns that are serialised in a fixed date format. -/
def timestampColumns : List String := ["created_at", "updated_at"]

def resourceLine (name : String) : String :=
  entryIndent ++ s!"'{name}' => $this->{name}" ++
    (if timestampColumns.contains name then "?->format('Y-m-d H:i:s')" else "")

def defaultResource : List String :=
  ["id", "name", "description", "created_at", "updated_at"]

/-- The serialised fields. -/
def resource (f : Fields) : List String :=
  (if f.hasSchema then f.visible.map (·.name) else defaultResource).map resourceLine

/-- All blocks by the placeholder that each fills. -/
def substitutions (f : Fields) (v : Variant) : List (String × String) :=
  [("constructorProperties", joined (f.constructor v)),
   ("fromRequestProperties", joined f.fromRequest),
   ("toArrayProperties", joined f.toArray),
   ("validationRules", joined (f.validation v)),
   ("searchFields", "\n".intercalate f.search),
   ("sortableFields", ", ".intercalate f.sortable),
   ("resourceFields", joined f.resource)]

end Fields

end Scaffold
