import Scaffold.Column

/-!
Storage backends. A backend answers three questions about tables. Where it cannot be reached while
asked whether a table exists, and where the table does not exist, no columns are known; a failure to
list the columns is a fault of the run; without metadata the columns are known by name only.
-/

namespace Scaffold

/-- What a backend reports of one column. -/
structure ReportedColumn where
  type : String
  nullable : Bool
deriving Repr, DecidableEq

/-- The answers of a storage backend to questions about tables. -/
structure Backend where
  hasTable : String → Except BackendFault Bool
  columnNames : String → Except BackendFault (List String)
  /-- The columns by name; of a repeated name the last one counts. -/
  describe : String → Except BackendFault (List (String × ReportedColumn))

/-- A column of a database table, as it was declared. -/
structure TableColumn where
  name : String
  type : String
  nullable : Bool
deriving Repr, DecidableEq

structure Table where
  name : String
  columns : List TableColumn
deriving Repr, DecidableEq

end Scaffold
