import Scaffold.Schema.Address
import Scaffold.Text.Lower
import Scaffold.Workspace

/-!
SQLite databases as storage backends. A connection is opened by address; a file that does not exist
yet becomes an empty database. Declared types are reported in the spelling of the engine, by the
affinity of their words; a column without a type can be listed but not described.
-/

namespace Scaffold.Sqlite

/-- What an address names. -/
inductive Location where
  | memory
  /-- A file, which is made where it does not exist and `create` holds. -/
  | file (path : Path) (create : Bool)
  | nowhere
deriving Repr, DecidableEq

/-- The dialects that can be used, with their drivers. -/
def dialects : List String := ["sqlite", "sqlite+pysqlite"]

/-- What stands for the dialect in messages: a driver follows after a point. -/
def dialectName (dialect : String) : String :=
  .ofList (dialect.toList.map fun c => if c = '+' then '.' else c)

/-- The kinds of values that options have. -/
inductive OptionKind where
  | flag
  | integer
  | decimal
deriving Repr, DecidableEq

/-- The options of a connection, in the order in which they are read. Others are not looked at. -/
def optionKinds : List (String × OptionKind) :=
  [("uri", .flag), ("timeout", .decimal), ("detect_types", .integer), ("check_same_thread", .flag),
   ("cached_statements", .integer)]

/-- The flag that an option's value writes. -/
def optionFlag (value : String) : Except AddressFault Bool :=
  let word := Text.lower (Text.stripped value)
  if ["true", "yes", "on", "y", "t", "1"].contains word then .ok true
  else if ["false", "no", "off", "n", "f", "0"].contains word then .ok false
  else .error (.badValue ("String is not true/false: " ++ Text.display word))

/-- Refuses an option with a value that is not of its kind. -/
def checkOption (options : List (String × String)) (name : String) (kind : OptionKind) :
    Except AddressFault Unit := do
  match options.lookup name, kind with
  | none, _ => pure ()
  | some value, .flag => let _ ← optionFlag value
  | some value, .integer => let _ ← (Text.integerIn 10 value.toList).mapError (.badValue ·.message)
  | some value, .decimal => let _ ← (Text.decimal value.toList).mapError (.badValue ·.message)

/-- What a name with the scheme of files stands for; `mode` says how it is opened. -/
def ofFileName (name : List Char) (mode : Option String) : Location :=
  let path? := match name with
    | '/' :: '/' :: rest =>
      let host := rest.takeWhile (· ≠ '/')
      if host.isEmpty || host = "localhost".toList then some (rest.drop host.length) else none
    | rest => some rest
  match path?, mode with
  | none, _ => .nowhere
  | some _, some "memory" => .memory
  | some path, mode =>
    let path := Text.Percent.decode (.ofList (path.takeWhile fun c => c ≠ '?' && c ≠ '#'))
    if path.isEmpty || path == ":memory:" then .memory
    else match mode with
      | none | some "rwc" => .file (.ofString path) true
      | some "rw" | some "ro" => .file (.ofString path) false
      | some _ => .nowhere

/-- What a name stands for where the scheme of files counts. Without the scheme the other options
belong to the name. -/
def ofUri (database : String) (options : List (String × String)) : Location :=
  let others := (options.filter fun o => !optionKinds.any (·.1 == o.1)).mergeSort fun a b =>
    !(b.1 < a.1)
  match database.toList with
  | 'f' :: 'i' :: 'l' :: 'e' :: ':' :: name => ofFileName name (others.lookup "mode")
  | [] => .memory
  | _ =>
    let suffix := if others.isEmpty then ""
      else "?" ++ "&".intercalate (others.map fun (k, v) => k ++ "=" ++ v)
    .file (.ofString (database ++ suffix)) true

/-- What an address names. Neither login nor host may be given, and no port but zero. -/
def locate (url : String) : Except AddressFault Location := do
  let a ← Address.ofString url
  if let some name := a.options.lookup "plugin" then throw (.noPlugin "plugins" name)
  if !dialects.contains a.dialect then throw (.noPlugin "dialects" (dialectName a.dialect))
  if a.isRemote || a.port.any (· ≠ 0) then throw .notLocal
  optionKinds.forM fun (name, kind) => checkOption a.options name kind
  let isUri ← match a.options.lookup "uri" with
    | some value => optionFlag value
    | none => pure false
  pure <|
    if isUri then ofUri a.database a.options
    else if a.database.isEmpty || a.database == ":memory:" then .memory
    else .file (.ofString a.database) true

/-- How the arguments of a declared type are reported. -/
inductive Arguments where
  | dropped
  /-- A single length. -/
  | length
  /-- A precision and possibly a scale. -/
  | precision
deriving Repr, DecidableEq

/-- The types that are reported by their own name. -/
def knownTypes : List (String × String × Arguments) :=
  [("BIGINT", "BIGINT", .dropped), ("BLOB", "BLOB", .dropped), ("BOOL", "BOOLEAN", .dropped),
   ("BOOLEAN", "BOOLEAN", .dropped), ("CHAR", "CHAR", .length), ("DATE", "DATE", .dropped),
   ("DATE_CHAR", "DATE", .dropped), ("DATETIME", "DATETIME", .dropped),
   ("DATETIME_CHAR", "DATETIME", .dropped), ("DOUBLE", "DOUBLE", .dropped),
   ("DOUBLE_PRECISION", "DOUBLE PRECISION", .dropped), ("DECIMAL", "DECIMAL", .precision),
   ("FLOAT", "FLOAT", .dropped), ("INT", "INTEGER", .dropped), ("INTEGER", "INTEGER", .dropped),
   ("JSON", "JSON", .dropped), ("NUMERIC", "NUMERIC", .precision),
   ("NVARCHAR", "NVARCHAR", .length), ("REAL", "REAL", .dropped),
   ("SMALLINT", "SMALLINT", .dropped), ("TEXT", "TEXT", .length), ("TIME", "TIME", .dropped),
   ("TIME_CHAR", "TIME", .dropped), ("TIMESTAMP", "TIMESTAMP", .dropped),
   ("VARCHAR", "VARCHAR", .length)]

/-- The type that other words are taken for, if any. -/
def affinity? (word : String) : Option (String × Arguments) :=
  let has := Text.mentions word
  if has "INT" then some ("INTEGER", .dropped)
  else if has "CHAR" || has "CLOB" || has "TEXT" then some ("TEXT", .length)
  else if has "BLOB" || word.isEmpty then none
  else if has "REAL" || has "FLOA" || has "DOUB" then some ("REAL", .dropped)
  else some ("NUMERIC", .precision)

/-- The runs of digits in a text. -/
def digitRuns : List Char → List (List Char)
  | [] => []
  | c :: cs =>
    if Text.isDecimalDigit c then
      match cs.head?.any Text.isDecimalDigit, digitRuns cs with
      | true, run :: rest => (c :: run) :: rest
      | _, rest => [c] :: rest
    else digitRuns cs

/-- A column type as the engine knows it, with the numbers in parentheses behind it. -/
structure EngineType where
  name : String
  arguments : Arguments
  numbers : List Nat
deriving Repr, DecidableEq

def isWordChar (c : Char) : Bool :=
  c.isAlphanum || c == '_' || c == ' ' || 127 < c.toNat && !Text.isBlank c

/-- The number that digits write, of which there may not be too many. -/
def number (digits : List Char) : Except BackendFault Nat :=
  if digitLimit < digits.length then .error (.defect (tooManyDigitsMessage digits.length))
  else .ok (Text.decimalValue digits)

/-- The type that a declaration stands for; none if there is none. -/
def engineType? (declared : String) : Except BackendFault (Option EngineType) := do
  let cs := (Name.upper declared).toList
  let word := cs.takeWhile isWordChar
  let inner := match cs.drop word.length with
    | '(' :: rest =>
      let inner := rest.takeWhile fun c => c ≠ ')' && c ≠ '\n'
      if !word.isEmpty && (rest.drop inner.length).head? = some ')' then inner else []
    | _ => []
  let numbers ← (digitRuns inner).mapM number
  let found := match knownTypes.lookup (.ofList word) with
    | some known => some known
    | none => affinity? (.ofList word)
  pure (found.map fun (name, arguments) => ⟨name, arguments, numbers⟩)

/-- How the engine reports a type. A length of zero is none; a second number would name a
collation. -/
def EngineType.reported (t : EngineType) : Except BackendFault String :=
  match t.arguments, t.numbers with
  | .length, [n] | .length, [n, 0] => .ok (if n = 0 then t.name else s!"{t.name}({n})")
  | .length, [_, _] => .error .numberAsCollation
  | .precision, [p] => .ok s!"{t.name}({p})"
  | .precision, [p, s] | .precision, [p, s, _] | .precision, [p, s, _, _] =>
    .ok s!"{t.name}({p}, {s})"
  | _, _ => .ok t.name

/-- The types of a table's columns. -/
def typed (table : Table) : Except BackendFault (List (TableColumn × Option EngineType)) :=
  table.columns.mapM fun c => do pure (c, ← engineType? c.type)

/-- The description of a table's columns. -/
def describe (table : Table) : Except BackendFault (List (String × ReportedColumn)) := do
  (← typed table).mapM fun (c, type) =>
    match type with
    | some type => do pure (c.name, ⟨← type.reported, c.nullable⟩)
    | none => throw (.database .untypedColumn)

/-- The names of the tables in which the engine itself lists what a database holds. -/
def catalogNames : List String :=
  ["sqlite_master", "sqlite_schema", "sqlite_temp_master", "sqlite_temp_schema"]

/-- The table of all tables, under one of its names. -/
def catalog (name : String) : Table where
  name := name
  columns := [⟨"type", "TEXT", true⟩, ⟨"name", "TEXT", true⟩, ⟨"tbl_name", "TEXT", true⟩,
    ⟨"rootpage", "INT", true⟩, ⟨"sql", "TEXT", true⟩]

/-- The tables of a database as a backend. The case of table names does not matter. -/
def ofTables (tables : List Table) : Backend :=
  let table? (name : String) :=
    (tables ++ catalogNames.map catalog).find? fun t => Name.lower t.name == Name.lower name
  { hasTable := fun name => .ok (table? name).isSome
    columnNames := fun name => match table? name with
      | some t => (typed t).map (·.map (·.1.name))
      | none => .error (.unreachable none)
    describe := fun name => match table? name with
      | some t => describe t
      | none => .error (.database .noSuchTable) }

/-- A backend that fails whatever it is asked. -/
def failing (fault : BackendFault) : Backend :=
  ⟨fun _ => .error fault, fun _ => .error fault, fun _ => .error fault⟩

/-- A file that cannot be opened. -/
def unopenable : Backend :=
  failing (.unreachable none)

/-- A file that is no database. -/
def damaged : Backend :=
  let fault : BackendFault := .unreachable none
  ⟨fun _ => .error fault, fun _ => .error fault, fun _ => .error (.database .notADatabase)⟩

/-- Whether a file starts as every database does. -/
def isDatabase (bytes : ByteArray) : Bool :=
  "SQLite format 3".toUTF8.toList.isPrefixOf bytes.toList

/-- The database in a file. An empty file is an empty database. -/
def contents (w : Workspace) (l : Scaffold.Location) (bytes : ByteArray) : Backend :=
  if bytes.isEmpty then ofTables []
  else match w.databases.lookup l with
    | some tables => if isDatabase bytes then ofTables tables else damaged
    | none => damaged

/-- Opens the file at a location. A file that was open when it was taken away is still seen as it
was then. -/
def openFile (create : Bool) (l : Scaffold.Location) : Action Backend := fun w =>
  match w.opened.lookup l, w.tree.entryAt l with
  | some (some backend), _ => .ok backend w
  | _, some .directory => .ok unopenable w
  | _, some (.file _ bytes) => .ok (contents w l bytes) { w with opened := (l, none) :: w.opened }
  | _, none =>
    if create then
      .ok (ofTables [])
        { w with tree := w.tree.place l (.file Edit.newFileMode .empty)
                 opened := (l, none) :: w.opened }
    else .ok unopenable w

/-- Opens what an address names. -/
def connect : Location → Action Backend
  | .memory => pure (ofTables [])
  | .nowhere => pure unopenable
  | .file p create => fun w =>
    let p := p.resolved w.tree.home
    if Tree.hasNull p then .ok (failing (.defect Fault.nullInPath.message)) w
    else match w.tree.locate p with
      | .error _ => .ok unopenable w
      | .ok l => openFile create l w

/-- Takes away what stands at a location and below it. Databases that are open keep their
contents. -/
def remove (l : Scaffold.Location) (w : Workspace) : Workspace :=
  let seen : Scaffold.Location × Option Backend → Scaffold.Location × Option Backend
    | (place, held) =>
      match held, w.tree.entryAt place with
      | none, some (.file _ bytes) =>
        (place, if l.isPrefixOf place then some (contents w place bytes) else none)
      | held, _ => (place, held)
  { w with tree := { w.tree with entries := w.tree.entries.filter fun e => !l.isPrefixOf e.1 },
           opened := w.opened.map seen }

end Scaffold.Sqlite
