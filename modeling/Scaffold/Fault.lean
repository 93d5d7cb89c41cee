import Scaffold.Text.Display

/-!
What can go wrong, by cause. `Fault.message` is the only place that words a fault.
-/

namespace Scaffold

/-- Why the file system refuses an operation. -/
inductive Errno where
  | noEntry
  | busy
  | alreadyExists
  | notDirectory
  | isDirectory
  | nameTooLong
deriving Repr, DecidableEq

namespace Errno

def number : Errno → Nat
  | noEntry => 2
  | busy => 16
  | alreadyExists => 17
  | notDirectory => 20
  | isDirectory => 21
  | nameTooLong => 36

def text : Errno → String
  | noEntry => "No such file or directory"
  | busy => "Device or resource busy"
  | alreadyExists => "File exists"
  | notDirectory => "Not a directory"
  | isDirectory => "Is a directory"
  | nameTooLong => "File name too long"

end Errno

/-- A refused operation on `path`, or on `path` and `target` for a rename. -/
structure OsError where
  cause : Errno
  path : String
  target : Option String
deriving Repr, DecidableEq

def OsError.message (e : OsError) : String :=
  let second := match e.target with
    | none => ""
    | some t => " -> " ++ Text.display t
  s!"[Errno {e.cause.number}] {e.cause.text}: " ++ Text.display e.path ++ second

/-- What is wrong with one value of a mapping. -/
inductive ProblemKind where
  | missing
  | unknownField
  | keyNotText
  | unknownAttribute
  | notModel
  | notText
  | textNotUtf8
  | textTooShort
  | notPath
  | notList
  | notMap
  | notFlag
  | flagUnreadable
  | notNumber
  | numberUnreadable
  | numberWithFraction
  | numberNotFinite
  | numberTooLong
  | numberTooSmall
  | numberTooLarge
  | notAChoice
deriving Repr, DecidableEq

/-- The word that answers use for a kind of problem. -/
def ProblemKind.label : ProblemKind → String
  | missing => "missing"
  | unknownField => "extra_forbidden"
  | keyNotText => "invalid_key"
  | unknownAttribute => "no_such_attribute"
  | notModel => "model_type"
  | notText => "string_type"
  | textNotUtf8 => "string_unicode"
  | textTooShort => "string_too_short"
  | notPath => "path_type"
  | notList => "list_type"
  | notMap => "dict_type"
  | notFlag => "bool_type"
  | flagUnreadable => "bool_parsing"
  | notNumber => "int_type"
  | numberUnreadable => "int_parsing"
  | numberWithFraction => "int_from_float"
  | numberNotFinite => "finite_number"
  | numberTooLong => "int_parsing_size"
  | numberTooSmall => "greater_than_equal"
  | numberTooLarge => "less_than_equal"
  | notAChoice => "enum"

/-- A problem and where it stands, from the outermost mapping inwards. -/
structure Problem where
  loc : List String
  kind : ProblemKind
deriving Repr, DecidableEq

/-- The problem as seen from a mapping that holds its place under `key`. -/
def Problem.under (key : String) (p : Problem) : Problem :=
  { p with loc := key :: p.loc }

/-- Why a route file cannot be merged into safely. Lines count from 1. -/
inductive RouteFlaw where
  | markerExpected (line : Nat)
  | lateImport (line : Nat)
  | noMarker
deriving Repr, DecidableEq

/-- The line that every PHP file starts with. -/
def openTag : String := "<?php"

def RouteFlaw.message : RouteFlaw → String
  | markerExpected line => s!"line {line}: expected '{openTag}' first"
  | lateImport line => s!"line {line}: import after the first statement"
  | noMarker => s!"no '{openTag}' marker"

/-- How a database itself fails. -/
inductive DatabaseFault where
  | general
  | noSuchTable
  | untypedColumn
  | notADatabase
deriving Repr, DecidableEq

/-- How a query of a storage backend fails. The reason is known where it is the backend's own. -/
inductive BackendFault where
  | unreachable (reason : Option String)
  | unsupported (reason : String)
  | database (cause : DatabaseFault)
  /-- A number stands where a type names the order of its texts. -/
  | numberAsCollation
  | defect (reason : String)
deriving Repr, DecidableEq

def BackendFault.message : BackendFault → String
  | unreachable reason => reason.getD ""
  | unsupported reason => reason
  | database _ => ""
  | numberAsCollation => "'int' object has no attribute 'lower'"
  | defect reason => reason

/-- The most digits that a number may have where it is read from text. -/
def digitLimit : Nat := 4300

/-- Why a scalar has no value although its form or its tag announces one. -/
inductive ScalarFault where
  | refused (reason : String)
  | tooManyDigits (count : Nat)
  /-- The code of a character has more than 31 bits. -/
  | codeTooLarge
  /-- The weight of a digit group exceeds all floating-point numbers. -/
  | weightTooLarge
  /-- No flag is written like this, in lower case. -/
  | unknownFlag (text : String)
  | notTimestamp
  /-- A mapping stands where a timestamp is announced. -/
  | mappingAsTimestamp
  | emptyNumber
  /-- A mapping is its own default value. -/
  | endlessDefault
deriving Repr, DecidableEq

def tooManyDigitsMessage (count : Nat) : String :=
  s!"Exceeds the limit ({digitLimit} digits) for integer string conversion: value has {count} " ++
    "digits; use sys.set_int_max_str_digits() to increase the limit"

def ScalarFault.message : ScalarFault → String
  | refused reason => reason
  | tooManyDigits count => tooManyDigitsMessage count
  | codeTooLarge => "Python int too large to convert to C int"
  | weightTooLarge => "int too large to convert to float"
  | unknownFlag text => Text.display text
  | notTimestamp => "'NoneType' object has no attribute 'groupdict'"
  | mappingAsTimestamp => "expected string or bytes-like object, got 'list'"
  | emptyNumber => "string index out of range"
  | endlessDefault => "maximum recursion depth exceeded"

inductive Fault where
  | templateMissing (id : String) (searched : List String)
  | unsupportedArtifact (category kind : String)
  | corruptRoutes (path : String) (flaw : RouteFlaw)
  | configMissing (path : String)
  | configUnparsable (path : String)
  | configNotMapping (found : String)
  | configInvalid (problems : List Problem)
  | invalid (problems : List Problem)
  | os (error : OsError)
  | nullInPath
  | notUtf8
  | noWords (entity : String)
  | unknownVariant (shown : String)
  | unknownMember (name enumeration : String)
  | noAttribute (owner name : String)
  | derivedAttribute (owner name : String)
  | tooManyDigits (count : Nat)
  | badScalar (fault : ScalarFault)
  | backend (fault : BackendFault)
deriving Repr, DecidableEq

namespace Fault

def message : Fault → String
  | templateMissing id searched =>
    s!"Template not found: {id} (searched: " ++ ", ".intercalate searched ++ ")"
  | unsupportedArtifact category kind => s!"Unsupported artifact kind: {category}.{kind}"
  | corruptRoutes path flaw => s!"Route file {path} cannot be merged safely: {flaw.message}"
  | configMissing path => s!"Config file not found: {path}"
  | configUnparsable path => s!"Invalid YAML in {path}"
  | configNotMapping found => s!"Expected a YAML mapping at top level, got {found}."
  | configInvalid problems =>
    let errors := if problems.length = 1 then "error" else "errors"
    s!"Config validation failed: {problems.length} validation {errors} for SmartCrudConfig"
  | invalid problems =>
    let errors := if problems.length = 1 then "error" else "errors"
    s!"{problems.length} validation {errors}"
  | os error => error.message
  | nullInPath => "embedded null byte"
  | notUtf8 => "invalid UTF-8"
  | noWords entity => "Cannot derive names from " ++ Text.display entity ++ "."
  | unknownVariant shown => s!"Unknown variant {shown}; expected one of ('create', 'update')."
  | unknownMember name enumeration => Text.display name ++ s!" is not a valid {enumeration}"
  | noAttribute owner name =>
    Text.display owner ++ " object has no attribute " ++ Text.display name
  | derivedAttribute owner name =>
    "property " ++ Text.display name ++ " of " ++ Text.display owner ++ " object has no setter"
  | tooManyDigits count => tooManyDigitsMessage count
  | badScalar fault => fault.message
  | backend fault => fault.message

/-- The faults that spoil one artifact and leave the run going: the program's own, save for an
artifact that has no place or template, and those of the file system. -/
def spoilsOneArtifact : Fault → Bool
  | templateMissing .. | corruptRoutes .. | configMissing _ | configUnparsable _
  | configNotMapping _ | configInvalid _ | os _ => true
  | backend (.unreachable _) => true
  | _ => false

/-- The faults of the program's own making, which the command line reports by their message. -/
def isOwn : Fault → Bool
  | templateMissing .. | unsupportedArtifact .. | corruptRoutes .. | configMissing _
  | configUnparsable _ | configNotMapping _ | configInvalid _ => true
  | backend (.unreachable _) => true
  | _ => false

end Fault

end Scaffold
