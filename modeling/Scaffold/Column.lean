import Scaffold.Shape.Record
import Scaffold.Text.Digit
import Scaffold.Text.Search

/-!
The columns of a table. The type that a database reports is a free text; it is put into one of four
classes by the words in it, and the size in parentheses becomes the maximum length.
-/

namespace Scaffold

inductive ColumnClass where
  | integer
  | float
  | boolean
  | text
deriving Repr, DecidableEq

namespace ColumnClass

def all : List ColumnClass := [integer, float, boolean, text]

def name : ColumnClass → String
  | integer => "integer"
  | float => "float"
  | boolean => "boolean"
  | text => "text"

/-- The PHP type of the values. -/
def phpType : ColumnClass → String
  | integer => "int"
  | float => "float"
  | boolean => "bool"
  | text => "string"

/-- The PHP literal of the default value. -/
def defaultLiteral : ColumnClass → String
  | integer => "0"
  | float => "0.0"
  | boolean => "false"
  | text => "''"

/-- The types of a single bit. -/
def flagTypes : List String := ["tinyint(1)", "bit", "bit(1)"]

/-- Words with `int` in them that name no integer type. -/
def intLookalikes : List String := ["interval", "point"]

def floatMarkers : List String := ["decimal", "float", "double", "numeric", "real"]

/-- The class of a reported type. The case of letters does not matter. -/
def ofRaw (raw : String) : ColumnClass :=
  let low := Name.lower (Text.stripped raw)
  let has := Text.mentions low
  if flagTypes.contains low || has "bool" then boolean
  else if has "int" && !intLookalikes.any has then integer
  else if floatMarkers.any has then float
  else text

end ColumnClass

/-- The first run of digits that fills a pair of parentheses. -/
def sizeDigits? : List Char → Option (List Char)
  | [] => none
  | c :: cs =>
    let digits := cs.takeWhile Text.isDecimalDigit
    if c = '(' && !digits.isEmpty && (cs.drop digits.length).head? == some ')' then some digits
    else sizeDigits? cs

/-- The maximum length in a reported type. A size of zero is none. -/
def maxLength? (raw : String) : Except Fault (Option Nat) :=
  match sizeDigits? raw.toList with
  | none => .ok none
  | some digits =>
    if digitLimit < digits.length then .error (.tooManyDigits digits.length)
    else .ok (some (Text.decimalValue digits) |>.filter (0 < ·))

/-- A column as the generated code sees it. Its name is never empty where it was checked. -/
structure Column where
  name : String
  type : ColumnClass := .text
  nullable : Bool := false
  maxLength : Option Nat := none
  /-- Left out of data objects and validation rules. -/
  excluded : Bool := false
deriving Repr, DecidableEq

namespace Column

def schema : Record Column where
  kind := "ColumnDescriptor"
  initial := { name := "" }
  fields :=
    [.mandatory "name" .filledText (·.name) fun x c => { c with name := x },
     .of "inferred_type" (.choice ColumnClass.all ColumnClass.name) (·.type) fun x c =>
       { c with type := x },
     .of "nullable" .flag (·.nullable) fun x c => { c with nullable := x },
     .of "max_length" (.optional (.number 1 none)) (·.maxLength) fun x c =>
       { c with maxLength := x },
     .of "is_default_excluded" .flag (·.excluded) fun x c => { c with excluded := x }]

def ofValue (v : Value) : Except Fault Column :=
  (schema.read v).mapError .invalid

/-- The column with a name that was checked not to be empty. -/
def checked (c : Column) : Except Fault Column :=
  if c.name.isEmpty then .error (.invalid [⟨["name"], .textTooShort⟩]) else .ok c

/-- The column that a database reports as `raw`. Without a type it is taken as required text of any
length. -/
def ofRaw (name : String) (raw : Option String) (nullable excluded : Bool) : Except Fault Column :=
  match raw with
  | none => checked { name, excluded }
  | some raw => do
    let maxLength ← maxLength? raw
    checked { name, type := .ofRaw raw, nullable, maxLength, excluded }

/-- The column in angle brackets, for messages. -/
def shown (c : Column) : String :=
  let mark := if c.nullable then "?" else ""
  s!"<ColumnDescriptor {c.name}: {mark}{c.type.name}>"

end Column

end Scaffold
