import Scaffold.Fault
import Scaffold.Name.Style
import Scaffold.Path
import Scaffold.Text.Integer
import Scaffold.Value

/-!
Shapes: what plain values a type accepts. Reading a value gives a member of the type or every problem
with it; writing gives the plain value back. A scalar accepts a few spellings besides its own: a flag
takes `yes`, a number takes digits in text.
-/

namespace Scaffold

/-- What an assignment to an attribute leads to: the attribute's value afterwards, and why it was
refused, if it was. -/
structure Assigned where
  now : Value
  refused : Option Fault

structure Shape (α : Type) where
  /-- The member that a plain value stands for. -/
  read : Value → Except (List Problem) α
  /-- The plain value of a member. -/
  write : α → Value
  /-- Assigns to the attribute that a list of names leads to. -/
  assign : List String → Value → α → Except Fault (α × Assigned)

namespace Shape

/-- The single problem with a value that is seen on its own. -/
def problem (kind : ProblemKind) : Except (List Problem) α :=
  .error [⟨[], kind⟩]

/-- The attribute under which a record shows its plain value. Other values have none of that name, so
after an assignment to one of their attributes nothing can be said about the outcome. -/
def plainValueAttribute : String := "model_dump"

/-- Why nothing can be assigned below a value of type `owner`, which is no record. -/
def belowLeaf (owner : String) : List String → Fault
  | name :: _ :: _ => .noAttribute owner name
  | _ => .noAttribute owner plainValueAttribute

/-- A shape without attributes, whose members are shown as values of type `owner`. -/
def leaf (owner : α → String) (read : Value → Except (List Problem) α) (write : α → Value) :
    Shape α where
  read := read
  write := write
  assign names _ a := .error (belowLeaf (owner a) names)

def readText : Value → Except (List Problem) String
  | .text s | .brokenText s => .ok s
  | .bytes b => match String.fromUTF8? b with
    | some s => .ok s
    | none => problem .textNotUtf8
  | _ => problem .notText

def text : Shape String :=
  leaf (fun _ => "str") readText .text

/-- Reads text of which the length matters, which is unknown of broken text. -/
def readFilledText : Value → Except (List Problem) String
  | .brokenText _ => problem .textNotUtf8
  | v => do
    let s ← readText v
    if s.isEmpty then problem .textTooShort else pure s

/-- Text of at least one character. -/
def filledText : Shape String :=
  leaf (fun _ => "str") readFilledText .text

/-- A shape that also takes null. -/
def optional (shape : Shape α) : Shape (Option α) where
  read
    | .null => .ok none
    | v => (shape.read v).map some
  write
    | none => .null
    | some a => shape.write a
  assign names v
    | none => .error (belowLeaf "NoneType" names)
    | some a => (shape.assign names v a).map fun (a, r) => (some a, r)

def path : Shape Path :=
  leaf (fun _ => "PosixPath")
    (fun v => match v with
      | .text s | .brokenText s => .ok (.ofString s)
      | _ => problem .notPath)
    fun p => .text p.toString

/-- The spellings of a flag, in lower case. -/
def flagSpellings : List (String × Bool) :=
  [("0", false), ("off", false), ("f", false), ("false", false), ("n", false), ("no", false),
   ("1", true), ("on", true), ("t", true), ("true", true), ("y", true), ("yes", true)]

/-- Signed numbers of 64 bits are below this one. -/
def wordBound : Nat := 0x8000000000000000

/-- The integer that a number without fraction is. -/
def wholeNumber (x : Float) : Except (List Problem) Int :=
  if x.isNaN || x.isInf then problem .numberNotFinite
  else
    let (num, den) := Decimal.ratio x
    if num % den ≠ 0 then problem .numberWithFraction
    else if wordBound ≤ num / den then problem .numberTooLong
    else .ok (if Decimal.isNegative x then -(num / den : Nat) else (num / den : Nat))

/-- The flag that an integer stands for, which has at most 64 bits. -/
def flagOfNumber (n : Int) : Except (List Problem) Bool :=
  if n < -wordBound || wordBound ≤ n then problem .notFlag
  else if n = 0 then .ok false else if n = 1 then .ok true else problem .flagUnreadable

def readFlag : Value → Except (List Problem) Bool
  | .bool b => .ok b
  | .text s => match flagSpellings.lookup (Name.lower s) with
    | some b => .ok b
    | none => problem .flagUnreadable
  | .int n => flagOfNumber n
  | .float x => match wholeNumber x with
    | .ok n => flagOfNumber n
    | .error _ => problem .notFlag
  | _ => problem .notFlag

def flag : Shape Bool :=
  leaf (fun _ => "bool") readFlag .bool

def integerOfText (s : String) : Except (List Problem) Int :=
  match Text.IntegerText.ofString s with
  | .number n => .ok n
  | .tooLong => problem .numberTooLong
  | .unreadable => problem .numberUnreadable

def readInteger : Value → Except (List Problem) Int
  | .int n => .ok n
  | .bool b => .ok (if b then 1 else 0)
  | .float x => wholeNumber x
  | .text s => integerOfText s
  | .brokenText _ => problem .textNotUtf8
  | .bytes b => match String.fromUTF8? b with
    | some s => integerOfText s
    | none => problem .numberUnreadable
  | _ => problem .notNumber

/-- A number from `low` on, up to `high` if there is one. -/
def number (low : Nat) (high : Option Nat) : Shape Nat :=
  leaf (fun _ => "int")
    (fun v => do
      let n ← readInteger v
      if n < low then problem .numberTooSmall
      else match high with
        | some high => if (high : Int) < n then problem .numberTooLarge else pure n.toNat
        | none => pure n.toNat)
    fun n => .int n

/-- One of a few named choices. -/
def choice (choices : List α) (name : α → String) : Shape α :=
  leaf (fun _ => "str")
    (fun v => match v with
      | .text s => match choices.find? (name · == s) with
        | some a => .ok a
        | none => problem .notAChoice
      | _ => problem .notAChoice)
    fun a => .text (name a)

/-- All members of a list, or the problems of all its items. -/
def collect : List (Except (List Problem) α) → Except (List Problem) (List α)
  | [] => .ok []
  | r :: rs => match r, collect rs with
    | .ok a, .ok as => .ok (a :: as)
    | .ok _, .error qs => .error qs
    | .error ps, .ok _ => .error ps
    | .error ps, .error qs => .error (ps ++ qs)

/-- `r` with its problems seen from the place `key`. -/
def under (key : String) (r : Except (List Problem) α) : Except (List Problem) α :=
  r.mapError (·.map (·.under key))

/-- The items of a list or set. -/
def items? : Value → Option (List Value)
  | .list vs => some vs
  | .set vs => some vs
  | _ => none

def texts : Shape (List String) :=
  leaf (fun _ => "list")
    (fun v => match items? v with
      | some vs => collect (vs.mapIdx fun i v => under (toString i) (readText v))
      | none => problem .notList)
    fun ss => .list (ss.map .text)

/-- A pair of a mapping from text to text. A problem with the key itself stands below it. -/
def readTextPair (k v : Value) : Except (List Problem) (String × String) :=
  under k.keyText <| match under "[key]" (readText k), readText v with
    | .ok a, .ok b => .ok (a, b)
    | .ok _, .error qs => .error qs
    | .error ps, .ok _ => .error ps
    | .error ps, .error qs => .error (ps ++ qs)

def textMap : Shape (List (String × String)) :=
  leaf (fun _ => "dict")
    (fun v => match v with
      | .map pairs => collect (pairs.map fun (k, v) => readTextPair k v)
      | _ => problem .notMap)
    fun pairs => .map (pairs.map fun (k, v) => (.text k, .text v))

end Shape

end Scaffold
