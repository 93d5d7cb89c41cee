import Scaffold.Decimal.Shortest
import Scaffold.Text.Display

/-!
Plain values, as configuration files and requests hold them before they are checked: scalars, lists,
sets and mappings. Mappings keep their pairs in order.
-/

namespace Scaffold

/-- A day, and possibly a time of that day with its distance from universal time in seconds. -/
structure Timestamp where
  year : Nat
  month : Nat
  day : Nat
  time : Option (Nat × Nat × Nat × Nat)
  zone : Option Int
deriving Repr, DecidableEq

inductive Value where
  | null
  | bool (b : Bool)
  | int (n : Int)
  | float (x : Float)
  | text (s : String)
  /-- Text with lone halves of surrogate pairs, for which replacement characters stand here. -/
  | brokenText (s : String)
  | bytes (b : ByteArray)
  | timestamp (t : Timestamp)
  | list (items : List Value)
  | set (items : List Value)
  | map (pairs : List (Value × Value))
deriving Inhabited

/-- The days before a day, from a fixed day on; years start in March, so that a leap day ends one. -/
def Timestamp.dayNumber (t : Timestamp) : Nat :=
  let year := if t.month ≤ 2 then t.year - 1 else t.year
  let month := if t.month ≤ 2 then t.month + 9 else t.month - 3
  365 * year + year / 4 - year / 100 + year / 400 + (153 * month + 2) / 5 + t.day

/-- The instant in universal time, in millionths of a second, if the timestamp has a zone. -/
def Timestamp.instant? (t : Timestamp) : Option Int := do
  let (hour, minute, second, micro) ← t.time
  let zone ← t.zone
  let seconds : Int := (t.dayNumber * 86400 + hour * 3600 + minute * 60 + second : Nat) - zone
  pure (seconds * 1000000 + micro)

/-- Whether two timestamps are the same: instants where both have a zone, digits otherwise. -/
def Timestamp.same (a b : Timestamp) : Bool :=
  match a.instant?, b.instant? with
  | some i, some j => i == j
  | _, _ => a == b

/-- The constructor call that makes a timestamp, as messages show it. -/
def Timestamp.display (t : Timestamp) : String :=
  let day := s!"{t.year}, {t.month}, {t.day}"
  match t.time with
  | none => s!"datetime.date({day})"
  | some (hour, minute, second, micro) =>
    let fine := if micro ≠ 0 then s!", {second}, {micro}" else if second ≠ 0 then s!", {second}" else ""
    let zone := match t.zone with
      | none => ""
      | some 0 => ", tzinfo=datetime.timezone.utc"
      | some seconds =>
        let days := Int.fdiv seconds 86400
        let rest := Int.fmod seconds 86400
        let parts := (if days = 0 then [] else [s!"days={days}"]) ++
          (if rest = 0 then [] else [s!"seconds={rest}"])
        ", tzinfo=datetime.timezone(datetime.timedelta(" ++ ", ".intercalate parts ++ "))"
    s!"datetime.datetime({day}, {hour}, {minute}{fine}{zone})"

/-- Bytes in quotes, with the unprintable ones as escapes. -/
def displayBytes (b : ByteArray) : String :=
  let cs := b.toList.map fun x => Char.ofNat x.toNat
  let quote := Text.displayQuote cs
  let shown (c : Char) := if c.toNat < 0x7f then Text.displayChar quote c
    else '\\' :: 'x' :: Text.hexDigits 2 c.toNat
  .ofList ('b' :: quote :: cs.flatMap shown ++ [quote])

namespace Value

/-- The name of a value's type. -/
def typeName : Value → String
  | null => "NoneType"
  | bool _ => "bool"
  | int _ => "int"
  | float _ => "float"
  | text _ | brokenText _ => "str"
  | bytes _ => "bytes"
  | timestamp t => if t.time.isSome then "datetime" else "date"
  | list _ => "list"
  | set _ => "set"
  | map _ => "dict"

/-- The text that stands for a scalar inside other text. -/
def shown : Value → String
  | null => "None"
  | bool true => "True"
  | bool false => "False"
  | int n => toString n
  | float x => Decimal.shortest x
  | text s | brokenText s => s
  | bytes b => displayBytes b
  | timestamp t => t.display
  | list _ => ""
  | set _ => ""
  | map _ => ""

mutual

/-- The value as messages show it, with quotes around texts. -/
def display : Value → String
  | text s | brokenText s => Text.display s
  | list vs => "[" ++ ", ".intercalate (displayAll vs) ++ "]"
  | set [] => "set()"
  | set vs => "\x7b" ++ ", ".intercalate (displayAll vs) ++ "\x7d"
  | map pairs => "\x7b" ++ ", ".intercalate (displayPairs pairs) ++ "\x7d"
  | v => v.shown

def displayAll : List Value → List String
  | [] => []
  | v :: vs => v.display :: displayAll vs

def displayPairs : List (Value × Value) → List String
  | [] => []
  | (k, v) :: rest => (k.display ++ ": " ++ v.display) :: displayPairs rest

end

/-- A mapping key as it stands in the place of a problem. There three characters replace half of a
surrogate pair. -/
def keyText : Value → String
  | bool b => if b then "1" else "0"
  | brokenText s => .ofList (s.toList.flatMap fun c => .replicate (if c = '\ufffd' then 3 else 1) c)
  | v => v.shown

/-- The integer that a flag or an integer stands for. -/
def number? : Value → Option Int
  | bool b => some (if b then 1 else 0)
  | int n => some n
  | _ => none

/-- Whether a floating-point number is the integer `n`. -/
def floatIs (x : Float) (n : Int) : Bool :=
  if x.isNaN || x.isInf then false
  else
    let (num, den) := Decimal.ratio x
    (if Decimal.isNegative x then -(num : Int) else num) == n * den

/-- Whether two scalars are one and the same mapping key: flags count as the numbers 0 and 1, and
numbers of both kinds are compared by value. -/
def sameKey : Value → Value → Bool
  | null, null => true
  | text a, text b => a == b
  | brokenText a, brokenText b => a == b
  | bytes a, bytes b => a == b
  | timestamp a, timestamp b => a.same b
  | float a, float b => a == b
  | float a, b => (b.number?).any (floatIs a)
  | a, float b => (a.number?).any (floatIs b)
  | a, b => match a.number?, b.number? with
    | some m, some n => m == n
    | _, _ => false

/-- The value that a mapping holds under a text key. -/
def lookup (name : String) (pairs : List (Value × Value)) : Option Value :=
  (pairs.find? fun p => p.1.sameKey (.text name)).map Prod.snd

/-- `pairs` with `v` under `k`: a key that is there keeps its place. -/
def insert (k v : Value) (pairs : List (Value × Value)) : List (Value × Value) :=
  if pairs.any (·.1.sameKey k) then pairs.map fun p => if p.1.sameKey k then (p.1, v) else p
  else pairs ++ [(k, v)]

/-- The pairs of a list that stand there, the value last given under each key with the first key. -/
def distinct (pairs : List (Value × Value)) : List (Value × Value) :=
  pairs.foldl (fun acc (k, v) => insert k v acc) []

end Value

end Scaffold
