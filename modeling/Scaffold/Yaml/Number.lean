import Scaffold.Text.Lines
import Scaffold.Text.Lower
import Scaffold.Text.Numeral
import Scaffold.Yaml.Cursor

/-!
Numbers in documents. Integers are written in four bases and in groups of sixty (`1:30` is 90),
floating-point numbers with a point; underscores group digits. `isInt` and `isFloat` say which plain
scalars are numbers, `int` and `float` read a scalar that is said to be one.
-/

namespace Scaffold.Yaml.Number

-- powers are those of the core library, whatever else is in scope
attribute [local instance (high)] instPowNat

def isGrouped (c : Char) : Bool :=
  c.isDigit || c == '_'

/-- A digit, and after it digits and underscores. -/
def isDigits : List Char → Bool
  | [] => false
  | c :: rest => c.isDigit && rest.all isGrouped

/-- The digits of one of the lower places in groups of sixty. -/
def isSixtieth : List Char → Bool
  | [a] => a.isDigit
  | [a, b] => '0' ≤ a && a ≤ '5' && b.isDigit
  | _ => false

/-- Digits in groups of sixty, of which there are at least two. -/
def isSixties (first : List Char → Bool) (cs : List Char) : Bool :=
  match Text.splitAtChar ':' cs with
  | [] => false
  | top :: rest => first top && !rest.isEmpty && rest.all isSixtieth

/-- Digits that do not start with zero. -/
def isPositive (cs : List Char) : Bool :=
  isDigits cs && cs.head? ≠ some '0'

def isInt (s : String) : Bool :=
  match Text.unsigned s.toList with
  | ['0'] => true
  | '0' :: 'b' :: rest => Text.isRun (fun c => c == '0' || c == '1' || c == '_') rest
  | '0' :: 'x' :: rest =>
    Text.isRun (fun c => isGrouped c || 'a' ≤ c && c ≤ 'f' || 'A' ≤ c && c ≤ 'F') rest
  | '0' :: rest => Text.isRun (fun c => '0' ≤ c && c ≤ '7' || c == '_') rest
  | cs => isPositive cs || isSixties isPositive cs

/-- Nothing, or an exponent, whose sign is written. -/
def isExponent : List Char → Bool
  | [] => true
  | e :: sign :: rest =>
    (e == 'e' || e == 'E') && (sign == '+' || sign == '-') && Text.isRun Char.isDigit rest
  | _ => false

def isFloat (s : String) : Bool :=
  let cs := s.toList
  let body := Text.unsigned cs
  let whole := body.takeWhile (· ≠ '.')
  let fraction := body.drop (whole.length + 1)
  if !body.contains '.' then false
  else if whole.isEmpty then
    let isNamed (names : List String) := names.contains (.ofList fraction)
    isNamed ["inf", "Inf", "INF"] ||
      body.length = cs.length &&
        (isNamed ["nan", "NaN", "NAN"] ||
          fraction.head?.any Char.isDigit && isExponent (fraction.dropWhile isGrouped))
  else
    isDigits whole && isExponent (fraction.dropWhile isGrouped) ||
      isSixties isDigits whole && fraction.all isGrouped

/-- The integer that digits in a base write. -/
def integer (base : Nat) (cs : List Char) : Except Refusal Int :=
  (Text.integerIn base cs).mapError .scalar

/-- The floating-point number that decimal digits write. -/
def decimal (cs : List Char) : Except Refusal Float :=
  (Text.decimal cs).mapError .scalar

/-- The value of an integer scalar: a leading zero or letter after it tells the base. -/
def int (s : String) : Except Refusal Int := do
  let cs := s.toList.filter (· ≠ '_')
  let body := Text.unsigned cs
  let n ← match body with
    | [] => throw (.scalar .emptyNumber)
    | ['0'] => pure 0
    | '0' :: 'b' :: rest => integer 2 rest
    | '0' :: 'x' :: rest => integer 16 rest
    | '0' :: _ => integer 8 body
    | _ =>
      if body.contains ':' then do
        let places ← (Text.splitAtChar ':' body).mapM (integer 10)
        pure (places.foldl (fun n d => 60 * n + d) 0)
      else integer 10 body
  pure (if cs.head? = some '-' then -n else n)

/-- The characters of a floating-point scalar that count, in lower case. -/
def floatChars (s : String) : List Char :=
  Text.lowerChars [] (s.toList.filter (· ≠ '_'))

/-- Whether a floating-point scalar stands for no number at all. -/
def isNone (s : String) : Bool :=
  String.ofList (Text.unsigned (floatChars s)) = ".nan"

/-- The value of a floating-point scalar. -/
def float (s : String) : Except Refusal Float := do
  let cs := floatChars s
  let body := Text.unsigned cs
  if cs.isEmpty then throw (.scalar .emptyNumber)
  if isNone s then return 0.0 / 0.0
  let x ←
    if String.ofList body = ".inf" then pure (1.0 / 0.0)
    else if body.contains ':' then do
      let places ← (Text.splitAtChar ':' body).mapM decimal
      if Float.isInf (Float.ofNat (60 ^ (places.length - 1))) then throw (.scalar .weightTooLarge)
      pure (places.reverse.foldl
        (fun (x, weight) d => (x + d * Float.ofNat weight, 60 * weight)) (0.0, 1)).1
    else decimal body
  pure (if cs.head? = some '-' then -x else x)

end Scaffold.Yaml.Number
