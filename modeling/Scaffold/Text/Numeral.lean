import Scaffold.Fault
import Scaffold.Text.Digit
import Scaffold.Text.Integer

/-!
Numbers written in text, on their own: an integer in some base, a decimal number with a point and an
exponent. Digits of every script count. Where a text writes no number the fault shows the text.
-/

namespace Scaffold.Text

/-- What follows a sign, if there is one. -/
def unsigned : List Char → List Char
  | '+' :: rest | '-' :: rest => rest
  | cs => cs

/-- Whether all of `cs` satisfies `p`, and there is something. -/
def isRun (p : Char → Bool) (cs : List Char) : Bool :=
  !cs.isEmpty && cs.all p

/-- The value of a digit or letter as a digit. -/
def digit? (c : Char) : Option Nat :=
  if 'a' ≤ c && c ≤ 'z' then some (c.toNat - 87)
  else if 'A' ≤ c && c ≤ 'Z' then some (c.toNat - 55)
  else digitValue? c

/-- The letter that may stand behind a zero in front of digits in a base. -/
def baseLetter (base : Nat) : Option Char :=
  match base with
  | 2 => some 'b'
  | 8 => some 'o'
  | 16 => some 'x'
  | _ => none

/-- What stands behind the mark of a base. -/
def unmarked (base : Nat) : List Char → List Char
  | '0' :: x :: rest => if some x.toLower = baseLetter base then rest else '0' :: x :: rest
  | cs => cs

/-- The value of a digit in a base. -/
def digitIn? (base : Nat) (c : Char) : Option Nat :=
  (digit? c).filter (· < base)

/-- The longest text that a message about an unreadable number shows of it. -/
def shownLimit : Nat := 200

/-- The integer that the whole of `cs` writes in a base, with blanks around the digits, a sign and
the base's mark. The number of decimal digits is limited. -/
def integerIn (base : Nat) (cs : List Char) : Except ScalarFault Int :=
  let inner := stripNumber cs
  let body := unmarked base (unsigned inner)
  let digits := body.map (digitIn? base)
  let count := (digits.takeWhile (·.isSome)).length
  if base = 10 && digitLimit < count then .error (.tooManyDigits count)
  else if body.isEmpty || count < body.length then
    let shown := (display (.ofList cs)).toList.take shownLimit
    .error (.refused (s!"invalid literal for int() with base {base}: " ++ .ofList shown))
  else
    let n := digits.foldl (fun n d => base * n + d.getD 0) 0
    .ok (if inner.head? = some '-' then -(n : Int) else n)

/-- `digits · 10 ^ exponent`, where digits or exponent may be out of all proportion. -/
def scaled (digits : Nat) (length : Nat) (exponent : Int) : Float :=
  if digits = 0 || exponent + length < -400 then 0.0
  else if 400 < exponent + length then 1.0 / 0.0
  else if exponent < 0 then Float.ofScientific digits true exponent.natAbs
  else Float.ofScientific digits false exponent.natAbs

/-- The number that an unsigned decimal text in lower case writes, with or without a point and an
exponent. -/
def decimal? (cs : List Char) : Option Float := do
  if ["inf", "infinity"].contains (String.ofList cs) then return 1.0 / 0.0
  if String.ofList cs = "nan" then return 0.0 / 0.0
  let mantissa := cs.takeWhile (· ≠ 'e')
  let exponent ← match cs.drop mantissa.length with
    | [] => some 0
    | _ :: power => do
      guard (isRun isDecimalDigit (unsigned power))
      let n : Int := decimalValue (unsigned power)
      pure (if power.head? = some '-' then -n else n)
  let whole := mantissa.takeWhile (· ≠ '.')
  let fraction := mantissa.drop (whole.length + 1)
  guard (isRun isDecimalDigit (whole ++ fraction))
  let digits := (whole ++ fraction).dropWhile (digitValue? · = some 0)
  pure (scaled (decimalValue digits) digits.length (exponent - fraction.length))

/-- The number that the whole of `cs` writes, with blanks around it and a sign. -/
def decimal (cs : List Char) : Except ScalarFault Float :=
  let body := stripNumber cs
  match decimal? ((unsigned body).map Char.toLower) with
  | none =>
    .error (.refused ("could not convert string to float: " ++ display (.ofList cs)))
  | some x => .ok (if body.head? = some '-' then -x else x)

end Scaffold.Text
