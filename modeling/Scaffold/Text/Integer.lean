import Scaffold.Text.Blank

/-!
Integers in configuration text: blanks around the number, a sign, leading zeros, single underscores
between digits and a fraction of zeros are allowed. What is left when these are dropped is a plain
integer: a minus sign or none, and digits of which the first is no zero unless it is the only one.
-/

namespace Scaffold.Text

/-- The blanks that may stand around a number: all but the four ASCII separators. -/
def isNumberBlank (c : Char) : Bool :=
  isBlank c && !(0x1c ≤ c.toNat && c.toNat ≤ 0x1f)

/-- Drops the blanks around a number. -/
def stripNumber (cs : List Char) : List Char :=
  dropEndWhile isNumberBlank (cs.dropWhile isNumberBlank)

/-- Drops a plus sign that no minus sign follows. -/
def dropPlus : List Char → List Char
  | '+' :: '-' :: cs => '+' :: '-' :: cs
  | '+' :: cs => cs
  | cs => cs

/-- Drops leading zeros, which may be grouped by underscores, and keeps one where nothing else is
left. A minus sign may stand in front of them or behind them. Text that starts with neither a digit
nor a minus sign is refused. -/
def dropZeros? (cs : List Char) : Option (List Char) :=
  match cs with
  | '0' :: _ =>
    let zeros := cs.takeWhile fun c => c == '0' || c == '_'
    match cs.drop zeros.length with
    | [] => zeros.getLast?.map ([·])
    | '.' :: rest => zeros.getLast?.map (· :: '.' :: rest)
    | c :: rest => if c.isDigit || c == '-' then some (c :: rest) else none
  | c :: _ => if c.isDigit || c == '-' then some cs else none
  | [] => none

/-- Drops a fraction that consists of zeros, of which there is at least one. -/
def dropZeroFraction (cs : List Char) : List Char :=
  let whole := cs.takeWhile (· ≠ '.')
  let fraction := cs.drop (whole.length + 1)
  if !fraction.isEmpty && fraction.all (· == '0') then whole else cs

/-- Whether some underscore has another one or a minus sign in front. -/
def hasLooseUnderscore : List Char → Bool
  | [] => false
  | c :: cs => (c == '_' || c == '-') && cs.head? == some '_' || hasLooseUnderscore cs

/-- Drops the underscores if each of them stands between digits. -/
def dropUnderscores (cs : List Char) : List Char :=
  if cs.head? == some '_' || cs.getLast? == some '_' || hasLooseUnderscore cs then cs
  else cs.filter (· ≠ '_')

/-- What a text writes as an integer. -/
inductive IntegerText where
  | number (n : Int)
  | tooLong
  | unreadable
deriving Repr, DecidableEq

/-- The most characters that a plain integer has. -/
def integerLimit : Nat := 4300

/-- Reads digits behind a sign of `signs` characters. -/
def IntegerText.ofDigits (signs : Nat) (cs : List Char) : IntegerText :=
  let run := cs.takeWhile Char.isDigit
  if run.isEmpty then unreadable
  else if run.head? = some '0' && cs ≠ ['0'] then unreadable
  else if integerLimit < signs + run.length then tooLong
  else if run.length < cs.length then unreadable
  else number (run.foldl (fun n c => 10 * n + (c.toNat - 48)) 0 : Nat)

def IntegerText.negated : IntegerText → IntegerText
  | number n => number (-n)
  | r => r

/-- Reads a plain integer. -/
def IntegerText.ofPlain : List Char → IntegerText
  | '-' :: cs => (ofDigits 1 cs).negated
  | cs => ofDigits 0 cs

/-- Reads the integer that a text writes. -/
def IntegerText.ofString (s : String) : IntegerText :=
  match dropZeros? (dropPlus (stripNumber s.toList)) with
  | none => unreadable
  | some cs => ofPlain (dropUnderscores (dropZeroFraction cs))

end Scaffold.Text
