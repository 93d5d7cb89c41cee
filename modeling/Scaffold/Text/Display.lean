import Scaffold.Text.Printable

/-!
The displayed form of a text, as messages show it: in quotes, with everything unprintable written as
an escape. Single quotes are used unless the text has a single quote and no double quote.
-/

namespace Scaffold.Text

/-- `width` hexadecimal digits in lower case. -/
def hexDigits (width n : Nat) : List Char :=
  let digits := Nat.toDigits 16 n
  List.replicate (width - digits.length) '0' ++ digits

/-- The quote that `display` puts around a text. -/
def displayQuote (cs : List Char) : Char :=
  if cs.contains '\'' && !cs.contains '"' then '"' else '\''

/-- A character inside displayed text that stands in quotes `quote`. -/
def displayChar (quote c : Char) : List Char :=
  if c = quote || c = '\\' then ['\\', c]
  else if c = '\n' then ['\\', 'n']
  else if c = '\t' then ['\\', 't']
  else if c = '\r' then ['\\', 'r']
  else if isPrintable c then [c]
  else
    let n := c.toNat
    if n < 0x100 then '\\' :: 'x' :: hexDigits 2 n
    else if n < 0x10000 then '\\' :: 'u' :: hexDigits 4 n
    else '\\' :: 'U' :: hexDigits 8 n

/-- The text in quotes, on one line. -/
def display (s : String) : String :=
  let cs := s.toList
  let quote := displayQuote cs
  .ofList (quote :: cs.flatMap (displayChar quote) ++ [quote])

end Scaffold.Text
