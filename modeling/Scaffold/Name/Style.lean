import Scaffold.Name.Words

/-!
Case styles. Each style but `snake` is written from the words of a name alone. `snake` has runs of
its own: it keeps a digit with the small letters around it, so `user2` stays one piece.
-/

namespace Scaffold.Name

def capitalise : List Char → List Char
  | [] => []
  | c :: cs => c.toUpper :: cs.map Char.toLower

/-- Pieces end before a capital that follows a small letter or a digit, and before the last capital
of several when a small letter follows it. -/
def snakeCut : Cut := fun a b next =>
  !a.isUpper && b.isUpper || startsCapitalised a b next

/-- `InvoiceLine` -/
def pascal (s : String) : String :=
  .ofList ((words s.toList).flatMap capitalise)

/-- `invoiceLine` -/
def camel (s : String) : String :=
  match words s.toList with
  | [] => ""
  | first :: rest => .ofList (first ++ rest.flatMap capitalise)

/-- `invoice-line` -/
def kebab (s : String) : String :=
  .ofList (['-'].intercalate (words s.toList))

/-- `Invoice Line` -/
def title (s : String) : String :=
  .ofList ([' '].intercalate ((words s.toList).map capitalise))

/-- `invoice_line` -/
def snake (s : String) : String :=
  .ofList (['_'].intercalate ((runs snakeCut s.toList).map (·.map Char.toLower)))

/-- `s` with its ASCII letters in lower case. -/
def lower (s : String) : String :=
  .ofList (s.toList.map Char.toLower)

/-- `s` with its ASCII letters in upper case. -/
def upper (s : String) : String :=
  .ofList (s.toList.map Char.toUpper)

end Scaffold.Name
