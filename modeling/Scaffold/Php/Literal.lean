/-!
String literals of PHP. In single quotes only the backslash and the quote itself are escaped.
-/

namespace Scaffold.Php

/-- The inside of a single-quoted literal. -/
def escape : List Char → List Char
  | [] => []
  | c :: cs => if c = '\\' || c = '\'' then '\\' :: c :: escape cs else c :: escape cs

/-- The single-quoted literal of a text. -/
def quote (s : String) : String :=
  .ofList ('\'' :: escape s.toList ++ ['\''])

/-- An array literal of texts, on one line. -/
def list (items : List String) : String :=
  "[" ++ ", ".intercalate (items.map quote) ++ "]"

end Scaffold.Php
