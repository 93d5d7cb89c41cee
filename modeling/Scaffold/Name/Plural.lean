import Scaffold.Name.Style
import Scaffold.Text.Search

/-!
English plurals of single words, good enough for class and table names. Tables of irregular and of
uncountable words are asked first, then endings in a fixed order. Words are compared in lower case;
an irregular form keeps a capital first letter and otherwise stands in lower case.
-/

namespace Scaffold.Name

/-- Singular and plural of the irregular words. -/
def irregular : List (String × String) :=
  [("person", "people"), ("child", "children"), ("man", "men"), ("woman", "women"),
   ("mouse", "mice"), ("goose", "geese"), ("tooth", "teeth"), ("foot", "feet"), ("datum", "data"),
   ("index", "indices"), ("matrix", "matrices"), ("vertex", "vertices"), ("axis", "axes"),
   ("crisis", "crises"), ("analysis", "analyses"), ("status", "statuses"),
   ("address", "addresses")]

/-- Words whose plural is the word itself. -/
def uncountable : List String :=
  ["equipment", "information", "rice", "money", "species", "series", "fish", "sheep", "news"]

def irregularPlural? (word : String) : Option String :=
  irregular.lookup word

def irregularSingular? (word : String) : Option String :=
  (irregular.map fun (one, many) => (many, one)).lookup word

/-- `word` with a capital first letter when `model` has one. -/
def withCapitalOf (model word : String) : String :=
  match model.toList.head?, word.toList with
  | some first, c :: cs => if first.isUpper then .ofList (c.toUpper :: cs) else word
  | _, _ => word

/-- Whether the last letter but one of a word in lower case is no vowel. -/
def consonantBeforeLast (cs : List Char) : Bool :=
  match cs.reverse with
  | _ :: c :: _ => !(['a', 'e', 'i', 'o', 'u'].contains c)
  | _ => false

/-- `s` without its last `n` characters. -/
def dropLast (n : Nat) (s : String) : String :=
  .ofList (s.toList.take (s.toList.length - n))

/-- The plural by the word's ending; the first ending that fits decides. -/
def pluralByEnding (word : String) : String :=
  let ends := Text.endsWith (lower word)
  let consonant := consonantBeforeLast (lower word).toList
  if ["sh", "ch", "x", "z", "ss", "us"].any ends then word ++ "es"
  else if ends "s" then word
  else if ends "y" && consonant then dropLast 1 word ++ "ies"
  else if ends "fe" then dropLast 2 word ++ "ves"
  else if ends "f" && !ends "ff" then dropLast 1 word ++ "ves"
  else if ends "o" && consonant then word ++ "es"
  else word ++ "s"

/-- The plural of a word. A word that is an irregular plural already stays. -/
def plural (word : String) : String :=
  let low := lower word
  if word.isEmpty || uncountable.contains low then word
  else match irregularPlural? low with
    | some many => withCapitalOf word many
    | none => if (irregularSingular? low).isSome then word else pluralByEnding word

/-- The singular by the word's ending; the first ending that fits decides. -/
def singularByEnding (word : String) : String :=
  let ends := Text.endsWith (lower word)
  if ends "ies" && 3 < word.length then dropLast 3 word ++ "y"
  else if ends "ves" then dropLast 3 word ++ "f"
  else if ["ches", "shes", "sses", "xes", "zes", "uses"].any ends then dropLast 2 word
  else if ends "s" && !ends "ss" then dropLast 1 word
  else word

/-- The singular of a word. A word that has an irregular plural stays. -/
def singular (word : String) : String :=
  let low := lower word
  if word.isEmpty || uncountable.contains low || (irregularPlural? low).isSome then word
  else match irregularSingular? low with
    | some one => withCapitalOf word one
    | none => singularByEnding word

end Scaffold.Name
