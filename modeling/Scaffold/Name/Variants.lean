import Scaffold.Name.Plural

/-!
The spellings of an entity name, in singular and plural, that paths, namespaces and templates use.
Only the last word is pluralised: `SalesPerson` becomes `SalesPeople`.
-/

namespace Scaffold

/-- One name in every style. -/
structure Spellings where
  pascal : String
  camel : String
  kebab : String
  snake : String
  title : String
  lower : String
  upper : String
deriving Repr, DecidableEq

/-- All styles of a name, each made from its Pascal case form. -/
def Spellings.ofPascal (name : String) : Spellings where
  pascal := name
  camel := Name.camel name
  kebab := Name.kebab name
  snake := Name.snake name
  title := Name.title name
  lower := Name.lower name
  upper := Name.upper name

/-- The spellings of one model and of several. -/
structure Naming where
  one : Spellings
  many : Spellings
deriving Repr, DecidableEq

namespace Naming

/-- The table of an entity: its plural in snake case. -/
def table (n : Naming) : String :=
  n.many.snake

/-- The Pascal case plural of a model with words `ws`: the last word is pluralised. -/
def pluralOfWords (ws : List (List Char)) : String :=
  let last := ws.getLast?.map fun w => (Name.plural (.ofList w)).toList
  .ofList ((ws.dropLast ++ last.toList).flatMap Name.capitalise)

/-- The naming of an entity, unless its name has no word at all. -/
def derive? (entity : String) : Option Naming :=
  let model := Name.pascal entity
  match Name.words model.toList with
  | [] => none
  | ws => some { one := .ofPascal model, many := .ofPascal (pluralOfWords ws) }

/-- The placeholders that a naming fills in every template. -/
def substitutions (n : Naming) : List (String × String) :=
  [("model", n.one.pascal), ("modelVariable", n.one.camel), ("modelPlural", n.many.pascal),
   ("modelPluralVariable", n.many.camel), ("modelKebab", n.one.kebab),
   ("modelPluralKebab", n.many.kebab), ("modelSnake", n.one.snake),
   ("modelPluralSnake", n.many.snake), ("modelTitle", n.one.title),
   ("modelPluralTitle", n.many.title), ("modelLower", n.one.lower),
   ("modelPluralLower", n.many.lower), ("modelUpper", n.one.upper),
   ("modelPluralUpper", n.many.upper), ("table", n.table)]

end Naming

end Scaffold
