import Scaffold.Proofs.Fields.Absent
import Scaffold.Proofs.Php.Literal

/-!
# The blocks of a data object

The constructor, the arguments from a request, the entries of the array and the rules are four lists of lines. Each is
written from a list of what the lines say, and these lists go together field by field (`Fields.blocks_parallel`): they
name the same fields in the same order, and what stands for an absent field is a value of the declared type.
-/

namespace Scaffold

namespace Php

def isNumber (cs : List Char) : Bool :=
  !cs.isEmpty && cs.all Char.isDigit

/-- The type of a literal that is not null. -/
def scalarType? (literal : String) : Option String :=
  let cs := literal.toList
  if literal = "true" || literal = "false" then some "bool"
  else if isNumber cs then some "int"
  else if isNumber (cs.takeWhile (· ≠ '.')) && isNumber ((cs.dropWhile (· ≠ '.')).drop 1) then some "float"
  else if (literal? cs).any (·.2.isEmpty) then some "string"
  else none

end Php

/-- A property that is a parameter of the constructor. -/
structure Property where
  name : String
  type : String
  takesNull : Bool
  default : Option String
deriving Repr, DecidableEq

def Property.text (p : Property) : String :=
  let mark := if p.takesNull then "?" else ""
  let default := p.default.elim "" (" = " ++ ·)
  Fields.propertyIndent ++ s!"public readonly {mark}{p.type} ${p.name}{default}"

/-- An entry of the array that a data object is written as. -/
structure Item where
  key : String
  property : String
deriving Repr, DecidableEq

def Item.text (e : Item) : String :=
  Fields.entryIndent ++ s!"'{e.key}' => $this->{e.property}"

/-- The rules of a field of a request. -/
structure Check where
  key : String
  rules : List String
  /-- Whether the key of the record stands behind the last rule. -/
  exceptOwn : Bool := false
deriving Repr, DecidableEq

def Check.text (k : Check) : String :=
  Fields.entryIndent ++ s!"'{k.key}' => '" ++ "|".intercalate k.rules ++ "'" ++
    (if k.exceptOwn then " . $this->route('id')" else "")

namespace Fields

/-- The fields of a data object. Where no column is known these are a name and a description that may be missing. -/
def properties (f : Fields) : List Column :=
  if f.hasSchema then f.fillable else [{ name := "name" }, { name := "description", nullable := true }]

def property (v : Variant) (c : Column) : Property where
  name := c.name
  type := c.type.phpType
  takesNull := v = .update || c.nullable
  default := if v = .update || c.nullable then some "null" else none

def argument (c : Column) : Argument := ⟨c.name, fallback c⟩

def item (c : Column) : Item := ⟨c.name, c.name⟩

def check (f : Fields) (v : Variant) (c : Column) : Check :=
  ⟨c.name, f.rules v c, v = .update && holdsEmail c⟩

def defaultChecks : Variant → List Check
  | .create => [⟨"name", ["required", "string", "max:255"], false⟩, ⟨"description", ["nullable", "string"], false⟩]
  | .update => [⟨"name", ["sometimes", "string", "max:255"], false⟩, ⟨"description", ["sometimes", "string"], false⟩]

def checks (f : Fields) (v : Variant) : List Check :=
  if f.hasSchema then f.fillable.map (f.check v) else defaultChecks v

variable {f : Fields} {v : Variant} {c : Column}

section Lines

theorem constructorLine_eq (v : Variant) (c : Column) : constructorLine v c = (property v c).text := by
  unfold constructorLine property Property.text
  split
  · next h =>
    rw [h]
    rfl
  · next h =>
    rw [Bool.not_eq_true] at h
    rw [h]
    show _ = propertyIndent ++ ("public readonly " ++ "" ++ c.type.phpType ++ " $" ++ c.name ++ "")
    rw [String.append_empty, String.append_empty]
    rfl

theorem constructor_eq (f : Fields) (v : Variant) : f.constructor v = (f.properties.map (property v)).map Property.text := by
  unfold constructor properties
  split
  · rw [List.map_map]
    exact List.map_congr_left fun c _ => constructorLine_eq v c
  · cases v <;> decide

theorem arguments_eq (f : Fields) : f.arguments = f.properties.map argument := by
  unfold arguments properties
  split <;> rfl

theorem toArray_eq_items (f : Fields) : f.toArray = (f.properties.map item).map Item.text := by
  unfold toArray properties
  split
  · rw [List.map_map]
    rfl
  · decide

theorem validation_eq (f : Fields) (v : Variant) : f.validation v = (f.checks v).map Check.text := by
  unfold validation checks
  split
  · rw [List.map_map]
    rfl
  · cases v <;> decide

end Lines

/-- What the four lines of a field say of the column `c`. -/
structure Agree (v : Variant) (c : Column) (p : Property) (a : Argument) (i : Item) (k : Check) : Prop where
  property_name : p.name = c.name
  argument_key : a.key = c.name
  item : i.key = c.name ∧ i.property = c.name
  check_key : k.key = c.name
  type : p.type = c.type.phpType
  /-- Null stands for an absent field only where it is a value of the type. -/
  null : a.fallback = "null" → p.takesNull = true
  literal : a.fallback ≠ "null" → a.fallback = c.type.defaultLiteral ∧ Php.scalarType? a.fallback = some p.type
  default : p.default = if v = .update ∨ c.nullable = true then some "null" else none
  takesNull : p.takesNull = true ↔ p.default = some "null"
  rule : typeRule c.type ∈ k.rules

/-- Four lists with one member for each column, in the order of the columns. -/
inductive Parallel (v : Variant) : List Column → List Property → List Argument → List Item → List Check → Prop
  | nil : Parallel v [] [] [] [] []
  | cons {c p a i k cs ps as is ks} : Agree v c p a i k → Parallel v cs ps as is ks →
      Parallel v (c :: cs) (p :: ps) (a :: as) (i :: is) (k :: ks)

section Parallel

theorem scalarType?_defaultLiteral (t : ColumnClass) : Php.scalarType? t.defaultLiteral = some t.phpType := by
  cases t <;> decide

theorem agree {k : Check} (hkey : k.key = c.name) (hrule : typeRule c.type ∈ k.rules) :
    Agree v c (property v c) (argument c) (item c) k where
  property_name := rfl
  argument_key := rfl
  item := ⟨rfl, rfl⟩
  check_key := hkey
  type := rfl
  null := fun hnull => by
    have hnullable : c.nullable = true := fallback_eq_null_iff.1 hnull
    rw [property, hnullable, Bool.or_true]
  literal := fun hne => by
    have hrequired : ¬ c.nullable = true := mt fallback_eq_null_iff.2 hne
    have hfallback : (argument c).fallback = c.type.defaultLiteral := if_neg hrequired
    exact ⟨hfallback, hfallback ▸ scalarType?_defaultLiteral c.type⟩
  default := by simp [property]
  takesNull := by cases h : (decide (v = .update) || c.nullable) <;> simp [property, h]
  rule := hrule

theorem parallel_map {check : Column → Check} {cs : List Column}
    (h : ∀ c ∈ cs, (check c).key = c.name ∧ typeRule c.type ∈ (check c).rules) :
    Parallel v cs (cs.map (property v)) (cs.map argument) (cs.map item) (cs.map check) := by
  induction cs with
  | nil => exact .nil
  | cons c cs ih =>
    obtain ⟨hc, hcs⟩ := List.forall_mem_cons.1 h
    exact .cons (agree hc.1 hc.2) (ih hcs)

theorem typeRule_mem_rules (f : Fields) (v : Variant) (c : Column) : typeRule c.type ∈ f.rules v c :=
  List.mem_cons_of_mem _ (List.mem_append_left _ (List.mem_cons_self ..))

theorem parallel (f : Fields) (v : Variant) : Parallel v f.properties (f.properties.map (property v)) f.arguments
    (f.properties.map item) (f.checks v) := by
  rw [arguments_eq]
  unfold properties checks
  split
  · exact parallel_map fun c _ => ⟨rfl, typeRule_mem_rules f v c⟩
  · cases v
    · exact .cons (agree rfl (by decide)) (.cons (agree rfl (by decide)) .nil)
    · exact .cons (agree rfl (by decide)) (.cons (agree rfl (by decide)) .nil)

/-- The blocks of a data object are written from parallel lists of properties, arguments, items and rules, one for each
of its fields. -/
theorem blocks_parallel (columns : List Column) (table : String) (config : Config) (v : Variant) :
    let f := ofConfig columns table config
    ∃ ps as is ks, Parallel v f.properties ps as is ks ∧
      (f.substitutions v).lookup "constructorProperties" = some (joined (ps.map Property.text)) ∧
      (f.substitutions v).lookup "fromRequestProperties" = some (joined (as.map Argument.text)) ∧
      (f.substitutions v).lookup "toArrayProperties" = some (joined (is.map Item.text)) ∧
      (f.substitutions v).lookup "validationRules" = some (joined (ks.map Check.text)) := by
  intro f
  refine ⟨_, _, _, _, f.parallel v, ?_, ?_, ?_, ?_⟩
  · rw [← constructor_eq]
    rfl
  · rw [← fromRequest_eq]
    rfl
  · rw [← toArray_eq_items]
    rfl
  · rw [← validation_eq]
    rfl

end Parallel

end Fields

end Scaffold
