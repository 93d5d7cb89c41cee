import Scaffold.Blocks

/-!
# What a request does not name

The update data object is meant to leave out what a request does not name: there null stands for an
absent field, and the service passes on what is not null. The arguments that are read from a request know
nothing of that. They are the same for creating and for changing a record (`Fields.arguments`), so a
required column that is absent is changed to the default of its type (`Fields.changed_absent`).
-/

namespace Scaffold

/-- An argument of a data object: a field of the request, and what stands for it where it is absent. -/
structure Argument where
  key : String
  fallback : String
deriving Repr, DecidableEq

namespace Argument
variable {payload : List (String × String)} {a : Argument}

def text (a : Argument) : String :=
  Fields.entryIndent ++ s!"{a.key}: $data['{a.key}'] ?? {a.fallback}"

/-- The property that the argument gives, written as in the generated code. Null counts as absent. -/
def value (payload : List (String × String)) (a : Argument) : String :=
  ((payload.lookup a.key).filter (· ≠ "null")).getD a.fallback

/-- The fields that the generated service changes: those whose property is not null. -/
def changes (payload : List (String × String)) (arguments : List Argument) : List (String × String) :=
  (arguments.map fun a => (a.key, a.value payload)).filter (·.2 ≠ "null")

theorem value_of_absent (h : payload.lookup a.key = none) : a.value payload = a.fallback := by
  rw [value, h, Option.filter_none, Option.getD_none]

theorem mem_changes_of_absent {arguments : List Argument} {key value : String} (h : payload.lookup key = none) :
    (key, value) ∈ changes payload arguments ↔ value ≠ "null" ∧ ⟨key, value⟩ ∈ arguments := by
  simp only [changes, List.mem_filter, List.mem_map, Prod.mk.injEq, decide_eq_true_eq]
  constructor
  · rintro ⟨⟨a, ha, rfl, hvalue⟩, hne⟩
    rw [value_of_absent h] at hvalue
    subst hvalue
    exact ⟨hne, ha⟩
  · rintro ⟨hne, ha⟩
    exact ⟨⟨_, ha, rfl, value_of_absent h⟩, hne⟩

end Argument

namespace Fields

/-- The arguments that are read from a request. -/
def arguments (f : Fields) : List Argument :=
  if f.hasSchema then f.fillable.map fun c => ⟨c.name, fallback c⟩
  else [⟨"name", "''"⟩, ⟨"description", "null"⟩]

variable {f : Fields}

theorem fromRequest_eq (f : Fields) : f.fromRequest = f.arguments.map Argument.text := by
  unfold fromRequest arguments
  split
  · rw [List.map_map]
    rfl
  · rfl

theorem defaultLiteral_ne_null (t : ColumnClass) : t.defaultLiteral ≠ "null" := by
  cases t <;> decide

theorem fallback_eq_null_iff {c : Column} : fallback c = "null" ↔ c.nullable = true := by
  unfold fallback
  split
  · next h => exact iff_of_true rfl h
  · next h => exact iff_of_false (defaultLiteral_ne_null _) h

/-- An argument that does not fall back to null is the name where no column is known, or a required
column with the default of its type. -/
theorem mem_arguments_ne_null {key value : String} :
    value ≠ "null" ∧ ⟨key, value⟩ ∈ f.arguments ↔
      f.columns = [] ∧ key = "name" ∧ value = "''" ∨
        ∃ c ∈ f.columns, c.excluded = false ∧ c.nullable = false ∧ c.name = key ∧
          c.type.defaultLiteral = value := by
  unfold arguments
  by_cases hcolumns : f.columns = []
  · have hschema : f.hasSchema = false := by simp [hasSchema, hcolumns]
    rw [hschema, if_neg Bool.false_ne_true, hcolumns]
    constructor
    · rintro ⟨hne, hmem⟩
      rcases List.mem_cons.1 hmem with heq | hmem
      · cases heq
        exact .inl ⟨rfl, rfl, rfl⟩
      · cases List.mem_singleton.1 hmem
        exact absurd rfl hne
    · rintro (⟨-, rfl, rfl⟩ | ⟨c, hc, -⟩)
      · exact ⟨by decide, List.mem_cons_self ..⟩
      · cases hc
  · have hschema : f.hasSchema = true := by simpa [hasSchema] using hcolumns
    rw [if_pos hschema]
    constructor
    · rintro ⟨hne, hmem⟩
      obtain ⟨c, hc, heq⟩ := List.mem_map.1 hmem
      obtain ⟨hc, hincluded⟩ := List.mem_filter.1 hc
      cases heq
      have hrequired : c.nullable = false := Bool.eq_false_iff.2 fun h => hne (fallback_eq_null_iff.2 h)
      refine .inr ⟨c, hc, by simpa using hincluded, hrequired, rfl, ?_⟩
      rw [fallback, hrequired, if_neg Bool.false_ne_true]
    · rintro (⟨h, -⟩ | ⟨c, hc, hincluded, hrequired, rfl, rfl⟩)
      · exact absurd h hcolumns
      · refine ⟨defaultLiteral_ne_null _, List.mem_map.2 ⟨c, List.mem_filter.2 ⟨hc, ?_⟩, ?_⟩⟩
        · rw [hincluded, Bool.not_false]
        · rw [fallback, hrequired, if_neg Bool.false_ne_true]

/-- Whatever the code is for, the arguments are the same. A field that the request does not name is changed
exactly where the column is required, to the default of its type; without columns, the name is emptied. -/
theorem changed_absent (columns : List Column) (table : String) (config : Config)
    {payload : List (String × String)} {key : String} (h : payload.lookup key = none) :
    let f := ofConfig columns table config
    (∀ v, (f.substitutions v).lookup "fromRequestProperties" = some (joined (f.arguments.map Argument.text))) ∧
      (∀ value, (key, value) ∈ Argument.changes payload f.arguments ↔
        columns = [] ∧ key = "name" ∧ value = "''" ∨
          ∃ c ∈ columns, c.excluded = false ∧ c.nullable = false ∧ c.name = key ∧
            c.type.defaultLiteral = value) ∧
      ((∀ a ∈ f.arguments, a.fallback = "null") ↔
        columns ≠ [] ∧ ∀ c ∈ columns, c.excluded = false → c.nullable = true) := by
  intro f
  refine ⟨fun v => ?_, fun value => ?_, ?_, ?_⟩
  · rw [← fromRequest_eq]
    rfl
  · rw [Argument.mem_changes_of_absent h, mem_arguments_ne_null]
    rfl
  · intro hnull
    constructor
    · intro hcolumns
      obtain ⟨hne, hmem⟩ := (mem_arguments_ne_null (f := f)).2 (.inl ⟨hcolumns, rfl, rfl⟩)
      exact hne (hnull _ hmem)
    · intro c hc hincluded
      refine Bool.not_eq_false _ ▸ fun hrequired => ?_
      obtain ⟨hne, hmem⟩ := (mem_arguments_ne_null (f := f)).2 (.inr ⟨c, hc, hincluded, hrequired, rfl, rfl⟩)
      exact hne (hnull _ hmem)
  · rintro ⟨hcolumns, hnullable⟩ a ha
    by_cases hne : a.fallback = "null"
    · exact hne
    · rcases mem_arguments_ne_null.1 ⟨hne, ha⟩ with ⟨h, -⟩ | ⟨c, hc, hincluded, hrequired, -⟩
      · exact absurd h hcolumns
      · rw [hnullable c hc hincluded] at hrequired
        cases hrequired

/-- The columns of a table of stock, of which only the note may be null. -/
def stockColumns : List Column :=
  [{ name := "id", type := .integer, excluded := true }, { name := "label" },
   { name := "amount", type := .integer }, { name := "note", nullable := true }]

/-- A request that names the label only. -/
theorem changed_absent_stock :
    let f := ofConfig stockColumns "stocks" {}
    let payload := [("label", "'Nails'")]
    payload.lookup "amount" = none ∧
      (∀ v, (f.substitutions v).lookup "fromRequestProperties" = some (joined (f.arguments.map Argument.text))) ∧
      (∀ value, ("amount", value) ∈ Argument.changes payload f.arguments ↔
        stockColumns = [] ∧ "amount" = "name" ∧ value = "''" ∨
          ∃ c ∈ stockColumns, c.excluded = false ∧ c.nullable = false ∧ c.name = "amount" ∧
            c.type.defaultLiteral = value) ∧
      ((∀ a ∈ f.arguments, a.fallback = "null") ↔
        stockColumns ≠ [] ∧ ∀ c ∈ stockColumns, c.excluded = false → c.nullable = true) :=
  have habsent : [("label", "'Nails'")].lookup "amount" = none := by decide
  ⟨habsent, changed_absent stockColumns "stocks" {} habsent⟩

/-- The amount, which the request does not name, is set to zero. -/
theorem absent_overwritten :
    let f := ofConfig stockColumns "stocks" {}
    (f.substitutions .update).lookup "fromRequestProperties" =
        some ("            label: $data['label'] ?? '',\n" ++ "            amount: $data['amount'] ?? 0,\n" ++
          "            note: $data['note'] ?? null") ∧
      ⟨"amount", "0"⟩ ∈ f.arguments ∧
      Argument.changes [("label", "'Nails'")] f.arguments = [("label", "'Nails'"), ("amount", "0")] := by
  decide +kernel

end Fields

end Scaffold
