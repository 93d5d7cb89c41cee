import Scaffold.Blocks
import Scaffold.Proofs.Php.Bare

/-!
# The columns to sort by

The names of columns are put between quotes as they are. They are what `Php.list` writes where no name holds a quote or
a backslash, and they are read as the names where each is inert (`Fields.sortable_list`).
-/

namespace Scaffold.Fields

theorem sortable_eq {columns : List Column} (hcolumns : columns ≠ []) (table : String) (config : Config) :
    (ofConfig columns table config).sortable = ((ofConfig columns table config).visible.map (·.name)).map Php.bare := by
  have hschema : (ofConfig columns table config).hasSchema = true := by
    simpa [hasSchema, ofConfig] using hcolumns
  rw [sortable, if_pos hschema, List.map_map]
  rfl

/-- The columns to sort by are a list of the names as PHP writes it where there is nothing to escape, and PHP reads them
as the names where each name is inert. -/
theorem sortable_list {columns : List Column} (hcolumns : columns ≠ []) (table : String) (config : Config) (v : Variant) :
    let f := ofConfig columns table config
    let names := f.visible.map (·.name)
    ∃ text, (f.substitutions v).lookup "sortableFields" = some text ∧
      ("[" ++ text ++ "]" = Php.list names ↔ ∀ name ∈ names, '\\' ∉ name.toList ∧ '\'' ∉ name.toList) ∧
      (Php.Reads ("[" ++ text ++ "]").toList names ↔ ∀ name ∈ names, Php.Inert name.toList) := by
  intro f names
  have hlist : "[" ++ ", ".intercalate f.sortable ++ "]" = Php.bareList names := by
    rw [sortable_eq hcolumns]
    rfl
  refine ⟨", ".intercalate f.sortable, rfl, ?_, ?_⟩
  · rw [hlist]
    exact Php.bareList_eq_list_iff
  · rw [hlist]
    exact Php.reads_bareList_iff

/-- A name with backslashes in it, which PHP would write twice and reads as they are. -/
def pathColumns : List Column :=
  [{ name := "id", type := .integer }, { name := "unix\\path" }]

theorem sortable_list_path :
    pathColumns ≠ [] ∧
      let f := ofConfig pathColumns "files" {}
      let names := f.visible.map (·.name)
      ∃ text, (f.substitutions .create).lookup "sortableFields" = some text ∧
        ("[" ++ text ++ "]" = Php.list names ↔ ∀ name ∈ names, '\\' ∉ name.toList ∧ '\'' ∉ name.toList) ∧
        (Php.Reads ("[" ++ text ++ "]").toList names ↔ ∀ name ∈ names, Php.Inert name.toList) :=
  have hcolumns : pathColumns ≠ [] := by decide
  ⟨hcolumns, sortable_list hcolumns "files" {} .create⟩

/-- A quote in a name ends the literal, and what is left of the name stands in the code. -/
theorem sortable_quote :
    let f := ofConfig [{ name := "driver's" }] "cars" {}
    (f.substitutions .create).lookup "sortableFields" = some "'driver's'" ∧
      "['driver's']" ≠ Php.list ["driver's"] ∧ Php.list ["driver's"] = "['driver\\'s']" ∧
      Php.literal? "'driver's']".toList = some ("driver".toList, "s']".toList) ∧
      ¬ Php.Reads "['driver's']".toList ["driver's"] := by
  refine ⟨by decide, by decide, by decide, by decide, fun hreads => ?_⟩
  have hlist : "['driver's']" = Php.bareList ["driver's"] := by decide
  rw [hlist, Php.reads_bareList_iff] at hreads
  exact (hreads "driver's" (List.mem_singleton_self _)).quote (by decide)

end Scaffold.Fields
