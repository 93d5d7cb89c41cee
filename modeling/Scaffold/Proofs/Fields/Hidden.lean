import Scaffold.Proofs.Fields.Sortable
import Scaffold.Proofs.Text.ReadBack

/-!
# What hidden columns hide

The code sorts by the columns that are not hidden and serves them, with their names as keys. Where no column is known, it
sorts by fixed names and serves fixed names, whatever is hidden (`Fields.mem_exposed_iff`). PHP reads both blocks as the
names that they are written from, if these names are plain (`Fields.exposes`).
-/

namespace Scaffold

namespace Php

/-- The key of the entry of an array that a line holds. -/
def key? (line : List Char) : Option (List Char) :=
  match literal? (line.dropWhile Text.isBlank) with
  | some (key, rest) => if " => ".toList <+: rest then some key else none
  | none => none

/-- The keys of the entries of an array, each on a line of its own. -/
def keys (text : String) : List (List Char) :=
  (Text.splitAtChar '\n' text.toList).filterMap key?

theorem key?_entry {indent : List Char} {s : String} (hindent : indent.all Text.isBlank = true)
    (h : Inert s.toList) (rest : List Char) :
    key? (indent ++ ((bare s).toList ++ (" => ".toList ++ rest))) = some s.toList := by
  have hdrop : (indent ++ ((bare s).toList ++ (" => ".toList ++ rest))).dropWhile Text.isBlank =
      (bare s).toList ++ (" => ".toList ++ rest) := by
    rw [List.dropWhile_append_of_pos (List.all_eq_true.1 hindent), toList_bare]
    rfl
  rw [key?, hdrop, (literal?_bare_iff (Nat.le_refl _)).2 ⟨h, rfl⟩]
  exact if_pos (List.prefix_append ..)

end Php

namespace Fields

variable {f : Fields} {name : String} {fixed names : List String}

/-- The names that are sorted by where no column is known. -/
def fixedSorting : List String := ["id", "created_at", "updated_at"]

/-- The names that a block is written from: `fixed` for want of columns. -/
def exposed (f : Fields) (fixed : List String) : List String :=
  if f.hasSchema then f.visible.map (·.name) else fixed

theorem mem_exposed_iff : name ∈ f.exposed fixed ↔
    f.columns = [] ∧ name ∈ fixed ∨ name ∉ f.hidden ∧ ∃ c ∈ f.columns, c.name = name := by
  by_cases hcolumns : f.columns = []
  · simp [exposed, hasSchema, hcolumns]
  · have hschema : f.hasSchema = true := by simpa [hasSchema] using hcolumns
    rw [exposed, if_pos hschema]
    constructor
    · intro hmem
      obtain ⟨c, hc, rfl⟩ := List.mem_map.1 hmem
      obtain ⟨hc, hvisible⟩ := List.mem_filter.1 hc
      exact .inr ⟨by simpa using hvisible, c, hc, rfl⟩
    · rintro (⟨h, -⟩ | ⟨hvisible, c, hc, rfl⟩)
      · exact absurd h hcolumns
      · exact List.mem_map.2 ⟨c, List.mem_filter.2 ⟨hc, by simpa using hvisible⟩, rfl⟩

theorem sortable_eq_exposed (f : Fields) : f.sortable = (f.exposed fixedSorting).map Php.bare := by
  unfold sortable exposed
  split
  · rw [List.map_map]
    rfl
  · decide

theorem resource_eq_exposed (f : Fields) : f.resource = (f.exposed defaultResource).map resourceLine := rfl

/-- What is served under a key. -/
def resourceValue (name : String) : String :=
  "$this->" ++ name ++ (if timestampColumns.contains name then "?->format('Y-m-d H:i:s')" else "")

theorem resourceLine_eq (name : String) :
    resourceLine name = entryIndent ++ (Php.bare name ++ (" => " ++ resourceValue name)) := by
  unfold resourceLine resourceValue Php.bare
  have h : "' => $this->" = "'" ++ (" => " ++ "$this->") := rfl
  show entryIndent ++ ("'" ++ name ++ "' => $this->" ++ name) ++ _ = _
  rw [h]
  simp only [String.append_assoc]

theorem newline_notMem_resourceLine (h : '\n' ∉ name.toList) : '\n' ∉ (resourceLine name).toList := by
  rw [resourceLine_eq, resourceValue, Php.bare, entryIndent]
  simp only [String.toList_append, List.mem_append, not_or]
  refine ⟨by decide, ⟨⟨by decide, h⟩, by decide⟩, by decide, ⟨by decide, h⟩, ?_⟩
  split <;> decide

/-- A name that means itself between quotes, and keeps to its line. -/
def Plain (name : String) : Prop :=
  Php.Inert name.toList ∧ '\n' ∉ name.toList

/-- Characters that may keep a name from being plain. -/
def marks : List Char := ['\'', '\\', '\n']

theorem plain_of_all (h : (names.all fun name => name.toList.all (!marks.contains ·)) = true) :
    ∀ name ∈ names, Plain name := by
  intro name hname
  have hnone : ∀ c ∈ marks, c ∉ name.toList := by
    intro c hc hmem
    have hfree := List.all_eq_true.1 (List.all_eq_true.1 h name hname) c hmem
    rw [List.contains_iff_mem.2 hc] at hfree
    cases hfree
  exact ⟨.of_notMem (hnone _ (by simp [marks])) (hnone _ (by simp [marks])), hnone _ (by simp [marks])⟩

theorem key?_resourceLine (h : Plain name) (rest : List Char) :
    Php.key? ((resourceLine name).toList ++ rest) = some name.toList := by
  have hindent : entryIndent.toList.all Text.isBlank = true := by decide
  rw [resourceLine_eq, String.toList_append, String.toList_append, String.toList_append, List.append_assoc,
    List.append_assoc, List.append_assoc]
  exact Php.key?_entry hindent h.1 _

theorem keys_joined (h : ∀ name ∈ names, Plain name) :
    Php.keys (joined (names.map resourceLine)) = names.map String.toList := by
  rw [Php.keys, joined, String.toList_intercalate, List.map_map]
  induction names with
  | nil => decide
  | cons name names ih =>
    obtain ⟨hname, hnames⟩ := List.forall_mem_cons.1 h
    have hline := newline_notMem_resourceLine hname.2
    cases names with
    | nil =>
      have hkey := key?_resourceLine hname []
      rw [List.append_nil] at hkey
      simp [Text.splitAtChar_of_notMem hline, hkey]
    | cons next names =>
      have hcut : '\n' ∉ (resourceLine name).toList ++ [','] := by simpa using hline
      have hbreak : ∀ rest, (resourceLine name).toList ++ ",\n".toList ++ rest =
          ((resourceLine name).toList ++ [',']) ++ '\n' :: rest := by simp
      rw [List.map_cons, List.map_cons, List.intercalate_cons_cons, ← List.map_cons, Function.comp_apply, hbreak,
        Text.splitAtChar_append, Text.splitAtChar_of_notMem hcut, List.singleton_append,
        List.filterMap_cons_some (key?_resourceLine hname [',']), ih hnames]
      rfl

/-- What two blocks are written from, the names to sort by and the names to serve, and what PHP reads of them. -/
structure Exposes (sorting serving : String) (sorted served : List String) : Prop where
  sorting_eq : sorting = ", ".intercalate (sorted.map Php.bare)
  serving_eq : serving = joined (served.map resourceLine)
  sorted_read : (∀ name ∈ sorted, Plain name) →
    ∀ names, Php.Reads ("[" ++ sorting ++ "]").toList names ↔ names = sorted
  served_read : (∀ name ∈ served, Plain name) → Php.keys serving = served.map String.toList

theorem exposes (sorted served : List String) :
    Exposes (", ".intercalate (sorted.map Php.bare)) (joined (served.map resourceLine)) sorted served where
  sorting_eq := rfl
  serving_eq := rfl
  sorted_read := fun h names => by
    have hread : Php.Reads (Php.bareList sorted).toList sorted :=
      Php.reads_bareList_iff.2 fun name hname => (h name hname).1
    constructor
    · exact fun hnames => hnames.unique hread
    · rintro rfl
      exact hread
  served_read := keys_joined

theorem fixedSorting_subset : fixedSorting ⊆ defaultResource := by
  decide

/-- The code sorts by the columns that are not hidden, and serves them; where no column is known, it takes fixed names
for them. So hidden names are kept back exactly if there are columns or none of these names is hidden. -/
theorem hidden_exposed_iff (columns : List Column) (table : String) (config : Config) (v : Variant) :
    let f := ofConfig columns table config
    let hidden := config.database.hidden
    ∃ sorting serving, (f.substitutions v).lookup "sortableFields" = some sorting ∧
      (f.substitutions v).lookup "resourceFields" = some serving ∧
      Exposes sorting serving (f.exposed fixedSorting) (f.exposed defaultResource) ∧
      (∀ fixed name, name ∈ f.exposed fixed ↔
        columns = [] ∧ name ∈ fixed ∨ name ∉ hidden ∧ ∃ c ∈ columns, c.name = name) ∧
      ((∀ name ∈ hidden, name ∉ f.exposed fixedSorting ∧ name ∉ f.exposed defaultResource) ↔
        columns ≠ [] ∨ ∀ name ∈ hidden, name ∉ defaultResource) := by
  intro f hidden
  have hmem : ∀ fixed name, name ∈ f.exposed fixed ↔
      columns = [] ∧ name ∈ fixed ∨ name ∉ hidden ∧ ∃ c ∈ columns, c.name = name :=
    fun _ _ => mem_exposed_iff
  refine ⟨", ".intercalate f.sortable, joined f.resource, rfl, rfl, ?_, hmem, ?_⟩
  · rw [sortable_eq_exposed, resource_eq_exposed]
    exact exposes _ _
  constructor
  · intro hkept
    refine or_iff_not_imp_left.2 fun hcolumns name hname hfixed => ?_
    exact (hkept name hname).2 ((hmem _ _).2 (.inl ⟨not_not.1 hcolumns, hfixed⟩))
  · intro hsafe name hname
    have hnone : ∀ fixed ⊆ defaultResource, name ∉ f.exposed fixed := by
      intro fixed hsubset hexposed
      rcases (hmem _ _).1 hexposed with ⟨hcolumns, hfixed⟩ | ⟨hvisible, -⟩
      · exact hsafe.elim (absurd hcolumns) fun hnot => hnot name hname (hsubset hfixed)
      · exact hvisible hname
    exact ⟨hnone _ fixedSorting_subset, hnone _ (List.Subset.refl _)⟩

/-- The columns of a table of users, the last of which is hidden by default. -/
def userColumns : List Column :=
  [{ name := "id", type := .integer }, { name := "email" }, { name := "password" }]

theorem hidden_exposed_users :
    let f := ofConfig userColumns "users" {}
    ∃ sorting serving, (f.substitutions .create).lookup "sortableFields" = some sorting ∧
      (f.substitutions .create).lookup "resourceFields" = some serving ∧
      (∀ names, Php.Reads ("[" ++ sorting ++ "]").toList names ↔ names = ["id", "email"]) ∧
      Php.keys serving = ["id", "email"].map String.toList := by
  intro f
  have hexposed : ∀ fixed, f.exposed fixed = ["id", "email"] := fun fixed => rfl
  have hplain : ∀ name ∈ ["id", "email"], Plain name := plain_of_all (by decide)
  obtain ⟨sorting, serving, hsorting, hserving, hexposes, -⟩ := hidden_exposed_iff userColumns "users" {} .create
  rw [hexposed, hexposed] at hexposes
  exact ⟨sorting, serving, hsorting, hserving, hexposes.sorted_read hplain, hexposes.served_read hplain⟩

/-- Where no column is known, a hidden name is sorted by and served. -/
theorem hidden_exposed_fixed :
    let config : Config := { database := { hidden := ["updated_at"] } }
    let f := ofConfig [] "items" config
    "updated_at" ∈ config.database.hidden ∧
      (f.substitutions .create).lookup "sortableFields" = some "'id', 'created_at', 'updated_at'" ∧
      (∀ names, Php.Reads "['id', 'created_at', 'updated_at']".toList names ↔ names = fixedSorting) ∧
      ∃ serving, (f.substitutions .create).lookup "resourceFields" = some serving ∧
        "updated_at".toList ∈ Php.keys serving := by
  intro config f
  have hplain : ∀ name ∈ defaultResource, Plain name := plain_of_all (by decide)
  have hexposes := exposes fixedSorting defaultResource
  refine ⟨by decide, rfl, ?_, joined (defaultResource.map resourceLine), rfl, ?_⟩
  · exact hexposes.sorted_read fun name hname => hplain name (fixedSorting_subset hname)
  · rw [hexposes.served_read hplain]
    decide

end Fields

end Scaffold
