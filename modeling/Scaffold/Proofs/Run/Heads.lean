import Scaffold.Proofs.Layout.Autoload
import Scaffold.Proofs.Name.Mould
import Scaffold.Proofs.Php.Source
import Scaffold.Proofs.Run.Beside
import Scaffold.Proofs.Run.References
import Scaffold.Proofs.Run.Settled

/-!
# The heads of the class files

Each packaged template of a class starts with lines of pieces (`head_isPrefix`): the namespace, the imports, and the
class. They are filled with names only, so what is read from the file are the imports and the class that the table
of heads names (`read_file`), whatever stands behind the first brace.
-/

namespace Scaffold

/-- A class that the packaged template of another class imports. -/
inductive Import where
  | model
  | generated (c : Category) (k : Kind)
  | framework (levels : List String) (name : String)
deriving DecidableEq

/-- How a packaged template of a class starts. -/
structure Head where
  imports : List Import
  comment : List Template.Row
  keyword : String
  parents : Template.Row

namespace Import
open Template (Row Piece)

/-- The name that is imported. -/
def name : Import → Row
  | model => [.slot "modelClass"]
  | generated _ k => [.slot (k.placeholder ++ "Namespace"), .text "\\", .slot (k.placeholder ++ "Class")]
  | framework levels name => levels.flatMap (fun level => [.text level, .text "\\"]) ++ [.text name]

def row (i : Import) : Row :=
  .text "use " :: i.name ++ [.text ";"]

/-- How the short name is made from the model. -/
def mould : Import → Name.Mould
  | model => .around [] []
  | generated c k =>
    match Layout.place? c k with
    | some place => .around place.before.toList place.after.toList
    | none => .fixed []
  | framework _ name => .fixed name.toList

/-- The class is one that a category sees, or has a name of identifiers. -/
def Known (c : Category) : Import → Prop
  | model => True
  | generated d k => (d = .common ∨ d = c) ∧ k ∈ d.kinds ∧ k.isClass = true
  | framework levels name => ∀ part ∈ levels ++ [name], Review.isIdentifier part.toList = true

instance (c : Category) : DecidablePred (Known c)
  | model => inferInstanceAs (Decidable True)
  | generated _ _ => inferInstanceAs (Decidable (_ ∧ _))
  | framework levels name =>
    inferInstanceAs (Decidable (∀ part ∈ levels ++ [name], Review.isIdentifier part.toList = true))

end Import

namespace Head
open Template (Row)

/-- What all class files start with. -/
def opening : List Row :=
  [[.text "<?php"], [], [.text "namespace ", .slot "namespace", .text ";"], []]

/-- The line between the imports and what follows. -/
def gap (h : Head) : List Row :=
  if h.imports.isEmpty then [] else [[]]

def commentLines (h : Head) : List Row :=
  if h.comment.isEmpty then [] else [.text "/**"] :: h.comment.map (.text " * " :: ·) ++ [[.text " */"]]

def declaration (h : Head) : Row :=
  .text h.keyword :: .slot "class" :: if h.parents.isEmpty then [] else .text " " :: h.parents

/-- The lines up to the one with the first brace. -/
def rows (h : Head) : List Row :=
  opening ++ h.imports.map Import.row ++ h.gap ++ h.commentLines ++ [h.declaration]

end Head

theorem ClassPlace.newline_notMem_namespaceName {p : ClassPlace} {model version : String} (hp : p.isTidy = true)
    (hm : ∀ d ∈ model.toList, Review.isNameRest d = true) (hv : '\n' ∉ version.toList) :
    '\n' ∉ (p.namespaceName {} model version).toList := by
  have hbase : '\n' ∉ (p.family.baseNamespace {}).toList := by cases p.family <;> decide
  simp only [isTidy, Bool.and_eq_true, List.all_eq_true] at hp
  rw [namespaceName, String.toList_intercalate]
  intro hmem
  rcases Text.mem_intercalate hmem with hmem | ⟨l, hl, hmem⟩
  · cases List.mem_singleton.1 hmem
  · obtain ⟨s, hs, rfl⟩ := List.mem_map.1 hl
    rcases List.mem_cons.1 hs with rfl | hs
    · exact hbase hmem
    · obtain ⟨segment, hsegment, rfl⟩ := List.mem_map.1 hs
      have hfixed := hp.1.2 segment hsegment
      cases segment with
      | model => cases hm _ hmem
      | version => exact hv hmem
      | fixed name => cases List.all_eq_true.1 hfixed _ hmem

namespace Generator
open Import (model generated framework)
open Template (Piece Row valueOf)

/-- The heads of the packaged templates. -/
def head : Category → Kind → Head
  | .common, .service =>
    { imports := [model, generated .common .repositoryInterface, generated .common .createDto,
        generated .common .updateDto, generated .common .filterDto, generated .common .exception,
        framework ["Illuminate", "Contracts", "Pagination"] "LengthAwarePaginator",
        framework ["Illuminate", "Support", "Facades"] "DB"]
      comment := [], keyword := "class ", parents := [] }
  | .common, .repository =>
    { imports := [model, generated .common .repositoryInterface, generated .common .filterDto,
        framework ["Illuminate", "Contracts", "Pagination"] "LengthAwarePaginator",
        framework ["Illuminate", "Database", "Eloquent"] "Builder"]
      comment := [], keyword := "class ", parents := [.text "implements ", .slot "repositoryInterfaceClass"] }
  | .common, .repositoryInterface =>
    { imports := [model, generated .common .filterDto,
        framework ["Illuminate", "Contracts", "Pagination"] "LengthAwarePaginator"]
      comment := [], keyword := "interface ", parents := [] }
  | .common, .createDto | .common, .filterDto =>
    { imports := [], comment := [], keyword := "final class ", parents := [] }
  | .common, .updateDto =>
    { imports := []
      comment := [[.text "Partial update of a ", .slot "modelTitle", .text ": every property is optional and"],
        [.text "null means \"leave unchanged\"."]]
      keyword := "final class ", parents := [] }
  | .common, .exception =>
    { imports := [framework [] "Exception", framework [] "Throwable"]
      comment := [], keyword := "class ", parents := [.text "extends Exception"] }
  | .api, .controller =>
    { imports := [framework ["App", "Http", "Controllers"] "Controller", generated .common .service,
        generated .common .createDto, generated .common .updateDto, generated .common .filterDto,
        generated .common .exception, generated .api .storeRequest, generated .api .updateRequest,
        generated .api .resource, generated .api .collection, framework ["Illuminate", "Http"] "JsonResponse",
        framework ["Illuminate", "Http"] "Request"]
      comment := [], keyword := "class ", parents := [.text "extends Controller"] }
  | .api, .storeRequest | .api, .updateRequest =>
    { imports := [framework ["Illuminate", "Contracts", "Validation"] "Validator",
        framework ["Illuminate", "Foundation", "Http"] "FormRequest",
        framework ["Illuminate", "Http", "Exceptions"] "HttpResponseException"]
      comment := [], keyword := "class ", parents := [.text "extends FormRequest"] }
  | .api, .resource =>
    { imports := [framework ["Illuminate", "Http"] "Request",
        framework ["Illuminate", "Http", "Resources", "Json"] "JsonResource"]
      comment := [[.text "@mixin \\", .slot "modelClass"]]
      keyword := "class ", parents := [.text "extends JsonResource"] }
  | .api, .collection =>
    { imports := [framework ["Illuminate", "Http"] "Request",
        framework ["Illuminate", "Http", "Resources", "Json"] "ResourceCollection"]
      comment := [], keyword := "class ", parents := [.text "extends ResourceCollection"] }
  | .web, .controller =>
    { imports := [framework ["App", "Http", "Controllers"] "Controller", model, generated .common .service,
        generated .common .createDto, generated .common .updateDto, generated .common .filterDto,
        generated .common .exception, generated .web .storeRequest, generated .web .updateRequest,
        framework ["Illuminate", "Http"] "RedirectResponse", framework ["Illuminate", "Http"] "Request",
        framework ["Illuminate", "View"] "View"]
      comment := [], keyword := "class ", parents := [.text "extends Controller"] }
  | .web, .storeRequest | .web, .updateRequest =>
    { imports := [framework ["Illuminate", "Foundation", "Http"] "FormRequest"]
      comment := [], keyword := "class ", parents := [.text "extends FormRequest"] }
  | _, _ => { imports := [], comment := [], keyword := "", parents := [] }

/-- Whether a key stands for a name in the head of a class of the category. -/
def isNamed (c : Category) (key : String) : Bool :=
  ["namespace", "class", "modelClass", "modelTitle"].contains key ||
    [Category.common, c].any fun d => d.kinds.any fun k =>
      k.isClass && (key == k.placeholder ++ "Namespace" || key == k.placeholder ++ "Class")

/-- Whether a piece keeps to its line and the names. -/
def isFitting (c : Category) : Piece → Bool
  | .text s => !s.toList.contains '{' && !s.toList.contains '\n'
  | .slot key => isNamed c key

variable {base : Path} {run : Run} {o : Options} {c : Category} {k : Kind} {t : Target} {entity key : String}
  {i : Import} {row : Row}

section Table

theorem imports_known : ∀ c ∈ Category.all, ∀ k ∈ Kind.all, ∀ i ∈ (head c k).imports, i.Known c := by
  decide +kernel

theorem fits_opening : ∀ c ∈ Category.all, ∀ row ∈ Head.opening, ∀ p ∈ row,
    p.isWhole = true ∧ isFitting c p = true := by
  decide +kernel

theorem fits_own : ∀ c ∈ Category.all, ∀ k ∈ Kind.all,
    ∀ row ∈ (head c k).gap ++ (head c k).commentLines ++ [(head c k).declaration], ∀ p ∈ row,
      p.isWhole = true ∧ isFitting c p = true := by
  decide +kernel

theorem isWhole_placeholder (k : Kind) : (Piece.slot (k.placeholder ++ "Namespace")).isWhole = true ∧
    (Piece.slot (k.placeholder ++ "Class")).isWhole = true := by
  cases k <;> decide +kernel

theorem isNamed_placeholder {d : Category} (hd : d = .common ∨ d = c) (hk : k ∈ d.kinds) (hclass : k.isClass = true) :
    isNamed c (k.placeholder ++ "Namespace") = true ∧ isNamed c (k.placeholder ++ "Class") = true := by
  have hnamed : ∀ key, key = k.placeholder ++ "Namespace" ∨ key = k.placeholder ++ "Class" → isNamed c key = true := by
    intro key hkey
    rw [isNamed, Bool.or_eq_true, List.any_eq_true]
    exact .inr ⟨d, by simpa using hd, List.any_eq_true.2 ⟨k, hk, by simpa [hclass] using hkey⟩⟩
  exact ⟨hnamed _ (.inl rfl), hnamed _ (.inr rfl)⟩

theorem fits_identifier {s : String} (h : Review.isIdentifier s.toList = true) :
    (Piece.text s).isWhole = true ∧ isFitting c (.text s) = true := by
  have hbrace : '{' ∉ s.toList := fun hd => by cases Review.isNameRest_of_identifier h hd
  have hnewline : '\n' ∉ s.toList := fun hd => by cases Review.isNameRest_of_identifier h hd
  simp [Piece.isWhole, isFitting, hbrace, hnewline]

theorem fits_import {p : Piece} (hi : i.Known c) (hp : p ∈ i.row) : p.isWhole = true ∧ isFitting c p = true := by
  have hmark : ∀ s ∈ ["use ", "\\", ";"], (Piece.text s).isWhole = true ∧ isFitting c (.text s) = true := by
    cases c <;> decide
  simp only [Import.row, List.cons_append, List.mem_cons, List.mem_append, List.not_mem_nil, or_false] at hp
  rcases hp with rfl | hp | rfl
  · exact hmark _ (by simp)
  · cases i with
    | model =>
      have hmodel : ∀ c, (Piece.slot "modelClass").isWhole = true ∧ isFitting c (.slot "modelClass") = true := by
        rintro ⟨⟩ <;> decide
      rw [List.mem_singleton.1 hp]
      exact hmodel c
    | generated d k =>
      obtain ⟨hd, hk, hclass⟩ := hi
      simp only [Import.name, List.mem_cons, List.not_mem_nil, or_false] at hp
      rcases hp with rfl | rfl | rfl
      · exact ⟨(isWhole_placeholder k).1, (isNamed_placeholder hd hk hclass).1⟩
      · exact hmark _ (by simp)
      · exact ⟨(isWhole_placeholder k).2, (isNamed_placeholder hd hk hclass).2⟩
    | framework levels name =>
      simp only [Import.name, List.mem_append, List.mem_flatMap, List.mem_cons, List.not_mem_nil, or_false] at hp
      rcases hp with ⟨level, hlevel, rfl | rfl⟩ | rfl
      · exact fits_identifier (hi level (List.mem_append_left _ hlevel))
      · exact hmark _ (by simp)
      · exact fits_identifier (hi name (by simp))
  · exact hmark _ (by simp)

theorem rows_fit (hrow : row ∈ (head c k).rows) : ∀ p ∈ row, p.isWhole = true ∧ isFitting c p = true := by
  have hown := fits_own c c.mem_all k k.mem_all row
  simp only [Head.rows, List.mem_append] at hrow hown
  rcases hrow with (((hrow | hrow) | hrow) | hrow) | hrow
  · exact fits_opening c c.mem_all row hrow
  · obtain ⟨i, hi, rfl⟩ := List.mem_map.1 hrow
    exact fun p hp => fits_import (imports_known c c.mem_all k k.mem_all i hi) hp
  · exact hown (.inl (.inl hrow))
  · exact hown (.inl (.inr hrow))
  · exact hown (.inr hrow)

theorem keyword_head : ∀ c ∈ Category.all, ∀ k ∈ c.kinds, k.isClass = true →
    (head c k).keyword ∈ Php.classKeywords := by
  decide

set_option maxRecDepth 20000 in
theorem head_isPrefix (hk : k ∈ c.kinds) (hclass : k.isClass = true) : ∃ cs, templateText c k none = .ofList cs ∧
    ['\n'].intercalate ((head c k).rows.map Row.source) ++ ['\n', '{', '\n'] <+: cs := by
  cases c <;> cases k <;> first
    | exact absurd hk (by decide)
    | exact absurd hclass (by decide)
    | exact ⟨_, rfl, by decide +kernel⟩

end Table

/-- The values that a class file is filled with. -/
abbrev fileValue (run : Run) (c : Category) (k : Kind) (t : Target) : List Char → Option (List Char) :=
  valueOf (fileSubstitutions run c k t)

section Values

/-- Layers with keys of their own leave the values that all artifacts share. -/
theorem valueOf_file {v : List Char}
    (hkey : ∀ k : Kind, k.placeholder ++ "Namespace" ≠ key ∧ k.placeholder ++ "Class" ≠ key)
    (hplain : key ∉ plainKeys) (hv : valueOf (baseSubstitutions run.config run.names run.version) key.toList = some v) :
    fileValue run c k t key.toList = some v := by
  have hnew : ∀ a : String × String, a.1 ∈ plainKeys → a.1 ≠ key := fun a ha heq => hplain (heq ▸ ha)
  have hfields : ∀ a ∈ run.fields.substitutions (variantOf k), a.1 ≠ key := fun a ha => hnew a <| by
    simp only [Fields.substitutions, List.mem_cons, List.not_mem_nil, or_false] at ha
    rcases ha with rfl | rfl | rfl | rfl | rfl | rfl | rfl <;> simp [plainKeys]
  have hown : ∀ a ∈ [("namespace", t.namespace), ("class", t.className)], a.1 ≠ key := fun a ha => hnew a <| by
    simp only [List.mem_cons, List.not_mem_nil, or_false] at ha
    rcases ha with rfl | rfl <;> simp [plainKeys]
  rw [fileValue, fileSubstitutions, Template.valueOf_append_left hown, Template.valueOf_append_left hfields,
    valueOf_category hkey fun heq => hplain (heq ▸ by simp [plainKeys]), hv]

theorem valueOf_modelClass : fileValue run c k t "modelClass".toList =
    some (run.config.namespaces.models ++ "\\" ++ run.names.one.pascal).toList := by
  have hclass : ∀ k : Kind, k.placeholder ++ "Namespace" ≠ "modelClass" ∧ k.placeholder ++ "Class" ≠ "modelClass" := by
    rintro ⟨⟩ <;> decide
  refine valueOf_file hclass (by decide) ?_
  rw [baseSubstitutions, Template.valueOf_append_left (ne_of_mem_classSubstitutions hclass)]
  exact Template.valueOf_append_right rfl

/-- The keys that the spellings share their layer with. -/
def settingKeys : List String :=
  ["version", "versionLower", "modelNamespace", "modelClass", "repositoryVariable", "serviceVariable", "route",
   "viewPrefix", "layout", "apiPerPage", "webPerPage", "successKey", "messageKey", "dataKey", "errorsKey", "metaKey"]

theorem valueOf_spelling {v : List Char}
    (hkey : ∀ k : Kind, k.placeholder ++ "Namespace" ≠ key ∧ k.placeholder ++ "Class" ≠ key) (hplain : key ∉ plainKeys)
    (hsetting : key ∉ settingKeys) (hv : valueOf run.names.substitutions key.toList = some v) :
    fileValue run c k t key.toList = some v := by
  refine valueOf_file hkey hplain ?_
  rw [baseSubstitutions, Template.valueOf_append_left (ne_of_mem_classSubstitutions hkey),
    Template.valueOf_append_left, hv]
  exact fun a ha heq => hsetting (heq ▸ List.mem_map_of_mem (f := Prod.fst) ha)

theorem valueOf_modelTitle : fileValue run c k t "modelTitle".toList = some run.names.one.title.toList :=
  valueOf_spelling (by rintro ⟨⟩ <;> decide) (by decide) (by decide) rfl

/-- What stands for a name: letters, digits, underscores, backslashes and spaces. -/
def isNameText (d : Char) : Bool :=
  Review.isNameRest d || d == '\\' || d == ' '

section Silent
open Php (imported? declared?)

theorem silent_namespace (value? : List Char → Option (List Char)) :
    let line := Row.filled value? [.text "namespace ", .slot "namespace", .text ";"]
    imported? line = none ∧ declared? line = none := by
  refine Php.silent_of_head "namespace".toList ?_ (by decide)
  have hline : Row.filled value? [.text "namespace ", .slot "namespace", .text ";"] =
      "namespace".toList ++ ' ' :: Row.filled value? [.slot "namespace", .text ";"] := rfl
  rw [hline, Php.IsWord.words_append_cons (by decide) (by decide)]
  rfl

theorem silent_comment (value? : List Char → Option (List Char)) (row : Row) :
    let line := Row.filled value? (.text " * " :: row)
    imported? line = none ∧ declared? line = none := by
  refine Php.silent_of_head ['*'] ?_ (by decide)
  have hline : Row.filled value? (.text " * " :: row) = ' ' :: (['*'] ++ ' ' :: Row.filled value? row) := rfl
  rw [hline, Php.words_cons (by decide), Php.IsWord.words_append_cons (by decide) (by decide)]
  rfl

/-- Only the imports and the class are read from a head. -/
theorem silent_of_mem {hd : Head} (hrow : row ∈ Head.opening ∨ row ∈ hd.gap ∨ row ∈ hd.commentLines)
    (value? : List Char → Option (List Char)) :
    imported? (row.filled value?) = none ∧ declared? (row.filled value?) = none := by
  have hclosed : ∀ s ∈ ["<?php", "", "/**", " */"], imported? s.toList = none ∧ declared? s.toList = none := by
    decide
  have htext : ∀ s ∈ ["<?php", "", "/**", " */"], imported? (Row.filled value? [.text s]) = none ∧
      declared? (Row.filled value? [.text s]) = none := by
    simpa [Row.filled, Piece.filled] using hclosed
  rcases hrow with hrow | hrow | hrow
  · simp only [Head.opening, List.mem_cons, List.not_mem_nil, or_false] at hrow
    rcases hrow with rfl | rfl | rfl | rfl
    · exact htext _ (by simp)
    · exact ⟨rfl, rfl⟩
    · exact silent_namespace value?
    · exact ⟨rfl, rfl⟩
  · rw [Head.gap] at hrow
    split at hrow
    · cases hrow
    · rw [List.mem_singleton.1 hrow]
      exact ⟨rfl, rfl⟩
  · rw [Head.commentLines] at hrow
    split at hrow
    · cases hrow
    · simp only [List.cons_append, List.mem_cons, List.mem_append, List.mem_map, List.not_mem_nil, or_false] at hrow
      rcases hrow with rfl | ⟨line, -, rfl⟩ | rfl
      · exact htext _ (by simp)
      · exact silent_comment value? line
      · exact htext _ (by simp)

end Silent

section Usual
variable (h : run.Usual base o entity) (hversion : '\n' ∉ run.version.toList)
include h

theorem isNameText_model : ∀ d ∈ run.names.one.pascal.toList, isNameText d = true := fun d hd => by
  simp [isNameText, Layout.isNameRest_model h.spelled d hd]

theorem isNameText_title : ∀ d ∈ run.names.one.title.toList, isNameText d = true := by
  intro d hd
  rw [Naming.one_eq h.named] at hd
  rcases Name.mem_title hd with rfl | hd
  · rfl
  · simp [isNameText, Review.isNameRest_of_alphanum hd]

theorem isNameRest_className (hk : k ≠ .views) (ht : Layout.target? run.config run.names run.version c k = some t) :
    ∀ d ∈ t.className.toList, Review.isNameRest d = true :=
  Layout.isNameRest_className h.spelled hk (h.version ▸ ht)

theorem isWord_className (ht : Layout.target? run.config run.names run.version c k = some t)
    (hclass : k.isClass = true) : Php.IsWord t.className.toList := by
  have hviews : k ≠ .views := by rintro rfl; cases hclass
  simp only [Layout.target?, hviews, decide_false, Bool.and_false, Bool.false_eq_true, ↓reduceIte] at ht
  obtain ⟨place, hplace, rfl⟩ := Option.map_eq_some_iff.1 ht
  refine Php.isWord_of_name (fun hnil => ?_) fun d hd => .inr ?_
  · simp only [ClassPlace.className, String.toList_append, List.append_eq_nil_iff] at hnil
    exact h.spelled.pascal_ne hnil.1.2
  · exact ClassPlace.isNameRest_className (ClassPlace.isTidy_of_place? hplace) (Layout.isNameRest_model h.spelled) hd

/-- The line of the class. -/
theorem read_declaration (ht : Layout.target? run.config run.names run.version c k = some t) (hk : k ∈ c.kinds)
    (hclass : k.isClass = true) :
    Php.imported? ((head c k).declaration.filled (fileValue run c k t)) = none ∧
      Php.declared? ((head c k).declaration.filled (fileValue run c k t)) = some t.className.toList := by
  have hvalue : fileValue run c k t "class".toList = some t.className.toList := Template.valueOf_append_right rfl
  simp only [Head.declaration, Row.filled, List.flatMap_cons, Piece.filled, hvalue, Option.getD_some]
  rw [← List.append_assoc]
  refine Php.declared?_class (keyword_head c c.mem_all k hk hclass) (isWord_className h ht hclass) ?_
  split
  · exact .inl rfl
  · exact .inr ⟨_, rfl⟩

include hversion

theorem isName_namespace (hk : k ≠ .views) (ht : Layout.target? run.config run.names run.version c k = some t) :
    ∀ d ∈ t.namespace.toList, d = '\\' ∨ Review.isNameRest d = true := by
  have hnone : '\n' ∉ t.namespace.toList := by
    simp only [Layout.target?, hk, decide_false, Bool.and_false, Bool.false_eq_true, ↓reduceIte] at ht
    obtain ⟨place, hplace, rfl⟩ := Option.map_eq_some_iff.1 ht
    rw [h.config]
    exact ClassPlace.newline_notMem_namespaceName (ClassPlace.isTidy_of_place? hplace)
      (Layout.isNameRest_model h.spelled) hversion
  intro d hd
  rcases Layout.isLoose_namespace h.accepted h.spelled hk (h.version ▸ ht) d hd with hd' | hd'
  · exact .inl hd'
  · rcases Bool.or_eq_true_iff.1 hd' with hd' | hd'
    · exact .inr hd'
    · exact absurd (eq_of_beq hd' ▸ hd) hnone

/-- Each placeholder in the head of a class stands for a name. -/
theorem exists_name (ht : Layout.target? run.config run.names run.version c k = some t) (hk : k ≠ .views)
    (hkey : isNamed c key = true) : ∃ v, fileValue run c k t key.toList = some v ∧
      ∀ d ∈ v, isNameText d = true := by
  have hrest : ∀ d, Review.isNameRest d = true → isNameText d = true := fun d hd => by simp [isNameText, hd]
  have hqualified : ∀ d, d = '\\' ∨ Review.isNameRest d = true → isNameText d = true := by
    rintro d (rfl | hd)
    · rfl
    · exact hrest d hd
  rw [isNamed, Bool.or_eq_true, List.contains_iff_mem, List.any_eq_true] at hkey
  rcases hkey with hkey | ⟨d, hd, hkey⟩
  · simp only [List.mem_cons, List.not_mem_nil, or_false] at hkey
    rcases hkey with rfl | rfl | rfl | rfl
    · exact ⟨_, Template.valueOf_append_right rfl, fun d hd => hqualified d (isName_namespace h hversion hk ht d hd)⟩
    · exact ⟨_, Template.valueOf_append_right rfl, fun d hd => hrest d (isNameRest_className h hk ht d hd)⟩
    · refine ⟨_, valueOf_modelClass, fun d hd => ?_⟩
      rw [h.config, String.toList_append, List.mem_append] at hd
      have hmodels : ("App\\Models" ++ "\\").toList.all isNameText = true := by decide
      exact hd.elim (List.all_eq_true.1 hmodels d) (isNameText_model h d)
    · exact ⟨_, valueOf_modelTitle, isNameText_title h⟩
  · obtain ⟨k', hk', hkey⟩ := List.any_eq_true.1 hkey
    rw [Bool.and_eq_true, Bool.or_eq_true, beq_iff_eq, beq_iff_eq] at hkey
    obtain ⟨t', ht'⟩ := Layout.target_ok hk' run.config run.names run.version
    have hviews : k' ≠ .views := by rintro rfl; cases hkey.1
    have hrefers := refers_fileSubstitutions (refers_categorySubstitutions
      (by simpa using hd : d = .common ∨ d = c) hk' hkey.1 (Layout.target_eq ht')) k t
    rcases hkey.2 with rfl | rfl
    · exact ⟨_, hrefers.toNamespace,
        fun d hd => hqualified d (isName_namespace h hversion hviews (Layout.target_eq ht') d hd)⟩
    · exact ⟨_, hrefers.toClass, fun d hd => hrest d (isNameRest_className h hviews (Layout.target_eq ht') d hd)⟩

theorem notMem_headRow (ht : Layout.target? run.config run.names run.version c k = some t) (hk : k ≠ .views)
    (hrow : row ∈ (head c k).rows) {d : Char} (hd : d = '{' ∨ d = '\n') :
    d ∉ row.filled (fileValue run c k t) := by
  intro hmem
  obtain ⟨p, hp, hmem⟩ := List.mem_flatMap.1 hmem
  obtain ⟨-, hfits⟩ := rows_fit hrow p hp
  cases p with
  | text s =>
    simp only [isFitting, Bool.and_eq_true, Bool.not_eq_true', List.contains_eq_mem, decide_eq_false_iff_not] at hfits
    rcases hd with rfl | rfl
    · exact hfits.1 hmem
    · exact hfits.2 hmem
  | slot key =>
    obtain ⟨v, hv, hchars⟩ := exists_name h hversion ht hk hfits
    rw [Piece.filled, hv, Option.getD_some] at hmem
    have hname := hchars d hmem
    rcases hd with rfl | rfl <;> cases hname

/-- A class file starts with the rows of its head, filled in. -/
theorem toList_file (ht : Layout.target? run.config run.names run.version c k = some t) (hk : k ∈ c.kinds)
    (hclass : k.isClass = true) : ∃ body,
      (Template.fill (templateText c k none) (fileSubstitutions run c k t)).toList =
        ['\n'].intercalate ((head c k).rows.map (Row.filled (fileValue run c k t))) ++
          '\n' :: '{' :: body := by
  have hviews : k ≠ .views := by rintro rfl; cases hclass
  obtain ⟨cs, htext, rest, rfl⟩ := head_isPrefix hk hclass
  have hwhole : ∀ row ∈ (head c k).rows, ∀ p ∈ row, p.isWhole = true := fun row hrow p hp =>
    (rows_fit hrow p hp).1
  have hvalue : ∀ row ∈ (head c k).rows, ∀ key, .slot key ∈ row →
      (fileValue run c k t key.toList).isSome := fun row hrow key hkey => by
    obtain ⟨v, hv, -⟩ := exists_name h hversion ht hviews (rows_fit hrow _ hkey).2
    rw [hv, Option.isSome_some]
  have hbrace : ∀ value? : List Char → Option (List Char), Template.fillChars value? ['{'] = ['{'] :=
    fun _ => Template.fillChars_of_count (by decide)
  refine ⟨'\n' :: Template.fillChars (fileValue run c k t) rest, ?_⟩
  rw [Template.fill, htext, String.toList_ofList, String.toList_ofList, List.append_assoc, List.cons_append,
    Template.fillChars_append_newline, Template.fillChars_rows hwhole hvalue,
    show ['{', '\n'] ++ rest = ['{'] ++ '\n' :: rest from rfl, Template.fillChars_append_newline, hbrace]
  rfl

theorem headLines_file (ht : Layout.target? run.config run.names run.version c k = some t) (hk : k ∈ c.kinds)
    (hclass : k.isClass = true) :
    Php.headLines (Template.fill (templateText c k none) (fileSubstitutions run c k t)) =
      (head c k).rows.map (Row.filled (fileValue run c k t)) ++ [[]] := by
  have hviews : k ≠ .views := by rintro rfl; cases hclass
  obtain ⟨body, htext⟩ := toList_file h hversion ht hk hclass
  have hrows : ∀ cs ∈ (head c k).rows.map (Row.filled (fileValue run c k t)),
      '\n' ∉ cs ∧ '{' ∉ cs := fun cs hcs => by
    obtain ⟨row, hrow, rfl⟩ := List.mem_map.1 hcs
    exact ⟨notMem_headRow h hversion ht hviews hrow (.inr rfl), notMem_headRow h hversion ht hviews hrow (.inl rfl)⟩
  have hne : (head c k).rows.map (Row.filled (fileValue run c k t)) ≠ [] := by
    simp [Head.rows]
  have hbefore : ∀ d ∈ ['\n'].intercalate ((head c k).rows.map
      (Row.filled (fileValue run c k t))) ++ ['\n'], decide (d ≠ '{') = true := by
    intro d hd
    rw [decide_eq_true_eq]
    rintro rfl
    rcases List.mem_append.1 hd with hd | hd
    · rcases Text.mem_intercalate hd with hd | ⟨cs, hcs, hd⟩
      · cases List.mem_singleton.1 hd
      · exact (hrows cs hcs).2 hd
    · cases List.mem_singleton.1 hd
  rw [Php.headLines, htext, List.append_cons, List.takeWhile_append_of_pos hbefore,
    List.takeWhile_cons_of_neg (by simp), List.append_nil, Text.splitAtChar_append, Text.splitAtChar_intercalate hne fun cs hcs => (hrows cs hcs).1]
  rfl

/-- What an import says, and the short name that it brings in. -/
theorem filled_name (hi : i ∈ (head c k).imports) : Php.IsWord (i.name.filled (fileValue run c k t)) ∧
    Php.shortName (i.name.filled (fileValue run c k t)) = i.mould.made run.names.one.pascal.toList := by
  have hknown := imports_known c c.mem_all k k.mem_all i hi
  cases i with
  | model =>
    have hname : Row.filled (fileValue run c k t) Import.model.name =
        "App\\Models".toList ++ '\\' :: run.names.one.pascal.toList := by
      rw [Import.name, Row.filled, List.flatMap_singleton, Piece.filled, valueOf_modelClass, h.config,
        Option.getD_some, String.toList_append, String.toList_append, List.append_assoc]
      rfl
    have hlead : "App\\Models".toList.all (fun d => d == '\\' || Review.isNameRest d) = true := by decide
    obtain ⟨hword, hshort⟩ := Php.isWord_qualified (fun d hd => by simpa using List.all_eq_true.1 hlead d hd)
      (Layout.isNameRest_model h.spelled)
    rw [hname]
    refine ⟨hword, hshort.trans ?_⟩
    simp [Import.mould, Name.Mould.made]
  | generated d k' =>
    obtain ⟨hd, hk', hclass'⟩ := hknown
    obtain ⟨place, hplace⟩ := Layout.exists_place hk' hclass'
    have ht' := Layout.target_eq (Layout.target_class hplace hclass' run.config run.names run.version)
    have hviews : k' ≠ .views := by rintro rfl; cases hclass'
    have hrefers := refers_fileSubstitutions (refers_categorySubstitutions hd hk' hclass' ht') k t
    have hname : Row.filled (fileValue run c k t) (Import.generated d k').name =
        (place.namespaceName run.config.namespaces run.names.one.pascal run.version).toList ++
          '\\' :: (place.className run.names.one.pascal).toList := by
      simp only [Import.name, Row.filled, List.flatMap_cons, List.flatMap_nil, Piece.filled, hrefers.toNamespace,
        hrefers.toClass, Option.getD_some, List.append_nil]
      rfl
    obtain ⟨hword, hshort⟩ := Php.isWord_qualified (isName_namespace h hversion hviews ht')
      (isNameRest_className h hviews ht')
    rw [hname]
    refine ⟨hword, hshort.trans ?_⟩
    rw [Import.mould, hplace, Name.Mould.made, ClassPlace.className, String.toList_append, String.toList_append]
  | framework levels name =>
    have hidentifier : ∀ part ∈ levels ++ [name], ∀ d ∈ part.toList, Review.isNameRest d = true :=
      fun part hpart d hd => Review.isNameRest_of_identifier (hknown part hpart) hd
    have hname : Row.filled (fileValue run c k t) (Import.framework levels name).name =
        levels.flatMap (fun level => level.toList ++ ['\\']) ++ name.toList := by
      have hmark : "\\".toList = ['\\'] := rfl
      simp only [Import.name, Row.filled, List.flatMap_append, List.flatMap_assoc, List.flatMap_cons, List.flatMap_nil,
        Piece.filled, hmark, List.append_nil]
    have hne : name.toList ≠ [] := fun hnil => by
      have hstart := hknown name (by simp)
      rw [hnil] at hstart
      cases hstart
    rw [hname]
    exact Php.isWord_levels hne (fun level hlevel => hidentifier level (List.mem_append_left _ hlevel))
      (hidentifier name (by simp))

/-- The line of an import. -/
theorem read_import (hi : i ∈ (head c k).imports) :
    Php.imported? (i.row.filled (fileValue run c k t)) = some (i.mould.made run.names.one.pascal.toList) ∧
      Php.declared? (i.row.filled (fileValue run c k t)) = none := by
  obtain ⟨hword, hshort⟩ := filled_name h hversion (t := t) hi
  have hrow : i.row.filled (fileValue run c k t) = "use ".toList ++ i.name.filled (fileValue run c k t) ++ [';'] := by
    simp only [Import.row, Row.filled, List.cons_append, List.flatMap_cons, List.flatMap_append, List.flatMap_nil,
      Piece.filled, List.append_nil, List.append_assoc]
    rfl
  rw [hrow, ← hshort]
  exact Php.imported?_use hword

/-- A reader of lines that finds nothing but imports and classes. -/
theorem filterMap_headLines {f : List Char → Option (List Char)}
    (hf : ∀ cs, Php.imported? cs = none ∧ Php.declared? cs = none → f cs = none)
    (ht : Layout.target? run.config run.names run.version c k = some t) (hk : k ∈ c.kinds) (hclass : k.isClass = true) :
    (Php.headLines (Template.fill (templateText c k none) (fileSubstitutions run c k t))).filterMap f =
      ((head c k).imports.filterMap fun i => f (i.row.filled (fileValue run c k t))) ++
        (f ((head c k).declaration.filled (fileValue run c k t))).toList := by
  have hnone : ∀ rows : List Row, (∀ row ∈ rows, row ∈ Head.opening ∨ row ∈ (head c k).gap ∨
      row ∈ (head c k).commentLines) → (rows.map (Row.filled (fileValue run c k t))).filterMap f = [] :=
    fun rows hrows => List.filterMap_eq_nil_iff.2 fun cs hcs => by
      obtain ⟨row, hrow, rfl⟩ := List.mem_map.1 hcs
      exact hf _ (silent_of_mem (hrows row hrow) _)
  have hlast : ∀ cs, [cs, []].filterMap f = (f cs).toList := fun cs => by
    rw [List.filterMap_cons, List.filterMap_cons, hf [] ⟨rfl, rfl⟩]
    cases f cs <;> rfl
  rw [headLines_file h hversion ht hk hclass, Head.rows, List.map_append, List.append_assoc, List.filterMap_append,
    List.map_append, List.filterMap_append, List.map_append, List.filterMap_append, List.map_append,
    List.filterMap_append, hnone _ fun _ => .inl, hnone _ fun _ hrow => .inr (.inl hrow),
    hnone _ fun _ hrow => .inr (.inr hrow), List.map_map, List.filterMap_map, List.nil_append, List.append_nil,
    List.append_nil]
  exact congrArg _ (hlast _)

/-- What is read from a class file: the imports of its head, with the model in their names, and its class. -/
theorem read_file (ht : Layout.target? run.config run.names run.version c k = some t) (hk : k ∈ c.kinds)
    (hclass : k.isClass = true) :
    Php.imports (Template.fill (templateText c k none) (fileSubstitutions run c k t)) =
        (head c k).imports.map (fun i => i.mould.made run.names.one.pascal.toList) ∧
      Php.declared (Template.fill (templateText c k none) (fileSubstitutions run c k t)) = [t.className.toList] := by
  have himport := fun i (hi : i ∈ (head c k).imports) => read_import h hversion (t := t) hi
  obtain ⟨hnone, hdeclared⟩ := read_declaration h ht hk hclass
  constructor
  · rw [Php.imports, filterMap_headLines h hversion (fun _ hcs => hcs.1) ht hk hclass, hnone, Option.toList_none,
      List.append_nil, ← List.filterMap_eq_map]
    exact List.filterMap_congr fun i hi => (himport i hi).1
  · rw [Php.declared, filterMap_headLines h hversion (fun _ hcs => hcs.2) ht hk hclass, hdeclared,
      List.filterMap_eq_nil_iff.2 fun i hi => (himport i hi).2]
    rfl

end Usual

end Values

end Generator

end Scaffold
