import Scaffold.Proofs.Run.Fresh
import Scaffold.Proofs.Run.Heads

/-!
# Parameters that meet the model

Repositories name a parameter by the model and another one `$attributes`. Behind the line of that method their
templates hold nothing of the columns (`tail_isSuffix`), so it is the last of its name in every file, and its
parameters are known. They are one for the model `Attributes`, and the model `This` has the variable of the object
(`Requested.parameters_apart`).
-/

namespace Scaffold

namespace Generator
open Template (Piece Row valueOf)

/-- The line of a public method, with what stands behind its parameters. -/
def methodRow (name : String) (parameters behind : Row) : Row :=
  .text "    public function " :: .text name :: .text "(" :: (parameters ++ .text ")" :: behind)

/-- The parameter that is the model. -/
def modelParameter : Row :=
  [.slot "model", .text " $", .slot "modelVariable"]

def updateRow (ending : String) : Row :=
  methodRow "update" (modelParameter ++ [.text ", array $attributes"]) [.text ": ", .slot "model", .text ending]

def deleteRow (ending : String) : Row :=
  methodRow "delete" modelParameter [.text ": bool", .text ending]

/-- The lines behind that of `update`. -/
def behindUpdate (k : Kind) : List Row :=
  if k = .repository then
    [[.text "    \x7b"], [.text "        $", .slot "modelVariable", .text "->update($attributes);"], [],
     [.text "        return $", .slot "modelVariable", .text "->refresh();"], [.text "    \x7d"], [], deleteRow "",
     [.text "    \x7b"], [.text "        return (bool) $", .slot "modelVariable", .text "->delete();"],
     [.text "    \x7d"], [.text "\x7d"], []]
  else [[], deleteRow ";", [.text "\x7d"], []]

/-- What the line of `update` ends in. -/
def updateEnding (k : Kind) : String :=
  if k = .repository then "" else ";"

/-- How the packaged templates of repositories end. -/
def tailRows (k : Kind) : List Row :=
  updateRow (updateEnding k) :: behindUpdate k

variable {base : Path} {run : Run} {o : Options} {c : Category} {k : Kind} {t : Target} {entity : String} {row : Row}

set_option maxRecDepth 20000 in
theorem tail_isSuffix (hk : k = .repository ∨ k = .repositoryInterface) : ∃ cs,
    templateText .common k none = .ofList cs ∧ '\n' :: ['\n'].intercalate ((tailRows k).map Row.source) <:+ cs := by
  rcases hk with rfl | rfl
  · exact ⟨_, rfl, by decide +kernel⟩
  · exact ⟨_, rfl, by decide +kernel⟩

/-- Whether a piece keeps to its line and names the model. -/
def keepsLine : Piece → Bool
  | .text s => !s.toList.contains '\n'
  | .slot key => key == "model" || key == "modelVariable"

/-- Whether a row does not start like a public method. -/
def startsOtherwise : Row → Bool
  | .text s :: _ => (s.toList.dropWhile Text.isBlank).head?.any (· ≠ 'p')
  | _ => false

theorem tailRows_fit : ∀ k ∈ Kind.all, ∀ row ∈ tailRows k,
    (row = [.text "    \x7b"] ∨ ∀ p ∈ row, p.isWhole = true) ∧ ∀ p ∈ row, keepsLine p = true := by
  decide +kernel

theorem behindUpdate_fit : ∀ k ∈ Kind.all, ∀ row ∈ behindUpdate k,
    row = [] ∨ row = deleteRow "" ∨ row = deleteRow ";" ∨ startsOtherwise row = true := by
  decide +kernel

section Usual
variable (h : run.Usual base o entity)

theorem valueOf_model : fileValue run c k t "model".toList = some run.names.one.pascal.toList :=
  valueOf_spelling (by rintro ⟨⟩ <;> decide) (by decide) (by decide) rfl

theorem valueOf_modelVariable : fileValue run c k t "modelVariable".toList = some run.names.one.camel.toList :=
  valueOf_spelling (by rintro ⟨⟩ <;> decide) (by decide) (by decide) rfl

theorem value_of_keepsLine {key : String} (hkey : keepsLine (.slot key) = true) :
    fileValue run c k t key.toList = some run.names.one.pascal.toList ∨
      fileValue run c k t key.toList = some run.names.one.camel.toList := by
  simp only [keepsLine, Bool.or_eq_true, beq_iff_eq] at hkey
  rcases hkey with rfl | rfl
  · exact .inl valueOf_model
  · exact .inr valueOf_modelVariable

theorem fillChars_tailRow (hrow : row ∈ tailRows k) :
    Template.fillChars (fileValue run c k t) row.source = row.filled (fileValue run c k t) := by
  obtain ⟨rfl | hwhole, hkeeps⟩ := tailRows_fit k k.mem_all row hrow
  · have hsame : Row.filled (fileValue run c k t) [.text "    \x7b"] = Row.source [.text "    \x7b"] := by
      simp only [Row.filled, Row.source, List.flatMap_singleton, Piece.filled, Piece.source]
    rw [hsame]
    exact Template.fillChars_of_count (by decide)
  · have hvalue : ∀ key, .slot key ∈ row → (fileValue run c k t key.toList).isSome := fun key hkey => by
      rcases value_of_keepsLine (hkeeps _ hkey) with hv | hv
      · rw [hv, Option.isSome_some]
      · rw [hv, Option.isSome_some]
    exact Template.fillChars_source hwhole hvalue

theorem method?_startsOtherwise {value? : List Char → Option (List Char)} (hstarts : startsOtherwise row = true) :
    Php.method? (row.filled value?) = none := by
  match row, hstarts with
  | .text s :: ps, hstarts =>
    rw [startsOtherwise, Option.any_eq_true] at hstarts
    obtain ⟨d, hd, hne⟩ := hstarts
    refine Php.method?_of_head (c := d) ?_ (by simpa using hne)
    rw [Row.filled, List.flatMap_cons, Piece.filled, List.dropWhile_append]
    cases hrest : s.toList.dropWhile Text.isBlank with
    | nil => rw [hrest] at hd; cases hd
    | cons e es =>
      rw [hrest] at hd
      exact hd

theorem filled_modelParameter : modelParameter.filled (fileValue run c k t) =
    (run.names.one.pascal.toList ++ [' ']) ++ '$' :: run.names.one.camel.toList := by
  simp only [modelParameter, Row.filled, List.flatMap_cons, List.flatMap_nil, Piece.filled, valueOf_model,
    valueOf_modelVariable, Option.getD_some, List.append_nil, List.append_assoc]
  rfl

theorem method?_methodRow {value? : List Char → Option (List Char)} {name : String} {parameters behind : Row}
    (hname : '(' ∉ name.toList) (hparameters : ')' ∉ parameters.filled value?) :
    Php.method? ((methodRow name parameters behind).filled value?) =
      some (name.toList, (Text.splitAtChar ',' ('(' :: parameters.filled value?)).filterMap Php.parameterName?) := by
  have hfilled : (methodRow name parameters behind).filled value? = "    public function ".toList ++
      (name.toList ++ '(' :: (parameters.filled value? ++ ')' :: behind.filled value?)) := by
    simp [methodRow, Row.filled, Piece.filled]
  rw [hfilled, Php.method?_declaration hname hparameters]

include h

theorem isNameRest_camel : ∀ d ∈ run.names.one.camel.toList, Review.isNameRest d = true := fun d hd => by
  rw [Naming.one_eq h.named] at hd
  exact Review.isNameRest_of_alphanum (Name.mem_camel hd)

theorem newline_notMem_tailRow (hrow : row ∈ tailRows k) : '\n' ∉ row.filled (fileValue run c k t) := by
  obtain ⟨-, hkeeps⟩ := tailRows_fit k k.mem_all row hrow
  intro hmem
  obtain ⟨p, hp, hmem⟩ := List.mem_flatMap.1 hmem
  cases p with
  | text s => simpa [keepsLine, Piece.filled] using And.intro (hkeeps _ hp) hmem
  | slot key =>
    rw [Piece.filled] at hmem
    rcases value_of_keepsLine (hkeeps _ hp) with hv | hv
    · rw [hv, Option.getD_some] at hmem
      cases Layout.isNameRest_model h.spelled _ hmem
    · rw [hv, Option.getD_some] at hmem
      cases isNameRest_camel h _ hmem

theorem notMem_modelParameter {d : Char} (hd : d = ',' ∨ d = ')') :
    d ∉ modelParameter.filled (fileValue run c k t) := by
  have hother : Review.isNameRest d = false ∧ d ≠ ' ' ∧ d ≠ '$' := by
    rcases hd with rfl | rfl <;> decide
  have hmodel : d ∉ run.names.one.pascal.toList := fun hmem => by
    simp [Layout.isNameRest_model h.spelled d hmem] at hother
  have hcamel : d ∉ run.names.one.camel.toList := fun hmem => by
    simp [isNameRest_camel h d hmem] at hother
  rw [filled_modelParameter]
  simp [hmodel, hcamel, hother]

theorem parameterName?_modelParameter :
    Php.parameterName? ('(' :: modelParameter.filled (fileValue run c k t)) = some run.names.one.camel.toList := by
  have hdollar : '$' ∉ '(' :: (run.names.one.pascal.toList ++ [' ']) := fun hmem => by
    simp only [List.mem_cons, List.mem_append, List.not_mem_nil, or_false, Char.reduceEq, false_or] at hmem
    cases Layout.isNameRest_model h.spelled _ hmem
  rw [filled_modelParameter, ← List.cons_append]
  exact Php.parameterName?_append hdollar (isNameRest_camel h)

theorem method?_updateRow (ending : String) : Php.method? ((updateRow ending).filled (fileValue run c k t)) =
    some ("update".toList, [run.names.one.camel.toList, "attributes".toList]) := by
  have hfilled : Row.filled (fileValue run c k t) (modelParameter ++ [.text ", array $attributes"]) =
      modelParameter.filled (fileValue run c k t) ++ ',' :: " array $attributes".toList := by
    rw [Row.filled, List.flatMap_append]
    rfl
  have hcomma : ',' ∉ '(' :: modelParameter.filled (fileValue run c k t) := by
    simpa using notMem_modelParameter h (.inl rfl)
  rw [updateRow, method?_methodRow (by decide), hfilled, ← List.cons_append, Text.splitAtChar_append,
    Text.splitAtChar_of_notMem hcomma, Text.splitAtChar_of_notMem (by decide), List.singleton_append,
    List.filterMap_cons, parameterName?_modelParameter h]
  · rfl
  · rw [hfilled]
    simpa using notMem_modelParameter h (.inr rfl)

theorem method?_deleteRow (ending : String) : Php.method? ((deleteRow ending).filled (fileValue run c k t)) =
    some ("delete".toList, [run.names.one.camel.toList]) := by
  have hcomma : ',' ∉ '(' :: modelParameter.filled (fileValue run c k t) := by
    simpa using notMem_modelParameter h (.inl rfl)
  rw [deleteRow, method?_methodRow (by decide) (notMem_modelParameter h (.inr rfl)),
    Text.splitAtChar_of_notMem hcomma, List.filterMap_cons, parameterName?_modelParameter h]
  rfl

theorem method?_behindUpdate (hrow : row ∈ behindUpdate k) :
    ∀ a ∈ Php.method? (row.filled (fileValue run c k t)), a.1 ≠ "update".toList := by
  have hdelete : ∀ ending, ∀ a ∈ Php.method? ((deleteRow ending).filled (fileValue run c k t)),
      a.1 ≠ "update".toList := by
    intro ending a ha
    rw [method?_deleteRow h] at ha
    cases ha
    exact of_decide_eq_true (by decide : decide ("delete".toList ≠ "update".toList) = true)
  rcases behindUpdate_fit k k.mem_all row hrow with rfl | rfl | rfl | hstarts
  · exact fun a ha => by cases ha
  · exact hdelete ""
  · exact hdelete ";"
  · rw [method?_startsOtherwise hstarts]
    exact fun a ha => by cases ha

/-- A file of a repository has one method that is called `update` last, and its parameters are known. -/
theorem parameters?_file (hk : k = .repository ∨ k = .repositoryInterface) :
    Php.parameters? (Template.fill (templateText .common k none) (fileSubstitutions run .common k t)) "update" =
      some [run.names.one.camel.toList, "attributes".toList] := by
  obtain ⟨cs, htext, before, hcs⟩ := tail_isSuffix hk
  have hlines : Template.fillChars (fileValue run .common k t) (['\n'].intercalate ((tailRows k).map Row.source)) =
      ['\n'].intercalate ((tailRows k).map (Row.filled (fileValue run .common k t))) := by
    rw [Template.fillChars_intercalate, List.map_map]
    exact congrArg _ (List.map_congr_left fun row hrow => fillChars_tailRow hrow)
  have hmethods : ∀ row ∈ tailRows k, Php.methods (row.filled (fileValue run .common k t)) =
      (Php.method? (row.filled (fileValue run .common k t))).toList :=
    fun row hrow => Php.methods_of_notMem (newline_notMem_tailRow h hrow)
  have hbehind : ∀ a ∈ ((behindUpdate k).map (Row.filled (fileValue run .common k t))).flatMap Php.methods,
      a.1 ≠ "update".toList := by
    intro a ha
    obtain ⟨_, hline, ha⟩ := List.mem_flatMap.1 ha
    obtain ⟨row, hrow, rfl⟩ := List.mem_map.1 hline
    rw [hmethods row (List.mem_cons_of_mem _ hrow), Option.mem_toList] at ha
    exact method?_behindUpdate h hrow a ha
  have hall : Php.methods (Template.fillChars (fileValue run .common k t) cs) =
      Php.methods (Template.fillChars (fileValue run .common k t) before) ++
        ("update".toList, [run.names.one.camel.toList, "attributes".toList]) ::
          ((behindUpdate k).map (Row.filled (fileValue run .common k t))).flatMap Php.methods := by
    rw [← hcs, Template.fillChars_append_newline, Php.methods_append_newline, hlines, Php.methods_intercalate, tailRows,
      List.map_cons, List.flatMap_cons, hmethods _ (List.mem_cons_self ..), method?_updateRow h]
    rfl
  have hfill : (Template.fill (templateText .common k none) (fileSubstitutions run .common k t)).toList =
      Template.fillChars (fileValue run .common k t) cs := by
    rw [Template.fill, htext, String.toList_ofList, String.toList_ofList]
  have hlast : (((behindUpdate k).map (Row.filled (fileValue run .common k t))).flatMap Php.methods).reverse.lookup
      "update".toList = none :=
    List.lookup_eq_none_iff.2 fun a ha => by simpa using (hbehind a (List.mem_reverse.1 ha)).symm
  rw [Php.parameters?, hfill, hall, List.reverse_append, List.reverse_cons, List.append_assoc, List.lookup_append,
    hlast, Option.none_or, List.singleton_append, List.lookup_cons_self]

end Usual

end Generator

namespace Project
open Generator
variable {base : Path} {backend : Option Backend} {t₀ : Tree} {o : Options} {entity : String} {n : Naming}
  {columns : List Column} {k : Kind} {w w' : Workspace} {report : Report} {elapsed : Float}

/-- The parameters of `update` in the file of a repository or its interface. -/
structure RepositoryFile (t₀ t : Tree) (base : Path) (o : Options) (n : Naming) (k : Kind) (tgt : Target)
    (text : String) : Prop extends Holds t₀ t base o n .common k tgt text where
  parameters : Php.parameters? text "update" = some [n.one.camel.toList, "attributes".toList]

theorem Requested.camel_eq_iff (h : Requested base t₀ o entity n) {variableName : String}
    (hne : variableName.toList ≠ []) (small : variableName.toList.all Char.isLower = true) :
    n.one.camel = variableName ↔ Name.words n.one.pascal.toList = [variableName.toList] := by
  rw [← Name.camel_eq_iff hne (List.all_eq_true.1 small), String.toList_inj, ← Spellings.ofPascal_camel, ← Naming.one_eq h.named]

theorem Requested.parameters_created (h : Requested base t₀ o entity n)
    (hran : Made base backend t₀ o n columns w report w') (hk : k = .repository ∨ k = .repositoryInterface)
    (hcreated : (.common, k, .created) ∈ report.statuses) :
    ∃ tgt text, RepositoryFile t₀ w'.tree base o n k tgt text := by
  have hclass : k.isClass = true := by rcases hk with rfl | rfl <;> rfl
  obtain ⟨-, tgt, hholds⟩ := hran.created hclass hcreated
  exact ⟨tgt, _, hholds, parameters?_file (h.usual backend columns) hk⟩

/-- The two parameters of `update` in a repository and its interface are different unless the one word of the model
is the name of the second, and the first is not the variable of the object unless the model is called so. -/
theorem Requested.parameters_apart (h : Requested base t₀ o entity n) (backend : Option Backend) (hw : w.tree = t₀)
    (hcache : (Generator.usual base (backend.map .answers)).renderer.Faithful w.cache)
    (hgenerate : (Generator.usual base (backend.map .answers)).generate entity o elapsed w = .ok report w') :
    (∀ k, k = .repository ∨ k = .repositoryInterface → (.common, k, .created) ∈ report.statuses →
      ∃ tgt text, RepositoryFile t₀ w'.tree base o n k tgt text) ∧
    (n.one.camel ≠ "attributes" ↔ Name.words n.one.pascal.toList ≠ ["attributes".toList]) ∧
    (n.one.camel ≠ "this" ↔ Name.words n.one.pascal.toList ≠ ["this".toList]) := by
  obtain ⟨columns, hran⟩ := h.ran_first hw hcache hgenerate
  refine ⟨fun k hk hcreated => h.parameters_created hran hk hcreated, ?_, ?_⟩
  · exact not_congr (h.camel_eq_iff (by decide) (by decide))
  · exact not_congr (h.camel_eq_iff (by decide) (by decide))

open Stubs (freshTree srv) in
/-- Variables that differ in the case of a letter are two. -/
theorem parameters_apart_attribute_s : ∃ report w',
    Requested Path.here (freshTree srv) {} "attribute_s" ⟨.ofPascal "AttributeS", .ofPascal "AttributeS"⟩ ∧
    (Generator.usual Path.here none).renderer.Faithful (Workspace.start (freshTree srv)).cache ∧
    (Generator.usual Path.here none).generate "attribute_s" {} 0 (Workspace.start (freshTree srv)) = .ok report w' ∧
    (.common, .repository, .created) ∈ report.statuses ∧
    (∃ location mode text, w'.tree.entryAt location = some (.file mode text.toUTF8) ∧
      Php.parameters? text "update" = some ["attributeS".toList, "attributes".toList]) ∧
    (Spellings.ofPascal "AttributeS").camel ≠ "attributes" ∧ (Spellings.ofPascal "AttributeS").camel ≠ "this" := by
  have h : First (freshTree srv) {} "attribute_s" ⟨.ofPascal "AttributeS", .ofPascal "AttributeS"⟩ :=
    ⟨Stubs.fresh_freshTree, rfl, by decide +kernel, by decide +kernel, by decide⟩
  have hcache := (Generator.usual Path.here none).renderer.faithful_start (freshTree srv)
  obtain ⟨report, w', hgenerate, -, hcreated⟩ :=
    h.exists_created (w := Workspace.start _) (by decide +kernel) rfl hcache 0
  have hrepository := hcreated (.common, .repository) (by decide)
  obtain ⟨hfiles, hattributes, hthis⟩ := h.requested.parameters_apart none rfl hcache hgenerate
  obtain ⟨tgt, text, hfile⟩ := hfiles .repository (.inl rfl) hrepository
  obtain ⟨mode, hentry⟩ := hfile.entry
  exact ⟨report, w', h.requested, hcache, hgenerate, hrepository, ⟨_, mode, text, hentry, hfile.parameters⟩,
    hattributes.2 (by decide +kernel), hthis.2 (by decide +kernel)⟩

open Stubs (freshTree srv) in
/-- The repository interface of `Attributes` has a method with two parameters of one name, and the variable of `This`
is that of the object. -/
theorem parameters_meet : (Review.ofEntity (some "Attributes")).hasErrors = false ∧
    (Review.ofEntity (some "This")).hasErrors = false ∧
    (∃ report w' mode text, (Generator.ofConfig {}).generate "Attributes" { api := false } 0
        (Workspace.start (freshTree srv)) = .ok report w' ∧
      w'.tree.entryAt ["srv", "app", "Repositories", "Attributes", "Contracts", "AttributesRepositoryInterface.php"] =
        some (.file mode text.toUTF8) ∧
      Php.parameters? text "update" = some ["attributes".toList, "attributes".toList]) ∧
    ∃ report w' mode text, (Generator.ofConfig {}).generate "This" { api := false } 0
        (Workspace.start (freshTree srv)) = .ok report w' ∧
      w'.tree.entryAt ["srv", "app", "Repositories", "This", "ThisRepository.php"] = some (.file mode text.toUTF8) ∧
      Php.parameters? text "update" = some ["this".toList, "attributes".toList] := by
  have hattributes : First (freshTree srv) { api := false } "Attributes"
      ⟨.ofPascal "Attributes", .ofPascal "Attributes"⟩ := ⟨Stubs.fresh_freshTree, rfl, by decide +kernel, by decide +kernel, by decide⟩
  have hthis : First (freshTree srv) { api := false } "This" ⟨.ofPascal "This", .ofPascal "This"⟩ :=
    ⟨Stubs.fresh_freshTree, rfl, by decide +kernel, by decide +kernel, by decide⟩
  have hcache := (Generator.usual Path.here none).renderer.faithful_start (freshTree srv)
  refine ⟨by decide +kernel, by decide +kernel, ?_, ?_⟩
  · obtain ⟨report, w', hgenerate, hran, hcreated⟩ :=
      hattributes.exists_created (w := Workspace.start _) (by decide +kernel) rfl hcache 0
    obtain ⟨tgt, text, hfile⟩ := hattributes.requested.parameters_created hran (.inr rfl)
      (hcreated (.common, .repositoryInterface) (by decide))
    obtain ⟨mode, hentry⟩ := hfile.entry
    have htarget : (Layout.target? { basePath := Path.here } ⟨.ofPascal "Attributes", .ofPascal "Attributes"⟩
        (Layout.version { basePath := Path.here } none) .common .repositoryInterface).map (·.path) = some
          ⟨.relative, ["app", "Repositories", "Attributes", "Contracts", "AttributesRepositoryInterface.php"]⟩ := by
      decide +kernel
    rw [Layout.target_eq hfile.target, Option.map_some, Option.some.injEq] at htarget
    rw [htarget] at hentry
    exact ⟨report, w', mode, text, hgenerate, hentry, hfile.parameters⟩
  · obtain ⟨report, w', hgenerate, hran, hcreated⟩ :=
      hthis.exists_created (w := Workspace.start _) (by decide +kernel) rfl hcache 0
    obtain ⟨tgt, text, hfile⟩ := hthis.requested.parameters_created hran (.inl rfl)
      (hcreated (.common, .repository) (by decide))
    obtain ⟨mode, hentry⟩ := hfile.entry
    have htarget : (Layout.target? { basePath := Path.here } ⟨.ofPascal "This", .ofPascal "This"⟩
        (Layout.version { basePath := Path.here } none) .common .repository).map (·.path) =
          some ⟨.relative, ["app", "Repositories", "This", "ThisRepository.php"]⟩ := by
      decide +kernel
    rw [Layout.target_eq hfile.target, Option.map_some, Option.some.injEq] at htarget
    rw [htarget] at hentry
    exact ⟨report, w', mode, text, hgenerate, hentry, hfile.parameters⟩

end Project

end Scaffold
