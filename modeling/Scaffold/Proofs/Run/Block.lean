import Scaffold.Generator
import Scaffold.Proofs.Route.Sequence
import Scaffold.Proofs.Run.Request
import Scaffold.Proofs.Template.Pieces

/-!
# The block of routes

The packaged templates are rows of pieces (`source_stubRows`), so the block that is merged is known row
by row. All values but the opening line of the group are names, which hold no line end but a newline:
hence no row of the block comes back as an import unless the opening line does, and the row with the
parameters always comes back with the quoted name of the entity (`fits_routeCall`).
-/

namespace Scaffold.Generator
open Template (Piece Row valueOf)
open Text (stripped)

/-- The packaged template of a category's routes. -/
def routeStub (c : Category) : String :=
  if c = .api then Stubs.Routes.api else Stubs.Routes.web

/-- The rows of the packaged template of a category's routes. -/
def stubRows (c : Category) : List Row :=
  let api := c = .api
  [[.text "use ", .slot "controllerNamespace", .text "\\", .slot "controller", .text ";"],
   [],
   if api then [.text "// ", .slot "modelPluralTitle", .text " API ", .slot "version"]
   else [.text "// ", .slot "modelPluralTitle"],
   [.slot "routeGroup"],
   [.text (if api then "    Route::apiResource('" else "    Route::resource('"), .slot "modelPluralKebab",
    .text "', ", .slot "controller", .text "::class)"],
   [.text "        ->parameters(['", .slot "modelPluralKebab", .text "' => 'id']);"],
   [.text "\x7d);"],
   []]

/-- All substitutions of a block of routes. -/
def blockSubstitutions (run : Run) (c : Category) (t : Target) : List (String × String) :=
  categorySubstitutions run c ++ routeSubstitutions run c t

/-- The merge of the routes of a run. -/
def routeCall (run : Run) (c : Category) (t : Target) : Route.Call where
  names := run.names
  block := Template.fill (routeStub c) (blockSubstitutions run c t)
  fqcn := t.fqcn
  boilerplate := boilerplate c

theorem packaged_boilerplate (run : Run) (c : Category) (tgt : Target) : (routeCall run c tgt).Packaged := by
  unfold Route.Call.Packaged routeCall boilerplate
  split
  · exact .inl rfl
  · exact .inr rfl

variable {run : Run} {c : Category} {k : Kind} {t : Target} {key : String}

section Values

/-- The value of each placeholder of the packaged templates of routes. -/
def blockValue (run : Run) (c : Category) (t : Target) : List (String × String) :=
  [("controllerNamespace", t.namespace), ("controller", t.className),
   ("routeGroup", Route.groupOpening (middleware run.config c) (routePrefix run.config run.version c)),
   ("modelPluralTitle", run.names.many.title), ("modelPluralKebab", run.names.many.kebab),
   ("version", run.version)]

set_option maxRecDepth 10000 in
theorem source_stubRows (c : Category) :
    routeStub c = .ofList (['\n'].intercalate ((stubRows c).map Row.source)) := by
  cases c <;> rfl

theorem notMem_routeStub (c : Category) : '\r' ∉ (routeStub c).toList := by
  rw [source_stubRows, String.toList_ofList]
  cases c <;> decide +kernel

theorem isWhole_stubRows (c : Category) : ∀ row ∈ stubRows c, ∀ p ∈ row, p.isWhole = true := by
  cases c <;> decide +kernel

theorem ne_of_mem_classSubstitutions {config : Config} {names : Naming} {version : String}
    (hkey : ∀ k : Kind, k.placeholder ++ "Namespace" ≠ key ∧ k.placeholder ++ "Class" ≠ key) :
    ∀ a ∈ classSubstitutions config names version c, a.1 ≠ key := by
  intro a ha
  obtain ⟨⟨k, t⟩, -, ha⟩ := List.mem_flatMap.1 ha
  simp only [List.mem_cons, List.not_mem_nil, or_false] at ha
  rcases ha with rfl | rfl
  · exact (hkey k).1
  · exact (hkey k).2

/-- What a category adds leaves the values of the other keys. -/
theorem valueOf_category
    (hkey : ∀ k : Kind, k.placeholder ++ "Namespace" ≠ key ∧ k.placeholder ++ "Class" ≠ key)
    (hpage : "perPage" ≠ key) :
    valueOf (categorySubstitutions run c) key.toList =
      valueOf (baseSubstitutions run.config run.names run.version) key.toList := by
  have hcategory : ∀ a ∈ (if c = .common then [] else classSubstitutions run.config run.names run.version c),
      a.1 ≠ key := by
    split
    · exact fun a ha => by cases ha
    · exact ne_of_mem_classSubstitutions hkey
  have hper : ∀ a ∈ perPage run.config c, a.1 ≠ key := by
    cases c <;> simp [perPage, hpage]
  unfold categorySubstitutions
  rw [Template.valueOf_append_left hper, Template.valueOf_append_left hcategory]

/-- What a category and its routes add leaves the values of the other keys. -/
theorem valueOf_base
    (hkey : ∀ k : Kind, k.placeholder ++ "Namespace" ≠ key ∧ k.placeholder ++ "Class" ≠ key)
    (hpage : "perPage" ≠ key) (hroute : ∀ a ∈ routeSubstitutions run c t, a.1 ≠ key) :
    valueOf (blockSubstitutions run c t) key.toList =
      valueOf (baseSubstitutions run.config run.names run.version) key.toList := by
  rw [blockSubstitutions, Template.valueOf_append_left hroute, valueOf_category hkey hpage]

theorem valueOf_block {v : String} (h : (key, v) ∈ blockValue run c t) :
    valueOf (blockSubstitutions run c t) key.toList = some v.toList := by
  simp only [blockValue, List.mem_cons, Prod.mk.injEq, List.not_mem_nil, or_false] at h
  rcases h with ⟨rfl, rfl⟩ | ⟨rfl, rfl⟩ | ⟨rfl, rfl⟩ | ⟨rfl, rfl⟩ | ⟨rfl, rfl⟩ | ⟨rfl, rfl⟩
  · exact Template.valueOf_append_right rfl
  · exact Template.valueOf_append_right rfl
  · exact Template.valueOf_append_right rfl
  · have hclass : ∀ k : Kind, k.placeholder ++ "Namespace" ≠ "modelPluralTitle" ∧
        k.placeholder ++ "Class" ≠ "modelPluralTitle" := by rintro ⟨⟩ <;> decide
    rw [valueOf_base hclass (by decide) (by simp [routeSubstitutions])]
    unfold baseSubstitutions
    rw [Template.valueOf_append_left (ne_of_mem_classSubstitutions hclass),
      Template.valueOf_append_left (by simp)]
    rfl
  · have hclass : ∀ k : Kind, k.placeholder ++ "Namespace" ≠ "modelPluralKebab" ∧
        k.placeholder ++ "Class" ≠ "modelPluralKebab" := by rintro ⟨⟩ <;> decide
    rw [valueOf_base hclass (by decide) (by simp [routeSubstitutions])]
    unfold baseSubstitutions
    rw [Template.valueOf_append_left (ne_of_mem_classSubstitutions hclass),
      Template.valueOf_append_left (by simp)]
    rfl
  · have hclass : ∀ k : Kind, k.placeholder ++ "Namespace" ≠ "version" ∧
        k.placeholder ++ "Class" ≠ "version" := by rintro ⟨⟩ <;> decide
    rw [valueOf_base hclass (by decide) (by simp [routeSubstitutions])]
    unfold baseSubstitutions
    rw [Template.valueOf_append_left (ne_of_mem_classSubstitutions hclass)]
    exact Template.valueOf_append_right rfl

end Values

section Rows

theorem exists_value (run : Run) (t : Target) {row : Row} (hrow : row ∈ stubRows c)
    (hkey : .slot key ∈ row) : ∃ v, (key, v) ∈ blockValue run c t := by
  have hkeys : ∀ row ∈ stubRows c, ∀ p ∈ row, ∀ key, p = .slot key →
      key ∈ ["controllerNamespace", "controller", "routeGroup", "modelPluralTitle", "modelPluralKebab",
        "version"] := by
    cases c <;> simp [stubRows]
  obtain ⟨⟨key', v⟩, hv, rfl⟩ : ∃ a ∈ blockValue run c t, a.1 = key :=
    List.mem_map.1 (hkeys row hrow _ hkey key rfl)
  exact ⟨v, hv⟩

theorem filled_slot {v : String} (h : (key, v) ∈ blockValue run c t) :
    (Piece.slot key).filled (valueOf (blockSubstitutions run c t)) = v.toList := by
  rw [Piece.filled, valueOf_block h, Option.getD_some]

theorem filled_between {v : String} (h : (key, v) ∈ blockValue run c t) (before behind : String) :
    Row.filled (valueOf (blockSubstitutions run c t)) [.text before, .slot key, .text behind] =
      before.toList ++ v.toList ++ behind.toList := by
  simp only [Row.filled, List.flatMap_cons, List.flatMap_nil, filled_slot h, List.append_nil, List.append_assoc]
  rfl

theorem block_eq (run : Run) (c : Category) (t : Target) :
    (routeCall run c t).block = .ofList (['\n'].intercalate
      ((stubRows c).map (Row.filled (valueOf (blockSubstitutions run c t))))) := by
  have hvalue : ∀ row ∈ stubRows c, ∀ key, .slot key ∈ row →
      (valueOf (blockSubstitutions run c t) key.toList).isSome := fun row hrow key hkey => by
    obtain ⟨v, hv⟩ := exists_value run t hrow hkey
    rw [valueOf_block hv, Option.isSome_some]
  show Template.fill (routeStub c) _ = _
  rw [Template.fill, source_stubRows, String.toList_ofList,
    Template.fillChars_rows (isWhole_stubRows c) hvalue]

theorem notMem_filled {row : Row} {d : Char} (hrow : row ∈ stubRows c) (hgroup : .slot "routeGroup" ∉ row)
    (htext : ∀ s, .text s ∈ row → d ∉ s.toList)
    (hvalue : ∀ key v, (key, v) ∈ blockValue run c t → key ≠ "routeGroup" → d ∉ v.toList) :
    d ∉ row.filled (valueOf (blockSubstitutions run c t)) := by
  intro hmem
  obtain ⟨p, hp, hmem⟩ := List.mem_flatMap.1 hmem
  cases p with
  | text s => exact htext s hp hmem
  | slot key =>
    obtain ⟨v, hv⟩ := exists_value run t hrow hp
    rw [filled_slot hv] at hmem
    exact hvalue key v hv (fun h => hgroup (h ▸ hp)) hmem

end Rows

section Fits
variable {o : Options}

theorem ne_of_isLoose {d : Char} (h : d = '\\' ∨ Review.isLoose d = true) : d ≠ ' ' ∧ d ≠ '\r' := by
  constructor <;> rintro rfl <;> rcases h with h | h <;> cases h

/-- What the names in the block may be made of. -/
theorem of_mem_value (ha : Accepted run.config o) (hn : run.names.Spelled)
    (hversion : run.version = Layout.version run.config o.apiVersion)
    (ht : Layout.target? run.config run.names run.version c .routes = some t) {key v : String}
    (h : (key, v) ∈ blockValue run c t) (hkey : key ≠ "routeGroup") {d : Char} (hd : d ∈ v.toList) :
    d = '\\' ∨ d = ' ' ∨ d = '-' ∨ Review.isLoose d = true := by
  rw [hversion] at ht
  have hrest : Review.isNameRest d = true → d = '\\' ∨ d = ' ' ∨ d = '-' ∨ Review.isLoose d = true :=
    fun h => .inr (.inr (.inr (Review.isLoose_of_nameRest h)))
  simp only [blockValue, List.mem_cons, Prod.mk.injEq, List.not_mem_nil, or_false] at h
  rcases h with ⟨rfl, rfl⟩ | ⟨rfl, rfl⟩ | ⟨rfl, rfl⟩ | ⟨rfl, rfl⟩ | ⟨rfl, rfl⟩ | ⟨rfl, rfl⟩
  · exact (Layout.isLoose_namespace ha hn (by simp) ht _ hd).imp_right fun h => .inr (.inr h)
  · exact hrest (Layout.isNameRest_className hn (by simp) ht _ hd)
  · exact absurd rfl hkey
  · exact .inr ((hn.title _ hd).imp_right fun h => .inr (Review.isLoose_of_nameRest (Review.isNameRest_of_alphanum h)))
  · exact .inr (.inr ((hn.kebab _ hd).imp_right fun h =>
      Review.isLoose_of_nameRest (Review.isNameRest_of_alphanum h)))
  · exact .inr (.inr (.inr (Layout.isLoose_version ha _ (hversion ▸ hd))))

/-- No row but that of the opening line has a carriage return. -/
theorem return_notMem_row (ha : Accepted run.config o) (hn : run.names.Spelled)
    (hversion : run.version = Layout.version run.config o.apiVersion)
    (ht : Layout.target? run.config run.names run.version c .routes = some t) {row : Row} (hrow : row ∈ stubRows c)
    (hgroup : row ≠ [.slot "routeGroup"]) : '\r' ∉ row.filled (valueOf (blockSubstitutions run c t)) := by
  have hclean : ∀ row ∈ stubRows c, row ≠ [.slot "routeGroup"] →
      .slot "routeGroup" ∉ row ∧ ∀ s, .text s ∈ row → '\r' ∉ s.toList := by
    cases c <;> simp [stubRows]
  obtain ⟨hslot, htext⟩ := hclean row hrow hgroup
  refine notMem_filled hrow hslot htext fun key v hv hkey hr => ?_
  rcases of_mem_value ha hn hversion ht hv hkey hr with h | h | h | h <;> cases h

theorem filled_group (run : Run) (c : Category) (t : Target) :
    Row.filled (valueOf (blockSubstitutions run c t)) [.slot "routeGroup"] =
      (Route.groupOpening (middleware run.config c) (routePrefix run.config run.version c)).toList := by
  have hv : ("routeGroup", Route.groupOpening (middleware run.config c) (routePrefix run.config run.version c)) ∈
      blockValue run c t := by simp [blockValue]
  rw [Row.filled, List.flatMap_singleton, filled_slot hv]

theorem blockLines_routeCall (run : Run) (c : Category) (t : Target) :
    Route.blockLines (routeCall run c t).block = (stubRows c).flatMap fun row =>
      Route.blockLines (.ofList (row.filled (valueOf (blockSubstitutions run c t)))) := by
  rw [block_eq, Route.blockLines_intercalate, List.flatMap_map]

/-- The row of the block with the parameters of the routes. -/
def parameterRow (token : List Char) : List Char :=
  "        ->parameters(['".toList ++ token ++ "' => 'id']);".toList

theorem parameterRow_eq (token : List Char) : parameterRow token =
    List.replicate 8 ' ' ++ '-' :: (">parameters([".toList ++ '\'' :: token ++ '\'' :: " => 'id']);".toList) := by
  unfold parameterRow
  rw [show "        ->parameters(['".toList =
      List.replicate 8 ' ' ++ '-' :: (">parameters([".toList ++ ['\'']) from rfl,
    show "' => 'id']);".toList = '\'' :: " => 'id']);".toList from rfl]
  simp only [List.append_assoc, List.cons_append, List.nil_append]

theorem notMem_parameterRow {d : Char} {token : List Char} (hd : d ∉ token)
    (hbefore : d ∉ "        ->parameters(['".toList) (hbehind : d ∉ "' => 'id']);".toList) :
    d ∉ parameterRow token := by
  unfold parameterRow
  rw [List.mem_append, List.mem_append]
  rintro ((h | h) | h)
  · exact hbefore h
  · exact hd h
  · exact hbehind h

theorem mem_blockLines_parameterRow {token : String} (hn : '\n' ∉ token.toList) (hr : '\r' ∉ token.toList) :
    .ofList (parameterRow token.toList) ∈ Route.blockLines (.ofList (parameterRow token.toList)) := by
  have hrow := parameterRow_eq token.toList
  have hnewline := notMem_parameterRow hn (by decide) (by decide)
  have hreturn := notMem_parameterRow hr (by decide) (by decide)
  have hstrip : (parameterRow token.toList).dropWhile Text.isBlank =
      '-' :: (">parameters([".toList ++ '\'' :: token.toList ++ '\'' :: " => 'id']);".toList) := by
    have hblank : ∀ c ∈ List.replicate 8 ' ', Text.isBlank c = true := fun c hc => by
      rw [List.eq_of_mem_replicate hc]
      decide
    rw [hrow, List.dropWhile_append_of_pos hblank, List.dropWhile_cons_of_neg (by decide)]
  have hsolid : Text.isSolid (.ofList (parameterRow token.toList)) = true :=
    Text.isSolid_iff.2 ⟨'-', by
      rw [String.toList_ofList, hrow]
      exact List.mem_append_right _ (List.mem_cons_self ..), by decide⟩
  have himport := Route.isImport_of_head hstrip (by decide)
  rw [Route.blockLines_eq (by rwa [String.toList_ofList]), Route.Document.keptLines, Text.lines,
    String.toList_ofList, Text.splitAtChar_of_notMem hnewline]
  refine List.mem_filter.2 ⟨by simp, ?_⟩
  rw [Text.isSolid] at hsolid
  simp only [hsolid, himport, Bool.not_false, Bool.and_self]

theorem holdsToken_parameterRow (token : String) :
    Route.holdsToken (.ofList (parameterRow token.toList)) token = true := by
  refine Route.holdsToken_iff_infix.2 ⟨'\'', .inl rfl,
    List.replicate 8 ' ' ++ '-' :: ">parameters([".toList, " => 'id']);".toList, ?_⟩
  rw [String.toList_ofList, parameterRow_eq]
  simp

theorem token_routeCall (hn : run.names.Spelled) (c : Category) (t : Target) :
    ∃ raw ∈ Route.blockLines (routeCall run c t).block, Route.holdsToken raw run.names.many.kebab = true := by
  have hnewline : '\n' ∉ run.names.many.kebab.toList := fun h => by
    rcases hn.kebab _ h with h | h <;> cases h
  have hreturn : '\r' ∉ run.names.many.kebab.toList := fun h => by
    rcases hn.kebab _ h with h | h <;> cases h
  have hv : ("modelPluralKebab", run.names.many.kebab) ∈ blockValue run c t := by simp [blockValue]
  refine ⟨_, ?_, holdsToken_parameterRow _⟩
  rw [blockLines_routeCall]
  refine List.mem_flatMap.2 ⟨[.text "        ->parameters(['", .slot "modelPluralKebab",
    .text "' => 'id']);"], by simp [stubRows], ?_⟩
  rw [filled_between hv]
  exact mem_blockLines_parameterRow hnewline hreturn

/-- The block that is rendered from the packaged template can be merged and read again. The opening line
of the group is the only part of it that the review does not look at. -/
theorem fits_routeCall (ha : Accepted run.config o) (hn : run.names.Spelled)
    (hversion : run.version = Layout.version run.config o.apiVersion)
    (ht : Layout.target? run.config run.names run.version c .routes = some t)
    (hopening : ∀ l ∈ Route.blockLines (Route.groupOpening (middleware run.config c)
      (routePrefix run.config run.version c)), Route.isImport (stripped l) = false) :
    (routeCall run c t).Fits := by
  constructor
  · have hfqcn := fun d hd => ne_of_isLoose (Layout.isLoose_fqcn (d := d) ha hn (by simp) (hversion ▸ ht) hd)
    exact Route.reach_importLines (fun h => (hfqcn _ h).1 rfl) fun h => (hfqcn _ h).2 rfl
  · intro l hl
    rw [blockLines_routeCall] at hl
    obtain ⟨row, hrow, hl⟩ := List.mem_flatMap.1 hl
    by_cases hgroup : row = [.slot "routeGroup"]
    · rw [hgroup, filled_group, String.ofList_toList] at hl
      exact hopening l hl
    · -- without a carriage return the row is read back as it is, and its imports are dropped
      have hr := return_notMem_row ha hn hversion ht hrow hgroup
      rw [Route.blockLines_eq (by rwa [String.toList_ofList])] at hl
      exact Route.isImport_of_mem_keptLines hl
  · exact token_routeCall hn c t
  · intro h
    rcases hn.kebab _ h with h | h <;> cases h

end Fits

end Scaffold.Generator
