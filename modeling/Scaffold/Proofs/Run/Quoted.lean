import Scaffold.Proofs.Name.Plural
import Scaffold.Proofs.Run.Block

/-!
# The quoted texts of route files

A quoted name is a piece between two quotes. In the usual layout the pieces of a block are its entity's own name
and some that no entity has (`holdsToken_block`), and so are those of the first content of a route file, but for
one name that an entity may have (`holdsToken_boilerplate`).
-/

namespace Scaffold

theorem Text.mem_splitAtChar_of_quoted {sep : Char} {token cs : List Char} (hsep : sep ∉ token)
    (h : sep :: token ++ [sep] <:+: cs) : token ∈ splitAtChar sep cs := by
  obtain ⟨before, behind, rfl⟩ := h
  rw [show before ++ (sep :: token ++ [sep]) ++ behind = before ++ sep :: (token ++ sep :: behind) by simp,
    splitAtChar_append, splitAtChar_append, splitAtChar_of_notMem hsep]
  simp

theorem Php.mem_escape {c : Char} {cs : List Char} (h : c ∈ cs) : c ∈ escape cs := by
  induction cs with
  | nil => cases h
  | cons d cs ih =>
    rw [escape]
    rcases List.mem_cons.1 h with rfl | h
    · split <;> simp
    · split <;> simp [ih h]

namespace Route
variable {text token : String}

/-- A quoted name is a piece between single quotes where no others are. -/
theorem mem_pieces_of_holdsToken (hdouble : '"' ∉ text.toList) (hsingle : '\'' ∉ token.toList)
    (h : holdsToken text token = true) : token.toList ∈ Text.splitAtChar '\'' text.toList := by
  obtain ⟨q, rfl | rfl, hin⟩ := holdsToken_iff_infix.1 h
  · exact Text.mem_splitAtChar_of_quoted hsingle hin
  · exact absurd (hin.mem (List.mem_cons_self ..)) hdouble

theorem not_holdsToken (hdouble : '"' ∉ text.toList) (hsingle : '\'' ∉ text.toList) :
    holdsToken text token = false := by
  rw [Bool.eq_false_iff]
  intro h
  obtain ⟨q, rfl | rfl, hin⟩ := holdsToken_iff_infix.1 h
  · exact hsingle (hin.mem (List.mem_cons_self ..))
  · exact hdouble (hin.mem (List.mem_cons_self ..))

end Route

namespace Generator
variable {entity : String} {n : Naming}

/-- What the name of an entity's routes may be made of. -/
def isTokenChar (d : Char) : Bool :=
  d = '-' || d.isAlphanum

theorem isTokenChar_kebab (hn : n.Spelled) : ∀ d ∈ n.many.kebab.toList, isTokenChar d = true := fun d hd => by
  simpa [isTokenChar] using hn.kebab d hd

theorem quote_notMem_kebab (hn : n.Spelled) : '\'' ∉ n.many.kebab.toList := fun hd => by
  cases isTokenChar_kebab hn _ hd

section Block
open Template (Row valueOf)
variable {run : Run} {o : Options} {c : Category} {t : Target} {m : Naming} {before word behind : List Char}

/-- What stands between quotes in route files, but is the name of no routes. -/
def isOther (piece : List Char) : Bool :=
  (piece.any fun d => !isTokenChar d) || (Naming.common.map String.toList).contains piece

theorem ne_of_isOther (hm : Naming.derive? entity = some m) {piece : List Char} (h : isOther piece = true) :
    piece ≠ m.many.kebab.toList := by
  rintro rfl
  rcases Bool.or_eq_true_iff.1 h with hany | hcommon
  · obtain ⟨d, hd, hnone⟩ := List.any_eq_true.1 hany
    rw [isTokenChar_kebab (Naming.spelled hm) d hd] at hnone
    cases hnone
  · obtain ⟨name, hname, heq⟩ := List.mem_map.1 (List.contains_iff_mem.1 hcommon)
    exact Naming.kebab_notMem hm (String.toList_inj.1 heq ▸ hname)

theorem not_holdsToken_of_isOther (hm : Naming.derive? entity = some m) {text : String} (hdouble : '"' ∉ text.toList)
    (h : ∀ piece ∈ Text.splitAtChar '\'' text.toList, isOther piece = true) :
    Route.holdsToken text m.many.kebab = false := by
  rw [Bool.eq_false_iff]
  intro hheld
  have hpiece := Route.mem_pieces_of_holdsToken hdouble (quote_notMem_kebab (Naming.spelled hm)) hheld
  exact ne_of_isOther hm (h _ hpiece) rfl

/-- Of the names in quotes that stand in a new route file, an entity may have only one. -/
theorem holdsToken_boilerplate (hm : Naming.derive? entity = some m) (c : Category) :
    Route.holdsToken (boilerplate c) m.many.kebab = true ↔ c = .api ∧ m.many.kebab = "status" := by
  -- The characters of a long text are found much faster part by part.
  have hapi : ∀ piece ∈ Text.splitAtChar '\'' Route.apiBoilerplate.toList,
      isOther piece = true ∨ piece = "status".toList := by
    simp only [Route.apiBoilerplate, String.toList_append]
    decide +kernel
  have hweb : ∀ piece ∈ Text.splitAtChar '\'' Route.webBoilerplate.toList, isOther piece = true := by
    simp only [Route.webBoilerplate, String.toList_append]
    decide +kernel
  have hdouble : '"' ∉ Route.apiBoilerplate.toList ∧ '"' ∉ Route.webBoilerplate.toList := by
    simp only [Route.apiBoilerplate, Route.webBoilerplate, String.toList_append]
    decide +kernel
  constructor
  · intro hheld
    by_cases hc : c = .api
    · have hboilerplate : boilerplate c = Route.apiBoilerplate := if_pos hc
      rw [hboilerplate] at hheld
      have hpiece := Route.mem_pieces_of_holdsToken hdouble.1 (quote_notMem_kebab (Naming.spelled hm)) hheld
      exact ⟨hc, String.toList_inj.1 ((hapi _ hpiece).resolve_left fun hother => ne_of_isOther hm hother rfl)⟩
    · have hboilerplate : boilerplate c = Route.webBoilerplate := if_neg hc
      rw [hboilerplate, not_holdsToken_of_isOther hm hdouble.2 hweb] at hheld
      cases hheld
  · rintro ⟨rfl, htoken⟩
    rw [htoken]
    decide +kernel

section Opening

theorem notMem_escape {d : Char} {cs : List Char} (hd : d ≠ '\\') (h : d ∉ cs) : d ∉ Php.escape cs := by
  induction cs with
  | nil => exact h
  | cons e cs ih =>
    obtain ⟨he, hcs⟩ := not_or.1 (List.mem_cons.not.1 h)
    rw [Php.escape]
    split <;> simp [hd, he, ih hcs]

theorem stripChar_of_ends {sep : Char} {s : String} (hhead : s.toList.head? ≠ some sep)
    (hlast : s.toList.getLast? ≠ some sep) : Text.stripChar sep s = s := by
  have hfree : ∀ cs : List Char, cs.head? ≠ some sep → cs.dropWhile (· == sep) = cs := fun cs hcs => by
    cases cs with
    | nil => rfl
    | cons d cs =>
      have hne : d ≠ sep := fun heq => hcs (by rw [heq]; rfl)
      exact List.dropWhile_cons_of_neg (by simpa using hne)
  rw [Text.stripChar, hfree _ hhead, Text.dropEndWhile, hfree _ (by rwa [List.head?_reverse]), List.reverse_reverse,
    String.ofList_toList]

theorem isLoose_toLower {d : Char} (h : Review.isLoose d = true) : Review.isLoose d.toLower = true := by
  by_cases hupper : d.isUpper = true
  · have halnum : d.toLower.isAlphanum = true := by
      rw [Name.isAlphanum_toLower, Char.isAlphanum, Char.isAlpha, hupper]
      rfl
    exact Review.isLoose_of_nameRest (Review.isNameRest_of_alphanum halnum)
  · rwa [Char.toLower_eq_of_not_isUpper (by simpa using hupper)]

theorem routePrefix_api (base : Path) {version : String} (hversion : ∀ d ∈ version.toList, Review.isLoose d = true)
    (hne : version.toList ≠ []) :
    routePrefix { basePath := base } version .api = "api/" ++ Name.lower version ∧ '/' ∉ (Name.lower version).toList ∧
      (Name.lower version).toList ≠ [] := by
  have hfree : '/' ∉ (Name.lower version).toList := by
    rw [Name.toList_lower, List.mem_map]
    rintro ⟨d, hd, heq⟩
    have hloose := isLoose_toLower (hversion d hd)
    rw [heq] at hloose
    cases hloose
  have hne' : (Name.lower version).toList ≠ [] := by
    rw [Name.toList_lower]
    simpa using hne
  refine ⟨?_, hfree, hne'⟩
  have hapi : Text.stripChar '/' "api" = "api" := by decide
  have hlower : Text.stripChar '/' (Name.lower version) = Name.lower version :=
    stripChar_of_ends (fun h => hfree (List.mem_of_mem_head? h)) fun h => hfree (List.mem_of_getLast? h)
  have hparts : ["api", Name.lower version].filter (!·.isEmpty) = ["api", Name.lower version] := by
    have hfull : (Name.lower version).isEmpty = false := by
      rw [Bool.eq_false_iff, ne_eq, String.isEmpty_iff, ← String.toList_eq_nil_iff]
      exact hne'
    simp [hfull]
  unfold routePrefix
  rw [if_pos rfl]
  simp only
  rw [hlower, hapi, hparts, String.intercalate_cons_cons, String.intercalate_singleton]
  rfl

/-- The opening line of a group with one middleware and a path, at its quotes. -/
theorem toList_groupOpening (name : String) {path : String} (hstrip : Text.stripChar '/' path = path)
    (hne : path ≠ "") : (Route.groupOpening [name] path).toList = "Route::middleware(".toList ++ '\'' ::
      (Php.escape name.toList ++ '\'' :: (")->prefix(".toList ++ '\'' :: (Php.escape path.toList ++ '\'' ::
        ")->group(function () \x7b".toList))) := by
  have hfull : path.isEmpty = false := by
    rwa [Bool.eq_false_iff, ne_eq, String.isEmpty_iff]
  unfold Route.groupOpening
  simp only [hstrip, hfull, List.isEmpty_cons, Bool.false_eq_true, ↓reduceIte, Route.middlewareCall,
    String.intercalate_cons_cons, String.intercalate_singleton, String.toList_append, List.append_assoc, Php.quote,
    String.toList_ofList, List.cons_append, List.nil_append]
  rfl

section Usual
variable (base : Path) {version : String} (hversion : ∀ d ∈ version.toList, Review.isLoose d = true)
  (hne : version.toList ≠ [])

/-- The opening line of the group of an entity's routes, in the usual layout. -/
def opening (base : Path) (version : String) (c : Category) : String :=
  Route.groupOpening (middleware { basePath := base } c) (routePrefix { basePath := base } version c)

theorem opening_web {c : Category} (hc : c ≠ .api) : opening base version c = Route.groupOpening ["web"] "" := by
  have hroot : Text.stripChar '/' "" = "" := by decide
  have hroute : routePrefix { basePath := base } version c = "" := by
    unfold routePrefix
    rw [if_neg hc]
    exact hroot
  have hmiddleware : middleware { basePath := base } c = ["web"] := if_neg hc
  rw [opening, hroute, hmiddleware]

theorem toList_path (version : String) :
    ("api/" ++ Name.lower version).toList = "api/".toList ++ (Name.lower version).toList :=
  String.toList_append

include hversion

theorem notMem_path {d : Char} (hd : d ∉ "api/".toList) (hloose : Review.isLoose d = false) :
    d ∉ ("api/" ++ Name.lower version).toList := by
  rw [toList_path, List.mem_append, Name.toList_lower, List.mem_map]
  rintro (hmem | ⟨e, he, heq⟩)
  · exact hd hmem
  · rw [← heq, isLoose_toLower (hversion e he)] at hloose
    cases hloose

include hne

theorem toList_opening_api : (opening base version .api).toList = "Route::middleware(".toList ++ '\'' ::
    ("api".toList ++ '\'' :: (")->prefix(".toList ++ '\'' ::
      (Php.escape ("api/" ++ Name.lower version).toList ++ '\'' :: ")->group(function () \x7b".toList))) := by
  obtain ⟨hroute, hslash, hlower⟩ := routePrefix_api base hversion hne
  have hmiddleware : middleware { basePath := base } .api = ["api"] := rfl
  have hstrip : Text.stripChar '/' ("api/" ++ Name.lower version) = "api/" ++ Name.lower version := by
    refine stripChar_of_ends (fun hhead => ?_) fun hlast => ?_
    · rw [toList_path] at hhead
      cases hhead
    · rw [toList_path, List.getLast?_append_of_ne_nil _ hlower] at hlast
      exact hslash (List.mem_of_getLast? hlast)
  have hapi : Php.escape "api".toList = "api".toList := by decide
  have hopening := toList_groupOpening "api" hstrip fun hempty => by
    have hpath := toList_path version
    rw [hempty] at hpath
    cases hpath
  rw [opening, hroute, hmiddleware, hopening, hapi]

theorem notMem_opening {d : Char} (hbackslash : d ≠ '\\') (hloose : Review.isLoose d = false)
    (hquote : d ≠ '\'') (hfixed : ∀ s ∈ ["Route::middleware(", "api", ")->prefix(", "api/",
      ")->group(function () \x7b"], d ∉ s.toList) (hweb : d ∉ (Route.groupOpening ["web"] "").toList) (c : Category) :
    d ∉ (opening base version c).toList := by
  by_cases hc : c = .api
  · subst hc
    have hescape := notMem_escape hbackslash (notMem_path hversion (hfixed "api/" (by simp)) hloose)
    have hstart := hfixed "Route::middleware(" (by simp)
    have hname := hfixed "api" (by simp)
    have hmiddle := hfixed ")->prefix(" (by simp)
    have hend := hfixed ")->group(function () \x7b" (by simp)
    rw [toList_opening_api base hversion hne]
    simp only [List.mem_append, List.mem_cons, hstart, hname, hmiddle, hescape, hend, hquote, or_self,
      not_false_eq_true]
  · rw [opening_web base hc]
    exact hweb

/-- The opening line of a group in the usual layout has the name of no routes in quotes. -/
theorem holdsToken_opening (hm : Naming.derive? entity = some m) (c : Category) :
    Route.holdsToken (opening base version c) m.many.kebab = false := by
  by_cases hc : c = .api
  · subst hc
    refine not_holdsToken_of_isOther hm ?_ fun piece hpiece => ?_
    · exact notMem_opening base hversion hne (by decide) (by decide) (by decide) (by decide) (by decide) .api
    · have hsingle := notMem_escape (d := '\'') (by decide) (notMem_path hversion (by decide) (by decide))
      have hname : '\'' ∉ "api".toList := by decide
      have hstart : '\'' ∉ "Route::middleware(".toList ∧ '\'' ∉ ")->prefix(".toList ∧
        '\'' ∉ ")->group(function () \x7b".toList := by decide
      rw [toList_opening_api base hversion hne, Text.splitAtChar_append, Text.splitAtChar_append,
        Text.splitAtChar_append, Text.splitAtChar_append, Text.splitAtChar_of_notMem hstart.1,
        Text.splitAtChar_of_notMem hname, Text.splitAtChar_of_notMem hstart.2.1, Text.splitAtChar_of_notMem hsingle,
        Text.splitAtChar_of_notMem hstart.2.2] at hpiece
      simp only [List.singleton_append, List.mem_cons, List.not_mem_nil, or_false] at hpiece
      rcases hpiece with rfl | rfl | rfl | rfl | rfl
      · decide
      · decide
      · decide
      · rw [isOther, Bool.or_eq_true_iff, List.any_eq_true]
        exact .inl ⟨'/', Php.mem_escape (by rw [toList_path]; simp), by decide⟩
      · decide
  · rw [opening_web base hc]
    exact not_holdsToken_of_isOther hm (by decide +kernel) (by decide +kernel)

end Usual

end Opening

/-- A row with a name in quotes has no other name in quotes. -/
theorem holdsToken_between (hm : Naming.derive? entity = some m) (hword : '\'' ∉ word)
    (hother : word ≠ m.many.kebab.toList) (hbefore : '\'' ∉ before) (hodd : isOther before = true)
    (hbehind : ∀ piece ∈ Text.splitAtChar '\'' behind, isOther piece = true)
    (hdouble : '"' ∉ before ++ ['\''] ++ word ++ '\'' :: behind) :
    Route.holdsToken (.ofList (before ++ ['\''] ++ word ++ '\'' :: behind)) m.many.kebab = false := by
  rw [Bool.eq_false_iff]
  intro hheld
  have hpiece := Route.mem_pieces_of_holdsToken (by rwa [String.toList_ofList])
    (quote_notMem_kebab (Naming.spelled hm)) hheld
  rw [String.toList_ofList, List.append_assoc, List.append_assoc, List.singleton_append, Text.splitAtChar_append,
    Text.splitAtChar_append, Text.splitAtChar_of_notMem hbefore, Text.splitAtChar_of_notMem hword] at hpiece
  simp only [List.singleton_append, List.mem_cons] at hpiece
  rcases hpiece with heq | heq | hpiece
  · exact ne_of_isOther hm hodd heq.symm
  · exact hother heq.symm
  · exact ne_of_isOther hm (hbehind _ hpiece) rfl

variable (ha : Accepted run.config o) (hspelled : run.names.Spelled)
  (hversion : run.version = Layout.version run.config o.apiVersion)
  (ht : Layout.target? run.config run.names run.version c .routes = some t)
include ha hspelled hversion ht

theorem quote_notMem_value {d : Char} (hd : d = '\'' ∨ d = '"') (key v : String)
    (hv : (key, v) ∈ blockValue run c t) (hkey : key ≠ "routeGroup") : d ∉ v.toList := fun hmem => by
  rcases hd with rfl | rfl <;>
    rcases of_mem_value ha hspelled hversion ht hv hkey hmem with h | h | h | h <;> cases h

theorem holdsToken_quiet {row : Row} (hrow : row ∈ stubRows c) (hslot : .slot "routeGroup" ∉ row)
    (htext : ∀ s, .text s ∈ row → '\'' ∉ s.toList ∧ '"' ∉ s.toList) (token : String) :
    Route.holdsToken (.ofList (row.filled (valueOf (blockSubstitutions run c t)))) token = false := by
  have hvalue := fun d hd => quote_notMem_value (d := d) ha hspelled hversion ht hd
  refine Route.not_holdsToken ?_ ?_ <;> rw [String.toList_ofList]
  · exact notMem_filled hrow hslot (fun s hs => (htext s hs).2) (hvalue _ (.inr rfl))
  · exact notMem_filled hrow hslot (fun s hs => (htext s hs).1) (hvalue _ (.inl rfl))

variable (hm : Naming.derive? entity = some m) (hother : run.names.many.kebab ≠ m.many.kebab)
include hm hother

/-- A row with the name of its own routes in quotes. -/
theorem holdsToken_named {row : Row} (before behind : List Char) (hrow : row ∈ stubRows c)
    (hslot : .slot "routeGroup" ∉ row) (htext : ∀ s, .text s ∈ row → '"' ∉ s.toList)
    (hfilled : row.filled (valueOf (blockSubstitutions run c t)) =
      before ++ ['\''] ++ run.names.many.kebab.toList ++ '\'' :: behind)
    (hsingle : '\'' ∉ before) (hodd : isOther before = true)
    (hbehind : ∀ piece ∈ Text.splitAtChar '\'' behind, isOther piece = true) :
    Route.holdsToken (.ofList (row.filled (valueOf (blockSubstitutions run c t)))) m.many.kebab = false := by
  have hname : run.names.many.kebab.toList ≠ m.many.kebab.toList := fun h => hother (String.toList_inj.1 h)
  have hdouble := notMem_filled (d := '"') hrow hslot htext (quote_notMem_value ha hspelled hversion ht (.inr rfl))
  rw [hfilled] at hdouble ⊢
  exact holdsToken_between hm (quote_notMem_kebab hspelled) hname hsingle hodd hbehind hdouble

variable (hgroup : Route.holdsToken (Route.groupOpening (middleware run.config c) (routePrefix run.config run.version c))
    m.many.kebab = false)
include hgroup

theorem holdsToken_row {row : Row} (hrow : row ∈ stubRows c) :
    Route.holdsToken (.ofList (row.filled (valueOf (blockSubstitutions run c t)))) m.many.kebab = false := by
  have hquiet := fun hslot htext => holdsToken_quiet ha hspelled hversion ht hrow hslot htext m.many.kebab
  have hnamed := fun before behind =>
    holdsToken_named ha hspelled hversion ht hm hother before behind hrow
  have hkebab : ("modelPluralKebab", run.names.many.kebab) ∈ blockValue run c t := by simp [blockValue]
  simp only [stubRows, List.mem_cons, List.not_mem_nil, or_false] at hrow
  rcases hrow with rfl | rfl | hrow | rfl | rfl | rfl | rfl | rfl
  · exact hquiet (by simp) (by simp)
  · exact hquiet (by simp) (by simp)
  · split at hrow <;> subst hrow
    · exact hquiet (by simp) (by simp)
    · exact hquiet (by simp) (by simp)
  · rw [filled_group, String.ofList_toList]
    exact hgroup
  · have hclass : ("controller", t.className) ∈ blockValue run c t := by simp [blockValue]
    obtain ⟨before, hbefore, hsingle, hodd⟩ : ∃ before : List Char,
        (if (c = .api) then "    Route::apiResource('" else "    Route::resource('").toList = before ++ ['\''] ∧
          '\'' ∉ before ∧ isOther before = true := by
      split
      · exact ⟨"    Route::apiResource(".toList, rfl, by decide, by decide⟩
      · exact ⟨"    Route::resource(".toList, rfl, by decide, by decide⟩
    have hbehind : '\'' ∉ ", ".toList ++ t.className.toList ++ "::class)".toList := by
      have hfree := quote_notMem_value ha hspelled hversion ht (.inl rfl) _ _ hclass (by decide)
      simp [hfree]
    refine hnamed before (", ".toList ++ t.className.toList ++ "::class)".toList) (by simp)
      (by split <;> simp) ?_ hsingle hodd fun piece hpiece => ?_
    · simp only [Row.filled, List.flatMap_cons, List.flatMap_nil, filled_slot hkebab, filled_slot hclass,
        List.append_nil, List.append_assoc, ← hbefore]
      rfl
    · rw [Text.splitAtChar_of_notMem hbehind, List.mem_singleton] at hpiece
      rw [hpiece, isOther, Bool.or_eq_true_iff, List.any_eq_true]
      exact .inl ⟨',', by simp, by decide⟩
  · exact hnamed "        ->parameters([".toList " => 'id']);".toList (by simp) (by simp)
      (filled_between hkebab "        ->parameters(['" "' => 'id']);") (by decide) (by decide) (by decide)
  · exact hquiet (by simp) (by simp)
  · exact hquiet (by simp) (by simp)

theorem holdsToken_block {raw : String} (hraw : raw ∈ Route.Document.keptLines (routeCall run c t).block) :
    Route.holdsToken raw m.many.kebab = false := by
  rw [block_eq, Route.keptLines_intercalate] at hraw
  obtain ⟨filled, hfilled, hraw⟩ := List.mem_flatMap.1 hraw
  obtain ⟨row, hrow, rfl⟩ := List.mem_map.1 hfilled
  have hnone := holdsToken_row ha hspelled hversion ht hm hother hgroup hrow
  rw [Bool.eq_false_iff] at hnone ⊢
  intro hheld
  obtain ⟨q, hq, hin⟩ := Route.holdsToken_iff_infix.1 hheld
  exact hnone (Route.holdsToken_iff_infix.2 ⟨q, hq, hin.trans (Route.mem_lines (List.mem_of_mem_filter hraw)).2⟩)

end Block

end Generator

end Scaffold
