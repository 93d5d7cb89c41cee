import Scaffold.Proofs.Route.Commute
import Scaffold.Proofs.Run.Quoted

/-!
# The routes of two entities

In the usual layout no line end cuts the import or the block of an entity (`Run.Usual.clean_call`), and neither has the
quoted name of another one. So the calls of two entities have nothing to do with each other (`Run.Usual.beside_call`).
-/

namespace Scaffold

section Version

theorem Text.isBlank_of_getLast?_strip {d : Char} {cs : List Char} (h : (strip cs).getLast? = some d) :
    isBlank d = false := by
  have hhead := List.head?_dropWhile_not isBlank (cs.dropWhile isBlank).reverse
  rw [strip, dropEndWhile, List.getLast?_reverse] at h
  rwa [h] at hhead

/-- A version without blanks around it holds no newline. -/
theorem Layout.newline_notMem_version {base : Path} {o : Options} (ha : Accepted { basePath := base } o)
    (hclean : Options.cleanVersion o.apiVersion = o.apiVersion) :
    '\n' ∉ (version { basePath := base } o.apiVersion).toList := by
  have hcases : version { basePath := base } o.apiVersion = "V1" ∨
      Text.stripped (version { basePath := base } o.apiVersion) = version { basePath := base } o.apiVersion := by
    cases hasked : o.apiVersion with
    | none => exact .inl rfl
    | some v =>
      rw [hasked, Options.cleanVersion, Option.map_some, Option.filter_eq_some_iff, Option.some.injEq] at hclean
      unfold version
      simp only
      split
      · exact .inl rfl
      · exact .inr hclean.1
  intro hmem
  rcases hcases with hdefault | hstripped
  · rw [hdefault] at hmem
    revert hmem
    decide
  · have hform := ha.version
    simp only [Review.matchesLine, Bool.or_eq_true, Bool.and_eq_true, beq_iff_eq] at hform
    rcases hform with hform | ⟨hlast, -⟩
    · cases Review.isNameRest_of_identifier hform hmem
    · rw [← hstripped, Text.stripped, String.toList_ofList] at hlast
      cases Text.isBlank_of_getLast?_strip hlast

end Version

namespace Generator
open Template (Row valueOf)
variable {base : Path} {run run' : Run} {o : Options} {c : Category} {t t' : Target} {entity entity' : String}

/-- A run for an entity in the usual layout, with options that are accepted. -/
structure Run.Usual (run : Run) (base : Path) (o : Options) (entity : String) : Prop where
  config : run.config = { basePath := base }
  version : run.version = Layout.version run.config o.apiVersion
  accepted : Accepted run.config o
  named : Naming.derive? entity = some run.names

namespace Run.Usual

/-- How the full name of a controller starts. -/
def controllerLead (version : String) (c : Category) : List Char :=
  if c = .api then "App\\Http\\Controllers\\Api\\".toList ++ version.toList ++ ['\\']
  else "App\\Http\\Controllers\\Web\\".toList

section One
variable (h : run.Usual base o entity) (ht : Layout.target? run.config run.names run.version c .routes = some t)
include h

theorem spelled : run.names.Spelled :=
  Naming.spelled h.named

theorem loose_version : (∀ d ∈ run.version.toList, Review.isLoose d = true) ∧ run.version.toList ≠ [] := by
  rw [h.version]
  exact ⟨Layout.isLoose_version h.accepted, Layout.version_ne h.accepted⟩

theorem backslash_notMem_model : '\\' ∉ run.names.one.pascal.toList := fun hmem => by
  cases Layout.isNameRest_model h.spelled _ hmem

theorem opening_eq : Route.groupOpening (middleware run.config c) (routePrefix run.config run.version c) =
    opening base run.version c := by
  rw [h.config, opening]

include ht

theorem toList_fqcn : t.fqcn.toList = controllerLead run.version c ++ (run.names.one.pascal.toList ++
    '\\' :: (run.names.one.pascal.toList ++ "Controller".toList)) := by
  rw [h.config] at ht
  have hclass : (run.names.one.pascal ++ "Controller").isEmpty = false := by
    rw [Bool.eq_false_iff, ne_eq, String.isEmpty_iff, ← String.toList_eq_nil_iff, String.toList_append]
    simp
  cases c with
  | common => cases ht
  | api =>
    obtain rfl := Option.some.inj ht
    simp [Target.fqcn, ClassPlace.className, ClassPlace.namespaceName, ClassPlace.segments, Segment.text,
      Family.baseNamespace, controllerLead, hclass]
  | web =>
    obtain rfl := Option.some.inj ht
    simp [Target.fqcn, ClassPlace.className, ClassPlace.namespaceName, ClassPlace.segments, Segment.text,
      Family.baseNamespace, controllerLead, hclass]

theorem return_notMem_block : '\r' ∉ (routeCall run c t).block.toList := by
  obtain ⟨hloose, hne⟩ := h.loose_version
  have hopening : '\r' ∉ (opening base run.version c).toList :=
    notMem_opening base hloose hne (by decide) (by decide) (by decide) (by decide) (by decide +kernel) c
  rw [block_eq, String.toList_ofList]
  intro hmem
  rcases Text.mem_intercalate hmem with hmem | ⟨filled, hfilled, hmem⟩
  · exact absurd (List.mem_singleton.1 hmem) (by decide)
  · obtain ⟨row, hrow, rfl⟩ := List.mem_map.1 hfilled
    by_cases hgroup : row = [.slot "routeGroup"]
    · rw [hgroup, filled_group, h.opening_eq] at hmem
      exact hopening hmem
    · exact return_notMem_row h.accepted h.spelled h.version ht hrow hgroup hmem

/-- No line end cuts the lines of a block or the import in two. -/
theorem clean_call (hclean : Options.cleanVersion o.apiVersion = o.apiVersion) : (routeCall run c t).Clean where
  fqcn_newline := by
    have hmodel : '\n' ∉ run.names.one.pascal.toList := fun hmem => by
      cases Layout.isNameRest_model h.spelled _ hmem
    have hlead : '\n' ∉ controllerLead run.version c := by
      have hfree := Layout.newline_notMem_version (h.config ▸ h.accepted) hclean
      rw [← h.config, ← h.version] at hfree
      unfold controllerLead
      split <;> simp [hfree]
    show '\n' ∉ t.fqcn.toList
    rw [h.toList_fqcn ht]
    simp [hmodel, hlead]
  fqcn_return hmem :=
    (ne_of_isLoose (Layout.isLoose_fqcn h.accepted h.spelled (by simp) (h.version ▸ ht) _ hmem)).2 rfl
  block_return := h.return_notMem_block ht
  token := by
    rw [← Route.blockLines_eq (h.return_notMem_block ht)]
    exact token_routeCall h.spelled c t

theorem holdsToken_import (token : String) :
    Route.holdsToken (Route.importOf (routeCall run c t).fqcn) token = false := by
  have hfree : ∀ d, Review.isLoose d = false → d ≠ '\\' → d ∉ (routeCall run c t).fqcn.toList := fun d hd hne hmem => by
    rcases Layout.isLoose_fqcn h.accepted h.spelled (by simp) (h.version ▸ ht) d hmem with rfl | hloose
    · exact hne rfl
    · rw [hd] at hloose
      cases hloose
  have hdouble := hfree '"' (by decide) (by decide)
  have hsingle := hfree '\'' (by decide) (by decide)
  refine Route.not_holdsToken ?_ ?_ <;> rw [Route.toList_importOf]
  · simp [hdouble]
  · simp [hsingle]

end One

section Two
variable (h : run.Usual base o entity) (h' : run'.Usual base o entity')
  (ht : Layout.target? run.config run.names run.version c .routes = some t)
  (ht' : Layout.target? run'.config run'.names run'.version c .routes = some t')
  (hmodel : run.names.one.pascal ≠ run'.names.one.pascal) (hplural : run.names.many.kebab ≠ run'.names.many.kebab)
include h h' ht ht' hmodel hplural

/-- The routes of an entity have nothing to do with those of another one. -/
theorem unaware_call : (routeCall run c t).Unaware (routeCall run' c t') where
  fqcn heq := by
    have hversion : run.version = run'.version := by
      rw [h.version, h'.version, h.config, h'.config]
    have hlists : t.fqcn.toList = t'.fqcn.toList := congrArg String.toList heq
    rw [h.toList_fqcn ht, h'.toList_fqcn ht', hversion, List.append_cancel_left_eq,
      List.append_cons_inj_of_notMem h.backslash_notMem_model] at hlists
    · exact hmodel (String.toList_inj.1 hlists.1)
    · simp [h.backslash_notMem_model]
  opening := h.holdsToken_import ht _
  block raw hraw := by
    obtain ⟨hloose, hne⟩ := h.loose_version
    have hgroup : Route.holdsToken (Route.groupOpening (middleware run.config c)
        (routePrefix run.config run.version c)) run'.names.many.kebab = false := by
      rw [h.opening_eq]
      exact holdsToken_opening base hloose hne h'.named c
    exact holdsToken_block h.accepted h.spelled h.version ht h'.named hplural hgroup hraw

theorem beside_call (hclean : Options.cleanVersion o.apiVersion = o.apiVersion) :
    (routeCall run c t).Beside (routeCall run' c t') where
  clean := h.clean_call ht hclean
  clean' := h'.clean_call ht' hclean
  unaware := h.unaware_call h' ht ht' hmodel hplural
  unaware' := h'.unaware_call h ht' ht hmodel.symm hplural.symm
  packaged := packaged_boilerplate run c t
  boilerplate := rfl

end Two

end Run.Usual

end Generator

end Scaffold
