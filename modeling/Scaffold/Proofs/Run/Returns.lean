import Scaffold.Proofs.Run.Isolated
import Scaffold.Proofs.Run.Project
import Scaffold.Proofs.Tree.Installed

/-!
# Runs in the usual layout return

The names of the files of artifacts hold letters, digits and a few signs (`Layout.of_mem_source`), and the packaged
templates are text. So nothing but a route file that is no text ends the run of an accepted entity
(`Project.returns`).
-/

namespace Scaffold

namespace Layout
variable {n : Naming} {version part : String} {c : Category} {k : Kind} {rest : List String} {d : Char}

/-- What the names of the files of artifacts may be made of. -/
def isFileChar (d : Char) : Bool :=
  Review.isLoose d || d == '-' || d == '.'

theorem isFileChar_of_loose (h : Review.isLoose d = true) : isFileChar d = true := by
  simp [isFileChar, h]

theorem isFileChar_of_mem (h : Presentable n version) (hrest : rest ∈ sources n version c k) (hpart : part ∈ rest)
    (hd : d ∈ part.toList) : isFileChar d = true := by
  have hkebab : ∀ d ∈ n.many.kebab.toList, isFileChar d = true := fun d hd => by
    rcases h.spelled.kebab d hd with rfl | halnum
    · decide
    · exact isFileChar_of_loose (Review.isLoose_of_nameRest (Review.isNameRest_of_alphanum halnum))
  rcases mem_sources.1 hrest with ⟨-, -, v, rfl⟩ | ⟨place, hplace, ⟨-, rfl⟩ | ⟨-, rfl⟩⟩
  · have hfixed : ∀ s ∈ ["resources", "views", v.name ++ ".blade.php"], s.toList.all isFileChar = true := by
      cases v <;> decide
    simp only [List.mem_cons, List.not_mem_nil, or_false] at hpart
    rcases hpart with rfl | rfl | rfl | rfl
    · exact List.all_eq_true.1 (hfixed _ (by simp)) d hd
    · exact List.all_eq_true.1 (hfixed _ (by simp)) d hd
    · exact hkebab d hd
    · exact List.all_eq_true.1 (hfixed _ (by simp)) d hd
  · have hfixed : ∀ s ∈ ["routes", if c = .api then "api.php" else "web.php"], s.toList.all isFileChar = true := by
      cases c <;> decide
    exact List.all_eq_true.1 (hfixed part hpart) d hd
  · have htidy := ClassPlace.isTidy_of_place? hplace
    have hmodel := isNameRest_model h.spelled
    have hfamily : ∀ s ∈ "app" :: place.family.parts, s.toList.all isFileChar = true := by
      cases place.family <;> decide
    rw [classParts, List.mem_append, List.mem_append, List.mem_singleton] at hpart
    rcases hpart with (hpart | hpart) | rfl
    · exact List.all_eq_true.1 (hfamily part hpart) d hd
    · exact isFileChar_of_loose (ClassPlace.isLoose_segments htidy hmodel h.loose hpart hd)
    · rw [String.toList_append, List.mem_append] at hd
      rcases hd with hd | hd
      · exact isFileChar_of_loose (Review.isLoose_of_nameRest (ClassPlace.isNameRest_className htidy hmodel hd))
      · have hending : ".php".toList.all isFileChar = true := by decide
        exact List.all_eq_true.1 hending d hd

end Layout

namespace Project
open Generator
variable {base p : Path} {t₀ : Tree} {o : Options} {entity : String} {n : Naming} {N : Naming → Prop} {version : String}
  {storage : Option Storage} {columns : List Column} {c : Category} {k : Kind} {w : Workspace}

theorem hasNull_file (hN : ∀ n, N n → Layout.Presentable n version)
    (hversion : Layout.version { basePath := base } o.apiVersion = version) (hn : N n)
    (hnull : Tree.hasNull base = false) (hp : p ∈ ((usual base storage).runOf o n columns).files c k) :
    Tree.hasNull p = false := by
  obtain ⟨rest, hrest, rfl, -⟩ := Project.mem_files hN hversion hn hp
  rw [Tree.hasNull, List.any_append, Bool.or_eq_false_iff]
  refine ⟨hnull, ?_⟩
  rw [List.any_eq_false]
  intro part hpart hmem
  have hchar := Layout.isFileChar_of_mem (hN n hn) hrest hpart (List.contains_iff_mem.1 hmem)
  cases hchar

/-- An accepted entity's run without a backend returns where its route files are text. -/
theorem returns (h : Project base t₀) (hN : ∀ n, N n → Layout.Presentable n version)
    (hversion : Layout.version { basePath := base } o.apiVersion = version) (hn : N n)
    (hname : Naming.derive? (Text.stripped entity) = some n) (hnull : Tree.hasNull base = false)
    (haccepts : Review.accepts w.tree (some entity) o { basePath := base } = true)
    (hu : Under (usual base none).renderer t₀ (Sources (base.resolveFrom t₀.home) version N) w)
    (hroutes : ∀ c, (c, .routes) ∈ o.planned → ¬ w.tree.Garbled (Layout.routeFile { basePath := base } c))
    (elapsed : Float) : ∃ report w', (usual base none).generate entity o elapsed w = .ok report w' ∧
      Returned (usual base none) entity o w report w' := by
  obtain ⟨review, hreview, herrors⟩ := Review.accepts_eq_true haccepts
  refine wp_returns (wp_mono (wp_generate_returned (usual base none) entity o elapsed w) (fun _ _ h => h)
    fun f _ hstop => ?_)
  obtain ⟨names, hnamed, hescapes⟩ := hstop.escapes hreview herrors (Layout.stocked_of_stubs rfl) rfl
  obtain rfl : n = names := Option.some.inj (hname.symm.trans hnamed)
  cases hescapes with
  | null planned file null =>
    rw [hasNull_file hN hversion hn hnull file] at null
    cases null
  | @garbled c k p planned read garbled =>
    rcases List.mem_append.1 read with hp | hp
    · obtain ⟨v, hv, hp⟩ := List.mem_flatMap.1 hp
      obtain ⟨id, hid, hpackaged⟩ := templateText_mem (Options.mem_kinds planned) hv
      rw [templateId_of_stubs rfl, hid] at hp
      exact hu.not_garbled (h.stock hN none) hpackaged hp garbled
    · split at hp
      · next hk =>
        subst hk
        rw [files_routes (Options.mem_kinds planned), List.mem_singleton] at hp
        exact hroutes c planned (hp ▸ garbled)
      · cases hp

end Project

namespace Tree.Fresh
variable {t : Tree} {rest : List String}

/-- Nothing stands below the working directory. -/
theorem entryAt_relative (h : t.Fresh) (hrest : ".." ∉ rest) (hne : rest ≠ []) :
    t.entryAt (Path.resolveFrom t.home ⟨.relative, rest⟩) = none := by
  rw [show Path.resolveFrom t.home ⟨.relative, rest⟩ = t.home ++ rest from Path.follow_of_not_climbs hrest]
  exact h.empty rest hne

theorem entryAt_routes (h : t.Fresh) (c : Category) :
    t.entryAt ((Layout.routeFile { basePath := Path.here } c).resolveFrom t.home) = none := by
  rw [Layout.routeFile_eq (by rfl)]
  exact h.entryAt_relative (by split <;> decide) (by simp)

theorem not_garbled_routes (h : t.Fresh) (c : Category) :
    ¬ t.Garbled (Layout.routeFile { basePath := Path.here } c) :=
  Tree.not_garbled_of_none (h.entryAt_routes c)

/-- A fresh project is one in the usual layout. -/
theorem project (h : t.Fresh) : Project Path.here t where
  grounded := h.grounded
  short part hpart := by cases hpart
  enters := ⟨t.home, [], [], rfl, by simp, rfl, h.home⟩
  packaged := h.packaged
  own a ha mode bytes := by
    obtain ⟨hrelative, -, hup, -⟩ := plain_packaged a ha
    have hparts : ({ basePath := Path.here } : Config).overridePath =
        ⟨.relative, ["resources", "stubs", "smart-crud"]⟩ :=
      Path.here.join_intercalate ["resources", "stubs", "smart-crud"] (by simp) (by decide)
    have hpath : ({ basePath := Path.here } : Config).overridePath / a.1 =
        ⟨.relative, ["resources", "stubs", "smart-crud"] ++ (Path.ofString a.1).parts⟩ := by
      rw [hparts]
      show Path.append _ _ = _
      simp [Path.append, hrelative]
    rw [hpath, h.entryAt_relative (by simp [hup]) (by simp)]
    simp

end Tree.Fresh

end Scaffold
