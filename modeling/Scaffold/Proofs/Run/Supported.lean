import Scaffold.Proofs.Run.Outcome
import Scaffold.Proofs.Run.Request

/-!
# Every planned artifact has a place and a template

An artifact has a place in every project (`Layout.target_ok`). It has its templates where each configured
table names what the default one names (`Layout.templateId_ok`), and then no run ends for want of one
(`generate_supported`). A table that is given takes the place of the default one as a whole, so one that is
given in part stops a run half way (`generate_unsupported`).
-/

namespace Scaffold

theorem Options.mem_kinds {o : Options} {c : Category} {k : Kind} (h : (c, k) ∈ o.planned) : k ∈ c.kinds := by
  obtain ⟨c', -, h⟩ := List.mem_flatMap.1 h
  obtain ⟨k', hk, heq⟩ := List.mem_map.1 h
  cases heq
  exact (List.mem_filter.1 hk).1

namespace Layout
open Generator (viewsOf)

variable {config : Config} {c : Category} {k : Kind}

theorem target_ok (hk : k ∈ c.kinds) (config : Config) (names : Naming) (version : String) :
    ∃ t, target config names version c k = .ok t := by
  cases c <;> cases k <;> first | exact ⟨_, rfl⟩ | exact absurd hk (by decide)

/-- The keys of the default table of a category. -/
def defaultKeys (c : Category) : List String :=
  (templateIds {} c).map Prod.fst

/-- Each configured table names what the default one names. -/
def Stocked (config : Config) : Prop :=
  ∀ c, ∀ key ∈ defaultKeys c, key ∈ (templateIds config c).map Prod.fst

theorem stocked_of_stubs (h : config.stubs = {}) : Stocked config := by
  intro c key hkey
  have hsame : templateIds config c = templateIds {} c := by cases c <;> simp only [templateIds, h]
  rwa [hsame]

theorem templateKey_mem (hk : k ∈ c.kinds) : ∀ v ∈ viewsOf k, templateKey k v ∈ defaultKeys c := by
  cases c <;> cases k <;> first | decide | exact absurd hk (by decide)

theorem templateId_ok (h : Stocked config) (hk : k ∈ c.kinds) {v : Option String} (hv : v ∈ viewsOf k) :
    ∃ id, templateId config c k v = .ok id := by
  obtain ⟨entry, hentry, hkey⟩ := List.mem_map.1 (h c _ (templateKey_mem hk v hv))
  obtain ⟨id, hid⟩ : ∃ id, (templateIds config c).lookup (templateKey k v) = some id :=
    Option.isSome_iff_exists.1 (List.lookup_isSome_iff.2 ⟨entry, hentry, by simp [hkey]⟩)
  have hsupports : supports c k = true := List.contains_iff_mem.2 hk
  exact ⟨id, by simp only [templateId, hsupports, hid, ↓reduceIte]⟩

end Layout

namespace Generator
variable {run : Run} {c : Category} {k : Kind}

theorem Run.Mishap.supported {t : Tree} {f : Fault} (h : run.Mishap t c k f) (hs : Layout.Stocked run.config)
    (hk : k ∈ c.kinds) : f.Supported := by
  rintro category kind rfl
  cases h with
  | homeless target =>
    obtain ⟨tgt, ht⟩ := Layout.target_ok hk run.config run.names run.version
    rw [ht] at target
    cases target
  | unknown view template =>
    obtain ⟨id, hid⟩ := Layout.templateId_ok hs hk view
    rw [hid] at template
    cases template
  | spoiled spoils => cases spoils

theorem Stopped.supported {g : Generator} {entity : String} {o : Options} {w : Workspace} {f : Fault}
    (h : Stopped g entity o w f) (hs : Layout.Stocked g.config) : f.Supported := by
  cases h with
  | review fails =>
    obtain ⟨e, rfl⟩ := Review.ofRequest_error fails
    intro _ _ h
    cases h
  | nameless =>
    intro _ _ h
    cases h
  | columns fails => exact (wp_error fails).1 (Introspect.wp_columns_faults ..)
  | artifact _ _ planned mishap => exact mishap.supported hs (Options.mem_kinds planned)

/-- Every planned artifact has its templates, each view too, and no run ends for want of one. -/
theorem generate_supported (g : Generator) (entity : String) (o : Options) (elapsed : Float) (w : Workspace)
    (hs : Layout.Stocked g.config) :
    (∀ c k, (c, k) ∈ o.planned → ∀ v ∈ viewsOf k, ∃ id, Layout.templateId g.config c k v = .ok id) ∧
      ∀ category kind w', g.generate entity o elapsed w ≠ .error (.unsupportedArtifact category kind) w' := by
  refine ⟨fun c k hm v hv => Layout.templateId_ok hs (Options.mem_kinds hm) hv, fun category kind w' h => ?_⟩
  exact ((wp_error h).1 (wp_generate_returned g entity o elapsed w)).supported hs category kind rfl

/-- A project with one template for the whole API. -/
theorem generate_supported_single :
    let g := Generator.ofConfig { stubs := { api := Category.api.kinds.map fun k => (k.name, "api.stub") } }
    let o : Options := { web := true }
    Layout.Stocked g.config ∧
      (∀ c k, (c, k) ∈ o.planned → ∀ v ∈ viewsOf k, ∃ id, Layout.templateId g.config c k v = .ok id) ∧
        ∀ category kind w', g.generate "Invoice" o 0 (Workspace.start ⟨[], []⟩) ≠
          .error (.unsupportedArtifact category kind) w' := by
  intro g o
  have hstocked : Layout.Stocked g.config := by
    intro c
    cases c <;> decide
  exact ⟨hstocked, generate_supported g "Invoice" o 0 (Workspace.start ⟨[], []⟩) hstocked⟩

section Partial

/-- A mapping that names the template of one artifact. -/
def partialMapping : Value :=
  .map [(.text "stubs", .map [(.text "common", .map [(.text "service", .text "service.stub")])])]

/-- The project's generator, with a directory of templates. -/
def partialGenerator (config : Config) : Generator where
  config := config
  storage := none
  renderer := ⟨none, ⟨.root, ["stubs"]⟩⟩

/-- The template that the mapping names. -/
def partialTree : Tree where
  home := []
  entries := [(["stubs"], .directory), (["stubs", "service.stub"], .file 0o644 "<?php\n".toUTF8)]

/-- What a run that does not return fails with, and what it has left at a location. -/
def stop (g : Generator) (entity : String) (o : Options) (w : Workspace) (l : Location) :
    Option (Fault × Option Entry) :=
  match g.generate entity o 0 w with
  | .ok _ _ => none
  | .error fault w' => some (fault, w'.tree.entryAt l)

theorem stop_eq_some {g : Generator} {entity : String} {o : Options} {w : Workspace} {l : Location}
    {fault : Fault} {e : Option Entry} (h : stop g entity o w l = some (fault, e)) :
    ∃ w', g.generate entity o 0 w = .error fault w' ∧ w'.tree.entryAt l = e := by
  unfold stop at h
  cases hr : g.generate entity o 0 w with
  | ok report w' => rw [hr] at h; cases h
  | error fault' w' => rw [hr] at h; cases h; exact ⟨w', rfl, rfl⟩

/-- The service is written. There the run stops, for the repository has no template. -/
theorem generate_unsupported :
    let o : Options := { api := false }
    ∃ config, Config.ofValue partialMapping = .ok config ∧
      Review.accepts partialTree (some "Book") o config = true ∧
        ∃ w', (partialGenerator config).generate "Book" o 0 (Workspace.start partialTree) =
            .error (.unsupportedArtifact "ArtifactCategory.COMMON" "repository") w' ∧
          w'.tree.entryAt ["app", "Services", "Book", "BookService.php"] =
            some (.file 0o644 "<?php\n".toUTF8) := by
  intro o
  refine ⟨{ stubs := { common := [("service", "service.stub")] } }, ?_, ?_, stop_eq_some ?_⟩
  · rfl
  · decide +kernel
  · decide +kernel

end Partial

end Generator

end Scaffold
