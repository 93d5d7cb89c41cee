import Scaffold.Proofs.Run.Frame
import Scaffold.Proofs.Run.Supported

/-!
# A failure stays with its artifact

`generate_isolated`: an accepted request comes to a report with one result for each planned artifact, in
order. Each result is what its own attempt came to where the attempt before had left the workspace, so an
artifact that fails is recorded and the next one is attempted all the same (`Outcomes`).

There are two exceptions, and `Sound` excludes them. A null character in the path of a planned file ends the
run, and so does a route file or a template that is not text (`generate_escapes`).
-/

namespace Scaffold

theorem Introspect.wp_columns_none {config : Config} {names : Naming} (w : Workspace) :
    wp (Introspect.columns none config names) (fun columns w' => columns = [] ∧ Same w w')
      (fun _ _ => False) w := by
  unfold Introspect.columns
  simp only [wp_bind, wp_say, wp_pure]
  exact ⟨trivial, rfl, rfl⟩

namespace Generator
variable {run : Run} {g : Generator} {entity : String} {o : Options} {c : Category} {k : Kind} {w : Workspace}
  {t : Tree} {f : Fault}

/-- What a run does not take into its report: a null character in the path of a planned file, and a file
that is read and is not text. -/
inductive Run.Escapes (run : Run) (o : Options) (t : Tree) : Fault → Prop where
  | null {c : Category} {k : Kind} {p : Path} (planned : (c, k) ∈ o.planned) (file : p ∈ run.files c k)
      (null : Tree.hasNull p = true) : Escapes run o t .nullInPath
  | garbled {c : Category} {k : Kind} {p : Path} (planned : (c, k) ∈ o.planned) (read : p ∈ run.reads c k)
      (garbled : t.Garbled p) : Escapes run o t .notUtf8

theorem Run.Mishap.escapes (h : run.Mishap t c k f) (hf : f.spoilsOneArtifact = false)
    (hs : Layout.Stocked run.config) (hm : (c, k) ∈ o.planned) : run.Escapes o t f := by
  cases h with
  | homeless target =>
    obtain ⟨tgt, ht⟩ := Layout.target_ok (Options.mem_kinds hm) run.config run.names run.version
    rw [ht] at target
    cases target
  | unknown view template =>
    obtain ⟨id, hid⟩ := Layout.templateId_ok hs (Options.mem_kinds hm) view
    rw [hid] at template
    cases template
  | spoiled spoils => rw [hf] at spoils; cases spoils
  | null file null => exact .null hm file null
  | garbled read garbled => exact .garbled hm read garbled

/-- An accepted request without a storage stops only with a fault that escapes. -/
theorem Stopped.escapes (h : Stopped g entity o w f) {review : Review}
    (hreview : Review.ofRequest w.tree (some entity) o g.config = .ok review)
    (herrors : review.hasErrors = false) (hs : Layout.Stocked g.config) (hstorage : g.storage? = none) :
    ∃ names, Naming.derive? (Text.stripped entity) = some names ∧ (g.runOf o names []).Escapes o w.tree f := by
  cases h with
  | review fails => rw [hreview] at fails; cases fails
  | nameless unnamed =>
    obtain ⟨names, hn⟩ := Review.exists_derive hreview herrors
    rw [hn] at unnamed
    cases unnamed
  | columns fails =>
    rw [hstorage] at fails
    exact ((wp_error fails).1 (Introspect.wp_columns_none _)).elim
  | @artifact _ names _ _ w₁ _ _ named asked planned mishap spoils =>
    rw [hstorage] at asked
    obtain ⟨rfl, hsame⟩ := (wp_ok asked).1 (Introspect.wp_columns_none _)
    have htree : w₁.tree = w.tree := hsame.1
    exact ⟨names, named, htree ▸ mishap.escapes spoils hs planned⟩

/-- No planned file has the null character in its path, and route files and templates are text. -/
structure Sound (g : Generator) (entity : String) (o : Options) (t : Tree) : Prop where
  null : ∀ p ∈ g.routeFiles entity o ++ g.ownFiles entity o, Tree.hasNull p = false
  routes : ∀ p ∈ g.routeFiles entity o, ¬ t.Garbled p
  templates : ∀ a ∈ o.planned, ∀ q ∈ templatePlaces g.config g.renderer a.1 a.2, ¬ t.Garbled q

theorem Sound.not_escapes (h : g.Sound entity o t) {names : Naming}
    (hn : Naming.derive? (Text.stripped entity) = some names) : ¬ (g.runOf o names []).Escapes o t f := by
  rintro (⟨planned, file, null⟩ | @⟨c, k, p, planned, read, garbled⟩)
  · rw [h.null _ (mem_planned hn planned file)] at null
    cases null
  · rcases List.mem_append.1 read with hq | hp
    · exact h.templates (c, k) planned p hq garbled
    · split at hp
      · next hk => exact h.routes p (mem_filesOf hn planned hp (by simpa using hk)) garbled
      · cases hp

/-- An accepted request comes to a report with one result for each planned artifact, and each is what its own
attempt came to. -/
theorem generate_isolated (g : Generator) (entity : String) (o : Options) (elapsed : Float) (w : Workspace)
    {review : Review} (hreview : Review.ofRequest w.tree (some entity) o g.config = .ok review)
    (herrors : review.hasErrors = false) (hstubs : g.config.stubs = {}) (hstorage : g.storage? = none)
    (hsound : g.Sound entity o w.tree) :
    ∃ report w' names w₁ w₂, g.generate entity o elapsed w = .ok report w' ∧
      report.results.map (fun r => (r.category, r.kind)) = o.planned ∧
        Naming.derive? (Text.stripped entity) = some names ∧
          Same w w₁ ∧ Outcomes (g.runOf o names []) w₁ report.results w₂ ∧ Same w₂ w' := by
  have hstocked := Layout.stocked_of_stubs hstubs
  obtain ⟨report, w', hgenerate, hreturned⟩ :=
    wp_returns (wp_mono (wp_generate_returned g entity o elapsed w) (fun _ _ h => h) fun f _ h => by
      obtain ⟨names, hn, hescapes⟩ := h.escapes hreview herrors hstocked hstorage
      exact hsound.not_escapes hn hescapes)
  cases hreturned with
  | refused reviewed errors =>
    rw [hreview] at reviewed
    cases reviewed
    rw [herrors] at errors
    cases errors
  | @ran _ names _ _ _ w₁ w₂ _ _ _ named asked planned outcomes same =>
    rw [hstorage] at asked
    obtain ⟨rfl, hsame⟩ := (wp_ok asked).1 (Introspect.wp_columns_none _)
    have hsame : Same w w₁ := hsame
    exact ⟨report, w', names, w₁, w₂, hgenerate, planned, named, hsame, outcomes, same⟩

section Project

/-- The project has no template for routes, so they fail. -/
theorem generate_isolated_project :
    let g := projectGenerator []
    let w := Workspace.start projectTree
    ∃ review, Review.ofRequest w.tree (some "Invoice") classesAndRoutes g.config = .ok review ∧
      review.hasErrors = false ∧ g.config.stubs = {} ∧ g.storage? = none ∧
        g.Sound "Invoice" classesAndRoutes w.tree ∧
        ∃ report w' names w₁ w₂, g.generate "Invoice" classesAndRoutes 0 w = .ok report w' ∧
          report.results.map (fun r => (r.category, r.kind)) = classesAndRoutes.planned ∧
            Naming.derive? (Text.stripped "Invoice") = some names ∧
              Same w w₁ ∧ Outcomes (g.runOf classesAndRoutes names []) w₁ report.results w₂ ∧ Same w₂ w' := by
  intro g w
  have haccepts : Review.accepts w.tree (some "Invoice") classesAndRoutes g.config = true := by
    decide +kernel
  obtain ⟨review, hreview, herrors⟩ := Review.accepts_eq_true haccepts
  have hsound : g.Sound "Invoice" classesAndRoutes w.tree := by
    have hroutes : ∀ p ∈ g.routeFiles "Invoice" classesAndRoutes,
        projectTree.entryAt (p.resolveFrom []) = none := by
      decide +kernel
    have htemplates : ∀ a ∈ classesAndRoutes.planned, ∀ q ∈ templatePlaces g.config g.renderer a.1 a.2,
        projectTree.entryAt (q.resolveFrom []) = none ∨
          ∃ s ∈ ["<?php\n", ""], projectTree.entryAt (q.resolveFrom []) = some (.file 0o644 s.toUTF8) := by
      decide +kernel
    constructor
    · decide +kernel
    · rintro p hp ⟨mode, bytes, hentry, -⟩
      rw [show w.tree.entryAt (p.resolveFrom w.tree.home) = none from hroutes p hp] at hentry
      cases hentry
    · rintro a ha q hq ⟨mode, bytes, hentry, hs⟩
      have hentry : projectTree.entryAt (q.resolveFrom []) = some (.file mode bytes) := hentry
      rcases htemplates a ha q hq with hnone | ⟨s, -, hfile⟩
      · rw [hnone] at hentry
        cases hentry
      · rw [hfile] at hentry
        cases hentry
        rw [Tree.fromUTF8?_toUTF8] at hs
        cases hs
  exact ⟨review, hreview, herrors, rfl, rfl, hsound,
    generate_isolated g "Invoice" classesAndRoutes 0 w hreview herrors rfl rfl hsound⟩

/-- The project with a template for routes, and a route file that is not text. -/
def garbledTree : Tree :=
  { projectTree with
    entries := projectTree.entries ++
      [(["stubs", "Routes"], .directory), (["stubs", "Routes", "web-routes.stub"], .file 0o644 "".toUTF8),
       (["routes"], .directory), (["routes", "web.php"], .file 0o644 ⟨#[0xff]⟩)] }

/-- The route file ends the run when the classes are written. -/
theorem generate_escapes :
    let g := projectGenerator []
    g.config.stubs = {} ∧ g.storage? = none ∧
      Review.accepts garbledTree (some "Invoice") classesAndRoutes g.config = true ∧
        ∃ w', g.generate "Invoice" classesAndRoutes 0 (Workspace.start garbledTree) = .error .notUtf8 w' ∧
          w'.tree.entryAt ["app", "Http", "Requests", "Web", "Invoice", "StoreInvoiceRequest.php"] =
            some (.file 0o644 "".toUTF8) :=
  ⟨rfl, rfl, by decide +kernel, stop_eq_some (by decide +kernel)⟩

end Project

end Generator

end Scaffold
