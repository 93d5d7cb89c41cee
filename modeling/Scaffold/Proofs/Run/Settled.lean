import Scaffold.Proofs.Route.Fate
import Scaffold.Proofs.Run.Block
import Scaffold.Proofs.Run.Drafted
import Scaffold.Proofs.Run.Outcome
import Scaffold.Proofs.Run.Supported

/-!
# What an attempt comes to, from the tree alone

While planned files are written, each attempt comes to what the first tree says: a class or its views to the
verdict on their files (`wp_own`), and routes to the fate of their merge (`wp_routes_routed`). No planned file but those
of the artifact has another entry then.
-/

namespace Scaffold

namespace Generator
variable {run : Run} {c : Category} {k : Kind} {v : Option String} {tgt : Target} {r : Result} {t₀ : Tree}
  {S : Location → Prop} {w w' : Workspace}

section Templates

/-- The text of the packaged template of an artifact. -/
def templateText (c : Category) (k : Kind) (v : Option String) : String :=
  match Layout.templateId {} c k v with
  | .ok id => (Stubs.packaged.lookup id).getD ""
  | .error _ => ""

theorem isSome_packaged : ∀ c ∈ Category.all, ∀ a ∈ Layout.templateIds {} c,
    (Stubs.packaged.lookup a.2).isSome = true := by
  decide +kernel

theorem templateText_mem (hk : k ∈ c.kinds) (hv : v ∈ viewsOf k) :
    ∃ id, Layout.templateId {} c k v = .ok id ∧ (id, templateText c k v) ∈ Stubs.packaged := by
  obtain ⟨id, hid⟩ := Layout.templateId_ok (Layout.stocked_of_stubs (show ({} : Config).stubs = {} from rfl)) hk hv
  have hlookup : (Layout.templateIds {} c).lookup (Layout.templateKey k v) = some id := by
    simp only [Layout.templateId, show Layout.supports c k = true from List.contains_iff_mem.2 hk, ↓reduceIte] at hid
    split at hid
    · next id' hid' =>
      cases hid
      exact hid'
    · cases hid
  obtain ⟨before, behind, htable, -⟩ := List.lookup_eq_some_iff.1 hlookup
  obtain ⟨text, htext⟩ := Option.isSome_iff_exists.1
    (isSome_packaged c c.mem_all (Layout.templateKey k v, id) (by rw [htable]; simp))
  obtain ⟨before', behind', hpackaged, -⟩ := List.lookup_eq_some_iff.1 htext
  have hname : templateText c k v = text := by
    unfold templateText
    rw [hid]
    simp only [htext, Option.getD_some]
  rw [hname, hpackaged]
  exact ⟨id, hid, by simp⟩

theorem templateText_routes (hc : c ≠ .common) : templateText c .routes none = routeStub c := by
  cases c
  · exact absurd rfl hc
  · rfl
  · rfl

theorem templateId_of_stubs {config : Config} (h : config.stubs = {}) (c : Category) (k : Kind) (v : Option String) :
    Layout.templateId config c k v = Layout.templateId {} c k v := by
  have hsame : Layout.templateIds config c = Layout.templateIds {} c := by
    cases c <;> simp only [Layout.templateIds, h]
  unfold Layout.templateId
  rw [hsame]

end Templates

namespace Run

/-- The files of a class or its views, with their texts. -/
def drafts (run : Run) (c : Category) (k : Kind) : List (Path × String) :=
  match Layout.target? run.config run.names run.version c k with
  | none => []
  | some t =>
    if k = .views then View.all.map fun v => (t.path / (v.name ++ ".blade.php"),
      Template.fill (templateText c .views (some v.name)) (viewSubstitutions run c v))
    else [(t.path, Template.fill (templateText c k none) (fileSubstitutions run c k t))]

theorem map_drafts (run : Run) (c : Category) (k : Kind) : (run.drafts c k).map Prod.fst = run.files c k := by
  unfold drafts files Layout.files
  cases Layout.target? run.config run.names run.version c k with
  | none => rfl
  | some t =>
    simp only
    split
    · rw [List.map_map]
      rfl
    · rfl

/-- Where the templates of a run come from, and that its planned files are known apart. -/
structure Steady (run : Run) (t₀ : Tree) (S : Location → Prop) (c : Category) (k : Kind) : Prop where
  stubs : run.config.stubs = {}
  stock : run.renderer.Stock t₀ S
  apart : Apart S
  kinds : k ∈ c.kinds
  aims : ∀ p ∈ run.files c k, t₀.Aims p
  planned : ∀ p ∈ run.files c k, S (p.resolveFrom t₀.home)
  nodup : ((run.files c k).map (·.resolveFrom t₀.home)).Nodup

/-- What an attempt at a class or its views has come to, with a status. -/
structure Settled (run : Run) (t₀ : Tree) (S : Location → Prop) (c : Category) (k : Kind) (w : Workspace)
    (status : Status) (w' : Workspace) : Prop where
  drafted : Under.Drafted run.renderer t₀ S run.force (run.drafts c k) w w'
  status : status = t₀.verdict run.force (run.files c k)

theorem Settled.of_wrote {d : Path × String} (hdrafts : run.drafts c k = [d])
    (hwrote : Under.Wrote run.renderer t₀ S run.force d.1 d.2 w w') (hS : S (d.1.resolveFrom t₀.home))
    (hsame : w.tree.entryAt (d.1.resolveFrom t₀.home) = t₀.entryAt (d.1.resolveFrom t₀.home)) :
    run.Settled t₀ S c k w (t₀.fate run.force d.1) w' where
  drafted := by
    rw [hdrafts]
    by_cases hfate : t₀.fate run.force d.1 = .failed
    · exact .of_failed hwrote hfate (by simpa using hS) (by simpa using hsame)
    · exact .cons hwrote (.nil hwrote.under) hfate hS (by simp)
  status := by
    rw [← map_drafts, hdrafts, List.map_singleton, Tree.verdict_singleton]

end Run

section Attempts
variable (h : run.Steady t₀ S c k)
include h

/-- A step that renders a template goes on with what its packaged text gives. -/
theorem wp_packaged {α : Type} (hu : Under run.renderer t₀ S w) (hv : v ∈ viewsOf k)
    {subs : List (String × String)} {next : String → Action α} {Q : α → Workspace → Prop} {E : Fault → Workspace → Prop}
    (hnext : ∀ w' : Workspace, w'.tree = w.tree → Under run.renderer t₀ S w' →
      wp (next (Template.fill (templateText c k v) subs)) Q E w') :
    wp (do
      let id ← Action.ofExcept (Layout.templateId run.config c k v)
      let content ← run.renderer.render id subs
      next content) Q E w := by
  obtain ⟨id, hid, hpackaged⟩ := templateText_mem h.kinds hv
  rw [wp_bind, wp_ofExcept', templateId_of_stubs h.stubs, hid]
  simp only
  rw [wp_bind]
  refine wp_mono (hu.wp_render h.stock hpackaged subs) ?_ fun _ _ hfalse => hfalse.elim
  rintro content w' ⟨rfl, htree, hu'⟩
  exact hnext w' htree hu'

/-- Rendering and writing is a step towards the drafts. -/
theorem step_packaged (hv : v ∈ viewsOf k) (hp : p ∈ run.files c k) (subs : List (String × String)) :
    Under.Step run.renderer t₀ S run.force (do
      let id ← Action.ofExcept (Layout.templateId run.config c k v)
      let content ← run.renderer.render id subs
      Writer.write p content run.force) (p, Template.fill (templateText c k v) subs) := by
  intro w hu hsame
  refine wp_packaged h hu hv fun w₁ htree hu₁ => ?_
  refine wp_mono (hu₁.wp_write (h.aims p hp) h.apart (h.planned p hp) (htree ▸ hsame) _ run.force) ?_ ?_
  · exact fun written w' ⟨hwrote, hrecord⟩ => ⟨hwrote.of_tree htree, hrecord⟩
  · exact fun f w' ⟨hwrote, hfailed⟩ => ⟨hwrote.of_tree htree, hfailed⟩

variable (hu : Under run.renderer t₀ S w)
  (hsame : ∀ p ∈ run.files c k, w.tree.entryAt (p.resolveFrom t₀.home) = t₀.entryAt (p.resolveFrom t₀.home))
include hu hsame

theorem wp_classFile_settled (hviews : k ≠ .views) :
    wp (classFile run c k) (fun r w' => run.Settled t₀ S c k w r.status w')
      (fun _ w' => run.Settled t₀ S c k w .failed w') w := by
  obtain ⟨tgt, ht⟩ := Layout.target_ok h.kinds run.config run.names run.version
  have hfiles : run.files c k = [tgt.path] := by simp [Run.files, Layout.files, Layout.target_eq ht, hviews]
  have hfile : tgt.path ∈ run.files c k := by simp [hfiles]
  have hplace := h.planned _ hfile
  have hdrafts : run.drafts c k =
      [(tgt.path, Template.fill (templateText c k none) (fileSubstitutions run c k tgt))] := by
    simp [Run.drafts, Layout.target_eq ht, hviews]
  have hsettled : ∀ w', Under.Wrote run.renderer t₀ S run.force tgt.path
      (Template.fill (templateText c k none) (fileSubstitutions run c k tgt)) w w' →
        run.Settled t₀ S c k w (t₀.fate run.force tgt.path) w' :=
    fun w' hwrote => .of_wrote hdrafts hwrote hplace (hsame _ hfile)
  have hfailed : ∀ (_ : Fault) w', Under.Wrote run.renderer t₀ S run.force tgt.path
      (Template.fill (templateText c k none) (fileSubstitutions run c k tgt)) w w' ∧
        t₀.fate run.force tgt.path = .failed → run.Settled t₀ S c k w .failed w' :=
    fun _ w' hend => hend.2 ▸ hsettled w' hend.1
  have hstep := step_packaged h (none_mem_viewsOf hviews) hfile (fileSubstitutions run c k tgt) w hu (hsame _ hfile)
  unfold classFile
  rw [wp_bind, wp_ofExcept', ht]
  simp only [wp_bind] at hstep ⊢
  refine wp_mono hstep (fun id w₁ hrendered => wp_mono hrendered (fun content w₂ hwritten =>
    wp_mono hwritten ?_ hfailed) hfailed) hfailed
  rintro written w' ⟨hwrote, ⟨hnone, hfate⟩ | ⟨hsome, hfate⟩⟩
  · rw [hnone, wp_pure]
    exact hfate ▸ hsettled w' hwrote
  · obtain ⟨record, hrecord⟩ := Option.ne_none_iff_exists'.1 hsome
    rw [hrecord, wp_pure]
    exact hfate ▸ hsettled w' hwrote

omit h hu hsame in
theorem status_viewsResult (written : List Written) : (viewsResult c written).status =
    if ∃ x ∈ written, x.record ≠ none then .created else .skipped := by
  have hcreated : (written.filter (·.record.isSome)).isEmpty = true ↔ ¬ ∃ x ∈ written, x.record ≠ none := by
    rw [List.isEmpty_iff, List.filter_eq_nil_iff]
    simp [Option.isSome_iff_ne_none]
  unfold viewsResult
  rw [List.partition_eq_filter_filter]
  simp only
  by_cases hsome : ∃ x ∈ written, x.record ≠ none
  · rw [if_pos hsome, if_neg fun hnone => hcreated.1 hnone hsome]
  · rw [if_neg hsome, if_pos (hcreated.2 hsome)]

/-- The views come to the verdict on their files. -/
theorem wp_views_settled (hk : k = .views) :
    wp (views run c) (fun r w' => run.Settled t₀ S c k w r.status w')
      (fun _ w' => run.Settled t₀ S c k w .failed w') w := by
  subst hk
  obtain ⟨tgt, ht⟩ := Layout.target_ok h.kinds run.config run.names run.version
  let draft (v : View) := (tgt.path / (v.name ++ ".blade.php"),
    Template.fill (templateText c .views (some v.name)) (viewSubstitutions run c v))
  have hdrafts : run.drafts c .views = View.all.map draft := by
    simp [Run.drafts, Layout.target_eq ht, draft]
  have hfiles : run.files c .views = View.all.map fun v => (draft v).1 := by
    rw [← Run.map_drafts, hdrafts, List.map_map]
    rfl
  have hmem : ∀ d ∈ View.all.map draft, d.1 ∈ run.files c .views := fun d hd => by
    rw [← Run.map_drafts, hdrafts]
    exact List.mem_map_of_mem hd
  have hnodup := h.nodup
  rw [hfiles, List.map_map] at hnodup
  unfold views
  rw [wp_bind, wp_ofExcept', ht]
  simp only
  rw [wp_bind]
  have hstep : ∀ v ∈ View.all, Under.Step run.renderer t₀ S run.force (view run c tgt.path v) (draft v) :=
    fun v hv => step_packaged h (mem_viewsOf_views hv) (hmem _ (List.mem_map_of_mem hv)) _
  refine wp_mono (Under.wp_mapM hstep hnodup (fun d hd => h.planned _ (hmem d hd)) hu fun d hd =>
    hsame _ (hmem d hd)) ?_ ?_
  · rintro written w' ⟨hdrafted, hfates, hcreated⟩
    rw [wp_pure]
    refine ⟨hdrafts ▸ hdrafted, ?_⟩
    have hnone : ¬ ∃ p ∈ run.files c .views, t₀.fate run.force p = .failed := by
      rw [hfiles]
      simpa using hfates
    have hmade : (∃ p ∈ run.files c .views, t₀.fate run.force p = .created) ↔ ∃ x ∈ written, x.record ≠ none := by
      rw [hfiles, hcreated]
      simp only [List.mem_map, exists_exists_and_eq_and]
    rw [status_viewsResult, Tree.verdict, if_neg hnone]
    simp only [hmade]
  · rintro f w' ⟨hdrafted, v, hv, hfate⟩
    refine ⟨hdrafts ▸ hdrafted, ?_⟩
    rw [Tree.verdict_of_failed (hmem _ (List.mem_map_of_mem hv)) hfate]

/-- A class or its views come to the verdict on their files. -/
theorem wp_own (hroutes : k ≠ .routes) :
    wp (artifact run c k) (fun r w' => run.Settled t₀ S c k w r.status w')
      (fun _ w' => run.Settled t₀ S c k w .failed w') w := by
  cases k with
  | views => exact wp_views_settled h hu hsame rfl
  | routes => exact absurd rfl hroutes
  | _ => exact wp_classFile_settled h hu hsame (by simp)

end Attempts

section Routes

/-- What the routes of a category have come to, by the tree before and the one behind. -/
structure Run.Registered (run : Run) (c : Category) (tgt : Target) (t : Tree) (status : Status) (t' : Tree) :
    Prop where
  status : status = ((routeCall run c tgt).fate t tgt.path).1
  kept : ((routeCall run c tgt).fate t tgt.path).2 = none →
    t'.entryAt (tgt.path.resolveFrom t.home) = t.entryAt (tgt.path.resolveFrom t.home)
  written : ∀ new, ((routeCall run c tgt).fate t tgt.path).2 = some new →
    t'.find tgt.path = .ok (.file (Edit.modeAt t (tgt.path.resolveFrom t.home)) new.toUTF8)

/-- What an attempt at routes has come to, with a status. -/
structure Run.Routed (run : Run) (t₀ : Tree) (S : Location → Prop) (c : Category) (tgt : Target) (w : Workspace)
    (status : Status) (w' : Workspace) : Prop where
  registered : run.Registered c tgt w.tree status w'.tree
  under : Under run.renderer t₀ S w'
  others : Tree.SameBut S (tgt.path.resolveFrom t₀.home) w.tree w'.tree

theorem Run.Registered.of_none {s : Status} (hfate : (routeCall run c tgt).fate t tgt.path = (s, none))
    (hkept : t'.entryAt (tgt.path.resolveFrom t.home) = t.entryAt (tgt.path.resolveFrom t.home)) :
    run.Registered c tgt t s t' where
  status := by rw [hfate]
  kept _ := hkept
  written new hnew := by
    rw [hfate] at hnew
    cases hnew

theorem Run.Registered.of_some {s : Status} {new : String}
    (hfate : (routeCall run c tgt).fate t tgt.path = (s, some new))
    (hfind : t'.find tgt.path = .ok (.file (Edit.modeAt t (tgt.path.resolveFrom t.home)) new.toUTF8)) :
    run.Registered c tgt t s t' where
  status := by rw [hfate]
  kept hnone := by
    rw [hfate] at hnone
    cases hnone
  written new' hnew := by
    rw [hfate] at hnew
    cases hnew
    exact hfind

theorem wp_routes_routed (h : run.Steady t₀ S c .routes) (hu : Under run.renderer t₀ S w)
    (ht : Layout.target run.config run.names run.version c .routes = .ok tgt) :
    wp (routes run c) (fun r w' => run.Routed t₀ S c tgt w r.status w')
      (fun _ w' => run.Routed t₀ S c tgt w .failed w') w := by
  have hc : c ≠ .common := by
    rintro rfl
    exact absurd h.kinds (by decide)
  have hfile : tgt.path ∈ run.files c .routes := by simp [Run.files, Layout.files, Layout.target_eq ht]
  unfold routes
  rw [wp_bind, wp_ofExcept', ht]
  refine wp_packaged h hu (none_mem_viewsOf (by simp)) fun w₁ htree hu₁ => ?_
  rw [templateText_routes hc, wp_bind]
  obtain ⟨l, dirs, name, henters₀, hname, -⟩ := h.aims _ hfile
  have hgrows := hu₁.built.frame.grows
  have henters := henters₀.grows hgrows
  have hS := h.planned _ hfile
  have hplace := henters₀.resolve
  have hresolve := hgrows.home ▸ hplace
  rw [hplace] at hS
  have hpaved : ∀ t₁, w₁.tree.Paves l dirs t₁ → ∀ k, S k → t₁.entryAt k = w₁.tree.entryAt k :=
    fun t₁ hp k hk => hp.entryAt_planned h.apart hS hk
  refine wp_mono (Route.wp_merge_fate henters hname (routeCall run c tgt)) ?_ ?_
  · rintro registration w' ⟨hcache, ⟨rfl, hfate, htree'⟩ | ⟨rfl, new, hfate, hreplaced, t₁, hpaves, hrest⟩⟩
    · rw [wp_pure]
      have hsame : w'.tree = w.tree := htree'.trans htree
      exact ⟨.of_none (htree ▸ hfate) (by rw [hsame]), ⟨htree' ▸ hu₁.built, hcache ▸ hu₁.cache⟩,
        fun k _ _ => by rw [hsame]⟩
    · rw [wp_pure]
      refine ⟨.of_some (htree ▸ hfate) (htree ▸ hreplaced.find),
        ⟨hu₁.built.of_replaced henters hS hreplaced hpaves hrest, hcache ▸ hu₁.cache⟩, fun k hk hne => ?_⟩
      rw [hplace] at hne
      rw [hrest k hne, hpaved t₁ hpaves k hk, htree]
  · rintro f w' ⟨hcache, hfate, hpaves⟩
    have hkept : ∀ k, S k → w'.tree.entryAt k = w.tree.entryAt k := fun k hk => by rw [hpaved _ hpaves k hk, htree]
    refine ⟨.of_none (htree ▸ hfate) ?_, ⟨hu₁.built.of_paves hS hpaves, hcache ▸ hu₁.cache⟩, fun k hk _ => hkept k hk⟩
    rw [← htree, hgrows.home, hplace, hkept _ hS, htree]

end Routes

end Generator

end Scaffold
