import Scaffold.Proofs.Run.Beside
import Scaffold.Proofs.Run.Returns

/-!
# The run of an accepted entity

In a project that can be reached, the run of an accepted entity returns (`Requested.returns`), and what it reports
of each artifact can be told from the tree that it starts in (`Ran.statuses_eq`).
-/

namespace Scaffold

/-- What a report says of each artifact. -/
def Report.statuses (report : Report) : List (Category × Kind × Status) :=
  report.results.map fun r => (r.category, r.kind, r.status)

namespace Project
open Generator
variable {base : Path} {backend : Option Backend} {o : Options} {S : Location → Prop} {n : Naming} {version : String}
  {columns : List Column} {c : Category} {k : Kind} {t₀ t : Tree} {w w' : Workspace} {report : Report} {tgt : Target}
  {p : Path} {entity : String}

/-- What an artifact comes to on a tree. -/
def comesTo (run : Run) (t : Tree) (a : Category × Kind) : Status :=
  if a.2 = .routes then
    match Layout.target? run.config run.names run.version a.1 .routes with
    | some tgt => ((routeCall run a.1 tgt).fate t tgt.path).1
    | none => .failed
  else t.verdict run.force (run.files a.1 a.2)

/-- The target of the routes of a run. -/
abbrev Routes (run : Run) (c : Category) (tgt : Target) : Prop :=
  Layout.target run.config run.names run.version c .routes = .ok tgt

theorem exists_routes (hc : (c, .routes) ∈ o.planned) (run : Run) : ∃ tgt, Routes run c tgt :=
  Layout.target_ok (Options.mem_kinds hc) run.config run.names run.version

theorem mem_files_routes {run : Run} (ht : Routes run c tgt) : tgt.path ∈ run.files c .routes := by
  rw [Run.files_routes ht]
  exact List.mem_singleton_self _

theorem path_routes (hc : .routes ∈ c.kinds) (ht : Routes (runOf base backend o n columns) c tgt) :
    tgt.path = Layout.routeFile { basePath := base } c := by
  have hfiles : (runOf base backend o n columns).files c .routes = [Layout.routeFile { basePath := base } c] :=
    files_routes hc (backend.map .answers) o n columns
  rw [Run.files_routes ht] at hfiles
  exact List.singleton_inj.1 hfiles

theorem comesTo_routes {run : Run} (ht : Routes run c tgt) (t : Tree) :
    comesTo run t (c, .routes) = ((routeCall run c tgt).fate t tgt.path).1 := by
  simp [comesTo, Layout.target_eq ht]

/-- The file of an artifact holds `text`. -/
structure Holds (t₀ t : Tree) (base : Path) (o : Options) (n : Naming) (c : Category) (k : Kind) (tgt : Target)
    (text : String) : Prop where
  target : Layout.target { basePath := base } n (Layout.version { basePath := base } o.apiVersion) c k = .ok tgt
  entry : ∃ mode, t.entryAt (tgt.path.resolveFrom t₀.home) = some (.file mode text.toUTF8)

namespace Ran
variable (h : Ran base backend t₀ S n o version columns w report w')
include h

theorem exists_result (ha : (c, k) ∈ o.planned) : ∃ status,
    (runOf base backend o n columns).Done t₀ c k w.tree status w'.tree := by
  rw [← h.planned, List.mem_map] at ha
  obtain ⟨r, hr, heq⟩ := ha
  cases heq
  exact ⟨r.status, h.done r hr⟩

/-- Every artifact has the status that it comes to. -/
theorem statuses_eq (hroutes : ∀ c, (c, .routes) ∈ o.planned → ∀ tgt, Routes (runOf base backend o n columns) c tgt →
      ((routeCall (runOf base backend o n columns) c tgt).fate w.tree tgt.path).1 =
        ((routeCall (runOf base backend o n columns) c tgt).fate t₀ tgt.path).1) :
    report.statuses = o.planned.map fun a => (a.1, a.2, comesTo (runOf base backend o n columns) t₀ a) := by
  have hstatus : ∀ r ∈ report.results,
      r.status = comesTo (runOf base backend o n columns) t₀ (r.category, r.kind) := fun r hr => by
    have hmem : (r.category, r.kind) ∈ o.planned := h.planned ▸ List.mem_map_of_mem hr
    have hdone := h.done r hr
    by_cases hk : r.kind = .routes
    · rw [hk] at hmem ⊢
      obtain ⟨tgt, ht⟩ := exists_routes hmem (runOf base backend o n columns)
      rw [comesTo_routes ht, (hdone.registered hk tgt ht).status, hroutes _ hmem tgt ht]
    · rw [comesTo, if_neg hk]
      exact hdone.verdict hk
  rw [Report.statuses, ← h.planned, List.map_map]
  refine List.map_congr_left fun r hr => ?_
  rw [hstatus r hr]
  rfl

theorem entry (ha : (c, k) ∈ o.planned) (hk : k ≠ .routes) (hp : p ∈ (runOf base backend o n columns).files c k) :
    w'.tree.entryAt (p.resolveFrom t₀.home) = t₀.afterwards o.force ((runOf base backend o n columns).drafts c k)
      (p.resolveFrom t₀.home) := by
  obtain ⟨status, hdone⟩ := h.exists_result ha
  rw [← Run.map_drafts] at hp
  obtain ⟨d, hd, rfl⟩ := List.mem_map.1 hp
  exact hdone.entries hk d hd

/-- A class that is created stands in its file as its template is filled. -/
theorem created (hclass : k.isClass = true) (hcreated : (c, k, .created) ∈ report.statuses) : k ∈ c.kinds ∧
    ∃ tgt, Holds t₀ w'.tree base o n c k tgt (Template.fill (templateText c k none)
      (fileSubstitutions (runOf base backend o n columns) c k tgt)) := by
  simp only [Kind.isClass, Bool.and_eq_true, decide_eq_true_eq] at hclass
  obtain ⟨r, hr, heq⟩ := List.mem_map.1 hcreated
  obtain ⟨rfl, rfl, hstatus⟩ : r.category = c ∧ r.kind = k ∧ r.status = .created := by simpa using heq
  have hdone := h.done r hr
  have hk := Options.mem_kinds (h.planned ▸ List.mem_map_of_mem hr)
  obtain ⟨tgt, ht⟩ := Layout.target_ok hk (runOf base backend o n columns).config
    (runOf base backend o n columns).names (runOf base backend o n columns).version
  have hdrafts : (runOf base backend o n columns).drafts r.category r.kind =
      [(tgt.path, Template.fill (templateText r.category r.kind none)
        (fileSubstitutions (runOf base backend o n columns) r.category r.kind tgt))] := by
    simp [Run.drafts, Layout.target_eq ht, hclass.1]
  have hverdict := hdone.verdict hclass.2
  rw [← Run.map_drafts, hdrafts, List.map_singleton, Tree.verdict_singleton, hstatus] at hverdict
  have hentry := hdone.entries hclass.2 _ (hdrafts ▸ List.mem_singleton_self _)
  rw [hdrafts, Tree.afterwards, if_neg (by simp [← hverdict]), if_pos rfl, Tree.left, if_pos hverdict.symm] at hentry
  exact ⟨hk, tgt, ht, _, hentry⟩

theorem left (hw : Built t₀ S w.tree) (hsteady : (runOf base backend o n columns).Steady t₀ S c .routes)
    (ha : (c, .routes) ∈ o.planned) (ht : Routes (runOf base backend o n columns) c tgt) :
    (routeCall (runOf base backend o n columns) c tgt).Left tgt.path w.tree w'.tree := by
  obtain ⟨status, hdone⟩ := h.exists_result ha
  have hregistered := hdone.registered rfl tgt ht
  have hfile := mem_files_routes ht
  have htakes := fun t (hb : Built t₀ S t) => hb.takes_eq (hsteady.aims _ hfile) hsteady.apart
    (hsteady.planned _ hfile)
  exact ⟨h.grows, (htakes _ h.under.built).trans (htakes _ hw).symm, hregistered.kept, hregistered.written⟩

end Ran

/-- The names of an entity. -/
def Named (n : Naming) : Prop :=
  ∃ entity, Naming.derive? entity = some n

/-- An accepted entity in a project, with options whose version is stripped. -/
structure Requested (base : Path) (t₀ : Tree) (o : Options) (entity : String) (n : Naming) : Prop where
  project : Project base t₀
  version : Options.cleanVersion o.apiVersion = o.apiVersion
  accepts : Review.accepts t₀ (some entity) o { basePath := base } = true
  named : Naming.derive? (Text.stripped entity) = some n

/-- Where the artifacts of all entities go. -/
def spots (base : Path) (t₀ : Tree) (o : Options) : Location → Prop :=
  Sources (base.resolveFrom t₀.home) (Layout.version { basePath := base } o.apiVersion) Named

/-- What the run of an entity has come to, where no other entity has its artifacts. -/
abbrev Made (base : Path) (backend : Option Backend) (t₀ : Tree) (o : Options) (n : Naming) (columns : List Column)
    (w : Workspace) (report : Report) (w' : Workspace) : Prop :=
  Ran base backend t₀ (spots base t₀ o) n o (Layout.version { basePath := base } o.apiVersion) columns w report w'

namespace Requested
variable (h : Requested base t₀ o entity n)
include h

theorem accepted : Accepted { basePath := base } o := by
  obtain ⟨review, hreview, herrors⟩ := Review.accepts_eq_true h.accepts
  exact Review.accepted hreview herrors

theorem presentable : ∀ n, Named n → Layout.Presentable n (Layout.version { basePath := base } o.apiVersion) :=
  fun _ ⟨_, hn⟩ => Layout.presentable h.accepted hn

theorem accepts_on (t : Tree) : Review.accepts t (some entity) o { basePath := base } = true := by
  obtain ⟨there, hbase⟩ := Tree.isDirectory_ok h.project.short t
  exact Review.accepts_again h.accepts hbase

theorem mem_files
    (hp : p ∈ Layout.files { basePath := base } n (Layout.version { basePath := base } o.apiVersion) c k) :
    ∃ rest ∈ Layout.sources n (Layout.version { basePath := base } o.apiVersion) c k,
      p = ⟨base.anchor, base.parts ++ rest⟩ ∧ ∀ home, p.resolveFrom home = base.resolveFrom home ++ rest := by
  have hfile : p ∈ (runOf base none o n []).files c k := hp
  exact Project.mem_files h.presentable rfl ⟨_, h.named⟩ hfile

theorem steady (backend : Option Backend) (columns : List Column) (ha : (c, k) ∈ o.planned) :
    (runOf base backend o n columns).Steady t₀ (spots base t₀ o) c k :=
  h.project.steady h.presentable rfl ⟨_, h.named⟩ (Options.mem_kinds ha)

theorem usual (backend : Option Backend) (columns : List Column) :
    (runOf base backend o n columns).Usual base o (Text.stripped entity) where
  config := rfl
  version := rfl
  accepted := h.accepted
  named := h.named

theorem seen_routes (hc : (c, .routes) ∈ o.planned) (ht : Routes (runOf base backend o n columns) c tgt) :
    Tree.Short tgt.path ∧ t₀.Sees tgt.path := by
  have hfile := mem_files_routes ht
  exact ⟨h.project.short_routes h.presentable rfl ⟨_, h.named⟩ hfile,
    ((h.steady backend columns hc).aims _ hfile).sees⟩

/-- A run without a backend returns, whatever runs of entities were made before. -/
theorem returns (hnull : Tree.hasNull base = false)
    (hroutes : ∀ c, (c, .routes) ∈ o.planned → ¬ t₀.Garbled (Layout.routeFile { basePath := base } c))
    (hu : Under (Generator.usual base none).renderer t₀ (spots base t₀ o) w) (elapsed : Float) :
    ∃ report w', (Generator.usual base none).generate entity o elapsed w = .ok report w' := by
  obtain ⟨report, w', hgenerate, -⟩ := h.project.returns h.presentable rfl ⟨_, h.named⟩ h.named hnull (h.accepts_on _)
    hu (fun c hc hgarbled => hroutes c hc (hu.built.frame.garbled hgarbled)) elapsed
  exact ⟨report, w', hgenerate⟩

/-- A run that finds the classes and views as at first, and sees its route files. -/
theorem ran {elapsed : Float} (hu : Under (Generator.usual base (backend.map .answers)).renderer t₀ (spots base t₀ o) w)
    (hown : ∀ c k, (c, k) ∈ o.planned → k ≠ .routes → ∀ p ∈ (runOf base backend o n []).files c k,
      w.tree.entryAt (p.resolveFrom t₀.home) = t₀.entryAt (p.resolveFrom t₀.home))
    (hroutes : ∀ c, (c, .routes) ∈ o.planned → ∀ p ∈ (runOf base backend o n []).files c .routes, w.tree.Sees p)
    (hgenerate : (Generator.usual base (backend.map .answers)).generate entity o elapsed w = .ok report w') :
    ∃ columns, Made base backend t₀ o n columns w report w' :=
  h.project.ran h.presentable rfl ⟨_, h.named⟩ h.named (h.accepts_on _) hu hown hroutes
    ((wp_ok hgenerate).1 (wp_generate_returned _ entity o elapsed w))

/-- A run on the tree of the project as it is at first. -/
theorem ran_first {elapsed : Float} (hw : w.tree = t₀)
    (hcache : (Generator.usual base (backend.map .answers)).renderer.Faithful w.cache)
    (hgenerate : (Generator.usual base (backend.map .answers)).generate entity o elapsed w = .ok report w') :
    ∃ columns, Made base backend t₀ o n columns w report w' := by
  refine h.ran ⟨hw ▸ .refl .., hcache⟩ (fun _ _ _ _ _ _ => by rw [hw]) (fun c hc p hp => ?_) hgenerate
  rw [hw]
  exact ((h.steady backend [] hc).aims p hp).sees

end Requested

end Project

end Scaffold
