import Scaffold.Proofs.Run.Again

/-!
# Running twice

`generate_again`: after a run that succeeded, a further run with the same request changes no file and
skips every artifact. The conditions are those of `Repeatable`. What a finished artifact needs is kept to
the end of the first run, so the second one finds it (`Prepared`); the second run gets past its checks,
since the base path can be looked at once there is a file below it, and past its storage, since that
gives the same answers.

Without the conditions the first run can spoil the second. Once its directories are made, a template may
be looked for under a name that is too long (`generate_again_fails`). A carriage return in the opening line
of a route group is read back as a line end, and what stands behind it may be an import below a statement.
-/

namespace Scaffold

variable {t t' : Tree} {base p : Path} {w w' w₁ w₂ : Workspace}

/-- A path can be looked at where something stands below it. -/
theorem Tree.isDirectory_of_below (hp : Path.Below base p) (h : t.stands p = .ok true) :
    ∃ there, t.isDirectory base = .ok there := by
  obtain ⟨rest, -, rfl⟩ := hp
  obtain ⟨e, -, hf⟩ := stands_eq_true.1 h
  obtain ⟨l, hl, -⟩ := find_eq_ok.1 hf
  have hwalk : t.walk (t.startOf base) (base.parts ++ rest) = .ok l := hl
  rw [walk_append] at hwalk
  obtain ⟨e, he⟩ := look_ok (t := t) (p := base) fun c hc => by
    rw [show t.walk (t.startOf base) base.parts = .error c from hc] at hwalk
    cases hwalk
  exact ⟨_, by rw [isDirectory, he]; rfl⟩

theorem Report.not_failed {report : Report} (h : report.success = true) :
    ∀ r ∈ report.results, r.status ≠ .failed := by
  intro r hr hfailed
  have hmem : r ∈ report.failed := List.mem_filter.2 ⟨hr, by simpa using hfailed⟩
  have hnone : report.failed.isEmpty = true := (Bool.and_eq_true_iff.1 h).2
  rw [List.isEmpty_iff.1 hnone] at hmem
  cases hmem

namespace Generator
variable {g : Generator} {entity : String} {o : Options} {names : Naming} {columns : List Column}
  {planned : Location → Prop} {report : Report} {c : Category} {k : Kind} {elapsed : Float}

/-- What makes a run repeatable. The first of the two fields on routes says that their templates
resolve to the packaged ones, before the run and also while it goes on. -/
structure Repeatable (g : Generator) (entity : String) (o : Options) (w : Workspace) : Prop where
  force : o.force = false
  /-- No template is looked for under a name that is too long. -/
  short : ∀ a ∈ o.planned, ∀ q ∈ templatePlaces g.config g.renderer a.1 a.2, Tree.Short q
  /-- A file where a template may be found is text. -/
  text : ∀ a ∈ o.planned, ∀ q ∈ templatePlaces g.config g.renderer a.1 a.2, ∀ mode bytes,
    w.tree.entryAt (q.resolveFrom w.tree.home) = some (.file mode bytes) → (String.fromUTF8? bytes).isSome = true
  packaged : ∀ c id, (c, .routes) ∈ o.planned → Layout.templateId g.config c .routes none = .ok id →
    (∃ q, Renderer.firstFile? w.tree (g.renderer.places id) = .ok (some q) ∧
      w.tree.readText q = .ok (routeStub c) ∧ ∀ s, w.cache.lookup q = some s → s = routeStub c) ∧
    ∀ q ∈ g.renderer.places id, w.tree.Reaches q ∧ ¬ g.MayMake entity o w.tree.home (q.resolveFrom w.tree.home)
  /-- The opening line of a group holds no import behind a carriage return. -/
  opening : ∀ c, (c, .routes) ∈ o.planned → ∀ l ∈ Route.blockLines (Route.groupOpening
    (middleware g.config c) (routePrefix g.config (Layout.version g.config o.apiVersion) c)),
    Route.isImport (Text.stripped l) = false
  /-- A new route file does not pass for one that has the routes of the entity. -/
  greeting : ∀ c names, (c, .routes) ∈ o.planned → Naming.derive? (Text.stripped entity) = some names →
    Route.holdsToken (boilerplate c) names.many.kebab = false
  /-- The way to a database file stands, and the file is none of the run's own. -/
  database : ∀ p create, g.storage? = some (.sqlite (.file p create)) →
    ∃ l, w.tree.locate (p.resolved w.tree.home) = .ok l ∧ ¬ g.Planned entity o w.tree.home l

/-- A further run starts in `w₂` from what a run from `w` has left in `w'`, with the same databases. -/
structure Resumes (w w' w₂ : Workspace) : Prop where
  tree : w₂.tree = w'.tree
  databases : w₂.databases = w.databases
  held : Sqlite.NoneHeld w ∧ Sqlite.NoneHeld w₂

/-- What a run from `w` has left in `t` for a further one; `w₁` is where it had looked up the columns. -/
structure Prepared (g : Generator) (o : Options) (planned : Location → Prop) (names : Naming)
    (columns : List Column) (w w₁ : Workspace) (t : Tree) : Prop where
  grows : w.tree.Grows t
  answers : ∃ log, Introspect.columns g.storage? g.config names { w with log := log } = .ok columns w₁
  frame : Frame w₁.tree planned planned t
  legible : ∀ a ∈ o.planned, Legible (g.runOf o names columns) t a.1 a.2
  finished : ∀ a ∈ o.planned, Finished (g.runOf o names columns) t a.1 a.2

section First

/-- The packaged templates of routes that a run finds. -/
def Packaged (g : Generator) (o : Options) (t : Tree) (q : Path) (text : String) : Prop :=
  ∃ c id, (c, .routes) ∈ o.planned ∧ Layout.templateId g.config c .routes none = .ok id ∧
    Renderer.firstFile? t (g.renderer.places id) = .ok (some q) ∧ text = routeStub c

theorem Repeatable.packaged_eq (hr : g.Repeatable entity o w) {q : Path} {text : String}
    (hq : g.Packaged o w.tree q text) :
    w.tree.readText q = .ok text ∧ (∀ s, w.cache.lookup q = some s → s = text) ∧
      ¬ g.MayMake entity o w.tree.home (q.resolveFrom w.tree.home) := by
  obtain ⟨c, id, hm, hid, hfirst, rfl⟩ := hq
  obtain ⟨⟨q', hfirst', hread, hcache⟩, hplaces⟩ := hr.packaged c id hm hid
  rw [hfirst'] at hfirst
  cases hfirst
  exact ⟨hread, hcache, (hplaces q (Renderer.firstFile?_some hfirst').1).2⟩

theorem Repeatable.setting (hr : g.Repeatable entity o w) (ha : Accepted g.config o)
    (hn : Naming.derive? (Text.stripped entity) = some names) (columns : List Column) :
    Setting (g.runOf o names columns) o w.tree (g.Planned entity o w.tree.home)
      (g.MayMake entity o w.tree.home) (g.Packaged o w.tree) where
  accepted := ha
  spelled := Naming.spelled hn
  version := rfl
  force := hr.force
  steady q text hq := by
    obtain ⟨hread, -, hfree⟩ := hr.packaged_eq hq
    exact ⟨hread, fun h => hfree (.inl h)⟩
  writable c k hm p hp := by
    have hplanned : g.Planned entity o w.tree.home (p.resolveFrom w.tree.home) :=
      ⟨p, mem_planned hn hm hp, rfl⟩
    exact ⟨.inl hplanned, fun _ => hplanned, fun _ => .inl hplanned⟩
  stub c id hm hid := by
    obtain ⟨⟨q, hfirst, -⟩, hplaces⟩ := hr.packaged c id hm hid
    refine ⟨⟨q, hfirst, c, id, hm, hid, hfirst, rfl⟩, fun q hq => ⟨?_, hplaces q hq⟩⟩
    exact hr.short (c, .routes) hm q (mem_templatePlaces (by simp [viewsOf]) hid hq)
  opening c hm := hr.opening c hm
  greeting c hm := hr.greeting c names hm hn

/-- A run that succeeds was accepted and leaves all prepared for a further one. -/
theorem Repeatable.prepared (hr : g.Repeatable entity o w) (h : Returned g entity o w report w')
    (hsuccess : report.success = true) : ∃ review names columns w₁,
      Review.ofRequest w.tree (some entity) o g.config = .ok review ∧ review.hasErrors = false ∧
        Naming.derive? (Text.stripped entity) = some names ∧
          Prepared g o (g.Planned entity o w.tree.home) names columns w w₁ w'.tree := by
  cases h with
  | refused _ _ unsuccessful =>
    rw [unsuccessful] at hsuccess
    cases hsuccess
  | @ran review names columns _ log w₁ w₂ _ reviewed accepted named asked planned outcomes same =>
    have hm : ∀ r ∈ report.results, (r.category, r.kind) ∈ o.planned := fun r hr =>
      planned ▸ List.mem_map_of_mem hr
    have hstart : Course w.tree (g.Planned entity o w.tree.home) (g.MayMake entity o w.tree.home)
        (g.Packaged o w.tree) { w with log := log } :=
      ⟨.refl .., fun q text s hq hs => (hr.packaged_eq hq).2.1 s hs⟩
    have hcourse := (wp_ok asked).1 ((Introspect.columns_keeps fun l hl => .inr hl).wp _ hstart)
    obtain ⟨hend, hfinished⟩ :=
      outcomes.finished (hr.setting (Review.accepted reviewed accepted) named columns) hcourse hm
    have hframe : Frame w₁.tree (g.Planned entity o w.tree.home) (g.Planned entity o w.tree.home) w₂.tree :=
      outcomes.frame fun r hr l ⟨p, hp, hl⟩ =>
        ⟨p, mem_planned named (hm r hr) hp, hcourse.frame.grows.home ▸ hl⟩
    refine ⟨review, names, columns, w₁, reviewed, accepted, named, ?_⟩
    rw [same.1]
    refine ⟨hend.frame.grows, ⟨log, asked⟩, hframe,
      fun a ha => ⟨hr.short a ha, fun q hq => hend.frame.readable (hr.text a ha q hq)⟩, fun a ha => ?_⟩
    rw [← planned] at ha
    obtain ⟨r, hresult, rfl⟩ := List.mem_map.1 ha
    exact hfinished (Report.not_failed hsuccess) r hresult

end First

section Second

theorem wp_accepted_again (hr : g.Repeatable entity o w)
    (hn : Naming.derive? (Text.stripped entity) = some names)
    (hp : Prepared g o (g.Planned entity o w.tree.home) names columns w w₁ w₂.tree)
    (hdatabases : w₂.databases = w.databases) (hheld : Sqlite.NoneHeld w ∧ Sqlite.NoneHeld w₂)
    (report : Report) (hreport : report.results = []) (log : List LogLine) :
    wp (g.accepted (Text.stripped entity) o report)
      (fun report' w' => w'.tree = w₂.tree ∧
        ∃ rs, report' = { tableReport names columns report with results := rs } ∧
          rs.map (fun r => (r.category, r.kind, r.status)) = o.planned.map fun a => (a.1, a.2, .skipped))
      (fun _ _ => False) { w₂ with log := log } := by
  refine wp_accepted hn report fun log₂ => ?_
  obtain ⟨log₁, hc⟩ := hp.answers
  have hreopens : ∀ p create, g.storage? = some (.sqlite (.file p create)) →
      Sqlite.Reopens p { w with log := log₁ } w₁ { w₂ with log := log₂ } := by
    intro p create hs
    obtain ⟨l, hl, hfree⟩ := hr.database p create hs
    exact ⟨hheld, hp.grows, hdatabases, l, hl, fun _ _ => hp.frame.file_iff hfree hfree⟩
  obtain ⟨w₃, hc₂, ht⟩ := Introspect.columns_again hc hreopens
  rw [wp_ok hc₂]
  exact artifacts_again hr.force (fun a ha => ⟨hp.legible a ha, hp.finished a ha⟩) _ hreport ht

theorem exists_file_of_finished {run : Run} (h : Finished run t c k) :
    ∃ p ∈ Layout.files run.config run.names run.version c k, t.stands p = .ok true := by
  obtain ⟨tgt, ht⟩ := h.target
  obtain ⟨p, hp⟩ : ∃ p, p ∈ Layout.files run.config run.names run.version c k := by
    simp only [Layout.files, Layout.target_eq ht]
    split
    · exact ⟨_, List.mem_map_of_mem (show View.index ∈ View.all by decide)⟩
    · exact ⟨tgt.path, List.mem_singleton.2 rfl⟩
  have hfile := h.files p hp
  split at hfile
  · exact ⟨p, hp, hfile.stands⟩
  · exact ⟨p, hp, hfile⟩

theorem Prepared.review (hp : Prepared g o planned names columns w w₁ t)
    (hn : Naming.derive? (Text.stripped entity) = some names) {review : Review}
    (hreview : Review.ofRequest w.tree (some entity) o g.config = .ok review)
    (herrors : review.hasErrors = false) :
    ∃ review', Review.ofRequest t (some entity) o g.config = .ok review' ∧ review'.hasErrors = false := by
  have ha := Review.accepted hreview herrors
  obtain ⟨a, hplanned⟩ := List.exists_mem_of_ne_nil _ ha.planned
  obtain ⟨p, hmem, hstands⟩ := exists_file_of_finished (hp.finished a hplanned)
  obtain ⟨there, hbase⟩ :=
    Tree.isDirectory_of_below (Layout.below_files ha (Naming.spelled hn) hmem) hstands
  exact Review.ofRequest_again hreview herrors hbase

theorem failed_of_skipped {rs : List Result} {as : List (Category × Kind)}
    (h : rs.map (fun r => (r.category, r.kind, r.status)) = as.map fun a => (a.1, a.2, .skipped)) :
    rs.filter (·.status = .failed) = [] := by
  rw [List.filter_eq_nil_iff]
  intro r hr hfailed
  have hmem : (r.category, r.kind, r.status) ∈ as.map fun a => (a.1, a.2, Status.skipped) :=
    h ▸ List.mem_map_of_mem hr
  obtain ⟨a, -, ha⟩ := List.mem_map.1 hmem
  have hskipped : r.status = .skipped := (Prod.ext_iff.1 (Prod.ext_iff.1 ha).2).2.symm
  simp [hskipped] at hfailed

/-- A further run with the same request changes no file and skips every artifact. -/
theorem generate_again (hr : g.Repeatable entity o w) (hfirst : g.generate entity o elapsed w = .ok report w')
    (hsuccess : report.success = true) (hw : Resumes w w' w₂) (elapsed₂ : Float) :
    ∃ report₂ w₂', g.generate entity o elapsed₂ w₂ = .ok report₂ w₂' ∧ w₂'.tree = w'.tree ∧
      report₂.success = true ∧
        report₂.results.map (fun r => (r.category, r.kind, r.status)) =
          o.planned.map fun a => (a.1, a.2, .skipped) := by
  obtain ⟨review, names, columns, w₁, hreview, herrors, hn, hp⟩ :=
    hr.prepared ((wp_ok hfirst).1 (wp_generate_returned g entity o elapsed w)) hsuccess
  rw [← hw.tree] at hp ⊢
  obtain ⟨review₂, hreview₂, herrors₂⟩ := hp.review hn hreview herrors
  refine wp_returns (wp_generate (fun _ _ _ h => h) (fun _ _ _ h => h) (wp_checked ?_))
  rw [hreview₂]
  intro log
  rw [if_neg (by simp [herrors₂])]
  refine wp_mono (wp_accepted_again hr hn hp hw.databases hw.held _ rfl log) ?_ fun _ _ h => h
  rintro report₂ w₂' ⟨ht, rs, rfl, hrs⟩
  refine ⟨ht, ?_, hrs⟩
  have herror : Report.errors (reportOf entity review₂) = [] := errors_reportOf herrors₂
  have hfailed : rs.filter (·.status = .failed) = [] := failed_of_skipped hrs
  show ((reportOf entity review₂).errors.isEmpty && (rs.filter (·.status = .failed)).isEmpty) = true
  rw [herror, hfailed]
  rfl

end Second

section Project

/-- A project with one template for classes, the packaged one for routes, and a route file. -/
def routedTree : Tree where
  home := []
  entries :=
    [(["stubs"], .directory), (["stubs", "class.stub"], .file 0o644 "".toUTF8),
     (["stubs", "routes.stub"], .file 0o644 Stubs.Routes.web.toUTF8), (["web.php"], .file 0o644 "<?php\n".toUTF8)]

/-- The project's generator; its own templates may be somewhere else. -/
def routedGenerator (override : Option Path) : Generator where
  config :=
    { basePath := ⟨.relative, []⟩
      paths := { routes := ⟨"api.php", "web.php"⟩ }
      stubs :=
        { common := Category.common.kinds.map fun k => (k.name, "class.stub")
          web := [("controller", "class.stub"), ("store_request", "class.stub"),
            ("update_request", "class.stub"), ("routes", "routes.stub")] } }
  storage := none
  renderer := ⟨override, ⟨.root, ["stubs"]⟩⟩

theorem readText_routedTree :
    routedTree.readText ⟨.root, ["stubs", "class.stub"]⟩ = .ok "" ∧
      routedTree.readText ⟨.root, ["stubs", "routes.stub"]⟩ = .ok (routeStub .web) := by
  have hclass : routedTree.find ⟨.root, ["stubs", "class.stub"]⟩ = .ok (.file 0o644 "".toUTF8) :=
    Tree.find_eq_ok.2 ⟨["stubs", "class.stub"], rfl, rfl⟩
  have hroutes : routedTree.find ⟨.root, ["stubs", "routes.stub"]⟩ = .ok (.file 0o644 Stubs.Routes.web.toUTF8) :=
    Tree.find_eq_ok.2 ⟨["stubs", "routes.stub"], rfl, rfl⟩
  exact ⟨Tree.readText_of_find (by decide +kernel) hclass (by decide),
    Tree.readText_of_find (by decide +kernel) hroutes (notMem_routeStub .web)⟩

theorem not_garbled_routedTree : ∀ a ∈ classesAndRoutes.planned,
    ∀ q ∈ templatePlaces (routedGenerator none).config (routedGenerator none).renderer a.1 a.2,
      ¬ routedTree.Garbled q := by
  have hplaces : ∀ a ∈ classesAndRoutes.planned,
      ∀ q ∈ templatePlaces (routedGenerator none).config (routedGenerator none).renderer a.1 a.2,
        q = ⟨.root, ["stubs", "class.stub"]⟩ ∨ q = ⟨.root, ["stubs", "routes.stub"]⟩ := by
    decide +kernel
  intro a ha q hq
  rcases hplaces a ha q hq with rfl | rfl
  · exact Tree.not_garbled_of_readText readText_routedTree.1
  · exact Tree.not_garbled_of_readText readText_routedTree.2

/-- The template for routes is the packaged one, and no file of the run is in its place. -/
theorem packaged_routedTree :
    (∃ q, Renderer.firstFile? routedTree ((routedGenerator none).renderer.places "routes.stub") = .ok (some q) ∧
      routedTree.readText q = .ok (routeStub .web)) ∧
    ∀ q ∈ (routedGenerator none).renderer.places "routes.stub", routedTree.Reaches q ∧
      ¬ (routedGenerator none).MayMake "Book" classesAndRoutes [] (q.resolveFrom []) := by
  have hplace : (routedGenerator none).renderer.places "routes.stub" = [⟨.root, ["stubs", "routes.stub"]⟩] := by
    decide +kernel
  have hfree : ∀ p ∈ (routedGenerator none).routeFiles "Book" classesAndRoutes ++
      (routedGenerator none).ownFiles "Book" classesAndRoutes,
      p.resolveFrom [] ≠ ["stubs", "routes.stub"] := by
    decide +kernel
  have hread := readText_routedTree.2
  rw [hplace]
  refine ⟨⟨_, Renderer.firstFile?_cons (Tree.isFile_of_readText hread), hread⟩, fun q hq => ?_⟩
  rw [List.mem_singleton.1 hq]
  refine ⟨Tree.reaches_of_readText hread, ?_⟩
  rintro (⟨p, hp, hl⟩ | hl)
  · exact hfree p hp hl
  · cases hl

theorem repeatable_project :
    (routedGenerator none).Repeatable "Book" classesAndRoutes (Workspace.start routedTree) := by
  have hweb : ∀ c, (c, .routes) ∈ classesAndRoutes.planned → c = .web := by
    intro c
    cases c <;> decide
  constructor
  case force => rfl
  case short => decide +kernel
  case text =>
    intro a ha q hq mode bytes hentry
    refine Option.isSome_iff_ne_none.2 fun hnone => ?_
    exact not_garbled_routedTree a ha q hq ⟨mode, bytes, hentry, hnone⟩
  case packaged =>
    intro c id hm hid
    cases hweb c hm
    have hroutes : Layout.templateId (routedGenerator none).config .web .routes none = .ok "routes.stub" := rfl
    rw [hroutes] at hid
    cases hid
    obtain ⟨⟨q, hfirst, hread⟩, hplaces⟩ := packaged_routedTree
    exact ⟨⟨q, hfirst, hread, fun s hs => by cases hs⟩, hplaces⟩
  case opening =>
    intro c hm l hl
    cases hweb c hm
    exact Route.isImport_of_mem_blockLines (by decide +kernel) hl
  case greeting =>
    intro c names hm hn
    cases hweb c hm
    have hkebab : (Naming.derive? (Text.stripped "Book")).map (·.many.kebab) = some "books" := by
      decide +kernel
    rw [hn] at hkebab
    rw [show names.many.kebab = "books" from Option.some.inj hkebab]
    decide +kernel
  case database =>
    intro p create hs
    cases hs

theorem noneHeld_start (t : Tree) : Sqlite.NoneHeld (Workspace.start t) := by
  intro l backend h
  cases h

theorem generate_again_project :
    let g := routedGenerator none
    ∃ report w', g.generate "Book" classesAndRoutes 0 (Workspace.start routedTree) = .ok report w' ∧
      report.success = true ∧
        ∃ report₂ w₂', g.generate "Book" classesAndRoutes 0 (Workspace.start w'.tree) = .ok report₂ w₂' ∧
          w₂'.tree = w'.tree ∧ report₂.success = true ∧
            report₂.results.map (fun r => (r.category, r.kind, r.status)) =
              classesAndRoutes.planned.map fun a => (a.1, a.2, .skipped) := by
  intro g
  have hsucceeds : tested g "Book" classesAndRoutes (Workspace.start routedTree)
      (fun report _ => report.success) = true := by
    decide +kernel
  obtain ⟨report, w', hfirst, hsuccess⟩ := tested_eq_true hsucceeds
  have hresumes : Resumes (Workspace.start routedTree) w' (Workspace.start w'.tree) :=
    ⟨rfl, rfl, noneHeld_start _, noneHeld_start _⟩
  exact ⟨report, w', hfirst, hsuccess, generate_again repeatable_project hfirst hsuccess hresumes 0⟩

/-- The classes of the common category. -/
def commonOnly : Options :=
  { api := false }

/-- Templates that are looked for below the last directory that a run makes, under a name that is too
long. -/
def hiddenTemplates : Path :=
  ⟨.relative, ["app", "Exceptions", .ofList (List.replicate 256 'x')]⟩

/-- The first run makes the directory, so the further one comes as far as the name that is too long. -/
theorem generate_again_fails :
    commonOnly.force = false ∧ (∀ c, (c, .routes) ∉ commonOnly.planned) ∧
      ∃ report w' report₂ w₂', (routedGenerator hiddenTemplates).generate "Book" commonOnly 0
          (Workspace.start routedTree) = .ok report w' ∧ report.success = true ∧
        (routedGenerator hiddenTemplates).generate "Book" commonOnly 0 (Workspace.start w'.tree) =
          .ok report₂ w₂' ∧ report₂.success = false := by
  have htwice : tested (routedGenerator hiddenTemplates) "Book" commonOnly (Workspace.start routedTree)
      (fun report w' => report.success &&
        tested (routedGenerator hiddenTemplates) "Book" commonOnly (Workspace.start w'.tree)
          fun report₂ _ => !report₂.success) = true := by
    decide +kernel
  obtain ⟨report, w', hfirst, htests⟩ := tested_eq_true htwice
  obtain ⟨hsuccess, hagain⟩ := Bool.and_eq_true_iff.1 htests
  obtain ⟨report₂, w₂', hsecond, hfails⟩ := tested_eq_true hagain
  refine ⟨rfl, ?_, report, w', report₂, w₂', hfirst, hsuccess, hsecond, by simpa using hfails⟩
  intro c
  cases c <;> decide

end Project

end Generator

end Scaffold
