import Scaffold.Proofs.Run.Effect

/-!
# What a run changes

`generate_frame`: however a run ends, no file that stood is gone, and one that stood is as before
unless it is the target of planned routes or, with force, of a planned class or view. The condition is
that a file that stands where a planned path leads is seen at that path (`Tree.Reaches`). It fails for
a path through the parent of a missing directory: the writer looks before it creates the directories
above, finds nothing, and then writes over the file (`generate_overwrites`).

`Frame` is the invariant. Each action keeps it, since the writer asks before it replaces a file.
-/

namespace Scaffold

variable {t₀ t t' : Tree} {may fresh : Location → Prop} {p : Path} {text : String} {l : Location}

/-- What every action of a run keeps: the frame, and that a template with a `fixed` text is remembered
with that text, if at all. -/
structure Course (t₀ : Tree) (may fresh : Location → Prop) (fixed : Path → String → Prop) (w : Workspace) :
    Prop where
  frame : Frame t₀ may fresh w.tree
  cache : ∀ q text s, fixed q text → w.cache.lookup q = some s → s = text

/-- The texts of `fixed` are what is read at first and stay what is read. -/
def Fixed (t₀ : Tree) (may : Location → Prop) (fixed : Path → String → Prop) : Prop :=
  ∀ q text, fixed q text → t₀.readText q = .ok text ∧ ¬ may (q.resolveFrom t₀.home)

variable {fixed : Path → String → Prop} {w w' : Workspace}

namespace Course

theorem logFree : LogFree (Course t₀ may fresh fixed) :=
  fun _ _ h => ⟨h.frame, h.cache⟩

theorem same (hs : Same w w') (h : Course t₀ may fresh fixed w) : Course t₀ may fresh fixed w' :=
  ⟨hs.1 ▸ h.frame, hs.2 ▸ h.cache⟩

end Course

section Write
variable {α : Type}

theorem Writer.write_keeps {force : Bool} (hfresh : fresh (p.resolveFrom t₀.home))
    (hmay : may (p.resolveFrom t₀.home) ∨ force = false ∧ t₀.Reaches p) :
    Keeps (Course t₀ may fresh fixed) (Writer.write p text force) := by
  refine ⟨fun w hw => wp_mono (Writer.wp_write p text force w) ?_
    fun f w' h => ⟨hw.frame.of_extends h.2.2, h.1 ▸ hw.cache⟩⟩
  rintro written w' ⟨hcache, heffect⟩
  suffices h : Frame t₀ may fresh w'.tree from ⟨h, hcache ▸ hw.cache⟩
  generalize w'.tree = t' at heffect ⊢
  cases heffect with
  | left => exact hw.frame
  | replaced hclear hr =>
    refine hw.frame.of_replaced hr (fun mode bytes h₀ => ?_) hfresh
    rcases hmay with hmay | ⟨hforce, hreach⟩
    · exact hmay
    · -- the file that stands there is seen from the start, so the writer would have left it alone
      obtain ⟨mode', bytes', hfind⟩ := hw.frame.grows.find_file (hreach mode bytes h₀)
      have hthere : w.tree.stands p = .ok true := Tree.stands_eq_true.2 ⟨_, hr.noNull, hfind⟩
      rw [hclear hforce] at hthere
      cases hthere

theorem Route.merge_keeps {names : Naming} {block fqcn boilerplate : String}
    (hfresh : fresh (p.resolveFrom t₀.home)) (hmay : may (p.resolveFrom t₀.home)) :
    Keeps (Course t₀ may fresh fixed) (Route.merge p names block fqcn boilerplate) := by
  refine ⟨fun w hw => wp_mono (Route.wp_merge_effect p names block fqcn boilerplate w) ?_
    fun f w' h => ⟨hw.frame.of_extends h.2.2, h.1 ▸ hw.cache⟩⟩
  rintro r w' ⟨hcache, heffect⟩
  suffices h : Frame t₀ may fresh w'.tree from ⟨h, hcache ▸ hw.cache⟩
  generalize w'.tree = t' at heffect ⊢
  cases heffect with
  | left => exact hw.frame
  | replaced hr => exact hw.frame.of_replaced hr (fun _ _ _ => hmay) hfresh

end Write

section Look

theorem Renderer.render_keeps {r : Renderer} {id : String} {subs : List (String × String)}
    (hfixed : Fixed t₀ may fixed) : Keeps (Course t₀ may fresh fixed) (r.render id subs) := by
  refine ⟨fun w hw => wp_mono (Renderer.wp_render r id subs w) ?_ ?_⟩
  · rintro _ _ @⟨q, text, w', ht, -, ⟨-, hc⟩ | ⟨hr, hc⟩⟩
    · exact hw.same ⟨ht, hc⟩
    · refine ⟨ht ▸ hw.frame, fun q' text' s hq hs => ?_⟩
      rw [hc, List.lookup_cons] at hs
      split at hs
      · next heq =>
        cases hs
        obtain rfl : q' = q := by simpa using heq
        obtain ⟨hread, hkept⟩ := hfixed q' text' hq
        have hnow := hw.frame.readText hkept hread
        rw [hr] at hnow
        exact Except.ok.inj hnow
      · exact hw.cache q' text' s hq hs
  · exact fun _ _ hs => hw.same hs.1

end Look

section Database

theorem Introspect.columns_keeps {storage : Option Storage} {config : Config} {names : Naming}
    (hfresh : ∀ l, storage.bind (·.file? t₀.home) = some l → fresh l) :
    Keeps (Course t₀ may fresh fixed) (Introspect.columns storage config names) := by
  have hopens : ∀ (w w' : Workspace), Course t₀ may fresh fixed w →
      w'.cache = w.cache ∧ w.tree.Opened (storage.bind (·.file? w.tree.home)) w'.tree →
        Course t₀ may fresh fixed w' := by
    rintro w w' hw ⟨hcache, hopened⟩
    suffices h : Frame t₀ may fresh w'.tree from ⟨h, hcache ▸ hw.cache⟩
    generalize w'.tree = t' at hopened ⊢
    cases hopened with
    | kept => exact hw.frame
    | made hfile hnew => exact hw.frame.of_place hnew (hfresh _ (hw.frame.grows.home ▸ hfile))
  exact ⟨fun w hw => wp_mono (wp_columns storage config names w) (fun _ w' => hopens w w' hw)
    fun _ w' => hopens w w' hw⟩

end Database

section Artifacts

/-- Whether a path may be written as a file of an artifact of kind `k`. -/
structure Writable (t₀ : Tree) (may fresh : Location → Prop) (force : Bool) (k : Kind) (p : Path) : Prop where
  fresh : fresh (p.resolveFrom t₀.home)
  routes : k = .routes → may (p.resolveFrom t₀.home)
  own : k ≠ .routes → may (p.resolveFrom t₀.home) ∨ force = false ∧ t₀.Reaches p

namespace Generator
variable {run : Run} {o : Options} {c : Category} {k : Kind}

theorem artifact_course (hfixed : Fixed t₀ may fixed)
    (h : ∀ p ∈ Layout.files run.config run.names run.version c k, Writable t₀ may fresh run.force k p) :
    Keeps (Course t₀ may fresh fixed) (artifact run c k) :=
  artifact_keeps (fun _ _ => Renderer.render_keeps hfixed)
    (fun hk p hp _ => Writer.write_keeps (h p hp).fresh ((h p hp).own hk))
    fun hk p hp _ _ => Route.merge_keeps (h p hp).fresh ((h p hp).routes hk)

theorem attempt_course (hfixed : Fixed t₀ may fixed)
    (h : ∀ p ∈ Layout.files run.config run.names run.version c k, Writable t₀ may fresh run.force k p) :
    Keeps (Course t₀ may fresh fixed) (attempt run c k) :=
  attempt_keeps Course.logFree (artifact_course hfixed h)

/-- The files that a request may write, those of the artifacts with `p`. -/
def filesOf (g : Generator) (entity : String) (o : Options) (p : Kind → Bool) : List Path :=
  match Naming.derive? (Text.stripped entity) with
  | none => []
  | some names => (o.planned.filter (p ·.2)).flatMap fun a =>
      Layout.files g.config names (Layout.version g.config o.apiVersion) a.1 a.2

/-- The route files that a request may merge into. -/
def routeFiles (g : Generator) (entity : String) (o : Options) : List Path :=
  g.filesOf entity o (· = .routes)

/-- The class files and views that a request may write. -/
def ownFiles (g : Generator) (entity : String) (o : Options) : List Path :=
  g.filesOf entity o (· ≠ .routes)

/-- The locations of files that a request may change. -/
def MayChange (g : Generator) (entity : String) (o : Options) (home l : Location) : Prop :=
  (∃ p ∈ g.routeFiles entity o, p.resolveFrom home = l) ∨
    o.force = true ∧ ∃ p ∈ g.ownFiles entity o, p.resolveFrom home = l

/-- The locations of the files of a request. -/
def Planned (g : Generator) (entity : String) (o : Options) (home l : Location) : Prop :=
  ∃ p ∈ g.routeFiles entity o ++ g.ownFiles entity o, p.resolveFrom home = l

/-- The locations at which a request may make files. -/
def MayMake (g : Generator) (entity : String) (o : Options) (home l : Location) : Prop :=
  g.Planned entity o home l ∨ g.storage?.bind (·.file? home) = some l

theorem mem_filesOf {g : Generator} {entity : String} {names : Naming}
    (hn : Naming.derive? (Text.stripped entity) = some names) (hm : (c, k) ∈ o.planned)
    (hp : p ∈ Layout.files g.config names (Layout.version g.config o.apiVersion) c k) {q : Kind → Bool}
    (hq : q k = true) : p ∈ g.filesOf entity o q := by
  simp only [filesOf, hn]
  exact List.mem_flatMap.2 ⟨(c, k), List.mem_filter.2 ⟨hm, hq⟩, hp⟩

theorem exists_of_mem_filesOf {g : Generator} {entity : String} {q : Kind → Bool}
    (h : p ∈ g.filesOf entity o q) : ∃ names c k, Naming.derive? (Text.stripped entity) = some names ∧
      (c, k) ∈ o.planned ∧ q k = true ∧
        p ∈ Layout.files g.config names (Layout.version g.config o.apiVersion) c k := by
  unfold filesOf at h
  cases hn : Naming.derive? (Text.stripped entity) with
  | none => rw [hn] at h; cases h
  | some names =>
    rw [hn] at h
    obtain ⟨⟨c, k⟩, hm, hp⟩ := List.mem_flatMap.1 h
    obtain ⟨hm, hq⟩ := List.mem_filter.1 hm
    exact ⟨names, c, k, rfl, hm, hq, hp⟩

theorem mem_planned {g : Generator} {entity : String} {names : Naming}
    (hn : Naming.derive? (Text.stripped entity) = some names) (hm : (c, k) ∈ o.planned)
    (hp : p ∈ Layout.files g.config names (Layout.version g.config o.apiVersion) c k) :
    p ∈ g.routeFiles entity o ++ g.ownFiles entity o := by
  by_cases hk : k = .routes
  · exact List.mem_append_left _ (mem_filesOf hn hm hp (by simpa using hk))
  · exact List.mem_append_right _ (mem_filesOf hn hm hp (by simpa using hk))

theorem writable {g : Generator} {entity : String} {names : Naming}
    (hn : Naming.derive? (Text.stripped entity) = some names)
    (hreach : o.force = false → ∀ p ∈ g.ownFiles entity o, t₀.Reaches p) (hm : (c, k) ∈ o.planned)
    (hp : p ∈ Layout.files g.config names (Layout.version g.config o.apiVersion) c k) :
    Writable t₀ (g.MayChange entity o t₀.home) (g.MayMake entity o t₀.home) o.force k p := by
  by_cases hk : k = .routes
  · have hroute : p ∈ g.routeFiles entity o := mem_filesOf hn hm hp (by simpa using hk)
    exact ⟨.inl ⟨p, List.mem_append_left _ hroute, rfl⟩, fun _ => .inl ⟨p, hroute, rfl⟩,
      fun h => absurd hk h⟩
  · have hown : p ∈ g.ownFiles entity o := mem_filesOf hn hm hp (by simpa using hk)
    refine ⟨.inl ⟨p, List.mem_append_right _ hown, rfl⟩, fun h => absurd h hk, fun _ => ?_⟩
    cases hf : o.force with
    | true => exact .inl (.inr ⟨hf, p, hown, rfl⟩)
    | false => exact .inr ⟨rfl, hreach hf p hown⟩

theorem accepted_course (g : Generator) (entity : String) (o : Options) (report : Report)
    (hfixed : Fixed t₀ (g.MayChange entity o t₀.home) fixed)
    (hreach : o.force = false → ∀ p ∈ g.ownFiles entity o, t₀.Reaches p) :
    Keeps (Course t₀ (g.MayChange entity o t₀.home) (g.MayMake entity o t₀.home) fixed)
      (g.accepted (Text.stripped entity) o report) :=
  accepted_keeps Course.logFree (fun _ => Introspect.columns_keeps fun _ hl => .inr hl)
    (fun _ _ hn _ _ hm => attempt_course hfixed fun _ hp => writable hn hreach hm hp) report

/-- However a run ends, it has changed and made files only where it may. The condition is that a file
at the place of a planned class or view is seen there. -/
theorem generate_frame (g : Generator) (entity : String) (o : Options) (elapsed : Float) (w : Workspace)
    (hreach : o.force = false → ∀ p ∈ g.ownFiles entity o, w.tree.Reaches p) :
    Leaves (Frame w.tree (g.MayChange entity o w.tree.home) (g.MayMake entity o w.tree.home))
      (g.generate entity o elapsed) w := by
  suffices h : Keeps (Course w.tree (g.MayChange entity o w.tree.home) (g.MayMake entity o w.tree.home)
      fun _ _ => False) (g.generate entity o elapsed) from
    wp_mono (h.wp w ⟨.refl .., fun _ _ _ h => h.elim⟩) (fun _ _ h => h.frame) fun _ _ h => h.frame
  exact generate_keeps Course.logFree fun report => accepted_course g entity o report (fun _ _ h => h.elim) hreach

section Detour

/-- A project with a controller, and templates for it. -/
def projectTree : Tree where
  home := []
  entries :=
    [(["app"], .directory), (["app", "Http"], .directory), (["app", "Http", "Controllers"], .directory),
     (["app", "Http", "Controllers", "Web"], .directory),
     (["app", "Http", "Controllers", "Web", "Invoice"], .directory),
     (["app", "Http", "Controllers", "Web", "Invoice", "InvoiceController.php"],
      .file 0o600 "mine\n".toUTF8),
     (["stubs"], .directory), (["stubs", "Web"], .directory),
     (["stubs", "Web", "controller.web.stub"], .file 0o644 "<?php\n".toUTF8),
     (["stubs", "Web", "request-store.web.stub"], .file 0o644 "".toUTF8),
     (["stubs", "Web", "request-update.web.stub"], .file 0o644 "".toUTF8)]

/-- The project's generator, for a base path. -/
def projectGenerator (base : List String) : Generator where
  config := { basePath := ⟨.relative, base⟩ }
  storage := none
  renderer := ⟨none, ⟨.root, ["stubs"]⟩⟩

/-- The class files of the web category only. -/
def classesOnly : Options :=
  { api := false, web := true, skipCommon := true, skipRoutes := true, skipViews := true }

/-- The classes and the routes of the web category. -/
def classesAndRoutes : Options :=
  { classesOnly with skipRoutes := false }

/-- A controller that stands is seen below the working directory, so it is left alone. -/
theorem generate_frame_project :
    let g := projectGenerator []
    let w := Workspace.start projectTree
    Leaves (Frame w.tree (g.MayChange "Invoice" classesOnly w.tree.home)
      (g.MayMake "Invoice" classesOnly w.tree.home)) (g.generate "Invoice" classesOnly 0) w := by
  intro g w
  have hfiles : g.ownFiles "Invoice" classesOnly =
      [⟨.relative, ["app", "Http", "Controllers", "Web", "Invoice", "InvoiceController.php"]⟩,
       ⟨.relative, ["app", "Http", "Requests", "Web", "Invoice", "StoreInvoiceRequest.php"]⟩,
       ⟨.relative, ["app", "Http", "Requests", "Web", "Invoice", "UpdateInvoiceRequest.php"]⟩] := by
    decide +kernel
  have hreach : ∀ p ∈ g.ownFiles "Invoice" classesOnly, w.tree.Reaches p := by
    intro p hp mode bytes h
    rw [hfiles] at hp
    simp only [List.mem_cons, List.not_mem_nil, or_false] at hp
    rcases hp with rfl | rfl | rfl
    · have hfile : w.tree.find
          ⟨.relative, ["app", "Http", "Controllers", "Web", "Invoice", "InvoiceController.php"]⟩ =
          .ok (.file 0o600 "mine\n".toUTF8) := by decide +kernel
      rw [Tree.find_eq_resolve hfile] at h
      cases h
      exact hfile
    · cases h
    · cases h
  exact generate_frame g "Invoice" classesOnly 0 w fun _ => hreach

/-- Whether a run returns, with a report and a workspace that pass a test. -/
def tested (g : Generator) (entity : String) (o : Options) (w : Workspace) (test : Report → Workspace → Bool) :
    Bool :=
  match g.generate entity o 0 w with
  | .ok report w' => test report w'
  | .error _ _ => false

theorem tested_eq_true {g : Generator} {entity : String} {o : Options} {w : Workspace}
    {test : Report → Workspace → Bool} (h : tested g entity o w test = true) :
    ∃ report w', g.generate entity o 0 w = .ok report w' ∧ test report w' = true := by
  unfold tested at h
  cases hr : g.generate entity o 0 w with
  | ok report w' => rw [hr] at h; exact ⟨report, w', rfl, h⟩
  | error fault w' => rw [hr] at h; cases h

/-- What a run leaves at a location if it returns. -/
def entryAfter (g : Generator) (entity : String) (o : Options) (w : Workspace) (l : Location) : Option Entry :=
  match g.generate entity o 0 w with
  | .ok _ w' => w'.tree.entryAt l
  | .error _ _ => none

theorem entryAfter_eq_some {g : Generator} {entity : String} {o : Options} {w : Workspace} {e : Entry}
    (h : entryAfter g entity o w l = some e) :
    ∃ report w', g.generate entity o 0 w = .ok report w' ∧ w'.tree.entryAt l = some e := by
  unfold entryAfter at h
  cases hr : g.generate entity o 0 w with
  | ok report w' => rw [hr] at h; exact ⟨report, w', rfl, h⟩
  | error fault w' => rw [hr] at h; cases h

/-- Where the controller of the project stands. -/
def controllerPlace : Location :=
  ["app", "Http", "Controllers", "Web", "Invoice", "InvoiceController.php"]

/-- Below `nodir/..`, where no `nodir` stands, the same controller is overwritten without force. -/
theorem generate_overwrites :
    classesOnly.force = false ∧
      ¬ (projectGenerator ["nodir", ".."]).MayChange "Invoice" classesOnly [] controllerPlace ∧
      projectTree.entryAt controllerPlace = some (.file 0o600 "mine\n".toUTF8) ∧
      ∃ report w', (projectGenerator ["nodir", ".."]).generate "Invoice" classesOnly 0
          (Workspace.start projectTree) = .ok report w' ∧
        w'.tree.entryAt controllerPlace = some (.file 0o600 "<?php\n".toUTF8) := by
  refine ⟨rfl, ?_, by decide +kernel, ?_⟩
  · have hroutes : (projectGenerator ["nodir", ".."]).routeFiles "Invoice" classesOnly = [] := by
      decide +kernel
    rintro (⟨p, hp, -⟩ | ⟨hf, -⟩)
    · rw [hroutes] at hp; cases hp
    · cases hf
  · exact entryAfter_eq_some (by decide +kernel)

end Detour

end Generator

end Artifacts

end Scaffold
