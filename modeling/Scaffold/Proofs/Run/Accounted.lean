import Scaffold.Proofs.Run.Frame
import Scaffold.Proofs.Run.Outcome
import Scaffold.Proofs.Run.Request

/-!
# What a report says of the files

`generate_accounts`: a file that a run has changed or made is listed with a result that is created. There are
two exceptions. Views that fail may have been written in part, and their result lists nothing
(`generate_unaccounted`). Looking up the columns may make the file of the database, which is then empty.
-/

namespace Scaffold

variable {t t₁ t' : Tree} {l : Location}

/-- The file at a location is new or another one. -/
def Tree.Changed (t t' : Tree) (l : Location) : Prop :=
  ∃ mode bytes, t'.entryAt l = some (.file mode bytes) ∧ t.entryAt l ≠ some (.file mode bytes)

theorem Tree.not_changed_self : ¬ t.Changed t l := by
  rintro ⟨mode, bytes, hafter, hbefore⟩
  exact hbefore hafter

/-- What has changed has changed after `t₁`, or stands as in `t₁` and has changed before. -/
theorem Tree.Changed.split (h : t.Changed t' l) (t₁ : Tree) :
    t₁.Changed t' l ∨ t.Changed t₁ l ∧ t'.entryAt l = t₁.entryAt l := by
  obtain ⟨mode, bytes, hafter, hbefore⟩ := h
  by_cases hmiddle : t₁.entryAt l = some (.file mode bytes)
  · exact .inr ⟨⟨mode, bytes, hmiddle, hbefore⟩, hafter.trans hmiddle.symm⟩
  · exact .inl ⟨mode, bytes, hafter, hmiddle⟩

theorem Tree.Opened.home {file? : Option Location} (h : t.Opened file? t') : t'.home = t.home := by
  cases h <;> rfl

/-- Where a database was opened, only its file may have changed: it is new and empty. -/
theorem Tree.Opened.changed {file? : Option Location} (h : t.Opened file? t') (hl : t.Changed t' l) :
    file? = some l ∧ t.entryAt l = none ∧ t'.entryAt l = some (.file Edit.newFileMode .empty) := by
  cases h with
  | kept => exact absurd hl Tree.not_changed_self
  | @made l' hfile hnew =>
    obtain ⟨mode, bytes, hafter, hbefore⟩ := hl
    by_cases hl' : l = l'
    · subst hl'
      exact ⟨hfile, hnew, by rw [Tree.entryAt_place_new hnew, if_pos rfl]⟩
    · rw [Tree.entryAt_place_new hnew, if_neg hl'] at hafter
      exact absurd hafter hbefore

namespace Generator
variable {run : Run} {g : Generator} {entity : String} {o : Options} {c : Category} {k : Kind} {r : Result}
  {rs : List Result} {w w₀ w' : Workspace}

/-- A result speaks of the file at a location: the file is listed as one of its artifact, or of views that
have failed. -/
inductive Accounts (run : Run) (home l : Location) (r : Result) : Prop where
  | listed {p : Path} (created : r.status = .created) (file : p ∈ run.files r.category r.kind)
      (place : p.resolveFrom home = l) (path : p.toString ∈ r.paths)
  | failed {p : Path} (failed : r.status = .failed) (views : r.kind = .views)
      (file : p ∈ run.files r.category r.kind) (place : p.resolveFrom home = l)

theorem Outcome.accounts (h : Outcome run c k w r w') (hl : w.tree.Changed w'.tree l) :
    Accounts run w.tree.home l r := by
  obtain ⟨mode, bytes, hafter, hbefore⟩ := hl
  have hspot : run.Spot c k w.tree.home l := by
    rcases h.stays.changed hafter with hsame | hspot | hspot
    · exact absurd hsame hbefore
    · exact hspot
    · exact hspot
  obtain ⟨p, hfile, hplace⟩ := hspot
  cases h with
  | returned returns =>
    have heffect := (wp_ok returns).1 (artifact_effect run c k w)
    generalize w'.tree = t' at heffect hafter
    cases heffect with
    | created listed => exact .listed rfl hfile hplace (listed p hfile)
    | skipped => exact absurd hafter hbefore
  | failed log fails =>
    have hextends := ((wp_error fails).1 (artifact_effect run c k w)).2.2
    by_cases hk : k = .views
    · exact .failed rfl hk hfile hplace
    · exact absurd ((hextends hk).file_iff.1 hafter) hbefore

/-- A file that attempts have changed is one that a result speaks of, since the last that changed it does. -/
theorem Outcomes.accounts (h : Outcomes run w₀ rs w) (hl : w₀.tree.Changed w.tree l) :
    ∃ r ∈ rs, Accounts run w₀.tree.home l r := by
  induction h with
  | start => exact absurd hl Tree.not_changed_self
  | @next rs r w₁ w₂ before outcome ih =>
    -- the last attempt has changed the file, or one before it
    rcases hl.split w₁.tree with hlast | ⟨hearlier, -⟩
    · exact ⟨r, by simp, before.frame_free.grows.home ▸ outcome.accounts hlast⟩
    · obtain ⟨r', hr', haccounts⟩ := ih hearlier
      exact ⟨r', by simp [hr'], haccounts⟩

/-- A file that a run has changed or made is listed with a result that is created, or it is one of views that
have failed, or the database, which is new and empty. -/
theorem generate_accounts {elapsed : Float} {report : Report}
    (hgenerate : g.generate entity o elapsed w = .ok report w') (hl : w.tree.Changed w'.tree l) :
    (∃ r ∈ report.results, r.status = .created ∧
        ∃ p ∈ g.filesOf entity o (· = r.kind), p.resolveFrom w.tree.home = l ∧ p.toString ∈ r.paths) ∨
      (∃ r ∈ report.results, r.status = .failed ∧ r.kind = .views ∧
        ∃ p ∈ g.filesOf entity o (· = .views), p.resolveFrom w.tree.home = l) ∨
      (g.storage?.bind (·.file? w.tree.home) = some l ∧ w.tree.entryAt l = none ∧
        w'.tree.entryAt l = some (.file Edit.newFileMode .empty)) := by
  cases (wp_ok hgenerate).1 (wp_generate_returned g entity o elapsed w) with
  | refused _ _ _ _ same => exact absurd hl (same.1 ▸ Tree.not_changed_self)
  | @ran _ names columns _ _ w₁ w₂ _ _ _ named asked planned outcomes same =>
    have hopened : w.tree.Opened _ w₁.tree := ((wp_ok asked).1 (Introspect.wp_columns ..)).2
    rw [same.1] at hl ⊢
    rcases hl.split w₁.tree with hran | ⟨hasked, hstays⟩
    · obtain ⟨r, hr, haccounts⟩ := outcomes.accounts hran
      have hm : (r.category, r.kind) ∈ o.planned := planned ▸ List.mem_map_of_mem hr
      have hplanned : ∀ p ∈ (g.runOf o names columns).files r.category r.kind,
          p ∈ g.filesOf entity o (· = r.kind) := fun p hp => mem_filesOf named hm hp (by simp)
      rw [hopened.home] at haccounts
      cases haccounts with
      | listed created file place path => exact .inl ⟨r, hr, created, _, hplanned _ file, place, path⟩
      | failed failed views file place =>
        exact .inr (.inl ⟨r, hr, failed, views, _, views ▸ hplanned _ file, place⟩)
    · obtain ⟨hfile, hnew, hempty⟩ := hopened.changed hasked
      exact .inr (.inr ⟨hfile, hnew, hstays.trans hempty⟩)

section Views

/-- Where the first request class of the project stands. -/
def requestPlace : Location :=
  ["app", "Http", "Requests", "Web", "Invoice", "StoreInvoiceRequest.php"]

/-- The request class is new, so it is accounted for. -/
theorem generate_accounts_project :
    let g := projectGenerator []
    let w := Workspace.start projectTree
    ∃ report w', g.generate "Invoice" classesOnly 0 w = .ok report w' ∧ w.tree.Changed w'.tree requestPlace ∧
      ((∃ r ∈ report.results, r.status = .created ∧
          ∃ p ∈ g.filesOf "Invoice" classesOnly (· = r.kind), p.resolveFrom w.tree.home = requestPlace ∧
            p.toString ∈ r.paths) ∨
        (∃ r ∈ report.results, r.status = .failed ∧ r.kind = .views ∧
          ∃ p ∈ g.filesOf "Invoice" classesOnly (· = .views), p.resolveFrom w.tree.home = requestPlace) ∨
        (g.storage?.bind (·.file? w.tree.home) = some requestPlace ∧ w.tree.entryAt requestPlace = none ∧
          w'.tree.entryAt requestPlace = some (.file Edit.newFileMode .empty))) := by
  intro g w
  have hafter : entryAfter g "Invoice" classesOnly w requestPlace = some (.file 0o644 "".toUTF8) := by
    decide +kernel
  obtain ⟨report, w', hgenerate, hentry⟩ := entryAfter_eq_some hafter
  have hchanged : w.tree.Changed w'.tree requestPlace := ⟨_, _, hentry, by decide +kernel⟩
  exact ⟨report, w', hgenerate, hchanged, generate_accounts hgenerate hchanged⟩

/-- The project with templates for two views, and a directory where the second one is to stand. -/
def blockedTree : Tree :=
  { projectTree with
    entries := projectTree.entries ++
      [(["stubs", "Web", "view-index.stub"], .file 0o644 "".toUTF8),
       (["stubs", "Web", "view-create.stub"], .file 0o644 "".toUTF8), (["resources"], .directory),
       (["resources", "views"], .directory), (["resources", "views", "invoices"], .directory),
       (["resources", "views", "invoices", "create.blade.php"], .directory)] }

/-- The classes and views of the web category, whatever stands. -/
def forcedViews : Options :=
  { classesOnly with skipViews := false, force := true }

/-- Where the first view is to stand. -/
def indexPlace : Location :=
  ["resources", "views", "invoices", "index.blade.php"]

/-- The first view is written and the second one cannot be, so no result lists the first. -/
theorem generate_unaccounted :
    let g := projectGenerator []
    let w := Workspace.start blockedTree
    Review.accepts w.tree (some "Invoice") forcedViews g.config = true ∧
      ∃ report w', g.generate "Invoice" forcedViews 0 w = .ok report w' ∧ w.tree.Changed w'.tree indexPlace ∧
        ∀ r ∈ report.results, ∀ path ∈ r.paths, (Path.ofString path).resolveFrom w.tree.home ≠ indexPlace := by
  intro g w
  have hrun : tested g "Invoice" forcedViews w
      (fun report w' => decide (w'.tree.entryAt indexPlace = some (.file 0o644 "".toUTF8) ∧
        ∀ r ∈ report.results, ∀ path ∈ r.paths, (Path.ofString path).resolveFrom w.tree.home ≠ indexPlace)) =
      true := by
    decide +kernel
  obtain ⟨report, w', hgenerate, htest⟩ := tested_eq_true hrun
  obtain ⟨hentry, hlists⟩ := of_decide_eq_true htest
  exact ⟨by decide +kernel, report, w', hgenerate, ⟨_, _, hentry, by decide +kernel⟩, hlists⟩

end Views

end Generator

end Scaffold
