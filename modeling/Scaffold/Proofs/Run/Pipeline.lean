import Mathlib.Data.List.Flatten
import Scaffold.Proofs.Run.Storage

/-!
# The steps of a run

What rendering, writing and merging keep of the workspace, whole artifacts keep, and so do sequences of
them and runs (`generate_keeps`). For what a run ends in there are `wp_artifacts`, `wp_accepted`, `wp_checked`
and `wp_generate`, one for each layer.
-/

namespace Scaffold

/-- The files of an artifact. -/
def Layout.files (config : Config) (names : Naming) (version : String) (c : Category) (k : Kind) :
    List Path :=
  match target? config names version c k with
  | none => []
  | some t => if k = .views then View.all.map fun v => t.path / (v.name ++ ".blade.php") else [t.path]

theorem Layout.target_eq {config : Config} {names : Naming} {version : String} {c : Category} {k : Kind}
    {t : Target} (h : Layout.target config names version c k = .ok t) :
    Layout.target? config names version c k = some t := by
  unfold Layout.target at h
  split at h
  · next ht => cases h; exact ht
  · cases h

namespace Generator
variable {run : Run} {g : Generator} {entity : String} {o : Options} {c : Category} {k : Kind} {elapsed : Float}
  {I : Workspace → Prop} {w : Workspace} {Q : Report → Workspace → Prop} {E : Fault → Workspace → Prop}

section Artifacts

theorem classFile_keeps (hviews : k ≠ .views)
    (hrender : ∀ id subs, Keeps I (run.renderer.render id subs))
    (h : ∀ p ∈ Layout.files run.config run.names run.version c k, ∀ text,
      Keeps I (Writer.write p text run.force)) :
    Keeps I (classFile run c k) := by
  unfold classFile
  refine Keeps.bind_ofExcept fun t ht => Keeps.bind .ofExcept fun id => ?_
  refine (hrender ..).bind fun content => ?_
  refine (h t.path (by simp [Layout.files, Layout.target_eq ht, hviews]) content).bind fun written => ?_
  cases written.record <;> exact .pure _

theorem views_keeps (hrender : ∀ id subs, Keeps I (run.renderer.render id subs))
    (h : ∀ p ∈ Layout.files run.config run.names run.version c .views, ∀ text,
      Keeps I (Writer.write p text run.force)) :
    Keeps I (views run c) := by
  unfold views
  refine Keeps.bind_ofExcept fun t ht => Keeps.bind (.mapM fun v hv => ?_) fun _ => .pure _
  unfold view
  refine Keeps.bind .ofExcept fun id => (hrender ..).bind fun content => h _ ?_ content
  simp only [Layout.files, Layout.target_eq ht, ↓reduceIte]
  exact List.mem_map_of_mem hv

theorem routes_keeps (hrender : ∀ id subs, Keeps I (run.renderer.render id subs))
    (h : ∀ p ∈ Layout.files run.config run.names run.version c .routes, ∀ block fqcn,
      Keeps I (Route.merge p run.names block fqcn (boilerplate c))) :
    Keeps I (routes run c) := by
  unfold routes
  refine Keeps.bind_ofExcept fun t ht => Keeps.bind .ofExcept fun id => ?_
  refine (hrender ..).bind fun block => ?_
  refine (h t.path (by simp [Layout.files, Layout.target_eq ht]) block _).bind fun r => ?_
  cases r <;> exact .pure _

theorem artifact_keeps (hrender : ∀ id subs, Keeps I (run.renderer.render id subs))
    (hwrite : k ≠ .routes → ∀ p ∈ Layout.files run.config run.names run.version c k, ∀ text,
      Keeps I (Writer.write p text run.force))
    (hmerge : k = .routes → ∀ p ∈ Layout.files run.config run.names run.version c k, ∀ block fqcn,
      Keeps I (Route.merge p run.names block fqcn (boilerplate c))) :
    Keeps I (artifact run c k) := by
  cases k with
  | views => exact views_keeps hrender (hwrite (by simp))
  | routes => exact routes_keeps hrender (hmerge rfl)
  | _ => exact classFile_keeps (by simp) hrender (hwrite (by simp))

theorem attempt_keeps (hI : LogFree I) (h : Keeps I (artifact run c k)) : Keeps I (attempt run c k) := by
  unfold attempt
  refine h.tryCatch fun fault => ?_
  split
  · exact Keeps.bind (.say hI) fun _ => .pure _
  · exact .throw _

theorem artifacts_keeps {planned : List (Category × Kind)}
    (h : ∀ c k, (c, k) ∈ planned → Keeps I (attempt run c k)) (report : Report) :
    Keeps I (artifacts run planned report) := by
  induction planned generalizing report with
  | nil => exact .pure _
  | cons a planned ih =>
    obtain ⟨c, k⟩ := a
    refine (h c k (List.mem_cons_self ..)).bind fun result => ?_
    exact ih (fun c k hm => h c k (List.mem_cons_of_mem _ hm)) _

end Artifacts

section Sequence
variable {planned : List (Category × Kind)}

/-- The label of an artifact. -/
def labelOf (a : Category × Kind) : String :=
  a.1.name ++ "." ++ a.2.name

theorem nodup_labels (o : Options) : (o.planned.map labelOf).Nodup := by
  have hsub : o.planned.Sublist (Category.all.flatMap fun c => c.kinds.map (c, ·)) := by
    refine (List.filter_sublist.flatMap _).trans (List.Sublist.flatMap_right _ fun c _ => ?_)
    exact List.filter_sublist.map _
  exact (hsub.map labelOf).nodup (by decide +kernel)

theorem addResult_of_fresh {report : Report} {r : Result} (h : ∀ old ∈ report.results, old.label ≠ r.label) :
    report.addResult r = { report with results := report.results ++ [r] } := by
  unfold Report.addResult
  rw [if_neg]
  simpa using h

/-- What an attempt keeps of the results so far and the workspace, all attempts keep. No result takes the
place of another, as the labels differ. -/
theorem wp_artifacts {I : List Result → Workspace → Prop} {E : Fault → Workspace → Prop}
    (hstep : ∀ rs c k w, (c, k) ∈ planned → I rs w →
      wp (attempt run c k) (fun r w' => (r.category = c ∧ r.kind = k) ∧ I (rs ++ [r]) w') E w)
    (hnodup : (planned.map labelOf).Nodup) (report : Report)
    (hfresh : ∀ a ∈ planned, ∀ old ∈ report.results, old.label ≠ labelOf a) (w : Workspace)
    (hI : I report.results w) :
    wp (artifacts run planned report)
      (fun report' w' => ∃ rs, report' = { report with results := report.results ++ rs } ∧
        rs.map (fun r => (r.category, r.kind)) = planned ∧ I report'.results w') E w := by
  induction planned generalizing report w with
  | nil => exact (wp_pure _).2 ⟨[], by simp, rfl, hI⟩
  | cons a planned ih =>
    obtain ⟨c, k⟩ := a
    rw [artifacts, wp_bind]
    refine wp_mono (hstep report.results c k w (List.mem_cons_self ..) hI) ?_ fun _ _ h => h
    rintro r w₁ ⟨⟨hc, hk⟩, hI₁⟩
    have hlabel : r.label = labelOf (c, k) := by rw [Result.label, hc, hk]; rfl
    obtain ⟨hnew, hnodup'⟩ := List.nodup_cons.1 hnodup
    rw [addResult_of_fresh fun old hold => by rw [hlabel]; exact hfresh _ (List.mem_cons_self ..) old hold]
    have hfresh' : ∀ b ∈ planned, ∀ old ∈ report.results ++ [r], old.label ≠ labelOf b := by
      intro b hb old hold
      rcases List.mem_append.1 hold with hold | hold
      · exact hfresh b (List.mem_cons_of_mem _ hb) old hold
      · rw [List.mem_singleton.1 hold, hlabel]
        exact fun e => hnew (e ▸ List.mem_map_of_mem hb)
    refine wp_mono (ih (fun rs c k w hm => hstep rs c k w (List.mem_cons_of_mem _ hm)) hnodup'
      { report with results := report.results ++ [r] } hfresh' w₁ hI₁) ?_ fun _ _ h => h
    rintro report' w₂ ⟨rs, rfl, hrs, hI₂⟩
    exact ⟨r :: rs, by simp, by simp [hc, hk, hrs], hI₂⟩

end Sequence

section Accepted

/-- The run for an entity with known columns. -/
def runOf (g : Generator) (o : Options) (names : Naming) (columns : List Column) : Run where
  config := g.config
  renderer := g.renderer
  names := names
  force := o.force
  version := Layout.version g.config o.apiVersion
  fields := .ofConfig columns names.table g.config

/-- A report with the entity and what is known of its table. -/
def tableReport (names : Naming) (columns : List Column) (report : Report) : Report :=
  { report with entity := names.one.pascal, table := names.table,
                schemaDetected := !columns.isEmpty, columnCount := columns.length }

theorem accepted_of_none (hn : Naming.derive? entity = none) (report : Report) :
    g.accepted entity o report = throw (.noWords entity) := by
  unfold accepted
  rw [hn]

theorem wp_accepted {names : Naming}
    (hn : Naming.derive? entity = some names) (report : Report)
    (h : ∀ log, wp (Introspect.columns g.storage? g.config names) (fun columns w' =>
      wp (artifacts (g.runOf o names columns) o.planned (tableReport names columns report)) Q E w') E
      { w with log := log }) : wp (g.accepted entity o report) Q E w := by
  obtain ⟨log, hs⟩ := g.storageOf_eq w
  unfold accepted
  rw [hn]
  simp only
  rw [wp_bind, wp_ok hs, wp_bind]
  exact h log

theorem accepted_keeps (hI : LogFree I)
    (hcolumns : ∀ names, Keeps I (Introspect.columns g.storage? g.config names))
    (h : ∀ names columns, Naming.derive? entity = some names → ∀ c k, (c, k) ∈ o.planned →
      Keeps I (attempt (g.runOf o names columns) c k)) (report : Report) :
    Keeps I (g.accepted entity o report) := by
  cases hn : Naming.derive? entity with
  | none =>
    rw [accepted_of_none hn]
    exact .throw _
  | some names =>
    refine ⟨fun w hw => wp_accepted hn report fun log => ?_⟩
    refine wp_mono ((hcolumns names).wp { w with log := log } (hI w log hw)) (fun columns w₁ h₁ => ?_)
      fun _ _ h => h
    exact (artifacts_keeps (h names columns hn) _).wp w₁ h₁

end Accepted

section Request

/-- The report that a run starts with. -/
def reportOf (entity : String) (review : Review) : Report where
  entity := entity
  errors := review.errors.map Finding.text
  warnings := review.warnings.map Finding.text

theorem errors_reportOf {review : Review} (h : review.hasErrors = false) :
    (reportOf entity review).errors = [] := by
  have hnone : review.errors = [] := by
    rw [Review.errors, List.filter_eq_nil_iff]
    intro f hf
    simpa using List.any_eq_false.1 h f hf
  show review.errors.map Finding.text = []
  rw [hnone]
  rfl

theorem not_success_reportOf {review : Review} (h : review.hasErrors = true) :
    (reportOf entity review).success = false := by
  obtain ⟨f, hf, he⟩ := List.any_eq_true.1 h
  have hmem : f.text ∈ (reportOf entity review).errors :=
    List.mem_map_of_mem (List.mem_filter.2 ⟨hf, he⟩)
  unfold Report.success
  cases herrors : (reportOf entity review).errors with
  | nil => rw [herrors] at hmem; cases hmem
  | cons e es => rfl

theorem wp_checked (h : match Review.ofRequest w.tree (some entity) o g.config with
      | .error fault => E fault w
      | .ok review => ∀ log, if review.hasErrors = true then Q (reportOf entity review) { w with log := log }
        else wp (g.accepted (Text.stripped entity) o (reportOf entity review)) Q E { w with log := log }) :
    wp (g.checked entity o) Q E w := by
  unfold checked review
  simp only [wp_bind, wp_look]
  cases hr : Review.ofRequest w.tree (some entity) o g.config with
  | error fault => rw [hr] at h; exact h
  | ok review =>
    rw [hr] at h
    by_cases he : review.hasErrors = true
    · simp only [he, ↓reduceIte, wp_bind, wp_say, wp_pure] at h ⊢
      exact h _
    · simp only [he, Bool.false_eq_true, ↓reduceIte, wp_bind, wp_say, wp_pure] at h ⊢
      exact h _

theorem wp_timed {α : Type} {x : Action α} {Q : α → Workspace → Prop} (hQ : ∀ a, LogFree (Q a))
    (hE : ∀ f, LogFree (E f)) (elapsed : Float) (h : wp x Q E w) :
    wp (timed elapsed x) Q E w := by
  unfold wp at h ⊢
  unfold timed
  cases hr : x w with
  | ok a w' => rw [hr] at h; exact hQ a _ _ h
  | error fault w' => rw [hr] at h; exact hE fault _ _ h

theorem wp_generate (hQ : ∀ r, LogFree (Q r)) (hE : ∀ f, LogFree (E f))
    (h : wp (g.checked entity o) (fun r w' => Q { r with elapsed := elapsed } w') E w) :
    wp (g.generate entity o elapsed) Q E w := by
  unfold generate
  rw [wp_bind]
  refine wp_mono (wp_timed (fun r => hQ _) hE elapsed h) (fun r w' hr => ?_) fun _ _ h => h
  rw [wp_bind, wp_say, wp_pure]
  exact hQ _ _ _ hr

theorem generate_keeps (hI : LogFree I) (h : ∀ report, Keeps I (g.accepted (Text.stripped entity) o report)) :
    Keeps I (g.generate entity o elapsed) := by
  refine ⟨fun w hw => wp_generate (fun _ => hI) (fun _ => hI) (wp_checked ?_)⟩
  cases Review.ofRequest w.tree (some entity) o g.config with
  | error fault => exact hw
  | ok review =>
    intro log
    split
    · exact hI w log hw
    · exact (h _).wp _ (hI w log hw)

end Request

end Generator

end Scaffold

