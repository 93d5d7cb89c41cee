import Scaffold.Proofs.Run.Finished

/-!
# Attempts that find their work done

A further attempt at a finished artifact skips it and leaves the tree alone (`attempt_again`), and so a
further sequence of attempts skips all of them (`artifacts_again`). Each attempt renders its template
before it asks for the file, so the templates have to be legible still.
-/

namespace Scaffold

variable {p : Path} {w : Workspace}

theorem Writer.write_again (h : w.tree.stands p = .ok true) (text : String) :
    wp (Writer.write p text false) (fun written w' => written.record = none ∧ w'.tree = w.tree)
      (fun _ _ => False) w := by
  unfold Writer.write
  rw [wp_bind, wp_look, h]
  simp only [Bool.not_false, Bool.and_self, ↓reduceIte, wp_bind, wp_say, wp_pure, and_self]

theorem Route.merge_again {names : Naming} (h : Registered w.tree p names.many.kebab)
    (block fqcn boilerplate : String) :
    wp (Route.merge p names block fqcn boilerplate) (fun r w' => r = .alreadyPresent ∧ w'.tree = w.tree)
      (fun _ _ => False) w := by
  obtain ⟨text, hread, ⟨doc, hparse⟩, htoken⟩ := h
  obtain ⟨log, hmerge⟩ :=
    Route.merge_registered (.present hread (Route.isSolid_of_parse hparse)) hparse htoken block fqcn
  exact (wp_ok hmerge).2 ⟨rfl, rfl⟩

theorem wp_mapM {α β : Type} {f : α → Action β} {as : List α} {P : β → Prop} {I : Workspace → Prop}
    {E : Fault → Workspace → Prop}
    (hf : ∀ a ∈ as, ∀ w, I w → wp (f a) (fun b w' => P b ∧ I w') E w) (w : Workspace) (hI : I w) :
    wp (as.mapM f) (fun bs w' => (∀ b ∈ bs, P b) ∧ I w') E w := by
  induction as generalizing w with
  | nil =>
    rw [List.mapM_nil, wp_pure]
    exact ⟨by simp, hI⟩
  | cons a as ih =>
    rw [List.mapM_cons, wp_bind]
    refine wp_mono (hf a (List.mem_cons_self ..) w hI) (fun b w₁ h₁ => ?_) fun _ _ h => h
    rw [wp_bind]
    refine wp_mono (ih (fun a ha => hf a (List.mem_cons_of_mem _ ha)) w₁ h₁.2) (fun bs w₂ h₂ => (wp_pure _).2 ?_)
      fun _ _ h => h
    refine ⟨fun x hx => ?_, h₂.2⟩
    rcases List.mem_cons.1 hx with rfl | hx
    · exact h₁.1
    · exact h₂.1 x hx

namespace Generator
variable {run : Run} {o : Options} {c : Category} {k : Kind} {t : Tree}

/-- Every template of an artifact can be looked for, and where there is a file it can be read. -/
structure Legible (run : Run) (t : Tree) (c : Category) (k : Kind) : Prop where
  short : ∀ q ∈ templatePlaces run.config run.renderer c k, Tree.Short q
  text : ∀ q ∈ templatePlaces run.config run.renderer c k, t.isFile q = .ok true →
    ∃ text, t.readText q = .ok text

section Attempt

/-- A further attempt gets past its template. -/
theorem template_again {α : Type} (hl : Legible run w.tree c k) (h : Finished run w.tree c k)
    {v : Option String} (hv : v ∈ viewsOf k) {subs : List (String × String)} {next : String → Action α}
    {Q : α → Workspace → Prop}
    (hnext : ∀ content w', w'.tree = w.tree → wp (next content) Q (fun _ _ => False) w') :
    wp (do
      let id ← Action.ofExcept (Layout.templateId run.config c k v)
      let content ← run.renderer.render id subs
      next content) Q (fun _ _ => False) w := by
  obtain ⟨id, hid, q, hq, hfile⟩ := h.templates v hv
  have hmem : ∀ p ∈ run.renderer.places id, p ∈ templatePlaces run.config run.renderer c k :=
    fun p hp => mem_templatePlaces hv hid hp
  rw [wp_bind, wp_ofExcept', hid]
  simp only
  rw [wp_bind]
  have hshort : ∀ p ∈ run.renderer.places id, Tree.Short p := fun p hp => hl.short p (hmem p hp)
  exact wp_mono (Renderer.render_ok hshort (fun p hp => hl.text p (hmem p hp)) hq hfile) hnext fun _ _ h => h

theorem classFile_again (hforce : run.force = false) (hk : k ≠ .routes) (hviews : k ≠ .views)
    (hl : Legible run w.tree c k) (h : Finished run w.tree c k) :
    wp (classFile run c k)
      (fun r w' => (r.category = c ∧ r.kind = k) ∧ r.status = .skipped ∧ w'.tree = w.tree)
      (fun _ _ => False) w := by
  obtain ⟨tgt, ht⟩ := h.target
  unfold classFile
  rw [wp_bind, wp_ofExcept', ht]
  refine template_again hl h (none_mem_viewsOf hviews) fun content w₁ h₁ => ?_
  have hstands : w₁.tree.stands tgt.path = .ok true := by
    have hfile := h.files tgt.path (by simp [Layout.files, Layout.target_eq ht, hviews])
    rw [if_neg hk] at hfile
    rw [h₁, hfile]
  rw [wp_bind, hforce]
  refine wp_mono (Writer.write_again hstands content) (fun written w₂ h₂ => ?_) fun _ _ h => h
  rw [h₂.1, wp_pure]
  exact ⟨⟨rfl, rfl⟩, rfl, h₂.2.trans h₁⟩

theorem views_again (hforce : run.force = false) (hl : Legible run w.tree c .views)
    (h : Finished run w.tree c .views) :
    wp (views run c)
      (fun r w' => (r.category = c ∧ r.kind = .views) ∧ r.status = .skipped ∧ w'.tree = w.tree)
      (fun _ _ => False) w := by
  obtain ⟨tgt, ht⟩ := h.target
  have hview : ∀ v ∈ View.all, ∀ w₁ : Workspace, w₁.tree = w.tree →
      wp (view run c tgt.path v) (fun written w' => written.record = none ∧ w'.tree = w.tree)
        (fun _ _ => False) w₁ := by
    intro v hv w₁ h₁
    have hstands : w.tree.stands (tgt.path / (v.name ++ ".blade.php")) = .ok true := by
      refine h.files _ ?_
      simp only [Layout.files, Layout.target_eq ht, ↓reduceIte]
      exact List.mem_map_of_mem hv
    rw [← h₁] at hl h hstands
    unfold view
    refine template_again hl h (mem_viewsOf_views hv) fun content w₂ h₂ => ?_
    rw [← h₂] at hstands
    rw [hforce]
    exact wp_mono (Writer.write_again hstands content)
      (fun written w₃ h₃ => ⟨h₃.1, h₃.2.trans (h₂.trans h₁)⟩) fun _ _ h => h
  unfold views
  rw [wp_bind, wp_ofExcept', ht]
  simp only
  rw [wp_bind]
  refine wp_mono (wp_mapM hview w rfl) (fun written w' hw => ?_) fun _ _ h => h
  have hnone : written.filter (·.record.isSome) = [] := by
    rw [List.filter_eq_nil_iff]
    intro x hx
    simp [hw.1 x hx]
  rw [wp_pure]
  refine ⟨?_, ?_, hw.2⟩
  · simp only [viewsResult, List.partition_eq_filter_filter, hnone]
    exact ⟨rfl, rfl⟩
  · simp only [viewsResult, List.partition_eq_filter_filter, hnone]
    rfl

theorem routes_again (hl : Legible run w.tree c .routes) (h : Finished run w.tree c .routes) :
    wp (routes run c)
      (fun r w' => (r.category = c ∧ r.kind = .routes) ∧ r.status = .skipped ∧ w'.tree = w.tree)
      (fun _ _ => False) w := by
  obtain ⟨tgt, ht⟩ := h.target
  unfold routes
  rw [wp_bind, wp_ofExcept', ht]
  refine template_again hl h (none_mem_viewsOf (by simp)) fun block w₁ h₁ => ?_
  have hregistered : Registered w₁.tree tgt.path run.names.many.kebab := by
    have hfile := h.files tgt.path (by simp [Layout.files, Layout.target_eq ht])
    rw [if_pos rfl] at hfile
    rwa [h₁]
  rw [wp_bind]
  refine wp_mono (Route.merge_again hregistered block _ _) (fun r w₂ h₂ => ?_) fun _ _ h => h
  rw [h₂.1, wp_pure]
  exact ⟨⟨rfl, rfl⟩, rfl, h₂.2.trans h₁⟩

/-- A finished artifact is skipped. -/
theorem attempt_again (hforce : run.force = false) (hl : Legible run w.tree c k)
    (h : Finished run w.tree c k) :
    wp (attempt run c k)
      (fun r w' => (r.category = c ∧ r.kind = k) ∧ r.status = .skipped ∧ w'.tree = w.tree)
      (fun _ _ => False) w := by
  have hartifact : wp (artifact run c k)
      (fun r w' => (r.category = c ∧ r.kind = k) ∧ r.status = .skipped ∧ w'.tree = w.tree)
      (fun _ _ => False) w := by
    cases k with
    | views => exact views_again hforce hl h
    | routes => exact routes_again hl h
    | _ => exact classFile_again hforce (by simp) (by simp) hl h
  unfold attempt
  rw [wp_tryCatch]
  exact wp_mono hartifact (fun _ _ h => h) fun _ _ h => h.elim

end Attempt

/-- Finished artifacts are skipped, one after the other, and the tree stays as it is. -/
theorem artifacts_again (hforce : run.force = false)
    (h : ∀ a ∈ o.planned, Legible run t a.1 a.2 ∧ Finished run t a.1 a.2) (report : Report)
    (hreport : report.results = []) (hw : w.tree = t) :
    wp (artifacts run o.planned report)
      (fun report' w' => w'.tree = t ∧ ∃ rs, report' = { report with results := rs } ∧
        rs.map (fun r => (r.category, r.kind, r.status)) = o.planned.map fun a => (a.1, a.2, .skipped))
      (fun _ _ => False) w := by
  have hstep : ∀ (rs : List Result) c k w, (c, k) ∈ o.planned →
      ((∀ r ∈ rs, r.status = .skipped) ∧ w.tree = t) →
      wp (attempt run c k) (fun r w' => (r.category = c ∧ r.kind = k) ∧
        (∀ x ∈ rs ++ [r], x.status = .skipped) ∧ w'.tree = t) (fun _ _ => False) w := by
    rintro rs c k w hm ⟨hskipped, rfl⟩
    obtain ⟨hl, hfinished⟩ := h (c, k) hm
    refine wp_mono (attempt_again hforce hl hfinished) (fun r w' hr => ⟨hr.1, ?_, hr.2.2⟩) fun _ _ h => h
    simpa [or_imp, forall_and, hr.2.1] using hskipped
  refine wp_mono (wp_artifacts hstep (nodup_labels o) report (by simp [hreport]) w
    ⟨by simp [hreport], hw⟩) ?_ fun _ _ h => h
  rintro report' w' ⟨rs, rfl, hrs, hskipped, ht⟩
  refine ⟨ht, rs, by simp [hreport], ?_⟩
  rw [← hrs, List.map_map]
  refine List.map_congr_left fun r hr => ?_
  rw [hskipped r (List.mem_append_right _ hr)]
  rfl

end Generator

end Scaffold
