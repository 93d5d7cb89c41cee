import Scaffold.Proofs.Run.Effect

/-!
# What a run comes to

An attempt returns a result, whatever its artifact comes to, unless that fails with a fault that spoils the
whole run (`wp_attempt`). The attempts of a run follow one another, each with a result in the report
(`Outcomes`), and `wp_generate_returned` says of a whole run what it returns and where it may stop.
-/

namespace Scaffold

namespace Generator
open Run (Effect Mishap)

variable {run : Run} {g : Generator} {entity : String} {o : Options} {c : Category} {k : Kind} {r : Result}
  {f : Fault} {w : Workspace}

/-- What an attempt that returns has come to: the artifact returned, or it failed with a fault that is now
its result. -/
inductive Outcome (run : Run) (c : Category) (k : Kind) (w : Workspace) : Result → Workspace → Prop where
  | returned {r : Result} {w' : Workspace} (returns : artifact run c k w = .ok r w') : Outcome run c k w r w'
  | failed {f : Fault} {w₁ : Workspace} (log : List LogLine) (fails : artifact run c k w = .error f w₁)
      (spoils : f.spoilsOneArtifact = true) :
      Outcome run c k w ⟨c, k, .failed, [], f.message⟩ { w₁ with log := log }

theorem Run.Effect.label {t t' : Tree} (h : Effect run c k t r t') : r.category = c ∧ r.kind = k := by
  cases h <;> exact ⟨rfl, rfl⟩

theorem Outcome.label {w' : Workspace} (h : Outcome run c k w r w') : r.category = c ∧ r.kind = k := by
  cases h with
  | returned returns => exact ((wp_ok returns).1 (artifact_effect run c k w)).label
  | failed => exact ⟨rfl, rfl⟩

theorem wp_attempt (run : Run) (c : Category) (k : Kind) (w : Workspace) :
    wp (attempt run c k) (Outcome run c k w)
      (fun f w' => artifact run c k w = .error f w' ∧ f.spoilsOneArtifact = false) w := by
  unfold attempt
  rw [wp_tryCatch]
  refine wp_iff.2 ⟨fun r w' hx => .returned hx, fun f w' hx => ?_⟩
  cases hf : f.spoilsOneArtifact with
  | false => exact (wp_throw _).2 ⟨hx, hf⟩
  | true =>
    simp only [↓reduceIte, wp_bind, wp_say, wp_pure]
    exact .failed _ hx hf

section Outcomes
variable {rs : List Result} {w₀ w' : Workspace}

/-- Results of artifacts, each of an attempt where the one before has left the workspace. -/
inductive Outcomes (run : Run) (w₀ : Workspace) : List Result → Workspace → Prop where
  | start : Outcomes run w₀ [] w₀
  | next {rs : List Result} {r : Result} {w w' : Workspace} (before : Outcomes run w₀ rs w)
      (outcome : Outcome run r.category r.kind w r w') : Outcomes run w₀ (rs ++ [r]) w'

theorem Outcome.stays (h : Outcome run c k w r w') : run.Stays c k w.tree w'.tree := by
  cases h with
  | returned returns =>
    have heffect := (wp_ok returns).1 (artifact_effect run c k w)
    generalize w'.tree = t' at heffect ⊢
    cases heffect with
    | created _ stays => exact stays
    | skipped => exact .refl ..
  | failed log fails => exact ((wp_error fails).1 (artifact_effect run c k w)).2.1

/-- Attempts change files of their artifacts only. -/
theorem Outcomes.frame {may : Location → Prop} (h : Outcomes run w₀ rs w)
    (hmay : ∀ r ∈ rs, ∀ l, run.Spot r.category r.kind w₀.tree.home l → may l) :
    Frame w₀.tree may may w.tree := by
  induction h with
  | start => exact .refl ..
  | @next rs r w₁ w₂ before outcome ih =>
    have hbefore := ih fun x hx => hmay x (List.mem_append_left _ hx)
    have hspot : ∀ l, run.Spot r.category r.kind w₁.tree.home l → may l :=
      hbefore.grows.home ▸ hmay r (by simp)
    exact hbefore.trans outcome.stays hspot hspot

theorem Outcomes.frame_free (h : Outcomes run w₀ rs w) :
    Frame w₀.tree (fun _ => True) (fun _ => True) w.tree :=
  h.frame fun _ _ _ _ => trivial

/-- A sequence of attempts has one result for each artifact, or ends with a fault that spoils the run. -/
theorem wp_artifacts_outcomes (run : Run) (o : Options) (report : Report) (hreport : report.results = [])
    (w : Workspace) :
    wp (artifacts run o.planned report)
      (fun report' w' => ∃ rs, report' = { report with results := rs } ∧
        rs.map (fun r => (r.category, r.kind)) = o.planned ∧ Outcomes run w rs w')
      (fun f _ => ∃ c k, (c, k) ∈ o.planned ∧ Mishap run w.tree c k f ∧ f.spoilsOneArtifact = false) w := by
  have hstep : ∀ (rs : List Result) c k (w₁ : Workspace), (c, k) ∈ o.planned → Outcomes run w rs w₁ →
      wp (attempt run c k) (fun r w₂ => (r.category = c ∧ r.kind = k) ∧ Outcomes run w (rs ++ [r]) w₂)
        (fun f _ => ∃ c k, (c, k) ∈ o.planned ∧ Mishap run w.tree c k f ∧ f.spoilsOneArtifact = false) w₁ := by
    intro rs c k w₁ hm hbefore
    refine wp_mono (wp_attempt run c k w₁) (fun r w₂ h => ?_) ?_
    · obtain ⟨hc, hk⟩ := h.label
      exact ⟨⟨hc, hk⟩, hbefore.next (by rw [hc, hk]; exact h)⟩
    · rintro f w₂ ⟨hfails, hf⟩
      -- attempts write only text, so what is no text now was none at the start
      have hmishap := ((wp_error hfails).1 (artifact_effect run c k w₁)).1
      exact ⟨c, k, hm, hmishap.back fun q hq => hbefore.frame_free.garbled hq, hf⟩
  refine wp_mono (wp_artifacts hstep (nodup_labels o) report (by simp [hreport]) w (hreport ▸ .start)) ?_
    fun _ _ h => h
  rintro report' w' ⟨rs, rfl, hrs, houtcomes⟩
  simp only [hreport, List.nil_append] at houtcomes ⊢
  exact ⟨rs, rfl, hrs, houtcomes⟩

end Outcomes

section Returned

/-- What a run that returns has come to. -/
inductive Returned (g : Generator) (entity : String) (o : Options) (w : Workspace) :
    Report → Workspace → Prop where
  | refused {review : Review} {report : Report} {w' : Workspace}
      (reviewed : Review.ofRequest w.tree (some entity) o g.config = .ok review)
      (errors : review.hasErrors = true) (unsuccessful : report.success = false) (results : report.results = []) (same : Same w w') :
      Returned g entity o w report w'
  | ran {review : Review} {names : Naming} {columns : List Column} {report : Report} {log : List LogLine}
      {w₁ w₂ w' : Workspace} (reviewed : Review.ofRequest w.tree (some entity) o g.config = .ok review)
      (accepted : review.hasErrors = false) (named : Naming.derive? (Text.stripped entity) = some names)
      (asked : Introspect.columns g.storage? g.config names { w with log := log } = .ok columns w₁)
      (planned : report.results.map (fun r => (r.category, r.kind)) = o.planned)
      (outcomes : Outcomes (g.runOf o names columns) w₁ report.results w₂) (same : Same w₂ w') :
      Returned g entity o w report w'

/-- Where a run may stop. -/
inductive Stopped (g : Generator) (entity : String) (o : Options) (w : Workspace) : Fault → Prop where
  | review {f : Fault} (fails : Review.ofRequest w.tree (some entity) o g.config = .error f) :
      Stopped g entity o w f
  | nameless (unnamed : Naming.derive? (Text.stripped entity) = none) :
      Stopped g entity o w (.noWords (Text.stripped entity))
  | columns {f : Fault} {names : Naming} {log : List LogLine} {w₁ : Workspace}
      (fails : Introspect.columns g.storage? g.config names { w with log := log } = .error f w₁) :
      Stopped g entity o w f
  | artifact {f : Fault} {names : Naming} {columns : List Column} {log : List LogLine} {w₁ : Workspace}
      {c : Category} {k : Kind} (named : Naming.derive? (Text.stripped entity) = some names)
      (asked : Introspect.columns g.storage? g.config names { w with log := log } = .ok columns w₁)
      (planned : (c, k) ∈ o.planned) (mishap : Mishap (g.runOf o names columns) w₁.tree c k f)
      (spoils : f.spoilsOneArtifact = false) : Stopped g entity o w f

theorem Returned.of_log {report report' : Report} {w' : Workspace} {log : List LogLine}
    (h : Returned g entity o w report w') (hresults : report'.results = report.results)
    (hsuccess : report'.success = report.success) : Returned g entity o w report' { w' with log := log } := by
  cases h with
  | refused reviewed errors unsuccessful results same =>
    exact .refused reviewed errors (hsuccess.trans unsuccessful) (hresults.trans results) same
  | ran reviewed accepted named asked planned outcomes same =>
    exact .ran reviewed accepted named asked (hresults ▸ planned) (hresults ▸ outcomes) same

theorem wp_generate_returned (g : Generator) (entity : String) (o : Options) (elapsed : Float) (w : Workspace) :
    wp (g.generate entity o elapsed) (Returned g entity o w) (fun f _ => Stopped g entity o w f) w := by
  refine wp_generate (fun _ _ _ h => h.of_log rfl rfl) (fun _ _ _ h => h) (wp_checked ?_)
  cases hreview : Review.ofRequest w.tree (some entity) o g.config with
  | error f => exact .review hreview
  | ok review =>
    intro log
    split
    · next herrors =>
      have hfailed : (reportOf entity review).success = false := not_success_reportOf herrors
      exact .refused hreview herrors hfailed rfl ⟨rfl, rfl⟩
    next haccepted =>
    cases hn : Naming.derive? (Text.stripped entity) with
    | none =>
      rw [accepted_of_none hn, wp_throw]
      exact .nameless hn
    | some names =>
      refine wp_accepted hn _ fun log => wp_iff.2
        ⟨fun columns w₁ hasked => ?_, fun f w₁ hfails => .columns hfails⟩
      refine wp_mono (wp_artifacts_outcomes _ o _ rfl w₁) ?_ ?_
      · rintro report w₂ ⟨rs, rfl, hplanned, houtcomes⟩
        exact .ran hreview (by simpa using haccepted) hn hasked hplanned houtcomes ⟨rfl, rfl⟩
      · rintro f w₂ ⟨c, k, hm, hmishap, hf⟩
        exact .artifact hn hasked hm hmishap hf

end Returned

end Generator

end Scaffold
