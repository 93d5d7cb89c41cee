import Scaffold.Proofs.Run.Alike
import Scaffold.Proofs.Run.Frame
import Scaffold.Proofs.Run.Request

/-!
# A run in two halves

Where the route files and the template ids are the usual ones, to generate for both categories at once comes to the
same as to generate for the API first and then, with a new generator, for the web without the common artifacts
(`generate_split`). The attempts of the two halves are those of the whole in order (`planned_both`,
`Outcomes.cut`), and none of them depends on what the generator remembers (`Outcomes.alike`).
-/

namespace Scaffold

namespace Options
variable {o : Options}

/-- Both categories in one run. -/
def both (o : Options) : Options :=
  { o with api := true, web := true }

/-- The artifacts of the API, and the common ones if they are asked for. -/
def apiHalf (o : Options) : Options :=
  { o with api := true, web := false }

/-- The artifacts of the web category alone. -/
def webHalf (o : Options) : Options :=
  { o with api := false, web := true, skipCommon := true }

theorem planned_both (o : Options) : o.both.planned = o.apiHalf.planned ++ o.webHalf.planned := by
  have hcategories : Category.all.filter o.both.wants =
      Category.all.filter o.apiHalf.wants ++ Category.all.filter o.webHalf.wants := by
    simp only [Category.all, List.filter, wants, both, apiHalf, webHalf]
    cases o.skipCommon <;> rfl
  rw [planned, hcategories, List.flatMap_append]
  rfl

theorem planned_ne_nil (h : o.api = true ∨ o.web = true) : o.planned ≠ [] := by
  obtain ⟨c, hc, hkind⟩ : ∃ c ∈ Category.all.filter o.wants, Kind.controller ∈ c.kinds := by
    rcases h with h | h
    · exact ⟨.api, List.mem_filter.2 ⟨by decide, h⟩, by decide⟩
    · exact ⟨.web, List.mem_filter.2 ⟨by decide, h⟩, by decide⟩
  have hmem : (c, Kind.controller) ∈ o.planned :=
    List.mem_flatMap.2 ⟨c, hc, List.mem_map_of_mem (List.mem_filter.2 ⟨hkind, rfl⟩)⟩
  exact List.ne_nil_of_mem hmem

/-- The options ask for something, and differ only in which artifacts. -/
structure Kin (o o' : Options) : Prop where
  force : o'.force = o.force
  version : o'.apiVersion = o.apiVersion
  planned : o.planned ≠ [] ∧ o'.planned ≠ []

theorem kin_apiHalf (o : Options) : o.both.Kin o.apiHalf where
  force := rfl
  version := rfl
  planned := ⟨planned_ne_nil (.inl rfl), planned_ne_nil (.inl rfl)⟩

theorem kin_webHalf (o : Options) : o.both.Kin o.webHalf where
  force := rfl
  version := rfl
  planned := ⟨planned_ne_nil (.inl rfl), planned_ne_nil (.inr rfl)⟩

end Options

namespace Review
variable {t t' : Tree} {entity : Option String} {o o' : Options} {config : Config} {r r' : Review}

theorem hasErrors_append_eq (r r' : Review) : hasErrors (r ++ r') = (r.hasErrors || r'.hasErrors) :=
  List.any_append

theorem hasErrors_warning (code message : String) (context : List (String × String)) :
    (warning code message context).hasErrors = false := rfl

theorem hasErrors_ofOptions (h : o.planned ≠ []) : (ofOptions o).hasErrors = (ofVersion o.apiVersion).hasErrors := by
  rw [ofOptions, List.isEmpty_eq_false_iff.2 h, hasErrors_append_eq, hasErrors_append_eq, if_neg Bool.false_ne_true]
  split
  · rw [hasErrors_warning]
    rfl
  · rfl

/-- Neither the file system nor the artifacts that are asked for decide whether a request is refused. -/
theorem hasErrors_ofRequest (h : ofRequest t entity o config = .ok r) (hne : o.planned ≠ []) : r.hasErrors =
    ((ofEntity entity).hasErrors || (ofVersion o.apiVersion).hasErrors || (ofSettings config).hasErrors) := by
  obtain ⟨there, -, rfl⟩ := ofRequest_eq_ok.1 h
  rw [hasErrors_append_eq, hasErrors_append_eq, hasErrors_append_eq, hasErrors_ofOptions hne]
  split
  · exact congrArg _ (Bool.or_false _)
  · rw [hasErrors_warning, Bool.or_false]

theorem hasErrors_of_kin (h : ofRequest t entity o config = .ok r) (h' : ofRequest t' entity o' config = .ok r')
    (hkin : o.Kin o') : r'.hasErrors = r.hasErrors := by
  rw [hasErrors_ofRequest h hkin.planned.1, hasErrors_ofRequest h' hkin.planned.2, hkin.version]

end Review

namespace Generator
variable {run : Run} {g : Generator} {entity : String} {o o' : Options} {c : Category} {k : Kind} {r s : Result}
  {rs ss : List Result} {w w₀ w' v v₀ v' : Workspace} {backend : Option Backend}

section Outcomes

theorem Outcomes.eq_of_nil (h : Outcomes run w₀ [] w') : w' = w₀ := by
  generalize hl : ([] : List Result) = l at h
  cases h with
  | start => rfl
  | next => simp at hl

theorem Outcomes.last (h : Outcomes run w₀ (rs ++ [r]) w') :
    ∃ w, Outcomes run w₀ rs w ∧ Outcome run r.category r.kind w r w' := by
  generalize hl : rs ++ [r] = l at h
  cases h with
  | start => simp at hl
  | next before outcome =>
    obtain ⟨rfl, heq⟩ := List.append_inj' hl rfl
    cases heq
    exact ⟨_, before, outcome⟩

theorem Outcomes.cut (h : Outcomes run w₀ (rs ++ ss) w') : ∃ w, Outcomes run w₀ rs w ∧ Outcomes run w ss w' := by
  induction ss using List.reverseRecOn generalizing w' with
  | nil => exact ⟨w', by simpa using h, .start⟩
  | append_singleton ss s ih =>
    rw [← List.append_assoc] at h
    obtain ⟨w₁, hbefore, hlast⟩ := h.last
    obtain ⟨w, hrs, hss⟩ := ih hbefore
    exact ⟨w, hrs, hss.next hlast⟩

variable (halike : ∀ c k, Alike (artifact run c k))
include halike

theorem Outcome.alike (h : Outcome run c k w r w') (h' : Outcome run c k v s v') (hagree : Agree w v) :
    s = r ∧ Agree w' v' := by
  have hends := (halike c k).tally w v hagree
  cases h with
  | returned returns =>
    rw [returns] at hends
    cases h' with
    | returned returns' =>
      rw [returns'] at hends
      cases hends with
      | ok agree => exact ⟨rfl, agree⟩
    | failed log fails => rw [fails] at hends; cases hends
  | failed log fails =>
    rw [fails] at hends
    cases h' with
    | returned returns' => rw [returns'] at hends; cases hends
    | failed log' fails' =>
      rw [fails'] at hends
      cases hends with
      | error agree => exact ⟨rfl, agree.of_same ⟨rfl, rfl⟩ ⟨rfl, rfl⟩⟩

/-- The same attempts come to the same results and files, whatever is remembered. -/
theorem Outcomes.alike (h : Outcomes run w₀ rs w') (h' : Outcomes run v₀ ss v')
    (hlabels : ss.map (fun r => (r.category, r.kind)) = rs.map (fun r => (r.category, r.kind)))
    (hagree : Agree w₀ v₀) : ss = rs ∧ Agree w' v' := by
  induction h generalizing ss v' with
  | start =>
    obtain rfl : ss = [] := by simpa using hlabels
    rw [h'.eq_of_nil]
    exact ⟨rfl, hagree⟩
  | @next rs r w w' before outcome ih =>
    obtain rfl | ⟨ss, s, rfl⟩ := List.eq_nil_or_concat' ss
    · simp at hlabels
    simp only [List.map_append, List.map_cons, List.map_nil] at hlabels
    obtain ⟨hrest, hlast⟩ := List.append_inj' hlabels rfl
    obtain ⟨v, hbefore, houtcome⟩ := h'.last
    obtain ⟨rfl, hagree⟩ := ih hbefore hrest
    simp only [List.cons.injEq, Prod.mk.injEq, and_true] at hlast
    rw [hlast.1, hlast.2] at houtcome
    obtain ⟨rfl, hagree⟩ := outcome.alike halike houtcome hagree
    exact ⟨rfl, hagree⟩

end Outcomes

section Halves
variable {review : Review} {names : Naming} {columns : List Column} {report report₁ report₂ : Report}
  {t t' t₁ t₂ : Tree}

theorem Returned.results_of_errors (h : Returned g entity o' w report w')
    (hreview : Review.ofRequest t (some entity) o g.config = .ok review) (herrors : review.hasErrors = true)
    (hkin : o.Kin o') : report.results = [] ∧ w'.tree = w.tree := by
  cases h with
  | refused reviewed errors unsuccessful results same => exact ⟨results, same.1⟩
  | ran reviewed accepted named asked planned outcomes same =>
    rw [Review.hasErrors_of_kin hreview reviewed hkin, herrors] at accepted
    cases accepted

/-- A request that is accepted once comes to attempts with other options of its kind too, with the same columns. -/
theorem Returned.attempts_of_accepted (h : Returned g entity o' w report w')
    (hstorage : g.storage? = backend.map .answers)
    (hreview : Review.ofRequest t (some entity) o g.config = .ok review) (haccepted : review.hasErrors = false)
    (hkin : o.Kin o') (hn : Naming.derive? (Text.stripped entity) = some names)
    (hcolumns : Introspect.columns g.storage? g.config names v = .ok columns v') :
    report.results.map (fun r => (r.category, r.kind)) = o'.planned ∧
      ∃ w₁ w₂, Same w w₁ ∧ Outcomes (g.runOf o names columns) w₁ report.results w₂ ∧ Same w₂ w' := by
  cases h with
  | refused reviewed errors unsuccessful results same =>
    rw [Review.hasErrors_of_kin hreview reviewed hkin, haccepted] at errors
    cases errors
  | @ran _ names' columns' _ _ w₁ w₂ _ reviewed accepted named asked planned outcomes same =>
    rw [hn] at named
    cases named
    rw [hstorage] at hcolumns asked
    obtain ⟨-, hagain⟩ := (Introspect.columns_blind ..).again hcolumns
    obtain ⟨w₁', hcolumns', hsame⟩ := hagain { w with log := _ }
    rw [hcolumns'] at asked
    cases asked
    have hrun : g.runOf o' names columns = g.runOf o names columns := by
      unfold runOf
      rw [hkin.force, hkin.version]
    exact ⟨planned, w₁, w₂, hsame, hrun ▸ outcomes, same⟩

theorem truthful_of_nil (h : w.cache = []) : Truthful w := fun q text hq => by
  rw [h] at hq
  cases hq

/-- A run of a new generator on a tree that returns. -/
def RunsAfresh (g : Generator) (entity : String) (o : Options) (t : Tree) (report : Report) (t' : Tree) : Prop :=
  ∃ elapsed w w', w.tree = t ∧ w.cache = [] ∧ g.generate entity o elapsed w = .ok report w' ∧ w'.tree = t'

/-- To generate for both categories in one run comes to the same files and results as to generate for the API first
and then, with a new generator, for the web without the common artifacts. -/
theorem generate_split (hpaths : g.config.paths = {}) (hstubs : g.config.stubs = {})
    (hstorage : g.storage? = backend.map .answers) (h : g.RunsAfresh entity o.both t report t')
    (h₁ : g.RunsAfresh entity o.apiHalf t report₁ t₁) (h₂ : g.RunsAfresh entity o.webHalf t₁ report₂ t₂) :
    t' = t₂ ∧ report.results = report₁.results ++ report₂.results := by
  obtain ⟨elapsed, w, w', rfl, hw, hgenerate, rfl⟩ := h
  obtain ⟨elapsed₁, v, v', hv, hcache, hgenerate₁, rfl⟩ := h₁
  obtain ⟨elapsed₂, u, u', hu, hcache', hgenerate₂, rfl⟩ := h₂
  have hreturned := (wp_ok hgenerate).1 (wp_generate_returned g entity o.both elapsed w)
  have hreturned₁ := (wp_ok hgenerate₁).1 (wp_generate_returned g entity o.apiHalf elapsed₁ v)
  have hreturned₂ := (wp_ok hgenerate₂).1 (wp_generate_returned g entity o.webHalf elapsed₂ u)
  cases hreturned with
  | refused reviewed errors unsuccessful results same =>
    obtain ⟨hnone, htree⟩ := hreturned₁.results_of_errors reviewed errors o.kin_apiHalf
    obtain ⟨hnone', htree'⟩ := hreturned₂.results_of_errors reviewed errors o.kin_webHalf
    exact ⟨by rw [same.1, htree', hu, htree, hv], by rw [results, hnone, hnone']; rfl⟩
  | @ran _ names columns _ _ w₁ w₂ _ reviewed accepted named asked planned outcomes same =>
    obtain ⟨hplanned₁, v₁, v₂, hsame₁, houtcomes₁, hend₁⟩ :=
      hreturned₁.attempts_of_accepted hstorage reviewed accepted o.kin_apiHalf named asked
    obtain ⟨hplanned₂, u₁, u₂, hsame₂, houtcomes₂, hend₂⟩ :=
      hreturned₂.attempts_of_accepted hstorage reviewed accepted o.kin_webHalf named asked
    rw [hstorage] at asked
    obtain ⟨hsame, -⟩ := (Introspect.columns_blind ..).again asked
    have halike : ∀ c k, Alike (artifact (g.runOf o.both names columns) c k) := artifact_alike hpaths hstubs
    rw [o.planned_both] at planned
    obtain ⟨rs, ss, hresults, hrs, hss⟩ := List.map_eq_append_iff.1 planned
    rw [hresults] at outcomes ⊢
    obtain ⟨m, hfirst, hsecond⟩ := outcomes.cut
    -- the first half starts where the whole run does, the second where the first has ended
    have hstart : Agree w₁ v₁ := {
      tree := by rw [hsame₁.1, hsame.1]; exact hv
      left := truthful_of_nil (hsame.2.trans hw)
      right := truthful_of_nil (hsame₁.2.trans hcache) }
    obtain ⟨hreport₁, hmid⟩ := hfirst.alike halike houtcomes₁ (hplanned₁.trans hrs.symm) hstart
    have hrestart : Agree m u₁ := {
      tree := by rw [hsame₂.1, hu, hend₁.1, hmid.tree]
      left := hmid.left
      right := truthful_of_nil (hsame₂.2.trans hcache') }
    obtain ⟨hreport₂, hfinal⟩ := hsecond.alike halike houtcomes₂ (hplanned₂.trans hss.symm) hrestart
    exact ⟨by rw [same.1, hend₂.1, hfinal.tree], by rw [hreport₁, hreport₂]⟩

end Halves

section Project

/-- The project, with a template for the controller of the API too. -/
def halvesTree : Tree :=
  { projectTree with
    entries := projectTree.entries ++
      [(["stubs", "Api"], .directory), (["stubs", "Api", "controller.api.stub"], .file 0o644 "".toUTF8)] }

theorem runsAfresh_of_tested {t : Tree} (test : Report → Tree → Bool)
    (h : tested g entity o (Workspace.start t) (fun report w' => test report w'.tree) = true) :
    ∃ report t', g.RunsAfresh entity o t report t' ∧ test report t' = true := by
  obtain ⟨report, w', hgenerate, htest⟩ := tested_eq_true h
  exact ⟨report, w'.tree, ⟨0, Workspace.start t, w', rfl, rfl, hgenerate, rfl⟩, htest⟩

/-- Classes of both categories: some are created, some lack a template, and a controller stands already. -/
theorem generate_split_project :
    let g := projectGenerator []
    ∃ report report₁ report₂ t' t₁ t₂,
      g.RunsAfresh "Invoice" classesOnly.both halvesTree report t' ∧
        g.RunsAfresh "Invoice" classesOnly.apiHalf halvesTree report₁ t₁ ∧
        g.RunsAfresh "Invoice" classesOnly.webHalf t₁ report₂ t₂ ∧
        report.results.map (·.status) =
          [.created, .failed, .failed, .failed, .failed, .skipped, .created, .created] ∧
        t' = t₂ ∧ report.results = report₁.results ++ report₂.results := by
  intro g
  have hwhole : tested g "Invoice" classesOnly.both (Workspace.start halvesTree) (fun report _ =>
      report.results.map (·.status) ==
        [.created, .failed, .failed, .failed, .failed, .skipped, .created, .created]) = true := by
    decide +kernel
  have hhalves : tested g "Invoice" classesOnly.apiHalf (Workspace.start halvesTree) (fun _ w' =>
      tested g "Invoice" classesOnly.webHalf (Workspace.start w'.tree) fun _ _ => true) = true := by
    decide +kernel
  obtain ⟨report, t', h, hstatuses⟩ := runsAfresh_of_tested (fun report _ => report.results.map (·.status) ==
    [.created, .failed, .failed, .failed, .failed, .skipped, .created, .created]) hwhole
  obtain ⟨report₁, t₁, h₁, hnext⟩ := runsAfresh_of_tested (fun _ t₁ =>
    tested g "Invoice" classesOnly.webHalf (Workspace.start t₁) fun _ _ => true) hhalves
  obtain ⟨report₂, t₂, h₂, -⟩ := runsAfresh_of_tested (fun _ _ => true) hnext
  have hstorage : g.storage? = (none : Option Backend).map .answers := rfl
  exact ⟨report, report₁, report₂, t', t₁, t₂, h, h₁, h₂, eq_of_beq hstatuses,
    generate_split rfl rfl hstorage h h₁ h₂⟩

end Project

end Generator

end Scaffold
