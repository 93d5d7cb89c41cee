import Scaffold.Proofs.Run.Settled

/-!
# What a run comes to, from the tree that it starts in

The attempts of a run do not meet, so each comes to what it would come to alone (`Outcomes.done`): classes and
views to what the first tree says, routes to the fate of their merge where the run starts.
-/

namespace Scaffold

namespace Tree
variable {t t' : Tree} {p : Path} {e : Entry}

theorem Grows.find_of_same (h : t.Grows t') (hfind : t.find p = .ok e)
    (hsame : t'.entryAt (p.resolveFrom t.home) = t.entryAt (p.resolveFrom t.home)) : t'.find p = .ok e := by
  refine (sees_of_find hfind).grows h hsame e ?_
  rw [h.home, hsame]
  exact find_eq_resolve hfind

end Tree

namespace Generator
variable {run : Run} {c : Category} {k : Kind} {t₀ : Tree} {S : Location → Prop} {r : Result} {rs : List Result}
  {w₀ w w' : Workspace} {tgt : Target} {status : Status}

namespace Run

/-- What an attempt has come to, by the first tree of all, one before the attempt and one behind it. -/
structure Done (run : Run) (t₀ : Tree) (c : Category) (k : Kind) (t : Tree) (status : Status) (t' : Tree) :
    Prop where
  verdict : k ≠ .routes → status = t₀.verdict run.force (run.files c k)
  entries : k ≠ .routes → ∀ d ∈ run.drafts c k, t'.entryAt (d.1.resolveFrom t₀.home) =
    t₀.afterwards run.force (run.drafts c k) (d.1.resolveFrom t₀.home)
  registered : k = .routes → ∀ tgt, Layout.target run.config run.names run.version c .routes = .ok tgt →
    run.Registered c tgt t status t'

/-- An attempt has come to what it comes to, and no planned file of another artifact has changed. -/
structure Alone (run : Run) (t₀ : Tree) (S : Location → Prop) (c : Category) (k : Kind) (w : Workspace)
    (status : Status) (w' : Workspace) : Prop where
  under : Under run.renderer t₀ S w'
  done : run.Done t₀ c k w.tree status w'.tree
  others : ∀ l, S l → ¬ run.Spot c k t₀.home l → w'.tree.entryAt l = w.tree.entryAt l

theorem files_routes (ht : Layout.target run.config run.names run.version c .routes = .ok tgt) :
    run.files c .routes = [tgt.path] := by
  simp [files, Layout.files, Layout.target_eq ht]

theorem Settled.alone (h : run.Settled t₀ S c k w status w') (hk : k ≠ .routes) :
    run.Alone t₀ S c k w status w' where
  under := h.drafted.under
  done := ⟨fun _ => h.status, fun _ => h.drafted.entries, fun hroutes => absurd hroutes hk⟩
  others l hl hfree := h.drafted.others l hl fun d hd heq => hfree
    ⟨d.1, run.map_drafts c k ▸ List.mem_map_of_mem hd, heq⟩

theorem Routed.alone (h : run.Routed t₀ S c tgt w status w')
    (ht : Layout.target run.config run.names run.version c .routes = .ok tgt) :
    run.Alone t₀ S c .routes w status w' where
  under := h.under
  done := ⟨fun hk => absurd rfl hk, fun hk => absurd rfl hk, fun _ tgt' ht' => by
    obtain rfl : tgt = tgt' := Except.ok.inj (ht.symm.trans ht')
    exact h.registered⟩
  others l hl hfree := h.others l hl fun heq => hfree ⟨tgt.path, by simp [files_routes ht], heq.symm⟩

section Moved
variable {t₁ t t' : Tree}

/-- What has been done to files stays while nobody touches them. -/
theorem Done.later (h : run.Done t₀ c k t₁ status t) (hg : t.Grows t') (hhome : t₁.home = t₀.home ∧ t.home = t₀.home)
    (hsame : ∀ l, run.Spot c k t₀.home l → t'.entryAt l = t.entryAt l) : run.Done t₀ c k t₁ status t' where
  verdict := h.verdict
  entries hk d hd := by
    rw [hsame _ ⟨d.1, run.map_drafts c k ▸ List.mem_map_of_mem hd, rfl⟩]
    exact h.entries hk d hd
  registered hk tgt ht := by
    have hplace := hsame _ ⟨tgt.path, by rw [hk, files_routes ht]; exact List.mem_singleton_self _, rfl⟩
    obtain ⟨hstatus, hkept, hwritten⟩ := h.registered hk tgt ht
    refine ⟨hstatus, fun hnone => ?_, fun new hnew => hg.find_of_same (hwritten new hnew) (by rw [hhome.2, hplace])⟩
    rw [← hkept hnone, hhome.1, hplace]

/-- What routes come to, they would have come to earlier, while nobody had touched their file. -/
theorem Done.earlier (h : run.Done t₀ c k t status t') (hhome : t.home = t₁.home) (hsame : ∀ tgt,
    k = .routes → Layout.target run.config run.names run.version c .routes = .ok tgt →
      (routeCall run c tgt).fate t tgt.path = (routeCall run c tgt).fate t₁ tgt.path ∧
        t.entryAt (tgt.path.resolveFrom t₁.home) = t₁.entryAt (tgt.path.resolveFrom t₁.home)) :
    run.Done t₀ c k t₁ status t' where
  verdict := h.verdict
  entries := h.entries
  registered hk tgt ht := by
    obtain ⟨hfate, hentry⟩ := hsame tgt hk ht
    obtain ⟨hstatus, hkept, hwritten⟩ := h.registered hk tgt ht
    simp only [hfate, hhome, hentry, Edit.modeAt] at hstatus hkept hwritten
    exact ⟨hstatus, hkept, hwritten⟩

end Moved

end Run

theorem wp_artifact_alone (h : run.Steady t₀ S c k) (hu : Under run.renderer t₀ S w)
    (hsame : k ≠ .routes → ∀ p ∈ run.files c k,
      w.tree.entryAt (p.resolveFrom t₀.home) = t₀.entryAt (p.resolveFrom t₀.home)) :
    wp (artifact run c k) (fun r w' => run.Alone t₀ S c k w r.status w')
      (fun _ w' => run.Alone t₀ S c k w .failed w') w := by
  by_cases hk : k = .routes
  · subst hk
    obtain ⟨tgt, ht⟩ := Layout.target_ok h.kinds run.config run.names run.version
    exact wp_mono (wp_routes_routed h hu ht) (fun _ _ hrouted => hrouted.alone ht) fun _ _ hrouted => hrouted.alone ht
  · exact wp_mono (wp_own h hu (hsame hk) hk) (fun _ _ hsettled => hsettled.alone hk) fun _ _ hsettled =>
      hsettled.alone hk

theorem Outcome.alone (ho : Outcome run c k w r w') (h : run.Steady t₀ S c k) (hu : Under run.renderer t₀ S w)
    (hsame : k ≠ .routes → ∀ p ∈ run.files c k,
      w.tree.entryAt (p.resolveFrom t₀.home) = t₀.entryAt (p.resolveFrom t₀.home)) :
    run.Alone t₀ S c k w r.status w' := by
  have hwp := wp_artifact_alone h hu hsame
  cases ho with
  | returned returns => exact (wp_ok returns).1 hwp
  | failed log fails =>
    have halone := (wp_error fails).1 hwp
    exact ⟨Under.logFree _ log halone.under, halone.done, halone.others⟩

section Whole

/-- The artifacts of a run do not meet, and their files are as at first. -/
structure Run.Orderly (run : Run) (t₀ : Tree) (S : Location → Prop) (w : Workspace)
    (planned : List (Category × Kind)) : Prop where
  under : Under run.renderer t₀ S w
  steady : ∀ a ∈ planned, run.Steady t₀ S a.1 a.2
  own : ∀ a ∈ planned, a.2 ≠ .routes → ∀ p ∈ run.files a.1 a.2,
    w.tree.entryAt (p.resolveFrom t₀.home) = t₀.entryAt (p.resolveFrom t₀.home)
  routes : ∀ a ∈ planned, a.2 = .routes → ∀ p ∈ run.files a.1 a.2, Tree.Short p ∧ w.tree.Sees p
  disjoint : planned.Pairwise fun a b => ∀ l, run.Spot a.1 a.2 t₀.home l → ¬ run.Spot b.1 b.2 t₀.home l

theorem Run.Orderly.left {before behind : List (Category × Kind)} (h : run.Orderly t₀ S w (before ++ behind)) :
    run.Orderly t₀ S w before where
  under := h.under
  steady a ha := h.steady a (List.mem_append_left _ ha)
  own a ha := h.own a (List.mem_append_left _ ha)
  routes a ha := h.routes a (List.mem_append_left _ ha)
  disjoint := (List.pairwise_append.1 h.disjoint).1

/-- Each attempt of a run comes to what it would come to alone. -/
theorem Outcomes.done (h : Outcomes run w₀ rs w)
    (horderly : run.Orderly t₀ S w₀ (rs.map fun r => (r.category, r.kind))) :
    Under run.renderer t₀ S w ∧ (∀ r ∈ rs, run.Done t₀ r.category r.kind w₀.tree r.status w.tree) ∧
      ∀ l, S l → (∀ r ∈ rs, ¬ run.Spot r.category r.kind t₀.home l) → w.tree.entryAt l = w₀.tree.entryAt l := by
  induction h with
  | start => exact ⟨horderly.under, by simp, fun _ _ _ => rfl⟩
  | @next rs r w w' before outcome ih =>
    rw [List.map_append] at horderly
    obtain ⟨hunder, hdone, hothers⟩ := ih horderly.left
    have hmem : (r.category, r.kind) ∈ rs.map (fun r => (r.category, r.kind)) ++
        [r].map fun r => (r.category, r.kind) := by simp
    have hsteady := horderly.steady _ hmem
    have hnew : ∀ r' ∈ rs, ∀ l, run.Spot r'.category r'.kind t₀.home l → ¬ run.Spot r.category r.kind t₀.home l :=
      fun r' hr' => (List.pairwise_append.1 horderly.disjoint).2.2 _ (List.mem_map_of_mem hr') _
        (List.mem_singleton_self _)
    have hold : ∀ l, run.Spot r.category r.kind t₀.home l → w.tree.entryAt l = w₀.tree.entryAt l := by
      rintro l ⟨p, hp, rfl⟩
      exact hothers _ (hsteady.planned p hp) fun r' hr' hspot => hnew r' hr' _ hspot ⟨p, hp, rfl⟩
    have halone := outcome.alone hsteady hunder fun hk p hp => by
      rw [hold _ ⟨p, hp, rfl⟩]
      exact horderly.own _ hmem hk p hp
    have hhome : w₀.tree.home = t₀.home := horderly.under.built.frame.grows.home
    have hhome' : w.tree.home = t₀.home := hunder.built.frame.grows.home
    refine ⟨halone.under, fun r' hr' => ?_, fun l hl hfree => ?_⟩
    · rcases List.mem_append.1 hr' with hr' | hr'
      · refine (hdone r' hr').later outcome.stays.grows ⟨hhome, hhome'⟩ fun l hspot => ?_
        obtain ⟨p, hp, rfl⟩ := hspot
        have hearlier := horderly.steady (r'.category, r'.kind) (List.mem_append_left _
          (List.mem_map_of_mem (f := fun r : Result => (r.category, r.kind)) hr'))
        exact halone.others _ (hearlier.planned p hp) (hnew r' hr' _ ⟨p, hp, rfl⟩)
      · obtain rfl := List.mem_singleton.1 hr'
        refine halone.done.earlier (hhome'.trans hhome.symm) fun tgt hk ht => ?_
        have hfile : tgt.path ∈ run.files r'.category r'.kind := by simp [hk, Run.files_routes ht]
        have hentry := hold _ ⟨tgt.path, hfile, rfl⟩
        rw [← hhome] at hentry
        refine ⟨?_, hentry⟩
        obtain ⟨hshort, hsees⟩ := horderly.routes _ hmem hk tgt.path hfile
        have hgrows := before.frame_free.grows
        have htakes := fun t (hb : Built t₀ S t) => hb.takes_eq (hsteady.aims _ hfile) hsteady.apart
          (hsteady.planned _ hfile)
        exact Route.Call.fate_eq hgrows.home hentry hsees (hsees.grows hgrows hentry) hshort
          ((htakes _ hunder.built).trans (htakes _ horderly.under.built).symm)
    · rw [halone.others l hl (hfree r (by simp)), hothers l hl fun r' hr' => hfree r' (List.mem_append_left _ hr')]

end Whole

end Generator

end Scaffold
