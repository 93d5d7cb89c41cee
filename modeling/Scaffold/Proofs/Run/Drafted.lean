import Scaffold.Proofs.Run.Packaged

/-!
# Writing several planned files

While planned files are written, each write comes to the fate that the first tree tells (`Under.wp_write`), and
so does a sequence of writes up to the first that fails (`Under.wp_mapM`). No other planned file has another entry
then.
-/

namespace Scaffold

variable {r : Renderer} {t₀ t t' : Tree} {S : Location → Prop} {w w' : Workspace} {p : Path} {l : Location}
  {dirs : List String} {name text : String} {force : Bool}

namespace Tree

/-- What stands at a path after a text was written to it. -/
def left (t : Tree) (force : Bool) (p : Path) (text : String) : Option Entry :=
  if t.fate force p = .created then some (.file (Edit.modeAt t (p.resolveFrom t.home)) text.toUTF8)
  else t.entryAt (p.resolveFrom t.home)

/-- What stands at a location after texts were written in order, until one failed. -/
def afterwards (t : Tree) (force : Bool) : List (Path × String) → Location → Option Entry
  | [], l => t.entryAt l
  | (p, text) :: drafts, l =>
    if t.fate force p = .failed then t.entryAt l
    else if p.resolveFrom t.home = l then t.left force p text
    else t.afterwards force drafts l

/-- What the writing of several files comes to. -/
def verdict (t : Tree) (force : Bool) (ps : List Path) : Status :=
  if ∃ p ∈ ps, t.fate force p = .failed then .failed
  else if ∃ p ∈ ps, t.fate force p = .created then .created
  else .skipped

theorem verdict_singleton (t : Tree) (force : Bool) (p : Path) : t.verdict force [p] = t.fate force p := by
  unfold verdict
  cases h : t.fate force p <;> simp [h]

theorem verdict_of_failed {ps : List Path} (hp : p ∈ ps) (h : t.fate force p = .failed) :
    t.verdict force ps = .failed := by
  rw [verdict, if_pos ⟨p, hp, h⟩]

/-- At the planned locations but `l` nothing has changed. -/
def SameBut (S : Location → Prop) (l : Location) (t t' : Tree) : Prop :=
  ∀ k, S k → k ≠ l → t'.entryAt k = t.entryAt k

/-- The directories above a planned file are no planned files. -/
theorem Paves.entryAt_planned (h : t.Paves l dirs t') (hapart : Apart S) (hS : S (l ++ (dirs ++ [name]))) {k : Location}
    (hk : S k) : t'.entryAt k = t.entryAt k := by
  refine h.entryAt_eq fun ps hps heq => ?_
  have hlead : k <+: l ++ (dirs ++ [name]) := by
    rw [heq]
    exact (List.prefix_append_right_inj l).2 (hps.trans (List.prefix_append ..))
  have hsame := hapart.files k _ hk hS hlead
  exact ne_append_of_prefix hps (by simp) (hsame.symm.trans heq)

end Tree

/-- What a planned file is left as, and nothing else that is planned. -/
structure Under.Wrote (r : Renderer) (t₀ : Tree) (S : Location → Prop) (force : Bool) (p : Path) (text : String)
    (w w' : Workspace) : Prop where
  under : Under r t₀ S w'
  entry : w'.tree.entryAt (p.resolveFrom t₀.home) = t₀.left force p text
  others : Tree.SameBut S (p.resolveFrom t₀.home) w.tree w'.tree

theorem Under.Wrote.of_tree {w₁ : Workspace} (h : Under.Wrote r t₀ S force p text w₁ w') (htree : w₁.tree = w.tree) :
    Under.Wrote r t₀ S force p text w w' :=
  ⟨h.under, h.entry, htree ▸ h.others⟩

/-- A write to a planned file that nobody has touched comes to the fate that the first tree tells. -/
theorem Under.wp_write (h : Under r t₀ S w) (haims : t₀.Aims p) (hapart : Apart S) (hS : S (p.resolveFrom t₀.home))
    (hsame : w.tree.entryAt (p.resolveFrom t₀.home) = t₀.entryAt (p.resolveFrom t₀.home)) (text : String)
    (force : Bool) :
    wp (Writer.write p text force)
      (fun written w' => Under.Wrote r t₀ S force p text w w' ∧
        (written.record = none ∧ t₀.fate force p = .skipped ∨ written.record ≠ none ∧ t₀.fate force p = .created))
      (fun _ w' => Under.Wrote r t₀ S force p text w w' ∧ t₀.fate force p = .failed) w := by
  have hfate := h.built.fate_eq haims hapart hS hsame force
  have hhome : w.tree.home = t₀.home := h.built.frame.grows.home
  obtain ⟨l, dirs, name, henters₀, hname, -⟩ := haims
  have henters := henters₀.grows h.built.frame.grows
  have hplace : p.resolveFrom t₀.home = l ++ (dirs ++ [name]) := henters₀.resolve
  rw [hplace] at hS hsame
  have hpaved : ∀ t₁, w.tree.Paves l dirs t₁ → ∀ k, S k → t₁.entryAt k = w.tree.entryAt k :=
    fun t₁ hp k hk => hp.entryAt_planned hapart hS hk
  refine wp_mono (Writer.wp_write_fate henters hname text force) ?_ ?_
  · rintro written w' ⟨hcache, ⟨hnone, hskipped, htree⟩ | ⟨hsome, hcreated, hreplaced, t₁, hpaves, hrest⟩⟩
    · rw [hfate] at hskipped
      refine ⟨⟨⟨htree ▸ h.built, hcache ▸ h.cache⟩, ?_, fun k _ _ => by rw [htree]⟩, .inl ⟨hnone, hskipped⟩⟩
      rw [Tree.left, if_neg (by simp [hskipped]), hplace, htree]
      exact hsame
    · rw [hfate] at hcreated
      refine ⟨⟨⟨h.built.of_replaced henters hS hreplaced hpaves hrest, hcache ▸ h.cache⟩, ?_, fun k hk hne => ?_⟩,
        .inr ⟨hsome, hcreated⟩⟩
      · have hentry := Tree.find_eq_resolve hreplaced.find
        rw [hreplaced.home, hhome, hplace] at hentry
        rw [Tree.left, if_pos hcreated, hplace, hentry, Edit.modeAt, Edit.modeAt, hsame]
      · rw [hplace] at hne
        rw [hrest k hne, hpaved t₁ hpaves k hk]
  · rintro f w' ⟨hcache, hfailed, hpaves⟩
    rw [hfate] at hfailed
    refine ⟨⟨⟨h.built.of_paves hS hpaves, hcache ▸ h.cache⟩, ?_, fun k hk _ => hpaved _ hpaves k hk⟩, hfailed⟩
    rw [Tree.left, if_neg (by simp [hfailed]), hplace, hpaved _ hpaves _ hS]
    exact hsame

section Drafts
variable {α : Type} {f : α → Action Written} {draft : α → Path × String} {drafts : List (Path × String)} {as : List α}

/-- What several planned files are left as, and nothing else that is planned. -/
structure Under.Drafted (r : Renderer) (t₀ : Tree) (S : Location → Prop) (force : Bool)
    (drafts : List (Path × String)) (w w' : Workspace) : Prop where
  under : Under r t₀ S w'
  entries : ∀ d ∈ drafts, w'.tree.entryAt (d.1.resolveFrom t₀.home) =
    t₀.afterwards force drafts (d.1.resolveFrom t₀.home)
  others : ∀ k, S k → (∀ d ∈ drafts, d.1.resolveFrom t₀.home ≠ k) → w'.tree.entryAt k = w.tree.entryAt k

/-- A step leaves a draft at its path or fails there. -/
def Under.Step (r : Renderer) (t₀ : Tree) (S : Location → Prop) (force : Bool) (f : Action Written)
    (d : Path × String) : Prop :=
  ∀ w, Under r t₀ S w → w.tree.entryAt (d.1.resolveFrom t₀.home) = t₀.entryAt (d.1.resolveFrom t₀.home) →
    wp f
      (fun written w' => Under.Wrote r t₀ S force d.1 d.2 w w' ∧
        (written.record = none ∧ t₀.fate force d.1 = .skipped ∨ written.record ≠ none ∧ t₀.fate force d.1 = .created))
      (fun _ w' => Under.Wrote r t₀ S force d.1 d.2 w w' ∧ t₀.fate force d.1 = .failed) w

theorem Under.Drafted.nil (h : Under r t₀ S w) : Under.Drafted r t₀ S force [] w w :=
  ⟨h, by simp, fun _ _ _ => rfl⟩

theorem Under.Drafted.of_failed {d : Path × String} (h : Under.Wrote r t₀ S force d.1 d.2 w w')
    (hfailed : t₀.fate force d.1 = .failed) (hS : ∀ d' ∈ d :: drafts, S (d'.1.resolveFrom t₀.home))
    (hsame : ∀ d' ∈ d :: drafts,
      w.tree.entryAt (d'.1.resolveFrom t₀.home) = t₀.entryAt (d'.1.resolveFrom t₀.home)) :
    Under.Drafted r t₀ S force (d :: drafts) w w' where
  under := h.under
  entries d' hd' := by
    rw [Tree.afterwards, if_pos hfailed]
    by_cases hplace : d'.1.resolveFrom t₀.home = d.1.resolveFrom t₀.home
    · rw [hplace, h.entry, Tree.left, if_neg (by simp [hfailed])]
    · rw [h.others _ (hS d' hd') hplace, hsame d' hd']
  others k hk hnone := h.others k hk fun heq => hnone d (List.mem_cons_self ..) heq.symm

theorem Under.Drafted.cons {d : Path × String} {w₁ : Workspace} (h : Under.Wrote r t₀ S force d.1 d.2 w w₁)
    (hrest : Under.Drafted r t₀ S force drafts w₁ w') (hfate : t₀.fate force d.1 ≠ .failed)
    (hS : S (d.1.resolveFrom t₀.home)) (hnew : ∀ d' ∈ drafts, d'.1.resolveFrom t₀.home ≠ d.1.resolveFrom t₀.home) :
    Under.Drafted r t₀ S force (d :: drafts) w w' where
  under := hrest.under
  entries d' hd' := by
    rw [Tree.afterwards, if_neg hfate]
    rcases List.mem_cons.1 hd' with rfl | hd'
    · rw [if_pos rfl, hrest.others _ hS hnew, h.entry]
    · rw [if_neg (hnew d' hd').symm, hrest.entries d' hd']
  others k hk hnone := by
    obtain ⟨hd, hdrafts⟩ := List.forall_mem_cons.1 hnone
    rw [hrest.others k hk hdrafts, h.others k hk hd.symm]

/-- Steps one after the other leave all drafts, or those before the first that fails. -/
theorem Under.wp_mapM (hstep : ∀ a ∈ as, Under.Step r t₀ S force (f a) (draft a))
    (hnodup : (as.map fun a => (draft a).1.resolveFrom t₀.home).Nodup)
    (hS : ∀ d ∈ as.map draft, S (d.1.resolveFrom t₀.home)) (h : Under r t₀ S w)
    (hsame : ∀ d ∈ as.map draft,
      w.tree.entryAt (d.1.resolveFrom t₀.home) = t₀.entryAt (d.1.resolveFrom t₀.home)) :
    wp (as.mapM f)
      (fun written w' => Under.Drafted r t₀ S force (as.map draft) w w' ∧
        (∀ a ∈ as, t₀.fate force (draft a).1 ≠ .failed) ∧
          ((∃ x ∈ written, x.record ≠ none) ↔ ∃ a ∈ as, t₀.fate force (draft a).1 = .created))
      (fun _ w' => Under.Drafted r t₀ S force (as.map draft) w w' ∧ ∃ a ∈ as, t₀.fate force (draft a).1 = .failed)
      w := by
  induction as generalizing w with
  | nil =>
    rw [List.mapM_nil, wp_pure]
    exact ⟨.nil h, by simp, by simp⟩
  | cons a as ih =>
    obtain ⟨hnew, hnodup⟩ := List.nodup_cons.1 hnodup
    have hnew : ∀ d ∈ as.map draft, d.1.resolveFrom t₀.home ≠ (draft a).1.resolveFrom t₀.home := by
      rintro d hd heq
      obtain ⟨b, hb, rfl⟩ := List.mem_map.1 hd
      exact hnew (List.mem_map.2 ⟨b, hb, heq⟩)
    rw [List.map_cons] at hS hsame ⊢
    rw [List.mapM_cons, wp_bind]
    refine wp_mono (hstep a (List.mem_cons_self ..) w h (hsame _ (List.mem_cons_self ..))) ?_ ?_
    · rintro x w₁ ⟨hwrote, hx⟩
      have hfate : t₀.fate force (draft a).1 ≠ .failed := by
        rcases hx with ⟨-, hx⟩ | ⟨-, hx⟩ <;> simp [hx]
      have hhead := hS _ (List.mem_cons_self ..)
      have hS := fun d hd => hS d (List.mem_cons_of_mem _ hd)
      have hsame₁ : ∀ d ∈ as.map draft,
          w₁.tree.entryAt (d.1.resolveFrom t₀.home) = t₀.entryAt (d.1.resolveFrom t₀.home) := fun d hd => by
        rw [hwrote.others _ (hS d hd) (hnew d hd), hsame d (List.mem_cons_of_mem _ hd)]
      rw [wp_bind]
      refine wp_mono (ih (fun b hb => hstep b (List.mem_cons_of_mem _ hb)) hnodup hS hwrote.under hsame₁) ?_ ?_
      · rintro xs w₂ ⟨hdrafted, hfates, hcreated⟩
        rw [wp_pure]
        refine ⟨.cons hwrote hdrafted hfate hhead hnew, List.forall_mem_cons.2 ⟨hfate, hfates⟩, ?_⟩
        simp only [List.exists_mem_cons_iff, hcreated]
        refine or_congr_left ?_
        rcases hx with ⟨hx, hskipped⟩ | ⟨hx, hmade⟩
        · simp [hx, hskipped]
        · simp [hx, hmade]
      · rintro f w₂ ⟨hdrafted, b, hb, hfailed⟩
        exact ⟨.cons hwrote hdrafted hfate hhead hnew, b, List.mem_cons_of_mem _ hb, hfailed⟩
    · rintro f w₁ ⟨hwrote, hfailed⟩
      exact ⟨.of_failed hwrote hfailed hS hsame, a, List.mem_cons_self .., hfailed⟩

end Drafts

end Scaffold
