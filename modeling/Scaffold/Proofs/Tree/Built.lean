import Scaffold.Proofs.Run.Effect
import Scaffold.Proofs.Tree.Admits

/-!
# A tree while planned files are written

`Built t₀ S t`: from `t₀`, files were written at the locations `S` only, and directories made above them only.
If no planned file stands in the way of another (`Apart`), what a write of one comes to (`Tree.fate`) does not
change while the others are written (`Built.fate_eq`), so it can be told from `t₀` alone.
-/

namespace Scaffold
open Edit (tempName Admits)

variable {t₀ t t' : Tree} {p : Path} {k l : Location} {dirs : List String} {name text : String}
  {S : Location → Prop} {w : Workspace} {force : Bool}

namespace Tree

/-- What a write to a path comes to. -/
def fate (t : Tree) (force : Bool) (p : Path) : Status :=
  if force = false ∧ (t.stands p matches .ok true) then .skipped
  else if t.takes p then .created else .failed

theorem stands_matches : (t.stands p matches .ok true) = true ↔ t.stands p = .ok true := by
  rcases t.stands p with _ | _ | _ <;> simp

/-- The path leads to the end of a way, and what stands there is seen. -/
def Aims (t : Tree) (p : Path) : Prop :=
  ∃ l dirs name, t.Enters p l (dirs ++ [name]) ∧ name ≠ "" ∧
    ∀ e, t.entryAt (l ++ (dirs ++ [name])) = some e → t.find p = .ok e

/-- What stands where the names of the path lead is seen. -/
def Sees (t : Tree) (p : Path) : Prop :=
  ∀ e, t.entryAt (p.resolveFrom t.home) = some e → t.find p = .ok e

theorem Aims.sees (h : t.Aims p) : t.Sees p := fun e he => by
  obtain ⟨l, dirs, name, henters, -, hseen⟩ := h
  rw [henters.resolve] at he
  exact hseen e he

theorem sees_of_find {e : Entry} (h : t.find p = .ok e) : t.Sees p := fun e' he => by
  rw [find_eq_resolve h, Option.some.injEq] at he
  rwa [← he]

theorem Sees.grows (h : t.Sees p) (hg : t.Grows t')
    (hsame : t'.entryAt (p.resolveFrom t.home) = t.entryAt (p.resolveFrom t.home)) : t'.Sees p := fun e he => by
  rw [hg.home, hsame] at he
  obtain ⟨l, hl, -⟩ := find_eq_ok.1 (h e he)
  refine find_eq_ok.2 ⟨l, hg.locate hl, ?_⟩
  rw [locate_eq hl, hsame, he]

/-- Where a file can be put, it can be asked what stands. -/
theorem stands_of_admits (h : t.Enters p l (dirs ++ [name])) (hadmits : Admits t p l dirs name) :
    ∃ there, t.stands p = .ok there := by
  have hlocate : ∀ c, t.locate p = .error c → c = .noEntry ∨ c = .notDirectory := by
    intro c hc
    rw [h.locate, walk_concat h.name_ne] at hc
    rcases walk_passable h.parent.names hadmits.way with hw | hw
    · rw [hw] at hc
      simp only [Except.bind, Nat.not_lt.2 hadmits.short, ↓reduceIte] at hc
      split at hc <;> cases hc
      · exact .inl rfl
      · exact .inr rfl
    · rw [hw] at hc
      cases hc
      exact .inl rfl
  obtain ⟨e, he⟩ := look_ok hlocate
  exact ⟨_, by rw [stands, he]; rfl⟩

end Tree

section Write

/-- What a write has done, by its fate. -/
theorem Writer.wp_write_fate (h : w.tree.Enters p l (dirs ++ [name])) (hname : name ≠ "") (text : String)
    (force : Bool) :
    wp (Writer.write p text force)
      (fun written w' => w'.cache = w.cache ∧
        (written.record = none ∧ w.tree.fate force p = .skipped ∧ w'.tree = w.tree ∨
          written.record ≠ none ∧ w.tree.fate force p = .created ∧ Edit.Replaced w.tree p text w'.tree ∧
            ∃ t₁, w.tree.Paves l dirs t₁ ∧ ∀ k, k ≠ l ++ (dirs ++ [name]) → w'.tree.entryAt k = t₁.entryAt k))
      (fun _ w' => w'.cache = w.cache ∧ w.tree.fate force p = .failed ∧ w.tree.Paves l dirs w'.tree) w := by
  unfold Writer.write
  rw [wp_bind, wp_look]
  have htakes := Tree.takes_iff h hname
  cases hs : w.tree.stands p with
  | error f =>
    have hrefused : w.tree.takes p = false := by
      rw [Bool.eq_false_iff, ne_eq, htakes]
      intro hadmits
      obtain ⟨there, hthere⟩ := Tree.stands_of_admits h hadmits
      rw [hs] at hthere
      cases hthere
    exact ⟨rfl, by simp [Tree.fate, hs, hrefused], .refl ..⟩
  | ok there =>
    simp only [wp_ite, wp_bind, wp_say, wp_pure, wp_edit, wp_modify]
    split
    · next hskip =>
      obtain ⟨rfl, hforce⟩ := Bool.and_eq_true_iff.1 hskip
      exact ⟨trivial, .inl ⟨trivial, by simp [Tree.fate, hs, show force = false by simpa using hforce], trivial⟩⟩
    · next hwrite =>
      have hfate : w.tree.fate force p = if w.tree.takes p then .created else .failed := by
        unfold Tree.fate
        rw [if_neg]
        rintro ⟨rfl, hthere⟩
        rw [Tree.stands_matches, hs] at hthere
        cases hthere
        exact hwrite rfl
      have hadmits := Edit.wp_replaceFile_admits h hname text
      have hreplaced := Edit.wp_replaceFile p text w.tree
      rw [hfate]
      cases hr : Edit.replaceFile p text w.tree with
      | ok record t' =>
        rw [wp_ok hr] at hadmits hreplaced
        rw [wp_ok hr, if_pos (htakes.2 hadmits.1)]
        exact ⟨trivial, .inr ⟨by simp, rfl, hreplaced, hadmits.2⟩⟩
      | error f t' =>
        rw [wp_error hr] at hadmits
        rw [wp_error hr, if_neg fun ht => hadmits.1 (htakes.1 ht)]
        exact ⟨trivial, rfl, hadmits.2⟩

end Write

/-- No planned file stands in the way of another one or of its temporary file. -/
structure Apart (S : Location → Prop) : Prop where
  files : ∀ k s, S k → S s → k <+: s → k = s
  temps : ∀ above name n s, S (above ++ [name]) → S s → ¬ above ++ [tempName name n] <+: s

/-- Files were written at the locations `S` only, and directories made above them only. -/
structure Built (t₀ : Tree) (S : Location → Prop) (t : Tree) : Prop where
  frame : Frame t₀ S S t
  directories : ∀ k, t.entryAt k = some .directory →
    t₀.entryAt k = some .directory ∨ ∃ s, S s ∧ k <+: s ∧ k ≠ s

namespace Built

theorem refl (t₀ : Tree) (S : Location → Prop) : Built t₀ S t₀ :=
  ⟨.refl .., fun _ h => .inl h⟩

theorem of_paves (h : Built t₀ S t) (hS : S (l ++ (dirs ++ [name]))) (hp : t.Paves l dirs t') :
    Built t₀ S t' where
  frame := h.frame.of_extends hp.grown
  directories k hk := by
    rcases hp.grown.entry k with he | ⟨hn, hd⟩
    · exact h.directories k (he ▸ hk)
    · obtain ⟨ps, hps, rfl⟩ := hp.new k hn hd
      refine .inr ⟨_, hS, ?_, fun heq => Tree.ne_append_of_prefix hps (by simp) heq.symm⟩
      exact (List.prefix_append_right_inj l).2 (hps.trans (List.prefix_append ..))

theorem of_replaced (h : Built t₀ S t) (henters : t.Enters p l (dirs ++ [name])) (hS : S (l ++ (dirs ++ [name])))
    (hr : Edit.Replaced t p text t') {t₁ : Tree} (hpaves : t.Paves l dirs t₁)
    (hrest : ∀ k, k ≠ l ++ (dirs ++ [name]) → t'.entryAt k = t₁.entryAt k) : Built t₀ S t' where
  frame := by
    have hplace : S (p.resolveFrom t₀.home) := by
      rw [← h.frame.grows.home, henters.resolve]
      exact hS
    exact h.frame.of_replaced hr (fun _ _ _ => hplace) hplace
  directories k hk := by
    by_cases heq : k = l ++ (dirs ++ [name])
    · have hfile := Tree.find_eq_resolve hr.find
      rw [hr.home, henters.resolve, ← heq, hk] at hfile
      cases hfile
    · exact (h.of_paves hS hpaves).directories k (hrest k heq ▸ hk)

theorem free (h : Built t₀ S t) (hk : t₀.entryAt k = none) (hplanned : ∀ s, S s → ¬ k <+: s) : t.entryAt k = none := by
  cases he : t.entryAt k with
  | none => rfl
  | some e =>
    cases e with
    | directory =>
      rcases h.directories k he with hd | ⟨s, hs, hks, -⟩
      · rw [hk] at hd
        cases hd
      · exact absurd hks (hplanned s hs)
    | file mode bytes =>
      rcases h.frame.fresh k mode bytes he with ⟨mode₀, bytes₀, hf⟩ | hs
      · rw [hk] at hf
        cases hf
      · exact absurd (List.prefix_refl k) (hplanned k hs)

/-- What a write of a planned file needs, it has in the one tree if it has it in the other. -/
theorem admits_iff (h : Built t₀ S t) (hapart : Apart S) (hS : S (l ++ (dirs ++ [name]))) :
    Admits t p l dirs name ↔ Admits t₀ p l dirs name := by
  have hway : ∀ ps, ps <+: dirs → ¬ S (l ++ ps) := fun ps hps hs => by
    have hlead : l ++ ps <+: l ++ (dirs ++ [name]) :=
      (List.prefix_append_right_inj l).2 (hps.trans (List.prefix_append ..))
    exact Tree.ne_append_of_prefix hps (by simp) (hapart.files _ _ hs hS hlead).symm
  refine ⟨fun ha => ha.of_grows h.frame.grows, fun ha => ?_⟩
  refine ⟨ha.noNull, ⟨ha.way.short, fun ps hps mode bytes hfile => ?_⟩, fun hd => ?_, ha.room, ?_⟩
  · rcases h.frame.fresh _ mode bytes hfile with ⟨mode₀, bytes₀, hfile₀⟩ | hs
    · exact ha.way.clear ps hps mode₀ bytes₀ hfile₀
    · exact hway ps hps hs
  · rcases h.directories _ hd with hd₀ | ⟨s, hs, hks, hne⟩
    · exact ha.target hd₀
    · exact hne (hapart.files _ s hS hs hks)
  · obtain ⟨n, hn, hfree⟩ := ha.free
    refine ⟨n, hn, h.free hfree fun s hs => ?_⟩
    exact hapart.temps (l ++ dirs) name n s (by rw [List.append_assoc]; exact hS) hs

variable (h : Built t₀ S t) (haims : t₀.Aims p)
include h haims

theorem takes_eq (hapart : Apart S) (hS : S (p.resolveFrom t₀.home)) : t.takes p = t₀.takes p := by
  obtain ⟨l, dirs, name, henters, hname, -⟩ := haims
  rw [henters.resolve] at hS
  rw [Bool.eq_iff_iff, Tree.takes_iff (henters.grows h.frame.grows) hname, Tree.takes_iff henters hname]
  exact h.admits_iff hapart hS

theorem stands_iff (hsame : t.entryAt (p.resolveFrom t₀.home) = t₀.entryAt (p.resolveFrom t₀.home)) :
    t.stands p = .ok true ↔ t₀.stands p = .ok true := by
  refine ⟨fun hs => ?_, h.frame.grows.stands⟩
  obtain ⟨e, hnull, hfind⟩ := Tree.stands_eq_true.1 hs
  have hentry := Tree.find_eq_resolve hfind
  rw [h.frame.grows.home, hsame] at hentry
  exact Tree.stands_eq_true.2 ⟨e, hnull, haims.sees e hentry⟩

/-- The fate of a planned file stays the same until it is written. -/
theorem fate_eq (hapart : Apart S) (hS : S (p.resolveFrom t₀.home))
    (hsame : t.entryAt (p.resolveFrom t₀.home) = t₀.entryAt (p.resolveFrom t₀.home)) (force : Bool) :
    t.fate force p = t₀.fate force p := by
  have hstands : (t.stands p matches .ok true) = (t₀.stands p matches .ok true) := by
    rw [Bool.eq_iff_iff, Tree.stands_matches, Tree.stands_matches]
    exact h.stands_iff haims hsame
  unfold Tree.fate
  rw [hstands, h.takes_eq haims hapart hS]

end Built

end Scaffold
