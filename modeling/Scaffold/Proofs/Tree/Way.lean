import Mathlib.Data.List.Induction
import Scaffold.Proofs.Tree.Replace

/-!
# The way to a directory

A path `Enters` a directory that stands and goes on by names alone. What is on that way decides alone whether
the missing directories can be made: no file may stand there and no name be too long (`Passable`). Made or
not, new directories are on the way only (`Paves`, `ensureDir_paves`).
-/

namespace Scaffold

namespace Tree
variable {t t' t'' : Tree} {p : Path} {k l m : Location} {ps qs rest dirs : List String} {name : String}
  {cause : Errno}

section Way

/-- The path leads to the directory at `l`, which stands, and goes on by the names `rest`. -/
def Enters (t : Tree) (p : Path) (l : Location) (rest : List String) : Prop :=
  ∃ pre, p.parts = pre ++ rest ∧ ".." ∉ rest ∧ t.walk (t.startOf p) pre = .ok l ∧
    t.entryAt l = some .directory

/-- No name is too long and no file stands on the way from `l` along `rest`. -/
structure Passable (t : Tree) (l : Location) (rest : List String) : Prop where
  short : ∀ part ∈ rest, part.utf8ByteSize ≤ nameLimit
  clear : ∀ ps, ps <+: rest → ∀ mode bytes, t.entryAt (l ++ ps) ≠ some (.file mode bytes)

/-- Some directories on the way are new, and nothing else has changed. -/
structure Paves (t : Tree) (l : Location) (rest : List String) (t' : Tree) : Prop where
  grown : t.Extends t'
  new : ∀ k, t.entryAt k = none → t'.entryAt k = some .directory → ∃ ps, ps <+: rest ∧ k = l ++ ps

namespace Enters

theorem names (h : t.Enters p l rest) : ".." ∉ rest := by
  obtain ⟨-, -, hrest, -⟩ := h
  exact hrest

theorem resolve (h : t.Enters p l rest) : p.resolveFrom t.home = l ++ rest := by
  obtain ⟨pre, hparts, hrest, hwalk, -⟩ := h
  show Path.follow (t.startOf p) p.parts = _
  rw [hparts, Path.follow_append, ← walk_eq hwalk, Path.follow_of_not_climbs hrest]

theorem locate (h : t.Enters p l rest) : t.locate p = t.walk l rest := by
  obtain ⟨pre, hparts, -, hwalk, -⟩ := h
  rw [Tree.locate, hparts, walk_append, hwalk]
  rfl

theorem grows (h : t.Enters p l rest) (hg : t.Grows t') : t'.Enters p l rest := by
  obtain ⟨pre, hparts, hrest, hwalk, hdir⟩ := h
  refine ⟨pre, hparts, hrest, ?_, hg.directory l hdir⟩
  have hstart : t'.startOf p = t.startOf p := by rw [startOf, startOf, hg.home]
  rw [hstart]
  exact walk_mono hg.directory hwalk

theorem parent (h : t.Enters p l (qs ++ [name])) : t.Enters p.parent l qs := by
  obtain ⟨pre, hparts, hrest, hwalk, hdir⟩ := h
  refine ⟨pre, ?_, fun hup => hrest (List.mem_append_left _ hup), hwalk, hdir⟩
  rw [Path.parent, hparts, ← List.append_assoc, List.dropLast_concat]

theorem name_eq (h : t.Enters p l (qs ++ [name])) : p.name = name := by
  obtain ⟨pre, hparts, -⟩ := h
  rw [Path.name, hparts, ← List.append_assoc, List.getLast?_concat, Option.getD_some]

theorem parts_ne_nil (h : t.Enters p l (qs ++ [name])) : p.parts ≠ [] := by
  obtain ⟨pre, hparts, -⟩ := h
  simp [hparts]

theorem name_ne (h : t.Enters p l (qs ++ [name])) : name ≠ ".." := by
  rintro rfl
  exact h.names (by simp)

end Enters

namespace Passable

theorem of_prefix (h : t.Passable l rest) (hps : ps <+: rest) : t.Passable l ps where
  short part hpart := h.short part (hps.subset hpart)
  clear qs hqs := h.clear qs (hqs.trans hps)

theorem of_grows (h : t'.Passable l rest) (hg : t.Grows t') : t.Passable l rest where
  short := h.short
  clear qs hqs mode bytes hfile := by
    obtain ⟨mode', bytes', hfile'⟩ := hg.file _ mode bytes hfile
    exact h.clear qs hqs mode' bytes' hfile'

theorem of_extends (h : t.Passable l rest) (he : t.Extends t') : t'.Passable l rest where
  short := h.short
  clear qs hqs mode bytes hfile := h.clear qs hqs mode bytes (he.file_iff.1 hfile)

end Passable

namespace Paves

theorem refl (t : Tree) (l : Location) (rest : List String) : t.Paves l rest t :=
  ⟨.refl t, fun k hn hd => by rw [hn] at hd; cases hd⟩

theorem trans (h : t.Paves l rest t') (h' : t'.Paves l rest t'') : t.Paves l rest t'' where
  grown := h.grown.trans h'.grown
  new k hn hd := by
    rcases h.grown.entry k with hk | ⟨-, hk⟩
    · exact h'.new k (hk.trans hn) hd
    · exact h.new k hn hk

theorem mono (h : t.Paves l ps t') (hps : ps <+: rest) : t.Paves l rest t' where
  grown := h.grown
  new k hn hd := by
    obtain ⟨qs, hqs, hk⟩ := h.new k hn hd
    exact ⟨qs, hqs.trans hps, hk⟩

theorem entryAt_eq (h : t.Paves l rest t') (hk : ∀ ps, ps <+: rest → k ≠ l ++ ps) : t'.entryAt k = t.entryAt k := by
  rcases h.grown.entry k with he | ⟨hn, hd⟩
  · exact he
  · obtain ⟨ps, hps, rfl⟩ := h.new k hn hd
    exact absurd rfl (hk ps hps)

end Paves

theorem ne_append_of_prefix (hps : ps <+: rest) (hqs : qs ≠ []) : l ++ (rest ++ qs) ≠ l ++ ps := by
  intro heq
  have hlength := congrArg List.length heq
  have hle := hps.length_le
  have hpos := List.length_pos_iff.2 hqs
  simp only [List.length_append] at hlength
  omega

/-- Beyond the way the tree is as it was. -/
theorem Paves.entryAt_beyond (h : t.Paves l rest t') (hqs : qs ≠ []) :
    t'.entryAt (l ++ (rest ++ qs)) = t.entryAt (l ++ (rest ++ qs)) :=
  h.entryAt_eq fun _ hps => ne_append_of_prefix hps hqs

end Way

section Walk

theorem walk_concat (hname : name ≠ "..") : t.walk l (qs ++ [name]) =
    (t.walk l qs).bind fun m => match t.entryAt m with
      | none => .error .noEntry
      | some (.file ..) => .error .notDirectory
      | some .directory => if nameLimit < name.utf8ByteSize then .error .nameTooLong else .ok (m ++ [name]) := by
  rw [walk_append]
  refine congrArg _ (funext fun m => ?_)
  rcases he : t.entryAt m with _ | _ | _ <;> simp only [walk, he, hname, ↓reduceIte]

/-- Where the way is free, a walk ends or something is missing. -/
theorem walk_passable (hrest : ".." ∉ rest) (h : t.Passable l rest) :
    t.walk l rest = .ok (l ++ rest) ∨ t.walk l rest = .error .noEntry := by
  induction rest using List.reverseRecOn with
  | nil => exact .inl (by simp [walk])
  | append_singleton qs name ih =>
    have hname : name ≠ ".." := fun e => hrest (by simp [e])
    have hshort := h.short name (by simp)
    rw [walk_concat hname]
    rcases ih (fun hup => hrest (List.mem_append_left _ hup)) (h.of_prefix (List.prefix_append ..)) with hw | hw
    · rw [hw]
      simp only [Except.bind]
      cases he : t.entryAt (l ++ qs) with
      | none => exact .inr rfl
      | some e =>
        cases e with
        | directory => exact .inl (by simp [Nat.not_lt.2 hshort])
        | file mode bytes => exact absurd he (h.clear qs (List.prefix_append ..) mode bytes)
    · rw [hw]
      exact .inr rfl

/-- A walk that ends has found directories only, and no name too long. -/
theorem passable_of_walk (hrest : ".." ∉ rest) (h : t.walk l rest = .ok m)
    (hm : t.entryAt (l ++ rest) = some .directory) : t.Passable l rest := by
  induction rest using List.reverseRecOn generalizing m with
  | nil =>
    refine ⟨by simp, fun ps hps mode bytes hfile => ?_⟩
    rw [List.prefix_nil.1 hps, hm] at hfile
    cases hfile
  | append_singleton qs name ih =>
    have hname : name ≠ ".." := fun e => hrest (by simp [e])
    have hqs : ".." ∉ qs := fun hup => hrest (List.mem_append_left _ hup)
    rw [walk_concat hname] at h
    cases hw : t.walk l qs with
    | error c => rw [hw] at h; cases h
    | ok m' =>
      have hm' : m' = l ++ qs := by rw [walk_eq hw, Path.follow_of_not_climbs hqs]
      subst hm'
      rw [hw] at h
      simp only [Except.bind] at h
      cases he : t.entryAt (l ++ qs) with
      | none => rw [he] at h; cases h
      | some e =>
        rw [he] at h
        cases e with
        | file => cases h
        | directory =>
          simp only at h
          split at h
          · cases h
          · next hshort =>
            have hpassable := ih hqs hw he
            refine ⟨fun part hpart => ?_, fun ps hps => ?_⟩
            · rcases List.mem_append.1 hpart with hpart | hpart
              · exact hpassable.short part hpart
              · rw [List.mem_singleton.1 hpart]
                exact Nat.not_lt.1 hshort
            · rcases List.prefix_concat_iff.1 hps with rfl | hps
              · intro mode bytes hfile
                rw [hm] at hfile
                cases hfile
              · exact hpassable.clear ps hps

/-- The way to a directory that stands is free. -/
theorem Enters.passable (h : t.Enters p l rest) (hdir : t.find p = .ok .directory) : t.Passable l rest := by
  have hlocate := locate_of_find hdir
  rw [h.locate] at hlocate
  refine passable_of_walk h.names hlocate ?_
  rw [← h.resolve]
  exact find_eq_resolve hdir

end Walk

section Ensure

theorem makeDir_error (h : t.makeDir p = .error cause) :
    t.locate p = .error cause ∨ cause = .alreadyExists ∧ ∃ l e, t.locate p = .ok l ∧ t.entryAt l = some e := by
  unfold makeDir at h
  cases hl : t.locate p with
  | error c => rw [hl] at h; cases h; exact .inl rfl
  | ok l =>
    simp only [hl, bind, Except.bind] at h
    split at h
    · next hsome =>
      cases h
      obtain ⟨e, he⟩ := Option.isSome_iff_exists.1 hsome
      exact .inr ⟨rfl, l, e, rfl, he⟩
    · cases h

/-- A directory that cannot be made, though what is missing above it is no obstacle, stands already or its
way is not free. -/
theorem settle_paves (h : t.Enters p l rest) (hmake : t.makeDir p = .error cause)
    (hmissing : t.locate p ≠ .error .noEntry) :
    t.settle p cause = .ok () t ∧ t.find p = .ok .directory ∨
      t.settle p cause = .error (refusal cause p) t ∧ ¬ t.Passable l rest := by
  rcases settle_cases t p cause with hok | herror
  · exact .inl hok
  · refine .inr ⟨herror, fun hpassable => ?_⟩
    have hlocate : t.locate p = .ok (l ++ rest) := by
      rw [h.locate] at hmissing ⊢
      exact (walk_passable h.names hpassable).resolve_right hmissing
    obtain ⟨-, m, e, hm, he⟩ := (makeDir_error hmake).resolve_left (by rw [hlocate]; simp)
    rw [hlocate] at hm
    cases hm
    cases e with
    | file mode bytes => exact hpassable.clear rest (List.prefix_refl _) mode bytes he
    | directory =>
      have hfind : t.find p = .ok .directory := find_eq_ok.2 ⟨_, hlocate, he⟩
      simp [settle, hfind] at herror

theorem makeDir_paves (h : t.Enters p l rest) (hmake : t.makeDir p = .ok t') : t.Paves l rest t' := by
  refine ⟨makeDir_extends hmake, fun k hn hd => ?_⟩
  obtain ⟨m, hm, hfree, rfl⟩ := makeDir_ok hmake
  rw [entryAt_place_new hfree] at hd
  split at hd
  · next hk => exact ⟨rest, List.prefix_refl _, by rw [hk, locate_eq hm, h.resolve]⟩
  · rw [hn] at hd
    cases hd

/-- A directory that stands is left alone. -/
theorem ensureDir_standing (h : t.find p = .ok .directory) : t.ensureDir p = .ok () t := by
  obtain ⟨l, hlocate, hdir⟩ := find_eq_ok.1 h
  have hmake : t.makeDir p = .error .alreadyExists := by
    simp [makeDir, hlocate, hdir, bind, Except.bind, throw, throwThe, MonadExceptOf.throw]
  have hsettle : t.settle p .alreadyExists = .ok () t := by
    rw [settle, h]
  rw [ensureDir]
  simp only [hmake, reduceCtorEq, false_and, ↓reduceIte, hsettle]

/-- Where the directory above stands, nothing is missing. -/
theorem locate_ne_noEntry (h : t.Enters p l (qs ++ [name])) (hdir : t.find p.parent = .ok .directory) :
    t.locate p ≠ .error .noEntry := by
  obtain ⟨m, hm, hdir⟩ := find_eq_ok.1 hdir
  rw [h.parent.locate] at hm
  rw [h.locate, walk_concat h.name_ne, hm]
  simp only [Except.bind, hdir]
  split <;> simp

/-- Making a directory with all that is missing above it. It works if and only if the way is free. -/
theorem ensureDir_paves (h : t.Enters p l rest) :
    match t.ensureDir p with
    | .ok _ t' => t.Paves l rest t' ∧ t'.find p = .ok .directory
    | .error _ t' => t.Paves l rest t' ∧ ¬ t.Passable l rest := by
  induction rest using List.reverseRecOn generalizing p with
  | nil =>
    -- the start of the way stands, so nothing is to be made
    have hlocate : t.locate p = .ok l := h.locate
    obtain ⟨-, -, -, -, hdir⟩ := h
    have hfind : t.find p = .ok .directory := find_eq_ok.2 ⟨l, hlocate, hdir⟩
    rw [ensureDir_standing hfind]
    exact ⟨.refl .., hfind⟩
  | append_singleton qs name ih =>
    have hlead : qs <+: qs ++ [name] := List.prefix_append ..
    rw [ensureDir]
    cases hmake : t.makeDir p with
    | ok t₁ => exact ⟨makeDir_paves h hmake, find_of_makeDir hmake⟩
    | error cause =>
      by_cases hcause : cause = .noEntry
      · subst hcause
        simp only [h.parts_ne_nil, ne_eq, not_false_eq_true, and_self, ↓reduceIte]
        have hparent := ih h.parent
        cases hensure : t.ensureDir p.parent with
        | error f t₁ =>
          rw [hensure] at hparent
          obtain ⟨hpaves, hblocked⟩ := hparent
          exact ⟨hpaves.mono hlead, fun hp => hblocked (hp.of_prefix hlead)⟩
        | ok u t₁ =>
          rw [hensure] at hparent
          obtain ⟨hpaves, hfind⟩ := hparent
          have hpaves := hpaves.mono hlead
          have h₁ := h.grows hpaves.grown.grows
          simp only
          cases hmake₁ : t₁.makeDir p with
          | ok t₂ => exact ⟨hpaves.trans (makeDir_paves h₁ hmake₁), find_of_makeDir hmake₁⟩
          | error cause =>
            rcases settle_paves h₁ hmake₁ (locate_ne_noEntry h₁ hfind) with ⟨hs, hd⟩ | ⟨hs, hblocked⟩
            · simp only [hs]
              exact ⟨hpaves, hd⟩
            · simp only [hs]
              exact ⟨hpaves, fun hp => hblocked (hp.of_extends hpaves.grown)⟩
      · have hmissing : t.locate p ≠ .error .noEntry := by
          intro hl
          simp only [makeDir, hl, bind, Except.bind, Except.error.injEq] at hmake
          exact hcause hmake.symm
        simp only [hcause, false_and, ↓reduceIte]
        rcases settle_paves h hmake hmissing with ⟨hs, hd⟩ | ⟨hs, hblocked⟩
        · rw [hs]
          exact ⟨.refl .., hd⟩
        · rw [hs]
          exact ⟨.refl .., hblocked⟩

end Ensure

end Tree

end Scaffold
