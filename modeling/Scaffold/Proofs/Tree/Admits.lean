import Scaffold.Proofs.Tree.Way

/-!
# Where a file can be written

A file can be put at the end of a way that is free (`Edit.Admits`): the missing directories are made, a
temporary file finds room beside the target, and nothing but a file may stand there. A replacement does its work
exactly there (`wp_replaceFile_admits`), so `Tree.takes` says beforehand what becomes of it.
-/

namespace Scaffold

namespace Edit
variable {t t' : Tree} {p : Path} {k l : Location} {dirs : List String} {name text : String}

/-- A file can be put at the end of the way: the directories can be made, nothing but a file stands there,
and a temporary file has room beside it. -/
structure Admits (t : Tree) (p : Path) (l : Location) (dirs : List String) (name : String) : Prop where
  noNull : Tree.hasNull p = false
  way : t.Passable l dirs
  target : t.entryAt (l ++ (dirs ++ [name])) ≠ some .directory
  room : (tempName name 0).utf8ByteSize ≤ Tree.nameLimit
  free : ∃ n < tempTries, t.entryAt (l ++ dirs ++ [tempName name n]) = none

section Temp

/-- The first temporary file that does not stand yet is taken, or all of them stand. -/
theorem freeName?_cases (t : Tree) (l : Location) (name : String) {tries : Nat} (h : tries ≤ tempTries) :
    (freeName? t l name tries = none ∧
      ∀ n, tempTries - tries ≤ n → n < tempTries → t.entryAt (l ++ [tempName name n]) ≠ none) ∨
    ∃ n < tempTries, freeName? t l name tries = some (tempName name n) ∧
      t.entryAt (l ++ [tempName name n]) = none := by
  induction tries with
  | zero =>
    refine .inl ⟨rfl, fun n hle hlt => ?_⟩
    omega
  | succ tries ih =>
    rw [freeName?]
    by_cases hfree : t.entryAt (l ++ [tempName name (tempTries - (tries + 1))]) = none
    · simp only [hfree, Option.isNone_none, ↓reduceIte]
      exact .inr ⟨_, by omega, rfl, hfree⟩
    · have hnone : (t.entryAt (l ++ [tempName name (tempTries - (tries + 1))])).isNone = false :=
        Option.isNone_eq_false_iff.2 (Option.isSome_iff_ne_none.2 hfree)
      simp only [hnone, Bool.false_eq_true, ↓reduceIte]
      rcases ih (by omega) with ⟨hrest, hall⟩ | hfound
      · refine .inl ⟨hrest, fun n hle hlt => ?_⟩
        by_cases hn : n = tempTries - (tries + 1)
        · exact hn ▸ hfree
        · exact hall n (by omega) hlt
      · exact .inr hfound

theorem tempName_eq (name : String) (n : Nat) : ∃ rest, tempName name n = "." ++ name ++ "." ++ rest :=
  ⟨_, String.append_assoc ..⟩

theorem lt_tempName (name : String) (n : Nat) : name.utf8ByteSize < (tempName name n).utf8ByteSize := by
  obtain ⟨rest, hrest⟩ := tempName_eq name n
  have hdot : ".".utf8ByteSize = 1 := by decide
  simp only [hrest, String.utf8ByteSize_append]
  omega

theorem tempName_ne (name : String) (n : Nat) : tempName name n ≠ name := fun h => by
  have hlt := lt_tempName name n
  rw [h] at hlt
  omega

end Temp

section Rename
variable {temp m : Location} {mode : Nat} {bytes : ByteArray}

theorem find_of_locate (hl : t.locate p = .ok m) :
    t.find p = match t.entryAt m with
      | some e => .ok e
      | none => .error .noEntry := by
  unfold Tree.find
  rw [hl]
  simp only [bind, Except.bind]
  cases t.entryAt m <;> rfl

theorem modeFor_of_locate (hl : t.locate p = .ok m) (mask : Nat) : ∃ mode, modeFor mask t p = .ok mode := by
  unfold modeFor
  rw [find_of_locate hl]
  rcases t.entryAt m with _ | _ | _ <;> exact ⟨_, rfl⟩

/-- A temporary file can be renamed to where nothing or a file stands. -/
theorem rename_ok (mode : Nat) (bytes : ByteArray) (hfree : t.entryAt temp = none) (hname : p.name ≠ "" ∧ p.name ≠ "..")
    (hl : t.locate p = .ok m) (hd : t.entryAt m ≠ some .directory) (hne : m ≠ temp) :
    ∃ t', rename temp (.file mode bytes) p (t.place temp (.file mode bytes)) = .ok () t' := by
  have hlocate : (t.place temp (.file mode bytes)).locate p = .ok m := by
    refine Tree.walk_mono (fun k hk => ?_) hl
    rw [Tree.entryAt_place_new hfree, if_neg (by rintro rfl; rw [hfree] at hk; cases hk)]
    exact hk
  have hentry : (t.place temp (.file mode bytes)).entryAt m = t.entryAt m := by
    rw [Tree.entryAt_place_new hfree, if_neg hne]
  have hobstacle : renameObstacle (t.place temp (.file mode bytes)) p = none := by
    unfold renameObstacle
    rw [find_of_locate hlocate, hentry]
    simp only [hname.1, hname.2, decide_false, Bool.or_self, Bool.false_eq_true, ↓reduceIte]
    cases he : t.entryAt m with
    | none => rfl
    | some e =>
      cases e with
      | directory => exact absurd he hd
      | file => rfl
  unfold rename
  rw [hobstacle, hlocate]
  exact ⟨_, rfl⟩

end Rename

section Replace

theorem Admits.short (h : Admits t p l dirs name) : name.utf8ByteSize ≤ Tree.nameLimit :=
  Nat.le_of_lt (Nat.lt_of_lt_of_le (lt_tempName name 0) h.room)

/-- What a tree admits, it did before it grew. -/
theorem Admits.of_grows (h : Admits t' p l dirs name) (hg : t.Grows t') : Admits t p l dirs name where
  noNull := h.noNull
  way := h.way.of_grows hg
  target hd := h.target (hg.directory _ hd)
  room := h.room
  free := by
    obtain ⟨n, hn, hfree⟩ := h.free
    exact ⟨n, hn, hg.entryAt_none hfree⟩

/-- New directories above a file do not stand in its way. -/
theorem Admits.of_paves (h : Admits t p l dirs name) (hp : t.Paves l dirs t') : Admits t' p l dirs name where
  noNull := h.noNull
  way := h.way.of_extends hp.grown
  target := by
    rw [hp.entryAt_beyond (by simp)]
    exact h.target
  room := h.room
  free := by
    obtain ⟨n, hn, hfree⟩ := h.free
    refine ⟨n, hn, ?_⟩
    rwa [List.append_assoc, hp.entryAt_beyond (by simp), ← List.append_assoc]

theorem locate_of_room (h : t.Enters p l (dirs ++ [name])) (hdir : t.find p.parent = .ok .directory)
    (hshort : name.utf8ByteSize ≤ Tree.nameLimit) : t.locate p = .ok (l ++ (dirs ++ [name])) := by
  obtain ⟨m, hm, hentry⟩ := Tree.find_eq_ok.1 hdir
  have hresolve := Tree.locate_eq hm
  rw [h.parent.resolve] at hresolve
  subst hresolve
  rw [h.parent.locate] at hm
  rw [h.locate, Tree.walk_concat h.name_ne, hm]
  simp only [Except.bind, hentry, Nat.not_lt.2 hshort, ↓reduceIte, List.append_assoc]

/-- The last step of a replacement fails only over a directory, or under a name that is too long. -/
theorem wp_rename_beside {n mode : Nat} {bytes : ByteArray} (h : t.Enters p l (dirs ++ [name]))
    (hname : name ≠ "") (hdir : t.find p.parent = .ok .directory)
    (hfree : t.entryAt (l ++ dirs ++ [tempName name n]) = none) :
    wp (rename (l ++ dirs ++ [tempName name n]) (.file mode bytes) p)
      (fun _ t' => t.entryAt (l ++ (dirs ++ [name])) ≠ some .directory ∧
        ∀ k, k ≠ l ++ (dirs ++ [name]) → t'.entryAt k = t.entryAt k)
      (fun _ t' => (name.utf8ByteSize ≤ Tree.nameLimit → t.entryAt (l ++ (dirs ++ [name])) = some .directory) ∧
        t'.home = t.home ∧ ∀ k, t'.entryAt k = t.entryAt k)
      (t.place (l ++ dirs ++ [tempName name n]) (.file mode bytes)) := by
  have hne : l ++ (dirs ++ [name]) ≠ l ++ dirs ++ [tempName name n] := fun heq => by
    rw [← List.append_assoc, List.append_cancel_left_eq, List.cons.injEq] at heq
    exact tempName_ne name n heq.1.symm
  have hrename := @wp_rename t p (l ++ dirs ++ [tempName name n]) mode bytes
    (List.append_ne_nil_of_right_ne_nil (l ++ dirs) (List.cons_ne_nil (tempName name n) [])) hfree
  cases hr : rename (l ++ dirs ++ [tempName name n]) (.file mode bytes) p
      (t.place (l ++ dirs ++ [tempName name n]) (.file mode bytes)) with
  | ok u t' =>
    obtain ⟨-, m, hm, hd, he⟩ := (wp_ok hr).1 hrename
    have hresolve := Tree.locate_eq hm
    rw [h.resolve] at hresolve
    subst hresolve
    exact (wp_ok hr).2 ⟨hd, fun k hk => by rw [he, if_neg hk]⟩
  | error f t' =>
    obtain ⟨-, hhome, he⟩ := (wp_error hr).1 hrename
    refine (wp_error hr).2 ⟨fun hshort => ?_, hhome, he⟩
    by_contra hd
    obtain ⟨t'', hok⟩ := rename_ok mode bytes hfree
      ⟨h.name_eq.symm ▸ hname, h.name_eq.symm ▸ h.name_ne⟩ (locate_of_room h hdir hshort) hd hne
    rw [hr] at hok
    cases hok

/-- Making the directories above a file, which can be done again. -/
theorem wp_makeDirs_paves (h : t.Enters p l (dirs ++ [name])) :
    wp (makeDirs p.parent)
      (fun _ t' => t.Paves l dirs t' ∧ t'.find p.parent = .ok .directory ∧ makeDirs p.parent t' = .ok () t')
      (fun _ t' => ¬ Admits t p l dirs name ∧ t.Paves l dirs t') t := by
  by_cases hnull : Tree.hasNull p.parent = true
  · have hmake : makeDirs p.parent t = .error .nullInPath t := by simp only [makeDirs, hnull, ↓reduceIte]
    refine (wp_error hmake).2 ⟨fun hadmits => ?_, .refl ..⟩
    have hnone := hadmits.noNull
    rw [hasNull_of_parent hnull] at hnone
    cases hnone
  · have hmake : ∀ t, makeDirs p.parent t = t.ensureDir p.parent := fun t => by simp [makeDirs, hnull]
    have hensure := Tree.ensureDir_paves h.parent
    cases hresult : t.ensureDir p.parent with
    | error f t' =>
      rw [hresult] at hensure
      exact (wp_error ((hmake t).trans hresult)).2 ⟨fun hadmits => hensure.2 hadmits.way, hensure.1⟩
    | ok u t' =>
      rw [hresult] at hensure
      refine (wp_ok ((hmake t).trans hresult)).2 ⟨hensure.1, hensure.2, ?_⟩
      rw [hmake, Tree.ensureDir_standing hensure.2]

/-- Where the directories stand, a file is replaced if and only if its way admits it, and nothing else is touched. -/
theorem wp_replaceFile_standing (h : t.Enters p l (dirs ++ [name])) (hname : name ≠ "")
    (hdir : t.find p.parent = .ok .directory) (hdirs : makeDirs p.parent t = .ok () t) (text : String) :
    wp (replaceFile p text)
      (fun _ t' => Admits t p l dirs name ∧ ∀ k, k ≠ l ++ (dirs ++ [name]) → t'.entryAt k = t.entryAt k)
      (fun _ t' => ¬ Admits t p l dirs name ∧ t'.home = t.home ∧ ∀ k, t'.entryAt k = t.entryAt k) t := by
  have hlocate : t.locate p.parent = .ok (l ++ dirs) := by
    rw [Tree.locate_of_find hdir, h.parent.resolve]
  unfold replaceFile replaceFileUnder
  rw [wp_bind, wp_ok hdirs]
  simp only [wp_bind, wp_get, wp_ite, wp_throw, wp_ofExcept, hlocate, Except.mapError, h.name_eq]
  split
  · next hnull =>
    refine ⟨fun hadmits => ?_, trivial, fun _ => trivial⟩
    rw [hadmits.noNull] at hnull
    cases hnull
  next hnull =>
  cases hmode : modeFor umask t p with
  | error f =>
    refine ⟨fun hadmits => ?_, trivial, fun _ => trivial⟩
    obtain ⟨mode, hmode'⟩ := modeFor_of_locate (locate_of_room h hdir hadmits.short) umask
    rw [hmode] at hmode'
    cases hmode'
  | ok mode =>
    simp only
    split
    · next hlong => exact ⟨fun hadmits => absurd hadmits.room (Nat.not_le.2 hlong), trivial, fun _ => trivial⟩
    next hroom =>
    rcases freeName?_cases t (l ++ dirs) name (Nat.le_refl tempTries) with
      ⟨hnone, htaken⟩ | ⟨n, hn, htemp, hfree⟩
    · rw [hnone]
      refine (wp_throw _).2 ⟨fun hadmits => ?_, rfl, fun k => rfl⟩
      obtain ⟨n, hn, hentry⟩ := hadmits.free
      exact htaken n (by omega) hn hentry
    · rw [htemp]
      simp only [wp_bind, wp_set]
      refine wp_mono (wp_rename_beside h hname hdir hfree) ?_ ?_
      · rintro u t' ⟨hd, he⟩
        have hadmits : Admits t p l dirs name :=
          ⟨by simpa using hnull, h.parent.passable hdir, hd, Nat.not_lt.1 hroom, n, hn, hfree⟩
        exact (wp_pure _).2 ⟨hadmits, he⟩
      · rintro f t' ⟨hd, hhome, he⟩
        exact ⟨fun hadmits => hadmits.target (hd hadmits.short), hhome, he⟩

/-- A file is replaced if and only if its way admits it. -/
theorem wp_replaceFile_admits (h : t.Enters p l (dirs ++ [name])) (hname : name ≠ "") (text : String) :
    wp (replaceFile p text)
      (fun _ t' => Admits t p l dirs name ∧ ∃ t₁, t.Paves l dirs t₁ ∧
        ∀ k, k ≠ l ++ (dirs ++ [name]) → t'.entryAt k = t₁.entryAt k)
      (fun _ t' => ¬ Admits t p l dirs name ∧ t.Paves l dirs t') t := by
  have hmade := wp_makeDirs_paves h
  cases hdirs : makeDirs p.parent t with
  | error f t₁ =>
    unfold replaceFile replaceFileUnder
    rw [wp_bind, wp_error hdirs]
    exact (wp_error hdirs).1 hmade
  | ok u t₁ =>
    obtain ⟨hpaves, hdir, hagain⟩ := (wp_ok hdirs).1 hmade
    -- the directories stand in `t₁`, so a replacement there makes no new ones
    have hsame : replaceFile p text t = replaceFile p text t₁ := by
      simp only [replaceFile, replaceFileUnder, bind, EStateM.bind, hdirs, hagain]
    rw [wp_eq hsame]
    refine wp_mono (wp_replaceFile_standing (h.grows hpaves.grown.grows) hname hdir hagain text) ?_ ?_
    · rintro record t' ⟨hadmits, he⟩
      exact ⟨hadmits.of_grows hpaves.grown.grows, t₁, hpaves, he⟩
    · rintro f t' ⟨hrefused, hhome, he⟩
      refine ⟨fun hadmits => hrefused (hadmits.of_paves hpaves),
        hpaves.trans ⟨⟨hhome, fun k => .inl (he k)⟩, fun k hn hd => ?_⟩⟩
      rw [he, hn] at hd
      cases hd

end Replace

end Edit

namespace Tree
variable {t : Tree} {p : Path} {l : Location} {dirs : List String} {name : String}

/-- Whether a file can be put at a path. -/
def takes (t : Tree) (p : Path) : Bool :=
  match Edit.replaceFile p "" t with
  | .ok .. => true
  | .error .. => false

theorem hasNull_of_takes (h : t.takes p = true) : hasNull p = false := by
  unfold takes at h
  cases hr : Edit.replaceFile p "" t with
  | ok record t' => exact ((wp_ok hr).1 (Edit.wp_replaceFile p "" t)).noNull
  | error f t' => rw [hr] at h; cases h

theorem takes_iff (h : t.Enters p l (dirs ++ [name])) (hname : name ≠ "") :
    t.takes p = true ↔ Edit.Admits t p l dirs name := by
  have hwrite := Edit.wp_replaceFile_admits h hname ""
  unfold takes
  cases hr : Edit.replaceFile p "" t with
  | ok record t' => exact iff_of_true rfl ((wp_ok hr).1 hwrite).1
  | error f t' => exact iff_of_false Bool.false_ne_true ((wp_error hr).1 hwrite).1

end Tree

end Scaffold
