import Scaffold.Proofs.Text.ReadBack
import Scaffold.Proofs.Tree.Walk
import Scaffold.Proofs.Wp
import Scaffold.Tree.Edit

/-!
# Replacing a file is all or nothing

`replaceFile_all_or_nothing`: a replacement that returns has put the text at the one location that the
path leads to, with the mode of the file it replaced, and a replacement that is refused has changed no
file. Either way the only other change is new directories above the target. The temporary file is out
of the way in both cases, because its name was free before. Later modules use the form of
`wp_replaceFile`, which does not ask where the new directories are.
-/

namespace Scaffold

/-- A fault of the file system itself, or of the null character in a path to it. -/
def Fault.Refuses (p : Path) (f : Fault) : Prop :=
  f = .nullInPath ∧ Tree.hasNull p = true ∨ ∃ e, f = .os e

namespace Path
variable {p q : Path}

/-- `q` is `p` or above it. -/
def Leads (q p : Path) : Prop :=
  q.anchor = p.anchor ∧ q.parts <+: p.parts

theorem Leads.refl (p : Path) : p.Leads p :=
  ⟨rfl, List.prefix_refl _⟩

theorem Leads.of_parent (h : q.Leads p.parent) : q.Leads p :=
  ⟨h.1, h.2.trans (List.dropLast_prefix _)⟩

end Path

namespace Tree
variable {t t' t'' : Tree} {p q : Path} {l : Location}

theorem makeDir_ok (h : t.makeDir p = .ok t') :
    ∃ l, t.locate p = .ok l ∧ t.entryAt l = none ∧ t' = t.place l .directory := by
  unfold makeDir at h
  cases hl : t.locate p with
  | error c => simp [hl, bind, Except.bind] at h
  | ok l =>
    simp only [hl, bind, Except.bind] at h
    split at h
    · simp [throw, throwThe, MonadExceptOf.throw] at h
    · next hn =>
      simp only [pure, Except.pure, Except.ok.injEq] at h
      exact ⟨l, rfl, by simpa using hn, h.symm⟩

theorem makeDir_extends (h : t.makeDir p = .ok t') : t.Extends t' := by
  obtain ⟨l, -, hn, rfl⟩ := makeDir_ok h
  exact extends_place hn

theorem find_of_makeDir (h : t.makeDir p = .ok t') : t'.find p = .ok .directory := by
  have hg := (makeDir_extends h).grows
  obtain ⟨l, hl, hn, rfl⟩ := makeDir_ok h
  exact find_eq_ok.2 ⟨l, hg.locate hl, by rw [entryAt_place_new hn, if_pos rfl]⟩

theorem settle_cases (t : Tree) (p : Path) (cause : Errno) :
    t.settle p cause = .ok () t ∧ t.find p = .ok .directory ∨
      t.settle p cause = .error (refusal cause p) t := by
  unfold settle
  split
  · next h => exact .inl ⟨rfl, h⟩
  · exact .inr rfl

/-- What single new directories keep, the creation of all missing ones keeps. -/
theorem ensureDir_keeps {P : Tree → Prop} (hP : ∀ t q t', q.Leads p → P t → t.makeDir q = .ok t' → P t')
    (ht : P t) :
    match t.ensureDir p with
    | .ok _ t' => P t' ∧ t'.find p = .ok .directory
    | .error f t' => (∃ e, f = .os e) ∧ P t' := by
  have hmake : ∀ {p t t'}, (∀ t q t', q.Leads p → P t → t.makeDir q = .ok t' → P t') → P t →
      t.makeDir p = .ok t' → P t' := fun hP ht h => hP _ _ _ (.refl _) ht h
  induction p using ensureDir.induct t with
  | case1 p t₁ h =>
    rw [ensureDir]
    simp only [h]
    exact ⟨hmake hP ht h, find_of_makeDir h⟩
  | case2 p c h hc f t₁ hp ih =>
    have ih := ih fun t q t' hq => hP t q t' hq.of_parent
    rw [hp] at ih
    rw [ensureDir]
    simp only [h, hc, hp, ne_eq, not_false_eq_true, and_self, ↓reduceIte]
    exact ih
  | case3 p c h hc u t₁ hp t₂ h₂ ih =>
    have ih := ih fun t q t' hq => hP t q t' hq.of_parent
    rw [hp] at ih
    rw [ensureDir]
    simp only [h, hc, hp, h₂, ne_eq, not_false_eq_true, and_self, ↓reduceIte]
    exact ⟨hmake hP ih.1 h₂, find_of_makeDir h₂⟩
  | case4 p c h hc u t₁ hp c' h₂ ih =>
    have ih := ih fun t q t' hq => hP t q t' hq.of_parent
    rw [hp] at ih
    rw [ensureDir]
    simp only [h, hc, hp, h₂, ne_eq, not_false_eq_true, and_self, ↓reduceIte]
    rcases settle_cases t₁ p c' with ⟨hs, hd⟩ | hs
    · rw [hs]; exact ⟨ih.1, hd⟩
    · rw [hs]; exact ⟨⟨_, rfl⟩, ih.1⟩
  | case5 p c h hc =>
    rw [ensureDir]
    simp only [h, hc, ↓reduceIte]
    rcases settle_cases t p c with ⟨hs, hd⟩ | hs
    · rw [hs]; exact ⟨ht, hd⟩
    · rw [hs]; exact ⟨⟨_, rfl⟩, ht⟩

/-- The entry at `k` is as in `t`, or is a new directory on the way to `p`. -/
def KeptBut (t : Tree) (p : Path) (t' : Tree) (k : Location) : Prop :=
  t'.entryAt k = t.entryAt k ∨
    t.entryAt k = none ∧ t'.entryAt k = some .directory ∧ ∃ q : Path, q.Leads p ∧ k = q.resolveFrom t.home

/-- Directories on the way to `p` may be new in `t'`; all else is as in `t`. -/
structure Clears (t : Tree) (p : Path) (t' : Tree) : Prop where
  home : t'.home = t.home
  entry : ∀ k, t.KeptBut p t' k

namespace Clears

theorem refl (t : Tree) (p : Path) : t.Clears p t :=
  ⟨rfl, fun _ => .inl rfl⟩

theorem grown (h : t.Clears p t') : t.Extends t' :=
  ⟨h.home, fun k => (h.entry k).imp_right fun ⟨hn, hd, _⟩ => ⟨hn, hd⟩⟩

theorem of_eq (h : t.Clears p t') (hhome : t''.home = t'.home) (he : ∀ k, t''.entryAt k = t'.entryAt k) :
    t.Clears p t'' :=
  ⟨hhome.trans h.home, fun k => by rw [KeptBut, he]; exact h.entry k⟩

theorem makeDir (h : t.Clears p t') (hq : q.Leads p) (hm : t'.makeDir q = .ok t'') : t.Clears p t'' := by
  obtain ⟨l, hl, hn, rfl⟩ := makeDir_ok hm
  refine ⟨h.home, fun k => ?_⟩
  rw [KeptBut, entryAt_place_new hn]
  split
  · next hk =>
    have hk' := h.entry k
    rw [KeptBut, hk, hn] at hk'
    rcases hk' with he | ⟨-, hd, -⟩
    · exact .inr ⟨hk ▸ he.symm, rfl, q, hq, by rw [hk, locate_eq hl, h.home]⟩
    · cases hd
  · exact h.entry k

end Clears

end Tree

namespace Edit
variable {t t' : Tree} {p : Path} {l temp : Location} {mode : Nat} {bytes : ByteArray}

/-- The mode that a file gets at a location. -/
def modeAt (t : Tree) (l : Location) : Nat :=
  match t.entryAt l with
  | some (.file mode _) => mode
  | _ => newFileMode

/-- `t'` is `t` with `text` as the file that `p` names, and with the directories above it. -/
structure Replaced (t : Tree) (p : Path) (text : String) (t' : Tree) : Prop where
  home : t'.home = t.home
  noNull : Tree.hasNull p = false
  before : t.entryAt (p.resolveFrom t.home) ≠ some .directory
  find : t'.find p = .ok (.file (modeAt t (p.resolveFrom t.home)) text.toUTF8)
  entry : ∀ k, k ≠ p.resolveFrom t.home →
    t'.entryAt k = t.entryAt k ∨ t.entryAt k = none ∧ t'.entryAt k = some .directory

/-- The mode that a file gets at a location in a process with the given mask. -/
def modeAtUnder (mask : Nat) (t : Tree) (l : Location) : Nat :=
  match t.entryAt l with
  | some (.file mode _) => mode
  | _ => newModeUnder mask

/-- `t'` is `t` with `text` as the file that `p` names, and with directories above it only. -/
structure ReplacedUnder (mask : Nat) (t : Tree) (p : Path) (text : String) (t' : Tree) : Prop where
  home : t'.home = t.home
  noNull : Tree.hasNull p = false
  before : t.entryAt (p.resolveFrom t.home) ≠ some .directory
  find : t'.find p = .ok (.file (modeAtUnder mask t (p.resolveFrom t.home)) text.toUTF8)
  entry : ∀ k, k ≠ p.resolveFrom t.home → t.KeptBut p.parent t' k

theorem ReplacedUnder.replaced {text : String} (h : ReplacedUnder umask t p text t') : Replaced t p text t' where
  home := h.home
  noNull := h.noNull
  before := h.before
  find := h.find
  entry k hk := (h.entry k hk).imp_right fun ⟨hn, hd, _⟩ => ⟨hn, hd⟩

theorem freeName_free {name temp : String} {tries : Nat} (h : freeName? t l name tries = some temp) :
    t.entryAt (l ++ [temp]) = none := by
  induction tries with
  | zero => simp [freeName?] at h
  | succ tries ih =>
    simp only [freeName?] at h
    split at h
    · next hn => cases h; simpa using hn
    · exact ih h

theorem renameObstacle_none (h : renameObstacle t p = none) (hl : t.locate p = .ok l) :
    t.entryAt l ≠ some .directory := by
  intro hd
  have hf : t.find p = .ok .directory := Tree.find_eq_ok.2 ⟨l, hl, hd⟩
  simp only [renameObstacle, hf] at h
  split at h <;> cases h

theorem wp_rename (h0 : temp ≠ []) (hfree : t.entryAt temp = none) :
    wp (rename temp (.file mode bytes) p)
      (fun _ t' => t'.home = t.home ∧ ∃ l, t.locate p = .ok l ∧ t.entryAt l ≠ some .directory ∧
        ∀ k, t'.entryAt k = if k = l then some (.file mode bytes) else t.entryAt k)
      (fun f t' => (∃ e, f = .os e) ∧ t'.home = t.home ∧ ∀ k, t'.entryAt k = t.entryAt k)
      (t.place temp (.file mode bytes)) := by
  have hplace : ∀ k, (t.place temp (.file mode bytes)).entryAt k =
      if k = temp then some (.file mode bytes) else t.entryAt k := fun k => Tree.entryAt_place t _ k h0
  have hremove : ∀ k, ((t.place temp (.file mode bytes)).remove temp).entryAt k = t.entryAt k := by
    intro k
    rw [Tree.entryAt_remove _ k h0, hplace]
    split
    · next hk => rw [hk, hfree]
    · rfl
  unfold wp rename
  split
  · next ho =>
    split at ho
    · cases ho
    · cases ho
    · next l hobstacle hl =>
      cases ho
      have hlocate : t.locate p = .ok l := Tree.walk_mono (fun k hk => by
        rw [hplace] at hk
        split at hk
        · cases hk
        · exact hk) hl
      have hd : t.entryAt l ≠ some .directory := fun hd => renameObstacle_none hobstacle hl (by
        rw [hplace]
        split
        · next hk => rw [hk, hfree] at hd; cases hd
        · exact hd)
      refine ⟨rfl, l, hlocate, hd, fun k => ?_⟩
      rw [Tree.entryAt_place _ _ k (Tree.ne_nil_of_entryAt hd), hremove]
  · next ho =>
    split at ho <;> cases ho <;> exact ⟨⟨_, rfl⟩, rfl, hremove⟩

theorem modeFor_error {mask : Nat} {f : Fault} (h : modeFor mask t p = .error f) : ∃ e, f = .os e := by
  unfold modeFor at h
  split at h <;> cases h
  exact ⟨_, rfl⟩

theorem modeFor_ok {mask : Nat} (hl : t.locate p = .ok l) (hd : t.entryAt l ≠ some .directory)
    (h : modeFor mask t p = .ok mode) : mode = modeAtUnder mask t l := by
  unfold modeFor at h
  unfold modeAtUnder
  cases he : t.entryAt l with
  | none =>
    have hf : t.find p = .error .noEntry := by
      unfold Tree.find
      simp [hl, bind, Except.bind, he, throw, throwThe, MonadExceptOf.throw]
    simp only [hf, Except.ok.injEq] at h
    exact h.symm
  | some e =>
    rw [Tree.find_eq_ok.2 ⟨l, hl, he⟩] at h
    cases e with
    | directory => exact absurd he hd
    | file => simp only [Except.ok.injEq] at h; exact h.symm

theorem modeAtUnder_extends (h : t.Extends t') (mask : Nat) (l : Location) :
    modeAtUnder mask t' l = modeAtUnder mask t l := by
  unfold modeAtUnder
  rcases h.entry l with e | ⟨n, d⟩
  · rw [e]
  · rw [n, d]

theorem ReplacedUnder.of_rename {mask : Nat} {t₁ : Tree} {text : String} (h : t.Clears p.parent t₁)
    (hn : Tree.hasNull p = false) (hhome : t'.home = t₁.home) (hl : t₁.locate p = .ok l)
    (hd : t₁.entryAt l ≠ some .directory)
    (he : ∀ k, t'.entryAt k = if k = l then some (.file (modeAtUnder mask t₁ l) text.toUTF8) else t₁.entryAt k) :
    ReplacedUnder mask t p text t' := by
  have hlr : l = p.resolveFrom t.home := by rw [Tree.locate_eq hl, h.home]
  refine ⟨hhome.trans h.home, hn, ?_, ?_, ?_⟩
  · rw [← hlr]; exact fun hdir => hd (h.grown.of_some hdir)
  · refine Tree.find_eq_ok.2 ⟨l, ?_, by rw [he, ← hlr, modeAtUnder_extends h.grown]; simp⟩
    unfold Tree.locate Tree.startOf at hl ⊢
    rw [hhome]
    refine Tree.walk_mono (fun k hk => ?_) hl
    have hkl : k ≠ l := fun e => hd (e ▸ hk)
    rw [he, if_neg hkl]
    exact hk
  · intro k hk
    rw [Tree.KeptBut, he, if_neg (hlr ▸ hk)]
    exact h.entry k

theorem wp_makeDirs (p : Path) (t : Tree) :
    wp (makeDirs p) (fun _ t' => t.Clears p t') (fun f t' => f.Refuses p ∧ t.Clears p t') t := by
  unfold wp makeDirs
  have h := Tree.ensureDir_keeps (P := t.Clears p) (p := p)
    (fun _ _ _ hq ht h => ht.makeDir hq h) (.refl t p)
  by_cases hn : Tree.hasNull p = true
  · simp only [hn]; exact ⟨.inl ⟨rfl, hn⟩, .refl t p⟩
  · simp only [hn]
    cases he : t.ensureDir p with
    | ok a t' => rw [he] at h; exact h.1
    | error f t' => rw [he] at h; exact ⟨.inr h.1, h.2⟩

theorem hasNull_of_parent (h : Tree.hasNull p.parent = true) : Tree.hasNull p = true := by
  obtain ⟨part, hpart, hnull⟩ := List.any_eq_true.1 h
  exact List.any_eq_true.2 ⟨part, List.dropLast_subset _ hpart, hnull⟩

/-- What is recorded of a file that holds `text`. -/
def recordOf (p : Path) (text : String) : WrittenFile :=
  { path := p.toString, size := text.toUTF8.size, lines := Text.countLines text,
    digest := Digest.sha256 text.toUTF8 }

theorem wp_replaceFileUnder (mask : Nat) (p : Path) (text : String) (t : Tree) :
    wp (replaceFileUnder mask p text)
      (fun record t' => ReplacedUnder mask t p text t' ∧ record = recordOf p text)
      (fun f t' => f.Refuses p ∧ t.Clears p.parent t') t := by
  unfold replaceFileUnder
  rw [wp_bind]
  refine wp_mono (wp_makeDirs p.parent t) (fun _ t₁ h => ?_) fun _ _ h =>
    ⟨h.1.imp_left fun hf => ⟨hf.1, hasNull_of_parent hf.2⟩, h.2⟩
  simp only [wp_bind, wp_get, wp_ite, wp_throw, wp_ofExcept]
  split
  · next hn => exact ⟨.inl ⟨rfl, hn⟩, h⟩
  next hn =>
  have hn : Tree.hasNull p = false := by simpa using hn
  split
  · next mode hmode =>
    split
    · next above habove =>
      split
      · exact ⟨.inr ⟨_, rfl⟩, h⟩
      · split
        · exact (wp_throw _).2 ⟨.inr ⟨_, rfl⟩, h⟩
        · next name hname =>
          have hfree := freeName_free hname
          rw [wp_bind, wp_set, wp_bind]
          refine wp_mono (wp_rename (by simp) hfree) ?_ ?_
          · rintro _ t' ⟨hhome, l, hl, hd, he⟩
            have hm : mode = modeAtUnder mask t₁ l := modeFor_ok hl hd hmode
            exact (wp_pure _).2 ⟨.of_rename h hn hhome hl hd (hm ▸ he), rfl⟩
          · rintro f t' ⟨hf, hhome, he⟩
            exact ⟨.inr hf, h.of_eq hhome he⟩
    · next f hf =>
      refine ⟨?_, h⟩
      cases hl : t₁.locate p.parent with
      | ok l => rw [hl] at hf; cases hf
      | error c => rw [hl] at hf; cases hf; exact .inr ⟨_, rfl⟩
  · next f hf => exact ⟨.inr (modeFor_error hf), h⟩

/-- A replacement puts the text where the path leads, or changes no file. -/
theorem wp_replaceFile (p : Path) (text : String) (t : Tree) :
    wp (replaceFile p text) (fun _ t' => Replaced t p text t')
      (fun f t' => f.Refuses p ∧ t.Extends t') t :=
  wp_mono (wp_replaceFileUnder umask p text t) (fun _ _ h => h.1.replaced) fun _ _ h => ⟨h.1, h.2.grown⟩

/-- A replacement that returns has put all of the text where the path leads, with the mode of the file that it
replaced or that of a new one, and its record tells the size and the lines of the text. One that is refused has
left every file as it was. Either way nothing else has changed but for new directories above the target. -/
theorem replaceFile_all_or_nothing (mask : Nat) (p : Path) (text : String) (t : Tree) :
    match replaceFileUnder mask p text t with
    | .ok record t' => ReplacedUnder mask t p text t' ∧ record.path = p.toString ∧
        record.size = text.utf8ByteSize ∧
        (Text.lines text).length =
          record.lines + if text = "" ∨ text.toList.getLast? = some '\n' then 1 else 0
    | .error fault t' => fault.Refuses p ∧ t.Clears p.parent t' := by
  have hwp := wp_replaceFileUnder mask p text t
  cases hr : replaceFileUnder mask p text t with
  | ok record t' =>
    obtain ⟨hreplaced, rfl⟩ := (wp_ok hr).1 hwp
    exact ⟨hreplaced, rfl, rfl, Text.length_lines text⟩
  | error fault t' => exact (wp_error hr).1 hwp

end Edit

end Scaffold
