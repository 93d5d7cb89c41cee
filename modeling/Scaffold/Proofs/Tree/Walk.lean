import Scaffold.Tree.Access

/-!
# Paths in a tree that grows

A walk asks for directories only, so it ends where it ended before in every tree that has at least
the same directories (`walk_mono`). Where it ends is fixed by the names alone (`locate_eq`): a path
leads to `p.resolveFrom t.home` or nowhere. `Grows` is what every edit of a run keeps (nothing that
stands goes away or becomes another kind of entry), `Extends` what a refused edit keeps (directories
may be new, nothing else changes).
-/

namespace Scaffold

namespace Path

/-- Follows components by name alone. -/
def follow (l : List String) (parts : List String) : List String :=
  parts.foldl (fun l part => if part = ".." then l.dropLast else l ++ [part]) l

theorem follow_append (l ps qs : List String) : follow l (ps ++ qs) = follow (follow l ps) qs :=
  List.foldl_append ..

theorem follow_of_not_climbs {l ps : List String} (h : ".." ∉ ps) : follow l ps = l ++ ps := by
  induction ps generalizing l with
  | nil => simp [follow]
  | cons part ps ih =>
    have hpart : part ≠ ".." := fun e => h (e ▸ List.mem_cons_self ..)
    rw [show follow l (part :: ps) = follow (l ++ [part]) ps from by simp [follow, hpart],
      ih fun hm => h (List.mem_cons_of_mem _ hm), List.append_assoc]
    rfl

end Path

namespace Tree
variable {t t' t'' : Tree} {p : Path} {k l m : Location} {ps qs : List String}

theorem ne_nil_of_entryAt (h : t.entryAt l ≠ some .directory) : l ≠ [] := by
  rintro rfl
  exact h (by simp [entryAt])

theorem entryAt_place_new (hl : t.entryAt l = none) (e : Entry) (k : Location) :
    (t.place l e).entryAt k = if k = l then some e else t.entryAt k :=
  entryAt_place t e k (ne_nil_of_entryAt (t := t) (by simp [hl]))

theorem walk_append (t : Tree) (l : Location) (ps qs : List String) :
    t.walk l (ps ++ qs) = (t.walk l ps).bind (t.walk · qs) := by
  induction ps generalizing l with
  | nil => rfl
  | cons part ps ih =>
    simp only [List.cons_append, walk]
    split
    · rfl
    · rfl
    · split
      · exact ih _
      · split
        · rfl
        · exact ih _

theorem walk_eq (h : t.walk l ps = .ok m) : m = Path.follow l ps := by
  induction ps generalizing l with
  | nil => cases h; rfl
  | cons part ps ih =>
    simp only [walk] at h
    split at h
    · cases h
    · cases h
    · split at h
      · next hpart => rw [ih h]; simp [Path.follow, hpart]
      · next hpart =>
        split at h
        · cases h
        · rw [ih h]; simp [Path.follow, hpart]

theorem walk_mono (hd : ∀ k, t.entryAt k = some .directory → t'.entryAt k = some .directory)
    (h : t.walk l ps = .ok m) : t'.walk l ps = .ok m := by
  induction ps generalizing l with
  | nil => exact h
  | cons part ps ih =>
    simp only [walk] at h
    split at h
    · cases h
    · cases h
    · next hl =>
      simp only [walk, hd l hl]
      split at h
      · next hpart => simp only [hpart, ↓reduceIte]; exact ih h
      · next hpart =>
        split at h
        · cases h
        · next hlen => simp only [hpart, hlen, ↓reduceIte]; exact ih h

theorem locate_eq (h : t.locate p = .ok l) : l = p.resolveFrom t.home :=
  walk_eq h

theorem find_eq_ok {e : Entry} : t.find p = .ok e ↔ ∃ l, t.locate p = .ok l ∧ t.entryAt l = some e := by
  unfold find
  cases hl : t.locate p with
  | error c => simp [bind, Except.bind]
  | ok l =>
    cases he : t.entryAt l with
    | none => simp [bind, Except.bind, he, throw, throwThe, MonadExceptOf.throw]
    | some e' => simp [bind, Except.bind, he, pure, Except.pure]

theorem find_eq_resolve {e : Entry} (h : t.find p = .ok e) :
    t.entryAt (p.resolveFrom t.home) = some e := by
  obtain ⟨l, hl, he⟩ := find_eq_ok.1 h
  rwa [← locate_eq hl]

theorem locate_of_find {e : Entry} (h : t.find p = .ok e) : t.locate p = .ok (p.resolveFrom t.home) := by
  obtain ⟨l, hl, -⟩ := find_eq_ok.1 h
  rw [hl, ← locate_eq hl]

/-- Nothing that stands in `t` is gone in `t'` or another kind of entry there. -/
structure Grows (t t' : Tree) : Prop where
  home : t'.home = t.home
  directory : ∀ l, t.entryAt l = some .directory → t'.entryAt l = some .directory
  file : ∀ l mode bytes, t.entryAt l = some (.file mode bytes) →
    ∃ mode' bytes', t'.entryAt l = some (.file mode' bytes')

namespace Grows

theorem refl (t : Tree) : t.Grows t :=
  ⟨rfl, fun _ h => h, fun _ mode bytes h => ⟨mode, bytes, h⟩⟩

theorem trans (h : t.Grows t') (h' : t'.Grows t'') : t.Grows t'' where
  home := h'.home.trans h.home
  directory l hl := h'.directory l (h.directory l hl)
  file l mode bytes hl := by
    obtain ⟨mode', bytes', hl'⟩ := h.file l mode bytes hl
    exact h'.file l mode' bytes' hl'

/-- Where nothing stands now, nothing stood before. -/
theorem entryAt_none (h : t.Grows t') (hl : t'.entryAt l = none) : t.entryAt l = none := by
  cases he : t.entryAt l with
  | none => rfl
  | some e =>
    cases e with
    | directory =>
      rw [h.directory l he] at hl
      cases hl
    | file mode bytes =>
      obtain ⟨mode', bytes', hfile⟩ := h.file l mode bytes he
      rw [hfile] at hl
      cases hl

theorem locate (h : t.Grows t') (hl : t.locate p = .ok l) : t'.locate p = .ok l := by
  unfold Tree.locate startOf at hl ⊢
  rw [h.home]
  exact walk_mono h.directory hl

theorem find_directory (h : t.Grows t') (hp : t.find p = .ok .directory) :
    t'.find p = .ok .directory := by
  obtain ⟨l, hl, he⟩ := find_eq_ok.1 hp
  exact find_eq_ok.2 ⟨l, h.locate hl, h.directory l he⟩

theorem find_file {mode : Nat} {bytes : ByteArray} (h : t.Grows t')
    (hp : t.find p = .ok (.file mode bytes)) : ∃ mode' bytes', t'.find p = .ok (.file mode' bytes') := by
  obtain ⟨l, hl, he⟩ := find_eq_ok.1 hp
  obtain ⟨mode', bytes', he'⟩ := h.file l mode bytes he
  exact ⟨mode', bytes', find_eq_ok.2 ⟨l, h.locate hl, he'⟩⟩

theorem find {e : Entry} (h : t.Grows t') (hp : t.find p = .ok e) : ∃ e', t'.find p = .ok e' := by
  cases e with
  | directory => exact ⟨_, h.find_directory hp⟩
  | file mode bytes =>
    obtain ⟨mode', bytes', hp'⟩ := h.find_file hp
    exact ⟨_, hp'⟩

end Grows

/-- Directories may be new in `t'`; all else is as in `t`. -/
structure Extends (t t' : Tree) : Prop where
  home : t'.home = t.home
  entry : ∀ l, t'.entryAt l = t.entryAt l ∨ t.entryAt l = none ∧ t'.entryAt l = some .directory

namespace Extends

theorem refl (t : Tree) : t.Extends t :=
  ⟨rfl, fun _ => .inl rfl⟩

theorem trans (h : t.Extends t') (h' : t'.Extends t'') : t.Extends t'' where
  home := h'.home.trans h.home
  entry l := by
    rcases h'.entry l with e' | ⟨n', d'⟩
    · rw [e']; exact h.entry l
    · rcases h.entry l with e | ⟨n, -⟩
      · exact .inr ⟨e ▸ n', d'⟩
      · exact .inr ⟨n, d'⟩

theorem of_some {e : Entry} (h : t.Extends t') (hl : t.entryAt l = some e) : t'.entryAt l = some e := by
  rcases h.entry l with e' | ⟨n, -⟩
  · rw [e', hl]
  · rw [n] at hl; cases hl

theorem file_iff {mode : Nat} {bytes : ByteArray} (h : t.Extends t') :
    t'.entryAt l = some (.file mode bytes) ↔ t.entryAt l = some (.file mode bytes) := by
  rcases h.entry l with e | ⟨n, d⟩
  · rw [e]
  · simp [n, d]

theorem grows (h : t.Extends t') : t.Grows t' :=
  ⟨h.home, fun _ => h.of_some, fun _ mode bytes hl => ⟨mode, bytes, h.of_some hl⟩⟩

theorem find {e : Entry} (h : t.Extends t') (hp : t.find p = .ok e) : t'.find p = .ok e := by
  obtain ⟨l, hl, he⟩ := find_eq_ok.1 hp
  exact find_eq_ok.2 ⟨l, h.grows.locate hl, h.of_some he⟩

end Extends

theorem extends_place (hl : t.entryAt l = none) : t.Extends (t.place l .directory) where
  home := rfl
  entry k := by
    rw [entryAt_place_new hl]
    split
    · next hk => exact .inr ⟨hk ▸ hl, rfl⟩
    · exact .inl rfl

/-- The path leads to the file that stands where its names lead, if one does. A path fails to where
one of its `..` leaves a directory that does not stand. -/
def Reaches (t : Tree) (p : Path) : Prop :=
  ∀ mode bytes, t.entryAt (p.resolveFrom t.home) = some (.file mode bytes) →
    t.find p = .ok (.file mode bytes)

theorem reaches_of_find {e : Entry} (h : t.find p = .ok e) : t.Reaches p := fun mode bytes hentry => by
  rw [find_eq_resolve h, Option.some.injEq] at hentry
  rw [h, hentry]

end Tree

end Scaffold
