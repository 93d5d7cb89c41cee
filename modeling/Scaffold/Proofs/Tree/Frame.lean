import Scaffold.Proofs.Tree.Read

/-!
# What becomes of a tree

`Frame t₀ may fresh t`: nothing that stood in `t₀` is gone in `t`, only some files may have changed and
only at some places there are new ones. Replacing a file, creating directories and making an empty
file keep it.
-/

namespace Scaffold

/-- What becomes of the tree `t₀`: files that may be written have other contents, and there are new
directories and new files. -/
structure Frame (t₀ : Tree) (may fresh : Location → Prop) (t : Tree) : Prop where
  grows : t₀.Grows t
  kept : ∀ l mode bytes, t₀.entryAt l = some (.file mode bytes) → ¬ may l →
    t.entryAt l = some (.file mode bytes)
  fresh : ∀ l mode bytes, t.entryAt l = some (.file mode bytes) →
    (∃ mode bytes, t₀.entryAt l = some (.file mode bytes)) ∨ fresh l
  /-- All that was written is text. -/
  text : ∀ l mode bytes, t.entryAt l = some (.file mode bytes) →
    t₀.entryAt l = some (.file mode bytes) ∨ ∃ s : String, bytes = s.toUTF8

variable {t₀ t t' : Tree} {may fresh : Location → Prop} {p : Path} {text : String} {l : Location}

namespace Frame

theorem refl (t₀ : Tree) (may fresh : Location → Prop) : Frame t₀ may fresh t₀ where
  grows := .refl t₀
  kept _ _ _ h _ := h
  fresh _ mode bytes h := .inl ⟨mode, bytes, h⟩
  text _ _ _ h := .inl h

theorem trans {may' fresh' : Location → Prop} (h : Frame t₀ may fresh t) (h' : Frame t may' fresh' t')
    (hmay : ∀ l, may' l → may l) (hfresh : ∀ l, fresh' l → fresh l) : Frame t₀ may fresh t' where
  grows := h.grows.trans h'.grows
  kept l mode bytes h₀ hm := h'.kept l mode bytes (h.kept l mode bytes h₀ hm) fun hm' => hm (hmay l hm')
  fresh l mode bytes hl := by
    rcases h'.fresh l mode bytes hl with ⟨mode', bytes', hl'⟩ | hnew
    · exact h.fresh l mode' bytes' hl'
    · exact .inr (hfresh l hnew)
  text l mode bytes hl := by
    rcases h'.text l mode bytes hl with hl' | htext
    · exact h.text l mode bytes hl'
    · exact .inr htext

theorem of_extends (h : Frame t₀ may fresh t) (he : t.Extends t') : Frame t₀ may fresh t' where
  grows := h.grows.trans he.grows
  kept l mode bytes h₀ hm := he.file_iff.2 (h.kept l mode bytes h₀ hm)
  fresh l mode bytes h' := h.fresh l mode bytes (he.file_iff.1 h')
  text l mode bytes h' := h.text l mode bytes (he.file_iff.1 h')

theorem put (h : Frame t₀ may fresh t) {mode' : Nat} (hhome : t'.home = t.home)
    (hbefore : t.entryAt l ≠ some .directory) (hl : t'.entryAt l = some (.file mode' text.toUTF8))
    (hentry : ∀ k, k ≠ l → t'.entryAt k = t.entryAt k ∨ t.entryAt k = none ∧ t'.entryAt k = some .directory)
    (hmay : ∀ mode bytes, t₀.entryAt l = some (.file mode bytes) → may l) (hfresh : fresh l) :
    Frame t₀ may fresh t' := by
  have hkeep : ∀ k e, k ≠ l → t.entryAt k = some e → t'.entryAt k = some e := fun k e hk he => by
    rcases hentry k hk with h' | ⟨hn, -⟩
    · rw [h', he]
    · rw [hn] at he; cases he
  have hback : ∀ k mode bytes, k ≠ l → t'.entryAt k = some (.file mode bytes) →
      t.entryAt k = some (.file mode bytes) := fun k mode bytes hk he => by
    rcases hentry k hk with h' | ⟨-, hd⟩
    · rw [← h', he]
    · rw [hd] at he; cases he
  constructor
  · refine ⟨hhome.trans h.grows.home, fun k hk => ?_, fun k mode bytes hk => ?_⟩
    · have hd := h.grows.directory k hk
      exact hkeep k _ (fun e => hbefore (e ▸ hd)) hd
    · by_cases hkl : k = l
      · exact ⟨mode', _, hkl ▸ hl⟩
      · obtain ⟨mode₁, bytes₁, h₁⟩ := h.grows.file k mode bytes hk
        exact ⟨mode₁, bytes₁, hkeep k _ hkl h₁⟩
  · intro k mode bytes hk hm
    exact hkeep k _ (fun e => hm (e ▸ hmay mode bytes (e ▸ hk))) (h.kept k mode bytes hk hm)
  · intro k mode bytes hk
    by_cases hkl : k = l
    · exact .inr (hkl ▸ hfresh)
    · exact h.fresh k mode bytes (hback k mode bytes hkl hk)
  · intro k mode bytes hk
    by_cases hkl : k = l
    · rw [hkl, hl] at hk
      cases hk
      exact .inr ⟨text, rfl⟩
    · exact h.text k mode bytes (hback k mode bytes hkl hk)

theorem of_replaced (h : Frame t₀ may fresh t) (hr : Edit.Replaced t p text t')
    (hmay : ∀ mode bytes, t₀.entryAt (p.resolveFrom t₀.home) = some (.file mode bytes) →
      may (p.resolveFrom t₀.home))
    (hfresh : fresh (p.resolveFrom t₀.home)) : Frame t₀ may fresh t' := by
  rw [← h.grows.home] at hmay hfresh
  have hfind := Tree.find_eq_resolve hr.find
  rw [hr.home] at hfind
  exact h.put hr.home hr.before hfind hr.entry hmay hfresh

theorem of_place (h : Frame t₀ may fresh t) (hl : t.entryAt l = none) (hfresh : fresh l) :
    Frame t₀ may fresh (t.place l (.file Edit.newFileMode .empty)) := by
  have hplace := Tree.entryAt_place_new hl (.file Edit.newFileMode .empty)
  have hat : (t.place l (.file Edit.newFileMode .empty)).entryAt l =
      some (.file Edit.newFileMode "".toUTF8) := by rw [hplace, if_pos rfl]; rfl
  refine h.put rfl (by rw [hl]; simp) hat (fun k hk => .inl (by rw [hplace, if_neg hk]))
    (fun mode bytes h₀ => ?_) hfresh
  obtain ⟨mode', bytes', h'⟩ := h.grows.file l mode bytes h₀
  rw [hl] at h'
  cases h'

/-- Where no file may be written and none be made, the files are as at first. -/
theorem file_iff (h : Frame t₀ may fresh t) (hm : ¬ may l) (hf : ¬ fresh l) {mode : Nat}
    {bytes : ByteArray} :
    t.entryAt l = some (.file mode bytes) ↔ t₀.entryAt l = some (.file mode bytes) := by
  constructor
  · intro hl
    obtain ⟨mode₀, bytes₀, h₀⟩ := (h.fresh l mode bytes hl).resolve_right hf
    have hkept := h.kept l mode₀ bytes₀ h₀ hm
    rw [hl] at hkept
    rw [hkept, h₀]
  · exact fun hl => h.kept l mode bytes hl hm

/-- A file is as at first, or stands where one may be written or made. -/
theorem changed (h : Frame t₀ may fresh t) {mode : Nat} {bytes : ByteArray}
    (hl : t.entryAt l = some (.file mode bytes)) :
    t₀.entryAt l = some (.file mode bytes) ∨ may l ∨ fresh l := by
  by_cases hm : may l
  · exact .inr (.inl hm)
  by_cases hf : fresh l
  · exact .inr (.inr hf)
  exact .inl ((h.file_iff hm hf).1 hl)

theorem readText (h : Frame t₀ may fresh t) (hm : ¬ may (p.resolveFrom t₀.home))
    (hr : t₀.readText p = .ok text) : t.readText p = .ok text := by
  obtain ⟨mode, bytes, s, hn, hf, hs⟩ := Tree.readText_eq_ok.1 hr
  have hkept := h.kept _ mode bytes (Tree.find_eq_resolve hf) hm
  exact Tree.readText_eq_ok.2
    ⟨mode, bytes, s, hn, Tree.find_eq_ok.2 ⟨_, h.grows.locate (Tree.locate_of_find hf), hkept⟩, hs⟩

/-- All that was written is text, so what is no text stood there at first. -/
theorem garbled (h : Frame t₀ may fresh t) (hp : t.Garbled p) : t₀.Garbled p := by
  obtain ⟨mode, bytes, hentry, hs⟩ := hp
  rw [h.grows.home] at hentry
  rcases h.text _ mode bytes hentry with h₀ | ⟨s, rfl⟩
  · exact ⟨mode, bytes, h₀, hs⟩
  · rw [Tree.fromUTF8?_toUTF8] at hs
    cases hs

theorem readable (h : Frame t₀ may fresh t)
    (htext : ∀ mode bytes, t₀.entryAt (p.resolveFrom t₀.home) = some (.file mode bytes) →
      (String.fromUTF8? bytes).isSome = true)
    (hp : t.isFile p = .ok true) : ∃ text, t.readText p = .ok text := by
  obtain ⟨mode, bytes, hn, hf⟩ := Tree.isFile_eq_true.1 hp
  cases hs : String.fromUTF8? bytes with
  | some s => exact ⟨_, Tree.readText_eq_ok.2 ⟨mode, bytes, s, hn, hf, hs, rfl⟩⟩
  | none =>
    obtain ⟨mode₀, bytes₀, h₀, hs₀⟩ := h.garbled ⟨mode, bytes, Tree.find_eq_resolve hf, hs⟩
    have hsome := htext mode₀ bytes₀ h₀
    rw [hs₀] at hsome
    cases hsome

end Frame

end Scaffold
