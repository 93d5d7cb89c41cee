import Scaffold.Proofs.Text.ReadBack
import Scaffold.Proofs.Tree.Replace

/-!
# What is read at a path

The questions of `Tree.look`, turned into what `find` says, and the round trip of a text: a file that
was replaced is read as the text that was written, with all its line ends as newlines
(`readText_of_replaced`).
-/

namespace Scaffold.Tree
variable {t t' : Tree} {p : Path} {text : String}

@[simp] theorem fromUTF8?_toUTF8 (s : String) : String.fromUTF8? s.toUTF8 = some s := by
  unfold String.fromUTF8?
  exact dif_pos s.isValidUTF8

theorem look_eq_some {e : Entry} :
    t.look p = .ok (some e) ↔ hasNull p = false ∧ t.find p = .ok e := by
  unfold look
  split
  · next h => simp [h]
  · next h =>
    split <;> simp_all

theorem stands_eq_true : t.stands p = .ok true ↔ ∃ e, hasNull p = false ∧ t.find p = .ok e := by
  simp only [← look_eq_some]
  unfold stands
  cases t.look p with
  | error f => simp [Except.map]
  | ok e => cases e <;> simp [Except.map]

theorem isFile_eq_true :
    t.isFile p = .ok true ↔ ∃ mode bytes, hasNull p = false ∧ t.find p = .ok (.file mode bytes) := by
  simp only [← look_eq_some]
  unfold isFile
  cases t.look p with
  | error f => simp [Except.map]
  | ok e => rcases e with _ | _ | ⟨mode, bytes⟩ <;> simp [Except.map]

theorem readText_eq_ok : t.readText p = .ok text ↔ ∃ mode bytes s, hasNull p = false ∧
    t.find p = .ok (.file mode bytes) ∧ String.fromUTF8? bytes = some s ∧
      .ofList (Text.unifyNewlines s.toList) = text := by
  unfold readText readBytes
  by_cases hn : hasNull p = true
  · simp [hn, bind, Except.bind]
  cases hf : t.find p with
  | error c => simp [hn, bind, Except.bind]
  | ok e =>
    cases e with
    | directory => simp [hn, bind, Except.bind]
    | file mode bytes =>
      cases hs : String.fromUTF8? bytes <;>
        simp [bind, Except.bind, pure, Except.pure, throw, throwThe, MonadExceptOf.throw, hs, hn]

theorem readText_of_find {mode : Nat} (hn : hasNull p = false) (hf : t.find p = .ok (.file mode text.toUTF8))
    (hr : '\r' ∉ text.toList) : t.readText p = .ok text :=
  readText_eq_ok.2 ⟨mode, _, text, hn, hf, fromUTF8?_toUTF8 text, by
    rw [Text.unifyNewlines_of_notMem hr, String.ofList_toList]⟩

theorem stands_of_readText (h : t.readText p = .ok text) : t.stands p = .ok true := by
  obtain ⟨mode, bytes, -, hn, hf, -⟩ := readText_eq_ok.1 h
  exact stands_eq_true.2 ⟨_, hn, hf⟩

theorem isFile_of_readText (h : t.readText p = .ok text) : t.isFile p = .ok true := by
  obtain ⟨mode, bytes, -, hn, hf, -⟩ := readText_eq_ok.1 h
  exact isFile_eq_true.2 ⟨mode, bytes, hn, hf⟩

theorem reaches_of_readText (h : t.readText p = .ok text) : t.Reaches p := by
  obtain ⟨mode, bytes, -, -, hf, -⟩ := readText_eq_ok.1 h
  exact reaches_of_find hf

theorem look_error {f : Fault} (h : t.look p = .error f) : ∃ e, f = .os e := by
  unfold look at h
  split at h
  · cases h
  · split at h <;> cases h
    exact ⟨_, rfl⟩

theorem map_look_error {α : Type} {g : Option Entry → α} {f : Fault} (h : (t.look p).map g = .error f) :
    ∃ e, f = .os e := by
  cases hl : t.look p with
  | ok e => rw [hl] at h; cases h
  | error f' => rw [hl] at h; cases h; exact look_error hl

theorem stands_error {f : Fault} (h : t.stands p = .error f) : ∃ e, f = .os e :=
  map_look_error h

theorem isFile_error {f : Fault} (h : t.isFile p = .error f) : ∃ e, f = .os e :=
  map_look_error h

theorem isDirectory_error {f : Fault} (h : t.isDirectory p = .error f) : ∃ e, f = .os e :=
  map_look_error h

/-- A file stands at the path that is not text. -/
def Garbled (t : Tree) (p : Path) : Prop :=
  ∃ mode bytes, t.entryAt (p.resolveFrom t.home) = some (.file mode bytes) ∧ String.fromUTF8? bytes = none

theorem not_garbled_of_none (h : t.entryAt (p.resolveFrom t.home) = none) : ¬ t.Garbled p := by
  rintro ⟨mode, bytes, hentry, -⟩
  rw [h] at hentry
  cases hentry

theorem not_garbled_of_readText (h : t.readText p = .ok text) : ¬ t.Garbled p := by
  obtain ⟨mode, bytes, s, -, hf, hs, -⟩ := readText_eq_ok.1 h
  rintro ⟨mode', bytes', hentry, hnone⟩
  rw [find_eq_resolve hf] at hentry
  cases hentry
  rw [hnone] at hs
  cases hs

theorem readText_error {f : Fault} (h : t.readText p = .error f) :
    f.Refuses p ∨ f = .notUtf8 ∧ t.Garbled p := by
  unfold readText readBytes at h
  by_cases hn : hasNull p = true
  · simp only [hn, ↓reduceIte, bind, Except.bind] at h
    cases h
    exact .inl (.inl ⟨rfl, hn⟩)
  simp only [hn, Bool.false_eq_true, ↓reduceIte, bind, Except.bind] at h
  cases hf : t.find p with
  | error c => rw [hf] at h; cases h; exact .inl (.inr ⟨_, rfl⟩)
  | ok e =>
    cases e with
    | directory => rw [hf] at h; cases h; exact .inl (.inr ⟨_, rfl⟩)
    | file mode bytes =>
      simp only [hf] at h
      split at h
      · cases h
      · next hs => cases h; exact .inr ⟨rfl, mode, bytes, find_eq_resolve hf, hs⟩

theorem notMem_of_readText (h : t.readText p = .ok text) : '\r' ∉ text.toList := by
  obtain ⟨-, -, s, -, -, -, rfl⟩ := readText_eq_ok.1 h
  rw [String.toList_ofList]
  exact Text.notMem_unifyNewlines s.toList

theorem readText_of_replaced (h : Edit.Replaced t p text t') :
    t'.readText p = .ok (.ofList (Text.unifyNewlines text.toList)) :=
  readText_eq_ok.2 ⟨_, _, text, h.noNull, h.find, fromUTF8?_toUTF8 text, rfl⟩

theorem readText_of_extends (h : t.Extends t') (hr : t.readText p = .ok text) : t'.readText p = .ok text := by
  obtain ⟨mode, bytes, s, hn, hf, hs⟩ := readText_eq_ok.1 hr
  exact readText_eq_ok.2 ⟨mode, bytes, s, hn, h.find hf, hs⟩

end Scaffold.Tree
