import Scaffold.Proofs.Tree.Frame
import Scaffold.Template.Renderer

/-!
# Finding a template

The first of its places where a file stands decides on a template (`Renderer.wp_render`). While a run
goes on, a place where a file stands keeps one, so a template that was found once is found ever after
(`Renderer.render_ok`). It is the same template as long as no other place gets a file
(`Frame.firstFile`).
-/

namespace Scaffold
variable {t t' : Tree} {p q : Path} {l : Location} {text : String}

namespace Tree

theorem walk_error {ps : List String} {c : Errno} (h : t.walk l ps = .error c) :
    c = .noEntry ∨ c = .notDirectory ∨ ∃ part ∈ ps, nameLimit < part.utf8ByteSize := by
  induction ps generalizing l with
  | nil => cases h
  | cons part ps ih =>
    simp only [walk] at h
    split at h
    · cases h; exact .inl rfl
    · cases h; exact .inr (.inl rfl)
    · have hrest : ∀ m, t.walk m ps = .error c → c = .noEntry ∨ c = .notDirectory ∨
          ∃ part' ∈ part :: ps, nameLimit < part'.utf8ByteSize := fun m hm => by
        rcases ih hm with hc | hc | ⟨part', hp, hlong⟩
        · exact .inl hc
        · exact .inr (.inl hc)
        · exact .inr (.inr ⟨part', List.mem_cons_of_mem _ hp, hlong⟩)
      split at h
      · exact hrest _ h
      · split at h
        · next hlong => exact .inr (.inr ⟨part, List.mem_cons_self .., hlong⟩)
        · exact hrest _ h

/-- No component is too long for a file name. -/
def Short (p : Path) : Prop :=
  ∀ part ∈ p.parts, part.utf8ByteSize ≤ nameLimit

instance (p : Path) : Decidable (Short p) :=
  inferInstanceAs (Decidable (∀ part ∈ p.parts, part.utf8ByteSize ≤ nameLimit))

theorem look_ok (h : ∀ c, t.locate p = .error c → c = .noEntry ∨ c = .notDirectory) :
    ∃ e, t.look p = .ok e := by
  unfold look
  split
  · exact ⟨_, rfl⟩
  · cases hl : t.locate p with
    | error c =>
      have hf : t.find p = .error c := by simp [find, hl, bind, Except.bind]
      rw [hf]
      rcases h c hl with rfl | rfl
      · exact ⟨_, rfl⟩
      · exact ⟨_, rfl⟩
    | ok l =>
      cases he : t.entryAt l with
      | none =>
        have hf : t.find p = .error .noEntry := by
          simp [find, hl, he, bind, Except.bind, throw, throwThe, MonadExceptOf.throw]
        rw [hf]
        exact ⟨_, rfl⟩
      | some e =>
        rw [find_eq_ok.2 ⟨l, hl, he⟩]
        exact ⟨_, rfl⟩

theorem look_ok_of_short (hp : Short p) (t : Tree) : ∃ e, t.look p = .ok e :=
  look_ok fun c hc => by
    rcases walk_error hc with h | h | ⟨part, hpart, hlong⟩
    · exact .inl h
    · exact .inr h
    · exact absurd (hp part hpart) (Nat.not_le.2 hlong)

theorem isFile_ok (hp : Short p) (t : Tree) : ∃ there, t.isFile p = .ok there := by
  obtain ⟨e, he⟩ := look_ok_of_short hp t
  exact ⟨_, by rw [isFile, he]; rfl⟩

theorem isDirectory_ok (hp : Short p) (t : Tree) : ∃ there, t.isDirectory p = .ok there := by
  obtain ⟨e, he⟩ := look_ok_of_short hp t
  exact ⟨_, by rw [isDirectory, he]; rfl⟩

theorem stands_ok (hp : Short p) (t : Tree) : ∃ there, t.stands p = .ok there := by
  obtain ⟨e, he⟩ := look_ok_of_short hp t
  exact ⟨_, by rw [stands, he]; rfl⟩

namespace Grows

theorem isFile (h : t.Grows t') (hp : t.isFile p = .ok true) : t'.isFile p = .ok true := by
  obtain ⟨mode, bytes, hn, hf⟩ := isFile_eq_true.1 hp
  obtain ⟨mode', bytes', hf'⟩ := h.find_file hf
  exact isFile_eq_true.2 ⟨mode', bytes', hn, hf'⟩

theorem stands (h : t.Grows t') (hp : t.stands p = .ok true) : t'.stands p = .ok true := by
  obtain ⟨e, hn, hf⟩ := stands_eq_true.1 hp
  obtain ⟨e', hf'⟩ := h.find hf
  exact stands_eq_true.2 ⟨e', hn, hf'⟩

end Grows

end Tree

namespace Renderer
variable {ps : List Path} {r : Renderer} {id : String} {subs : List (String × String)} {w : Workspace}

/-- The places where a template is looked for, in order. -/
def places (r : Renderer) (id : String) : List Path :=
  r.roots.map (· / id)

theorem firstFile?_cons {there : Bool} (h : t.isFile p = .ok there) :
    firstFile? t (p :: ps) = if there then .ok (some p) else firstFile? t ps := by
  simp only [firstFile?, h, bind, Except.bind]
  rfl

theorem firstFile?_some (h : firstFile? t ps = .ok (some q)) : q ∈ ps ∧ t.isFile q = .ok true := by
  induction ps with
  | nil => cases h
  | cons p ps ih =>
    cases hp : t.isFile p with
    | error f => simp [firstFile?, hp, bind, Except.bind] at h
    | ok there =>
      rw [firstFile?_cons hp] at h
      cases there with
      | true => cases h; exact ⟨List.mem_cons_self .., hp⟩
      | false => exact ⟨List.mem_cons_of_mem _ (ih h).1, (ih h).2⟩

theorem firstFile?_exists (hshort : ∀ p ∈ ps, Tree.Short p) (hq : q ∈ ps) (hfile : t.isFile q = .ok true) :
    ∃ q', firstFile? t ps = .ok (some q') := by
  induction ps with
  | nil => cases hq
  | cons p ps ih =>
    obtain ⟨there, hp⟩ := Tree.isFile_ok (hshort p (List.mem_cons_self ..)) t
    rw [firstFile?_cons hp]
    cases there with
    | true => exact ⟨p, rfl⟩
    | false =>
      rcases List.mem_cons.1 hq with rfl | hq
      · rw [hp] at hfile; cases hfile
      · exact ih (fun p hp => hshort p (List.mem_cons_of_mem _ hp)) hq

/-- The search ends at the same place where the same places have a file. -/
theorem firstFile?_congr (h : ∀ p ∈ ps, t'.isFile p = t.isFile p) : firstFile? t' ps = firstFile? t ps := by
  induction ps with
  | nil => rfl
  | cons p ps ih =>
    simp only [firstFile?, h p (List.mem_cons_self ..), ih fun p hp => h p (List.mem_cons_of_mem _ hp)]

theorem firstFile?_error {f : Fault} (h : firstFile? t ps = .error f) : ∃ e, f = .os e := by
  induction ps with
  | nil => cases h
  | cons p ps ih =>
    cases hp : t.isFile p with
    | error f' =>
      simp only [firstFile?, hp, bind, Except.bind] at h
      cases h
      exact Tree.isFile_error hp
    | ok there =>
      rw [firstFile?_cons hp] at h
      cases there with
      | true => cases h
      | false => exact ih h

/-- A template is missing, or the file system refuses a look at its places, or its file is not text. -/
def Lacks (r : Renderer) (t : Tree) (id : String) (f : Fault) : Prop :=
  (∃ searched, f = .templateMissing id searched) ∨ (∃ e, f = .os e) ∨
    f = .notUtf8 ∧ ∃ q ∈ r.places id, t.Garbled q

theorem lacks_of_readText {f : Fault} (hf : firstFile? t (r.places id) = .ok (some q))
    (h : t.readText q = .error f) : r.Lacks t id f := by
  obtain ⟨hmem, hfile⟩ := firstFile?_some hf
  obtain ⟨mode, bytes, hn, -⟩ := Tree.isFile_eq_true.1 hfile
  rcases Tree.readText_error h with (⟨-, hnull⟩ | hos) | ⟨rfl, hgarbled⟩
  · rw [hn] at hnull
    cases hnull
  · exact .inr (.inl hos)
  · exact .inr (.inr ⟨rfl, q, hmem, hgarbled⟩)

/-- A template that is rendered was found, and is remembered or read there. -/
inductive Rendered (r : Renderer) (id : String) (subs : List (String × String)) (w : Workspace) :
    String → Workspace → Prop where
  | found {q : Path} {text : String} {w' : Workspace} (tree : w'.tree = w.tree)
      (first : firstFile? w.tree (r.places id) = .ok (some q))
      (source : w.cache.lookup q = some text ∧ w'.cache = w.cache ∨
        w.tree.readText q = .ok text ∧ w'.cache = (q, text) :: w.cache) :
      Rendered r id subs w (Template.fill text subs) w'

theorem Rendered.tree {content : String} {w' : Workspace} (h : r.Rendered id subs w content w') :
    w'.tree = w.tree := by
  cases h with
  | found tree => exact tree

/-- A template is looked for without a change, and found at the first place where a file stands. -/
theorem wp_file (r : Renderer) (id : String) (w : Workspace) :
    wp (r.file id) (fun q w' => Same w w' ∧ firstFile? w.tree (r.places id) = .ok (some q))
      (fun f w' => Same w w' ∧ (firstFile? w.tree (r.places id) = .error f ∨
        firstFile? w.tree (r.places id) = .ok none ∧ ∃ searched, f = .templateMissing id searched)) w := by
  unfold file
  simp only [wp_bind, wp_look, show r.roots.map (· / id) = r.places id from rfl]
  cases hf : firstFile? w.tree (r.places id) with
  | error f => exact ⟨⟨rfl, rfl⟩, .inl rfl⟩
  | ok found =>
    cases found with
    | none => exact (wp_throw _).2 ⟨⟨rfl, rfl⟩, .inr ⟨rfl, _, rfl⟩⟩
    | some q =>
      simp only [wp_bind, wp_say, wp_pure]
      exact ⟨⟨rfl, rfl⟩, trivial⟩

theorem wp_render (r : Renderer) (id : String) (subs : List (String × String)) (w : Workspace) :
    wp (r.render id subs) (Rendered r id subs w) (fun f w' => Same w w' ∧ r.Lacks w.tree id f) w := by
  unfold render Renderer.text
  simp only [wp_bind]
  refine wp_mono (r.wp_file id w) ?_ ?_
  · rintro q w₁ ⟨⟨htree, hcache⟩, hf⟩
    rw [wp_get, hcache]
    cases hc : w.cache.lookup q with
    | some text => exact (wp_pure _).2 ((wp_pure _).2 (.found htree hf (.inl ⟨hc, hcache⟩)))
    | none =>
      simp only [wp_bind, wp_look, htree]
      cases hr : w.tree.readText q with
      | error f => exact ⟨⟨htree, hcache⟩, lacks_of_readText hf hr⟩
      | ok text =>
        show wp (modify _) _ _ _
        rw [wp_modify, wp_pure, wp_pure]
        exact .found htree hf (.inr ⟨hr, congrArg ((q, text) :: ·) hcache⟩)
  · rintro f w₁ ⟨hsame, hf | ⟨-, hmissing⟩⟩
    · exact ⟨hsame, .inr (.inl (firstFile?_error hf))⟩
    · exact ⟨hsame, .inl hmissing⟩

/-- A template with a readable file at one of its places is rendered. -/
theorem render_ok (hshort : ∀ p ∈ r.places id, Tree.Short p)
    (htext : ∀ p ∈ r.places id, w.tree.isFile p = .ok true → ∃ text, w.tree.readText p = .ok text)
    (hq : q ∈ r.places id) (hfile : w.tree.isFile q = .ok true) :
    wp (r.render id subs) (fun _ w' => w'.tree = w.tree) (fun _ _ => False) w := by
  obtain ⟨q', hfirst⟩ := firstFile?_exists hshort hq hfile
  obtain ⟨hmem, hfile'⟩ := firstFile?_some hfirst
  obtain ⟨text, hread⟩ := htext q' hmem hfile'
  unfold render Renderer.text
  simp only [wp_bind]
  refine wp_mono (r.wp_file id w) ?_ ?_
  · rintro q'' w₁ ⟨⟨htree, hcache⟩, hf⟩
    rw [hfirst] at hf
    cases hf
    rw [wp_get]
    cases w₁.cache.lookup q' with
    | some text => exact (wp_pure _).2 ((wp_pure _).2 htree)
    | none => simp only [wp_bind, wp_look, htree, hread, wp_modify, wp_pure]
  · rintro f w₁ ⟨-, hf | ⟨hf, -⟩⟩ <;> rw [hfirst] at hf <;> cases hf

end Renderer

namespace Frame
variable {t₀ : Tree} {may fresh : Location → Prop} {ps : List Path}

/-- Where no file may be made and none is hidden, a file stands if and only if one stood at first. -/
theorem isFile (h : Frame t₀ may fresh t) (hshort : Tree.Short p) (hreach : t₀.Reaches p)
    (hfree : ¬ fresh (p.resolveFrom t₀.home)) : t.isFile p = t₀.isFile p := by
  obtain ⟨there₀, h₀⟩ := Tree.isFile_ok hshort t₀
  obtain ⟨there, ht⟩ := Tree.isFile_ok hshort t
  have hback : there = true → there₀ = true := by
    rintro rfl
    obtain ⟨mode, bytes, hn, hf⟩ := Tree.isFile_eq_true.1 ht
    have hentry := Tree.find_eq_resolve hf
    rw [h.grows.home] at hentry
    rcases h.fresh _ mode bytes hentry with ⟨mode₀, bytes₀, hstood⟩ | hnew
    · have hfile := Tree.isFile_eq_true.2 ⟨mode₀, bytes₀, hn, hreach mode₀ bytes₀ hstood⟩
      rw [h₀] at hfile
      exact Except.ok.inj hfile
    · exact absurd hnew hfree
  have hforth : there₀ = true → there = true := by
    rintro rfl
    have hfile := h.grows.isFile h₀
    rw [ht] at hfile
    exact Except.ok.inj hfile
  rw [h₀, ht]
  cases there <;> cases there₀ <;> simp_all

/-- A template is found where it was found at first. -/
theorem firstFile (h : Frame t₀ may fresh t) (hshort : ∀ p ∈ ps, Tree.Short p)
    (hreach : ∀ p ∈ ps, t₀.Reaches p) (hfree : ∀ p ∈ ps, ¬ fresh (p.resolveFrom t₀.home)) :
    Renderer.firstFile? t ps = Renderer.firstFile? t₀ ps :=
  Renderer.firstFile?_congr fun p hp => h.isFile (hshort p hp) (hreach p hp) (hfree p hp)

end Frame

end Scaffold
