import Scaffold.Proofs.Run.Lookup

/-!
# What a renderer remembers

Where a template is looked for is decided anew at every load (`Renderer.Finds`), while the text of a file is kept from
the first load that read it. `Renderer.run_served` says so of every sequence of loads between which the files change in
any way: each load answers with the text that the file it finds had at the first load that read this file.
-/

namespace Scaffold
variable {t : Tree} {p q : Path} {id text : String} {w w' : Workspace}

namespace Tree

theorem cause_of_walk {l : Location} {parts : List String} {c : Errno} (h : t.walk l parts = .error c) :
    c = .noEntry ∨ c = .notDirectory ∨ c = .nameTooLong := by
  induction parts generalizing l with
  | nil => cases h
  | cons part parts ih =>
    simp only [walk] at h
    split at h
    · cases h; exact .inl rfl
    · cases h; exact .inr (.inl rfl)
    · split at h
      · exact ih h
      · split at h
        · cases h; exact .inr (.inr rfl)
        · exact ih h

theorem cause_of_find {c : Errno} (h : t.find p = .error c) : c = .noEntry ∨ c = .notDirectory ∨ c = .nameTooLong := by
  unfold find at h
  cases hl : t.locate p with
  | error c' =>
    rw [hl] at h
    cases h
    exact cause_of_walk hl
  | ok l =>
    rw [hl] at h
    simp only [bind, Except.bind] at h
    split at h <;> cases h
    exact .inl rfl

/-- The only question about a file that is not answered is one under a name that is too long. -/
theorem long_of_isFile_error {f : Fault} (h : t.isFile p = .error f) : f = refusal .nameTooLong p ∧ ¬ Short p := by
  refine ⟨?_, fun hshort => ?_⟩
  · unfold isFile look at h
    split at h
    · cases h
    · split at h
      · cases h
      · cases h
      · cases h
      · next cause hnoEntry hnotDirectory hfind =>
        cases h
        rcases cause_of_find hfind with rfl | rfl | rfl
        · exact absurd rfl hnoEntry
        · exact absurd rfl hnotDirectory
        · rfl
  · obtain ⟨there, hthere⟩ := isFile_ok hshort t
    rw [h] at hthere
    cases hthere

end Tree

namespace Renderer

/-- What the search for a template comes to: the first of its places where a file stands, a fault that lists the places
if there is none, or the fault of a place before it that cannot be asked. -/
inductive Finds (r : Renderer) (t : Tree) (id : String) : Except Fault Path → Prop
  | file {before behind : List Path} {p : Path} (places : r.places id = before ++ p :: behind)
      (none : ∀ q ∈ before, t.isFile q = .ok false) (there : t.isFile p = .ok true) : Finds r t id (.ok p)
  | missing (none : ∀ q ∈ r.places id, t.isFile q = .ok false) :
      Finds r t id (.error (.templateMissing id ((r.places id).map Path.toString)))
  | unasked {before behind : List Path} {p : Path} (places : r.places id = before ++ p :: behind)
      (none : ∀ q ∈ before, t.isFile q = .ok false) (long : ¬ Tree.Short p)
      (refused : t.isFile p = .error (Tree.refusal .nameTooLong p)) :
      Finds r t id (.error (Tree.refusal .nameTooLong p))

/-- What goes on while a renderer is in use: files are created, changed or deleted, and templates are loaded. -/
inductive Event where
  | files (t : Tree)
  | load (id : String)

/-- A load, the files at that moment, and what came of it. -/
structure Load where
  id : String
  tree : Tree
  outcome : Except Fault String

/-- The loads among some events, whatever comes of each. -/
def run (r : Renderer) : List Event → Workspace → List Load × Workspace
  | [], w => ([], w)
  | .files t :: es, w => r.run es { w with tree := t }
  | .load id :: es, w =>
    let (loads, w') := r.run es (Action.after (r.text id) w)
    (⟨id, w.tree, Action.ending (r.text id) w⟩ :: loads, w')

/-- The templates that are loaded among some events, with the files at that moment. -/
def asked : Tree → List Event → List (String × Tree)
  | _, [] => []
  | _, .files t :: es => asked t es
  | t, .load id :: es => (id, t) :: asked t es

/-- The load has found the file and read it. -/
def Took (r : Renderer) (l : Load) (p : Path) : Prop :=
  r.Finds l.tree l.id (.ok p) ∧ ∃ text, l.outcome = .ok text

/-- What a load answers, with the loads before it. A file that was not read before is read now, and may fail to be. -/
inductive Answers (r : Renderer) (earlier : List Load) (l : Load) : Prop
  | refused {f : Fault} (finds : r.Finds l.tree l.id (.error f)) (outcome : l.outcome = .error f)
  | read {p : Path} (finds : r.Finds l.tree l.id (.ok p)) (fresh : ∀ m ∈ earlier, ¬ r.Took m p)
      (outcome : l.outcome = l.tree.readText p)
  | kept {p : Path} {before behind : List Load} {first : Load} (finds : r.Finds l.tree l.id (.ok p))
      (split : earlier = before ++ first :: behind) (fresh : ∀ m ∈ before, ¬ r.Took m p) (took : r.Took first p)
      (outcome : l.outcome = first.tree.readText p)

/-- Each load answers as the loads before it have it. -/
inductive Served (r : Renderer) : List Load → List Load → Prop
  | nil {earlier : List Load} : Served r earlier []
  | cons {earlier loads : List Load} {l : Load} (answers : r.Answers earlier l)
      (rest : Served r (earlier ++ [l]) loads) : Served r earlier (l :: loads)

variable {r : Renderer} {earlier loads : List Load} {l : Load} {ps behind : List Path} {x y : Except Fault Path}

section Search

/-- The file that is found for a template, or why none is. -/
def found (r : Renderer) (t : Tree) (id : String) : Except Fault Path :=
  match firstFile? t (r.places id) with
  | .ok (some p) => .ok p
  | .ok none => .error (.templateMissing id ((r.places id).map Path.toString))
  | .error f => .error f

theorem firstFile?_append (h : ∀ q ∈ ps, t.isFile q = .ok false) :
    firstFile? t (ps ++ behind) = firstFile? t behind := by
  induction ps with
  | nil => rfl
  | cons p ps ih =>
    rw [List.cons_append, firstFile?_cons (h p (List.mem_cons_self ..)), if_neg Bool.false_ne_true,
      ih fun q hq => h q (List.mem_cons_of_mem _ hq)]

/-- The places before the first one that is not answered with no. -/
theorem exists_cut (t : Tree) (ps : List Path) : (∀ q ∈ ps, t.isFile q = .ok false) ∨
    ∃ before p behind, ps = before ++ p :: behind ∧ (∀ q ∈ before, t.isFile q = .ok false) ∧
      t.isFile p ≠ .ok false := by
  induction ps with
  | nil => exact .inl fun _ h => by cases h
  | cons p ps ih =>
    by_cases hp : t.isFile p = .ok false
    · rcases ih with hnone | ⟨before, q, behind, rfl, hbefore, hq⟩
      · exact .inl (List.forall_mem_cons.2 ⟨hp, hnone⟩)
      · exact .inr ⟨p :: before, q, behind, rfl, List.forall_mem_cons.2 ⟨hp, hbefore⟩, hq⟩
    · exact .inr ⟨[], p, ps, rfl, fun _ h => (by cases h), hp⟩

theorem finds (r : Renderer) (t : Tree) (id : String) : r.Finds t id (r.found t id) := by
  rcases exists_cut t (r.places id) with hnone | ⟨before, p, behind, hplaces, hbefore, hp⟩
  · have hfirst : firstFile? t (r.places id) = .ok none := by
      rw [← List.append_nil (r.places id), firstFile?_append hnone]
      rfl
    rw [found, hfirst]
    exact .missing hnone
  · rw [found, hplaces, firstFile?_append hbefore]
    cases hfile : t.isFile p with
    | ok there =>
      cases there with
      | true => rw [firstFile?_cons hfile]; exact .file hplaces hbefore hfile
      | false => exact absurd hfile hp
    | error f =>
      obtain ⟨rfl, hlong⟩ := Tree.long_of_isFile_error hfile
      rw [firstFile?, hfile]
      exact .unasked hplaces hbefore hlong hfile

theorem Finds.eq_found (h : r.Finds t id x) : x = r.found t id := by
  cases h with
  | file places none there => rw [found, places, firstFile?_append none, firstFile?_cons there]; rfl
  | missing none =>
    rw [found, ← List.append_nil (r.places id), firstFile?_append none, List.append_nil]
    rfl
  | unasked places none _ refused =>
    rw [found, places, firstFile?_append none, firstFile?, refused]
    rfl

theorem Finds.unique (h : r.Finds t id x) (h' : r.Finds t id y) : x = y :=
  h.eq_found.trans h'.eq_found.symm

theorem wp_found (r : Renderer) (id : String) (w : Workspace) :
    wp (r.file id) (fun p w' => Same w w' ∧ r.found w.tree id = .ok p)
      (fun f w' => Same w w' ∧ r.found w.tree id = .error f) w := by
  unfold file found
  simp only [wp_bind, wp_look, show r.roots.map (· / id) = r.places id from rfl]
  cases firstFile? w.tree (r.places id) with
  | error f => exact ⟨⟨rfl, rfl⟩, rfl⟩
  | ok place =>
    cases place with
    | none => exact (wp_throw _).2 ⟨⟨rfl, rfl⟩, rfl⟩
    | some q =>
      simp only [wp_bind, wp_say, wp_pure]
      exact ⟨⟨rfl, rfl⟩, trivial⟩

end Search

section Memory

/-- What is in memory is what the first loads that read a file have read. -/
structure Remembers (r : Renderer) (earlier : List Load) (cache : List (Path × String)) : Prop where
  fresh : ∀ p, cache.lookup p = none → ∀ l ∈ earlier, ¬ r.Took l p
  kept : ∀ p text, cache.lookup p = some text → ∃ before first behind, earlier = before ++ first :: behind ∧
    (∀ l ∈ before, ¬ r.Took l p) ∧ r.Took first p ∧ first.tree.readText p = .ok text

namespace Remembers
variable {cache : List (Path × String)}

theorem nil (r : Renderer) : r.Remembers [] [] where
  fresh _ _ _ h := by cases h
  kept _ _ h := by cases h

/-- A load that reads no file anew leaves the memory right. -/
theorem append (h : r.Remembers earlier cache) (hl : ∀ p, r.Took l p → cache.lookup p ≠ none) :
    r.Remembers (earlier ++ [l]) cache where
  fresh p hp m hm := by
    rcases List.mem_append.1 hm with hm | hm
    · exact h.fresh p hp m hm
    · rw [List.mem_singleton.1 hm]
      exact fun htook => hl p htook hp
  kept p text hp := by
    obtain ⟨before, first, behind, rfl, hrest⟩ := h.kept p text hp
    exact ⟨before, first, behind ++ [l], by rw [List.append_assoc, List.cons_append], hrest⟩

theorem read (h : r.Remembers earlier cache) (hp : cache.lookup p = none) (hfinds : r.Finds l.tree l.id (.ok p))
    (hread : l.tree.readText p = .ok text) (houtcome : l.outcome = .ok text) :
    r.Remembers (earlier ++ [l]) ((p, text) :: cache) where
  fresh q hq m hm := by
    rw [List.lookup_cons] at hq
    split at hq
    · cases hq
    next hne =>
    rcases List.mem_append.1 hm with hm | hm
    · exact h.fresh q hq m hm
    · rw [List.mem_singleton.1 hm]
      -- this load took `p`, which is in the memory from now on
      rintro ⟨hfinds', -⟩
      cases hfinds'.unique hfinds
      simp at hne
  kept q text' hq := by
    rw [List.lookup_cons] at hq
    split at hq
    · next heq =>
      cases hq
      cases eq_of_beq heq
      exact ⟨earlier, l, [], rfl, h.fresh p hp, ⟨hfinds, text, houtcome⟩, hread⟩
    · obtain ⟨before, first, behind, rfl, hrest⟩ := h.kept q text' hq
      exact ⟨before, first, behind ++ [l], by rw [List.append_assoc, List.cons_append], hrest⟩

end Remembers

/-- A load has answered as it should, and has left the memory right and the files alone. -/
structure Recalls (r : Renderer) (earlier : List Load) (id : String) (w : Workspace) (outcome : Except Fault String)
    (w' : Workspace) : Prop where
  answers : r.Answers earlier ⟨id, w.tree, outcome⟩
  remembers : r.Remembers (earlier ++ [⟨id, w.tree, outcome⟩]) w'.cache
  tree : w'.tree = w.tree

theorem recalls_error {f : Fault} (h : r.Remembers earlier w.cache) (hsame : Same w w')
    (hanswers : r.Answers earlier ⟨id, w.tree, .error f⟩) : r.Recalls earlier id w (.error f) w' where
  answers := hanswers
  remembers := by
    rw [hsame.2]
    refine h.append ?_
    rintro p ⟨-, text, houtcome⟩
    cases houtcome
  tree := hsame.1

theorem wp_text (h : r.Remembers earlier w.cache) (id : String) :
    wp (r.text id) (fun text w' => r.Recalls earlier id w (.ok text) w')
      (fun f w' => r.Recalls earlier id w (.error f) w') w := by
  unfold Renderer.text
  rw [wp_bind]
  refine wp_mono (r.wp_found id w) ?_ ?_
  · rintro p w₁ ⟨⟨htree, hcache⟩, hfound⟩
    have hfinds : r.Finds w.tree id (.ok p) := hfound ▸ r.finds w.tree id
    rw [wp_bind, wp_get, hcache]
    cases hp : w.cache.lookup p with
    | some text =>
      obtain ⟨before, first, behind, hsplit, hfresh, htook, hread⟩ := h.kept p text hp
      refine (wp_pure _).2 ⟨.kept hfinds hsplit hfresh htook hread.symm, hcache ▸ h.append ?_, htree⟩
      rintro q ⟨hq, -⟩
      cases hq.unique hfinds
      rw [hp]
      exact Option.some_ne_none text
    | none =>
      simp only [wp_bind, wp_look, htree]
      cases hread : w.tree.readText p with
      | error f => exact recalls_error h ⟨htree, hcache⟩ (.read hfinds (h.fresh p hp) hread.symm)
      | ok text =>
        show wp (modify _) _ _ _
        rw [wp_modify, wp_pure]
        exact ⟨.read hfinds (h.fresh p hp) hread.symm, hcache ▸ h.read hp hfinds hread rfl, htree⟩
  · rintro f w₁ ⟨hsame, hfound⟩
    exact recalls_error h hsame (.refused (hfound ▸ r.finds w.tree id) rfl)

end Memory

theorem run_load (r : Renderer) (id : String) (es : List Event) (w : Workspace) :
    r.run (.load id :: es) w = (⟨id, w.tree, Action.ending (r.text id) w⟩ :: (r.run es (Action.after (r.text id) w)).1,
      (r.run es (Action.after (r.text id) w)).2) := rfl

theorem served (r : Renderer) (es : List Event) (h : r.Remembers earlier w.cache) :
    r.Served earlier (r.run es w).1 ∧ (r.run es w).1.map (fun l => (l.id, l.tree)) = asked w.tree es := by
  -- the invariant is `Remembers`: a change of files does not touch it, and each load leaves it right
  induction es generalizing earlier w with
  | nil => exact ⟨.nil, rfl⟩
  | cons e es ih =>
    cases e with
    | files t => exact ih (w := { w with tree := t }) h
    | load id =>
      obtain ⟨hanswers, hremembers, htree⟩ := (Action.wp_ending (P := r.Recalls earlier id w)).1 (wp_text h id)
      obtain ⟨hserved, hasked⟩ := ih hremembers
      rw [run_load]
      refine ⟨.cons hanswers hserved, ?_⟩
      rw [List.map_cons, hasked, htree]
      rfl

/-- Whatever is loaded, and however the files change in between, every load of a renderer finds the first place where a
file stands at that moment, and answers with the text that this file had when the renderer read it first. Where there
is no file the fault lists the places. A file that cannot be read is not remembered. -/
theorem run_served (r : Renderer) (es : List Event) (w : Workspace) :
    let loads := (r.run es { w with cache := [] }).1
    r.Served [] loads ∧ loads.map (fun l => (l.id, l.tree)) = asked w.tree es :=
  r.served es (.nil r)

section Overlong

/-- One packaged template. -/
def stocked : Tree :=
  ⟨[], [(["stubs"], .directory), (["stubs", "a.stub"], .file 0o644 "A".toUTF8)]⟩

/-- A directory of the project's own templates whose name no file can have. -/
def overlong : Path :=
  ⟨.relative, [.ofList (List.replicate 256 'x')]⟩

/-- The place among the project's own templates cannot be asked for a file, so the packaged one is not used. -/
theorem load_unasked :
    let r : Renderer := ⟨some overlong, ⟨.relative, ["stubs"]⟩⟩
    r.places "a.stub" = [overlong / "a.stub", ⟨.relative, ["stubs", "a.stub"]⟩] ∧
      stocked.entryAt [.ofList (List.replicate 256 'x')] = none ∧
        stocked.isFile ⟨.relative, ["stubs", "a.stub"]⟩ = .ok true ∧
          Action.ending (r.text "a.stub") (.start stocked) =
            .error (Tree.refusal .nameTooLong (overlong / "a.stub")) := by
  decide +kernel

end Overlong

end Renderer

end Scaffold
