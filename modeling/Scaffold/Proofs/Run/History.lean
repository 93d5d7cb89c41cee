import Scaffold.Proofs.Tree.Read
import Scaffold.Writer

/-!
# What a writer has written

A call of the writer replaces a file and records it, leaves a file alone, or is refused, and only the first of
these touches a file or the records (`Writer.Step`). For a whole sequence of calls, `Writer.run_history` says that
the records are those of the calls that have written, in order, and that each file holds what the last of them wrote
to it.
-/

namespace Scaffold

namespace Tree
variable {t t' : Tree} {p : Path} {l : Location} {text : String}

/-- The contents of the file at a location, if one stands there. -/
def bytesAt? (t : Tree) (l : Location) : Option ByteArray :=
  match t.entryAt l with
  | some (.file _ bytes) => some bytes
  | _ => none

theorem bytesAt?_eq_some {bytes : ByteArray} :
    t.bytesAt? l = some bytes ↔ ∃ mode, t.entryAt l = some (.file mode bytes) := by
  unfold bytesAt?
  split
  · next mode bytes' h => simp [h]
  · next h => exact iff_of_false (by simp) fun ⟨mode, hl⟩ => h mode bytes hl

theorem bytesAt?_congr (h : t'.entryAt l = t.entryAt l ∨ t.entryAt l = none ∧ t'.entryAt l = some .directory) :
    t'.bytesAt? l = t.bytesAt? l := by
  unfold bytesAt?
  rcases h with he | ⟨hn, hd⟩
  · rw [he]
  · rw [hn, hd]

theorem bytesAt?_of_replaced (h : Edit.Replaced t p text t') (l : Location) :
    t'.bytesAt? l = if p.resolveFrom t.home = l then some text.toUTF8 else t.bytesAt? l := by
  split
  · next hl =>
    subst hl
    have hfile := find_eq_resolve h.find
    rw [h.home] at hfile
    exact bytesAt?_eq_some.2 ⟨_, hfile⟩
  · next hl => exact bytesAt?_congr (h.entry l (Ne.symm hl))

end Tree

namespace Writer

/-- What a writer is asked to do. -/
structure Call where
  path : Path
  text : String
  force : Bool

/-- The record of the file that a call writes. -/
def Call.record (c : Call) : WrittenFile :=
  Edit.recordOf c.path c.text

/-- The action that a call stands for. -/
def Call.action (c : Call) : Action Written :=
  write c.path c.text c.force

/-- A call and what came of it. -/
structure Done where
  call : Call
  outcome : Except Fault Written

/-- Whether a call has written its file. -/
def Done.wrote (d : Done) : Bool :=
  match d.outcome with
  | .ok written => written.record.isSome
  | .error _ => false

/-- The calls one after the other, whatever comes of each. -/
def run : List Call → Workspace → List Done × Workspace
  | [], w => ([], w)
  | c :: cs, w =>
    let (done, w') := run cs (Action.after c.action w)
    (⟨c, Action.ending c.action w⟩ :: done, w')

/-- The last call that has written to a location. A path leads to one location, or nowhere. -/
def lastTo? (home l : Location) (done : List Done) : Option Call :=
  ((done.filter fun d => d.wrote && d.call.path.resolveFrom home = l).getLast?).map (·.call)

/-- What a single call does: it replaces the file and records it, leaves it alone because it stands, or is refused,
and then no more than new directories are left behind. -/
inductive Step (c : Call) (w : Workspace) : Except Fault Written → Workspace → Prop
  | written {w' : Workspace} (clear : c.force = false → w.tree.stands c.path = .ok false)
      (replaced : Edit.Replaced w.tree c.path c.text w'.tree) (records : w'.records = w.records ++ [c.record]) :
      Step c w (.ok ⟨c.path.toString, some c.record⟩) w'
  | skipped {w' : Workspace} (gentle : c.force = false) (stands : w.tree.stands c.path = .ok true)
      (same : w'.tree = w.tree) (records : w'.records = w.records) : Step c w (.ok ⟨c.path.toString, none⟩) w'
  | refused {fault : Fault} {w' : Workspace} (grown : w.tree.Extends w'.tree) (records : w'.records = w.records) :
      Step c w (.error fault) w'

variable {c : Call} {w w' : Workspace}

theorem step (c : Call) (w : Workspace) : Step c w (Action.ending c.action w) (Action.after c.action w) := by
  refine Action.wp_ending.1 ?_
  unfold Call.action write
  rw [wp_bind, wp_look]
  cases hs : w.tree.stands c.path with
  | error fault => exact .refused (.refl _) rfl
  | ok there =>
    simp only [wp_ite, wp_bind, wp_say, wp_pure, wp_edit, wp_modify]
    split
    · next hskip =>
      obtain ⟨rfl, hforce⟩ := Bool.and_eq_true_iff.1 hskip
      exact .skipped (by simpa using hforce) hs rfl rfl
    · next hwrite =>
      have hclear : c.force = false → w.tree.stands c.path = .ok false := fun hforce => by
        rw [hs]
        rw [hforce, Bool.not_false, Bool.and_true, Bool.not_eq_true] at hwrite
        rw [hwrite]
      refine wp_mono (Edit.wp_replaceFileUnder Edit.umask c.path c.text w.tree) ?_ fun _ _ h => .refused h.2.grown rfl
      rintro _ t' ⟨hreplaced, rfl⟩
      exact .written hclear hreplaced.replaced rfl

namespace Step
variable {outcome : Except Fault Written}

theorem home (h : Step c w outcome w') : w'.tree.home = w.tree.home := by
  cases h with
  | written _ replaced => exact replaced.home
  | skipped _ _ same => rw [same]
  | refused grown => exact grown.home

theorem records (h : Step c w outcome w') :
    w'.records = w.records ++ if (Done.mk c outcome).wrote then [c.record] else [] := by
  cases h with
  | written _ _ records => exact records
  | skipped _ _ _ records => rw [records]; exact (List.append_nil _).symm
  | refused _ records => rw [records]; exact (List.append_nil _).symm

theorem bytesAt? (h : Step c w outcome w') (l : Location) :
    w'.tree.bytesAt? l = if (Done.mk c outcome).wrote ∧ c.path.resolveFrom w.tree.home = l then some c.text.toUTF8
      else w.tree.bytesAt? l := by
  cases h with
  | written _ replaced =>
    rw [Tree.bytesAt?_of_replaced replaced]
    simp [Done.wrote]
  | skipped _ _ same => rw [same]; simp [Done.wrote]
  | refused grown => rw [Tree.bytesAt?_congr (grown.entry l)]; simp [Done.wrote]

end Step

/-- Calls with what came of them, each a step from where the one before it ended. -/
inductive History : Workspace → List Done → Workspace → Prop
  | nil {w : Workspace} : History w [] w
  | cons {w w₁ w' : Workspace} {d : Done} {done : List Done} (step : Step d.call w d.outcome w₁)
      (rest : History w₁ done w') : History w (d :: done) w'

theorem lastTo?_cons (home l : Location) (d : Done) (done : List Done) :
    lastTo? home l (d :: done) =
      (lastTo? home l done).or (if d.wrote ∧ d.call.path.resolveFrom home = l then some d.call else none) := by
  unfold lastTo?
  rw [List.filter_cons]
  by_cases h : d.wrote ∧ d.call.path.resolveFrom home = l
  · rw [if_pos (by simpa using h), if_pos h, List.getLast?_cons]
    cases (done.filter _).getLast? <;> rfl
  · rw [if_neg (by simpa using h), if_neg h, Option.or_none]

namespace History
variable {done : List Done}

theorem records (h : History w done w') :
    w'.records = w.records ++ (done.filter Done.wrote).map fun d => d.call.record := by
  induction h with
  | nil => exact (List.append_nil _).symm
  | cons step _ ih =>
    rw [ih, step.records, List.filter_cons, List.append_assoc]
    split <;> rfl

theorem bytesAt? (h : History w done w') (l : Location) :
    w'.tree.bytesAt? l = ((lastTo? w.tree.home l done).map (·.text.toUTF8)).or (w.tree.bytesAt? l) := by
  -- what the later calls wrote hides what the first one did
  induction h with
  | nil => rfl
  | @cons w w₁ w' d done step _ ih =>
    rw [ih, step.home, step.bytesAt?, lastTo?_cons]
    cases lastTo? w.tree.home l done with
    | some c => rfl
    | none =>
      simp only [Option.none_or, Option.map_none]
      split <;> rfl

end History

theorem run_cons (c : Call) (cs : List Call) (w : Workspace) :
    run (c :: cs) w = (⟨c, Action.ending c.action w⟩ :: (run cs (Action.after c.action w)).1,
      (run cs (Action.after c.action w)).2) := rfl

theorem map_call_run (cs : List Call) (w : Workspace) : (run cs w).1.map (·.call) = cs := by
  induction cs generalizing w with
  | nil => rfl
  | cons c cs ih => rw [run_cons, List.map_cons, ih]

theorem history (cs : List Call) (w : Workspace) : History w (run cs w).1 (run cs w).2 := by
  induction cs generalizing w with
  | nil => exact .nil
  | cons c cs ih => exact .cons (step c w) (ih _)

/-- Whatever calls a writer gets, and whatever comes of each, it records those that have written a file, in order and
with the size, the lines and the digest of the text, and every file holds what the last of these calls to lead to it
wrote, or else what it held before. A call that writes nothing changes no file and records nothing (`Step`). -/
theorem run_history (cs : List Call) (w : Workspace) :
    let (done, w') := run cs w
    done.map (·.call) = cs ∧ History w done w' ∧
      w'.records = w.records ++ (done.filter Done.wrote).map (fun d => d.call.record) ∧
      ∀ l, w'.tree.bytesAt? l = ((lastTo? w.tree.home l done).map (·.text.toUTF8)).or (w.tree.bytesAt? l) :=
  have h := history cs w
  ⟨map_call_run cs w, h, h.records, h.bytesAt?⟩

end Writer

end Scaffold
