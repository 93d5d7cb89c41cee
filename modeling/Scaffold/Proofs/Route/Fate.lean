import Scaffold.Proofs.Route.Sequence
import Scaffold.Proofs.Tree.Built

/-!
# What a merge comes to

A merge depends on the text that it starts from and on whether the file can be put there, and on nothing else
(`wp_merge_fate`). So it comes to the same wherever the same entry is seen at the path (`Call.fate_eq`).
-/

namespace Scaffold.Route
open Text (isSolid)

variable {t t' : Tree} {file : Path} {w : Workspace} {c : Call} {text boilerplate : String} {l : Location}
  {dirs : List String} {name : String}

section Begins

/-- The text that a merge starts from, if it can be read. -/
def begins? (t : Tree) (file : Path) (boilerplate : String) : Option String :=
  match t.stands file, t.readText file with
  | .ok false, _ => some boilerplate
  | .ok true, .ok text => some (if isSolid text then text else boilerplate)
  | _, _ => none

theorem begins?_eq_some : begins? t file boilerplate = some text ↔ StartsFrom t file boilerplate text := by
  constructor
  · intro h
    unfold begins? at h
    split at h
    · next hs =>
      cases h
      exact .missing hs
    · next raw hs hr =>
      cases h
      split
      · next hsolid => exact .present hr hsolid
      · next hblank => exact .blank hr (by simpa using hblank)
    · cases h
  · intro h
    unfold begins?
    cases h with
    | present read solid => simp [Tree.stands_of_readText read, read, solid]
    | blank read blank => simp [Tree.stands_of_readText read, read, blank]
    | missing stands => simp [stands]

/-- A merge starts from the same text where the same entry is seen. -/
theorem StartsFrom.congr (h : StartsFrom t file boilerplate text) (hhome : t'.home = t.home)
    (hsame : t'.entryAt (file.resolveFrom t.home) = t.entryAt (file.resolveFrom t.home))
    (hsees : t.Sees file) (hsees' : t'.Sees file) (hlook : ∃ there, t'.stands file = .ok there) :
    StartsFrom t' file boilerplate text := by
  have hread : ∀ raw, t.readText file = .ok raw → t'.readText file = .ok raw := fun raw hraw => by
    obtain ⟨mode, bytes, s, hnull, hfind, hs⟩ := Tree.readText_eq_ok.1 hraw
    refine Tree.readText_eq_ok.2 ⟨mode, bytes, s, hnull, hsees' _ ?_, hs⟩
    rw [hhome, hsame, Tree.find_eq_resolve hfind]
  cases h with
  | present read solid => exact .present (hread _ read) solid
  | blank read blank => exact .blank (hread _ read) blank
  | missing stands =>
    obtain ⟨there, hthere⟩ := hlook
    cases there with
    | false => exact .missing hthere
    | true =>
      -- what stands is seen from the other tree too
      obtain ⟨e, hnull, hfind⟩ := Tree.stands_eq_true.1 hthere
      have hentry := Tree.find_eq_resolve hfind
      rw [hhome, hsame] at hentry
      rw [Tree.stands_eq_true.2 ⟨e, hnull, hsees e hentry⟩] at stands
      cases stands

end Begins

namespace Call

/-- What a call makes of a text, if it does not leave it as it is. -/
def change (c : Call) (text : String) : Except RouteFlaw (Option String) :=
  (Document.parse text).map fun doc =>
    if holdsToken text c.token then none
    else some (((doc.withImport (importOf c.fqcn)).1.withBlock c.block).render)

/-- What a call on a route file comes to, and the text that it writes. -/
def fate (c : Call) (t : Tree) (file : Path) : Status × Option String :=
  match begins? t file c.boilerplate with
  | none => (.failed, none)
  | some text => match c.change text with
    | .error _ => (.failed, none)
    | .ok none => (.skipped, none)
    | .ok (some new) => if t.takes file then (.created, some new) else (.failed, none)

theorem fate_of_startsFrom (h : StartsFrom t file c.boilerplate text) : c.fate t file =
    match c.change text with
    | .error _ => (.failed, none)
    | .ok none => (.skipped, none)
    | .ok (some new) => if t.takes file then (.created, some new) else (.failed, none) := by
  unfold fate
  rw [begins?_eq_some.2 h]

/-- A merge comes to the same where the same entry is seen and a file can be put. -/
theorem fate_eq (hhome : t'.home = t.home)
    (hsame : t'.entryAt (file.resolveFrom t.home) = t.entryAt (file.resolveFrom t.home)) (hsees : t.Sees file)
    (hsees' : t'.Sees file) (hshort : Tree.Short file) (htakes : t'.takes file = t.takes file) :
    c.fate t' file = c.fate t file := by
  have hbegins : begins? t' file c.boilerplate = begins? t file c.boilerplate := by
    refine Option.ext fun text => ?_
    rw [begins?_eq_some, begins?_eq_some]
    refine ⟨fun h => h.congr hhome.symm ?_ hsees' hsees (Tree.stands_ok hshort t),
      fun h => h.congr hhome hsame hsees hsees' (Tree.stands_ok hshort t')⟩
    rw [hhome, hsame]
  unfold fate
  rw [hbegins, htakes]

theorem fate_eq_created {new : String} (h : (c.fate t file).2 = some new) : c.fate t file = (.created, some new) ∧
    t.takes file = true ∧ ∃ text, StartsFrom t file c.boilerplate text ∧ c.change text = .ok (some new) := by
  cases hb : begins? t file c.boilerplate with
  | none => simp [fate, hb] at h
  | some text =>
    have hs := begins?_eq_some.1 hb
    rw [fate_of_startsFrom hs] at h ⊢
    rcases hc : c.change text with flaw | _ | new'
    · simp [hc] at h
    · simp [hc] at h
    · cases ht : t.takes file with
      | false => simp [hc, ht] at h
      | true =>
        obtain rfl : new' = new := by simpa [hc, ht] using h
        exact ⟨by simp, rfl, text, hs, hc⟩

end Call

/-- What a merge has done, by its fate. -/
theorem wp_merge_fate (h : w.tree.Enters file l (dirs ++ [name])) (hname : name ≠ "") (c : Call) :
    wp (c.merge file)
      (fun r w' => w'.cache = w.cache ∧
        (r = .alreadyPresent ∧ c.fate w.tree file = (.skipped, none) ∧ w'.tree = w.tree ∨
          r = .inserted ∧ ∃ new, c.fate w.tree file = (.created, some new) ∧ Edit.Replaced w.tree file new w'.tree ∧
            ∃ t₁, w.tree.Paves l dirs t₁ ∧ ∀ k, k ≠ l ++ (dirs ++ [name]) → w'.tree.entryAt k = t₁.entryAt k))
      (fun _ w' => w'.cache = w.cache ∧ c.fate w.tree file = (.failed, none) ∧ w.tree.Paves l dirs w'.tree) w := by
  have htakes := Tree.takes_iff h hname
  cases hb : begins? w.tree file c.boilerplate with
  | none =>
    rcases merge_cases file c.names c.block c.fqcn c.boilerplate w with ⟨text, hs⟩ | ⟨f, -, hm⟩
    · rw [begins?_eq_some.2 hs] at hb
      cases hb
    · exact (wp_error hm).2 ⟨rfl, by unfold Call.fate; rw [hb], .refl ..⟩
  | some text =>
    have hs := begins?_eq_some.1 hb
    have hfate := Call.fate_of_startsFrom hs
    obtain ⟨log, hm⟩ : ∃ log, c.merge file w = conclude file c.names (c.change text) { w with log := log } :=
      merge_of_startsFrom hs c.names c.block c.fqcn
    rw [wp_eq hm]
    rcases hc : c.change text with flaw | _ | new
    · rw [hc] at hfate
      exact (wp_throw _).2 ⟨rfl, hfate, .refl ..⟩
    · rw [hc] at hfate
      simp only [conclude, wp_bind, wp_say, wp_pure]
      exact ⟨trivial, .inl ⟨trivial, hfate, trivial⟩⟩
    · rw [hc] at hfate
      simp only [conclude, wp_bind, wp_edit, wp_say, wp_pure]
      have hadmits := Edit.wp_replaceFile_admits h hname new
      have hreplaced := Edit.wp_replaceFile file new w.tree
      cases hr : Edit.replaceFile file new w.tree with
      | ok record t' =>
        rw [wp_ok hr] at hadmits hreplaced
        rw [wp_ok hr]
        simp only [htakes.2 hadmits.1, ↓reduceIte] at hfate
        exact ⟨trivial, .inr ⟨trivial, new, hfate, hreplaced, hadmits.2⟩⟩
      | error f t' =>
        rw [wp_error hr] at hadmits
        rw [wp_error hr]
        have hrefused : w.tree.takes file = false := by
          rw [Bool.eq_false_iff]
          exact fun ht => hadmits.1 (htakes.1 ht)
        simp only [hrefused, Bool.false_eq_true, ↓reduceIte] at hfate
        exact ⟨trivial, hfate, hadmits.2⟩

end Scaffold.Route
