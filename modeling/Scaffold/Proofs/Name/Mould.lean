import Mathlib.Data.List.Infix
import Scaffold.Name.Style

/-!
# Names made from one word

A name is a word of its own, or stands around a word that is yet unknown. Of names that are known apart otherwise, two
are one for at most one word, so a list of them has no name twice unless the word is one of few (`nodup_made`).
-/

namespace Scaffold.Name

/-- How a name is made from a word. -/
inductive Mould where
  | fixed (name : List Char)
  | around (before after : List Char)
deriving DecidableEq

namespace Mould

def made (x : List Char) : Mould → List Char
  | fixed name => name
  | around before after => before ++ x ++ after

def lower : Mould → Mould
  | fixed name => fixed (name.map Char.toLower)
  | around before after => around (before.map Char.toLower) (after.map Char.toLower)

/-- The word that stands in a name between two affixes. -/
def middle? (before after name : List Char) : Option (List Char) :=
  let x := (name.drop before.length).take (name.length - before.length - after.length)
  if x ≠ [] ∧ before ++ x ++ after = name then some x else none

/-- The word that makes two names one. -/
def meet? : Mould → Mould → Option (List Char)
  | around before after, fixed name => middle? before after name
  | fixed name, around before after => middle? before after name
  | _, _ => none

/-- All words that make two of the names one. -/
def meetings : List Mould → List (List Char)
  | [] => []
  | s :: ss => ss.filterMap s.meet? ++ meetings ss

/-- No word makes two names one but where a name stands for itself. -/
def Apart : Mould → Mould → Prop
  | fixed name, fixed name' => name ≠ name'
  | around before after, around before' after' =>
    before = before' ∧ after ≠ after' ∨ before.length + after.length ≠ before'.length + after'.length
  | _, _ => True

instance : DecidableRel Apart
  | fixed name, fixed name' => inferInstanceAs (Decidable (name ≠ name'))
  | around _ _, around _ _ => inferInstanceAs (Decidable (_ ∨ _))
  | fixed _, around _ _ => inferInstanceAs (Decidable True)
  | around _ _, fixed _ => inferInstanceAs (Decidable True)

variable {x before after name : List Char} {s s' : Mould} {ss : List Mould}

theorem lower_made (s : Mould) (x : List Char) : (s.made x).map Char.toLower = s.lower.made (x.map Char.toLower) := by
  cases s with
  | fixed name => rfl
  | around before after => simp [made, lower]

theorem middle?_eq_some (hx : x ≠ []) : middle? before after name = some x ↔ before ++ x ++ after = name := by
  constructor
  · intro h
    simp only [middle?, Option.ite_none_right_eq_some, Option.some.injEq] at h
    obtain ⟨⟨-, hname⟩, rfl⟩ := h
    exact hname
  · rintro rfl
    have hword : ((before ++ x ++ after).drop before.length).take
        ((before ++ x ++ after).length - before.length - after.length) = x := by
      rw [List.append_assoc, List.drop_left, List.length_append, List.length_append,
        show before.length + (x.length + after.length) - before.length - after.length = x.length by omega,
        List.take_left]
    rw [middle?, hword, if_pos ⟨hx, rfl⟩]

theorem made_eq_iff (hx : x ≠ []) (h : s.Apart s') : s.made x = s'.made x ↔ s.meet? s' = some x := by
  cases s with
  | fixed name =>
    cases s' with
    | fixed name' => simpa [made, meet?, Apart] using h
    | around before after => rw [made, made, meet?, middle?_eq_some hx, eq_comm]
  | around before after =>
    cases s' with
    | fixed name => rw [made, made, meet?, middle?_eq_some hx]
    | around before' after' =>
      simp only [made, meet?, reduceCtorEq, iff_false]
      intro heq
      rcases h with ⟨rfl, hafter⟩ | hlength
      · exact hafter (List.append_cancel_left heq)
      · have := congrArg List.length heq
        simp only [List.length_append] at this
        omega

/-- No name is made twice unless the word makes two of them one. -/
theorem nodup_made (hx : x ≠ []) (h : ss.Pairwise Apart) : (ss.map (made x)).Nodup ↔ x ∉ meetings ss := by
  induction ss with
  | nil => simp [meetings]
  | cons s ss ih =>
    obtain ⟨hs, hss⟩ := List.pairwise_cons.1 h
    have hnew : made x s ∈ ss.map (made x) ↔ x ∈ ss.filterMap s.meet? := by
      rw [List.mem_map, List.mem_filterMap]
      exact exists_congr fun s' => and_congr_right fun hs' => by rw [← made_eq_iff hx (hs s' hs'), eq_comm]
    rw [List.map_cons, List.nodup_cons, ih hss, hnew, meetings, List.mem_append, not_or]

end Mould

end Scaffold.Name
