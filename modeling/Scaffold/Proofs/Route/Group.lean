import Scaffold.Proofs.Php.Literal
import Scaffold.Route.Group

/-!
# The opening line of a group tells the group

The opening line is a chain of calls. Whether a call stands in it is told by the first letters of the chain, and what
it is made with by reading its argument, so two groups have one opening line only if they have the same middleware
and the same path (`groupOpening_unambiguous`).
-/

namespace Scaffold.Route
open Php (quote list)

variable {m m' : List String} {q q' : String} {rest rest' : List Char}

/-- What the middleware is named by: a single name by a text, several by a list. -/
def argument : List String → String
  | [name] => quote name
  | names => list names

/-- The call of the middleware in a chain, if there is any. -/
def middlewareLink (m : List String) : List Char :=
  if m = [] then [] else "middleware(".toList ++ ((argument m).toList ++ ")->".toList)

/-- The call of the path in a chain, if there is one. -/
def pathLink (q : String) : List Char :=
  if q = "" then [] else "prefix(".toList ++ ((quote q).toList ++ ")->".toList)

/-- The last call of a chain; in a chain without others it gets an empty list of attributes. -/
def groupLink (bare : Bool) : List Char :=
  (if bare then "group([], function () \x7b" else "group(function () \x7b").toList

theorem middlewareCall_of_ne (h : m ≠ []) : middlewareCall m = "middleware(" ++ argument m ++ ")" := by
  match m with
  | [] => exact absurd rfl h
  | [_] => rfl
  | _ :: _ :: _ => rfl

theorem toList_opening (m : List String) (p : String) : (groupOpening m p).toList = "Route::".toList ++
    (middlewareLink m ++ (pathLink (Text.stripChar '/' p) ++
      groupLink (m = [] && Text.stripChar '/' p = ""))) := by
  unfold groupOpening middlewareLink pathLink groupLink
  generalize Text.stripChar '/' p = q
  by_cases hm : m = []
  · by_cases hq : q = ""
    · subst hm hq
      rfl
    · subst hm
      simp [hq, String.toList_append]
  · by_cases hq : q = ""
    · subst hq
      simp [hm, middlewareCall_of_ne hm, String.toList_append]
    · simp [hm, hq, middlewareCall_of_ne hm, String.toList_append]

/-- A text and a list differ in their first character. -/
theorem quote_append_ne (s : String) (names : List String) :
    (quote s).toList ++ rest ≠ (list names).toList ++ rest' := by
  intro h
  obtain ⟨cs, hcs⟩ := Php.toList_list names
  rw [Php.toList_quote, hcs] at h
  exact absurd (List.cons.inj h).1 (by decide)

theorem argument_singleton (s : String) : argument [s] = quote s := rfl

theorem argument_cons_cons (s t : String) (names : List String) : argument (s :: t :: names) = list (s :: t :: names) :=
  rfl

theorem argument_append_inj (hm : m ≠ []) (hm' : m' ≠ [])
    (h : (argument m).toList ++ rest = (argument m').toList ++ rest') : m = m' ∧ rest = rest' := by
  obtain ⟨s, names, rfl⟩ := List.exists_cons_of_ne_nil hm
  obtain ⟨t, names', rfl⟩ := List.exists_cons_of_ne_nil hm'
  cases names with
  | nil =>
    cases names' with
    | nil =>
      rw [argument_singleton, argument_singleton] at h
      obtain ⟨rfl, hrest⟩ := Php.quote_append_inj h
      exact ⟨rfl, hrest⟩
    | cons t' names' =>
      rw [argument_singleton, argument_cons_cons] at h
      exact absurd h (quote_append_ne s _)
  | cons s' names =>
    cases names' with
    | nil =>
      rw [argument_singleton, argument_cons_cons] at h
      exact absurd h.symm (quote_append_ne t _)
    | cons t' names' =>
      rw [argument_cons_cons, argument_cons_cons] at h
      exact Php.list_append_inj h

section Chain
variable {bare bare' : Bool}

theorem head?_groupLink (bare : Bool) : (groupLink bare).head? = some 'g' := by
  cases bare <;> rfl

theorem pathLink_inj (h : pathLink q ++ groupLink bare = pathLink q' ++ groupLink bare') : q = q' := by
  have hhead := congrArg List.head? h
  unfold pathLink at h hhead
  split at h
  · next hq =>
    split at h
    · next hq' => rw [hq, hq']
    · next hq' => simp [hq, hq', head?_groupLink] at hhead
  · next hq =>
    split at h
    · next hq' => simp [hq, hq', head?_groupLink] at hhead
    · next hq' =>
      simp only [List.append_assoc] at h
      exact (Php.quote_append_inj (List.append_cancel_left h)).1

/-- The call of the middleware is the only one that starts with an `m`. -/
theorem head?_pathLink (q : String) (bare : Bool) : (pathLink q ++ groupLink bare).head? ≠ some 'm' := by
  unfold pathLink
  split
  · rw [List.nil_append, head?_groupLink]
    decide
  · simp

theorem head?_middlewareLink (hm : m ≠ []) (rest : List Char) : (middlewareLink m ++ rest).head? = some 'm' := by
  simp [middlewareLink, hm]

theorem middlewareLink_inj
    (h : middlewareLink m ++ (pathLink q ++ groupLink bare) = middlewareLink m' ++ (pathLink q' ++ groupLink bare')) :
    m = m' ∧ q = q' := by
  have hhead := congrArg List.head? h
  by_cases hm : m = []
  · by_cases hm' : m' = []
    · subst hm hm'
      exact ⟨rfl, pathLink_inj h⟩
    · subst hm
      rw [head?_middlewareLink hm'] at hhead
      exact absurd hhead (head?_pathLink q bare)
  · by_cases hm' : m' = []
    · subst hm'
      rw [head?_middlewareLink hm] at hhead
      exact absurd hhead.symm (head?_pathLink q' bare')
    · rw [middlewareLink, middlewareLink, if_neg hm, if_neg hm'] at h
      simp only [List.append_assoc] at h
      obtain ⟨rfl, htail⟩ := argument_append_inj hm hm' (List.append_cancel_left h)
      exact ⟨rfl, pathLink_inj (List.append_cancel_left htail)⟩

end Chain

/-- Two groups have one opening line only if they have the same middleware and, slashes around it apart, the same
path. Literals and lists of literals tell what they stand for: a literal is read up to its last character. -/
theorem groupOpening_unambiguous :
    (∀ m m' p p', groupOpening m p = groupOpening m' p' ↔
      m = m' ∧ Text.stripChar '/' p = Text.stripChar '/' p') ∧
    Function.Injective quote ∧ Function.Injective list ∧
    ∀ s rest, Php.literal? ((quote s).toList ++ rest) = some (s.toList, rest) := by
  refine ⟨fun m m' p p' => ⟨fun h => ?_, fun ⟨hm, hp⟩ => ?_⟩, Php.quote_injective, Php.list_injective,
    Php.literal?_quote⟩
  · have hlist := congrArg String.toList h
    rw [toList_opening, toList_opening] at hlist
    exact middlewareLink_inj (List.append_cancel_left hlist)
  · apply String.toList_inj.1
    rw [toList_opening, toList_opening, hm, hp]

example : groupOpening ["a\\", "b'"] "/x/" =
    "Route::middleware(['a\\\\', 'b\\''])->prefix('x')->group(function () \x7b" := by
  decide +kernel

end Scaffold.Route
