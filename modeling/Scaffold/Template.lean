import Scaffold.Text.Search

/-!
Templates with placeholders. A placeholder is a key in double braces, with one space on each side of
the key or none. Filling is a single pass: each placeholder whose key has a value is replaced, values
are never scanned again, and everything else stays as it is.
-/

namespace Scaffold.Template

def isKeyStart (c : Char) : Bool :=
  c.isAlpha || c == '_'

def isKeyRest (c : Char) : Bool :=
  c.isAlphanum || c == '_'

/-- The key that `cs` starts with, and what follows it. -/
def key? : List Char → Option (List Char × List Char)
  | [] => none
  | c :: cs =>
    if isKeyStart c then some (c :: cs.takeWhile isKeyRest, cs.dropWhile isKeyRest) else none

/-- What follows `close` in `cs`, if `cs` starts with it. -/
def after? : (close cs : List Char) → Option (List Char)
  | [], cs => some cs
  | _ :: _, [] => none
  | x :: close, c :: cs => if c = x then after? close cs else none

/-- The key of the placeholder that `cs` starts with, and what follows the placeholder. -/
def placeholder? : List Char → Option (List Char × List Char)
  | '{' :: '{' :: ' ' :: cs => do
    let (key, rest) ← key? cs
    let rest ← after? [' ', '}', '}'] rest
    pure (key, rest)
  | '{' :: '{' :: cs => do
    let (key, rest) ← key? cs
    let rest ← after? ['}', '}'] rest
    pure (key, rest)
  | _ => none

theorem length_of_key? {cs key rest : List Char} (h : key? cs = some (key, rest)) :
    rest.length < cs.length := by
  cases cs with
  | nil => simp [key?] at h
  | cons c cs =>
    simp only [key?] at h
    split at h
    · simp only [Option.some.injEq, Prod.mk.injEq] at h
      have : (cs.dropWhile isKeyRest).length ≤ cs.length :=
        (List.dropWhile_sublist isKeyRest).length_le
      simp only [← h.2, List.length_cons]
      omega
    · simp at h

theorem length_of_after? {close cs rest : List Char} (h : after? close cs = some rest) :
    rest.length ≤ cs.length := by
  induction close generalizing cs with
  | nil => simp [after?] at h; simp [h]
  | cons x close ih =>
    cases cs with
    | nil => simp [after?] at h
    | cons c cs =>
      simp only [after?] at h
      split at h
      · have := ih h
        simp only [List.length_cons]
        omega
      · simp at h

theorem length_of_placeholder? {cs key rest : List Char}
    (h : placeholder? cs = some (key, rest)) : rest.length < cs.length := by
  unfold placeholder? at h
  split at h
  all_goals
    simp only [bind, Option.bind_eq_some_iff, pure, Option.some.injEq, Prod.mk.injEq, reduceCtorEq]
      at h
  · obtain ⟨⟨k, r⟩, hk, r', hr, -, rfl⟩ := h
    have := length_of_key? hk
    have := length_of_after? hr
    simp only [List.length_cons] at *
    omega
  · obtain ⟨⟨k, r⟩, hk, r', hr, -, rfl⟩ := h
    have := length_of_key? hk
    have := length_of_after? hr
    simp only [List.length_cons] at *
    omega

/-- The text with every placeholder that has a value replaced by it. -/
def fillChars (value? : List Char → Option (List Char)) : List Char → List Char
  | [] => []
  | c :: cs =>
    match h : placeholder? (c :: cs) with
    | some (key, rest) =>
      match value? key with
      | some value =>
        have := length_of_placeholder? h
        value ++ fillChars value? rest
      | none => c :: fillChars value? cs
    | none => c :: fillChars value? cs
termination_by cs => cs.length
decreasing_by
  · exact this
  all_goals exact Nat.lt_succ_self _

/-- The value of a key in a list of substitutions: of several, the last one. -/
def valueOf (subs : List (String × String)) (key : List Char) : Option (List Char) :=
  (subs.reverse.lookup (.ofList key)).map String.toList

def fill (content : String) (subs : List (String × String)) : String :=
  .ofList (fillChars (valueOf subs) content.toList)

end Scaffold.Template
