/-!
Lines. A text is split at each newline, so a final newline gives an empty last line; `joined_split`
says that joining the pieces with the separator gives the text back.
-/

namespace Scaffold.Text

/-- The pieces of `cs` between occurrences of `sep`; there is one more piece than occurrences. -/
def splitAtChar (sep : Char) : List Char → List (List Char)
  | [] => [[]]
  | c :: cs =>
    if c = sep then [] :: splitAtChar sep cs
    else match splitAtChar sep cs with
      | [] => [[c]]
      | piece :: rest => (c :: piece) :: rest

/-- The lines of a text, without their newlines. -/
def lines (s : String) : List String :=
  (splitAtChar '\n' s.toList).map String.ofList

/-- Number of lines: a last line counts whether or not a newline ends it. -/
def countLines (s : String) : Nat :=
  let cs := s.toList
  match cs.getLast? with
  | none => 0
  | some last => cs.count '\n' + if last = '\n' then 0 else 1

/-- Writes every line end, `\r\n` or a lone `\r`, as a newline. -/
def unifyNewlines : List Char → List Char
  | [] => []
  | '\r' :: '\n' :: cs => '\n' :: unifyNewlines cs
  | c :: cs => (if c = '\r' then '\n' else c) :: unifyNewlines cs

theorem splitAtChar_ne_nil (sep : Char) (cs : List Char) : splitAtChar sep cs ≠ [] := by
  cases cs with
  | nil => simp [splitAtChar]
  | cons c cs =>
    rw [splitAtChar]
    split
    · simp
    · split <;> simp

theorem joined_split (sep : Char) (cs : List Char) :
    [sep].intercalate (splitAtChar sep cs) = cs := by
  induction cs with
  | nil => rfl
  | cons c cs ih =>
    obtain ⟨piece, rest, h⟩ := List.exists_cons_of_ne_nil (splitAtChar_ne_nil sep cs)
    rw [splitAtChar, h]
    rw [h] at ih
    split
    · next hc => simp [List.intercalate, List.intersperse] at ih ⊢; simp [hc, ih]
    · cases rest <;> simp [List.intercalate, List.intersperse] at ih ⊢ <;> simp [ih]

end Scaffold.Text
