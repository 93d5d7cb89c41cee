import Scaffold.Proofs.Text.ReadBack

/-!
# Lines with what ends them

A text is read with every line end as a newline, so what ended a line is not seen. `rows` keeps it: the rows of a
text are its characters (`flatMap_rows`), and their lines are what is read (`split_unifyNewlines`).
-/

namespace Scaffold.Text

/-- What stands between a line and the next. -/
inductive LineEnd where
  | none
  | newline
  | return_
  | both
deriving DecidableEq

def LineEnd.chars : LineEnd → List Char
  | none => []
  | newline => ['\n']
  | return_ => ['\r']
  | both => ['\r', '\n']

/-- A line with its end, if it has one. -/
structure Row where
  line : List Char
  ending : LineEnd
deriving DecidableEq

namespace Row

def chars (r : Row) : List Char :=
  r.line ++ r.ending.chars

/-- The row with a newline, whatever its end was. -/
def closed (r : Row) : List Char :=
  r.line ++ ['\n']

/-- The row as it is, with a newline only where it has no end. -/
def ended (r : Row) : List Char :=
  if r.ending = .none then r.closed else r.chars

theorem ended_of_notMem {r : Row} (h : '\r' ∉ r.chars) : r.ended = r.closed := by
  obtain ⟨line, ending⟩ := r
  cases ending with
  | none => rfl
  | newline => rfl
  | return_ => simp [chars, LineEnd.chars] at h
  | both => simp [chars, LineEnd.chars] at h

end Row

def push (c : Char) : List Row → List Row
  | [] => [⟨[c], .none⟩]
  | r :: rs => ⟨c :: r.line, r.ending⟩ :: rs

/-- The rows of a text: each end closes a row, and what stands behind the last is one without an end. -/
def rows : List Char → List Row
  | [] => []
  | '\r' :: '\n' :: cs => ⟨[], .both⟩ :: rows cs
  | c :: cs =>
    if c = '\n' then ⟨[], .newline⟩ :: rows cs
    else if c = '\r' then ⟨[], .return_⟩ :: rows cs
    else push c (rows cs)

variable {cs : List Char} {s : String} {rs : List Row} {c : Char}

theorem flatMap_push (c : Char) (rs : List Row) : (push c rs).flatMap Row.chars = c :: rs.flatMap Row.chars := by
  cases rs <;> simp [push, Row.chars, LineEnd.chars]

theorem flatMap_rows (cs : List Char) : (rows cs).flatMap Row.chars = cs := by
  induction cs using rows.induct with
  | case1 => rfl
  | case2 cs ih => simp [rows, ih, Row.chars, LineEnd.chars]
  | case3 cs _ ih => simp [rows, ih, Row.chars, LineEnd.chars]
  | case4 cs _ hne ih => simp [rows, ih, Row.chars, LineEnd.chars]
  | case5 c cs hboth hn hr ih =>
    rw [rows, if_neg hn, if_neg hr, flatMap_push, ih]
    exact hboth

theorem ended_of_mem_rows {r : Row} (hr : '\r' ∉ cs) (h : r ∈ rows cs) : r.ended = r.closed :=
  Row.ended_of_notMem fun hmem => hr (by
    rw [← flatMap_rows cs]
    exact List.mem_flatMap.2 ⟨r, h, hmem⟩)

/-- The lines of the rows are what is read; behind an end there is one empty line more. -/
inductive Reading : List Row → List (List Char) → Prop where
  | past {rs : List Row} : Reading rs (rs.map Row.line ++ [[]])
  | within {rs : List Row} {r : Row} (last : rs.getLast? = some r) (some : r.line ≠ []) :
      Reading rs (rs.map Row.line)

theorem Reading.cons {pieces : List (List Char)} (h : Reading rs pieces) (e : LineEnd) :
    Reading (⟨[], e⟩ :: rs) ([] :: pieces) := by
  cases h with
  | past => exact .past
  | @within r last some =>
    exact .within (r := r) (by rw [List.getLast?_cons, last]; rfl) some

theorem Reading.push {pieces : List (List Char)} (h : Reading rs pieces) (c : Char) :
    ∃ piece rest, pieces = piece :: rest ∧ Reading (push c rs) ((c :: piece) :: rest) := by
  cases h with
  | past =>
    cases rs with
    | nil => exact ⟨[], [], rfl, .within (r := ⟨[c], .none⟩) rfl (by simp)⟩
    | cons r rs => exact ⟨r.line, _, rfl, .past⟩
  | @within r last some =>
    cases rs with
    | nil => cases last
    | cons r₀ rs =>
      refine ⟨r₀.line, _, rfl, ?_⟩
      cases rs with
      | nil => exact .within (r := ⟨c :: r₀.line, r₀.ending⟩) rfl (by simp)
      | cons r₁ rs => exact .within (r := r) (by rwa [List.getLast?_cons_cons] at last) some

theorem reading_rows (cs : List Char) : Reading (rows cs) (splitAtChar '\n' (unifyNewlines cs)) := by
  induction cs using rows.induct with
  | case1 => exact .past
  | case2 cs ih => simpa [rows, unifyNewlines, splitAtChar] using ih.cons .both
  | case3 cs _ ih => simpa [rows, unifyNewlines, splitAtChar] using ih.cons .newline
  | case4 cs hboth _ ih => simpa [rows, unifyNewlines, splitAtChar] using ih.cons .return_
  | case5 c cs hboth hn hr ih =>
    obtain ⟨piece, rest, hpieces, hread⟩ := ih.push c
    rw [rows, if_neg hn, if_neg hr, unifyNewlines, if_neg hr, splitAtChar, if_neg hn, hpieces]
    · exact hread
    · exact hboth
    · exact hboth

end Scaffold.Text
