/-!
Blank characters. `strip` removes them from both ends of a text; a line is blank when nothing is
left of it.
-/

namespace Scaffold.Text

/-- The blank characters: the ASCII controls that move the cursor, the four ASCII separators, and
the spaces and line ends of Unicode. The zero-width space and the byte order mark are not blank. -/
def isBlank (c : Char) : Bool :=
  let n := c.toNat
  (9 ≤ n && n ≤ 13) || (0x1c ≤ n && n ≤ 0x20) || n == 0x85 || n == 0xa0 || n == 0x1680 ||
    (0x2000 ≤ n && n ≤ 0x200a) || n == 0x2028 || n == 0x2029 || n == 0x202f || n == 0x205f ||
    n == 0x3000

/-- Drops the longest end of `cs` whose members all satisfy `p`. -/
def dropEndWhile (p : Char → Bool) (cs : List Char) : List Char :=
  (cs.reverse.dropWhile p).reverse

/-- Drops blanks at both ends. -/
def strip (cs : List Char) : List Char :=
  dropEndWhile isBlank (cs.dropWhile isBlank)

/-- Drops `c` at both ends, as often as it stands there. -/
def stripChar (c : Char) (s : String) : String :=
  .ofList (dropEndWhile (· == c) (s.toList.dropWhile (· == c)))

/-- `strip` on strings. -/
def stripped (s : String) : String :=
  .ofList (strip s.toList)

theorem isBlank_of_isWhitespace {c : Char} (h : c.isWhitespace) : isBlank c := by
  simp only [Char.isWhitespace, Bool.or_eq_true, decide_eq_true_eq] at h
  rcases h with ((rfl | rfl) | rfl) | rfl <;> decide

end Scaffold.Text
