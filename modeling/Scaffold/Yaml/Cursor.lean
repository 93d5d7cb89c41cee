import Scaffold.Fault

/-!
A place in the text of a YAML document. Columns decide about nesting, so a cursor counts lines and
columns as it moves. The text has its line ends written as newlines.
-/

namespace Scaffold.Yaml

/-- Why a text has no value: it is no well-formed document, or one of its scalars has none. -/
inductive Refusal where
  | malformed
  | scalar (fault : ScalarFault)
deriving Repr, DecidableEq

/-- Stands for the end of the text, which itself holds no such character. -/
def endMark : Char := '\x00'

/-- The characters that a document may consist of. -/
def isAllowed (c : Char) : Bool :=
  let n := c.toNat
  n == 9 || n == 0x0a || n == 0x0d || (0x20 ≤ n && n ≤ 0x7e) || n == 0x85 ||
    (0xa0 ≤ n && n ≤ 0xd7ff) || (0xe000 ≤ n && n ≤ 0xfffd) || 0x10000 ≤ n

def isBreak (c : Char) : Bool :=
  c == '\n' || c == '\x85' || c == '\u2028' || c == '\u2029'

/-- A break as it stays in the text of a scalar. -/
def keptBreak (c : Char) : Char :=
  if c = '\x85' then '\n' else c

/-- `cs` without one newline at its end. -/
def dropFinalBreak (cs : List Char) : List Char :=
  if cs.getLast? = some '\n' then cs.dropLast else cs

def isBreakOrEnd (c : Char) : Bool :=
  isBreak c || c == endMark

def isBlank (c : Char) : Bool :=
  c == ' ' || c == '\t'

def isSpaceOrEnd (c : Char) : Bool :=
  c == ' ' || isBreakOrEnd c

def isBlankOrEnd (c : Char) : Bool :=
  c == '\t' || isSpaceOrEnd c

/-- The characters of names: of anchors, directives and tag handles. -/
def isWordChar (c : Char) : Bool :=
  c.isAlphanum || c == '-' || c == '_'

def byteOrderMark : Char := '\ufeff'

/-- Whether `cs`, at the start of a line, is three times `c` with nothing attached. -/
def isMarker (c : Char) (cs : List Char) : Bool :=
  [c, c, c].isPrefixOf cs && isBlankOrEnd (cs.getD 3 endMark)

/-- Whether `cs`, at the start of a line, separates documents. -/
def isSeparator (cs : List Char) : Bool :=
  isMarker '-' cs || isMarker '.' cs

structure Cursor where
  rest : List Char
  index : Nat
  line : Nat
  column : Nat

namespace Cursor

def start (s : String) : Cursor :=
  ⟨s.toList, 0, 0, 0⟩

/-- The character `n` places ahead. -/
def ahead (c : Cursor) (n : Nat) : Char :=
  c.rest.getD n endMark

def peek (c : Cursor) : Char :=
  c.ahead 0

def atEnd (c : Cursor) : Bool :=
  c.rest.isEmpty

/-- One character on. A byte order mark takes no column. -/
def next (c : Cursor) : Cursor :=
  match c.rest with
  | [] => c
  | x :: rest =>
    if isBreak x then ⟨rest, c.index + 1, c.line + 1, 0⟩
    else ⟨rest, c.index + 1, c.line, if x = byteOrderMark then c.column else c.column + 1⟩

/-- `n` characters on. -/
def skip : (n : Nat) → (c : Cursor) → Cursor
  | 0, c => c
  | n + 1, c => skip n c.next

/-- The longest run of characters that satisfy `p`, and the place after it. -/
def span (p : Char → Bool) (c : Cursor) : List Char × Cursor :=
  let run := c.rest.takeWhile p
  (run, c.skip run.length)

def skipWhile (p : Char → Bool) (c : Cursor) : Cursor :=
  (c.span p).2

/-- The line break at the cursor, if there is one, and the place after it. -/
def lineBreak (c : Cursor) : List Char × Cursor :=
  if isBreak c.peek then ([keptBreak c.peek], c.next) else ([], c)

/-- Skips what may follow on a line that is otherwise complete: spaces, a comment, the break. -/
def endLine (c : Cursor) : Except Refusal Cursor :=
  let c := c.skipWhile (· == ' ')
  let c := if c.peek == '#' then c.skipWhile (!isBreak ·) else c
  if isBreakOrEnd c.peek then .ok c.lineBreak.2 else .error .malformed

theorem rest_next (c : Cursor) : c.next.rest = c.rest.drop 1 := by
  unfold next
  cases h : c.rest with
  | nil => simp [h]
  | cons x rest => simp only []; split <;> rfl

/-- Skipping drops characters and nothing else. -/
theorem rest_skip (n : Nat) (c : Cursor) : (c.skip n).rest = c.rest.drop n := by
  induction n generalizing c with
  | zero => rfl
  | succ n ih => rw [skip, ih, rest_next, List.drop_drop, Nat.add_comm]

/-- A run and what is left after it make up what was ahead. -/
theorem span_append (p : Char → Bool) (c : Cursor) : (c.span p).1 ++ (c.span p).2.rest = c.rest := by
  simp only [span, rest_skip]
  exact List.prefix_iff_eq_append.1 (List.takeWhile_prefix p)

end Cursor

end Scaffold.Yaml
