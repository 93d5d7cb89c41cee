import Scaffold.Yaml.Cursor

/-!
Block scalars: the lines that are indented deeper than what surrounds them. A literal scalar keeps
its line breaks, a folded one joins lines by spaces.
-/

namespace Scaffold.Yaml.Block

/-- What happens to the line breaks at the end. -/
inductive Chomp where
  | clip
  | strip
  | keep
deriving Repr, DecidableEq

/-- The mark that says what happens to the line breaks at the end. -/
def chomp? (c : Char) : Option Chomp :=
  if c = '+' then some .keep else if c = '-' then some .strip else none

/-- The digit that says how much deeper the lines are indented. -/
def depth? (c : Char) : Option Nat :=
  if c.isDigit then some (c.toNat - 48) else none

/-- The marks after the one that opens the scalar, in either order. -/
def marks (c : Cursor) : Chomp × Option Nat × Cursor :=
  match chomp? c.peek, depth? c.peek with
  | some chomp, _ =>
    let c := c.next
    match depth? c.peek with
    | some depth => (chomp, some depth, c.next)
    | none => (chomp, none, c)
  | none, some depth =>
    let c := c.next
    match chomp? c.peek with
    | some chomp => (chomp, some depth, c.next)
    | none => (.clip, some depth, c)
  | none, none => (.clip, none, c)

/-- The breaks of empty lines at the cursor. Lines lose the spaces before `column`. -/
def breaks (column fuel : Nat) (c : Cursor) : List Char × Cursor :=
  match fuel with
  | 0 => ([], c)
  | fuel + 1 =>
    let spaces := (c.rest.takeWhile (· == ' ')).take (column - c.column)
    let c := c.skip spaces.length
    if isBreak c.peek then
      let (more, last) := breaks column fuel c.next
      (keptBreak c.peek :: more, last)
    else ([], c)

/-- The breaks of empty lines at the cursor, the widest of these lines and of the indentation after
them, and the place after both. -/
def leading (widest fuel : Nat) (c : Cursor) : List Char × Nat × Cursor :=
  match fuel with
  | 0 => ([], widest, c)
  | fuel + 1 =>
    let c := c.skipWhile (· == ' ')
    let widest := max widest c.column
    if isBreak c.peek then
      let (more, widest, last) := leading widest fuel c.next
      (keptBreak c.peek :: more, widest, last)
    else ([], widest, c)

/-- The lines from the cursor on: their text, the breaks after the last of them, and the place. -/
def lines (folded : Bool) (column fuel : Nat) (c : Cursor) :
    List Char × List Char × List Char × Cursor :=
  match fuel with
  | 0 => ([], [], [], c)
  | fuel + 1 =>
    let (text, eol) := c.span (!isBreak ·)
    let (lineBreak, next) := eol.lineBreak
    let (empty, next) := breaks column (next.rest.length + 1) next
    if next.column = column && !next.atEnd then
      let joins := folded && lineBreak = ['\n'] && !isBlank c.peek && !isBlank next.peek
      let joint := if joins then (if empty.isEmpty then [' '] else []) else lineBreak
      let (rest, ending) := lines folded column fuel next
      (text ++ joint ++ empty ++ rest, ending)
    else (text, lineBreak, empty, next)

/-- The scalar at its opening mark, inside a block at `column`, and the place after it. -/
def read (column : Option Nat) (c : Cursor) : Except Refusal (String × Cursor) := do
  let folded := c.peek == '>'
  let (chomp, depth, c) := marks c.next
  if depth = some 0 || !isSpaceOrEnd c.peek then throw .malformed
  let c ← c.endLine
  let least := max 1 ((column.map (· + 1)).getD 0)
  let fuel := c.rest.length + 1
  let (empty, column, c) := match depth with
    | none =>
      let (empty, widest, c) := leading 0 fuel c
      (empty, max least widest, c)
    | some depth =>
      let column := least + depth - 1
      let (empty, c) := breaks column fuel c
      (empty, column, c)
  let (text, lineBreak, ending, c) :=
    if c.column = column && !c.atEnd then
      let (text, ending) := lines folded column fuel c
      (empty ++ text, ending)
    else ([], [], empty, c)
  let tail := match chomp with
    | .clip => lineBreak
    | .strip => []
    | .keep => lineBreak ++ ending
  pure (.ofList (text ++ tail), c)

end Scaffold.Yaml.Block
