import Scaffold.Yaml.Cursor

/-!
Plain scalars: text without quotes. It ends where a character says so that means something in a
document, and at the end of a line unless the next lines go on with it. Lines are joined by a space;
of several line breaks all but the first stay.
-/

namespace Scaffold.Yaml.Plain

/-- Whether a plain scalar ends at `cs`. Inside brackets more characters end it. -/
def ends (inFlow : Bool) : List Char → Bool
  | [] => true
  | c :: rest =>
    let after := rest.headD endMark
    isBlankOrEnd c || (c == ':' && (isBlankOrEnd after || inFlow && ",[]\x7b\x7d".contains after)) ||
      inFlow && ",?[]\x7b\x7d".contains c

/-- The characters up to the next blank or the end of the scalar. -/
def run (inFlow : Bool) : List Char → List Char
  | [] => []
  | c :: rest => if ends inFlow (c :: rest) then [] else c :: run inFlow rest

/-- The breaks among the spaces and breaks ahead, the number of characters, and whether the end of
the document follows. `fresh` says that a line starts here. -/
def breaks (fresh : Bool) : List Char → List Char × Nat × Bool
  | [] => ([], 0, false)
  | c :: rest =>
    if fresh && isSeparator (c :: rest) then ([], 0, true)
    else if c = ' ' then
      let (bs, n, ended) := breaks false rest
      (bs, n + 1, ended)
    else if isBreak c then
      let (bs, n, ended) := breaks true rest
      (keptBreak c :: bs, n + 1, ended)
    else ([], 0, false)

/-- What stands between two runs: the characters it leaves, none if the scalar cannot go on, and the
place after it. -/
def gap (c : Cursor) : List Char × Cursor :=
  let (spaces, c) := c.span (· == ' ')
  if isBreak c.peek then
    let first := keptBreak c.peek
    let c := c.next
    let (more, n, ended) := breaks true c.rest
    let text := if first ≠ '\n' then first :: more else if more.isEmpty then [' '] else more
    (if ended then [] else text, c.skip n)
  else (spaces, c)

/-- Reads runs and gaps. `pending` is the gap before the cursor and `crossed` whether it crosses a
line, `column` the least column of a line that goes on outside of brackets. -/
def lines (inFlow : Bool) (column fuel : Nat) (pending : List Char) (crossed : Bool) (c : Cursor) :
    List Char × Bool × Cursor :=
  match fuel with
  | 0 => ([], crossed, c)
  | fuel + 1 =>
    let part := run inFlow c.rest
    if c.peek = '#' || part.isEmpty then ([], crossed, c)
    else
      let after := c.skip part.length
      let (text, next) := gap after
      let crossed := after.line ≠ next.line
      if text.isEmpty || next.peek = '#' || !inFlow && next.column < column then
        (pending ++ part, crossed, next)
      else
        let (rest, ending) := lines inFlow column fuel text crossed next
        (pending ++ part ++ rest, ending)

/-- The scalar at the cursor, whether a line ended since its last character, and the place there. -/
def read (inFlow : Bool) (column : Nat) (c : Cursor) : String × Bool × Cursor :=
  let (text, ending) := lines inFlow column (c.rest.length + 1) [] false c
  (.ofList text, ending)

end Scaffold.Yaml.Plain
