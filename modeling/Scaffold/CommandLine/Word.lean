import Scaffold.CommandLine.Switch
import Scaffold.Text.Digit

/-!
The words of a command line. A word that starts with a dash is a switch, unless it is a dash alone, a
negative number or no switch and with a space in it; after a word of two dashes none is. A long
spelling may be shortened as long as only one switch is meant, and the value of a switch may be
attached: by an equals sign, or right behind a spelling of one letter. Behind such a spelling an equals
sign may be left out as long as something follows it.
-/

namespace Scaffold.CommandLine

/-- What stands in the same word behind a switch. -/
inductive Tail where
  | nothing
  /-- A value after an equals sign. -/
  | value (text : String)
  /-- Letters right behind a spelling of one letter: a value, or more switches. -/
  | letters (cs : List Char)
deriving Repr, DecidableEq

inductive Word where
  | plain (text : String)
  | switch (s : Switch) (tail : Tail)
  | unknown (text : String)
  /-- Two dashes. -/
  | delimiter
deriving Repr, DecidableEq

namespace Word

/-- A digit run after a dash, with a point or without. -/
def isNegativeNumber (cs : List Char) : Bool :=
  match cs with
  | '-' :: rest =>
    let rest := if rest.getLast? = some '\n' then rest.dropLast else rest
    let whole := rest.takeWhile Text.isDecimalDigit
    match rest.drop whole.length with
    | [] => !whole.isEmpty
    | '.' :: fraction => !fraction.isEmpty && fraction.all Text.isDecimalDigit
    | _ => false
  | _ => false

/-- What stands before the first equals sign, and the rest. -/
def splitMark (cs : List Char) : String × Tail :=
  let before := cs.takeWhile (· ≠ '=')
  let tail := match cs.drop before.length with
    | [] => .nothing
    | _ :: value => .value (.ofList value)
  (.ofList before, tail)

/-- The spellings that a word with two dashes may be short for. -/
def candidates (start : String) : List (String × Switch) :=
  Switch.table.filter fun entry => Text.startsWith entry.1 start

/-- What stands behind a spelling of one letter and an equals sign. -/
def shortTail : Tail → Tail
  | .value text => if text.isEmpty then .value text else .letters text.toList
  | tail => tail

/-- What a word is that stands for no switch. -/
def other (text : String) : Word :=
  if isNegativeNumber text.toList || text.toList.contains ' ' then .plain text else .unknown text

/-- What a word is that stands before any delimiter. -/
def ofString (text : String) : Except UsageFault Word :=
  match text.toList, Switch.ofSpelling? text with
  | '-' :: _ :: _, some s => .ok (.switch s .nothing)
  | '-' :: second :: rest, none =>
    let (start, tail) := splitMark text.toList
    match Switch.ofSpelling? start with
    | some s => .ok (.switch s (if second = '-' then tail else shortTail tail))
    | none =>
      if second = '-' then
        match candidates start with
        | [] => .ok (other text)
        | [(_, s)] => .ok (.switch s tail)
        | several => .error (.ambiguous text (several.map Prod.fst))
      else match Switch.ofSpelling? (.ofList ['-', second]) with
        | some s => .ok (.switch s (.letters rest))
        | none => .ok (other text)
  | _, _ => .ok (.plain text)

/-- The words of a command line. -/
def ofArguments : List String → Except UsageFault (List Word)
  | [] => .ok []
  | "--" :: rest => .ok (.delimiter :: rest.map .plain)
  | text :: rest => do
    let w ← ofString text
    pure (w :: (← ofArguments rest))

end Word

end Scaffold.CommandLine
