import Scaffold.Yaml.Block
import Scaffold.Yaml.Plain
import Scaffold.Yaml.Property

/-!
The tokens of a document. Indentation becomes tokens of its own: a block starts where a line begins
deeper than the block around it, and ends where one begins further left.

Whether a scalar is a key shows only at the colon after it. Hence the place of each possible key is
kept, one for every open bracket, and the colon inserts the key's token there.
-/

namespace Scaffold.Yaml

inductive Token where
  | documentEnd
  | documentStart
  | directive (d : Directive)
  | streamEnd
  | blockSequenceStart
  | blockMappingStart
  | blockEnd
  | flowSequenceStart
  | flowSequenceEnd
  | flowMappingStart
  | flowMappingEnd
  | key
  | value
  | blockEntry
  | flowEntry
  | alias (name : String)
  | anchor (name : String)
  | tag (name : TagName)
  | scalar (text : ScalarText) (plain : Bool)
deriving Repr, DecidableEq

/-- Tokens in order, and what is met behind the last of them. -/
structure Tokens where
  list : List Token
  refusal : Refusal := .malformed
deriving Repr, DecidableEq

/-- Where a key would start: its place among the tokens and in the text. Where nothing but a key can
stand it is required. -/
structure KeyPlace where
  token : Nat
  required : Bool
  index : Nat
  line : Nat
  column : Nat

structure Lexer where
  cursor : Cursor
  tokens : Array Token
  /-- The columns of the open blocks, the innermost first. -/
  blocks : List Nat
  /-- The possible keys of the brackets around the innermost one. -/
  outer : List (Option KeyPlace)
  /-- The possible key inside the innermost bracket, or outside of all. -/
  candidate : Option KeyPlace
  /-- Whether a key may start here. -/
  keyAllowed : Bool

namespace Lexer

def start (s : String) : Lexer :=
  ⟨.start s, #[], [], [], none, true⟩

/-- Whether some bracket is open. -/
def inFlow (l : Lexer) : Bool :=
  !l.outer.isEmpty

/-- Whether a block at `column` would be deeper than the open ones. -/
def isDeeper (l : Lexer) (column : Nat) : Bool :=
  l.blocks.head?.all (· < column)

/-- Adds `t`, which takes `n` characters. -/
def add (t : Token) (n : Nat) (l : Lexer) : Lexer :=
  { l with tokens := l.tokens.push t, cursor := l.cursor.skip n }

/-- Adds `t` and goes to `c`. -/
def addUpTo (t : Token) (c : Cursor) (l : Lexer) : Lexer :=
  { l with tokens := l.tokens.push t, cursor := c }

/-- Gives up the possible key, unless it is required. -/
def dropCandidate (l : Lexer) : Except Refusal Lexer :=
  if l.candidate.any (·.required) then .error .malformed else .ok { l with candidate := none }

/-- A key that starts here is possible if it may start here. -/
def markCandidate (l : Lexer) : Except Refusal Lexer := do
  if !l.keyAllowed then return l
  let l ← l.dropCandidate
  let c := l.cursor
  let required := !l.inFlow && l.blocks.head? == some c.column
  pure { l with candidate := some ⟨l.tokens.size, required, c.index, c.line, c.column⟩ }

/-- Whether a key is over: it stands on one line and is no longer than 1024 characters. -/
def isStale (l : Lexer) (k : KeyPlace) : Bool :=
  k.line ≠ l.cursor.line || k.index + 1024 < l.cursor.index

/-- Gives up the possible keys that are over. -/
def dropStale (l : Lexer) : Except Refusal Lexer :=
  let stale (k : Option KeyPlace) := k.any l.isStale
  let keep (k : Option KeyPlace) := if stale k then none else k
  if (l.candidate :: l.outer).any fun k => stale k && k.any (·.required) then .error .malformed
  else .ok { l with candidate := keep l.candidate, outer := l.outer.map keep }

/-- Ends the blocks that are deeper than `column`; without a column, all of them. -/
def closeBlocks (column : Option Nat) (l : Lexer) : Lexer :=
  if l.inFlow then l
  else
    let deeper (b : Nat) := column.all (· < b)
    let closed := l.blocks.takeWhile deeper
    { l with
      blocks := l.blocks.dropWhile deeper
      tokens := l.tokens ++ closed.toArray.map fun _ => .blockEnd }

/-- Starts a block here if it would be deeper than the open ones. -/
def openBlock (t : Token) (l : Lexer) : Lexer :=
  let column := l.cursor.column
  if !l.inFlow && l.isDeeper column then
    { l with blocks := column :: l.blocks, tokens := l.tokens.push t }
  else l

/-- The number of characters between tokens: spaces, comments and line breaks. -/
def fillerLength (inComment : Bool) : List Char → Nat
  | [] => 0
  | c :: rest =>
    if isBreak c then fillerLength false rest + 1
    else if inComment || c == ' ' then fillerLength inComment rest + 1
    else if c == '#' then fillerLength true rest + 1
    else 0

/-- Goes to the next token. A key may start on a new line. -/
def skipFiller (l : Lexer) : Lexer :=
  let c := l.cursor
  let c := if c.index = 0 && c.peek = byteOrderMark then c.next else c
  let next := c.skip (fillerLength false c.rest)
  { l with
    cursor := next
    keyAllowed := l.keyAllowed || !l.inFlow && c.line ≠ next.line }

/-- A token outside of all blocks, at the start of a line. -/
def addTopLevel (l : Lexer) (t : Token) (c : Cursor) : Except Refusal Lexer := do
  let l ← (l.closeBlocks none).dropCandidate
  pure { l.addUpTo t c with keyAllowed := false }

def addFlowStart (l : Lexer) (t : Token) : Except Refusal Lexer := do
  let l ← l.markCandidate
  pure { l.add t 1 with outer := l.candidate :: l.outer, candidate := none, keyAllowed := true }

def addFlowEnd (l : Lexer) (t : Token) : Except Refusal Lexer := do
  let l ← l.dropCandidate
  match l.outer with
  | [] => throw .malformed
  | candidate :: outer =>
    pure { l.add t 1 with outer := outer, candidate := candidate, keyAllowed := false }

def addFlowEntry (l : Lexer) : Except Refusal Lexer := do
  let l ← l.dropCandidate
  pure { l.add .flowEntry 1 with keyAllowed := true }

/-- An entry of a block sequence. Where it stands a key could start as well. -/
def addBlockEntry (l : Lexer) : Except Refusal Lexer := do
  if !l.inFlow && !l.keyAllowed then throw .malformed
  let l ← (l.openBlock .blockSequenceStart).dropCandidate
  pure { l.add .blockEntry 1 with keyAllowed := true }

/-- The mark of a key that may be longer than a line. -/
def addKey (l : Lexer) : Except Refusal Lexer := do
  if !l.inFlow && !l.keyAllowed then throw .malformed
  let l ← (l.openBlock .blockMappingStart).dropCandidate
  pure { l.add .key 1 with keyAllowed := !l.inFlow }

/-- A colon. It confirms the possible key; without one it is the value of a marked key. -/
def addValue (l : Lexer) : Except Refusal Lexer :=
  match l.candidate with
  | some k =>
    let opens := !l.inFlow && l.isDeeper k.column
    let tokens := l.tokens.insertIdxIfInBounds k.token .key
    let tokens := if opens then tokens.insertIdxIfInBounds k.token .blockMappingStart else tokens
    let blocks := if opens then k.column :: l.blocks else l.blocks
    let l := { l with tokens := tokens, blocks := blocks, candidate := none, keyAllowed := false }
    .ok (l.add .value 1)
  | none => do
    if !l.inFlow && !l.keyAllowed then throw .malformed
    let l := l.openBlock .blockMappingStart
    pure { l.add .value 1 with keyAllowed := !l.inFlow }

/-- An alias, an anchor, a tag or a quoted scalar: each of them may start a key. -/
def addAtom (l : Lexer) (read : Cursor → Except Refusal (Token × Cursor)) :
    Except Refusal Lexer := do
  let l ← l.markCandidate
  let (t, c) ← read l.cursor
  pure { l.addUpTo t c with keyAllowed := false }

def addBlockScalar (l : Lexer) : Except Refusal Lexer := do
  let l ← l.dropCandidate
  let (text, c) ← Block.read l.blocks.head? l.cursor
  pure { l.addUpTo (.scalar ⟨text, true⟩ false) c with keyAllowed := true }

def addPlain (l : Lexer) : Except Refusal Lexer := do
  let l ← l.markCandidate
  let column := (l.blocks.head?.map (· + 1)).getD 0
  let (text, crossed, c) := Plain.read l.inFlow column l.cursor
  pure { l.addUpTo (.scalar ⟨text, true⟩ true) c with keyAllowed := crossed }

/-- Whether a plain scalar can start here. -/
def startsPlain (l : Lexer) : Bool :=
  let c := l.cursor.peek
  !(isBlankOrEnd c || "-?:,[]\x7b\x7d#&*!|>'\"%@`".contains c) ||
    !isBlankOrEnd (l.cursor.ahead 1) && (c == '-' || !l.inFlow && (c == '?' || c == ':'))

/-- Adds the token at the cursor. -/
def addNext (l : Lexer) : Except Refusal Lexer :=
  let c := l.cursor
  let alone := isBlankOrEnd (c.ahead 1)
  if c.column = 0 && c.peek = '%' then do
    let (d, c) ← Property.directive c
    l.addTopLevel (.directive d) c
  else if c.column = 0 && isMarker '-' c.rest then l.addTopLevel .documentStart (c.skip 3)
  else if c.column = 0 && isMarker '.' c.rest then l.addTopLevel .documentEnd (c.skip 3)
  else match c.peek with
    | '[' => l.addFlowStart .flowSequenceStart
    | '{' => l.addFlowStart .flowMappingStart
    | ']' => l.addFlowEnd .flowSequenceEnd
    | '}' => l.addFlowEnd .flowMappingEnd
    | ',' => l.addFlowEntry
    | '*' => l.addAtom fun c => (Property.anchorName c).map fun (name, c) => (.alias name, c)
    | '&' => l.addAtom fun c => (Property.anchorName c).map fun (name, c) => (.anchor name, c)
    | '!' => l.addAtom fun c => (Property.tagName c).map fun (name, c) => (.tag name, c)
    | '\'' | '"' => l.addAtom fun c => (Quoted.read c).map fun (text, c) => (.scalar text false, c)
    | x =>
      if x = '-' && alone then l.addBlockEntry
      else if x = '?' && (l.inFlow || alone) then l.addKey
      else if x = ':' && (l.inFlow || alone) then l.addValue
      else if (x = '|' || x = '>') && !l.inFlow then l.addBlockScalar
      else if l.startsPlain then l.addPlain
      else .error .malformed

/-- Adds what follows: the next token and the ends of blocks in front of it. -/
def step (l : Lexer) : Except Refusal Lexer := do
  let l ← l.skipFiller.dropStale
  if l.cursor.atEnd then l.addTopLevel .streamEnd l.cursor
  else (l.closeBlocks (some l.cursor.column)).addNext

/-- The number of tokens in front of the first possible key. No later token is known to stand where
it stands, as long as the key may still turn out to be one. -/
def settled (l : Lexer) : Nat :=
  let open_ := (l.candidate :: l.outer).filterMap (·.filter (!l.isStale ·))
  open_.foldl (fun n k => min n k.token) l.tokens.size

/-- The tokens up to the end of the text, or those that are settled where the text breaks off. -/
def finish : (fuel : Nat) → Lexer → Tokens
  | 0, l => { list := l.tokens.toList }
  | fuel + 1, l =>
    match l.step with
    | .error refusal => ⟨l.tokens.toList.take l.settled, refusal⟩
    | .ok next =>
      if next.tokens.back? = some .streamEnd then { list := next.tokens.toList } else finish fuel next

end Lexer

/-- The tokens of a text. Each of them takes at least one character. -/
def Tokens.ofString (s : String) : Tokens :=
  if s.toList.all isAllowed then Lexer.finish (s.length + 1) (.start s) else { list := [] }

end Scaffold.Yaml
