import Scaffold.Yaml.Quoted

/-!
What stands beside the contents of a document: anchors and aliases, tags, and the directives before
the document.
-/

namespace Scaffold.Yaml

/-- A tag as written: a handle to look up, if there is one, and what follows it. -/
structure TagName where
  handle : Option String
  suffix : String
deriving Repr, DecidableEq

inductive Directive where
  | version (major minor : Nat)
  | tag (handle start : String)
  | other
deriving Repr, DecidableEq

namespace Property

/-- A non-empty run of word characters. -/
def word (c : Cursor) : Except Refusal (String × Cursor) :=
  let (run, next) := c.span isWordChar
  if run.isEmpty then .error .malformed else .ok (.ofList run, next)

/-- The name after the mark of an anchor or an alias. -/
def anchorName (c : Cursor) : Except Refusal (String × Cursor) := do
  let (name, c) ← word c.next
  if isBlankOrEnd c.peek || "?:,]\x7d%@`".contains c.peek then pure (name, c)
  else throw .malformed

/-- The bytes that percent signs with two hexadecimal digits write, and the place after them. -/
def escapedBytes : (fuel : Nat) → Cursor → Except Refusal (List UInt8 × Cursor)
  | 0, c => .ok ([], c)
  | fuel + 1, c =>
    if c.peek = '%' then
      match Quoted.hexCode? 2 (c.rest.drop 1) with
      | none => .error .malformed
      | some n => (escapedBytes fuel (c.skip 3)).map fun (bs, c) => (n.toUInt8 :: bs, c)
    else .ok ([], c)

def isUriChar (c : Char) : Bool :=
  isWordChar c || ";/?:@&=+$,.!~*'()[]".contains c

/-- The characters of an identifier, escapes resolved. -/
def uriChars : (fuel : Nat) → Cursor → Except Refusal (String × Cursor)
  | 0, c => .ok ("", c)
  | fuel + 1, c => do
    let (run, c) := c.span isUriChar
    if c.peek = '%' then
      let (bytes, c) ← escapedBytes c.rest.length c
      match String.fromUTF8? ⟨bytes.toArray⟩ with
      | none => throw .malformed
      | some s =>
        let (rest, c) ← uriChars fuel c
        pure (.ofList run ++ s ++ rest, c)
    else pure (.ofList run, c)

/-- An identifier, which is not empty. -/
def uri (c : Cursor) : Except Refusal (String × Cursor) :=
  if isUriChar c.peek || c.peek = '%' then uriChars (c.rest.length + 1) c else .error .malformed

/-- A tag handle: an exclamation mark, alone or with a word and a second one. -/
def handle (c : Cursor) : Except Refusal (String × Cursor) :=
  if c.peek ≠ '!' then .error .malformed
  else if c.ahead 1 = ' ' then .ok ("!", c.next)
  else
    let (run, next) := c.next.span isWordChar
    if next.peek = '!' then .ok ("!" ++ .ofList run ++ "!", next.next) else .error .malformed

/-- The tag at its exclamation mark. -/
def tagName (c : Cursor) : Except Refusal (TagName × Cursor) := do
  let (name, c) ←
    if c.ahead 1 = '<' then do
      let (suffix, c) ← uri (c.skip 2)
      if c.peek = '>' then pure (⟨none, suffix⟩, c.next) else throw .malformed
    else if isBlankOrEnd (c.ahead 1) then pure (⟨none, "!"⟩, c.next)
    else if ((c.rest.drop 1).takeWhile (!isSpaceOrEnd ·)).contains '!' then do
      let (name, c) ← handle c
      let (suffix, c) ← uri c
      pure (⟨some name, suffix⟩, c)
    else do
      let (suffix, c) ← uri c.next
      pure (⟨some "!", suffix⟩, c)
  if isSpaceOrEnd c.peek then pure (name, c) else throw .malformed

/-- The number that a run of digits writes. -/
def number (c : Cursor) : Except Refusal (Nat × Cursor) :=
  let (run, next) := c.span Char.isDigit
  if run.isEmpty then .error .malformed
  else if digitLimit < run.length then .error (.scalar (.tooManyDigits run.length))
  else .ok (run.foldl (fun n d => 10 * n + (d.toNat - 48)) 0, next)

/-- The directive at its percent sign, and the place after its line. -/
def directive (c : Cursor) : Except Refusal (Directive × Cursor) := do
  let spaces := (· == ' ')
  let (name, c) ← word c.next
  unless isSpaceOrEnd c.peek do throw .malformed
  let (directive, c) ←
    if name = "YAML" then do
      let (major, c) ← number (c.skipWhile spaces)
      unless c.peek = '.' do throw .malformed
      let (minor, c) ← number c.next
      pure (Directive.version major minor, c)
    else if name = "TAG" then do
      let (name, c) ← handle (c.skipWhile spaces)
      unless c.peek = ' ' do throw .malformed
      let (start, c) ← uri (c.skipWhile spaces)
      pure (Directive.tag name start, c)
    else pure (Directive.other, c.skipWhile (!isBreak ·))
  unless isSpaceOrEnd c.peek do throw .malformed
  pure (directive, ← c.endLine)

end Property

end Scaffold.Yaml
