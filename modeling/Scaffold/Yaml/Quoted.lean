import Scaffold.Yaml.Cursor

/-!
Quoted scalars. Reading goes in two steps: the characters between the quotes become pieces, in which
escapes are resolved, and `fold` joins the lines of the pieces. Blanks around a line break vanish; a
single line break becomes a space, further ones stay.
-/

namespace Scaffold.Yaml

/-- The text of a scalar. It is not `whole` where it holds halves of surrogate pairs; there, two halves
side by side stand as the character they make, and a lone one as the replacement character. -/
structure ScalarText where
  text : String
  whole : Bool := true
deriving Repr, DecidableEq

inductive Piece where
  | char (c : Char)
  /-- Half of a surrogate pair, by its code. -/
  | half (code : Nat)
  | blank (c : Char)
  | lineBreak (c : Char)
  /-- A line break that is escaped and leaves no space. -/
  | joint
deriving Repr, DecidableEq

namespace Quoted

/-- What a backslash and one more character stand for. -/
def escape? (c : Char) : Option Char :=
  match c with
  | '0' => some '\x00'
  | 'a' => some '\x07'
  | 'b' => some '\x08'
  | 't' | '\t' => some '\t'
  | 'n' => some '\n'
  | 'v' => some '\x0b'
  | 'f' => some '\x0c'
  | 'r' => some '\r'
  | 'e' => some '\x1b'
  | ' ' | '"' | '\\' | '/' => some c
  | 'N' => some '\x85'
  | '_' => some '\xa0'
  | 'L' => some '\u2028'
  | 'P' => some '\u2029'
  | _ => none

/-- The number of hexadecimal digits after a backslash and this character. -/
def codeLength? (c : Char) : Option Nat :=
  match c with
  | 'x' => some 2
  | 'u' => some 4
  | 'U' => some 8
  | _ => none

def hexValue? (c : Char) : Option Nat :=
  if c.isDigit then some (c.toNat - 48)
  else if 'a' ≤ c && c ≤ 'f' then some (c.toNat - 87)
  else if 'A' ≤ c && c ≤ 'F' then some (c.toNat - 55)
  else none

/-- The number that `count` hexadecimal digits at the start of `cs` write. -/
def hexCode? (count : Nat) (cs : List Char) : Option Nat :=
  let digits := cs.take count
  if digits.length < count then none
  else digits.foldlM (fun n c => (hexValue? c).map (16 * n + ·)) 0

/-- What a code stands for. -/
def pieceOfCode (n : Nat) : Except Refusal Piece :=
  if 0x80000000 ≤ n then .error (.scalar .codeTooLarge)
  else if 0x110000 ≤ n then .error (.scalar (.refused "chr() arg not in range(0x110000)"))
  else .ok (if 0xd800 ≤ n && n ≤ 0xdfff then .half n else .char (Char.ofNat n))

/-- Puts a piece of `n` characters in front. -/
def push (piece : Piece) (n : Nat) (r : List Piece × Nat) : List Piece × Nat :=
  (piece :: r.1, r.2 + n)

/-- The pieces up to the closing quote and the number of characters they take, the closing quote
included. `fresh` says that a line starts at `cs`: no document may end there. -/
def pieces (quote : Char) (fresh : Bool) (cs : List Char) : Except Refusal (List Piece × Nat) :=
  if fresh && isSeparator cs then .error .malformed
  else match cs with
    | [] => .error .malformed
    | c :: rest =>
      if c = quote then
        if quote = '\'' && rest.head? = some quote then
          (pieces quote false (rest.drop 1)).map (push (.char quote) 2)
        else .ok ([], 1)
      else if c = '\\' && quote = '"' then
        match rest with
        | [] => .error .malformed
        | e :: rest =>
          match escape? e, codeLength? e with
          | some x, _ => (pieces quote false rest).map (push (.char x) 2)
          | none, some count =>
            match hexCode? count rest with
            | none => .error .malformed
            | some n => do
              let x ← pieceOfCode n
              (pieces quote false (rest.drop count)).map (push x (2 + count))
          | none, none =>
            if isBreak e then (pieces quote true rest).map (push .joint 2) else .error .malformed
      else if isBreak c then (pieces quote true rest).map (push (.lineBreak (keptBreak c)) 1)
      else if isBlank c then (pieces quote false rest).map (push (.blank c) 1)
      else (pieces quote false rest).map (push (.char c) 1)
termination_by cs.length
decreasing_by all_goals simp_all <;> omega

def Piece.isHalf : Piece → Bool
  | .half _ => true
  | _ => false

/-- The character that two codes make as a surrogate pair, if they are one. -/
def paired? (high low : Nat) : Option Char :=
  if high < 0xdc00 && 0xdc00 ≤ low then
    some (Char.ofNat (0x10000 + (high - 0xd800) * 0x400 + (low - 0xdc00)))
  else none

/-- Puts halves side by side together. -/
def joinHalves : List Piece → List Piece
  | [] => []
  | .half high :: rest =>
    match joinHalves rest with
    | .half low :: joined =>
      match paired? high low with
      | some c => .char c :: joined
      | none => .half high :: .half low :: joined
    | joined => .half high :: joined
  | p :: rest => p :: joinHalves rest

/-- What was read since the last character of a line. -/
inductive Gap where
  | blanks (cs : List Char)
  /-- One break, none for an escaped one, and more of them. -/
  | breaks (first : Option Char) (more : List Char)

/-- The characters that a gap leaves. -/
def Gap.text : Gap → List Char
  | blanks cs => cs
  | breaks none more => more
  | breaks (some '\n') [] => [' ']
  | breaks (some '\n') more => more
  | breaks (some c) more => c :: more

/-- A gap with one more break. -/
def Gap.broken (c : Char) : Gap → Gap
  | blanks _ => breaks (some c) []
  | breaks first more => breaks first (more ++ [c])

/-- A gap with one more blank: at the start of a line it is dropped. -/
def Gap.widened (c : Char) : Gap → Gap
  | blanks cs => blanks (cs ++ [c])
  | breaks first more => breaks first more

/-- The text that pieces write. -/
def fold (gap : Gap) : List Piece → List Char
  | [] => gap.text
  | .char c :: rest => gap.text ++ c :: fold (.blanks []) rest
  | .half _ :: rest => gap.text ++ '\ufffd' :: fold (.blanks []) rest
  | .blank c :: rest => fold (gap.widened c) rest
  | .lineBreak c :: rest => fold (gap.broken c) rest
  | .joint :: rest => gap.text ++ fold (.breaks none []) rest

/-- The scalar at an opening quote, and the place after it. -/
def read (c : Cursor) : Except Refusal (ScalarText × Cursor) := do
  let (ps, n) ← pieces c.peek false (c.rest.drop 1)
  let text := String.ofList (fold (.blanks []) (joinHalves ps))
  pure (⟨text, !ps.any Piece.isHalf⟩, c.skip (n + 1))

theorem fold_chars (cs : List Char) : fold (.blanks []) (cs.map .char) = cs := by
  induction cs with
  | nil => rfl
  | cons c cs ih => simp [fold, Gap.text, ih]

end Quoted

end Scaffold.Yaml
