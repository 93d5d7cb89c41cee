/-!
Percent escapes: a percent sign with two hexadecimal digits stands for a byte. Bytes side by side,
escaped or not, are read as UTF-8; what is no UTF-8 among them becomes replacement characters.
-/

namespace Scaffold.Text.Percent

-- powers are those of the core library, whatever else is in scope
attribute [local instance (high)] instPowNat

/-- The bytes that may follow a lead byte: how many, and the range of the first of them. -/
def following? (lead : UInt8) : Option (Nat × UInt8 × UInt8) :=
  if 0xc2 ≤ lead && lead ≤ 0xdf then some (1, 0x80, 0xbf)
  else if lead = 0xe0 then some (2, 0xa0, 0xbf)
  else if lead = 0xed then some (2, 0x80, 0x9f)
  else if 0xe1 ≤ lead && lead ≤ 0xef then some (2, 0x80, 0xbf)
  else if lead = 0xf0 then some (3, 0x90, 0xbf)
  else if lead = 0xf4 then some (3, 0x80, 0x8f)
  else if 0xf1 ≤ lead && lead ≤ 0xf3 then some (3, 0x80, 0xbf)
  else none

/-- The bytes after a lead byte that belong to its character, `count` of them if it is whole. -/
def tail (count : Nat) (low high : UInt8) (bytes : List UInt8) : List UInt8 :=
  match bytes.take 1 with
  | [b] => if low ≤ b && b ≤ high then
      (b :: ((bytes.drop 1).take (count - 1)).takeWhile fun b => 0x80 ≤ b && b ≤ 0xbf)
    else []
  | _ => []

/-- The character that a lead byte and `count` more bytes make. -/
def joined (lead : UInt8) (count : Nat) (more : List UInt8) : Char :=
  let first := lead.toNat % 2 ^ (6 - count)
  .ofNat (more.foldl (fun n b => 64 * n + b.toNat % 64) first)

/-- Reads UTF-8. A byte that starts no character, and the start of one that is cut off, become
replacement characters. -/
def characters : List UInt8 → List Char
  | [] => []
  | lead :: bytes =>
    if lead < 0x80 then .ofNat lead.toNat :: characters bytes
    else match following? lead with
      | none => '\ufffd' :: characters bytes
      | some (count, low, high) =>
        let more := tail count low high bytes
        let c := if more.length = count then joined lead count more else '\ufffd'
        c :: characters (bytes.drop more.length)
termination_by bytes => bytes.length
decreasing_by all_goals simp [List.length_drop]; try omega

def hexDigit? (c : Char) : Option Nat :=
  if c.isDigit then some (c.toNat - 48)
  else if 'a' ≤ c && c ≤ 'f' then some (c.toNat - 87)
  else if 'A' ≤ c && c ≤ 'F' then some (c.toNat - 55)
  else none

/-- The byte of an escape, without the percent sign. -/
def escape? (a b : Char) : Option UInt8 := do
  let high ← hexDigit? a
  let low ← hexDigit? b
  pure (16 * high + low).toUInt8

/-- Resolves escapes; `bytes` are those read since the last character that is not ASCII, the last
first. -/
def resolve (bytes : List UInt8) : List Char → List Char
  | [] => characters bytes.reverse
  | '%' :: a :: b :: rest =>
    match escape? a b with
    | some byte => resolve (byte :: bytes) rest
    | none => resolve (0x25 :: bytes) (a :: b :: rest)
  | c :: rest =>
    if c.toNat < 0x80 then resolve (c.toNat.toUInt8 :: bytes) rest
    else characters bytes.reverse ++ c :: resolve [] rest

/-- The text with its escapes resolved. -/
def decode (s : String) : String :=
  .ofList (resolve [] s.toList)

example : resolve [] ['%', '6', '4', 'b', '%', '2'] = ['d', 'b', '%', '2'] := by decide +kernel

end Scaffold.Text.Percent
