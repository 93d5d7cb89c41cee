/-!
Bytes written with the 64 letters of base 64, four letters for three bytes. Characters outside of the
alphabet are skipped; an equals sign that can end the text ends it.
-/

namespace Scaffold.Yaml.Binary

/-- The six bits of a letter. -/
def sextet? (c : Char) : Option Nat :=
  if 'A' ≤ c && c ≤ 'Z' then some (c.toNat - 65)
  else if 'a' ≤ c && c ≤ 'z' then some (c.toNat - 71)
  else if c.isDigit then some (c.toNat + 4)
  else if c = '+' then some 62
  else if c = '/' then some 63
  else none

/-- Reads letters. `place` counts the letters of the current group, `bits` are those of them that make
no whole byte yet, and `pads` counts the equals signs since the last letter. -/
def letters (place bits pads : Nat) : List Char → Option (List UInt8)
  | [] => if place = 0 then some [] else none
  | c :: rest =>
    if c = '=' then
      if 2 ≤ place && 4 ≤ place + pads + 1 then some []
      else letters place bits (if 2 ≤ place then pads + 1 else pads) rest
    else match sextet? c with
      | none => letters place bits pads rest
      | some six =>
        let all := 64 * bits + six
        match place with
        | 0 => letters 1 six 0 rest
        | 1 => (letters 2 (all % 16) 0 rest).map ((all / 16).toUInt8 :: ·)
        | 2 => (letters 3 (all % 4) 0 rest).map ((all / 4).toUInt8 :: ·)
        | _ => (letters 0 0 0 rest).map (all.toUInt8 :: ·)

/-- The bytes that a text writes. -/
def decode? (s : String) : Option ByteArray :=
  if s.toList.all (·.toNat < 128) then (letters 0 0 0 s.toList).map fun bs => ⟨bs.toArray⟩ else none

example : letters 0 0 0 ['a', 'G', 'k', '='] = some [104, 105] := by decide

end Scaffold.Yaml.Binary
