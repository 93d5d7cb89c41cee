import Scaffold.Decimal.Fixed

/-!
The shortest decimal text of a floating-point number: the fewest digits that read back as the same
number, and of those the digits nearest to it. Every number that rounds to `x` lies between the two
half-way points to the neighbours of `x`; a decimal grid is fine enough when one of its points is
among them, and if any is, so is one of the two grid points next to `x`.
-/

namespace Scaffold.Decimal

-- powers are those of the core library, whatever else is in scope
attribute [local instance (high)] instPowNat

/-- The numbers `n / unit` with `low ≤ n ≤ high` round to `at / unit`; the ends only if `closed`. -/
structure Rounding where
  low : Nat
  exact : Nat
  high : Nat
  unit : Nat
  closed : Bool

/-- The rounding interval of the magnitude of a finite number. -/
def rounding (x : Float) : Rounding :=
  let bits := x.toBits.toNat
  let exponent := bits / exponentBit % 2048
  let fraction := bits % exponentBit
  let m := if exponent = 0 then fraction else fraction + exponentBit
  let below := if fraction = 0 && 1 < exponent then 1 else 2
  -- in quarters of the last bit's weight
  let power := max exponent 1
  let scale := if 1077 ≤ power then 2 ^ (power - 1077) else 1
  { low := (4 * m - below) * scale, exact := 4 * m * scale, high := (4 * m + 2) * scale,
    unit := if 1077 ≤ power then 1 else 2 ^ (1077 - power), closed := m % 2 = 0 }

/-- Whether `n · 10 ^ k` rounds to the same number. -/
def Rounding.admits (r : Rounding) (n : Nat) (k : Int) : Bool :=
  let value := n * 10 ^ k.toNat * r.unit
  let scale := 10 ^ (-k).toNat
  if r.closed then r.low * scale ≤ value && value ≤ r.high * scale
  else r.low * scale < value && value < r.high * scale

/-- The position of the first digit of `num / den`: the `p` with `10 ^ (p - 1) ≤ num / den`. -/
def leadingPlace (num den : Nat) : Int :=
  if den ≤ num then (Nat.toDigits 10 (num / den)).length
  else
    let shift := (List.range 400).find? fun j => den ≤ num * 10 ^ j
    1 - (shift.getD 400 : Nat)

/-- The grid point `n` that stands for the number on the grid of step `10 ^ k`, if one reads back. -/
def Rounding.onGrid? (r : Rounding) (k : Int) : Option Nat :=
  let num := r.exact * 10 ^ (-k).toNat
  let den := r.unit * 10 ^ k.toNat
  let n := num / den
  let nearest := roundEven num den
  match r.admits n k, r.admits (n + 1) k with
  | true, true => some nearest
  | true, false => some n
  | false, true => some (n + 1)
  | false, false => none

/-- The fewest digits of a positive finite number, as an integer and a power of ten. -/
def shortestDigits (x : Float) : Nat × Int :=
  let r := rounding x
  let place := leadingPlace r.exact r.unit
  let found := (List.range 17).findSome? fun d =>
    let k := place - (d + 1 : Nat)
    (r.onGrid? k).map (·, k)
  found.getD (0, 0)

/-- Digits with the trailing zeros moved into the power of ten. -/
def trimmed (digits : List Char) : List Char :=
  let cs := (digits.reverse.dropWhile (· == '0')).reverse
  if cs.isEmpty then ['0'] else cs

/-- The shortest text that reads back. Numbers from `10 ^ 16` on, and those below `10 ^ -4`, are
written with an exponent of at least two digits; others always have a digit after the point. -/
def shortest (x : Float) : String :=
  if x.isNaN then "nan"
  else
    let sign := if isNegative x then "-" else ""
    if x.isInf then sign ++ "inf"
    else if x == 0 then sign ++ "0.0"
    else
      let (n, k) := shortestDigits x
      let all := Nat.toDigits 10 n
      let point := all.length + k
      let digits := trimmed all
      let zeros (n : Int) := List.replicate n.toNat '0'
      if -4 < point && point ≤ 16 then
        let whole := digits.take point.toNat ++ zeros (point - digits.length)
        let rest := zeros (-point) ++ digits.drop point.toNat
        let part (cs : List Char) := String.ofList (if cs.isEmpty then ['0'] else cs)
        sign ++ part whole ++ "." ++ part rest
      else
        let e := point - 1
        let mark := if e < 0 then "e-" else "e+"
        let power := Nat.toDigits 10 e.natAbs
        let mantissa := digits.take 1 ++ (if digits.length = 1 then [] else '.' :: digits.drop 1)
        sign ++ .ofList mantissa ++ mark ++ .ofList (zeros (2 - power.length) ++ power)

end Scaffold.Decimal
