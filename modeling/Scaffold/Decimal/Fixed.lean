/-!
Decimal text of a floating-point number with a fixed number of places. The number is taken exactly,
as a quotient of integers, and rounded once; a tie goes to the even neighbour.
-/

namespace Scaffold.Decimal

-- powers are those of the core library, whatever else is in scope
attribute [local instance (high)] instPowNat

/-- The lowest bit of the exponent. The bits below it are those of the fraction. -/
def exponentBit : Nat := 0x10000000000000

/-- The bit of the sign. -/
def signBit : Nat := 0x8000000000000000

/-- The magnitude of a finite number as numerator and denominator, read from its bits. -/
def ratio (x : Float) : Nat × Nat :=
  let bits := x.toBits.toNat
  let exponent := bits / exponentBit % 2048
  let fraction := bits % exponentBit
  let digits := if exponent = 0 then fraction else fraction + exponentBit
  let power := max exponent 1
  if 1075 ≤ power then (digits * 2 ^ (power - 1075), 1) else (digits, 2 ^ (1075 - power))

def isNegative (x : Float) : Bool :=
  x.toBits.toNat / signBit = 1

/-- The integer nearest to `num / den`; of two, the even one. -/
def roundEven (num den : Nat) : Nat :=
  let low := num / den
  let twice := 2 * (num % den)
  if twice < den then low
  else if den < twice then low + 1
  else if low % 2 = 0 then low else low + 1

/-- The number with `places` digits after the point. -/
def fixed (places : Nat) (x : Float) : String :=
  if x.isNaN then "nan"
  else if x.isInf then (if isNegative x then "-inf" else "inf")
  else
    let (num, den) := ratio x
    let units := roundEven (num * 10 ^ places) den
    let after := (Nat.toDigits 10 (units % 10 ^ places))
    let filled := List.replicate (places - after.length) '0' ++ after
    (if isNegative x then "-" else "") ++ Nat.repr (units / 10 ^ places) ++ "." ++ .ofList filled

end Scaffold.Decimal
