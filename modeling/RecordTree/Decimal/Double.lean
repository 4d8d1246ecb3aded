/-!
# Binary64 numbers

A finite binary64 number is a sign and a *rank*: the position of its magnitude in the increasing
list of all non-negative doubles, zero first. Ranks below `2 ^ 52` are the subnormals. The rank is
also the word of the usual bit layout without its sign bit, so neighbouring doubles have
neighbouring ranks and an overflow is a rank that is too large.

`roundQuotient` is the one rounding rule: a quotient of natural numbers goes to the nearest
double, and a quotient in the middle of two doubles to the one with the even rank.
-/

namespace RecordTree.Decimal

/-- A quotient rounded to the nearest natural number, a half going to the even neighbour. -/
def roundHalfEven (num den : Nat) : Nat :=
  let quotient := num / den
  let rest := 2 * (num % den)
  if rest < den then quotient
  else if den < rest then quotient + 1
  else quotient + quotient % 2

/-- A binary64 number that is neither infinite nor undefined. -/
structure Double where
  /-- Whether the number carries a minus sign; zero may. -/
  negative : Bool
  /-- The position of the magnitude among the non-negative doubles. -/
  rank : Nat
  deriving DecidableEq, Repr, Inhabited

namespace Double

/-- The significands of a binade: their number, and the least of them. -/
def binade : Nat := Nat.pow 2 52

/-- The rank just after that of the largest finite double. -/
def rankLimit : Nat := 0x7FF * binade

/-- The exponent of the unit in the last place of the subnormals. -/
def leastExponent : Int := -1074

/-- The significand of a rank: the magnitude is `significand * 2 ^ exponent`. -/
def significand (rank : Nat) : Nat :=
  if rank < binade then rank else binade + rank % binade

/-- The exponent of a rank: the magnitude is `significand * 2 ^ exponent`. -/
def exponent (rank : Nat) : Int :=
  if rank < binade then leastExponent else (rank / binade : Nat) - 1 + leastExponent

/-- `num / den * 2 ^ shift` as a quotient of natural numbers. -/
def scale (num den : Nat) (shift : Int) : Nat × Nat :=
  if 0 ≤ shift then (num * Nat.pow 2 shift.toNat, den) else (num, den * Nat.pow 2 (-shift).toNat)

/-- The exponent of the highest bit of a positive quotient. -/
def floorLog2 (num den : Nat) : Int :=
  let guess : Int := (num.log2 : Int) - den.log2
  let (n, d) := scale num den (-guess)
  if d ≤ n then guess else guess - 1

/-- The rank nearest to a quotient, and the even one of two ranks equally near. The result is at
least `rankLimit` when the quotient is too large for a finite double. -/
def roundQuotient (num den : Nat) : Nat :=
  if num = 0 then 0
  else
    let unit := max (floorLog2 num den - 52) leastExponent
    let (n, d) := scale num den (-unit)
    (unit - leastExponent).toNat * binade + roundHalfEven n d

/-- The magnitude of a rank as a quotient of natural numbers. -/
def magnitude (rank : Nat) : Nat × Nat :=
  scale (significand rank) 1 (exponent rank)

/-- The double with the given sign and magnitude nearest to a quotient, unless that overflows. -/
def ofQuotient? (negative : Bool) (num den : Nat) : Option Double :=
  let rank := roundQuotient num den
  if rank < rankLimit then some ⟨negative, rank⟩ else none

/-- The zero with the given sign. -/
def zero (negative : Bool) : Double := ⟨negative, 0⟩

/-- Digits beyond this many places from the point cannot matter: the quotient is then below half
of the least positive double or above the largest one. -/
def decimalReach : Nat := 400

/-- The double nearest to `digits * 10 ^ exponent`, unless that overflows. -/
def ofDecimal? (negative : Bool) (digits : Nat) (exponent : Int) : Option Double :=
  if digits = 0 then some (zero negative)
  else
    let places : Int := (Nat.log2 digits / 3 + 1 : Nat)
    if decimalReach < exponent then none
    else if exponent + places < -decimalReach then some (zero negative)
    else if 0 ≤ exponent then ofQuotient? negative (digits * Nat.pow 10 exponent.toNat) 1
    else ofQuotient? negative digits (Nat.pow 10 (-exponent).toNat)

example : ofDecimal? false 1 0 = some ⟨false, 0x3FF0000000000000⟩ := by decide +kernel
example : ofDecimal? true 5 (-324) = some ⟨true, 1⟩ := by decide +kernel
example : ofDecimal? false 17976931348623157 292 = some ⟨false, rankLimit - 1⟩ := by decide +kernel
example : ofDecimal? false 1 309 = none := by decide +kernel

/-! ### Arithmetic on magnitudes

The product and the quotient of two doubles, each the exact result rounded once. -/

/-- The rounded product of the magnitudes of two ranks. -/
def mulRank (a b : Nat) : Nat :=
  let (an, ad) := magnitude a
  let (bn, bd) := magnitude b
  roundQuotient (an * bn) (ad * bd)

/-- The rounded quotient of the magnitudes of two ranks, the second not zero. -/
def divRank (a b : Nat) : Nat :=
  let (an, ad) := magnitude a
  let (bn, bd) := magnitude b
  roundQuotient (an * bd) (ad * bn)

end Double

end RecordTree.Decimal
