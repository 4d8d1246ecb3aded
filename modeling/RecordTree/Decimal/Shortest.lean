import RecordTree.Decimal.Double

/-!
# The fewest decimal digits of a double

The reals that round to a double form an interval around it. `shortest` gives the decimal with the
fewest digits in that interval, and of those the one nearest to the double; `Layout` says how the
digits become text.

For each digit count from one to seventeen the two neighbours of the double on the decimal grid of
that count are tried, in exact arithmetic; the first grid with a neighbour in the interval decides.
If any point of a grid lies in the interval, one of these two neighbours does, because the double
itself lies between them.
-/

namespace RecordTree.Decimal

/-- A positive decimal, `digits * 10 ^ exponent`. -/
structure Digits where
  digits : Nat
  exponent : Int
  deriving DecidableEq, Repr

namespace Digits

/-- Removes trailing zeros. -/
def trim : Nat → Digits → Digits
  | 0, d => d
  | fuel + 1, d =>
    if d.digits ≠ 0 ∧ d.digits % 10 = 0 then trim fuel ⟨d.digits / 10, d.exponent + 1⟩ else d

end Digits

/-- The interval of reals that round to a positive double, as numerators over one denominator. -/
structure Interval where
  lower : Nat
  middle : Nat
  upper : Nat
  den : Nat
  /-- Whether the ends themselves round to the double. -/
  closed : Bool

namespace Interval

/-- The interval of a rank: it reaches halfway to both neighbours, and its ends belong to it when
the rank is even. -/
def ofRank (rank : Nat) : Interval :=
  let place := fun r => Double.scale (2 * Double.significand r) 1 (Double.exponent r - Double.leastExponent)
  let below := (place (rank - 1)).1
  let here := (place rank).1
  let above := (place (rank + 1)).1
  ⟨(below + here) / 2, here, (here + above) / 2, 2 * Nat.pow 2 (-Double.leastExponent).toNat,
    rank % 2 = 0⟩

/-- Whether `digits * step` lies in the interval, `step` being a quotient. -/
def contains (i : Interval) (digits : Nat) (step : Nat × Nat) : Bool :=
  let point := digits * step.1 * i.den
  let low := i.lower * step.2
  let high := i.upper * step.2
  if i.closed then low ≤ point ∧ point ≤ high else low < point ∧ point < high

end Interval

/-- `10 ^ n` as a quotient of natural numbers. -/
def powerOfTen (n : Int) : Nat × Nat :=
  if 0 ≤ n then (Nat.pow 10 n.toNat, 1) else (1, Nat.pow 10 (-n).toNat)

/-- The exponent of the first digit of a positive quotient: `10 ^ e ≤ num / den < 10 ^ (e + 1)`,
found by stepping up or down from a guess. -/
def floorLog10 (num den : Nat) : Int :=
  let guess : Int := Double.floorLog2 num den * 30103 / 100000
  let fits := fun e : Int => let p := powerOfTen e; p.1 * den ≤ num * p.2
  if fits (guess + 1) then guess + 1 else if fits guess then guess else guess - 1

/-- The neighbour of the middle on the grid of the given step that lies in the interval, the nearer
one if both do and the even one if they are equally near. -/
def Interval.pick? (i : Interval) (step : Nat × Nat) : Option Nat :=
  let num := i.middle * step.2
  let den := step.1 * i.den
  let down := num / den
  match i.contains down step, i.contains (down + 1) step with
  | true, true => some (roundHalfEven num den)
  | true, false => some down
  | false, true => some (down + 1)
  | false, false => none

/-- Tries one digit more until a grid has a point in the interval. -/
def Interval.search (i : Interval) (top : Int) : Nat → Nat → Digits
  | 0, count => ⟨(i.pick? (powerOfTen (top + 1 - count))).getD 0, top + 1 - count⟩
  | more + 1, count =>
    match i.pick? (powerOfTen (top + 1 - count)) with
    | some digits => ⟨digits, top + 1 - count⟩
    | none => i.search top more (count + 1)

/-- The decimal with the fewest digits that rounds to the given positive rank, nearest to it. -/
def shortest (rank : Nat) : Digits :=
  let i := Interval.ofRank rank
  Digits.trim 400 (i.search (floorLog10 i.middle i.den) 17 1)

example : shortest 1 = ⟨5, -324⟩ := by decide +kernel
example : shortest 0x3FF0000000000000 = ⟨1, 0⟩ := by decide +kernel
example : shortest 0x3FD3333333333334 = ⟨30000000000000004, -17⟩ := by decide +kernel

/-! ### Text -/

/-- How a number is written. -/
structure Layout where
  /-- Whether a positive exponent carries a plus sign. -/
  exponentPlus : Bool

namespace Layout

/-- The digits of a natural number. -/
def digitText (n : Nat) : List Char := (toString n).toList

/-- Writes a positive decimal: positional while its point falls at most sixteen places after its
first digit or at most four zeros before it, and with an exponent otherwise. A whole number ends
in `.0`. -/
def write (l : Layout) (d : Digits) : List Char :=
  let digits := digitText d.digits
  let point : Int := digits.length + d.exponent
  if 0 ≤ d.exponent ∧ point ≤ 16 then digits ++ List.replicate d.exponent.toNat '0' ++ ['.', '0']
  else if 0 < point ∧ point ≤ 16 then digits.take point.toNat ++ '.' :: digits.drop point.toNat
  else if -5 < point ∧ point ≤ 0 then
    ['0', '.'] ++ List.replicate (-point).toNat '0' ++ digits
  else
    let power := point - 1
    let sign := if power < 0 then ['-'] else if l.exponentPlus then ['+'] else []
    let mantissa := match digits with
      | [] => []
      | [c] => [c]
      | c :: cs => c :: '.' :: cs
    mantissa ++ 'e' :: sign ++ digitText power.natAbs

/-- The text of a double: the fewest digits that read back. -/
def text (l : Layout) (x : Double) : String :=
  let body := if x.rank = 0 then ['0', '.', '0'] else l.write (shortest x.rank)
  String.ofList (if x.negative then '-' :: body else body)

end Layout

end RecordTree.Decimal
