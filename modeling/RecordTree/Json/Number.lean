import RecordTree.Decimal.Shortest
import RecordTree.Value

/-!
# JSON numbers

A number without fraction and exponent is whole when it fits in 64 bits, signed or not. Every
other number is a double read with bounded precision: its significand keeps the leading digits
that fit in an unsigned 64-bit word, and one multiplication or division by a rounded power of ten
places the point. The result can therefore differ in its last place from the nearest double.
-/

namespace RecordTree.Json

open Decimal

/-- The largest significand. -/
def wordLimit : Nat := Nat.pow 2 64 - 1

/-- The largest power of ten that is a finite double. -/
def powerLimit : Nat := 308

/-- The largest exponent that is read; a longer one stands for infinity. -/
def exponentLimit : Nat := Nat.pow 2 31 - 1

/-- The numeric value of a decimal digit. -/
def digitValue (c : Char) : Nat := c.toNat - '0'.toNat

/-- Appends digits to a significand as long as it fits in a word; the answer holds the significand
and the digits that were left over. -/
def takeDigits (significand : Nat) : List Char → Nat × List Char
  | [] => (significand, [])
  | c :: cs =>
    let next := significand * 10 + digitValue c
    if next ≤ wordLimit then takeDigits next cs else (significand, c :: cs)

/-- The parts of a number's text. -/
structure NumberText where
  negative : Bool
  /-- The digits before the point. -/
  whole : List Char
  /-- The digits after the point, if there is one. -/
  fraction : Option (List Char)
  /-- The sign and the digits of the exponent, if there is one. -/
  exponent : Option (Bool × List Char)

/-- Reads a run of digits that is not empty. -/
def digitRun (cs : List Char) : Option (List Char × List Char) :=
  match cs.span Char.isDigit with
  | ([], _) => none
  | (ds, rest) => some (ds, rest)

/-- Takes a minus sign off the front, if there is one. -/
def takeMinus : List Char → Bool × List Char
  | '-' :: cs => (true, cs)
  | cs => (false, cs)

/-- Takes a sign off the front, if there is one, and says whether it is a minus. -/
def takeSign : List Char → Bool × List Char
  | '-' :: cs => (true, cs)
  | '+' :: cs => (false, cs)
  | cs => (false, cs)

/-- Reads the digits after a point, if there is one. -/
def readFraction : List Char → Option (Option (List Char) × List Char)
  | '.' :: cs => (digitRun cs).map fun (ds, cs) => (some ds, cs)
  | cs => some (none, cs)

/-- Reads the sign and the digits of an exponent, if there is one. -/
def readExponent : List Char → Option (Option (Bool × List Char) × List Char)
  | [] => some (none, [])
  | c :: cs =>
    if c = 'e' ∨ c = 'E' then
      let (minus, cs) := takeSign cs
      (digitRun cs).map fun (ds, cs) => (some (minus, ds), cs)
    else some (none, c :: cs)

/-- Splits a number's text off the front: a lone zero or digits without a leading zero, then
perhaps a point with digits, then perhaps an exponent with digits. -/
def NumberText.read (cs : List Char) : Option (NumberText × List Char) := do
  let (negative, cs) := takeMinus cs
  let (whole, cs) ← digitRun cs
  if whole.head? = some '0' ∧ whole.length ≠ 1 then none
  let (fraction, cs) ← readFraction cs
  let (exponent, cs) ← readExponent cs
  some (⟨negative, whole, fraction, exponent⟩, cs)

/-- The rank of `significand * 10 ^ exponent`, placed by rounded powers of ten: a large power is an
overflow, and a small one is applied in steps. -/
def placePoint : Nat → Nat → Int → Option Nat
  | 0, rank, _ => some rank
  | fuel + 1, rank, exponent =>
    if exponent.natAbs ≤ powerLimit then
      let power := Double.roundQuotient (Nat.pow 10 exponent.natAbs) 1
      if 0 ≤ exponent then
        let product := Double.mulRank rank power
        if product < Double.rankLimit then some product else none
      else some (Double.divRank rank power)
    else if rank = 0 then some 0
    else if 0 ≤ exponent then none
    else
      placePoint fuel (Double.divRank rank (Double.roundQuotient (Nat.pow 10 powerLimit) 1))
        (exponent + powerLimit)

/-- The double that a significand and an exponent stand for. -/
def scaled (negative : Bool) (significand : Nat) (exponent : Int) : Option Number :=
  (placePoint 4 (Double.roundQuotient significand 1) exponent).map fun rank =>
    .double ⟨negative, rank⟩

/-- The number that a text stands for, unless it is too large for a double. -/
def NumberText.number? (t : NumberText) : Option Number :=
  let (significand, left) := takeDigits 0 t.whole
  match t.fraction, t.exponent with
  | none, none =>
    if left.isEmpty then
      if !t.negative then some (.whole significand)
      else if 0 < significand ∧ significand ≤ Nat.pow 2 63 then some (.whole (-significand))
      else some (.double ⟨true, Double.roundQuotient significand 1⟩)
    else scaled t.negative significand left.length
  | fraction, exponent =>
    let digits := fraction.getD []
    let (significand, unread) := takeDigits significand digits
    let start : Int := left.length - (digits.length - unread.length : Nat)
    match exponent with
    | none => scaled t.negative significand start
    | some (minus, power) =>
      let size := power.foldl (fun n c => n * 10 + digitValue c) 0
      if exponentLimit < size then
        if significand ≠ 0 ∧ !minus then none else some (.double (Double.zero t.negative))
      else scaled t.negative significand (if minus then start - size else start + size)

/-- JSON writes a positive exponent with a plus sign. -/
def layout : Layout := ⟨true⟩

/-- The text of a number. -/
def numberText : Number → List Char
  | .whole n => (toString n).toList
  | .double x => (layout.text x).toList

end RecordTree.Json
