import RecordTree.Decimal.Double
import RecordTree.Toml.Text
import RecordTree.Toml.Value

/-!
# TOML numbers, times and truth values

A number in base ten may have a sign, a point and an exponent; one in base sixteen, eight or two has none
of these. An underscore may stand between two digits. A whole number has at most 64 bits. A date or a
time of day is recognised before a number, and its parts must be in range.
-/

namespace RecordTree.Toml

/-! ### Digits -/

/-- Digits with underscores between them, as a number, and how many there are. -/
def digitRun (base : Nat) : Nat → Nat → List Char → Nat × Nat × List Char
  | n, count, cs =>
    match cs with
    | '_' :: c :: cs =>
      match (Json.hexValue? c).filter (· < base) with
      | some d => if count = 0 then (n, 0, '_' :: c :: cs) else digitRun base (n * base + d) (count + 1) cs
      | none => (n, count, '_' :: c :: cs)
    | c :: cs =>
      match (Json.hexValue? c).filter (· < base) with
      | some d => digitRun base (n * base + d) (count + 1) cs
      | none => (n, count, c :: cs)
    | [] => (n, count, [])
termination_by _ _ cs => cs.length

/-- At least one digit. -/
def digits? (base : Nat) (cs : List Char) : Option ((Nat × Nat) × List Char) :=
  match digitRun base 0 0 cs with
  | (_, 0, _) => none
  | (n, count, cs) => some ((n, count), cs)

/-- Exactly the given count of decimal digits. -/
def fixed? (count : Nat) (cs : List Char) : Option (Nat × List Char) :=
  let ds := cs.take count
  if ds.length = count ∧ ds.all Char.isDigit then
    some (ds.foldl (fun n c => n * 10 + (c.toNat - '0'.toNat)) 0, cs.drop count)
  else none

/-! ### Numbers -/

/-- Drops a sign in front and says whether it was a minus. -/
def sign : List Char → Bool × List Char
  | '-' :: cs => (true, cs)
  | '+' :: cs => (false, cs)
  | cs => (false, cs)

/-- A whole number in base ten without a sign. A zero in front stands alone. -/
def whole? : List Char → Option (Nat × List Char)
  | '0' :: cs => some (0, cs)
  | cs => (digits? 10 cs).map fun ((n, _), cs) => (n, cs)

/-- The exponent of a number, if it has one. -/
def exponent? : List Char → Option (Option Int × List Char)
  | c :: cs =>
    if c = 'e' ∨ c = 'E' then
      let (minus, cs) := sign cs
      (digits? 10 cs).map fun ((n, _), cs) => (some (if minus then -(n : Int) else n), cs)
    else some (none, c :: cs)
  | [] => some (none, [])

/-- The digits behind the point of a number, if it has one. -/
def fraction? : List Char → Option (Option (Nat × Nat) × List Char)
  | '.' :: cs => (digits? 10 cs).map fun (x, cs) => (some x, cs)
  | cs => some (none, cs)

/-- A number in base ten. One with a point or an exponent must not be too large for a double; a negative
one may be. -/
def decimal? (cs : List Char) : Option (List Char) := do
  let (minus, cs) := sign cs
  let (whole, cs) ← whole? cs
  let (fraction, cs) ← fraction? cs
  let (exponent, cs) ← exponent? cs
  match fraction, exponent with
  | none, none => if whole < Nat.pow 2 63 ∨ (minus ∧ whole = Nat.pow 2 63) then some cs else none
  | fraction, exponent =>
    let (tail, places) := fraction.getD (0, 0)
    let digits := whole * Nat.pow 10 places + tail
    if minus ∨ (Decimal.Double.ofDecimal? false digits (exponent.getD 0 - places)).isSome then some cs
    else none

/-- Drops a word. -/
def word? (word : List Char) (cs : List Char) : Option (List Char) :=
  if word.isPrefixOf cs then some (cs.drop word.length) else none

/-- A number. -/
def number? (cs : List Char) : Option (List Char) :=
  let radix (base : Nat) (cs : List Char) : Option (List Char) :=
    match digits? base cs with
    | some ((n, _), cs) => if n < Nat.pow 2 63 then some cs else none
    | none => none
  match cs with
  | '0' :: 'x' :: cs => radix 16 cs
  | '0' :: 'o' :: cs => radix 8 cs
  | '0' :: 'b' :: cs => radix 2 cs
  | cs =>
    let unsigned := (sign cs).2
    match word? "inf".toList unsigned with
    | some cs => some cs
    | none =>
      match word? "nan".toList unsigned with
      | some cs => some cs
      | none => decimal? cs

/-! ### Times -/

/-- The number of days in a month. -/
def daysIn (year month : Nat) : Nat :=
  if month = 2 then
    if year % 4 = 0 ∧ (year % 100 ≠ 0 ∨ year % 400 = 0) then 29 else 28
  else if month = 4 ∨ month = 6 ∨ month = 9 ∨ month = 11 then 30
  else 31

/-- Drops a character. -/
def mark? (c : Char) : List Char → Option (List Char)
  | c' :: cs => if c' = c then some cs else none
  | [] => none

/-- A date. -/
def date? (cs : List Char) : Option (List Char) := do
  let (year, cs) ← fixed? 4 cs
  let (month, cs) ← fixed? 2 (← mark? '-' cs)
  let (day, cs) ← fixed? 2 (← mark? '-' cs)
  if 1 ≤ month ∧ month ≤ 12 ∧ 1 ≤ day ∧ day ≤ daysIn year month then some cs else none

/-- Drops a fraction of a second. -/
def skipFraction : List Char → List Char
  | '.' :: cs => if (cs.takeWhile Char.isDigit).isEmpty then '.' :: cs else cs.dropWhile Char.isDigit
  | cs => cs

/-- A time of day. -/
def timeOfDay? (cs : List Char) : Option (List Char) := do
  let (hour, cs) ← fixed? 2 cs
  let (minute, cs) ← fixed? 2 (← mark? ':' cs)
  let (second, cs) ← fixed? 2 (← mark? ':' cs)
  if hour < 24 ∧ minute < 60 ∧ second ≤ 60 then some (skipFraction cs) else none

/-- Drops the offset of a time from universal time. -/
def skipOffset (cs : List Char) : List Char :=
  match cs with
  | 'Z' :: cs => cs
  | 'z' :: cs => cs
  | c :: rest =>
    let shift : Option (List Char) := do
      if c ≠ '+' ∧ c ≠ '-' then none
      let (hour, rest) ← fixed? 2 rest
      let (minute, rest) ← fixed? 2 (← mark? ':' rest)
      if hour < 24 ∧ minute < 60 then some rest else none
    shift.getD cs
  | [] => []

/-- A date with or without a time of day, or a time of day. -/
def time? (cs : List Char) : Option (List Char) :=
  match date? cs with
  | some cs =>
    let time : Option (List Char) :=
      match cs with
      | c :: rest => if c = 'T' ∨ c = 't' ∨ c = ' ' then timeOfDay? rest else none
      | [] => none
    some ((time.map skipOffset).getD cs)
  | none => timeOfDay? cs

/-- A number, a time or a truth value. -/
def scalar? (cs : List Char) : Option (Value × List Char) :=
  match time? cs with
  | some cs => some (.time, cs)
  | none =>
    match word? "true".toList cs with
    | some cs => some (.boolean, cs)
    | none =>
      match word? "false".toList cs with
      | some cs => some (.boolean, cs)
      | none => (number? cs).map fun cs => (.number, cs)

end RecordTree.Toml
