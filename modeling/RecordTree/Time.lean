import RecordTree.Text.Blank

/-!
# Instants

An instant is counted in seconds from the start of 1970 in universal time, in the proleptic Gregorian
calendar. `Instant.read?` reads a date, a time and an offset in a forgiving form; `Instant.text` writes
them in one form, with the fraction of the second in as few groups of three digits as hold it.
-/

namespace RecordTree

/-! ### The calendar -/

/-- A day of the calendar. -/
structure Day where
  year : Int
  month : Nat
  day : Nat
  deriving DecidableEq, Repr

namespace Day

/-- Whether a year has a leap day. -/
def isLeap (year : Int) : Bool := year % 4 = 0 && (year % 100 ≠ 0 || year % 400 = 0)

/-- The number of days in a month. -/
def daysIn (year : Int) (month : Nat) : Nat :=
  if month = 2 then if isLeap year then 29 else 28
  else if month = 4 ∨ month = 6 ∨ month = 9 ∨ month = 11 then 30
  else 31

/-- The years that have days. -/
def firstYear : Int := -262143

/-- The last year that has days. -/
def lastYear : Int := 262142

/-- Whether the calendar has the day. -/
def isValid (d : Day) : Bool :=
  firstYear ≤ d.year && d.year ≤ lastYear && 1 ≤ d.month && d.month ≤ 12 && 1 ≤ d.day &&
    d.day ≤ daysIn d.year d.month

/-- The days from the start of 1970 to a day. Years are counted from March, so that a leap day comes
last. -/
def number (d : Day) : Int :=
  let year := if d.month ≤ 2 then d.year - 1 else d.year
  let month : Int := (d.month + 9) % 12
  let yearOfEra := year % 400
  let dayOfYear := (153 * month + 2) / 5 + d.day - 1
  let dayOfEra := yearOfEra * 365 + yearOfEra / 4 - yearOfEra / 100 + dayOfYear
  year / 400 * 146097 + dayOfEra - 719468

/-- The day with a number. -/
def ofNumber (n : Int) : Day :=
  let n := n + 719468
  let dayOfEra := n % 146097
  let yearOfEra := (dayOfEra - dayOfEra / 1460 + dayOfEra / 36524 - dayOfEra / 146096) / 365
  let dayOfYear := dayOfEra - (365 * yearOfEra + yearOfEra / 4 - yearOfEra / 100)
  let month := (5 * dayOfYear + 2) / 153
  let year := yearOfEra + n / 146097 * 400
  { year := if month < 10 then year else year + 1
    month := (if month < 10 then month + 3 else month - 9).toNat
    day := (dayOfYear - (153 * month + 2) / 5 + 1).toNat }

end Day

/-- An instant. -/
structure Instant where
  /-- The seconds since the start of 1970. -/
  seconds : Int
  /-- The nanoseconds since then; a whole second more stands for a leap second. -/
  nanos : Nat
  deriving DecidableEq, Repr

namespace Instant

/-! ### Writing -/

/-- A number with at least the given count of digits. -/
def padded (width n : Nat) : String :=
  let digits := toString n
  String.ofList (List.replicate (width - digits.length) '0') ++ digits

/-- A year has four digits at least, and a sign if four do not do. -/
def yearText (year : Int) : String :=
  if 0 ≤ year ∧ year ≤ 9999 then padded 4 year.toNat
  else (if year < 0 then "-" else "+") ++ padded 4 year.natAbs

/-- The date and the time of day, divided by the given text. -/
def dateTime (i : Instant) (between : String) : String :=
  let day := Day.ofNumber (i.seconds / 86400)
  let second := (i.seconds % 86400).toNat
  yearText day.year ++ "-" ++ padded 2 day.month ++ "-" ++ padded 2 day.day ++ between ++
    padded 2 (second / 3600) ++ ":" ++ padded 2 (second / 60 % 60) ++ ":" ++
    padded 2 (second % 60 + i.nanos / 1000000000)

/-- The fraction of the second, if there is one, in three, six or nine digits. -/
def fraction (i : Instant) : String :=
  let n := i.nanos % 1000000000
  if n = 0 then ""
  else if n % 1000000 = 0 then "." ++ padded 3 (n / 1000000)
  else if n % 1000 = 0 then "." ++ padded 6 (n / 1000)
  else "." ++ padded 9 n

/-- An instant in universal time. -/
def text (i : Instant) : String := i.dateTime "T" ++ i.fraction ++ "Z"

/-! ### Reading -/

/-- Drops the blanks in front. -/
def skipBlank (cs : List Char) : List Char := cs.dropWhile Text.isBlank

/-- The number that digits write. -/
def ofDigits (cs : List Char) : Nat := cs.foldl (fun n c => n * 10 + (c.toNat - '0'.toNat)) 0

/-- Between one and the given count of digits, with the blanks before them. -/
def digits (most : Nat) (cs : List Char) : Option (Nat × List Char) :=
  let cs := skipBlank cs
  let ds := (cs.take most).takeWhile Char.isDigit
  if ds.isEmpty then none else some (ofDigits ds, cs.drop ds.length)

/-- The given character, with the blanks before it. -/
def mark (c : Char) (cs : List Char) : Option (List Char) :=
  match skipBlank cs with
  | c' :: cs => if c' = c then some cs else none
  | [] => none

/-- A year of up to four digits, or a signed one of any length. -/
def year (cs : List Char) : Option (Int × List Char) :=
  let signed (cs : List Char) : Option (Nat × List Char) :=
    match cs with
    | c :: _ => if c.isDigit then digits cs.length cs else none
    | [] => none
  match skipBlank cs with
  | '-' :: cs => (signed cs).map fun (n, cs) => (-(n : Int), cs)
  | '+' :: cs => (signed cs).map fun (n, cs) => ((n : Int), cs)
  | cs => (digits 4 cs).map fun (n, cs) => ((n : Int), cs)

/-- The nanoseconds after a second; digits beyond the ninth say nothing. -/
def nanoseconds : List Char → Option (Nat × List Char)
  | '.' :: cs =>
    let ds := cs.takeWhile Char.isDigit
    let seen := ds.take 9
    if ds.isEmpty then none
    else some (ofDigits seen * Nat.pow 10 (9 - seen.length), cs.drop ds.length)
  | cs => some (0, cs)

/-- The seconds that hours and minutes of two digits each make. -/
def hoursMinutes : List Char → Option (Nat × List Char)
  | h :: h' :: cs =>
    match cs.dropWhile fun c => c = ':' || Text.isBlank c with
    | m :: m' :: cs =>
      if [h, h', m, m'].all Char.isDigit ∧ m < '6' then
        some (ofDigits [h, h'] * 3600 + ofDigits [m, m'] * 60, cs)
      else none
    | _ => none
  | _ => none

/-- Whether a text begins with the name of universal time. -/
def namesUniversal (cs : List Char) : Bool := (cs.take 3).map Char.toLower = ['u', 't', 'c']

/-- The seconds by which a local time is ahead of universal time. -/
def offset (cs : List Char) : Option (Int × List Char) :=
  let cs := skipBlank cs
  if namesUniversal cs then some (0, cs.drop 3)
  else
    match cs with
    | 'Z' :: cs => some (0, cs)
    | 'z' :: cs => some (0, cs)
    | '+' :: cs => (hoursMinutes cs).map fun (n, cs) => ((n : Int), cs)
    | '-' :: cs => (hoursMinutes cs).map fun (n, cs) => (-(n : Int), cs)
    | '−' :: cs => (hoursMinutes cs).map fun (n, cs) => (-(n : Int), cs)
    | _ => none

/-- What divides a date from a time of day. -/
def between : List Char → Option (List Char)
  | 'T' :: cs => some cs
  | 't' :: cs => some cs
  | ' ' :: cs => some cs
  | _ => none

/-- The instant of a local date and time that is ahead of universal time. A leap second belongs to the
minute that it ends. -/
def ofLocal? (day : Day) (hour minute second nanos : Nat) (ahead : Int) : Option Instant :=
  if day.isValid ∧ hour < 24 ∧ minute < 60 ∧ second ≤ 60 ∧ ahead.natAbs < 86400 then
    let leap := second = 60
    let ofDay : Int := hour * 3600 + minute * 60 + (if leap then 59 else second)
    let seconds := day.number * 86400 + ofDay - ahead
    if (Day.ofNumber (seconds / 86400)).isValid then
      some ⟨seconds, if leap then nanos + 1000000000 else nanos⟩
    else none
  else none

/-- The instant that a text names. -/
def read? (s : String) : Option Instant := do
  let (year, cs) ← year s.toList
  let (month, cs) ← digits 2 (← mark '-' cs)
  let (day, cs) ← digits 2 (← mark '-' cs)
  let (hour, cs) ← digits 2 (← between cs)
  let (minute, cs) ← digits 2 (← mark ':' cs)
  let (second, cs) ← digits 2 (← mark ':' cs)
  let (nanos, cs) ← nanoseconds cs
  let (ahead, cs) ← offset cs
  if (skipBlank cs).isEmpty then ofLocal? ⟨year, month, day⟩ hour minute second nanos ahead else none

end Instant

end RecordTree
