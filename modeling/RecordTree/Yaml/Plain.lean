import RecordTree.Json.Reader
import RecordTree.Value

/-!
# What a plain text stands for

A text without quotes is read as the first of these that fits: nothing, a truth value, a whole
number, a double, and else the text itself. Whole numbers may be written in base ten, or in base
sixteen, eight or two behind `0x`, `0o` or `0b`; digits behind a leading zero are a text.
-/

namespace RecordTree.Yaml

open Decimal

/-- What a plain text stands for. -/
inductive Reading where
  | null
  | bool (b : Bool)
  | whole (n : Int)
  /-- A whole number of more than 64 and at most 128 bits, which no value can hold. -/
  | wide
  | double (x : Double)
  /-- An infinity, or the undefined number. -/
  | unbounded
  | text
  deriving DecidableEq

/-- Whether a text is one of the names for nothing. -/
def isNullName (cs : List Char) : Bool :=
  cs = ['n', 'u', 'l', 'l'] || cs = ['N', 'u', 'l', 'l'] || cs = ['N', 'U', 'L', 'L'] || cs = ['~']

/-- The truth value that a text names. -/
def bool? (cs : List Char) : Option Bool :=
  match cs with
  | ['t', 'r', 'u', 'e'] | ['T', 'r', 'u', 'e'] | ['T', 'R', 'U', 'E'] => some true
  | ['f', 'a', 'l', 's', 'e'] | ['F', 'a', 'l', 's', 'e'] | ['F', 'A', 'L', 'S', 'E'] => some false
  | _ => none

/-- The value of a digit in a base. -/
def digit? (base : Nat) (c : Char) : Option Nat :=
  (Json.hexValue? c).filter (· < base)

/-- The number that digits in a base write, at least one of them. -/
def radix? (base : Nat) : List Char → Option Nat
  | [] => none
  | cs => cs.foldlM (fun n c => (digit? base c).map (n * base + ·)) 0

/-- The number behind one of the base marks. -/
def marked? : List Char → Option Nat
  | '0' :: 'x' :: cs => radix? 16 cs
  | '0' :: 'o' :: cs => radix? 8 cs
  | '0' :: 'b' :: cs => radix? 2 cs
  | _ => none

/-- Whether a text is a sign or none and then two or more digits that begin with zero. -/
def hasLeadingZero (cs : List Char) : Bool :=
  let cs := match cs with
    | '+' :: cs => cs
    | '-' :: cs => cs
    | cs => cs
  match cs with
  | '0' :: c :: cs => (c :: cs).all Char.isDigit
  | _ => false

/-- The sign and the size of a whole number. -/
def magnitude? (cs : List Char) : Option (Bool × Nat) :=
  let plain := fun cs => match marked? cs with
    | some n => some n
    | none => radix? 10 cs
  match cs with
  | '-' :: rest =>
    match marked? rest with
    | some n => some (true, n)
    | none => if hasLeadingZero cs then none else (radix? 10 rest).map (true, ·)
  | '+' :: rest =>
    match marked? rest with
    | some n => some (false, n)
    | none => if hasLeadingZero cs then none else (radix? 10 rest).map (false, ·)
  | rest => if hasLeadingZero cs then none else (plain rest).map (false, ·)

/-- The whole number that a text writes, or `wide`. -/
def whole? (cs : List Char) : Option Reading :=
  match magnitude? cs with
  | some (false, n) =>
    if n < Nat.pow 2 64 then some (.whole n)
    else if n < Nat.pow 2 128 then some .wide
    else none
  | some (true, n) =>
    if n ≤ Nat.pow 2 63 then some (.whole (-(n : Int)))
    else if n ≤ Nat.pow 2 127 then some .wide
    else none
  | none => none

/-- A decimal number: digits with a point before, among or after them, or without one, and perhaps
an exponent. The answer is the sign, the digits as a number, and the power of ten. -/
def decimal? (cs : List Char) : Option (Bool × Nat × Int) := do
  let (negative, cs) := match cs with
    | '-' :: cs => (true, cs)
    | '+' :: cs => (false, cs)
    | cs => (false, cs)
  let (whole, cs) := cs.span Char.isDigit
  let (fraction, cs) := match cs with
    | '.' :: cs => cs.span Char.isDigit
    | cs => ([], cs)
  if whole.isEmpty && fraction.isEmpty then none
  let digits ← radix? 10 (whole ++ fraction)
  match cs with
  | [] => some (negative, digits, -(fraction.length : Int))
  | c :: cs =>
    if c ≠ 'e' ∧ c ≠ 'E' then none
    let (minus, cs) := match cs with
      | '-' :: cs => (true, cs)
      | '+' :: cs => (false, cs)
      | cs => (false, cs)
    let size ← radix? 10 cs
    some (negative, digits, (if minus then -(size : Int) else size) - (fraction.length : Int))

/-- The double that a text writes, or `unbounded`. -/
def double? (cs : List Char) : Option Reading :=
  let unsigned := match cs with
    | '+' :: cs => cs
    | cs => cs
  if unsigned = ['.', 'i', 'n', 'f'] ∨ unsigned = ['.', 'I', 'n', 'f'] ∨
      unsigned = ['.', 'I', 'N', 'F'] then some .unbounded
  else if cs = ['-', '.', 'i', 'n', 'f'] ∨ cs = ['-', '.', 'I', 'n', 'f'] ∨
      cs = ['-', '.', 'I', 'N', 'F'] then some .unbounded
  else if cs = ['.', 'n', 'a', 'n'] ∨ cs = ['.', 'N', 'a', 'N'] ∨ cs = ['.', 'N', 'A', 'N'] then
    some .unbounded
  else do
    let (negative, digits, exponent) ← decimal? cs
    (Double.ofDecimal? negative digits exponent).map .double

/-- What a plain text stands for. -/
def Reading.ofPlain (cs : List Char) : Reading :=
  if cs = [] ∨ isNullName cs then .null
  else match bool? cs with
    | some b => .bool b
    | none =>
      match whole? cs with
      | some reading => reading
      | none =>
        if hasLeadingZero cs then .text else (double? cs).getD .text

/-- Whether a text must be quoted to stay a text. -/
def needsQuotes (cs : List Char) : Bool :=
  Reading.ofPlain cs ≠ .text || hasLeadingZero cs

end RecordTree.Yaml
