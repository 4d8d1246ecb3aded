import RecordTree.Json.Number

/-!
# Reading JSON

`Json.read?` accepts exactly one value with blanks around it. At most `nestingLimit` containers may
be open at once. A repeated key keeps its last value.

The readers of values, items and fields call each other on a shrinking budget; `read?` gives them
two units for each character, and every second call consumes one.
-/

namespace RecordTree.Json

/-- How many containers may be nested. -/
def nestingLimit : Nat := 127

/-- The blanks between tokens. -/
def isBlank (c : Char) : Bool := c = ' ' || c = '\n' || c = '\t' || c = '\r'

/-- Drops the blanks in front. -/
def skipBlank (cs : List Char) : List Char := cs.dropWhile isBlank

/-- The numeric value of a hexadecimal digit. -/
def hexValue? (c : Char) : Option Nat :=
  if '0' ≤ c ∧ c ≤ '9' then some (c.toNat - '0'.toNat)
  else if 'a' ≤ c ∧ c ≤ 'f' then some (c.toNat - 'a'.toNat + 10)
  else if 'A' ≤ c ∧ c ≤ 'F' then some (c.toNat - 'A'.toNat + 10)
  else none

/-- Four hexadecimal digits. -/
def fourHex : List Char → Option (Nat × List Char)
  | a :: b :: c :: d :: rest => do
    let a ← hexValue? a
    let b ← hexValue? b
    let c ← hexValue? c
    let d ← hexValue? d
    some (((a * 16 + b) * 16 + c) * 16 + d, rest)
  | _ => none

/-- The character named by the digits after a backslash and a `u`. The two halves of a surrogate
pair stand together for one character, and a half alone is an error. -/
def unicodeEscape (cs : List Char) : Option (Char × List Char) := do
  let (first, cs) ← fourHex cs
  if 0xDC00 ≤ first ∧ first < 0xE000 then none
  else if 0xD800 ≤ first ∧ first < 0xDC00 then
    match cs with
    | '\\' :: 'u' :: cs => do
      let (second, cs) ← fourHex cs
      if 0xDC00 ≤ second ∧ second < 0xE000 then
        some (Char.ofNat (0x10000 + (first - 0xD800) * 0x400 + (second - 0xDC00)), cs)
      else none
    | _ => none
  else some (Char.ofNat first, cs)

/-- The character named by the text after a backslash. -/
def escaped : List Char → Option (Char × List Char)
  | '"' :: cs => some ('"', cs)
  | '\\' :: cs => some ('\\', cs)
  | '/' :: cs => some ('/', cs)
  | 'b' :: cs => some ('\x08', cs)
  | 'f' :: cs => some ('\x0c', cs)
  | 'n' :: cs => some ('\n', cs)
  | 'r' :: cs => some ('\r', cs)
  | 't' :: cs => some ('\t', cs)
  | 'u' :: cs => unicodeEscape cs
  | _ => none

/-- The text up to the closing quote, in reverse. -/
def stringBody : Nat → List Char → List Char → Option (List Char × List Char)
  | 0, _, _ => none
  | _ + 1, _, [] => none
  | _ + 1, acc, '"' :: cs => some (acc, cs)
  | fuel + 1, acc, '\\' :: cs => do
    let (c, cs) ← escaped cs
    stringBody fuel (c :: acc) cs
  | fuel + 1, acc, c :: cs => if c.toNat < 0x20 then none else stringBody fuel (c :: acc) cs

/-- A text after its opening quote. -/
def string (cs : List Char) : Option (String × List Char) :=
  (stringBody (cs.length + 1) [] cs).map fun (acc, cs) => (String.ofList acc.reverse, cs)

mutual

/-- A value with the blanks before it; `room` counts the containers that may still be opened. -/
def value : Nat → Nat → List Char → Option (Value × List Char)
  | 0, _, _ => none
  | fuel + 1, room, cs =>
    match skipBlank cs with
    | 'n' :: 'u' :: 'l' :: 'l' :: cs => some (.null, cs)
    | 't' :: 'r' :: 'u' :: 'e' :: cs => some (.bool true, cs)
    | 'f' :: 'a' :: 'l' :: 's' :: 'e' :: cs => some (.bool false, cs)
    | '"' :: cs => (string cs).map fun (s, cs) => (.string s, cs)
    | '[' :: cs =>
      match room with
      | 0 => none
      | room + 1 =>
        match skipBlank cs with
        | ']' :: cs => some (.array [], cs)
        | cs => (items fuel room [] cs).map fun (vs, cs) => (.array vs, cs)
    | '\x7b' :: cs =>
      match room with
      | 0 => none
      | room + 1 =>
        match skipBlank cs with
        | '\x7d' :: cs => some (.object [], cs)
        | cs => (fields fuel room [] cs).map fun (fs, cs) => (.object fs, cs)
    | cs => do
      let (text, cs) ← NumberText.read cs
      let n ← text.number?
      some (.number n, cs)

/-- The items of an array that is not empty, up to its closing bracket. -/
def items : Nat → Nat → List Value → List Char → Option (List Value × List Char)
  | 0, _, _, _ => none
  | fuel + 1, room, acc, cs =>
    match value fuel room cs with
    | none => none
    | some (v, cs) =>
      match skipBlank cs with
      | ',' :: cs => items fuel room (v :: acc) cs
      | ']' :: cs => some ((v :: acc).reverse, cs)
      | _ => none

/-- The fields of an object that is not empty, up to its closing brace. -/
def fields : Nat → Nat → List (String × Value) → List Char →
    Option (List (String × Value) × List Char)
  | 0, _, _, _ => none
  | fuel + 1, room, acc, cs =>
    match skipBlank cs with
    | '"' :: cs =>
      match string cs with
      | none => none
      | some (k, cs) =>
        match skipBlank cs with
        | ':' :: cs =>
          match value fuel room cs with
          | none => none
          | some (v, cs) =>
            match skipBlank cs with
            | ',' :: cs => fields fuel room (Entries.insert k v acc) cs
            | '\x7d' :: cs => some (Entries.insert k v acc, cs)
            | _ => none
        | _ => none
    | _ => none

end

/-- The value that a text holds, if it holds exactly one. -/
def readChars? (cs : List Char) : Option Value := do
  let (v, cs) ← value (2 * cs.length + 2) nestingLimit cs
  if (skipBlank cs).isEmpty then some v else none

/-- The value that a text holds, if it holds exactly one. -/
def read? (s : String) : Option Value := readChars? s.toList

end RecordTree.Json
