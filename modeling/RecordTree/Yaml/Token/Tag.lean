import RecordTree.Json.Reader
import RecordTree.Yaml.Token
import RecordTree.Yaml.Token.Cursor

/-!
# Tags and directives in a text

A tag is a handle and a suffix, `!handle!suffix`, or stands whole between `!<` and `>`. The lone `!` is
a tag of its own, with an empty handle. The suffix may hold escaped bytes.
-/

namespace RecordTree.Yaml

/-- The bytes of ASCII characters. -/
def asciiBytes (cs : List Char) : TagText := cs.map fun c => c.toNat.toUInt8

/-- The byte of an exclamation mark. -/
def bang : UInt8 := 0x21

/-- A character that may stand in the suffix of a tag; the last three only in a tag that stands
whole and in a directive. -/
def isTagChar (whole : Bool) (c : Char) : Bool :=
  isWord c || [';', '/', '?', ':', '@', '&', '=', '+', '$', '.', '%', '!', '~', '*', '\'', '(',
    ')'].contains c || (whole && (c = ',' || c = '[' || c = ']'))

/-- An escaped byte. -/
def escapedByte? : List Char → Option UInt8
  | '%' :: a :: b :: _ => do some ((← Json.hexValue? a) * 16 + (← Json.hexValue? b)).toUInt8
  | _ => none

/-- How many bytes a character has that begins with the given byte. -/
def byteCount? (b : UInt8) : Option Nat :=
  if b &&& 0x80 = 0 then some 1
  else if b &&& 0xE0 = 0xC0 then some 2
  else if b &&& 0xF0 = 0xE0 then some 3
  else if b &&& 0xF8 = 0xF0 then some 4
  else none

/-- Escaped bytes that continue a character. -/
def continuation? : Nat → Cursor → Option (TagText × Cursor)
  | 0, c => some ([], c)
  | n + 1, c => do
    let b ← escapedByte? c.rest
    if b &&& 0xC0 ≠ 0x80 then none
    let (bs, c) ← continuation? n (c.skipMany 3)
    some (b :: bs, c)

/-- An escaped character. -/
def escapedChar? (c : Cursor) : Option (TagText × Cursor) := do
  let b ← escapedByte? c.rest
  let n ← byteCount? b
  let (bs, c) ← continuation? (n - 1) (c.skipMany 3)
  some (b :: bs, c)

/-- The characters of a tag's suffix. -/
def tagSuffix? (whole : Bool) : Nat → TagText → Cursor → Option (TagText × Cursor)
  | 0, acc, c => some (acc, c)
  | fuel + 1, acc, c =>
    match c.rest with
    | d :: _ =>
      if d = '%' then do
        let (bs, c) ← escapedChar? c
        tagSuffix? whole fuel (acc ++ bs) c
      else if isTagChar whole d then tagSuffix? whole fuel (acc ++ asciiBytes [d]) c.skip
      else some (acc, c)
    | [] => some (acc, c)

/-- A suffix that is not empty. -/
def properSuffix? (whole : Bool) (c : Cursor) : Option (TagText × Cursor) := do
  let (suffix, c') ← tagSuffix? whole c.rest.length [] c
  if c'.index = c.index then none else some (suffix, c')

/-- A handle: an exclamation mark, word characters, and perhaps a second mark. -/
def tagHandle (c : Cursor) : TagText × Cursor :=
  let (word, c) := c.skip.spanWhile isWord
  let handle := bang :: asciiBytes word
  if c.nextIs (· = '!') then (handle ++ [bang], c.skip) else (handle, c)

/-- Whether a handle is closed by a second mark. -/
def isClosedHandle (handle : TagText) : Bool := handle.length ≠ 1 && handle.getLast? = some bang

/-- A tag; outside flow collections a gap must come after it. -/
def tag? (inFlow : Bool) (c : Cursor) : Option (Token × Cursor) := do
  let (handle, suffix, c) ←
    if (c.skip).nextIs (· = '<') then do
      let (suffix, c) ← properSuffix? true (c.skipMany 2)
      if c.nextIs (· = '>') then some ([], suffix, c.skip) else none
    else
      let (handle, c) := tagHandle c
      if isClosedHandle handle then do
        let (suffix, c) ← properSuffix? false c
        some (handle, suffix, c)
      else do
        let (suffix, c) ← tagSuffix? false c.rest.length handle.tail c
        some (if suffix.isEmpty then ([], [bang], c) else ([bang], suffix, c))
  if c.gapAfter 0 ∨ (inFlow ∧ c.nextIs (· = ',')) then some (.tag handle suffix, c) else none

/-! ### Directives -/

/-- A number of at most nine digits. -/
def versionNumber? (c : Cursor) : Option (Nat × Cursor) :=
  let (digits, c) := c.spanWhile Char.isDigit
  if digits.isEmpty ∨ 9 < digits.length then none
  else some (digits.foldl (fun n d => n * 10 + Json.digitValue d) 0, c)

/-- The version that a directive names. -/
def versionDirective? (c : Cursor) : Option (Token × Cursor) := do
  let (major, c) ← versionNumber? (c.skipWhile isBlank)
  if !c.nextIs (· = '.') then none
  let (minor, c) ← versionNumber? c.skip
  some (.version major minor, c)

/-- The handle that a directive explains, and what it stands for. -/
def tagDirective? (c : Cursor) : Option (Token × Cursor) := do
  let c := c.skipWhile isBlank
  if !c.nextIs (· = '!') then none
  let (handle, c) := tagHandle c
  if handle ≠ [bang] ∧ !isClosedHandle handle then none
  if !c.nextIs isBlank then none
  let (lead, c) ← properSuffix? true (c.skipWhile isBlank)
  if c.gapAfter 0 then some (.tagDirective handle lead, c) else none

/-- A directive, up to the end of its line. -/
def directive? (c : Cursor) : Option (Token × Cursor) := do
  let (name, c) := c.skip.spanWhile isWord
  if !c.gapAfter 0 then none
  let (token, c) ←
    if name = ['Y', 'A', 'M', 'L'] then versionDirective? c
    else if name = ['T', 'A', 'G'] then tagDirective? c
    else none
  let c ← c.finishLine?
  some (token, c)

end RecordTree.Yaml
