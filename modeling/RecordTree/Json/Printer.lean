import RecordTree.Json.Number

/-!
# Writing JSON

Two layouts: `compact` without any blank, and `pretty` with one item a line, two columns of indent
for each level, and empty containers closed at once. Texts escape quotes, backslashes and the
control characters below U+0020; all else stands as it is.

Every writer takes the text that follows, so that a document is built from its end.
-/

namespace RecordTree.Json

/-- One hexadecimal digit, in lower case. -/
def hexDigit (n : Nat) : Char :=
  if n < 10 then Char.ofNat ('0'.toNat + n) else Char.ofNat ('a'.toNat + (n - 10))

/-- A character as it stands in a JSON text. -/
def escape (c : Char) : List Char :=
  if c = '"' then ['\\', '"']
  else if c = '\\' then ['\\', '\\']
  else if 0x20 ≤ c.toNat then [c]
  else if c = '\n' then ['\\', 'n']
  else if c = '\r' then ['\\', 'r']
  else if c = '\t' then ['\\', 't']
  else if c.toNat = 0x08 then ['\\', 'b']
  else if c.toNat = 0x0C then ['\\', 'f']
  else ['\\', 'u', '0', '0', hexDigit (c.toNat / 16), hexDigit (c.toNat % 16)]

/-- A quoted text. -/
def quoted (s : List Char) (rest : List Char) : List Char :=
  '"' :: (s.flatMap escape ++ '"' :: rest)

mutual

/-- A value without any blank. -/
def compactValue : Value → List Char → List Char
  | .null, rest => 'n' :: 'u' :: 'l' :: 'l' :: rest
  | .bool true, rest => 't' :: 'r' :: 'u' :: 'e' :: rest
  | .bool false, rest => 'f' :: 'a' :: 'l' :: 's' :: 'e' :: rest
  | .number n, rest => numberText n ++ rest
  | .string s, rest => quoted s.toList rest
  | .array items, rest => '[' :: compactItems items (']' :: rest)
  | .object fields, rest => '\x7b' :: compactFields fields ('\x7d' :: rest)

/-- Items divided by commas. -/
def compactItems : List Value → List Char → List Char
  | [], rest => rest
  | [v], rest => compactValue v rest
  | v :: vs, rest => compactValue v (',' :: compactItems vs rest)

/-- Fields divided by commas. -/
def compactFields : List (String × Value) → List Char → List Char
  | [], rest => rest
  | [(k, v)], rest => quoted k.toList (':' :: compactValue v rest)
  | (k, v) :: fs, rest => quoted k.toList (':' :: compactValue v (',' :: compactFields fs rest))

end

/-- A line break and the indent of a level. -/
def newline (level : Nat) (rest : List Char) : List Char :=
  '\n' :: (List.replicate (2 * level) ' ' ++ rest)

mutual

/-- A value with one item a line, at the given level. -/
def prettyValue (level : Nat) : Value → List Char → List Char
  | .array [], rest => '[' :: ']' :: rest
  | .array items, rest =>
    '[' :: newline (level + 1) (prettyItems (level + 1) items (newline level (']' :: rest)))
  | .object [], rest => '\x7b' :: '\x7d' :: rest
  | .object fields, rest =>
    '\x7b' :: newline (level + 1)
      (prettyFields (level + 1) fields (newline level ('\x7d' :: rest)))
  | .null, rest => 'n' :: 'u' :: 'l' :: 'l' :: rest
  | .bool true, rest => 't' :: 'r' :: 'u' :: 'e' :: rest
  | .bool false, rest => 'f' :: 'a' :: 'l' :: 's' :: 'e' :: rest
  | .number n, rest => numberText n ++ rest
  | .string s, rest => quoted s.toList rest

/-- Items on lines of their own. -/
def prettyItems (level : Nat) : List Value → List Char → List Char
  | [], rest => rest
  | [v], rest => prettyValue level v rest
  | v :: vs, rest => prettyValue level v (',' :: newline level (prettyItems level vs rest))

/-- Fields on lines of their own. -/
def prettyFields (level : Nat) : List (String × Value) → List Char → List Char
  | [], rest => rest
  | [(k, v)], rest => quoted k.toList (':' :: ' ' :: prettyValue level v rest)
  | (k, v) :: fs, rest =>
    quoted k.toList (':' :: ' ' :: prettyValue level v
      (',' :: newline level (prettyFields level fs rest)))

end

/-- The compact text of a value. -/
def compact (v : Value) : String := String.ofList (compactValue v [])

/-- The text of a value with one item a line. -/
def pretty (v : Value) : String := String.ofList (prettyValue 0 v [])

end RecordTree.Json
