import RecordTree.Json.Reader

/-!
# TOML texts and keys

Texts stand in double quotes, with escapes, or in single quotes, without any; in three quotes of either
sort they run over several lines. A key is a bare word or a text on one line, and a dotted key is a row
of them.
-/

namespace RecordTree.Toml

/-- The blanks within a line. -/
def isBlank (c : Char) : Bool := c = ' ' || c = '\t'

/-- Drops the blanks in front. -/
def skipBlank (cs : List Char) : List Char := cs.dropWhile isBlank

/-- Whether a character may stand in a text or a comment. -/
def isPrintable (c : Char) : Bool := c = '\t' || (0x20 ≤ c.toNat && c.toNat ≠ 0x7F)

/-- What stands behind a line break. -/
def lineBreak? : List Char → Option (List Char)
  | '\n' :: cs => some cs
  | '\r' :: '\n' :: cs => some cs
  | _ => none

/-- Drops the blanks and line breaks in front. -/
def skipLines (cs : List Char) : List Char :=
  match cs with
  | '\n' :: cs => skipLines cs
  | '\r' :: '\n' :: cs => skipLines cs
  | ' ' :: cs => skipLines cs
  | '\t' :: cs => skipLines cs
  | cs => cs

/-! ### Escapes -/

/-- The character with a number of the given count of hexadecimal digits. -/
def codePoint? (count : Nat) (cs : List Char) : Option (Char × List Char) := do
  let digits := cs.take count
  if digits.length ≠ count then none
  let n ← digits.foldlM (fun n c => (Json.hexValue? c).map (n * 16 + ·)) 0
  if n < 0xD800 ∨ (0xE000 ≤ n ∧ n < 0x110000) then some (Char.ofNat n, cs.drop count) else none

/-- The character that the text after a backslash names. -/
def escape? : List Char → Option (Char × List Char)
  | 'b' :: cs => some ('\x08', cs)
  | 't' :: cs => some ('\t', cs)
  | 'n' :: cs => some ('\n', cs)
  | 'f' :: cs => some ('\x0c', cs)
  | 'r' :: cs => some ('\r', cs)
  | '"' :: cs => some ('"', cs)
  | '\\' :: cs => some ('\\', cs)
  | 'u' :: cs => codePoint? 4 cs
  | 'U' :: cs => codePoint? 8 cs
  | _ => none

/-! ### Texts

Each reader takes what it has read so far in reverse. -/

/-- A text in double quotes, after the first of them. -/
def basic : Nat → List Char → List Char → Option (List Char × List Char)
  | 0, _, _ => none
  | _ + 1, _, [] => none
  | _ + 1, acc, '"' :: cs => some (acc, cs)
  | fuel + 1, acc, '\\' :: cs => do
    let (c, cs) ← escape? cs
    basic fuel (c :: acc) cs
  | fuel + 1, acc, c :: cs => if isPrintable c then basic fuel (c :: acc) cs else none

/-- A text in single quotes, after the first of them. -/
def literal (acc : List Char) : List Char → Option (List Char × List Char)
  | [] => none
  | '\'' :: cs => some (acc, cs)
  | c :: cs => if isPrintable c then literal (c :: acc) cs else none

/-- How many quotes in front belong to the text, if three after them end it. Two can at most. -/
def closing? (quote : Char) (cs : List Char) : Option (Nat × List Char) :=
  let run := (cs.takeWhile (· = quote)).length
  if 3 ≤ run then some (min (run - 3) 2, cs.drop (min run 5)) else none

/-- A text on several lines in double quotes. A backslash at the end of a line hides the line break and
all blanks after it. -/
def basicLines : Nat → List Char → List Char → Option (List Char × List Char)
  | 0, _, _ => none
  | _ + 1, _, [] => none
  | fuel + 1, acc, c :: cs =>
    match closing? '"' (c :: cs) with
    | some (quotes, rest) => some (List.replicate quotes '"' ++ acc, rest)
    | none =>
      if c = '\\' then
        match lineBreak? (skipBlank cs) with
        | some rest => basicLines fuel acc (skipLines rest)
        | none => do
          let (c, cs) ← escape? cs
          basicLines fuel (c :: acc) cs
      else
        match lineBreak? (c :: cs) with
        | some rest => basicLines fuel ('\n' :: acc) rest
        | none => if isPrintable c then basicLines fuel (c :: acc) cs else none

/-- A text on several lines in single quotes. -/
def literalLines : Nat → List Char → List Char → Option (List Char × List Char)
  | 0, _, _ => none
  | _ + 1, _, [] => none
  | fuel + 1, acc, c :: cs =>
    match closing? '\'' (c :: cs) with
    | some (quotes, rest) => some (List.replicate quotes '\'' ++ acc, rest)
    | none =>
      match lineBreak? (c :: cs) with
      | some rest => literalLines fuel ('\n' :: acc) rest
      | none => if isPrintable c then literalLines fuel (c :: acc) cs else none

/-- Drops a line break in front. -/
def dropLineBreak (cs : List Char) : List Char := (lineBreak? cs).getD cs

/-- Turns what was read in reverse into a text. -/
def finish (x : Option (List Char × List Char)) : Option (String × List Char) :=
  x.map fun (acc, cs) => (String.ofList acc.reverse, cs)

/-- A text on one line. -/
def lineText? : List Char → Option (String × List Char)
  | '"' :: cs => finish (basic (cs.length + 1) [] cs)
  | '\'' :: cs => finish (literal [] cs)
  | _ => none

/-- A text. -/
def text? : List Char → Option (String × List Char)
  | '"' :: '"' :: '"' :: cs => finish (basicLines (cs.length + 1) [] (dropLineBreak cs))
  | '\'' :: '\'' :: '\'' :: cs => finish (literalLines (cs.length + 1) [] (dropLineBreak cs))
  | cs => lineText? cs

/-! ### Keys -/

/-- Whether a character may stand in a bare word. -/
def isBare (c : Char) : Bool := c.isAlphanum || c = '_' || c = '-'

/-- One part of a key. -/
def keyPart? (cs : List Char) : Option (String × List Char) :=
  match lineText? cs with
  | some part => some part
  | none =>
    let word := cs.takeWhile isBare
    if word.isEmpty then none else some (String.ofList word, cs.drop word.length)

/-- The parts of a dotted key, in reverse, with the blanks around them. -/
def keyParts : Nat → List String → List Char → Option (List String × List Char)
  | 0, _, _ => none
  | fuel + 1, acc, cs =>
    match keyPart? (skipBlank cs) with
    | none => none
    | some (part, cs) =>
      match skipBlank cs with
      | '.' :: cs => keyParts fuel (part :: acc) cs
      | cs => some (part :: acc, cs)

/-- How many parts a dotted key cannot have. -/
def partLimit : Nat := 80

/-- A key: the parts before the last one, and the last one. -/
def key? (cs : List Char) : Option ((List String × String) × List Char) :=
  match keyParts partLimit [] cs with
  | some (last :: before, cs) =>
    if before.length + 1 < partLimit then some ((before.reverse, last), cs) else none
  | _ => none

end RecordTree.Toml
