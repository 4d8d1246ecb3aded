import RecordTree.Yaml.Character

/-!
# Places in a text

A cursor holds the rest of a text together with the line and the column where it begins. A carriage
return and the line feed after it end one line.
-/

namespace RecordTree.Yaml

/-- A place in a text. -/
structure Cursor where
  rest : List Char
  /-- The number of characters before the place. -/
  index : Nat
  line : Nat
  column : Nat
  deriving Inhabited

namespace Cursor

/-- The beginning of a text. -/
def start (text : List Char) : Cursor := ⟨text, 0, 0, 0⟩

/-- Passes one character of a line. -/
def skip (c : Cursor) : Cursor :=
  match c.rest with
  | [] => c
  | _ :: rest => ⟨rest, c.index + 1, c.line, c.column + 1⟩

/-- Passes several characters of a line. -/
def skipMany : Nat → Cursor → Cursor
  | 0, c => c
  | n + 1, c => skipMany n c.skip

/-- Passes the characters of a line that satisfy a test; the first part of the answer holds them. -/
def spanWhile (test : Char → Bool) (c : Cursor) : List Char × Cursor :=
  let passed := c.rest.takeWhile test
  (passed, ⟨c.rest.drop passed.length, c.index + passed.length, c.line, c.column + passed.length⟩)

/-- Passes the characters of a line that satisfy a test. -/
def skipWhile (test : Char → Bool) (c : Cursor) : Cursor := (c.spanWhile test).2

/-- Passes a line break, if there is one. The first part of the answer is the break as it stands in
a scalar: a line feed, or one of the two Unicode separators. -/
def readLine (c : Cursor) : List Char × Cursor :=
  match c.rest with
  | '\r' :: '\n' :: rest => (['\n'], ⟨rest, c.index + 2, c.line + 1, 0⟩)
  | b :: rest =>
    if isBreak b then
      let text := if b.toNat = 0x2028 ∨ b.toNat = 0x2029 then b else '\n'
      ([text], ⟨rest, c.index + 1, c.line + 1, 0⟩)
    else ([], c)
  | [] => ([], c)

/-- Passes a line break, if there is one. -/
def skipLine (c : Cursor) : Cursor := c.readLine.2

/-- Whether the text is over. -/
def atEnd (c : Cursor) : Bool := c.rest.isEmpty

/-- Whether the next character satisfies a test. -/
def nextIs (test : Char → Bool) (c : Cursor) : Bool :=
  match c.rest with
  | d :: _ => test d
  | [] => false

/-- Whether a gap or the end of the text comes after the given number of characters. -/
def gapAfter (n : Nat) (c : Cursor) : Bool := startsGap (c.rest.drop n)

/-- Whether a document mark made of three of the given characters stands here, at the beginning of a
line and before a gap. -/
def atMark (mark : Char) (c : Cursor) : Bool :=
  c.column = 0 && c.rest.take 3 = [mark, mark, mark] && c.gapAfter 3

/-- Whether a document mark stands here. -/
def atDocumentMark (c : Cursor) : Bool := c.atMark '-' || c.atMark '.'

/-- Passes blanks, a comment, and then the end of the line. Anything else there is an error. -/
def finishLine? (c : Cursor) : Option Cursor :=
  let c := c.skipWhile isBlank
  let c := if c.nextIs (· = '#') then c.skipWhile (!isBreak ·) else c
  if c.atEnd then some c else if c.nextIs isBreak then some c.skipLine else none

end Cursor

end RecordTree.Yaml
