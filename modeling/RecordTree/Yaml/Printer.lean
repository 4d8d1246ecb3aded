import RecordTree.Yaml.Character
import RecordTree.Yaml.Plain

/-!
# Writing YAML

A document is written in block style, two columns of indent for each level, with the items of a
sequence at the indent of the key above them, and with `[]` and `{}` for empty collections. Lines
are never folded.

The shape of a text is chosen in this order. A text with a line feed is a literal block if its
lines allow it. Any other text stands plain if it then reads back as a text, else between single
quotes, and what these cannot hold goes between double quotes with escapes.
-/

namespace RecordTree.Yaml

/-! ### Which shapes a text allows -/

/-- Whether some two neighbours in a text satisfy a test. -/
def anyPair (test : Char → Char → Bool) : List Char → Bool
  | c :: d :: cs => test c d || anyPair test (d :: cs)
  | _ => false

/-- Whether a text begins like a document mark. -/
def startsLikeMark : List Char → Bool
  | '-' :: '-' :: '-' :: _ => true
  | '.' :: '.' :: '.' :: _ => true
  | _ => false

/-- Whether the start of a text would be taken for structure. -/
def startsLikeStructure : List Char → Bool
  | [] => false
  | c :: cs => isIndicator c || ((c = '?' || c = ':' || c = '-') && startsGap cs)

/-- Whether something inside a text would be taken for structure: a colon before a gap, or a number
sign after one. -/
def holdsStructure : List Char → Bool
  | c :: d :: cs =>
    (d = ':' && startsGap cs) || (d = '#' && startsGap [c]) || holdsStructure (d :: cs)
  | _ => false

/-- Whether every character can be written as it is. -/
def allPrintable (cs : List Char) : Bool := cs.all isPrintable

/-- Whether a space stands before a break. -/
def hasSpaceBreak (cs : List Char) : Bool := anyPair (fun c d => c = ' ' && isBreak d) cs

/-- Whether a space stands after a break. -/
def hasBreakSpace (cs : List Char) : Bool := anyPair (fun c d => isBreak c && d = ' ') cs

/-- Whether a text may stand plain in a block. The empty text may; it reads back as nothing. -/
def allowsPlain (cs : List Char) : Bool :=
  match cs with
  | [] => true
  | c :: _ =>
    let last := cs.getLastD c
    allPrintable cs && !(c = ' ') && !(last = ' ') && !cs.any isBreak &&
      !startsLikeMark cs && !startsLikeStructure cs && !holdsStructure cs

/-- Whether a text may stand between single quotes. -/
def allowsSingle (cs : List Char) : Bool :=
  allPrintable cs && !hasSpaceBreak cs && !hasBreakSpace cs

/-- Whether a text may stand as a literal block. -/
def allowsLiteral (cs : List Char) : Bool :=
  match cs with
  | [] => false
  | c :: _ => allPrintable cs && !hasSpaceBreak cs && !(cs.getLastD c = ' ')

/-! ### The shapes -/

/-- Spaces up to a column. -/
def spaces (n : Nat) : List Char := List.replicate n ' '

/-- Capital hexadecimal digits, as many as asked for. -/
def hexDigits : Nat → Nat → List Char
  | 0, _ => []
  | count + 1, n =>
    hexDigits count (n / 16) ++ [(Nat.digitChar (n % 16)).toUpper]

/-- A character between double quotes. -/
def escape (c : Char) : List Char :=
  let n := c.toNat
  if c = '"' ∨ c = '\\' then ['\\', c]
  else if isPrintable c ∧ ¬ isBreak c then [c]
  else if n = 0x00 then ['\\', '0']
  else if n = 0x07 then ['\\', 'a']
  else if n = 0x08 then ['\\', 'b']
  else if n = 0x09 then ['\\', 't']
  else if n = 0x0A then ['\\', 'n']
  else if n = 0x0B then ['\\', 'v']
  else if n = 0x0C then ['\\', 'f']
  else if n = 0x0D then ['\\', 'r']
  else if n = 0x1B then ['\\', 'e']
  else if n = 0x85 then ['\\', 'N']
  else if n = 0x2028 then ['\\', 'L']
  else if n = 0x2029 then ['\\', 'P']
  else if n ≤ 0xFF then '\\' :: 'x' :: hexDigits 2 n
  else if n ≤ 0xFFFF then '\\' :: 'u' :: hexDigits 4 n
  else '\\' :: 'U' :: hexDigits 8 n

/-- A text between double quotes. -/
def doubleQuoted (cs : List Char) : List Char := '"' :: (cs.flatMap escape ++ ['"'])

/-- The inside of single quotes: a quote is written twice, and the text after a break is indented.
`fresh` says that a break was written last. -/
def singleBody (indent : Nat) (fresh : Bool) : List Char → List Char
  | [] => if fresh then spaces indent else []
  | c :: cs =>
    if isBreak c then c :: singleBody indent true cs
    else
      let text := if c = '\'' then ['\'', '\''] else [c]
      (if fresh then spaces indent else []) ++ text ++ singleBody indent false cs

/-- A text between single quotes. -/
def singleQuoted (indent : Nat) (cs : List Char) : List Char :=
  '\'' :: (singleBody indent false cs ++ ['\''])

/-- The lines of a literal block, each of them indented unless it is empty. -/
def literalBody (indent : Nat) (fresh : Bool) : List Char → List Char
  | [] => []
  | c :: cs =>
    if isBreak c then c :: literalBody indent true cs
    else (if fresh then spaces indent else []) ++ c :: literalBody indent false cs

/-- How the end of a literal block is marked: `-` for a last line without break, `+` for empty lines
at the end, and nothing for one break. -/
def chomping (cs : List Char) : List Char :=
  match cs.reverse with
  | [] => ['-']
  | c :: rest =>
    if !isBreak c then ['-']
    else match rest with
      | [] => ['+']
      | d :: _ => if isBreak d then ['+'] else []

/-- A literal block, with its indent written out if the first line starts with a space or is
empty. -/
def literal (indent : Nat) (cs : List Char) : List Char :=
  let hint := match cs with
    | c :: _ => if c = ' ' ∨ isBreak c then ['2'] else []
    | [] => []
  '|' :: (hint ++ chomping cs ++ '\n' :: literalBody indent true cs)

/-- A text that does not become a literal block. -/
def oneLine (indent : Nat) (cs : List Char) : List Char :=
  if !needsQuotes cs && allowsPlain cs then cs
  else if allowsSingle cs then singleQuoted indent cs
  else doubleQuoted cs

/-- A text, with its further lines at an indent. -/
def text (indent : Nat) (cs : List Char) : List Char :=
  if cs.contains '\n' then
    if allowsLiteral cs then literal indent cs else doubleQuoted cs
  else oneLine indent cs

/-! ### Values -/

/-- YAML writes a positive exponent without a sign. -/
def layout : Decimal.Layout := ⟨false⟩

/-- The text of a number. -/
def numberText : Number → List Char
  | .whole n => (toString n).toList
  | .double x => (layout.text x).toList

/-- The longest key that stands before its colon, in bytes. -/
def keyLimit : Nat := 128

/-- Whether a key stands before its colon on one line. -/
def isSimpleKey (key : List Char) : Bool :=
  !key.any isBreak && (String.ofList key).utf8ByteSize ≤ keyLimit

/-- Ends a line, unless the text before ended it. -/
def endLine (cs : List Char) (rest : List Char) : List Char :=
  match cs.getLast? with
  | some c => cs ++ (if isBreak c then rest else '\n' :: rest)
  | none => '\n' :: rest

/-- Where a value begins: on the current line, or after a simple key and its colon. -/
inductive Place where
  | onLine
  | afterKey

namespace Place

/-- A scalar or an empty collection stands on the current line, one space after a colon. -/
def lead : Place → List Char → List Char
  | onLine, cs => cs
  | afterKey, cs => ' ' :: cs

/-- The indent of the further lines of a text, given that of the lines around it. -/
def textIndent : Place → Nat → Nat
  | onLine, indent => indent
  | afterKey, indent => indent + 2

/-- Begins a line for a collection after a key. -/
def begin : Place → Nat → List Char → List Char
  | onLine, _, cs => cs
  | afterKey, indent, cs => '\n' :: (spaces indent ++ cs)

end Place

/-- A field, given how its value is written. A key that is not simple has a line of its own behind a
question mark, and its value one behind a colon. -/
def field (indent : Nat) (key : List Char) (value : Place → Nat → List Char) : List Char :=
  if isSimpleKey key then oneLine (indent + 2) key ++ ':' :: value .afterKey indent
  else
    '?' :: ' ' :: endLine (text (indent + 2) key)
      (spaces indent ++ ':' :: ' ' :: value .onLine (indent + 2))

mutual

/-- A value at a place. Items under a key keep its indent, and fields go two columns further. -/
def node (place : Place) (indent : Nat) : Value → List Char → List Char
  | .null, rest => place.lead ('n' :: 'u' :: 'l' :: 'l' :: '\n' :: rest)
  | .bool true, rest => place.lead ('t' :: 'r' :: 'u' :: 'e' :: '\n' :: rest)
  | .bool false, rest => place.lead ('f' :: 'a' :: 'l' :: 's' :: 'e' :: '\n' :: rest)
  | .number n, rest => place.lead (numberText n ++ '\n' :: rest)
  | .string s, rest => place.lead (endLine (text (place.textIndent indent) s.toList) rest)
  | .array [], rest => place.lead ('[' :: ']' :: '\n' :: rest)
  | .array vs, rest => place.begin indent (items indent vs rest)
  | .object [], rest => place.lead ('\x7b' :: '\x7d' :: '\n' :: rest)
  | .object fs, rest =>
    place.begin (place.textIndent indent) (fields (place.textIndent indent) fs rest)

/-- Items, each behind a dash; the line of the first has been indented. -/
def items (indent : Nat) : List Value → List Char → List Char
  | [], rest => rest
  | [v], rest => '-' :: ' ' :: node .onLine (indent + 2) v rest
  | v :: vs, rest =>
    '-' :: ' ' :: node .onLine (indent + 2) v (spaces indent ++ items indent vs rest)

/-- Fields; the line of the first has been indented. -/
def fields (indent : Nat) : List (String × Value) → List Char → List Char
  | [], rest => rest
  | [(k, v)], rest => field indent k.toList fun place indent => node place indent v rest
  | (k, v) :: fs, rest =>
    let rest := spaces indent ++ fields indent fs rest
    field indent k.toList fun place indent => node place indent v rest

end

/-- The document that holds a value. -/
def print (v : Value) : String :=
  let chars := match v with
    | .string s => endLine (text 2 s.toList) []
    | v => node .onLine 0 v []
  String.ofList chars

end RecordTree.Yaml
