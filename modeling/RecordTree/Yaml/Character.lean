/-!
# Character classes of YAML

Line breaks are those of YAML 1.1: besides the line feed and the carriage return, the next-line
character U+0085 and the two Unicode separators U+2028 and U+2029.
-/

namespace RecordTree.Yaml

/-- A character that ends a line. -/
def isBreak (c : Char) : Bool :=
  c = '\n' || c = '\r' || c.toNat = 0x85 || c.toNat = 0x2028 || c.toNat = 0x2029

/-- A space or a tab. -/
def isBlank (c : Char) : Bool := c = ' ' || c = '\t'

/-- A character that separates tokens: a blank or a break. -/
def isGap (c : Char) : Bool := isBlank c || isBreak c

/-- Whether a text starts with a gap or is over. -/
def startsGap : List Char → Bool
  | [] => true
  | c :: _ => isGap c || c.toNat = 0

/-- A character that may stand in a document as it is, other than a tab, a carriage return or a
next-line character. -/
def isPrintable (c : Char) : Bool :=
  let n := c.toNat
  n = 0x0A || (0x20 ≤ n && n ≤ 0x7E) || (0xA0 ≤ n && n ≤ 0xD7FF) ||
    (0xE000 ≤ n && n ≤ 0xFFFD && n ≠ 0xFEFF) || 0x10000 ≤ n

/-- A character that may stand in a source text at all. -/
def isReadable (c : Char) : Bool :=
  let n := c.toNat
  n = 0x09 || n = 0x0A || n = 0x0D || (0x20 ≤ n && n ≤ 0x7E) || n = 0x85 ||
    (0xA0 ≤ n && n ≤ 0xD7FF) || (0xE000 ≤ n && n ≤ 0xFFFD) || 0x10000 ≤ n

/-- The byte order mark. -/
def isMark (c : Char) : Bool := c.toNat = 0xFEFF

/-- A character of an anchor or of a tag handle. -/
def isWord (c : Char) : Bool := c.isAlphanum || c = '_' || c = '-'

/-- A character of a flow collection's structure. -/
def isFlowMark (c : Char) : Bool :=
  c = ',' || c = '[' || c = ']' || c = '\x7b' || c = '\x7d'

/-- A character that cannot begin a plain text, whatever follows it. -/
def isIndicator (c : Char) : Bool :=
  isFlowMark c || c = '#' || c = '&' || c = '*' || c = '!' || c = '|' || c = '>' || c = '\'' ||
    c = '"' || c = '%' || c = '@' || c = '`'

end RecordTree.Yaml
