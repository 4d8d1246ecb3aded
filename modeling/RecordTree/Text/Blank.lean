/-!
# Blank characters

The characters with the Unicode property White_Space, and texts without them at their ends.
-/

namespace RecordTree.Text

/-- Whether a character has the property White_Space. -/
def isBlank (c : Char) : Bool :=
  let n := c.toNat
  (0x09 ≤ n && n ≤ 0x0D) || n == 0x20 || n == 0x85 || n == 0xA0 || n == 0x1680 ||
    (0x2000 ≤ n && n ≤ 0x200A) || n == 0x2028 || n == 0x2029 || n == 0x202F || n == 0x205F ||
    n == 0x3000

/-- Removes the blanks at both ends. -/
def trimChars (cs : List Char) : List Char :=
  ((cs.dropWhile isBlank).reverse.dropWhile isBlank).reverse

/-- Removes the blanks at both ends. -/
def trim (s : String) : String := String.ofList (trimChars s.toList)

/-- Whether a text has no character other than blanks. -/
def isAllBlank (s : String) : Bool := s.toList.all isBlank

/-- Replaces the ASCII capitals by small letters. -/
def lowerAscii (s : String) : String := String.ofList (s.toList.map Char.toLower)

end RecordTree.Text
