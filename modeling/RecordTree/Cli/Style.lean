import RecordTree.Value

/-!
# Colours of the terminal

Texts that stand out on a terminal stand between a sequence of control characters that says how, and one
that ends it.
-/

namespace RecordTree.Cli

/-- How a text stands out, as the terminal numbers it. -/
structure Style where
  codes : List Nat

namespace Style

/-- Bold text. -/
def bold : Style := ⟨[1]⟩

/-- Faint text. -/
def dim : Style := ⟨[2]⟩

/-- Red text. -/
def red : Style := ⟨[31]⟩

/-- Green text. -/
def green : Style := ⟨[32]⟩

/-- Yellow text. -/
def yellow : Style := ⟨[33]⟩

/-- Cyan text. -/
def cyan : Style := ⟨[36]⟩

/-- Bold green text. -/
def boldGreen : Style := ⟨[1, 32]⟩

/-- Bold blue text. -/
def boldBlue : Style := ⟨[1, 34]⟩

/-- What ends every style. -/
def reset : List Char := "\x1b[0m".toList

/-- What begins a style. -/
def start (s : Style) : List Char := ("\x1b[" ++ ";".intercalate (s.codes.map toString) ++ "m").toList

/-- A text in which what ends a style is followed by what begins one. -/
def resume (start : List Char) : List Char → List Char
  | '\x1b' :: '[' :: '0' :: 'm' :: cs => reset ++ start ++ resume start cs
  | c :: cs => c :: resume start cs
  | [] => []

/-- A text that stands out. The style goes on where the text itself ends one. -/
def paint (s : Style) (text : String) : String :=
  String.ofList (s.start ++ resume s.start text.toList ++ reset)

/-- Whether texts shall stand out: by the settings that force or forbid colours, whose value is not
`0`, and otherwise on a terminal whose setting does not switch them off. -/
def isWanted (force forbid switch : Option String) (isTerminal : Bool) : Bool :=
  if force.any (· ≠ "0") then true
  else if forbid.isSome then false
  else isTerminal && switch.all (· ≠ "0")

end Style

end RecordTree.Cli
