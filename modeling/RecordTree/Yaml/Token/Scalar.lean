import RecordTree.Json.Reader
import RecordTree.Yaml.Token.Cursor

/-!
# Scalars in a text

The four ways in which a scalar may stand in a text: plain, between single or double quotes, and as
a literal or folded block. Inside the first three a line break counts as a space, and further
breaks after it stand for themselves (`Gap.text`). A folded block joins its lines by the same rule,
except around lines that begin with a blank.

Each reader takes a cursor to the beginning of the scalar and gives its text and the cursor behind
it, or nothing where the text is not a scalar of this kind.
-/

namespace RecordTree.Yaml

/-! ### Gaps between words -/

/-- The blanks and breaks between two words of a scalar. -/
structure Gap where
  /-- The blanks of a gap without a break. -/
  blanks : List Char
  /-- Whether there was a break. -/
  broken : Bool
  /-- The first break. -/
  first : List Char
  /-- The breaks after the first. -/
  more : List Char

namespace Gap

/-- The gap without a character. -/
def none : Gap := ⟨[], false, [], []⟩

/-- A line break and the breaks after it, folded: one line feed is a space, and otherwise the first
line feed is dropped. -/
def fold (first more : List Char) : List Char :=
  if first = ['\n'] then (if more = [] then [' '] else more) else first ++ more

/-- What a gap stands for in a scalar. -/
def text (g : Gap) : List Char := if g.broken then fold g.first g.more else g.blanks

/-- Reads on in a gap. Blanks after a break are dropped; a tab among them must not stand left of the
given column. -/
def read? (least : Nat) : Nat → Gap → Cursor → Option (Gap × Cursor)
  | 0, g, c => some (g, c)
  | fuel + 1, g, c =>
    match c.rest with
    | [] => some (g, c)
    | d :: _ =>
      if isBlank d then
        if g.broken then
          if d = '\t' ∧ c.column < least then Option.none else read? least fuel g c.skip
        else read? least fuel { g with blanks := g.blanks ++ [d] } c.skip
      else if isBreak d then
        let (line, c) := c.readLine
        if g.broken then read? least fuel { g with more := g.more ++ line } c
        else read? least fuel ⟨[], true, line, []⟩ c
      else some (g, c)

end Gap

/-! ### Quoted scalars -/

/-- The number written by the given count of hexadecimal digits. -/
def hexNumber? : Nat → Nat → List Char → Option Nat
  | 0, n, _ => some n
  | count + 1, n, c :: cs => do hexNumber? count (n * 16 + (← Json.hexValue? c)) cs
  | _ + 1, _, [] => none

/-- The character with a given code, if it is the code of a character. -/
def charOfCode? (n : Nat) : Option Char :=
  if n < 0xD800 ∨ (0xDFFF < n ∧ n ≤ 0x10FFFF) then some (Char.ofNat n) else none

/-- The character that an escape stands for and the number of characters of the escape, both without
the backslash. -/
def unescape? : List Char → Option (Char × Nat)
  | 'x' :: cs => do some (← charOfCode? (← hexNumber? 2 0 cs), 3)
  | 'u' :: cs => do some (← charOfCode? (← hexNumber? 4 0 cs), 5)
  | 'U' :: cs => do some (← charOfCode? (← hexNumber? 8 0 cs), 9)
  | c :: _ =>
    let named : Option Nat :=
      match c with
      | '0' => some 0x00
      | 'a' => some 0x07
      | 'b' => some 0x08
      | 't' => some 0x09
      | '\t' => some 0x09
      | 'n' => some 0x0A
      | 'v' => some 0x0B
      | 'f' => some 0x0C
      | 'r' => some 0x0D
      | 'e' => some 0x1B
      | ' ' => some 0x20
      | '"' => some 0x22
      | '/' => some 0x2F
      | '\\' => some 0x5C
      | 'N' => some 0x85
      | '_' => some 0xA0
      | 'L' => some 0x2028
      | 'P' => some 0x2029
      | _ => none
    named.map fun n => (Char.ofNat n, 1)
  | [] => none

/-- A run of a single-quoted scalar up to a gap or to its end; a quote is written twice. The text is
collected in reverse. -/
def singleRun : Nat → List Char → Cursor → List Char × Cursor
  | 0, acc, c => (acc, c)
  | fuel + 1, acc, c =>
    match c.rest with
    | '\'' :: '\'' :: _ => singleRun fuel ('\'' :: acc) (c.skipMany 2)
    | d :: _ => if d = '\'' ∨ isGap d then (acc, c) else singleRun fuel (d :: acc) c.skip
    | [] => (acc, c)

/-- A run of a double-quoted scalar up to a gap or to its end, collected in reverse. The middle part
of the answer says whether the run ended with an escaped line break. -/
def doubleRun? : Nat → List Char → Cursor → Option (List Char × Bool × Cursor)
  | 0, acc, c => some (acc, false, c)
  | fuel + 1, acc, c =>
    match c.rest with
    | '\\' :: d :: ds =>
      if isBreak d then some (acc, true, c.skip.skipLine)
      else do
        let (e, length) ← unescape? (d :: ds)
        doubleRun? fuel (e :: acc) (c.skipMany (length + 1))
    | ['\\'] => none
    | d :: _ => if d = '"' ∨ isGap d then some (acc, false, c) else doubleRun? fuel (d :: acc) c.skip
    | [] => some (acc, false, c)

/-- The rest of a quoted scalar, collected in reverse. -/
def quotedBody? (single : Bool) : Nat → List Char → Cursor → Option (List Char × Cursor)
  | 0, _, _ => none
  | fuel + 1, acc, c =>
    if c.atDocumentMark ∨ c.atEnd then none
    else do
      let room := c.rest.length
      let (acc, broken, c) ←
        if single then
          let (acc, c) := singleRun room acc c
          some (acc, false, c)
        else doubleRun? room acc c
      if c.nextIs (· = if single then '\'' else '"') then some (acc, c.skip)
      else do
        let (gap, c) ← Gap.read? 0 room { Gap.none with broken } c
        quotedBody? single fuel (gap.text.reverse ++ acc) c

/-- A quoted scalar. -/
def quotedScalar? (single : Bool) (c : Cursor) : Option (List Char × Cursor) :=
  (quotedBody? single (c.rest.length + 1) [] c.skip).map fun (acc, c) => (acc.reverse, c)

/-! ### Plain scalars -/

/-- A word of a plain scalar: it ends before a gap, before a colon with a gap behind it, and in a flow
collection before a mark of its structure. A colon right before such a mark is an error. -/
def plainWord? (inFlow : Bool) : List Char → Option (List Char)
  | [] => some []
  | c :: cs =>
    if isGap c then some []
    else if inFlow ∧ c = ':' ∧ cs.head?.any (fun d => isFlowMark d || d = '?') then none
    else if (c = ':' ∧ startsGap cs) ∨ (inFlow ∧ isFlowMark c) then some []
    else (plainWord? inFlow cs).map (c :: ·)

/-- The rest of a plain scalar after a gap, collected in reverse. It ends at a document mark, before a
comment, and outside flow collections at a line left of the given column. The flag says whether a
line break was passed after the last word. -/
def plainBody? (inFlow : Bool) (least : Nat) :
    Nat → List Char → Gap → Cursor → Option (List Char × Bool × Cursor)
  | 0, acc, gap, c => some (acc, gap.broken, c)
  | fuel + 1, acc, gap, c =>
    if c.atDocumentMark ∨ c.nextIs (· = '#') then some (acc, gap.broken, c)
    else do
      let word ← plainWord? inFlow c.rest
      let acc := if word.isEmpty then acc else word.reverse ++ (gap.text.reverse ++ acc)
      let gap := if word.isEmpty then gap else Gap.none
      let c := c.skipMany word.length
      if c.nextIs isGap then
        let (gap, c) ← Gap.read? least c.rest.length gap c
        if !inFlow ∧ c.column < least then some (acc, gap.broken, c)
        else plainBody? inFlow least fuel acc gap c
      else some (acc, gap.broken, c)

/-- A plain scalar. -/
def plainScalar? (inFlow : Bool) (least : Nat) (c : Cursor) :
    Option (List Char × Bool × Cursor) :=
  (plainBody? inFlow least (c.rest.length + 1) [] Gap.none c).map fun (acc, broken, c) =>
    (acc.reverse, broken, c)

/-! ### Block scalars -/

/-- What happens to the breaks at the end of a block. -/
inductive Chomping where
  | strip
  | clip
  | keep
  deriving DecidableEq

/-- The chomping that a mark names. -/
def chomping? : Char → Option Chomping
  | '+' => some .keep
  | '-' => some .strip
  | _ => none

/-- The marks behind a block's indicator: chomping and the count of columns of its indent, in either
order. Zero columns are an error. -/
def blockMarks? (c : Cursor) : Option (Chomping × Nat × Cursor) :=
  let digit? := fun (c : Cursor) =>
    match c.rest with
    | d :: _ => if d.isDigit then some (Json.digitValue d) else none
    | [] => none
  match c.rest.head?.bind chomping? with
  | some chomping =>
    let c := c.skip
    match digit? c with
    | some 0 => none
    | some n => some (chomping, n, c.skip)
    | none => some (chomping, 0, c)
  | none =>
    match digit? c with
    | some 0 => none
    | some n =>
      let c := c.skip
      match c.rest.head?.bind chomping? with
      | some chomping => some (chomping, n, c.skip)
      | none => some (.clip, n, c)
    | none => some (.clip, 0, c)

/-- Passes indents and empty lines. `indent` is zero while it is not known; `widest` is the greatest
column reached so far. The answer holds the breaks passed. -/
def blockBreaks? (indent : Nat) :
    Nat → Nat → List Char → Cursor → Option (List Char × Nat × Cursor)
  | 0, widest, acc, c => some (acc, widest, c)
  | fuel + 1, widest, acc, c =>
    let blanks := c.rest.takeWhile (· = ' ')
    let c := c.skipMany (if indent = 0 then blanks.length else min blanks.length (indent - c.column))
    let widest := max widest c.column
    if (indent = 0 ∨ c.column < indent) ∧ c.nextIs (· = '\t') then none
    else if c.nextIs isBreak then
      let (line, c) := c.readLine
      blockBreaks? indent fuel widest (acc ++ line) c
    else some (acc, widest, c)

/-- The state of a block while its lines are read. -/
structure BlockText where
  /-- The text so far, in reverse. -/
  acc : List Char
  /-- The break after the last line. -/
  last : List Char
  /-- The breaks of the empty lines after it. -/
  empty : List Char
  /-- Whether the last line began with a blank. -/
  indented : Bool

/-- The lines of a block. -/
def blockLines? (folded : Bool) (indent : Nat) :
    Nat → BlockText → Cursor → Option (BlockText × Cursor)
  | 0, t, c => some (t, c)
  | fuel + 1, t, c =>
    if c.column ≠ indent ∨ c.atEnd then some (t, c)
    else
      let blank := c.nextIs isBlank
      let joint :=
        if folded ∧ t.last = ['\n'] ∧ !t.indented ∧ !blank then Gap.fold t.last t.empty
        else t.last ++ t.empty
      let (line, c) := c.spanWhile (!isBreak ·)
      let (last, c) := c.readLine
      let acc := line.reverse ++ (joint.reverse ++ t.acc)
      match blockBreaks? indent c.rest.length 0 [] c with
      | none => none
      | some (empty, _, c) => blockLines? folded indent fuel ⟨acc, last, empty, blank⟩ c

/-- A block scalar under a collection whose items begin at the given column. -/
def blockScalar? (folded : Bool) (parent : Int) (c : Cursor) : Option (List Char × Cursor) := do
  let (chomping, increment, c) ← blockMarks? c.skip
  let c ← c.finishLine?
  let given := if increment = 0 then 0 else ((max parent 0) + increment).toNat
  let (empty, widest, c) ← blockBreaks? given (c.rest.length + 1) 0 [] c
  let indent := if given = 0 then max widest (max (parent + 1).toNat 1) else given
  let (t, c) ← blockLines? folded indent (c.rest.length + 1) ⟨[], [], empty, false⟩ c
  let tail :=
    match chomping with
    | .strip => []
    | .clip => t.last
    | .keep => t.last ++ t.empty
  some (t.acc.reverse ++ tail, c)

end RecordTree.Yaml
