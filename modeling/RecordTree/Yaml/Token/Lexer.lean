import RecordTree.Yaml.Token
import RecordTree.Yaml.Token.Scalar
import RecordTree.Yaml.Token.Tag

/-!
# From text to tokens

`Token.scan?` cuts a text into tokens. It keeps the columns of the block collections that are open, and
opens or closes one where the text goes right or left of them.

A colon tells only afterwards that the scalar or the flow collection before it was a key. So the
place of a token that may turn out to be a key is remembered (`Candidate`), one place for each
open flow collection, and the tokens that belong before it are put in when the colon comes. A
candidate must end on its line and within 1024 characters; one that stands at the indent of a block
mapping has to become a key.
-/

namespace RecordTree.Yaml

/-- A token that may turn out to be a key. -/
structure Candidate where
  /-- Whether nothing but a key can stand there. -/
  required : Bool
  /-- The number of tokens before it. -/
  position : Nat
  index : Nat
  line : Nat
  column : Nat

/-- What a scan has seen so far. -/
structure Scan where
  cursor : Cursor
  tokens : Array Token
  /-- The column of the innermost open block collection, `-1` outside all of them. -/
  indent : Int
  /-- The columns of the collections around it. -/
  outer : List Int
  /-- Whether a key may begin here. -/
  keyAllowed : Bool
  /-- The candidate outside all flow collections. -/
  candidate : Option Candidate
  /-- The candidates of the open flow collections, the innermost first; the head belongs to the
  innermost collection, and `candidate` is the one below the last. -/
  flow : List (Option Candidate)

namespace Scan

/-- The scan at the beginning of a text. -/
def start (text : List Char) : Scan := ⟨Cursor.start text, #[], -1, [], true, none, []⟩

/-- Whether a flow collection is open. -/
def inFlow (s : Scan) : Bool := !s.flow.isEmpty

/-- The candidate of the innermost collection. -/
def current (s : Scan) : Option Candidate :=
  match s.flow with
  | [] => s.candidate
  | c :: _ => c

/-- Replaces the candidate of the innermost collection. -/
def setCurrent (s : Scan) (c : Option Candidate) : Scan :=
  match s.flow with
  | [] => { s with candidate := c }
  | _ :: cs => { s with flow := c :: cs }

/-- Adds a token. -/
def push (s : Scan) (t : Token) : Scan := { s with tokens := s.tokens.push t }

/-- Moves the cursor. -/
def moveTo (s : Scan) (c : Cursor) : Scan := { s with cursor := c }

/-- Forgets the current candidate, unless it had to become a key. -/
def dropCandidate? (s : Scan) : Option Scan :=
  match s.current with
  | some c => if c.required then none else some (s.setCurrent none)
  | none => some s

/-- Remembers that the next token may be a key, where that is allowed. -/
def saveCandidate? (s : Scan) : Option Scan :=
  if s.keyAllowed then do
    let s ← s.dropCandidate?
    let c := s.cursor
    let required := !s.inFlow && s.indent = (c.column : Int)
    some (s.setCurrent (some ⟨required, s.tokens.size, c.index, c.line, c.column⟩))
  else some s

/-- How far behind its beginning a key may end. -/
def keyReach : Nat := 1024

/-- A candidate that the cursor has not left behind. Leaving a required one behind is an error. -/
def refresh? (cursor : Cursor) : Option Candidate → Option (Option Candidate)
  | some c =>
    if c.line < cursor.line ∨ c.index + keyReach < cursor.index then
      if c.required then none else some none
    else some (some c)
  | none => some none

/-- Forgets the candidates that were left behind. -/
def refreshAll? (s : Scan) : Option Scan := do
  let candidate ← refresh? s.cursor s.candidate
  let flow ← s.flow.mapM (refresh? s.cursor)
  some { s with candidate, flow }

/-- Opens a block collection at a column right of the innermost one, its token standing at the given
position. -/
def openBlock (s : Scan) (column : Nat) (position : Nat) (t : Token) : Scan :=
  if s.inFlow then s
  else if s.indent < column then
    { s with
      outer := s.indent :: s.outer, indent := column,
      tokens := s.tokens.insertIdxIfInBounds position t }
  else s

/-- Closes the block collections right of a column. -/
def closeBlocks (column : Int) : List Int → Int → Array Token → List Int × Int × Array Token
  | outer, indent, tokens =>
    if column < indent then
      match outer with
      | [] => ([], -1, tokens.push .blockEnd)
      | next :: outer => closeBlocks column outer next (tokens.push .blockEnd)
    else (outer, indent, tokens)

/-- Closes the block collections right of a column, outside flow collections. -/
def leaveTo (s : Scan) (column : Int) : Scan :=
  if s.inFlow then s
  else
    let (outer, indent, tokens) := closeBlocks column s.outer s.indent s.tokens
    { s with outer, indent, tokens }

/-- Passes gaps and comments. A byte order mark may begin a line, and a tab counts as a gap only where no
key may begin. -/
def skipGaps : Nat → Scan → Scan
  | 0, s => s
  | fuel + 1, s =>
    let c := s.cursor
    let c := if c.column = 0 ∧ c.nextIs isMark then c.skip else c
    let tabs := s.inFlow || !s.keyAllowed
    let c := c.skipWhile fun d => d = ' ' || (tabs && d = '\t')
    let c := if c.nextIs (· = '#') then c.skipWhile (!isBreak ·) else c
    if c.nextIs isBreak then
      skipGaps fuel { s with cursor := c.skipLine, keyAllowed := s.keyAllowed || !s.inFlow }
    else { s with cursor := c }

/-! ### The tokens -/

/-- A token of one character at the cursor. -/
def single (s : Scan) (t : Token) : Scan := (s.push t).moveTo s.cursor.skip

/-- A directive or the mark of a document, which closes all block collections. -/
def atTop? (s : Scan) : Option Scan := do
  let s ← (s.leaveTo (-1)).dropCandidate?
  some { s with keyAllowed := false }

/-- The beginning of a flow collection. -/
def openFlow? (s : Scan) (t : Token) : Option Scan := do
  let s ← s.saveCandidate?
  some ({ s with flow := none :: s.flow, keyAllowed := true }.single t)

/-- The end of a flow collection. -/
def closeFlow? (s : Scan) (t : Token) : Option Scan := do
  let s ← s.dropCandidate?
  some ({ s with flow := s.flow.tail, keyAllowed := false }.single t)

/-- A comma in a flow collection. -/
def flowEntry? (s : Scan) : Option Scan := do
  let s ← s.dropCandidate?
  some ({ s with keyAllowed := true }.single .flowEntry)

/-- The dash before an item. -/
def blockEntry? (s : Scan) : Option Scan :=
  if !s.inFlow ∧ !s.keyAllowed then none
  else do
    let s ← (s.openBlock s.cursor.column s.tokens.size .blockSequenceStart).dropCandidate?
    some ({ s with keyAllowed := true }.single .blockEntry)

/-- The question mark before a key. -/
def keyMark? (s : Scan) : Option Scan :=
  if !s.inFlow ∧ !s.keyAllowed then none
  else do
    let s ← (s.openBlock s.cursor.column s.tokens.size .blockMappingStart).dropCandidate?
    some ({ s with keyAllowed := !s.inFlow }.single .key)

/-- The colon before a value. It turns the candidate, if there is one, into a key. -/
def valueMark? (s : Scan) : Option Scan :=
  match s.current with
  | some c =>
    let s := { s with tokens := s.tokens.insertIdxIfInBounds c.position .key }
    let s := (s.openBlock c.column c.position .blockMappingStart).setCurrent none
    some ({ s with keyAllowed := false }.single .value)
  | none =>
    if !s.inFlow ∧ !s.keyAllowed then none
    else
      let s := s.openBlock s.cursor.column s.tokens.size .blockMappingStart
      some ({ s with keyAllowed := !s.inFlow }.single .value)

/-- A scalar between quotes. -/
def quoted? (s : Scan) (single : Bool) : Option Scan := do
  let s ← s.saveCandidate?
  let (text, c) ← quotedScalar? single s.cursor
  some ({ s with keyAllowed := false, cursor := c }.push (.scalar .quoted text))

/-- A plain scalar. -/
def plain? (s : Scan) : Option Scan := do
  let s ← s.saveCandidate?
  let (text, broken, c) ← plainScalar? s.inFlow (s.indent + 1).toNat s.cursor
  some ({ s with keyAllowed := broken, cursor := c }.push (.scalar .plain text))

/-- A literal or folded block. -/
def block? (s : Scan) (folded : Bool) : Option Scan := do
  let s ← s.dropCandidate?
  let (text, c) ← blockScalar? folded s.indent s.cursor
  some ({ s with keyAllowed := true, cursor := c }.push (.scalar .block text))

/-- The name of an anchor or of an alias. A gap or a mark that cannot continue it comes after it. -/
def name? (s : Scan) (token : List Char → Token) : Option Scan := do
  let s ← s.saveCandidate?
  let (name, c) := s.cursor.skip.spanWhile isWord
  let ended := c.gapAfter 0 || c.nextIs fun d =>
    ['?', ':', ',', ']', '\x7d', '%', '@', '`'].contains d
  if name.isEmpty ∨ !ended then none
  else some ({ s with keyAllowed := false, cursor := c }.push (token name))

/-- A tag before a value. -/
def tagMark? (s : Scan) : Option Scan := do
  let s ← s.saveCandidate?
  let (token, c) ← tag? s.inFlow s.cursor
  some ({ s with keyAllowed := false, cursor := c }.push token)

/-- The end of the text, which closes all block collections. -/
def finish? (s : Scan) : Option (Array Token) := do
  let s ← (s.leaveTo (-1)).dropCandidate?
  some s.tokens

/-- The token at the cursor, which no gap precedes and which is not at the end of the text. -/
def next? (s : Scan) (first : Char) : Option Scan :=
  let c := s.cursor
  let loose := s.inFlow || c.gapAfter 1
  if c.column = 0 ∧ first = '%' then do
    let s ← s.atTop?
    let (token, c) ← directive? c
    some ((s.push token).moveTo c)
  else if c.atMark '-' then do
    let s ← s.atTop?
    some ((s.push .documentStart).moveTo (c.skipMany 3))
  else if c.atMark '.' then do
    let s ← s.atTop?
    some ((s.push .documentEnd).moveTo (c.skipMany 3))
  else match first with
    | '[' => s.openFlow? .flowSequenceStart
    | '\x7b' => s.openFlow? .flowMappingStart
    | ']' => s.closeFlow? .flowSequenceEnd
    | '\x7d' => s.closeFlow? .flowMappingEnd
    | ',' => s.flowEntry?
    | '*' => s.name? .alias
    | '&' => s.name? .anchor
    | '!' => s.tagMark?
    | '\'' => s.quoted? true
    | '"' => s.quoted? false
    | '|' => if s.inFlow then none else s.block? false
    | '>' => if s.inFlow then none else s.block? true
    | '-' => if c.gapAfter 1 then s.blockEntry? else s.plain?
    | '?' => if loose then s.keyMark? else s.plain?
    | ':' => if loose then s.valueMark? else s.plain?
    | first => if isGap first ∨ isIndicator first then none else s.plain?

/-- Scans to the end of the text, one token at a time. -/
def run? : Nat → Scan → Option (Array Token)
  | 0, _ => none
  | fuel + 1, s => do
    let s ← (skipGaps (s.cursor.rest.length + 1) s).refreshAll?
    let s := s.leaveTo s.cursor.column
    match s.cursor.rest with
    | [] => s.finish?
    | first :: _ => run? fuel (← s.next? first)

end Scan

/-- The tokens of a text. A control character makes the whole text unreadable. -/
def Token.scan? (text : List Char) : Option (List Token) :=
  if text.all isReadable then
    ((Scan.start text).run? (text.length + 2)).map Array.toList
  else none

end RecordTree.Yaml
