import RecordTree.Toml.Scalar
import RecordTree.Toml.Table

/-!
# TOML documents

A document is a row of statements, one a line: headers of tables and entries with dotted keys. Each
entry belongs to the last header before it. `Toml.read?` gives the table that they make.

The readers of values, items and entries call each other on a shrinking budget; at most `nestingLimit`
values may be nested.
-/

namespace RecordTree.Toml

/-- How many arrays and tables may be nested in a value. -/
def nestingLimit : Nat := 79

/-- Drops the comment in front, if there is one. -/
def skipComment : List Char → List Char
  | '#' :: cs => cs.dropWhile isPrintable
  | cs => cs

/-- Drops the blanks, comments and line breaks in front. -/
def skipGap : Nat → List Char → List Char
  | 0, cs => cs
  | fuel + 1, cs =>
    let rest := skipComment (skipLines cs)
    if rest.length < cs.length then skipGap fuel rest else cs

/-- Drops the blanks, comments and line breaks between the items of an array. -/
def gap (cs : List Char) : List Char := skipGap cs.length cs

/-- Puts a read entry into a table. -/
def enter (t : Table) (key : List String × String) (v : Value) : Option Table := t.assign key.1 key.2 v

mutual

/-- A value. -/
def value? : Nat → Nat → List Char → Option (Value × List Char)
  | 0, _, _ => none
  | fuel + 1, room, cs =>
    match cs with
    | '[' :: cs =>
      match room with
      | 0 => none
      | room + 1 => (items? fuel room [] (gap cs)).map fun (vs, cs) => (.array vs, cs)
    | '\x7b' :: cs =>
      match room with
      | 0 => none
      | room + 1 =>
        match skipBlank cs with
        | '\x7d' :: cs => some (.table .closed [], cs)
        | cs => (entries? fuel room [] cs).map fun (t, cs) => (.table .closed t, cs)
    | cs =>
      match text? cs with
      | some (s, cs) => some (.string s, cs)
      | none => scalar? cs

/-- The items of an array, up to its closing bracket; a comma may stand behind the last one. -/
def items? : Nat → Nat → List Value → List Char → Option (List Value × List Char)
  | 0, _, _, _ => none
  | _ + 1, _, acc, ']' :: cs => some (acc.reverse, cs)
  | fuel + 1, room, acc, cs =>
    match value? fuel room cs with
    | none => none
    | some (v, cs) =>
      match gap cs with
      | ',' :: cs => items? fuel room (v :: acc) (gap cs)
      | ']' :: cs => some ((v :: acc).reverse, cs)
      | _ => none

/-- The entries of a table on one line, up to its closing brace. -/
def entries? : Nat → Nat → Table → List Char → Option (Table × List Char)
  | 0, _, _, _ => none
  | fuel + 1, room, t, cs =>
    match key? cs with
    | some (key, '=' :: cs) =>
      match value? fuel room (skipBlank cs) with
      | none => none
      | some (v, cs) =>
        match enter t key v with
        | none => none
        | some t =>
          match skipBlank cs with
          | ',' :: cs => entries? fuel room t cs
          | '\x7d' :: cs => some (t, cs)
          | _ => none
    | _ => none

end

/-- What stands behind the end of a statement: blanks, a comment and a line break. -/
def lineEnd? (cs : List Char) : Option (List Char) :=
  match skipComment (skipBlank cs) with
  | [] => some []
  | cs => lineBreak? cs

/-- The table with the entries that have been read, and the path of the last header. -/
structure Draft where
  path : List String
  root : Table

/-- Reads a statement into a draft. -/
def statement? (d : Draft) (cs : List Char) : Option (Draft × List Char) :=
  match cs with
  | '[' :: '[' :: cs =>
    match key? cs with
    | some ((path, key), ']' :: ']' :: cs) => do
      let root ← d.root.descend false (fun _ t => t.openElement key) path .header
      return (⟨path ++ [key], root⟩, ← lineEnd? cs)
    | _ => none
  | '[' :: cs =>
    match key? cs with
    | some ((path, key), ']' :: cs) => do
      let root ← d.root.descend false (fun _ t => t.openTable key) path .header
      return (⟨path ++ [key], root⟩, ← lineEnd? cs)
    | _ => none
  | cs =>
    match key? cs with
    | some (key, '=' :: cs) => do
      let (v, cs) ← value? (2 * cs.length + 2) nestingLimit (skipBlank cs)
      let root ← d.root.descend false (fun _ t => enter t key v) d.path .header
      return (⟨d.path, root⟩, ← lineEnd? cs)
    | _ => none

/-- Reads all statements into a draft. -/
def statements? : Nat → Draft → List Char → Option Draft
  | 0, _, _ => none
  | fuel + 1, d, cs =>
    match skipLines cs with
    | [] => some d
    | '#' :: cs =>
      match lineEnd? ('#' :: cs) with
      | some cs => statements? fuel d cs
      | none => none
    | cs =>
      match statement? d cs with
      | some (d, cs) => statements? fuel d cs
      | none => none

/-- The table that a text describes. A mark of the byte order in front says nothing. -/
def read? (text : String) : Option Table :=
  let cs := match text.toList with
    | '\uFEFF' :: cs => cs
    | cs => cs
  (statements? (cs.length + 1) ⟨[], []⟩ cs).map Draft.root

end RecordTree.Toml
