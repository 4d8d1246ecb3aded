import RecordTree.Json.Reader

/-!
# Parts of a JSON text

`fields?` and `items?` take a text apart into the texts of its parts, without asking what the parts
mean: a field may stand twice, containers may be nested without limit, and numbers may be of any size.
They serve readers that know which parts they want.
-/

namespace RecordTree.Json

/-- Drops a text up to its closing quote; what an escape names does not matter. -/
def skipString : Nat → List Char → Option (List Char)
  | 0, _ => none
  | _ + 1, [] => none
  | _ + 1, '"' :: cs => some cs
  | fuel + 1, '\\' :: 'u' :: cs =>
    match fourHex cs with
    | some (_, cs) => skipString fuel cs
    | none => none
  | fuel + 1, '\\' :: c :: cs => if c ∈ "\"\\/bfnrt".toList then skipString fuel cs else none
  | fuel + 1, c :: cs => if c.toNat < 0x20 then none else skipString fuel cs

mutual

/-- Drops a value and the blanks before it. -/
def skipValue : Nat → List Char → Option (List Char)
  | 0, _ => none
  | fuel + 1, cs =>
    match skipBlank cs with
    | 'n' :: 'u' :: 'l' :: 'l' :: cs => some cs
    | 't' :: 'r' :: 'u' :: 'e' :: cs => some cs
    | 'f' :: 'a' :: 'l' :: 's' :: 'e' :: cs => some cs
    | '"' :: cs => skipString (cs.length + 1) cs
    | '[' :: cs =>
      match skipBlank cs with
      | ']' :: cs => some cs
      | cs => skipItems fuel cs
    | '\x7b' :: cs =>
      match skipBlank cs with
      | '\x7d' :: cs => some cs
      | cs => skipFields fuel cs
    | cs => (NumberText.read cs).map (·.2)

/-- Drops the items of an array and its closing bracket. -/
def skipItems : Nat → List Char → Option (List Char)
  | 0, _ => none
  | fuel + 1, cs =>
    match skipValue fuel cs with
    | none => none
    | some cs =>
      match skipBlank cs with
      | ',' :: cs => skipItems fuel cs
      | ']' :: cs => some cs
      | _ => none

/-- Drops the fields of an object and its closing brace. -/
def skipFields : Nat → List Char → Option (List Char)
  | 0, _ => none
  | fuel + 1, cs =>
    match skipBlank cs with
    | '"' :: cs =>
      match skipString (cs.length + 1) cs with
      | none => none
      | some cs =>
        match skipBlank cs with
        | ':' :: cs =>
          match skipValue fuel cs with
          | none => none
          | some cs =>
            match skipBlank cs with
            | ',' :: cs => skipFields fuel cs
            | '\x7d' :: cs => some cs
            | _ => none
        | _ => none
    | _ => none

end

/-- The text of a value and what stands behind it. -/
def part (cs : List Char) : Option (List Char × List Char) :=
  (skipValue (2 * cs.length + 2) cs).map fun rest => (cs.take (cs.length - rest.length), rest)

/-- The fields of an object that is not empty, in reverse, up to its closing brace. -/
def fieldParts : Nat → List (String × List Char) → List Char →
    Option (List (String × List Char) × List Char)
  | 0, _, _ => none
  | fuel + 1, acc, cs =>
    match skipBlank cs with
    | '"' :: cs =>
      match string cs with
      | none => none
      | some (k, cs) =>
        match skipBlank cs with
        | ':' :: cs =>
          match part cs with
          | none => none
          | some (v, cs) =>
            match skipBlank cs with
            | ',' :: cs => fieldParts fuel ((k, v) :: acc) cs
            | '\x7d' :: cs => some ((k, v) :: acc, cs)
            | _ => none
        | _ => none
    | _ => none

/-- The items of an array that is not empty, in reverse, up to its closing bracket. -/
def itemParts : Nat → List (List Char) → List Char → Option (List (List Char) × List Char)
  | 0, _, _ => none
  | fuel + 1, acc, cs =>
    match part cs with
    | none => none
    | some (v, cs) =>
      match skipBlank cs with
      | ',' :: cs => itemParts fuel (v :: acc) cs
      | ']' :: cs => some (v :: acc, cs)
      | _ => none

/-- The fields of the object that a text holds, in their order. -/
def fields? (cs : List Char) : Option (List (String × List Char)) :=
  match skipBlank cs with
  | '\x7b' :: cs =>
    match skipBlank cs with
    | '\x7d' :: cs => if (skipBlank cs).isEmpty then some [] else none
    | cs =>
      match fieldParts (cs.length + 1) [] cs with
      | some (fs, cs) => if (skipBlank cs).isEmpty then some fs.reverse else none
      | none => none
  | _ => none

/-- The items of the array that a text holds, in their order. -/
def items? (cs : List Char) : Option (List (List Char)) :=
  match skipBlank cs with
  | '[' :: cs =>
    match skipBlank cs with
    | ']' :: cs => if (skipBlank cs).isEmpty then some [] else none
    | cs =>
      match itemParts (cs.length + 1) [] cs with
      | some (vs, cs) => if (skipBlank cs).isEmpty then some vs.reverse else none
      | none => none
  | _ => none

/-- The text that a JSON text holds. -/
def string? (cs : List Char) : Option String :=
  match skipBlank cs with
  | '"' :: cs =>
    match string cs with
    | some (s, cs) => if (skipBlank cs).isEmpty then some s else none
    | none => none
  | _ => none

end RecordTree.Json
