import RecordTree.Yaml.Node
import RecordTree.Yaml.Plain
import RecordTree.Yaml.Token.Lexer

/-!
# YAML documents

A `Document` is a node whose anchors have numbers in place of names. An anchor takes as its number how
many different names were anchored before it, so a name that is anchored twice takes a number that
the next new name will take as well, and an alias to that number means the last anchor with it.

Following an alias is counted, and a document allows a hundred of them for each of its events: this
bounds the size of the value that a short text can unfold to.
-/

namespace RecordTree.Yaml

/-! ### Numbering anchors -/

/-- The numbers of the names that were anchored so far. -/
abbrev Anchors := List (Name × Nat)

namespace Anchors

/-- The number of a name. -/
def find? (as : Anchors) (name : Name) : Option Nat := (List.find? (·.1 = name) as).map (·.2)

/-- Numbers an anchor. -/
def add (as : Anchors) (name : Name) : Nat × Anchors :=
  let number := as.length
  (number, (name, number) :: as.filter (·.1 ≠ name))

end Anchors

/-- Numbers the anchor of a node. -/
def Props.number (p : Props Name) (as : Anchors) : Props Nat × Anchors :=
  match p.anchor with
  | none => (⟨none, p.tag⟩, as)
  | some name =>
    let (number, as) := as.add name
    (⟨some number, p.tag⟩, as)

namespace Node

mutual

/-- Replaces names by numbers, in the order of the text. An alias to a name that was not anchored
before it is an error. -/
def number? : NamedNode → Anchors → Option (Node Nat × Anchors)
  | .alias name, as => (as.find? name).map fun n => (.alias n, as)
  | .scalar props style text, as =>
    let (props, as) := props.number as
    some (.scalar props style text, as)
  | .sequence props items, as => do
    let (props, as) := props.number as
    let (items, as) ← numberItems? items as
    some (.sequence props items, as)
  | .mapping props entries, as => do
    let (props, as) := props.number as
    let (entries, as) ← numberEntries? entries as
    some (.mapping props entries, as)

/-- Replaces names by numbers in items. -/
def numberItems? : List NamedNode → Anchors → Option (List (Node Nat) × Anchors)
  | [], as => some ([], as)
  | n :: ns, as => do
    let (n, as) ← number? n as
    let (ns, as) ← numberItems? ns as
    some (n :: ns, as)

/-- Replaces names by numbers in entries. -/
def numberEntries? :
    List (NamedNode × NamedNode) → Anchors → Option (List (Node Nat × Node Nat) × Anchors)
  | [], as => some ([], as)
  | (k, v) :: es, as => do
    let (k, as) ← number? k as
    let (v, as) ← number? v as
    let (es, as) ← numberEntries? es as
    some ((k, v) :: es, as)

end

mutual

/-- The anchored nodes with their numbers, in the order of the text, in front of others. -/
def anchored : Node Nat → List (Nat × Node Nat) → List (Nat × Node Nat)
  | .alias _, rest => rest
  | .scalar props style text, rest =>
    match props.anchor with
    | none => rest
    | some n => (n, .scalar props style text) :: rest
  | .sequence props items, rest =>
    let rest' := anchoredItems items rest
    match props.anchor with
    | none => rest'
    | some n => (n, .sequence props items) :: rest'
  | .mapping props entries, rest =>
    let rest' := anchoredEntries entries rest
    match props.anchor with
    | none => rest'
    | some n => (n, .mapping props entries) :: rest'

/-- The anchored nodes among items. -/
def anchoredItems : List (Node Nat) → List (Nat × Node Nat) → List (Nat × Node Nat)
  | [], rest => rest
  | n :: ns, rest => anchored n (anchoredItems ns rest)

/-- The anchored nodes among entries. -/
def anchoredEntries : List (Node Nat × Node Nat) → List (Nat × Node Nat) → List (Nat × Node Nat)
  | [], rest => rest
  | (k, v) :: es, rest => anchored k (anchored v (anchoredEntries es rest))

end

mutual

/-- How many events a node has: one for a scalar or an alias, and the two ends of a collection. -/
def events : Node Nat → Nat
  | .alias _ => 1
  | .scalar _ _ _ => 1
  | .sequence _ items => eventsItems items + 2
  | .mapping _ entries => eventsEntries entries + 2

/-- How many events items have. -/
def eventsItems : List (Node Nat) → Nat
  | [] => 0
  | n :: ns => events n + eventsItems ns

/-- How many events entries have. -/
def eventsEntries : List (Node Nat × Node Nat) → Nat
  | [] => 0
  | (k, v) :: es => events k + events v + eventsEntries es

end

end Node

/-! ### Documents -/

/-- A document with its anchors resolved. -/
structure Document where
  root : Node Nat
  /-- The anchored nodes, the last one in the text first. -/
  targets : List (Nat × Node Nat)
  /-- How many aliases may be followed. -/
  allowance : Nat

namespace Document

/-- The document of a node. -/
def ofNode? (n : NamedNode) : Option Document := do
  let (root, _) ← n.number? []
  some ⟨root, (root.anchored []).reverse, 100 * root.events⟩

/-- The document that a text holds, `none` inside for a text without one. -/
def parse? (text : String) : Option (Option Document) := do
  match ← Node.ofTokens? (← Token.scan? text.toList) with
  | some n => some (some (← ofNode? n))
  | none => some none

/-- Reading a document counts the aliases that were followed. -/
abbrev Read := StateT Nat Option

/-- The node that stands for a node: the target of an alias, or the node itself. -/
def follow (d : Document) : Node Nat → Read (Node Nat)
  | .alias n => do
    let followed := (← get) + 1
    if d.allowance < followed then failure
    set followed
    match d.targets.find? (·.1 = n) with
    | some (_, target) => pure target
    | none => failure
  | n => pure n

end Document

/-! ### Values -/

/-- The name of a tag that only the application knows: what stands behind its exclamation mark. -/
def localTag? : TagText → Option String
  | b :: bs => if b = 0x21 then String.fromUTF8? ⟨bs.toArray⟩ else none
  | [] => none

/-- Whether a node has such a tag. -/
def Props.isLocal {α : Type} (p : Props α) : Bool := (p.tag.bind localTag?).isSome

/-- A tag of the core schema. -/
def coreTag (name : String) : TagText := Node.corePrefix ++ name.toUTF8.toList

/-- The value of a reading; a number that no value can hold is an error, and an infinity counts as
nothing. -/
def Reading.value? (text : List Char) : Reading → Option Value
  | .null => some .null
  | .bool b => some (.bool b)
  | .whole n => some (.number (.whole n))
  | .wide => none
  | .double x => some (.number (.double x))
  | .unbounded => some .null
  | .text => some (.string (String.ofList text))

/-- The value of a scalar. A tag of the core schema decides how it is read; any other tag makes it a
text, and a tag of the application is an error. -/
def scalarValue? (p : Props Nat) (style : Style) (text : List Char) : Option Value :=
  let string := Value.string (String.ofList text)
  if p.isLocal then none
  else
    match p.tag with
    | none => if style = .plain then (Reading.ofPlain text).value? text else some string
    | some tag =>
      if tag = coreTag "bool" then (bool? text).map .bool
      else if tag = coreTag "int" then (whole? text).bind (·.value? text)
      else if tag = coreTag "float" then (double? text).bind (·.value? text)
      else if tag = coreTag "null" then if isNullName text then some .null else none
      else if tag.head? = some 0x21 ∧ style = .plain then (Reading.ofPlain text).value? text
      else some string

namespace Document

/-- A key of a mapping: the text of a scalar, whatever it would be read as. -/
def key (d : Document) (n : Node Nat) : Read String := do
  match ← d.follow n with
  | .scalar _ _ text => pure (String.ofList text)
  | _ => failure

/-- The value of a node below which the given number of containers may be nested. A repeated key keeps
its last value. -/
def value (d : Document) : Nat → Node Nat → Read Value
  | 0, n => do
    match ← d.follow n with
    | .scalar props style text => StateT.lift (scalarValue? props style text)
    | _ => failure
  | room + 1, n => do
    match ← d.follow n with
    | .scalar props style text => StateT.lift (scalarValue? props style text)
    | .sequence props items =>
      if props.isLocal then failure
      pure (.array (← items.mapM (value d room)))
    | .mapping props entries =>
      if props.isLocal then failure
      let fields ← entries.foldlM (fun fields entry => do
        let key ← d.key entry.1
        let v ← value d room entry.2
        pure (Entries.insert key v fields)) []
      pure (.object fields)
    | .alias _ => failure

/-- How many containers may be nested. -/
def nestingLimit : Nat := 128

/-- The value of a document. -/
def value? (d : Document) : Option Value := (d.value nestingLimit d.root).run' 0

end Document

/-- The value that a text holds; a text without a document holds nothing. -/
def read? (text : String) : Option Value := do
  match ← Document.parse? text with
  | some d => d.value?
  | none => some .null

end RecordTree.Yaml
