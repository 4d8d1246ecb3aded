import RecordTree.Yaml.Token

/-!
# YAML nodes

The tree that the tokens of a document describe. `Node.ofTokens?` follows the YAML grammar: a node is
an alias, or an optional anchor and an optional tag before a scalar or a collection, and what the
grammar leaves out is an empty plain scalar. The names of anchors and aliases have the type `α`, so
that they can be resolved without touching anything else.

The grammar is read on a shrinking budget; each call that does not consume a token is followed by one
that does.
-/

namespace RecordTree.Yaml

/-- The anchor and the tag of a node. -/
structure Props (α : Type) where
  anchor : Option α
  tag : Option TagText
  deriving Repr, Inhabited

/-- A node, its anchors and aliases named by `α`. -/
inductive Node (α : Type) where
  | alias (target : α)
  | scalar (props : Props α) (style : Style) (text : List Char)
  | sequence (props : Props α) (items : List (Node α))
  | mapping (props : Props α) (entries : List (Node α × Node α))
  deriving Repr, Inhabited

/-- A name in the text. -/
abbrev Name := List Char

/-- A node whose anchors and aliases are names. -/
abbrev NamedNode := Node Name

namespace Node

/-- The node that stands where the text has none. -/
def blank : NamedNode := .scalar ⟨none, none⟩ .plain []

/-- What tag handles stand for. -/
abbrev Handles := List (TagText × TagText)

/-- The prefix of the tags of the core schema. -/
def corePrefix : TagText := "tag:yaml.org,2002:".toUTF8.toList

/-- The tag of a handle and a suffix; it ends at a zero byte. -/
def tagOf? (handles : Handles) (handle suffix : TagText) : Option TagText :=
  let cut := List.takeWhile (· ≠ (0 : UInt8))
  if handle.isEmpty then some (cut suffix)
  else
    match handles.find? (·.1 = handle) with
    | some (_, lead) => some (cut lead ++ cut suffix)
    | none =>
      if handle = [0x21] then some (0x21 :: cut suffix)
      else if handle = [0x21, 0x21] then some (corePrefix ++ cut suffix)
      else none

/-- The anchor and the tag in front of a node, in either order. -/
def props? (handles : Handles) : List Token → Option (Props Name × List Token)
  | .anchor a :: .tag h s :: ts => do some (⟨some a, some (← tagOf? handles h s)⟩, ts)
  | .tag h s :: .anchor a :: ts => do some (⟨some a, some (← tagOf? handles h s)⟩, ts)
  | .anchor a :: ts => some (⟨some a, none⟩, ts)
  | .tag h s :: ts => do some (⟨none, some (← tagOf? handles h s)⟩, ts)
  | ts => some (⟨none, none⟩, ts)

/-- Where a node stands, which decides the collections that may begin there. -/
inductive Context where
  /-- Inside a flow collection. -/
  | flow
  /-- In a block sequence or at the top. -/
  | block
  /-- In a block mapping, whose sequences need no indent of their own. -/
  | blockMapping
  deriving DecidableEq

mutual

/-- A node. -/
def node? (handles : Handles) : Nat → Context → List Token → Option (NamedNode × List Token)
  | 0, _, _ => none
  | _ + 1, _, .alias name :: ts => some (.alias name, ts)
  | fuel + 1, context, ts => do
    let (props, ts) ← props? handles ts
    match ts with
    | .scalar style text :: ts => some (.scalar props style text, ts)
    | .flowSequenceStart :: ts =>
      let (items, ts) ← flowItems? handles fuel true ts
      some (.sequence props items, ts)
    | .flowMappingStart :: ts =>
      let (entries, ts) ← flowEntries? handles fuel true ts
      some (.mapping props entries, ts)
    | .blockEntry :: _ =>
      if context = .blockMapping then
        let (items, ts) ← plainItems? handles fuel ts
        some (.sequence props items, ts)
      else if props.anchor.isSome ∨ props.tag.isSome then some (.scalar props .plain [], ts)
      else none
    | .blockSequenceStart :: ts' =>
      if context ≠ .flow then
        let (items, ts) ← blockItems? handles fuel ts'
        some (.sequence props items, ts)
      else if props.anchor.isSome ∨ props.tag.isSome then some (.scalar props .plain [], ts)
      else none
    | .blockMappingStart :: ts' =>
      if context ≠ .flow then
        let (entries, ts) ← blockEntries? handles fuel ts'
        some (.mapping props entries, ts)
      else if props.anchor.isSome ∨ props.tag.isSome then some (.scalar props .plain [], ts)
      else none
    | ts =>
      if props.anchor.isSome ∨ props.tag.isSome then some (.scalar props .plain [], ts) else none

/-- The items of a block sequence. -/
def blockItems? (handles : Handles) : Nat → List Token → Option (List NamedNode × List Token)
  | 0, _ => none
  | fuel + 1, .blockEntry :: ts => do
    let (item, ts) ←
      match ts with
      | .blockEntry :: _ => some (blank, ts)
      | .blockEnd :: _ => some (blank, ts)
      | ts => node? handles fuel .block ts
    let (items, ts) ← blockItems? handles fuel ts
    some (item :: items, ts)
  | _ + 1, .blockEnd :: ts => some ([], ts)
  | _ + 1, _ => none

/-- The items of a sequence at the indent of the mapping around it. -/
def plainItems? (handles : Handles) : Nat → List Token → Option (List NamedNode × List Token)
  | 0, _ => none
  | fuel + 1, .blockEntry :: ts => do
    let (item, ts) ←
      match ts with
      | .blockEntry :: _ => some (blank, ts)
      | .key :: _ => some (blank, ts)
      | .value :: _ => some (blank, ts)
      | .blockEnd :: _ => some (blank, ts)
      | ts => node? handles fuel .block ts
    let (items, ts) ← plainItems? handles fuel ts
    some (item :: items, ts)
  | _ + 1, ts => some ([], ts)

/-- The entries of a block mapping. -/
def blockEntries? (handles : Handles) :
    Nat → List Token → Option (List (NamedNode × NamedNode) × List Token)
  | 0, _ => none
  | fuel + 1, .key :: ts => do
    let (key, ts) ← blockPart? handles fuel ts
    let (value, ts) ← blockValue? handles fuel ts
    let (entries, ts) ← blockEntries? handles fuel ts
    some ((key, value) :: entries, ts)
  | _ + 1, .blockEnd :: ts => some ([], ts)
  | _ + 1, _ => none

/-- A key or a value of a block mapping, perhaps left out. -/
def blockPart? (handles : Handles) : Nat → List Token → Option (NamedNode × List Token)
  | 0, _ => none
  | fuel + 1, ts =>
    match ts with
    | .key :: _ => some (blank, ts)
    | .value :: _ => some (blank, ts)
    | .blockEnd :: _ => some (blank, ts)
    | ts => node? handles fuel .blockMapping ts

/-- The value of a block mapping's entry, perhaps left out together with its colon. -/
def blockValue? (handles : Handles) : Nat → List Token → Option (NamedNode × List Token)
  | 0, _ => none
  | fuel + 1, .value :: ts => blockPart? handles fuel ts
  | _ + 1, ts => some (blank, ts)

/-- The items of a flow sequence. An item may be a key with its value, which is then a mapping of one
entry. -/
def flowItems? (handles : Handles) :
    Nat → Bool → List Token → Option (List NamedNode × List Token)
  | 0, _, _ => none
  | _ + 1, _, .flowSequenceEnd :: ts => some ([], ts)
  | fuel + 1, first, ts => do
    let ts ←
      if first then some ts
      else
        match ts with
        | .flowEntry :: ts => some ts
        | _ => none
    match ts with
    | .flowSequenceEnd :: ts => some ([], ts)
    | .key :: ts =>
      let (key, ts) ← pairKey? handles fuel ts
      let (value, ts) ← pairValue? handles fuel ts
      let (items, ts) ← flowItems? handles fuel false ts
      some (.mapping ⟨none, none⟩ [(key, value)] :: items, ts)
    | ts =>
      let (item, ts) ← node? handles fuel .flow ts
      let (items, ts) ← flowItems? handles fuel false ts
      some (item :: items, ts)

/-- The key of a lone pair in a flow sequence. A key that is left out takes the token behind it
along. -/
def pairKey? (handles : Handles) : Nat → List Token → Option (NamedNode × List Token)
  | 0, _ => none
  | _ + 1, .value :: ts => some (blank, ts)
  | _ + 1, .flowEntry :: ts => some (blank, ts)
  | _ + 1, .flowSequenceEnd :: ts => some (blank, ts)
  | fuel + 1, ts => node? handles fuel .flow ts

/-- The value of a lone pair in a flow sequence, perhaps left out. -/
def pairValue? (handles : Handles) : Nat → List Token → Option (NamedNode × List Token)
  | 0, _ => none
  | fuel + 1, .value :: ts =>
    match ts with
    | .flowEntry :: _ => some (blank, ts)
    | .flowSequenceEnd :: _ => some (blank, ts)
    | ts => node? handles fuel .flow ts
  | _ + 1, ts => some (blank, ts)

/-- The entries of a flow mapping. -/
def flowEntries? (handles : Handles) :
    Nat → Bool → List Token → Option (List (NamedNode × NamedNode) × List Token)
  | 0, _, _ => none
  | _ + 1, _, .flowMappingEnd :: ts => some ([], ts)
  | fuel + 1, first, ts => do
    let ts ←
      if first then some ts
      else
        match ts with
        | .flowEntry :: ts => some ts
        | _ => none
    match ts with
    | .flowMappingEnd :: ts => some ([], ts)
    | .key :: ts =>
      let (key, ts) ← flowPart? handles fuel ts
      let (value, ts) ← flowValue? handles fuel ts
      let (entries, ts) ← flowEntries? handles fuel false ts
      some ((key, value) :: entries, ts)
    | ts =>
      let (key, ts) ← node? handles fuel .flow ts
      let (entries, ts) ← flowEntries? handles fuel false ts
      some ((key, blank) :: entries, ts)

/-- The key of a flow mapping's entry after its mark, perhaps left out. -/
def flowPart? (handles : Handles) : Nat → List Token → Option (NamedNode × List Token)
  | 0, _ => none
  | fuel + 1, ts =>
    match ts with
    | .value :: _ => some (blank, ts)
    | .flowEntry :: _ => some (blank, ts)
    | .flowMappingEnd :: _ => some (blank, ts)
    | ts => node? handles fuel .flow ts

/-- The value of a flow mapping's entry, perhaps left out. -/
def flowValue? (handles : Handles) : Nat → List Token → Option (NamedNode × List Token)
  | 0, _ => none
  | fuel + 1, .value :: ts =>
    match ts with
    | .flowEntry :: _ => some (blank, ts)
    | .flowMappingEnd :: _ => some (blank, ts)
    | ts => node? handles fuel .flow ts
  | _ + 1, ts => some (blank, ts)

end

/-! ### Documents -/

/-- The directives in front of a document: at most one version, which must be 1.1 or 1.2, and each tag
handle at most once. -/
def directives? : Bool → Handles → List Token → Option (Handles × List Token)
  | seen, handles, .version major minor :: ts =>
    if seen ∨ major ≠ 1 ∨ (minor ≠ 1 ∧ minor ≠ 2) then none else directives? true handles ts
  | seen, handles, .tagDirective handle lead :: ts =>
    if handles.any (·.1 = handle) then none else directives? seen ((handle, lead) :: handles) ts
  | _, handles, ts => some (handles, ts)

/-- Whether a token can follow a document that has no content. -/
def closesDocument : Token → Bool
  | .version _ _ => true
  | .tagDirective _ _ => true
  | .documentStart => true
  | .documentEnd => true
  | _ => false

/-- Whether only ends of documents are left. -/
def onlyEnds : List Token → Bool
  | [] => true
  | .documentEnd :: ts => onlyEnds ts
  | _ => false

/-- The content of the only document among the tokens, `none` inside for a text without a document.
More than one document is an error. -/
def ofTokens? (ts : List Token) : Option (Option NamedNode) :=
  let fuel := 4 * ts.length + 8
  match ts with
  | [] => some none
  | t :: _ =>
    if closesDocument t ∧ t ≠ .documentEnd then do
      let (handles, ts) ← directives? false [] ts
      match ts with
      | .documentStart :: ts =>
        let (root, ts) ←
          if ts.head?.all closesDocument then some (blank, ts)
          else node? handles fuel .block ts
        if onlyEnds ts then some (some root) else none
      | _ => none
    else do
      let (root, ts) ← node? [] fuel .block ts
      if onlyEnds ts then some (some root) else none

end Node

end RecordTree.Yaml
