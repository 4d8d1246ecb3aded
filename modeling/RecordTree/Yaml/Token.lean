/-!
# YAML tokens

The pieces of a YAML text that its grammar is written over. The brackets of block collections do
not stand in the text: they come from its indentation.
-/

namespace RecordTree.Yaml

/-- The bytes of a tag, of its handle or of its prefix. -/
abbrev TagText := List UInt8

/-- How a scalar is written. -/
inductive Style where
  | plain
  | quoted
  | block
  deriving DecidableEq, Repr, Inhabited

/-- A token. -/
inductive Token where
  | version (major minor : Nat)
  | tagDirective (handle lead : TagText)
  | documentStart
  | documentEnd
  | blockSequenceStart
  | blockMappingStart
  | blockEnd
  | flowSequenceStart
  | flowSequenceEnd
  | flowMappingStart
  | flowMappingEnd
  | blockEntry
  | flowEntry
  | key
  | value
  | alias (name : List Char)
  | anchor (name : List Char)
  | tag (handle suffix : TagText)
  | scalar (style : Style) (text : List Char)
  deriving DecidableEq, Repr, Inhabited

end RecordTree.Yaml
