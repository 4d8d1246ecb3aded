import RecordTree.SortedMap

/-!
# TOML values

What a TOML document holds. Numbers, truth values and times are told apart and not kept, for nothing
here is ever configured by one. A table remembers where it came from, because that decides
what may still be added to it.
-/

namespace RecordTree.Toml

/-- Where a table came from. -/
inductive Origin where
  /-- It has a header of its own. -/
  | header
  /-- It stands on the way to a table with a header. -/
  | implied
  /-- It stands on the way of a dotted key. -/
  | dotted
  /-- It was written as a value, and nothing can be added to it. -/
  | closed
  deriving DecidableEq, Repr

/-- A value. -/
inductive Value where
  | string (s : String)
  | number
  | boolean
  | time
  | array (items : List Value)
  | table (origin : Origin) (entries : List (String × Value))
  /-- Tables that have the same header. -/
  | tables (elements : List (List (String × Value)))
  deriving Inhabited

/-- The entries of a table, in key order. -/
abbrev Table := List (String × Value)

end RecordTree.Toml
