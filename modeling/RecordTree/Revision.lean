import RecordTree.Digest.Blake3

/-!
# Revisions

A revision names a content by its digest, so that a writer can say which content it has seen. The
empty revision stands for "no file".
-/

namespace RecordTree

/-- The revision of a file's content, or the empty one for no file. -/
structure Revision where
  text : String
  deriving DecidableEq, Repr, Inhabited

namespace Revision

/-- The revision that stands for no file. -/
def none : Revision := ⟨""⟩

/-- Whether the revision stands for no file. -/
def isNone (r : Revision) : Bool := r.text.isEmpty

/-- The bytes that are hashed before a content. -/
def seed : ByteArray := "filedb-rev-v1:".toUTF8

/-- A byte as two hexadecimal digits. -/
def hexByte (b : UInt8) : List Char :=
  [Nat.digitChar (b.toNat / 16), Nat.digitChar (b.toNat % 16)]

/-- The revision of a content: the hexadecimal digest of the seed and the content. -/
def ofContent (content : ByteArray) : Revision :=
  ⟨String.ofList ((Blake3.digest (seed ++ content)).flatMap hexByte)⟩

/-- The characters that take up the first bytes of a text, if they end at the given byte. -/
def takeBytes? : Nat → List Char → Option (List Char)
  | 0, _ => some []
  | _ + 1, [] => Option.none
  | n + 1, c :: cs =>
    if c.utf8Size ≤ n + 1 then (takeBytes? (n + 1 - c.utf8Size) cs).map (c :: ·) else Option.none
termination_by _ cs => cs.length

/-- The first eight bytes, for people to read; all of a text that cannot be cut there. -/
def short (r : Revision) : String :=
  match takeBytes? 8 r.text.toList with
  | some cs => String.ofList cs
  | Option.none => r.text

/-- A revision as it is shown to a programmer. -/
def describe (r : Revision) : String :=
  if r.isNone then "RevisionTag(none)" else "RevisionTag(" ++ r.short ++ ")"

end Revision

end RecordTree
