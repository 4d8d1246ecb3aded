import RecordTree.Format
import RecordTree.Proofs.Json.Document
import RecordTree.Proofs.Yaml.Document

/-!
# Documents in either format

A reader accepts no document that is nested deeper than its limit (`depth_le_of_decode`), and a writer does
not look at the limit. What the two come to for one document is `ReadsBack`: in JSON it holds of every value
that was read (`readsBack_json`).
-/

namespace RecordTree.Format

/-- How many containers a document may nest. -/
def nestingLimit : Format → Nat
  | yaml => Yaml.Document.nestingLimit
  | json => Json.nestingLimit

theorem nestingLimit_eq_add_three (f : Format) : ∃ n, f.nestingLimit = n + 3 := by
  cases f <;> exact ⟨_, rfl⟩

/-- A content that is refused is no document of its format. -/
theorem eq_malformed_of_decode {f : Format} {content : ByteArray} {e : FormatError}
    (refused : f.decode content = .error e) : e = .malformed f := by
  unfold decode at refused
  split at refused
  · cases refused
  · split at refused <;> cases refused
    rfl

/-- What is read from a content is not nested too deep. -/
theorem depth_le_of_decode {f : Format} {content : ByteArray} {v : Value}
    (decoded : f.decode content = .ok v) : v.depth ≤ f.nestingLimit := by
  unfold decode at decoded
  split at decoded
  · cases decoded
    exact Nat.zero_le _
  · split at decoded
    · rename_i w read
      cases decoded
      obtain ⟨text, -, read⟩ := Option.bind_eq_some_iff.mp read
      cases f with
      | yaml => exact Yaml.depth_le_of_read? read
      | json => exact (Json.bounded_of_read? (fun _ _ _ => trivial) read).1
    · cases decoded

/-- What is read from a JSON content is regular, and its numbers are read again. -/
theorem regular_of_decode {content : ByteArray} {v : Value} (decoded : Format.json.decode content = .ok v) :
    Json.Regular Json.Reread v := by
  unfold decode at decoded
  split at decoded
  · cases decoded
    trivial
  · split at decoded
    · rename_i w read
      cases decoded
      obtain ⟨text, -, read⟩ := Option.bind_eq_some_iff.mp read
      exact (Json.bounded_of_read? (fun _ _ => Json.reread_of_number?) read).2
    · cases decoded

/-- Whether a document is read back up to its numbers if it is not nested too deep, and never as another one. -/
structure ReadsBack (f : Format) (v : Value) : Prop where
  outline : ∀ w, f.decode (f.encode v) = .ok w → w.outline = v.outline
  within : v.depth ≤ f.nestingLimit → ∃ w, f.decode (f.encode v) = .ok w

/-- A document that is read back as it was written. -/
theorem ReadsBack.of_decode {f : Format} {v : Value} (decoded : f.decode (f.encode v) = .ok v) :
    f.ReadsBack v := by
  refine ⟨fun w same => ?_, fun _ => ⟨v, decoded⟩⟩
  rw [decoded] at same
  exact congrArg Value.outline (Except.ok.inj same).symm

/-- A document that is read back is read if and only if it is not nested too deep. -/
theorem ReadsBack.exists_decode_iff {f : Format} {v : Value} (back : f.ReadsBack v) :
    (∃ w, f.decode (f.encode v) = .ok w) ↔ v.depth ≤ f.nestingLimit := by
  constructor
  · rintro ⟨w, decoded⟩
    rw [← Value.depth_eq_of_outline_eq (back.outline w decoded)]
    exact depth_le_of_decode decoded
  · exact back.within

/-- A text that is not blank is decoded by its reader. -/
theorem decode_toUTF8 {f : Format} {text : String} {c : Char} {cs : List Char} (opens : text.toList = c :: cs)
    (solid : (String.utf8EncodeChar c).all isBlankByte = false) :
    f.decode text.toUTF8 =
      match f.read? text with
      | some v => .ok v
      | none => .error (.malformed f) := by
  have bytes : text.toUTF8.data.all isBlankByte = false := by
    have encoded : text.toUTF8 = (c :: cs).utf8Encode := by
      rw [← opens, ← String.toByteArray_ofList, String.ofList_toList]
      rfl
    rw [encoded, List.utf8Encode, List.data_toByteArray, List.all_toArray, List.flatMap_cons, List.all_append,
      solid]
    rfl
  rw [decode, bytes, Json.fromUTF8?_toUTF8]
  rfl

/-- **A JSON document is read back** if the values in it were read from JSON. -/
theorem readsBack_json {fs : List (String × Value)} (regular : Json.Regular Json.Reread (.object fs)) :
    ReadsBack .json (.object fs) := by
  obtain ⟨w, outline, read⟩ := Json.read?_pretty regular
  have opens : ∃ cs, (Format.json.print (.object fs)).toList = '\x7b' :: cs := by
    cases fs <;> exact ⟨_, by simp [print, Json.pretty, Json.prettyValue]; rfl⟩
  obtain ⟨cs, opens⟩ := opens
  have decoded := decode_toUTF8 (f := .json) opens (by decide)
  rw [show Format.json.read? (Format.json.print (.object fs)) = _ from read] at decoded
  constructor
  · intro u same
    rw [encode, decoded] at same
    by_cases fits : (Value.object fs).depth ≤ Json.nestingLimit
    · simp only [fits, ↓reduceIte, Except.ok.injEq] at same
      exact same ▸ outline
    · simp [fits] at same
  · intro (fits : (Value.object fs).depth ≤ Json.nestingLimit)
    exact ⟨w, by rw [encode, decoded]; simp [fits]⟩

end RecordTree.Format
