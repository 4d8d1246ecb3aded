import RecordTree.Proofs.Record.Listing

/-!
# Where records are

A template and a key without slashes give a file name. The file of the record is then in the directory of its
collection and not below it or beside it (`storePath_ofRecord_eq`), because the name takes nothing back of the
directory. As the path ends with the file name, different file names are different paths, and a template with a
placeholder makes different file names of different keys (`Path.fill_injective`).
-/

namespace RecordTree

open RecordTree.Path

/-- The file name that a template gives to a key. -/
def Path.fileName (template key : String) : String := String.ofList (fill key.toList template.toList)

/-- A template and a key without slashes make a file name, unless it is one of the components that lead elsewhere. -/
theorem Path.isName_fill {template key : String} (plain : '/' ∉ template.toList) (slashless : '/' ∉ key.toList)
    (named : fileName template key ∉ ["", ".", ".."]) : IsName (fill key.toList template.toList) := by
  have whole : split (fill key.toList template.toList) = [fill key.toList template.toList] := by
    rw [split_fill slashless, split_of_slashless plain]
    rfl
  have other : ∀ text : List Char, String.ofList text ∈ ["", ".", ".."] → fill key.toList template.toList ≠ text := by
    rintro text mem rfl
    exact named mem
  exact ⟨other [] (by decide), other here (by decide), other above (by decide),
    slashless_of_mem_split (whole ▸ List.mem_singleton_self _)⟩

/-- **The file of a record** is in the directory of its collection, under the name that the template gives it. -/
theorem storePath_ofRecord_eq {dir d template key : String} (accepted : storePath dir = .ok d)
    (named : IsName (fill key.toList template.toList)) :
    storePath (ofRecord dir template key) = .ok (MemoryStore.childPrefix d ++ fileName template key) := by
  rw [storePath_eq_ok_iff, normalize?_eq] at accepted
  split_ifs at accepted with up
  have same := left_dropWhile up
  have names := isName_of_mem_left up
  rw [same, Option.some.injEq] at accepted
  rw [same] at up names
  rw [storePath_eq_ok_iff, normalize?_ofRecord_of_isName named, if_neg up, MemoryStore.ofNames_concat names, accepted]
  rfl

/-- **Records are children of their collection's directory, and no two are one.** If the store accepts the directory
and the template with the key filled in is a file name, the record is in the file of that name in the directory. If
the template has a placeholder, any other key that makes a file name leads to another file, whatever is in the keys. -/
theorem storePath_ofRecord {dir d template key : String} (accepted : storePath dir = .ok d)
    (plain : '/' ∉ template.toList) (slashless : '/' ∉ key.toList)
    (named : fileName template key ∉ ["", ".", ".."]) :
    storePath (ofRecord dir template key) =
        .ok (if d = "." then fileName template key else d ++ "/" ++ fileName template key) ∧
      (hasPlaceholder template.toList = true → ∀ other : String, '/' ∉ other.toList →
        fileName template other ∉ ["", ".", ".."] → other ≠ key →
          storePath (ofRecord dir template other) ≠ storePath (ofRecord dir template key)) := by
  have placed := storePath_ofRecord_eq accepted (isName_fill plain slashless named)
  constructor
  · rw [placed, MemoryStore.childPrefix]
    split_ifs
    · rw [String.empty_append]
    · rfl
  · intro keyed other slashless' named' differ same
    rw [placed, storePath_ofRecord_eq accepted (isName_fill plain slashless' named'), Except.ok.injEq,
      String.append_right_inj] at same
    exact differ (String.toList_inj.mp (fill_injective keyed (String.ofList_injective same)))

/-- A key that is a placeholder itself, in a template with two of them. -/
theorem storePath_ofRecord_placeholder :
    storePath (ofRecord "/old/../tags" (placeholder ++ "-" ++ placeholder) placeholder) =
        .ok ("tags/" ++ placeholder ++ "-" ++ placeholder) ∧
      storePath (ofRecord "/old/../tags" (placeholder ++ "-" ++ placeholder) "key") ≠
        storePath (ofRecord "/old/../tags" (placeholder ++ "-" ++ placeholder) placeholder) := by
  have accepted : storePath "/old/../tags" = .ok "tags" := by decide
  have plain : '/' ∉ (placeholder ++ "-" ++ placeholder).toList := by decide
  have slashless : '/' ∉ placeholder.toList := by decide
  obtain ⟨placed, apart⟩ := storePath_ofRecord accepted plain slashless (by decide)
  refine ⟨?_, apart (by decide) "key" (by decide) (by decide) (by decide)⟩
  rw [placed]
  decide

end RecordTree
