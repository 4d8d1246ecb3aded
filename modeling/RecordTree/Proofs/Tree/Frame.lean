import RecordTree.Proofs.Tree.Change

/-!
# What stays in a tree

Two ways to say that a tree is as it was but for one place. `TouchedAt` compares a tree with what came of it: no file
is another one except at one place, no directory is gone, and one that came to be is on the way there. `SameBeside`
compares two trees that need not have come of each other: they have the same entries, except under one name. Whatever
is done elsewhere in two such trees is done in both or in neither, and leaves two such trees.
-/

namespace RecordTree.Tree

variable {t t' t'' : Tree} {place p : List String} {content : ByteArray} {content? : Option ByteArray}

/-! ### One place is touched -/

/-- Whether a tree came from another one by doing something to the file at one place at most, and, if it may grow, by
making directories on the way there. -/
structure TouchedAt (t t' : Tree) (place : List String) (grows : Prop) : Prop where
  isDir : t'.isDir = true
  others : ∀ p, p ≠ place → t'.file? p = t.file? p
  kept : ∀ p, t.IsDirAt p → t'.IsDirAt p
  grown : ∀ p, t'.IsDirAt p → t.IsDirAt p ∨ grows ∧ p <+: place ∧ p ≠ place
  find : ∀ p, p ≠ [] → p.head? ≠ place.head? → t'.find p = t.find p
  tidy : t.Tidy → t'.Tidy

theorem TouchedAt.refl {grows : Prop} (root : t.isDir = true) (place : List String) :
    t.TouchedAt t place grows where
  isDir := root
  others _ _ := rfl
  kept _ found := found
  grown _ found := .inl found
  find _ _ _ := rfl
  tidy tidy := tidy

/-- To make the directories above a place touches no file. -/
theorem touchedAt_makeDirs (root : t.isDir = true) (nonempty : place ≠ []) :
    t.TouchedAt (t.makeDirs place.dropLast).2 place True where
  isDir := isDir_of_isDirAt_nil (isDirAt_makeDirs_of_isDirAt _ (isDirAt_nil root))
  others p _ := file?_makeDirs t _ p
  kept _ found := isDirAt_makeDirs_of_isDirAt _ found
  grown _ found := (of_isDirAt_makeDirs found).imp_right fun within =>
    ⟨trivial, proper_of_prefix_dropLast nonempty within⟩
  find _ below elsewhere := find_makeDirs_of_ne (head?_ne_head?_dropLast below elsewhere) below
  tidy tidy := tidy.makeDirs _

theorem ChangedAt.touchedAt (changed : t.ChangedAt t' place content?) :
    t.TouchedAt t' place (content?.isSome = true) where
  isDir := changed.isDir
  others p other := by rw [changed.file?, if_neg other]
  kept := changed.kept
  grown p found := by
    cases content? with
    | none => exact .inl (changed.bare rfl p found)
    | some content => exact (changed.isDirAt p found).imp_right fun above => ⟨rfl, above⟩
  find := changed.find
  tidy := changed.tidy

theorem TouchedAt.mono {grows grows' : Prop} (touched : t.TouchedAt t' place grows) (more : grows → grows') :
    t.TouchedAt t' place grows' :=
  { touched with
    grown := fun p found => (touched.grown p found).imp_right fun ⟨grown, above⟩ => ⟨more grown, above⟩ }

/-! ### All but one entry is the same -/

/-- Whether two directories have the same entries, except under one name. -/
def SameBeside (own : String) (t t' : Tree) : Prop :=
  ∃ entries entries', t = dir entries ∧ t' = dir entries' ∧
    ∀ name, name ≠ own → Entries.find? name entries' = Entries.find? name entries

namespace SameBeside

variable {own : String}

theorem refl (root : t.isDir = true) : SameBeside own t t := by
  cases t with
  | file content => cases root
  | dir entries => exact ⟨entries, entries, rfl, rfl, fun _ _ => rfl⟩

theorem symm (same : SameBeside own t t') : SameBeside own t' t := by
  obtain ⟨entries, entries', rfl, rfl, same⟩ := same
  exact ⟨entries', entries, rfl, rfl, fun name other => (same name other).symm⟩

theorem trans (same : SameBeside own t t') (same' : SameBeside own t' t'') : SameBeside own t t'' := by
  obtain ⟨entries, entries', rfl, rfl, same⟩ := same
  obtain ⟨_, entries'', rfl', rfl, same'⟩ := same'
  cases rfl'
  exact ⟨entries, entries'', rfl, rfl, fun name other => (same' name other).trans (same name other)⟩

theorem isDir (same : SameBeside own t t') : t.isDir = true ∧ t'.isDir = true := by
  obtain ⟨entries, entries', rfl, rfl, -⟩ := same
  exact ⟨rfl, rfl⟩

/-- An entry under another name is put in its place in both. -/
theorem insert {entries entries' : List (String × Tree)} {name : String} {u : Tree}
    (same : ∀ name, name ≠ own → Entries.find? name entries' = Entries.find? name entries) :
    SameBeside own (dir (Entries.insert name u entries)) (dir (Entries.insert name u entries')) := by
  refine ⟨_, _, rfl, rfl, fun n other => ?_⟩
  rw [Entries.find?_insert, Entries.find?_insert, same n other]

section Elsewhere

variable (same : SameBeside own t t') (elsewhere : place.head? ≠ some own)

include same elsewhere

theorem find (below : place ≠ []) : t'.find place = t.find place := by
  obtain ⟨name, place, rfl⟩ := List.exists_cons_of_ne_nil below
  obtain ⟨entries, entries', rfl, rfl, same⟩ := same
  have other : name ≠ own := fun h => elsewhere (congrArg some h)
  simp only [Tree.find, same name other]

theorem makeDirs :
    (t'.makeDirs place).1 = (t.makeDirs place).1 ∧
      SameBeside own (t.makeDirs place).2 (t'.makeDirs place).2 := by
  obtain ⟨entries, entries', rfl, rfl, same⟩ := same
  cases place with
  | nil => exact ⟨rfl, entries, entries', rfl, rfl, same⟩
  | cons name place =>
      have other : name ≠ own := fun h => elsewhere (congrArg some h)
      cases named : isName name with
      | false =>
          rw [makeDirs_of_not_isName named, makeDirs_of_not_isName named]
          exact ⟨rfl, entries, entries', rfl, rfl, same⟩
      | true =>
          rw [makeDirs_cons named, makeDirs_cons named, same name other]
          exact ⟨rfl, insert same⟩

/-- A file is put at a place in both trees or in neither. -/
theorem putFile :
    (t.putFile content place = none ∧ t'.putFile content place = none) ∨
      ∃ u u', t.putFile content place = some u ∧ t'.putFile content place = some u' ∧ SameBeside own u u' := by
  obtain ⟨entries, entries', rfl, rfl, same⟩ := same
  cases place with
  | nil => exact .inl ⟨rfl, rfl⟩
  | cons name place =>
      have other : name ≠ own := fun h => elsewhere (congrArg some h)
      cases place with
      | nil =>
          simp only [Tree.putFile, same name other]
          split_ifs
          · exact .inr ⟨_, _, rfl, rfl, insert same⟩
          · exact .inl ⟨rfl, rfl⟩
      | cons name' place =>
          simp only [Tree.putFile, same name other]
          cases Entries.find? name entries with
          | none => exact .inl ⟨rfl, rfl⟩
          | some u =>
              cases put : u.putFile content (name' :: place) with
              | none => exact .inl ⟨by simp [put], by simp [put]⟩
              | some u' => exact .inr ⟨_, _, by simp only [put]; rfl, by simp only [put]; rfl, insert same⟩

theorem remove : SameBeside own (t.remove place) (t'.remove place) := by
  obtain ⟨entries, entries', rfl, rfl, same⟩ := same
  cases place with
  | nil => exact ⟨entries, entries', rfl, rfl, same⟩
  | cons name place =>
      have other : name ≠ own := fun h => elsewhere (congrArg some h)
      cases place with
      | nil =>
          refine ⟨_, _, rfl, rfl, fun n other' => ?_⟩
          rw [Entries.find?_erase, Entries.find?_erase, same n other']
      | cons name' place =>
          simp only [Tree.remove, same name other]
          cases Entries.find? name entries with
          | none => exact ⟨entries, entries', rfl, rfl, same⟩
          | some u => exact insert same

end Elsewhere

/-- Whatever is put under the one name, everything else is the same. -/
theorem insert_own (entries : List (String × Tree)) (u : Tree) :
    SameBeside own (dir entries) (dir (Entries.insert own u entries)) := by
  refine ⟨_, _, rfl, rfl, fun name other => ?_⟩
  rw [Entries.find?_insert, if_neg other]

theorem makeDirs_own (root : t.isDir = true) (place : List String) :
    SameBeside own t (t.makeDirs (own :: place)).2 := by
  cases t with
  | file content => cases root
  | dir entries =>
      cases named : isName own with
      | false =>
          rw [makeDirs_of_not_isName named]
          exact refl rfl
      | true =>
          rw [makeDirs_cons named]
          exact insert_own entries _

theorem putFile_own (put : t.putFile content (own :: place) = some t') : SameBeside own t t' := by
  obtain ⟨entries, name, rest, rfl, same, ⟨-, -, -, rfl⟩ | ⟨-, u, u', -, -, rfl⟩⟩ := putFile_eq_some put
  · cases same
    exact insert_own entries _
  · cases same
    exact insert_own entries _

/-- In tidy trees, the entries under all other names stand in the same order. -/
theorem erase_eq {entries entries' : List (String × Tree)} (same : SameBeside own (dir entries) (dir entries'))
    (tidy : (dir entries).Tidy) (tidy' : (dir entries').Tidy) :
    Entries.erase own entries' = Entries.erase own entries := by
  obtain ⟨_, _, rfl', rfl'', same⟩ := same
  cases rfl'
  cases rfl''
  refine tidy'.entries_sorted.erase.ext tidy.entries_sorted.erase fun name => ?_
  rw [Entries.find?_erase, Entries.find?_erase]
  split_ifs with own'
  · rfl
  · exact same name own'

end SameBeside

end RecordTree.Tree
