import RecordTree.Proofs.Path

/-!
# Paths of records

The path of a record comes from a directory and a template in which the record's key is filled in. A key that is a
name fills a component with a placeholder to a name, whatever else stands there, so cleaning takes back the same
components for every key (`left_joinChars_fill`). What is left depends on the key if a component with a placeholder is
among it (`KeyIsLeft`), and then the paths of different keys are different.
-/

namespace RecordTree.Path

/-! ### Filling in a key -/

variable {key cs : List Char}

theorem fill_cons {c : Char} (other : ¬ placeholder.toList <+: c :: cs) : fill key (c :: cs) = c :: fill key cs := by
  rw [fill]
  rintro cs' rfl rfl
  exact other ⟨cs', rfl⟩

/-- A template without a placeholder is filled by no key. -/
theorem fill_of_not_hasPlaceholder (plain : hasPlaceholder cs = false) : fill key cs = cs := by
  fun_induction hasPlaceholder cs <;> simp_all [fill]

/-- A key is part of what it fills. -/
theorem infix_fill (key : List Char) (keyed : hasPlaceholder cs = true) : key <:+: fill key cs := by
  fun_induction fill key cs with
  | case1 cs _ => exact List.infix_append' [] key _
  | case2 c cs other ih =>
      rw [hasPlaceholder] at keyed
      · exact (ih keyed).trans (List.suffix_cons c _).isInfix
      · exact other
  | case3 => cases keyed

/-- How long a filled template is: each placeholder adds the length of the key. -/
theorem exists_length_fill (cs : List Char) :
    ∃ count rest, (hasPlaceholder cs = true → 0 < count) ∧
      ∀ key, (fill key cs).length = count * key.length + rest := by
  induction cs using fill.induct with
  | case1 cs ih =>
      obtain ⟨count, rest, -, length⟩ := ih
      refine ⟨count + 1, rest, fun _ => Nat.succ_pos count, fun key => ?_⟩
      rw [fill, List.length_append, length, Nat.succ_mul]
      omega
  | case2 c cs other ih =>
      obtain ⟨count, rest, pos, length⟩ := ih
      refine ⟨count, rest + 1, fun keyed => ?_, fun key => ?_⟩
      · rw [hasPlaceholder] at keyed
        · exact pos keyed
        · exact other
      · rw [fill, List.length_cons, length]
        · omega
        · exact other
  | case3 => exact ⟨0, 0, (fun keyed => by cases keyed), fun key => by simp [fill]⟩

/-- **Different keys fill a template with a placeholder differently.** -/
theorem fill_injective {key' : List Char} (keyed : hasPlaceholder cs = true) (same : fill key cs = fill key' cs) :
    key = key' := by
  obtain ⟨count, rest, pos, length⟩ := exists_length_fill cs
  have lengths : key.length = key'.length := by
    have total := congrArg List.length same
    rw [length, length] at total
    exact Nat.eq_of_mul_eq_mul_left (pos keyed) (by omega)
  clear pos length
  induction cs using fill.induct with
  | case1 cs _ => exact List.append_inj_left same lengths
  | case2 c cs other ih =>
      rw [hasPlaceholder] at keyed
      · rw [fill, fill] at same
        · exact ih keyed (List.cons.inj same).2
        · exact other
        · exact other
      · exact other
  | case3 => cases keyed

/-- To cut a filled template is to fill the parts of the template. -/
theorem split_fill (slashless : '/' ∉ key) (cs : List Char) : split (fill key cs) = (split cs).map (fill key) := by
  induction cs using fill.induct with
  | case1 cs ih =>
      obtain ⟨part, parts, cut⟩ := exists_split cs
      have outer : split (placeholder.toList ++ cs) = (placeholder.toList ++ part) :: parts :=
        split_append (by decide) cut
      rw [cut] at ih
      rw [fill, split_append slashless ih]
      exact (congrArg (List.map (fill key)) outer).symm
  | case2 c cs other ih =>
      obtain ⟨part, parts, cut⟩ := exists_split cs
      rw [cut] at ih
      have within : part <+: cs := by
        rw [← joinAll_split cs, cut]
        cases parts with
        | nil => exact List.prefix_rfl
        | cons part' parts => exact List.prefix_append part _
      have other' : ¬ placeholder.toList <+: c :: part := fun ⟨rest, start⟩ => by
        obtain ⟨rest', rfl⟩ := within
        cases start
        exact other _ rfl rfl
      rw [fill]
      · by_cases slash : c = '/'
        · simp [split, slash, ih, cut, fill]
        · simp [split, slash, ih, cut, fill_cons other']
      · exact other
  | case3 => rfl

/-- A key that is a name makes a part with a placeholder neither empty nor a step. -/
theorem fill_ne (name : IsName key) (keyed : hasPlaceholder cs = true) :
    fill key cs ≠ [] ∧ fill key cs ≠ here ∧ fill key cs ≠ above := by
  have within := (infix_fill key keyed).sublist
  have pos := List.length_pos_iff.mpr name.ne_nil
  have dots : ∀ count, count ≤ 2 → fill key cs ≠ List.replicate count '.' := by
    intro count few same
    rw [same, List.sublist_replicate_iff] at within
    obtain ⟨length, short, rfl⟩ := within
    rw [List.length_replicate] at pos
    obtain rfl | rfl : length = 1 ∨ length = 2 := by omega
    · exact name.ne_here rfl
    · exact name.ne_above rfl
  exact ⟨dots 0 (by decide), dots 1 (by decide), dots 2 (by decide)⟩

/-! ### What is left of the path of a record -/

/-- A component of the path of a record. -/
inductive Piece where
  /-- A component that is the same for all records. -/
  | fixed (text : Component)
  /-- A component in which the key is filled in. -/
  | keyed (text : Component) (holds : hasPlaceholder text = true)

namespace Piece

/-- The component for a key. -/
def fill (key : List Char) : Piece → Component
  | fixed text => text
  | keyed text _ => Path.fill key text

@[simp] theorem fill_fixed (key : List Char) (text : Component) : (fixed text).fill key = text := rfl

/-- Whether the key is in the component. -/
def isKeyed : Piece → Bool
  | fixed _ => false
  | keyed _ _ => true

/-- A component of a template. -/
def ofTemplate (text : Component) : Piece :=
  if holds : hasPlaceholder text = true then keyed text holds else fixed text

@[simp] theorem fill_ofTemplate (key : List Char) (text : Component) : (ofTemplate text).fill key = Path.fill key text := by
  unfold ofTemplate
  split
  · rfl
  · rename_i plain
    exact (fill_of_not_hasPlaceholder (Bool.eq_false_iff.mpr plain)).symm

/-- Adds a component to a cleaned path as `Path.push` does; one with the key in it counts as a name. -/
def push (rooted : Bool) (stack : List Piece) : Piece → List Piece
  | keyed text holds => keyed text holds :: stack
  | fixed text =>
    if text = [] ∨ text = here then stack
    else if text = above then
      match stack with
      | keyed _ _ :: rest => rest
      | fixed last :: rest => if last ≠ above then rest else if rooted then stack else fixed above :: stack
      | [] => if rooted then [] else [fixed above]
    else fixed text :: stack

/-- **Cleaning takes back the same components for every key.** -/
theorem map_fill_push (name : IsName key) (rooted : Bool) (stack : List Piece) (p : Piece) :
    (p.push rooted stack).map (fill key) = Path.push rooted (stack.map (fill key)) (p.fill key) := by
  cases p with
  | keyed text holds =>
      obtain ⟨nonempty, here, above⟩ := fill_ne name holds
      simp [push, fill, Path.push, nonempty, here, above]
  | fixed text =>
      by_cases silent : text = [] ∨ text = here
      · simp [push, fill, Path.push, silent]
      · by_cases up : text = above
        · obtain rfl := up
          simp only [push, fill, Path.push.eq_def, silent, if_false, if_true]
          cases stack with
          | nil => cases rooted <;> rfl
          | cons last rest =>
              cases last with
              | keyed text holds =>
                  obtain ⟨-, -, name'⟩ := fill_ne name holds
                  simp [fill, name']
              | fixed text =>
                  by_cases bottom : text = above
                  · cases rooted <;> simp [fill, bottom]
                  · simp [fill, bottom]
        · simp [push, fill, Path.push, silent, up]

end Piece

/-- A path starts from the root if the directory does, or the template where there is no directory. -/
def isRooted (dir template : List Char) : Bool := (if dir = [] then template else dir).head? = some '/'

/-- What is left of the path of a record when it is cleaned. -/
def pieces (dir template : List Char) : List Piece :=
  (((split dir).map Piece.fixed ++ (split template).map Piece.ofTemplate).foldl
    (Piece.push (isRooted dir template)) []).reverse

theorem head?_fill (name : IsName key) (template : List Char) :
    (fill key template).head? = some '/' ↔ template.head? = some '/' := by
  cases template using fill.induct with
  | case1 cs _ =>
      obtain ⟨c, rest, rfl⟩ := List.exists_cons_of_ne_nil name.ne_nil
      have other : c ≠ '/' := fun same => name.slashless (by simp [same])
      simp [fill, other]
  | case2 c cs other _ =>
      rw [fill]
      · rfl
      · exact other
  | case3 => rfl

theorem head?_joinChars_fill (name : IsName key) (dir template : List Char) :
    decide ((joinChars dir (fill key template)).head? = some '/') = isRooted dir template := by
  unfold isRooted joinChars
  congr 1
  split_ifs with noDir noName
  · exact propext (head?_fill name template)
  · rfl
  · obtain ⟨c, rest, rfl⟩ := List.exists_cons_of_ne_nil noDir
    rfl

/-- To join a directory and a name is to have the parts of both. -/
theorem reduce_split_joinChars (rooted : Bool) (dir name : List Char) :
    reduce rooted (split (joinChars dir name)) = reduce rooted (split dir ++ split name) := by
  have silent : ∀ stack : List Component, push rooted stack [] = stack := fun stack => by simp [push]
  unfold joinChars
  split_ifs with noDir noName
  · simp [noDir, split, reduce, silent]
  · simp [noName, split, reduce, silent]
  · rw [split_append_slash]

/-- To clean the path of a name in a directory is to clean the path of the directory. -/
theorem left_joinChars {name : Component} (named : IsName name) (dir : List Char) :
    left (joinChars dir name) = left dir ++ [name] := by
  have rooted : (joinChars dir name).head? = some '/' ↔ dir.head? = some '/' := by
    cases dir with
    | nil =>
        simp only [joinChars, ↓reduceIte, List.head?_nil, reduceCtorEq, iff_false]
        exact fun first => named.slashless (List.mem_of_mem_head? first)
    | cons c cs => simp [joinChars, named.ne_nil]
  rw [left, left, reduce_split_joinChars, split_of_slashless named.slashless, reduce, List.foldl_append,
    List.foldl_cons, List.foldl_nil, push_of_isName named, List.reverse_cons]
  simp only [rooted, reduce]

/-- Where a store keeps the record of a file name: below the names that are left of the directory, unless a step up
is left in front of them. -/
theorem normalize?_ofRecord_of_isName {dir template key : String} (named : IsName (fill key.toList template.toList)) :
    normalize? (ofRecord dir template key) =
      if (left dir.toList).head? = some above then none
      else some (String.ofList (ofNames (left dir.toList ++ [fill key.toList template.toList]))) := by
  have first : (left dir.toList ++ [fill key.toList template.toList]).head? = some above ↔
      (left dir.toList).head? = some above := by
    cases left dir.toList with
    | nil => simpa using named.ne_above
    | cons part parts => rfl
  rw [normalize?_eq, ofRecord, String.toList_ofList, left_cleanChars, left_joinChars named]
  simp only [first]

/-- **To clean the path of a record** is to fill the key into what is left for all records. -/
theorem left_joinChars_fill (name : IsName key) (dir template : List Char) :
    left (joinChars dir (fill key template)) = (pieces dir template).map (·.fill key) := by
  have fold : ∀ (parts stack : List Piece),
      (parts.foldl (Piece.push (isRooted dir template)) stack).map (·.fill key) =
        (parts.map (·.fill key)).foldl (push (isRooted dir template)) (stack.map (·.fill key)) := by
    intro parts
    induction parts with
    | nil => exact fun stack => rfl
    | cons p parts ih =>
        intro stack
        rw [List.foldl_cons, ih, Piece.map_fill_push name]
        rfl
  have parts : ((split dir).map Piece.fixed ++ (split template).map Piece.ofTemplate).map (·.fill key) =
      split dir ++ split (fill key template) := by
    rw [split_fill name.slashless]
    simp [Function.comp_def]
  rw [left, head?_joinChars_fill name, reduce_split_joinChars, reduce, pieces, List.map_reverse, fold, parts]
  rfl

/-! ### The file of a record -/

/-- Whether the key is in what is left of the path of a record. -/
def KeyIsLeft (dir template : String) : Prop := ∃ p ∈ pieces dir.toList template.toList, p.isKeyed = true

instance (dir template : String) : Decidable (KeyIsLeft dir template) :=
  inferInstanceAs (Decidable (∃ p ∈ pieces dir.toList template.toList, p.isKeyed = true))

/-- Whether the path of a record leads out of the store. -/
def Escapes (dir template : String) : Prop := (pieces dir.toList template.toList).head? = some (.fixed above)

variable {dir template i j : String}

theorem head?_map_fill (name : IsName key) (ps : List Piece) :
    (ps.map (·.fill key)).head? = some above ↔ ps.head? = some (.fixed above) := by
  cases ps with
  | nil => simp
  | cons p ps =>
      cases p with
      | fixed text => simp
      | keyed text holds => simp [Piece.fill, (fill_ne name holds).2.2]

/-- The file of a record in a store, if its path does not lead out of the store. -/
theorem normalize?_ofRecord (name : IsName i.toList) (down : ¬ Escapes dir template) :
    (∀ part ∈ (pieces dir.toList template.toList).map (·.fill i.toList), IsName part) ∧
      normalize? (ofRecord dir template i) =
        some (String.ofList (ofNames ((pieces dir.toList template.toList).map (·.fill i.toList)))) := by
  have left_eq := left_joinChars_fill name dir.toList template.toList
  have down' : (left (joinChars dir.toList (fill i.toList template.toList))).head? ≠ some above := by
    rw [left_eq]
    exact fun up => down ((head?_map_fill name _).mp up)
  rw [← left_eq, normalize?_eq, ofRecord, String.toList_ofList, left_cleanChars, if_neg down']
  exact ⟨isName_of_mem_left down', rfl⟩

theorem normalize?_ofRecord_of_escapes (name : IsName i.toList) (up : Escapes dir template) :
    normalize? (ofRecord dir template i) = none := by
  have up' : (left (joinChars dir.toList (fill i.toList template.toList))).head? = some above := by
    rw [left_joinChars_fill name]
    exact (head?_map_fill name _).mpr up
  rw [normalize?_eq, ofRecord, String.toList_ofList, left_cleanChars, if_pos up']

/-- **Different records have different files** if the key is left in their paths. -/
theorem normalize?_ofRecord_ne (left : KeyIsLeft dir template) (name : IsName i.toList) (name' : IsName j.toList)
    (other : i ≠ j) {q : String} (normal : normalize? (ofRecord dir template i) = some q) :
    normalize? (ofRecord dir template j) ≠ some q := by
  by_cases up : Escapes dir template
  · rw [normalize?_ofRecord_of_escapes name up] at normal
    cases normal
  · obtain ⟨names, normal'⟩ := normalize?_ofRecord name up
    obtain ⟨names', same⟩ := normalize?_ofRecord name' up
    rw [normal', Option.some.injEq] at normal
    rw [same, ← normal, ne_eq, Option.some.injEq]
    intro same
    have filled := ofNames_injective names' names (String.ofList_injective same)
    obtain ⟨p, mem, keyed⟩ := left
    cases p with
    | fixed text => cases keyed
    | keyed text holds =>
        have alike : Path.fill j.toList text = Path.fill i.toList text := List.map_inj_left.mp filled _ mem
        exact other (String.toList_inj.mp (fill_injective holds alike)).symm

/-- Without the key in their paths, all records have one file. -/
theorem normalize?_ofRecord_congr (left : ¬ KeyIsLeft dir template) (name : IsName i.toList)
    (name' : IsName j.toList) : normalize? (ofRecord dir template i) = normalize? (ofRecord dir template j) := by
  by_cases up : Escapes dir template
  · rw [normalize?_ofRecord_of_escapes name up, normalize?_ofRecord_of_escapes name' up]
  · have same : (pieces dir.toList template.toList).map (·.fill i.toList) =
        (pieces dir.toList template.toList).map (·.fill j.toList) := by
      refine List.map_congr_left fun p mem => ?_
      cases p with
      | fixed text => rfl
      | keyed text holds => exact absurd ⟨_, mem, rfl⟩ left
    rw [(normalize?_ofRecord name up).2, (normalize?_ofRecord name' up).2, same]

end RecordTree.Path
