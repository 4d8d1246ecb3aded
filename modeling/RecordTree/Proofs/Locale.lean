import Mathlib.Data.List.Induction
import Mathlib.Tactic.Common
import RecordTree.Locale
import RecordTree.Proofs.Value

/-!
# Localized columns, seen after they were stored

Whatever was stored before, a reader sees exactly the fields that were stored last (`view_stored`). Both
directions go through the columns one by one, and each step touches the one field that its column names, so
that a field is decided by the last column of its name (`get?_foldl`). Of two sets of fields that are stored one
over the other only the second one is left (`stored_stored`), and what a localized column holds under other locales
than its own stays there (`get?_variants_stored_of_ne`). These laws hold of any list of columns, also if it names
some of them more than once (`stored_shows_absorbs_and_keeps`).

To store what is seen changes nothing if and only if every localized column is missing or has values
(`stored_view_eq_iff`). Someone who reads the same columns under other locales goes on seeing in them what was seen
before (`Translates.get?_view_stored`).
-/

namespace RecordTree

namespace Projection

/-! ### One column -/

/-- What is seen under the name of a column with the given locale, if other columns leave the field. -/
def seenField (raw : Fields) (column locale : String) (left : Option Value) : Option Value :=
  match (raw.get? column).bind Value.fields? with
  | some variants => variants.get? locale
  | none => left

/-- The values of a column under all locales after its field was stored. -/
def storedVariants (incoming : Fields) (existing : Option Fields) (column locale : String) : Fields :=
  match incoming.get? column with
  | some value => (variants existing column).insert locale value
  | none => (variants existing column).erase locale

/-- What is stored under the name of a column with the given locale. -/
def storedField (incoming : Fields) (existing : Option Fields) (column locale : String) : Option Value :=
  let after := storedVariants incoming existing column locale
  if after.isEmpty then none else some (.ofFields after)

theorem get?_viewColumn (raw out : Fields) (column : String × String) (key : String) :
    (viewColumn raw out column).get? key =
      if key = column.1 then seenField raw column.1 column.2 (out.get? key) else out.get? key := by
  unfold viewColumn seenField
  cases (raw.get? column.1).bind Value.fields? with
  | none => simp
  | some variants =>
      cases seen : variants.get? column.2 with
      | some value => simp [seen, SortedMap.get?_insert]
      | none => simp [seen, SortedMap.get?_erase]

theorem get?_storeColumn (incoming : Fields) (existing : Option Fields) (out : Fields)
    (column : String × String) (key : String) :
    (storeColumn incoming existing out column).get? key =
      if key = column.1 then storedField incoming existing column.1 column.2 else out.get? key := by
  have step : storeColumn incoming existing out column =
      let after := storedVariants incoming existing column.1 column.2
      if after.isEmpty then out.erase column.1 else out.insert column.1 (.ofFields after) := rfl
  by_cases empty : (storedVariants incoming existing column.1 column.2).isEmpty = true
  · simp [step, storedField, empty, SortedMap.get?_erase]
  · simp [step, storedField, empty, SortedMap.get?_insert]

/-- What came in is assigned to the own locale. -/
theorem storedVariants_eq (incoming : Fields) (existing : Option Fields) (column locale : String) :
    storedVariants incoming existing column locale =
      (variants existing column).assign locale (incoming.get? column) := by
  unfold storedVariants
  cases incoming.get? column <;> rfl

/-- What is stored under the own locale is what came in. -/
theorem get?_storedVariants_self (incoming : Fields) (existing : Option Fields) (column locale : String) :
    (storedVariants incoming existing column locale).get? locale = incoming.get? column := by
  rw [storedVariants_eq, SortedMap.get?_assign_self]

/-- Under other locales a column keeps what it had. -/
theorem get?_storedVariants_of_ne (incoming : Fields) (existing : Option Fields) (column : String)
    {locale key : String} (other : key ≠ locale) :
    (storedVariants incoming existing column locale).get? key = (variants existing column).get? key := by
  rw [storedVariants_eq, SortedMap.get?_assign_of_ne _ other]

theorem storedField_eq_some {incoming : Fields} {existing : Option Fields} {column locale : String}
    {w : Value} : storedField incoming existing column locale = some w ↔
      (storedVariants incoming existing column locale).isEmpty = false ∧
        w = .ofFields (storedVariants incoming existing column locale) := by
  cases empty : (storedVariants incoming existing column locale).isEmpty with
  | false => simpa [storedField, empty] using eq_comm
  | true => simp [storedField, empty]

/-- A column of which some variant is left is stored. -/
theorem storedField_of_get? {incoming : Fields} {existing : Option Fields} {column locale key : String} {v : Value}
    (found : (storedVariants incoming existing column locale).get? key = some v) :
    storedField incoming existing column locale = some (.ofFields (storedVariants incoming existing column locale)) :=
  storedField_eq_some.mpr ⟨SortedMap.isEmpty_of_get? found, rfl⟩

/-- What a reader sees of a stored column is what came in. -/
theorem seenField_of_stored {raw incoming : Fields} {existing : Option Fields} {column locale : String}
    (held : raw.get? column = storedField incoming existing column locale) :
    seenField raw column locale (raw.get? column) = incoming.get? column := by
  have variants := get?_storedVariants_self incoming existing column locale
  unfold storedField at held
  unfold seenField
  by_cases empty : (storedVariants incoming existing column locale).isEmpty = true
  · rw [SortedMap.get?_of_isEmpty empty] at variants
    simp [held, empty, ← variants]
  · simp [held, empty, variants]

/-- What is stored under a locale came in, or was stored before. -/
theorem get?_storedVariants {incoming : Fields} {existing : Option Fields} {column locale key : String}
    {v : Value} (found : (storedVariants incoming existing column locale).get? key = some v) :
    key = locale ∧ incoming.get? column = some v ∨ (variants existing column).get? key = some v := by
  rw [storedVariants_eq, SortedMap.get?_assign] at found
  split at found
  · rename_i same
    exact .inl ⟨same, found⟩
  · exact .inr found

/-- Variants that were stored before stood in the field of their column. -/
theorem exists_of_get?_variants {existing : Option Fields} {column key : String} {v : Value}
    (found : (variants existing column).get? key = some v) :
    ∃ fields vs, existing = some fields ∧ fields.get? column = some (.object vs) ∧ (key, v) ∈ vs := by
  unfold variants at found
  cases existing with
  | none => simp at found
  | some fields =>
      cases value : fields.get? column with
      | none => simp [value] at found
      | some w =>
          cases w with
          | object vs =>
              simp only [Option.bind_some, value, Value.fields?, Option.getD_some] at found
              exact ⟨fields, vs, rfl, value, SortedMap.mem_of_get?_ofList found⟩
          | _ => simp [value, Value.fields?] at found

/-! ### All columns -/

/-- The locale of a column: the last of its pairs decides. -/
def locale? (p : Projection) (column : String) : Option String := Entries.find? column p.columns.reverse

/-- A pair decides if no later one has its name. -/
theorem locale?_of_last {p : Projection} {front back : List (String × String)} {column locale : String}
    (listed : p.columns = front ++ (column, locale) :: back) (last : ∀ later ∈ back, later.1 ≠ column) :
    p.locale? column = some locale := by
  have missing : Entries.find? column back.reverse = none :=
    Entries.find?_eq_none fun later mem => last later (List.mem_reverse.mp mem)
  rw [locale?, listed, List.reverse_append, List.reverse_cons, Entries.find?_append, Entries.find?_append, missing]
  simp [Entries.find?]

/-- The pair that decides is listed. -/
theorem mem_columns_of_locale? {p : Projection} {column locale : String} (named : p.locale? column = some locale) :
    (column, locale) ∈ p.columns :=
  List.mem_reverse.mp (Entries.mem_of_find? named)

/-- If columns have different names, the only pair of a column decides. -/
theorem locale?_eq {p : Projection} (distinct : (p.columns.map Prod.fst).Nodup) (column : String) :
    p.locale? column = Entries.find? column p.columns :=
  Entries.find?_reverse distinct column

/-- A field is decided by the last column of its name, if what a column does to its field undoes what other columns
of the same name have done. -/
theorem get?_foldl {f : Fields → String × String → Fields}
    {g : String → String → Option Value → Option Value}
    (own : ∀ out column key, (f out column).get? key =
      if key = column.1 then g column.1 column.2 (out.get? key) else out.get? key)
    (absorbs : ∀ column locale locale' left, g column locale (g column locale' left) = g column locale left)
    (columns : List (String × String)) (out : Fields) (key : String) :
    (columns.foldl f out).get? key =
      match Entries.find? key columns.reverse with
      | some locale => g key locale (out.get? key)
      | none => out.get? key := by
  induction columns using List.reverseRecOn with
  | nil => rfl
  | append_singleton rest column ih =>
      rw [List.foldl_append, List.foldl_cons, List.foldl_nil, own, ih, List.reverse_concat]
      by_cases same : key = column.1
      · subst same
        simp only [Entries.find?, ↓reduceIte]
        split
        · exact absorbs ..
        · rfl
      · simp only [Entries.find?, same, ↓reduceIte]

/-- What is stored under a name: the variants of a localized column, and else what came in. -/
theorem get?_stored_eq (p : Projection) (incoming : Fields) (existing : Option Fields) (key : String) :
    (p.stored incoming existing).get? key =
      match p.locale? key with
      | some locale => storedField incoming existing key locale
      | none => incoming.get? key :=
  get?_foldl (g := fun column locale _ => storedField incoming existing column locale)
    (get?_storeColumn incoming existing) (fun _ _ _ _ => rfl) p.columns incoming key

/-- What is seen under a name: what stands under the locale of a localized column, and else what is stored. -/
theorem get?_view_eq (p : Projection) (raw : Fields) (key : String) :
    (p.view raw).get? key =
      match p.locale? key with
      | some locale => seenField raw key locale (raw.get? key)
      | none => raw.get? key := by
  refine get?_foldl (get?_viewColumn raw) (fun column locale locale' left => ?_) p.columns raw key
  unfold seenField
  split <;> rfl

theorem get?_stored {p : Projection} (distinct : (p.columns.map Prod.fst).Nodup) (incoming : Fields)
    (existing : Option Fields) (key : String) :
    (p.stored incoming existing).get? key =
      match Entries.find? key p.columns with
      | some locale => storedField incoming existing key locale
      | none => incoming.get? key :=
  locale?_eq distinct key ▸ p.get?_stored_eq incoming existing key

/-- Whether a column is localized. -/
def isLocalized (p : Projection) (column : String) : Bool := (Entries.find? column p.columns).isSome

/-- A column is localized if it has a locale. -/
theorem isLocalized_eq_isSome (p : Projection) (column : String) :
    p.isLocalized column = (p.locale? column).isSome := by
  rw [Bool.eq_iff_iff, isLocalized, locale?, Entries.isSome_find?_iff, Entries.isSome_find?_iff]
  simp

theorem isLocalized_iff {p : Projection} {column : String} :
    p.isLocalized column = true ↔ ∃ locale, p.locale? column = some locale := by
  rw [isLocalized_eq_isSome, Option.isSome_iff_exists]

/-- How deep a value is nested where it is stored: a localized one stands below its locale. -/
def storedDepth (p : Projection) (column : String) (v : Value) : Nat :=
  if p.isLocalized column then v.depth + 1 else v.depth

/-- Stored fields are nested too deep because of what came in, and not because of what was there before. -/
theorem depth_stored_le_iff {p : Projection} (distinct : (p.columns.map Prod.fst).Nodup) (incoming : Fields)
    {existing : Option Fields} {n : Nat}
    (before : ∀ fields, existing = some fields → (Value.ofFields fields).depth ≤ n + 2) :
    (Value.ofFields (p.stored incoming existing)).depth ≤ n + 2 ↔
      ∀ column v, incoming.get? column = some v → p.storedDepth column v ≤ n + 1 := by
  rw [Value.depth_ofFields_le_iff]
  constructor
  · intro fits column v found
    have stored := get?_stored distinct incoming existing column
    cases named : Entries.find? column p.columns with
    | none =>
        rw [named, found] at stored
        simpa [storedDepth, isLocalized, named] using fits column v stored
    | some locale =>
        have own := (get?_storedVariants_self incoming existing column locale).trans found
        simp only [named, storedField_of_get? own] at stored
        have below := Value.depth_ofFields_le_iff.mp (fits column _ stored) locale v own
        simp only [storedDepth, isLocalized, named, Option.isSome_some, ↓reduceIte]
        omega
  · intro fits column w found
    rw [get?_stored distinct] at found
    cases named : Entries.find? column p.columns with
    | none =>
        rw [named] at found
        simpa [storedDepth, isLocalized, named] using fits column w found
    | some locale =>
        rw [named] at found
        obtain ⟨-, rfl⟩ := storedField_eq_some.mp found
        refine Value.depth_ofFields_le_iff.mpr fun key v variant => ?_
        rcases get?_storedVariants variant with ⟨-, came⟩ | stayed
        · simpa [storedDepth, isLocalized, named] using fits column v came
        · obtain ⟨fields, vs, held, value, mem⟩ := exists_of_get?_variants stayed
          have above := Value.depth_ofFields_le_iff.mp (before fields held) column _ value
          rw [Value.depth, Nat.add_le_add_iff_right] at above
          exact Value.depthFields_le_iff.mp above _ mem

/-- **What is seen of stored fields is what came in**, whatever was stored before. -/
theorem view_stored (p : Projection) (incoming : Fields) (existing : Option Fields) :
    p.view (p.stored incoming existing) = incoming := by
  refine SortedMap.ext_get? fun column => ?_
  have stored := p.get?_stored_eq incoming existing column
  rw [get?_view_eq]
  cases named : p.locale? column with
  | none => rwa [named] at stored
  | some locale =>
      rw [named] at stored
      exact seenField_of_stored stored

/-! ### Storing over what was stored -/

/-- The variants of a column that was stored. -/
theorem variants_stored {p : Projection} (incoming : Fields) (existing : Option Fields) {column locale : String}
    (named : p.locale? column = some locale) :
    variants (some (p.stored incoming existing)) column = storedVariants incoming existing column locale := by
  simp only [variants, Option.bind_some, get?_stored_eq, named, storedField]
  split
  · rename_i empty
    exact (SortedMap.eq_empty_of_isEmpty empty).symm
  · simp

/-- **What is stored last is all that stays**: fields that are stored over stored ones leave what they would have
left without them. -/
theorem stored_stored (p : Projection) (first second : Fields) (existing : Option Fields) :
    p.stored second (some (p.stored first existing)) = p.stored second existing := by
  refine SortedMap.ext_get? fun column => ?_
  rw [get?_stored_eq, get?_stored_eq]
  cases named : p.locale? column with
  | none => rfl
  | some locale =>
      have same : storedVariants second (some (p.stored first existing)) column locale =
          storedVariants second existing column locale := by
        rw [storedVariants_eq, variants_stored first existing named, storedVariants_eq, SortedMap.assign_assign,
          storedVariants_eq]
      simp only [storedField, same]

/-- Under other locales than the one that decides, a column holds what it held before. -/
theorem get?_variants_stored_of_ne {p : Projection} (incoming : Fields) (existing : Option Fields)
    {column locale key : String} (named : p.locale? column = some locale) (other : key ≠ locale) :
    (variants (some (p.stored incoming existing)) column).get? key = (variants existing column).get? key := by
  rw [variants_stored incoming existing named, get?_storedVariants_of_ne incoming existing column other]

/-- A variant under another locale than the one that decides stays where it is. -/
theorem exists_get?_stored {p : Projection} (incoming : Fields) {existing : Option Fields}
    {column locale key : String} {v : Value} (named : p.locale? column = some locale) (other : key ≠ locale)
    (found : (variants existing column).get? key = some v) :
    ∃ after : Fields, (p.stored incoming existing).get? column = some (.ofFields after) ∧
      after.get? key = some v := by
  have kept := (get?_storedVariants_of_ne incoming existing column other).trans found
  refine ⟨storedVariants incoming existing column locale, ?_, kept⟩
  rw [get?_stored_eq, named]
  exact storedField_of_get? kept

/-- **The laws of localized columns**, for any list of them. What is seen of stored fields is what came in; what is
stored last is all that stays; and of a column that was a mapping, every variant is still there that stands under
another locale than that of the last pair that names the column. -/
theorem stored_shows_absorbs_and_keeps (p : Projection) :
    (∀ incoming existing, p.view (p.stored incoming existing) = incoming) ∧
      (∀ first second existing,
        p.stored second (some (p.stored first existing)) = p.stored second existing) ∧
      ∀ (incoming before : Fields) (front back : List (String × String)) (column locale : String),
        p.columns = front ++ (column, locale) :: back → (∀ later ∈ back, later.1 ≠ column) →
          ∀ held, (before.get? column).bind Value.fields? = some held →
            ∀ key v, key ≠ locale → held.get? key = some v →
              ∃ after : Fields, (p.stored incoming (some before)).get? column = some (.ofFields after) ∧
                after.get? key = some v := by
  refine ⟨p.view_stored, p.stored_stored, ?_⟩
  intro incoming before front back column locale listed last held mapping key v other found
  have was : (variants (some before) column).get? key = some v := by
    simp [variants, mapping, found]
  exact exists_get?_stored incoming (locale?_of_last listed last) other was

/-- A name that is listed in English and then in German: its German is renamed and its English stays. -/
theorem stored_shows_absorbs_and_keeps_name :
    let p : Projection := ⟨[("name", "en"), ("name", "de"), ("note", "en")]⟩
    let names : Fields := .ofList [("de", .string "Rot"), ("en", .string "Red"), ("fr", .string "Rouge")]
    let before : Fields := .ofList [("name", .ofFields names), ("note", .string "warm")]
    let blue : Fields := .ofList [("name", .string "Blau"), ("rank", .number (.whole 1))]
    let green : Fields := .ofList [("note", .string "cold")]
    p.view (p.stored blue (some before)) = blue ∧
      p.stored green (some (p.stored blue (some before))) = p.stored green (some before) ∧
      p.columns = [("name", "en")] ++ ("name", "de") :: [("note", "en")] ∧
      (∀ later ∈ [("note", "en")], later.1 ≠ "name") ∧
      (before.get? "name").bind Value.fields? = some names ∧ "en" ≠ "de" ∧
      names.get? "en" = some (.string "Red") ∧
      ∃ after : Fields, (p.stored blue (some before)).get? "name" = some (.ofFields after) ∧
        after.get? "en" = some (.string "Red") := by
  intro p names before blue green
  obtain ⟨shows, absorbs, keeps⟩ := stored_shows_absorbs_and_keeps p
  have last : ∀ later ∈ [("note", "en")], later.1 ≠ "name" := by decide
  have mapping : (before.get? "name").bind Value.fields? = some names := by decide
  have other : "en" ≠ "de" := by decide
  have english : names.get? "en" = some (.string "Red") := by decide
  have kept := keeps blue before [("name", "en")] [("note", "en")] "name" "de" rfl last
    names mapping "en" _ other english
  exact ⟨shows blue (some before), absorbs blue green (some before), rfl, last, mapping, other, english, kept⟩

/-- Whether a value is a mapping of one locale at least. -/
def HasVariants (v : Value) : Prop := ∃ variants : Fields, variants.isEmpty = false ∧ v = .ofFields variants

/-- A column that is stored as it is seen stays if and only if it is missing or has variants. -/
theorem storedField_view_eq_iff {p : Projection} (raw : Fields) {column locale : String}
    (named : p.locale? column = some locale) :
    storedField (p.view raw) (some raw) column locale = raw.get? column ↔
      ∀ v, raw.get? column = some v → HasVariants v := by
  have seen := p.get?_view_eq raw column
  simp only [named, seenField] at seen
  simp only [storedField, storedVariants_eq, seen, variants, Option.bind_some]
  cases held : raw.get? column with
  | none =>
      have nothing : ((SortedMap.empty : Fields).erase locale).isEmpty = true := rfl
      simp [SortedMap.assign, nothing]
  | some v =>
      cases mapping : v.fields? with
      | none =>
          -- A value that is no mapping would come below the locale, and its mapping has variants.
          have changed : ∀ w : Fields, Value.ofFields w ≠ v := by
            rintro w rfl
            simp at mapping
          have lost : ¬HasVariants v := fun ⟨w, _, same⟩ => changed w same.symm
          simp [mapping, lost, changed]
      | some vs =>
          simp only [mapping, Option.bind_some, Option.getD_some, SortedMap.assign_get?, Option.some.injEq,
            forall_eq']
          constructor
          · intro stays
            split at stays
            · cases stays
            · rename_i filled
              exact ⟨vs, by simpa using filled, (Option.some.inj stays).symm⟩
          · rintro ⟨w, filled, rfl⟩
            obtain rfl : w = vs := by simpa using mapping
            simp [filled]

/-- Whether the localized columns that stored fields have are mappings of one locale at least. -/
def Filled (p : Projection) (raw : Fields) : Prop :=
  ∀ column v, p.isLocalized column = true → raw.get? column = some v → HasVariants v

/-- **To store what is seen changes nothing** if and only if every localized column that is there has variants. -/
theorem stored_view_eq_iff (p : Projection) (raw : Fields) :
    p.stored (p.view raw) (some raw) = raw ↔ p.Filled raw := by
  constructor
  · intro same column v localized held
    obtain ⟨locale, named⟩ := isLocalized_iff.mp localized
    have stored := p.get?_stored_eq (p.view raw) (some raw) column
    rw [same, named] at stored
    exact (storedField_view_eq_iff raw named).mp stored.symm v held
  · intro filled
    refine SortedMap.ext_get? fun column => ?_
    rw [get?_stored_eq]
    cases named : p.locale? column with
    | none =>
        have seen := p.get?_view_eq raw column
        rwa [named] at seen
    | some locale =>
        exact (storedField_view_eq_iff raw named).mpr fun v =>
          filled column v (isLocalized_iff.mpr ⟨locale, named⟩)

/-! ### Several languages -/

/-- Two projections localize the same columns, each of them under another locale. -/
structure Translates (p p' : Projection) : Prop where
  columns : p.columns.map Prod.fst = p'.columns.map Prod.fst
  locales : ∀ column ∈ p.columns, column ∉ p'.columns

/-- Whether the localized columns that stored fields have are mappings. -/
def Nested (p : Projection) (raw : Fields) : Prop :=
  ∀ column v, p.isLocalized column = true → raw.get? column = some v → v.fields?.isSome

/-- What a column that is a mapping shows is its variant under the locale. -/
theorem Nested.get?_view {p : Projection} {raw : Fields} (nested : p.Nested raw) {column locale : String}
    (named : p.locale? column = some locale) :
    (p.view raw).get? column = (variants (some raw) column).get? locale := by
  have mapping := nested column
  simp only [get?_view_eq, named, seenField, variants, Option.bind_some]
  cases held : raw.get? column with
  | none => simp
  | some v =>
      obtain ⟨fields, object⟩ :=
        Option.isSome_iff_exists.mp (mapping v (isLocalized_iff.mpr ⟨locale, named⟩) held)
      simp [object]

/-- What is stored is a mapping in every localized column. -/
theorem nested_stored (p : Projection) (incoming : Fields) (existing : Option Fields) :
    p.Nested (p.stored incoming existing) := by
  intro column v localized held
  obtain ⟨locale, named⟩ := isLocalized_iff.mp localized
  rw [get?_stored_eq, named] at held
  obtain ⟨-, rfl⟩ := storedField_eq_some.mp held
  rfl

namespace Translates

variable {p p' : Projection}

theorem isLocalized_eq (translates : p.Translates p') (column : String) :
    p.isLocalized column = p'.isLocalized column := by
  rw [Bool.eq_iff_iff, isLocalized, isLocalized, Entries.isSome_find?_iff, Entries.isSome_find?_iff,
    translates.columns]

theorem nested_iff (translates : p.Translates p') {raw : Fields} : p.Nested raw ↔ p'.Nested raw := by
  simp only [Nested, translates.isLocalized_eq]

/-- **What is seen under another locale stays**, whatever is stored under the own one. -/
theorem get?_view_stored (translates : p.Translates p') {existing : Option Fields}
    (nested : ∀ raw, existing = some raw → p'.Nested raw) (incoming : Fields) {column : String}
    (localized : p'.isLocalized column = true) :
    (p'.view (p.stored incoming existing)).get? column = existing.bind fun raw => (p'.view raw).get? column := by
  obtain ⟨locale', named'⟩ := isLocalized_iff.mp localized
  obtain ⟨locale, named⟩ := isLocalized_iff.mp ((translates.isLocalized_eq column).trans localized)
  have other : locale' ≠ locale := by
    rintro rfl
    exact translates.locales _ (mem_columns_of_locale? named) (mem_columns_of_locale? named')
  have after : p'.Nested (p.stored incoming existing) := translates.nested_iff.mp (nested_stored p _ _)
  rw [after.get?_view named', get?_variants_stored_of_ne incoming existing named other]
  cases existing with
  | none => simp [variants]
  | some raw => exact ((nested raw rfl).get?_view named').symm

end Translates

/-- The localized columns of a collection have different names. -/
theorem nodup_ofCollection (c : Collection) : ((ofCollection c).columns.map Prod.fst).Nodup := by
  have names : (c.columns.entries.map Prod.fst).Nodup := by
    refine List.Pairwise.map _ (fun a b before same => ?_) c.columns.sorted
    exact String.lt_irrefl _ (same ▸ before)
  have sub : ((ofCollection c).columns.map Prod.fst).Sublist (c.columns.entries.map Prod.fst) := by
    unfold ofCollection Collection.localized
    induction c.columns.entries with
    | nil => exact .slnil
    | cons e es ih =>
        cases locale : e.2.locale with
        | none => simpa [locale] using ih.cons e.1
        | some l => simpa [locale] using ih
  exact names.sublist sub

end Projection

end RecordTree
