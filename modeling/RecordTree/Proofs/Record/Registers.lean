import RecordTree.Proofs.Record.Faults

/-!
# Languages are independent registers

Databases may keep one collection in the same files and read its localized columns under different locales
(`Translations`). Then each of them has these columns for itself: after sets through any of them, in any order, it
shows in a localized column what was last set through itself, and in any other column what was last set at all
(`Sets.registers`).

What a file holds of a record, before it is seen in some language, is the same for all of them (`Target.held`). A set
stores its fields over that (`Target.held_of_put`), and what each database shows then is decided column by column
(`shown_stored`), from which a run follows by induction.
-/

namespace RecordTree

open Program

namespace Projection

/-- Without localized columns fields are stored as they are. -/
theorem stored_of_isIdentity {p : Projection} (identity : p.isIdentity = true) (incoming : Fields)
    (existing : Option Fields) : p.stored incoming existing = incoming := by
  rw [stored, List.isEmpty_iff.mp identity]
  rfl

end Projection

/-! ### What a file holds -/

namespace Target

variable {t t' : Target} {content : Option ByteArray} {fields : Fields} {existing : Option Fields}

/-- The stored fields of the record, if the file holds it. -/
def held (t : Target) (content : Option ByteArray) : Except RecordError (Option Fields) :=
  match t.layout with
  | .single =>
    match content with
    | none => .ok none
    | some content => (t.decodeFields content).map some
  | .shared => (t.decodeRecords content).map fun records => records.get? t.key.id

/-- What is seen is seen of what is held. -/
theorem seen_eq (t : Target) (content : Option ByteArray) :
    t.seen content = (t.held content).map (Option.map t.codec.view) := by
  cases layout : t.layout with
  | single =>
      cases content with
      | none => simp [seen, held, layout, Except.map]
      | some content => cases decodes : t.decodeFields content <;> simp [seen, held, layout, decodes, Except.map]
  | shared => cases decodes : t.decodeRecords content <;> simp [seen, held, layout, decodes, Except.map]

/-- What is held does not depend on the localized columns. -/
theorem held_withProjection (t : Target) (p : Projection) (content : Option ByteArray) :
    ({ t with codec := ⟨t.codec.format, p⟩ } : Target).held content = t.held content := by
  cases content <;> rfl

/-- What is put in a file of one record, given what the file holds. -/
theorem putSingle_set (layout : t.layout = .single) (held : t.held content = .ok existing) :
    t.putSingle .set fields content = .ok (.ofFields (t.codec.stored fields existing)) := by
  cases content with
  | none =>
      simp only [Target.held, layout] at held
      cases held
      rfl
  | some content =>
      simp only [Target.held, layout] at held
      cases decodes : t.decodeFields content with
      | error e => simp [decodes, Except.map] at held
      | ok raw =>
          rw [decodes] at held
          cases held
          cases identity : t.codec.projection.isIdentity with
          | false => simp [putSingle, Codec.mergesOnWrite, identity, decodes]
          | true =>
              simp only [putSingle, Codec.mergesOnWrite, identity, Codec.stored,
                Projection.stored_of_isIdentity identity]
              rfl

/-- **After a set the file holds** the fields, stored over what it held before. -/
theorem held_of_put {e : Edit} (held : t.held content = .ok existing)
    (put : t.put .set fields content = .ok e) (faithful : e.Faithful t.codec.format) :
    t.held (e.content t.codec.format) = .ok (some (t.codec.stored fields existing)) := by
  cases layout : t.layout with
  | single =>
      simp only [Target.put, layout, putSingle_set layout held] at put
      cases put
      simp only [Target.held, layout, Edit.content, decodeFields, Codec.decodeFields_ofFields faithful]
      rfl
  | shared =>
      simp only [Target.held, layout] at held
      simp only [Target.put, layout, putShared] at put
      cases decodes : t.decodeRecords content with
      | error e => simp [decodes, Except.map] at held
      | ok records =>
          rw [decodes] at held put
          cases held
          cases put
          simp only [Target.held, layout, Edit.content, decodeRecords, Codec.decodeRecords_ofRecords faithful]
          exact congrArg Except.ok (SortedMap.get?_insert_self ..)

end Target

/-! ### Databases in several languages -/

variable {ι : Type} {d : ι → Definition} {c : ι → Collection} {key : RecordKey} {t : Target} {s s' : MemoryStore}

/-- Databases have a collection in the same files and with the same localized columns, of which each stands under
another locale in each of them. -/
structure Translations (d : ι → Definition) (id : String) (c : ι → Collection) : Prop where
  collection : ∀ i, (d i).collection? id = some (c i)
  dir : ∀ i j, (c i).dir = (c j).dir
  recordFile : ∀ i j, (c i).recordFile = (c j).recordFile
  translates : ∀ i j, i ≠ j → (Projection.ofCollection (c i)).Translates (.ofCollection (c j))

/-- The same target, seen with the localized columns of a collection. -/
def Target.through (t : Target) (c : Collection) : Target := { t with codec := ⟨t.codec.format, .ofCollection c⟩ }

/-- The layout of a file does not depend on who uses it. -/
theorem resolveLayout_congr {c c' : Collection} {f : RecordFile} {layout : Layout}
    (resolved : resolveLayout c f = .ok layout) : resolveLayout c' f = .ok layout := by
  unfold resolveLayout at resolved ⊢
  split at resolved
  · exact resolved
  · split at resolved
    · cases resolved
    · simp [*]
  · cases resolved

/-- All databases have the same target for a record, but for the locales. -/
theorem Translations.resolve_eq (translations : Translations d key.collection c) {i : ι}
    (resolved : Target.resolve (some (d i)) key = .ok t) (j : ι) :
    Target.resolve (some (d j)) key = .ok (t.through (c j)) := by
  have nonempty := Target.id_ne_empty_of_resolve resolved
  obtain ⟨c', f, collection, file, rfl, path, layout, codec⟩ := Target.resolve_eq_ok resolved
  obtain rfl : c i = c' := by simpa [translations.collection] using collection
  have file' : (c j).recordFile = some f := translations.recordFile i j ▸ file
  have codec' : Codec.ofCollection (c j) f = .ok ⟨t.codec.format, .ofCollection (c j)⟩ := by
    unfold Codec.ofCollection at codec ⊢
    cases format : Format.ofName f.format with
    | error e => simp [format, Except.map] at codec
    | ok format' =>
        simp only [format, Except.map, Except.ok.injEq] at codec ⊢
        rw [← codec]
  have layout' : resolveLayout (c j) f = .ok t.layout := resolveLayout_congr layout
  have moved : t.path = Path.ofRecord (c j).dir f.name t.key.id := by rw [path, translations.dir i j]
  rw [Target.through, moved]
  exact Target.resolve_of_parts t.key (translations.collection j) nonempty file' layout' codec'

/-! ### One set -/

/-- A set that succeeds has stored its fields in the file over what was there, and leaves no fault. -/
theorem held_of_set {d : Option Definition} {author : Option String} {data : Value} {fields : Fields}
    {raw : Option Fields} (resolved : Target.resolve d key = .ok t)
    (held : t.held (s.file? t.path) = .ok raw) (payload : data.fields? = some fields)
    (done : (Invocation.program d ⟨author, .put .set key data⟩).runOn MemoryStore.call s = (.ok .changed, s'))
    (faithful : ∀ w ∈ Invocation.written d s ⟨author, .put .set key data⟩, w.1.decode (w.1.encode w.2) = .ok w.2) :
    s'.faults = [] ∧ t.held (s'.file? t.path) = .ok (some (t.codec.stored fields raw)) := by
  have program := Invocation.program_eq d ⟨author, .put .set key data⟩
  cases planned : Invocation.plan d ⟨author, .put .set key data⟩ with
  | error e =>
      rw [program, planned] at done
      cases done
  | ok p =>
      obtain ⟨resolved', -, fields', payload', decides⟩ := Invocation.plan_eq_ok planned
      obtain rfl : t = p.target := Except.ok.inj (resolved.symm.trans resolved')
      obtain rfl : fields = fields' := Option.some.inj (payload.symm.trans (fields?_of_payload payload'))
      rw [program, planned] at done
      obtain ⟨path, message, edit, accepted, decided, made⟩ := p.runOn_program_of_changed
        (Invocation.decide_none_ne_remove planned) (Invocation.decide_ne_answer_changed planned)
        (congrArg Prod.fst done)
      have after : s' = edit.apply p.target.codec.format path message ((s.revision? path).getD .none)
          s.withoutFaults := (congrArg Prod.snd done).symm.trans made
      rw [← MemoryStore.file?_eq accepted] at decided
      obtain ⟨-, put⟩ := Decision.ofEdit_eq_edit_iff.mp ((decides _).symm.trans decided)
      have reads := Invocation.faithful_of_decide planned decided faithful
      constructor
      · rw [after, Edit.apply_faults]
        rfl
      · rw [after, Edit.file?_apply accepted]
        exact Target.held_of_put held put reads

namespace Projection

/-- What is shown of a column of a record, if there is the record. -/
def shown (p : Projection) (raw : Option Fields) (column : String) : Option Value :=
  raw.bind fun fields => (p.view fields).get? column

/-- **What is shown after a set.** A localized column shows what was set if that was under its own locale, and else
what it showed before; any other column shows what was set. -/
theorem shown_stored [DecidableEq ι] {p : ι → Projection} (translates : ∀ i j, i ≠ j → (p i).Translates (p j))
    {raw : Option Fields} (nested : ∀ i fields, raw = some fields → (p i).Nested fields) (i j : ι) (fields : Fields)
    (column : String) :
    (p j).shown (some ((p i).stored fields raw)) column =
      if (p j).isLocalized column = true → i = j then fields.get? column else (p j).shown raw column := by
  by_cases own : i = j
  · subst own
    simp [shown, view_stored]
  · have other := translates i j own
    cases localized : (p j).isLocalized column with
    | true =>
        simpa [shown, own] using other.get?_view_stored (nested j) fields localized
    | false =>
        have plain : (p j).locale? column = none := by
          simpa [isLocalized_eq_isSome] using localized
        have plain' : (p i).locale? column = none := by
          simpa [isLocalized_eq_isSome] using (other.isLocalized_eq column).trans localized
        simp [shown, get?_view_eq, plain, get?_stored_eq, plain']

/-- What is stored under one of the locales is a mapping for all of them. -/
theorem nested_of_stored [DecidableEq ι] {p : ι → Projection} (translates : ∀ i j, i ≠ j → (p i).Translates (p j))
    (i j : ι) (fields : Fields) (raw : Option Fields) :
    (p j).Nested ((p i).stored fields raw) := by
  have nested := (p i).nested_stored fields raw
  by_cases own : i = j
  · exact own ▸ nested
  · exact (translates i j own).nested_iff.mp nested

end Projection

/-! ### Many sets -/

/-- Sets of a record that succeed one after the other, each through one of the databases, and write documents that
are read back as they are written. -/
inductive Sets (d : ι → Definition) (key : RecordKey) : MemoryStore → List (ι × Fields) → MemoryStore → Prop
  | nil (s : MemoryStore) : Sets d key s [] s
  | cons {s s' s'' : MemoryStore} {fields : Fields} {rest : List (ι × Fields)} (i : ι) (author : Option String)
      (data : Value) (payload : data.fields? = some fields)
      (done : (Invocation.program (some (d i)) ⟨author, .put .set key data⟩).runOn MemoryStore.call s =
        (.ok .changed, s'))
      (faithful : ∀ w ∈ Invocation.written (some (d i)) s ⟨author, .put .set key data⟩,
        w.1.decode (w.1.encode w.2) = .ok w.2)
      (after : Sets d key s' rest s'') : Sets d key s ((i, fields) :: rest) s''

/-- The fields of the last set that counts. -/
def lastOf (counts : ι → Prop) [DecidablePred counts] (updates : List (ι × Fields)) : Option Fields :=
  (updates.filter fun u => counts u.1).getLast?.map Prod.snd

theorem lastOf_cons (counts : ι → Prop) [DecidablePred counts] (i : ι) (fields : Fields)
    (rest : List (ι × Fields)) :
    lastOf counts ((i, fields) :: rest) = (lastOf counts rest).or (if counts i then some fields else none) := by
  unfold lastOf
  by_cases own : counts i
  · simp only [own, List.filter_cons, decide_true, ↓reduceIte, List.getLast?_cons, Option.map_some]
    cases (rest.filter fun u => counts u.1).getLast? <;> rfl
  · simp [own]

theorem lastOf_congr {counts counts' : ι → Prop} [DecidablePred counts] [DecidablePred counts']
    (same : ∀ i, counts i ↔ counts' i) (updates : List (ι × Fields)) :
    lastOf counts updates = lastOf counts' updates := by
  simp only [lastOf, same]

/-- If all sets count, the last one does. -/
theorem lastOf_of_forall {counts : ι → Prop} [DecidablePred counts] (all : ∀ i, counts i)
    {updates : List (ι × Fields)} (changed : updates ≠ []) :
    lastOf counts updates = some (updates.getLast changed).2 := by
  have whole : (updates.filter fun u => counts u.1) = updates := List.filter_eq_self.mpr (by simp [all])
  rw [lastOf, whole, List.getLast?_eq_some_getLast changed]
  rfl

section Run

variable [DecidableEq ι] {updates : List (ι × Fields)} {raw : Option Fields}

omit [DecidableEq ι] in
/-- The record that was set has a file. -/
theorem Sets.exists_target (sets : Sets d key s updates s') (changed : updates ≠ []) :
    ∃ i t path, Target.resolve (some (d i)) key = .ok t ∧ storePath t.path = .ok path := by
  cases sets with
  | nil => exact absurd rfl changed
  | cons i author data payload done faithful after =>
      obtain ⟨-, t, path, -, -, resolved, accepted, -⟩ := Invocation.changedBy_of_changed (congrArg Prod.fst done)
      exact ⟨i, t, path, resolved, accepted⟩

/-- **What sets leave behind.** The file holds fields of the record of which each database shows in a column what
the last set that counts for it has put there: any set if the column is not localized, and else one of its own. -/
theorem Sets.exists_held (sets : Sets d key s updates s') (translations : Translations d key.collection c)
    (resolved : ∀ i, Target.resolve (some (d i)) key = .ok (t.through (c i)))
    (held : t.held (s.file? t.path) = .ok raw)
    (nested : ∀ i fields, raw = some fields → (Projection.ofCollection (c i)).Nested fields) :
    ∃ raw', t.held (s'.file? t.path) = .ok raw' ∧
      (updates ≠ [] ∨ s.faults = [] ∧ raw.isSome → s'.faults = [] ∧ raw'.isSome) ∧
      ∀ i column, (Projection.ofCollection (c i)).shown raw' column =
        match lastOf (fun j => (Projection.ofCollection (c i)).isLocalized column = true → j = i) updates with
        | some fields => fields.get? column
        | none => (Projection.ofCollection (c i)).shown raw column := by
  induction sets generalizing raw with
  | nil s => exact ⟨raw, held, fun ready => ready.resolve_left fun h => h rfl, fun i column => rfl⟩
  | @cons s s' s'' fields rest i author data payload done faithful after ih =>
      have heldThrough : (t.through (c i)).held (s.file? t.path) = .ok raw :=
        (t.held_withProjection _ _).trans held
      obtain ⟨faultless, stored⟩ := held_of_set (resolved i) heldThrough payload done faithful
      obtain ⟨raw', held', ready, shown⟩ := ih ((t.held_withProjection _ _).symm.trans stored) fun j fields' same =>
        Option.some.inj same ▸ Projection.nested_of_stored translations.translates i j fields raw
      refine ⟨raw', held', fun _ => ready (.inr ⟨faultless, rfl⟩), fun j column => ?_⟩
      have step := Projection.shown_stored translations.translates nested i j fields column
      rw [shown j column, lastOf_cons]
      cases lastOf (fun k => (Projection.ofCollection (c j)).isLocalized column = true → k = j) rest with
      | some last => rfl
      | none =>
          refine step.trans ?_
          split <;> rfl

/-- **The databases are independent registers.** After sets through any of them, in any order, each one shows the
record: in a localized column what was set last through this database, or what it has shown before if there is no
such set, and in any other column what was set last through any of them. -/
theorem Sets.registers (sets : Sets d key s updates s') (changed : updates ≠ [])
    (translations : Translations d key.collection c)
    (nested : ∀ i t, Target.resolve (some (d i)) key = .ok t →
      ∃ raw, t.held (s.file? t.path) = .ok raw ∧ ∀ fields, raw = some fields → t.codec.projection.Nested fields)
    (i : ι) :
    ∃ before shown, s.got (some (d i)) key = .ok before ∧
      (∀ author, ((⟨some (d i), author⟩ : Session).get key).runOn MemoryStore.call s' = (.ok (some shown), s')) ∧
      (∀ column, (Projection.ofCollection (c i)).isLocalized column = true → shown.get? column =
        match lastOf (· = i) updates with
        | some fields => fields.get? column
        | none => before.bind (·.get? column)) ∧
      ∀ column, (Projection.ofCollection (c i)).isLocalized column = false →
        shown.get? column = (updates.getLast changed).2.get? column := by
  obtain ⟨i₀, t₀, path, resolved₀, accepted⟩ := sets.exists_target changed
  have resolved := translations.resolve_eq resolved₀
  obtain ⟨raw, held₀, -⟩ := nested i₀ t₀ resolved₀
  have mappings : ∀ j fields, raw = some fields → (Projection.ofCollection (c j)).Nested fields := by
    intro j
    obtain ⟨raw', held', nested'⟩ := nested j _ (resolved j)
    obtain rfl : raw' = raw := Except.ok.inj (held'.symm.trans ((t₀.held_withProjection _ _).trans held₀))
    exact nested'
  obtain ⟨raw', held', ready, shown⟩ := sets.exists_held translations resolved held₀ mappings
  obtain ⟨faultless, present⟩ := ready (.inl changed)
  obtain ⟨fields, rfl⟩ := Option.isSome_iff_exists.mp present
  have through : ∀ content, (t₀.through (c i)).seen content =
      (t₀.held content).map (Option.map (Projection.ofCollection (c i)).view) :=
    fun content => ((t₀.through (c i)).seen_eq content).trans (congrArg _ (t₀.held_withProjection _ _))
  refine ⟨raw.map (Projection.ofCollection (c i)).view, (Projection.ofCollection (c i)).view fields, ?_, ?_, ?_, ?_⟩
  · rw [got_eq s (resolved i)]
    rw [MemoryStore.file?_eq accepted] at held₀
    simp only [show storePath (t₀.through (c i)).path = .ok path from accepted, through, held₀]
    rfl
  · intro author
    rw [runOn_get faultless author (resolved i) accepted, through]
    exact congrArg (fun seen => (seen, s')) (congrArg _ held')
  · intro column localized
    have counts : ∀ j, ((Projection.ofCollection (c i)).isLocalized column = true → j = i) ↔ j = i := by
      simp [localized]
    rw [Option.bind_map, ← lastOf_congr counts]
    exact shown i column
  · intro column plain
    have any := shown i column
    rw [lastOf_of_forall (fun j => by simp [plain]) changed] at any
    exact any

end Run

/-- A record in a file of its own that can be read may be set through any database, and sets may follow. -/
theorem Sets.exists_cons {i : ι} {path : String} {raw : Option Fields} (faultless : s.faults = [])
    (resolved : Target.resolve (some (d i)) key = .ok t) (layout : t.layout = .single)
    (accepted : storePath t.path = .ok path) (held : t.held (s.file? t.path) = .ok raw) (fields : Fields)
    (faithful : t.codec.format.decode (t.codec.encodeFields (t.codec.stored fields raw)) =
      .ok (.ofFields (t.codec.stored fields raw))) :
    ∃ s', s'.faults = [] ∧ t.held (s'.file? t.path) = .ok (some (t.codec.stored fields raw)) ∧
      ∀ rest s'', Sets d key s' rest s'' → Sets d key s ((i, fields) :: rest) s'' := by
  have payload := Value.fields?_ofFields fields
  let invocation : Invocation := ⟨none, .put .set key (.ofFields fields)⟩
  have planned : invocation.plan (some (d i)) = _ := Invocation.plan_put resolved none .set fields
  have put : t.put .set fields (s.file? t.path) = .ok (.write (.ofFields (t.codec.stored fields raw))) := by
    simp [Target.put, layout, Target.putSingle_set layout held, Except.map]
  have done := invocation.runOn_program faultless planned accepted
  simp only [put, Decision.ofEdit] at done
  have reads : ∀ w ∈ invocation.written (some (d i)) s, w.1.decode (w.1.encode w.2) = .ok w.2 := by
    simpa [Invocation.written, planned, put, Decision.ofEdit, Codec.encodeFields] using faithful
  obtain ⟨unfaulted, stored⟩ := held_of_set resolved held payload done reads
  exact ⟨_, unfaulted, stored, fun rest s'' after => .cons i none _ payload done reads after⟩

/-! ### A tag with three names -/

/-- The collection of tags, whose names stand under a locale. -/
def namedTags (locale : String) : Collection :=
  ⟨"tags", "tags", some ⟨Path.placeholder ++ ".json", "json", .single⟩,
    .insert .empty "name" ⟨.string, some locale⟩⟩

/-- The tags, read in a language. -/
def tagsIn (locale : String) : Definition := .add .empty (namedTags locale)

/-- A tag has a Russian name. -/
def russianTag : MemoryStore :=
  MemoryStore.empty.seed "tags/a.json" "\x7b\"name\": \x7b\"ru\": \"Krasny\"\x7d\x7d".toUTF8

/-- What its file holds. -/
def russianName : Fields := .ofList [("name", .object [("ru", .string "Krasny")])]

/-- The tag is given an English name and a German one, and the English one is taken back. -/
def renamings : List (String × Fields) :=
  [("en", .ofList [("n", .number (.whole 1)), ("name", .string "Red")]), ("de", .ofList [("name", .string "Rot")]),
    ("en", .empty)]

/-- The file of the tag in a language. -/
def tagTarget (locale : String) : Target :=
  ⟨⟨"tags", "a"⟩, "tags/a.json", .single, ⟨.json, .ofCollection (namedTags locale)⟩⟩

/-- All languages read the tags in the same files. -/
theorem translations_tagsIn : Translations tagsIn "tags" namedTags := by
  have columns : ∀ locale, (Projection.ofCollection (namedTags locale)).columns = [("name", locale)] := fun _ => rfl
  refine ⟨fun _ => rfl, fun _ _ => rfl, fun _ _ => rfl, fun i j other => ⟨?_, ?_⟩⟩
  · rw [columns, columns]
    rfl
  · rw [columns, columns]
    simpa using other

theorem resolve_tagsIn (locale : String) :
    Target.resolve (some (tagsIn locale)) ⟨"tags", "a"⟩ = .ok (tagTarget locale) := by
  have english : Target.resolve (some (tagsIn "en")) ⟨"tags", "a"⟩ = .ok (tagTarget "en") := by decide
  exact translations_tagsIn.resolve_eq english locale

theorem held_russianTag (locale : String) :
    (tagTarget locale).held (russianTag.file? "tags/a.json") = .ok (some russianName) := by
  have english : (tagTarget "en").held (russianTag.file? "tags/a.json") = .ok (some russianName) := by decide +kernel
  exact english

/-- Each of the three sets succeeds. -/
theorem exists_sets_renamings : ∃ s', Sets tagsIn ⟨"tags", "a"⟩ russianTag renamings s' := by
  have accepted : storePath "tags/a.json" = .ok "tags/a.json" := by decide
  obtain ⟨s₁, faultless₁, held₁, first⟩ := Sets.exists_cons rfl (resolve_tagsIn "en") rfl accepted
    (held_russianTag "en") (.ofList [("n", .number (.whole 1)), ("name", .string "Red")]) (by decide +kernel)
  obtain ⟨s₂, faultless₂, held₂, second⟩ := Sets.exists_cons faultless₁ (resolve_tagsIn "de") rfl accepted held₁
    (.ofList [("name", .string "Rot")]) (by decide +kernel)
  obtain ⟨s₃, -, -, third⟩ := Sets.exists_cons faultless₂ (resolve_tagsIn "en") rfl accepted held₂ .empty
    (by decide +kernel)
  exact ⟨s₃, first _ _ (second _ _ (third _ _ (.nil s₃)))⟩

/-- At first the file holds the Russian name, which is a mapping. -/
theorem nested_russianTag (locale : String) (t : Target)
    (resolved : Target.resolve (some (tagsIn locale)) ⟨"tags", "a"⟩ = .ok t) :
    ∃ raw, t.held (russianTag.file? t.path) = .ok raw ∧
      ∀ fields, raw = some fields → t.codec.projection.Nested fields := by
  obtain rfl := Except.ok.inj (resolved.symm.trans (resolve_tagsIn locale))
  refine ⟨some russianName, held_russianTag locale, ?_⟩
  rintro fields ⟨⟩ column v - found
  obtain ⟨rfl, rfl⟩ := Prod.mk.inj (List.mem_singleton.mp (SortedMap.mem_of_get?_ofList found))
  rfl

/-- Every language shows its own name, or none. -/
theorem registers_tagsIn :
    ∃ s', Sets tagsIn ⟨"tags", "a"⟩ russianTag renamings s' ∧ ∀ locale, ∃ shown,
      (∀ author, ((⟨some (tagsIn locale), author⟩ : Session).get ⟨"tags", "a"⟩).runOn MemoryStore.call s' =
        (.ok (some shown), s')) ∧
        (locale = "de" → shown.get? "name" = some (.string "Rot")) ∧
          (locale = "en" → shown.get? "name" = none) ∧
            (locale = "ru" → shown.get? "name" = some (.string "Krasny")) ∧ shown.get? "n" = none := by
  obtain ⟨s', sets⟩ := exists_sets_renamings
  refine ⟨s', sets, fun locale => ?_⟩
  obtain ⟨before, shown, got, gets, localized, plain⟩ :=
    sets.registers (by simp [renamings]) translations_tagsIn nested_russianTag locale
  have named : (Projection.ofCollection (namedTags locale)).isLocalized "name" = true := rfl
  refine ⟨shown, gets, ?_, ?_, ?_, plain "n" rfl⟩
  · rintro rfl
    exact localized "name" named
  · rintro rfl
    exact localized "name" named
  · rintro rfl
    have initial : russianTag.got (some (tagsIn "ru")) ⟨"tags", "a"⟩ =
        .ok (some (.ofList [("name", .string "Krasny")])) := by
      decide +kernel
    obtain rfl := Except.ok.inj (got.symm.trans initial)
    exact localized "name" named

end RecordTree
