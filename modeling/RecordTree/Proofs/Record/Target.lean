import RecordTree.Proofs.Locale
import RecordTree.Proofs.Path.Template
import RecordTree.Record.Target
import Mathlib.Tactic.Common

/-!
# What changes do to records

A put makes its record the given fields, and a deletion takes its record away. In a shared file that is all
they do: whatever else was seen in the file is seen after the edit (`Target.Becomes`), as long as the document
is read back as it was written (`Edit.Faithful`).
-/

namespace RecordTree

/-! ### Files that are read back -/

namespace Codec

variable {c : Codec}

theorem decodeFields_ofFields {fields : Fields}
    (faithful : c.format.decode (c.format.encode (.ofFields fields)) = .ok (.ofFields fields)) :
    c.decodeFields (c.format.encode (.ofFields fields)) = .ok fields := by
  rw [decodeFields, faithful]
  exact congrArg Except.ok (SortedMap.ofList_entries fields)

theorem decodeRecords_ofRecords {records : RecordMap}
    (faithful : c.format.decode (c.format.encode (.ofRecords records)) = .ok (.ofRecords records)) :
    c.decodeRecords (c.format.encode (.ofRecords records)) = .ok records := by
  have root : expectMapping "document root" (.ofRecords records) =
      .ok (records.map Value.ofFields) :=
    congrArg Except.ok (SortedMap.ofList_entries (records.map Value.ofFields))
  rw [decodeRecords, faithful]
  simp only [bind, Except.bind, root]
  refine SortedMap.mapM_map (fun id fields => ?_) records
  exact congrArg Except.ok (SortedMap.ofList_entries fields)

end Codec

namespace Edit

/-- What the file holds after an edit. -/
def content (f : Format) : Edit → Option ByteArray
  | write document => some (f.encode document)
  | remove => none

/-- Whether the document is read back as it is written. -/
def Faithful (f : Format) : Edit → Prop
  | write document => f.decode (f.encode document) = .ok document
  | remove => True

end Edit

/-! ### Collections and their files -/

section Collections

variable {d : Option Definition} {key : RecordKey} {c : Collection} {f : RecordFile}

theorem resolveCollection_of_unknown {definition : Definition}
    (unknown : definition.collection? key.collection = none) :
    resolveCollection (some definition) key = .error (.unknownCollection key.collection) := by
  simp only [resolveCollection, unknown]
  rfl

theorem resolveCollection_of_found (found : d.bind (·.collection? key.collection) = some c) :
    resolveCollection d key = if key.id = "" then .error (.emptyId key) else .ok c := by
  obtain ⟨definition, rfl, known⟩ := Option.bind_eq_some_iff.mp found
  simp only [resolveCollection, known, String.isEmpty_iff]
  split_ifs <;> rfl

/-- A key is resolved to its collection, if it has an id. -/
theorem resolveCollection_eq_ok_iff :
    resolveCollection d key = .ok c ↔ d.bind (·.collection? key.collection) = some c ∧ key.id ≠ "" := by
  constructor
  · intro resolved
    cases d with
    | none => cases resolved
    | some definition =>
        cases known : definition.collection? key.collection with
        | none =>
            rw [resolveCollection_of_unknown known] at resolved
            cases resolved
        | some c' =>
            rw [resolveCollection_of_found (Option.bind_eq_some_iff.mpr ⟨definition, rfl, known⟩)] at resolved
            split_ifs at resolved with empty
            cases resolved
            exact ⟨known, empty⟩
  · rintro ⟨found, given⟩
    rw [resolveCollection_of_found found, if_neg given]

theorem requireRecordFile_eq_ok_iff : requireRecordFile c = .ok f ↔ c.recordFile = some f := by
  rw [requireRecordFile]
  cases c.recordFile <;> simp

end Collections

namespace Target

/-! ### Where targets come from -/

theorem exists_of_bind_eq_ok {ε α β : Type} {x : Except ε α} {f : α → Except ε β} {b : β}
    (done : (x >>= f) = .ok b) : ∃ a, x = .ok a ∧ f a = .ok b := by
  cases x with
  | error e => cases done
  | ok a => exact ⟨a, rfl, done⟩

theorem error_or_of_bind_eq_error {ε α β : Type} {x : Except ε α} {g : α → Except ε β} {e : ε}
    (failed : (x >>= g) = .error e) : x = .error e ∨ ∃ a, x = .ok a ∧ g a = .error e := by
  cases x with
  | error e' =>
      cases failed
      exact .inl rfl
  | ok a => exact .inr ⟨a, rfl, failed⟩

section Resolution

variable {d : Option Definition} {key : RecordKey} {t : Target}

/-- What a resolved target is made of. -/
theorem resolve_eq_ok (resolved : resolve d key = .ok t) :
    ∃ c f, d.bind (·.collection? key.collection) = some c ∧ c.recordFile = some f ∧ t.key = key ∧
      t.path = Path.ofRecord c.dir f.name key.id ∧ resolveLayout c f = .ok t.layout ∧
      Codec.ofCollection c f = .ok t.codec := by
  obtain ⟨c, collection, resolved⟩ := exists_of_bind_eq_ok resolved
  obtain ⟨f, file, resolved⟩ := exists_of_bind_eq_ok resolved
  obtain ⟨layout, layoutOf, resolved⟩ := exists_of_bind_eq_ok resolved
  obtain ⟨codec, codecOf, resolved⟩ := exists_of_bind_eq_ok resolved
  cases resolved
  refine ⟨c, f, (resolveCollection_eq_ok_iff.mp collection).1, requireRecordFile_eq_ok_iff.mp file, rfl, rfl,
    layoutOf, ?_⟩
  cases found : Codec.ofCollection c f with
  | error e => simp [found, Except.mapError] at codecOf
  | ok codec' => simpa [found, Except.mapError] using codecOf

/-- Only a key with an id has a target. -/
theorem id_ne_empty_of_resolve (resolved : resolve d key = .ok t) : key.id ≠ "" := by
  obtain ⟨c, collection, -⟩ := exists_of_bind_eq_ok resolved
  exact (resolveCollection_eq_ok_iff.mp collection).2

/-- The target that a collection makes of a key. -/
theorem resolve_of_parts (key : RecordKey) {c : Collection} {f : RecordFile} {layout : Layout} {codec : Codec}
    (collection : d.bind (·.collection? key.collection) = some c) (nonempty : key.id ≠ "")
    (file : c.recordFile = some f) (layoutOf : resolveLayout c f = .ok layout)
    (codecOf : Codec.ofCollection c f = .ok codec) :
    resolve d key = .ok ⟨key, Path.ofRecord c.dir f.name key.id, layout, codec⟩ := by
  simp only [resolve, resolveCollection_eq_ok_iff.mpr ⟨collection, nonempty⟩, requireRecordFile_eq_ok_iff.mpr file,
    layoutOf, codecOf, bind, Except.bind]
  rfl

theorem key_of_resolve (resolved : resolve d key = .ok t) : t.key = key := by
  obtain ⟨c, f, -, -, same, -⟩ := resolve_eq_ok resolved
  exact same

/-- Localized columns have different names. -/
theorem nodup_columns (resolved : resolve d key = .ok t) :
    (t.codec.projection.columns.map Prod.fst).Nodup := by
  obtain ⟨c, f, -, -, -, -, -, codec⟩ := resolve_eq_ok resolved
  cases format : Format.ofName f.format with
  | error e => simp [Codec.ofCollection, format, Except.map] at codec
  | ok format' =>
      simp only [Codec.ofCollection, format, Except.map, Except.ok.injEq] at codec
      exact codec ▸ Projection.nodup_ofCollection c

/-- Within a collection, targets have one layout and one codec. -/
theorem resolve_congr {key' : RecordKey} {t' : Target} (resolved : resolve d key = .ok t)
    (resolved' : resolve d key' = .ok t') (same : key.collection = key'.collection) :
    t.layout = t'.layout ∧ t.codec = t'.codec := by
  obtain ⟨c, f, collection, file, -, -, layout, codec⟩ := resolve_eq_ok resolved
  obtain ⟨c', f', collection', file', -, -, layout', codec'⟩ := resolve_eq_ok resolved'
  obtain rfl : c = c' := by simpa [← same, collection] using collection'
  obtain rfl : f = f' := by simpa [file] using file'
  exact ⟨by simpa [layout] using layout', by simpa [codec] using codec'⟩

/-- All records of a collection with a shared file lie in that file. -/
theorem resolve_of_shared (resolved : resolve d key = .ok t) (layout : t.layout = .shared) {id : String}
    (nonempty : id ≠ "") :
    resolve d ⟨key.collection, id⟩ = .ok { t with key := ⟨key.collection, id⟩ } := by
  obtain ⟨c, f, collection, file, -, path, layoutOf, codec⟩ := resolve_eq_ok resolved
  have plain : f.isKeyed = false := by
    rw [layout, resolveLayout] at layoutOf
    split at layoutOf <;> simp_all
  have same : Path.ofRecord c.dir f.name id = t.path := by
    rw [path, Path.ofRecord, Path.ofRecord, Path.fill_of_not_hasPlaceholder plain,
      Path.fill_of_not_hasPlaceholder plain]
  rw [resolve_of_parts ⟨key.collection, id⟩ collection nonempty file layoutOf codec, same]

end Resolution

variable {t : Target} {content : Option ByteArray}

/-! ### Records that are seen -/

theorem seen_none (t : Target) : t.seen none = .ok none := by
  unfold seen
  cases t.layout <;> rfl

/-- The records in a file are those that its codec reads. -/
theorem decodeRecords_eq_ok {content : ByteArray} {records : RecordMap} :
    t.decodeRecords (some content) = .ok records ↔ t.codec.decodeRecords content = .ok records := by
  rw [decodeRecords]
  cases t.codec.decodeRecords content <;> simp [Except.mapError]

/-- The records in a file depend on the codec alone. -/
theorem decodeRecords_congr {t' : Target} (codec : t'.codec = t.codec) {records : RecordMap}
    (decodes : t'.decodeRecords content = .ok records) : t.decodeRecords content = .ok records := by
  cases content with
  | none => exact decodes
  | some content =>
      rw [decodeRecords_eq_ok, codec] at decodes
      exact decodeRecords_eq_ok.mpr decodes

/-- A file that holds one record shows it if it can be read. -/
theorem seen_eq_ok_of_single (layout : t.layout = .single) {content : ByteArray} {x : Option Fields} :
    t.seen (some content) = .ok x ↔
      ∃ raw, t.decodeFields content = .ok raw ∧ x = some (t.codec.view raw) := by
  simp only [seen, layout]
  cases t.decodeFields content <;> simp [Except.map, eq_comm]

/-- In a shared file a record is seen if its records can be read and the id is among them. -/
theorem seen_eq_ok_of_shared (layout : t.layout = .shared) {x : Option Fields} :
    t.seen content = .ok x ↔
      ∃ records, t.decodeRecords content = .ok records ∧ x = (records.get? t.key.id).map t.codec.view := by
  simp only [seen, layout]
  cases t.decodeRecords content <;> simp [Except.map, eq_comm]

/-- Whether a content can be read as a file of the target. -/
def decodes (t : Target) (content : ByteArray) : Bool :=
  match t.layout with
  | .single => (t.codec.decodeFields content).isOk
  | .shared => (t.codec.decodeRecords content).isOk

/-- In a file that can be read every record is seen, or seen to be missing. -/
theorem exists_seen_of_decodes {content : ByteArray} (decodes : t.decodes content = true) :
    ∃ x, t.seen (some content) = .ok x := by
  unfold Target.decodes at decodes
  cases layout : t.layout with
  | single =>
      rw [layout] at decodes
      cases read : t.codec.decodeFields content with
      | error e => simp [read, Except.isOk, Except.toBool] at decodes
      | ok raw =>
          exact ⟨_, (seen_eq_ok_of_single layout).mpr ⟨raw, by simp [decodeFields, read, Except.mapError], rfl⟩⟩
  | shared =>
      rw [layout] at decodes
      cases read : t.codec.decodeRecords content with
      | error e => simp [read, Except.isOk, Except.toBool] at decodes
      | ok records =>
          exact ⟨_, (seen_eq_ok_of_shared layout).mpr
            ⟨records, by simp [decodeRecords, read, Except.mapError], rfl⟩⟩

/-! ### Records that are changed -/

/-- What is seen of the record after its file has changed; in a shared file, all else is seen as before. -/
structure Becomes (t : Target) (before after : Option ByteArray) (x : Option Fields) : Prop where
  own : t.seen after = .ok x
  others : ∀ t' : Target, t.layout = .shared → t'.layout = .shared → t'.codec = t.codec →
    t'.key.id ≠ t.key.id → ∀ x', t'.seen before = .ok x' → t'.seen after = .ok x'

/-- A file of its own becomes what is seen in it. -/
theorem becomes_of_single (layout : t.layout = .single) {after : Option ByteArray} {x : Option Fields}
    (own : t.seen after = .ok x) : t.Becomes content after x :=
  ⟨own, fun _ shared => by simp [layout] at shared⟩

/-- A shared file in which one id was changed. -/
theorem becomes_ofRecords (layout : t.layout = .shared) {before after : RecordMap} {x : Option Fields}
    (decodes : t.decodeRecords content = .ok before)
    (own : (after.get? t.key.id).map t.codec.view = x)
    (others : ∀ id, id ≠ t.key.id → after.get? id = before.get? id)
    (faithful : (Edit.write (.ofRecords after)).Faithful t.codec.format) :
    t.Becomes content ((Edit.write (.ofRecords after)).content t.codec.format) x := by
  have read : ∀ t' : Target, t'.codec = t.codec →
      t'.decodeRecords ((Edit.write (.ofRecords after)).content t.codec.format) = .ok after := by
    intro t' codec
    rw [Edit.content, decodeRecords, codec, Codec.decodeRecords_ofRecords faithful]
    rfl
  refine ⟨(seen_eq_ok_of_shared layout).mpr ⟨after, read t rfl, own.symm⟩, ?_⟩
  intro t' _ layout' codec id x' seen
  obtain ⟨records, decodes', rfl⟩ := (seen_eq_ok_of_shared layout').mp seen
  obtain rfl : records = before := by simpa [decodes] using (decodeRecords_congr codec decodes').symm
  exact (seen_eq_ok_of_shared layout').mpr ⟨after, read t' codec, by rw [others _ id]⟩

/-- A record that is there is not inserted. -/
theorem put_insert_of_present {x : Fields} (seen : t.seen content = .ok (some x)) (fields : Fields) :
    t.put .insert fields content = .error (.alreadyExists t.key) := by
  cases layout : t.layout with
  | single =>
      cases content with
      | none => simp [seen_none] at seen
      | some content =>
          simp only [put, layout, putSingle, Option.isSome_some, and_self, ↓reduceIte]
          rfl
  | shared =>
      obtain ⟨records, decodes, present⟩ := (seen_eq_ok_of_shared layout).mp seen
      have there : (records.get? t.key.id).isSome := by
        simpa using congrArg Option.isSome present.symm
      simp only [put, layout, putShared, decodes, bind, Except.bind, there, and_self, ↓reduceIte]
      rfl

/-- **A record that may be put** becomes the given fields. -/
theorem put_of_vacant {x : Option Fields} (seen : t.seen content = .ok x) {mode : PutMode}
    (vacant : ¬(mode = .insert ∧ x.isSome)) (fields : Fields) :
    ∃ e, t.put mode fields content = .ok e ∧
      (e.Faithful t.codec.format → t.Becomes content (e.content t.codec.format) (some fields)) := by
  have view : ∀ existing, t.codec.view (t.codec.stored fields existing) = fields :=
    t.codec.projection.view_stored fields
  cases layout : t.layout with
  | single =>
      have put : ∃ existing, t.putSingle mode fields content = .ok (.ofFields (t.codec.stored fields existing)) := by
        cases content with
        | none => exact ⟨none, by simp [putSingle]; rfl⟩
        | some content =>
            obtain ⟨raw, decodes, rfl⟩ := (seen_eq_ok_of_single layout).mp seen
            cases merges : t.codec.mergesOnWrite with
            | true => exact ⟨some raw, by simp_all [putSingle]⟩
            | false => exact ⟨none, by simp_all [putSingle]; rfl⟩
      obtain ⟨existing, document⟩ := put
      refine ⟨.write (.ofFields (t.codec.stored fields existing)), ?_, fun faithful => ?_⟩
      · simp only [Target.put, layout, document, Except.map]
      · refine becomes_of_single layout ((seen_eq_ok_of_single layout).mpr
          ⟨t.codec.stored fields existing, ?_, by rw [view existing]⟩)
        rw [decodeFields, Codec.decodeFields_ofFields faithful]
        rfl
  | shared =>
      obtain ⟨records, decodes, rfl⟩ := (seen_eq_ok_of_shared layout).mp seen
      rw [Option.isSome_map] at vacant
      refine ⟨.write (.ofRecords (records.insert t.key.id (t.codec.stored fields (records.get? t.key.id)))),
        ?_, ?_⟩
      · simp only [put, layout, putShared, decodes, bind, Except.bind, vacant, ↓reduceIte]
        rfl
      · refine becomes_ofRecords layout decodes ?_ fun id other => SortedMap.get?_insert_of_ne _ other _
        rw [SortedMap.get?_insert_self, Option.map_some, view]

/-- A record that is missing is not deleted. -/
theorem removed_of_missing (seen : t.seen content = .ok none) :
    t.removed content = .error (.notFound t.key) := by
  cases content with
  | none => rfl
  | some content =>
      cases layout : t.layout with
      | single =>
          obtain ⟨raw, -, missing⟩ := (seen_eq_ok_of_single layout).mp seen
          cases missing
      | shared =>
          obtain ⟨records, decodes, missing⟩ := (seen_eq_ok_of_shared layout).mp seen
          have absent : (records.get? t.key.id).isNone := by
            simpa using congrArg Option.isNone missing.symm
          simp only [removed, layout, decodes, bind, Except.bind, absent, ↓reduceIte]
          rfl

/-- **A record that is there is deleted**, and with it its file if that is its own. -/
theorem removed_of_present {x : Fields} (seen : t.seen content = .ok (some x)) :
    ∃ e, t.removed content = .ok e ∧
      (e.Faithful t.codec.format → t.Becomes content (e.content t.codec.format) none) := by
  cases content with
  | none => simp [seen_none] at seen
  | some content =>
      cases layout : t.layout with
      | single =>
          exact ⟨.remove, by simp only [removed, layout], fun _ => becomes_of_single layout t.seen_none⟩
      | shared =>
          obtain ⟨records, decodes, present⟩ := (seen_eq_ok_of_shared layout).mp seen
          have there : (records.get? t.key.id).isNone = false := by
            simpa using congrArg Option.isNone present.symm
          refine ⟨.write (.ofRecords (records.erase t.key.id)), ?_, ?_⟩
          · simp only [removed, layout, decodes, bind, Except.bind, there, Bool.false_eq_true, ↓reduceIte]
            rfl
          · refine becomes_ofRecords layout decodes ?_ fun id other => SortedMap.get?_erase_of_ne _ other
            rw [SortedMap.get?_erase_self, Option.map_none]

end Target

end RecordTree
