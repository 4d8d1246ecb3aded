import RecordTree.Proofs.Format
import RecordTree.Proofs.Record.Alone

/-!
# Payloads that are nested too deep

Of a payload it is only asked that it is a mapping. In a shared file it stands below the id of its record, and
a localized value stands below its locale as well, so that a payload that could be read may become a part of a
document that cannot. Then no record of the file can be read any more.

`Target.Fits` is the condition under which that does not happen, and `gets_after_put` says that there is no
other one. What was in the file before plays no role: it was read, so that there is room for it.
-/

namespace RecordTree

open Program

/-! ### Documents of records -/

theorem Value.depth_ofRecords_le_iff {records : RecordMap} {n : Nat} :
    (ofRecords records).depth ≤ n + 1 ↔
      ∀ id fields, records.get? id = some fields → (ofFields fields).depth ≤ n := by
  simp [ofRecords, depth_ofFields_le_iff, SortedMap.get?_map]

theorem Json.regular_ofRecords_iff {kind : Number → Prop} {records : RecordMap} :
    Regular kind (.ofRecords records) ↔
      ∀ id fields, records.get? id = some fields → Regular kind (.ofFields fields) := by
  simp [Value.ofRecords, regular_ofFields_iff, SortedMap.get?_map]

/-- Stored fields are regular if what came in is, and what was there before. -/
theorem Json.regular_stored {kind : Number → Prop} {p : Projection}
    (distinct : (p.columns.map Prod.fst).Nodup) {incoming : Fields} {existing : Option Fields}
    (came : Regular kind (.ofFields incoming))
    (stayed : ∀ fields, existing = some fields → Regular kind (.ofFields fields)) :
    Regular kind (.ofFields (p.stored incoming existing)) := by
  rw [regular_ofFields_iff] at came ⊢
  intro column w found
  rw [Projection.get?_stored distinct] at found
  cases named : Entries.find? column p.columns with
  | none =>
      rw [named] at found
      exact came column w found
  | some locale =>
      rw [named] at found
      obtain ⟨-, rfl⟩ := Projection.storedField_eq_some.mp found
      refine regular_ofFields_iff.mpr fun key v variant => ?_
      rcases Projection.get?_storedVariants variant with ⟨-, value⟩ | before
      · exact came column v value
      · obtain ⟨fields, vs, held, value, mem⟩ := Projection.exists_of_get?_variants before
        exact (regular_ofFields_iff.mp (stayed fields held) column _ value).of_mem mem

namespace Codec

variable {c : Codec} {content : ByteArray} {records : RecordMap}

/-- What is found in an expected mapping stands in it. -/
theorem mem_of_expectMapping {place : String} {v : Value} {fields : Fields}
    (expected : expectMapping place v = .ok fields) {key : String} {w : Value}
    (found : fields.get? key = some w) : ∃ fs, v = .object fs ∧ (key, w) ∈ fs := by
  cases v with
  | null =>
      cases expected
      simp at found
  | object fs =>
      cases expected
      exact ⟨fs, rfl, SortedMap.mem_of_get?_ofList found⟩
  | _ => cases expected

/-- The values of all records stand in one document. -/
theorem exists_document (decoded : c.decodeRecords content = .ok records) :
    ∃ document, c.format.decode content = .ok document ∧
      ∀ id fields, records.get? id = some fields → ∀ column v, fields.get? column = some v →
        ∃ fs gs, document = .object fs ∧ (id, .object gs) ∈ fs ∧ (column, v) ∈ gs := by
  obtain ⟨document, read, decoded⟩ := Target.exists_of_bind_eq_ok decoded
  obtain ⟨root, expected, mapped⟩ := Target.exists_of_bind_eq_ok decoded
  refine ⟨document, read, fun id fields record column v found => ?_⟩
  obtain ⟨w, held, mapping⟩ := SortedMap.exists_of_mapM_eq_ok mapped record
  obtain ⟨fs, rfl, inner⟩ := mem_of_expectMapping expected held
  obtain ⟨gs, rfl, mem⟩ := mem_of_expectMapping mapping found
  exact ⟨fs, gs, rfl, inner, mem⟩

/-- Records that were read could be nested as they are. -/
theorem depth_le_of_decodeRecords (decoded : c.decodeRecords content = .ok records) :
    (Value.ofRecords records).depth ≤ c.format.nestingLimit := by
  obtain ⟨n, limit⟩ := c.format.nestingLimit_eq_add_three
  obtain ⟨document, read, values⟩ := exists_document decoded
  have within := Format.depth_le_of_decode read
  rw [limit] at within ⊢
  refine Value.depth_ofRecords_le_iff.mpr fun id fields record => ?_
  refine Value.depth_ofFields_le_iff.mpr fun column v found => ?_
  obtain ⟨fs, gs, rfl, outer, inner⟩ := values id fields record column v found
  rw [Value.depth, Nat.add_le_add_iff_right] at within
  have record := Value.depthFields_le_iff.mp within _ outer
  rw [Value.depth, Nat.add_le_add_iff_right] at record
  exact Value.depthFields_le_iff.mp record _ inner

/-- Records that were read from JSON are regular. -/
theorem regular_of_decodeRecords (json : c.format = .json) (decoded : c.decodeRecords content = .ok records) :
    Json.Regular Json.Reread (.ofRecords records) := by
  obtain ⟨document, read, values⟩ := exists_document decoded
  rw [json] at read
  have regular := Format.regular_of_decode read
  refine Json.regular_ofRecords_iff.mpr fun id fields record => ?_
  refine Json.regular_ofFields_iff.mpr fun column v found => ?_
  obtain ⟨fs, gs, rfl, outer, inner⟩ := values id fields record column v found
  exact (regular.of_mem outer).of_mem inner

/-- A document of records that can be read holds records. -/
theorem exists_decodeRecords_of_decode {w : Value} (read : c.format.decode content = .ok w)
    (same : w.outline = (Value.ofRecords records).outline) : ∃ found, c.decodeRecords content = .ok found := by
  obtain ⟨gs, rfl, fields⟩ := Value.exists_object_of_outline_eq same
  have mapped : ∃ found, (SortedMap.ofList gs).mapM
      (fun id v => expectMapping ("record " ++ Text.quote id) v) = .ok found := by
    refine SortedMap.exists_mapM_eq_ok fun e mem => ?_
    have listed := SortedMap.mem_of_get?_ofList (SortedMap.get?_eq_some_iff.mpr mem)
    have outlined : (e.1, e.2.outline) ∈ Value.outlineFields (records.map Value.ofFields).entries := by
      rw [← fields, Value.outlineFields_eq_map]
      exact List.mem_map.mpr ⟨e, listed, rfl⟩
    rw [Value.outlineFields_eq_map] at outlined
    obtain ⟨f, held, same⟩ := List.mem_map.mp outlined
    obtain ⟨r, -, rfl⟩ := List.mem_map.mp held
    obtain ⟨hs, object, -⟩ := Value.exists_object_of_outline_eq (congrArg Prod.snd same).symm
    exact ⟨_, by rw [object]; rfl⟩
  obtain ⟨found, mapped⟩ := mapped
  exact ⟨found, by rw [decodeRecords, read]; exact mapped⟩

/-- **When a shared file is read**: if its document is, and else it is malformed. -/
theorem decodeRecords_encodeRecords (back : c.format.ReadsBack (.ofRecords records)) :
    if (Value.ofRecords records).depth ≤ c.format.nestingLimit then
      ∃ found, c.decodeRecords (c.encodeRecords records) = .ok found
    else c.decodeRecords (c.encodeRecords records) = .error (.malformed c.format) := by
  split
  · rename_i fits
    obtain ⟨w, read⟩ := back.within fits
    exact exists_decodeRecords_of_decode read (back.outline w read)
  · rename_i deep
    cases read : c.format.decode (c.encodeRecords records) with
    | ok w => exact absurd (back.exists_decode_iff.mp ⟨w, read⟩) deep
    | error e =>
        rw [decodeRecords, read, Format.eq_malformed_of_decode read]
        rfl

end Codec

/-! ### Documents after a put -/

namespace Target

variable {t : Target} {mode : PutMode} {fields : Fields} {content : Option ByteArray} {records : RecordMap}

/-- Whether a shared file can be read once the fields are in it: every value stands below the ids and below the
columns of its record. -/
def Fits (t : Target) (fields : Fields) : Prop :=
  ∀ column v, fields.get? column = some v →
    t.codec.projection.storedDepth column v + 2 ≤ t.codec.format.nestingLimit

/-- The records of a shared file after a put. -/
def putRecords (t : Target) (fields : Fields) (records : RecordMap) : RecordMap :=
  records.insert t.key.id (t.codec.stored fields (records.get? t.key.id))

/-- A put that is not refused has read the records, and writes them with the one that it puts. -/
theorem put_eq_ok_of_shared (layout : t.layout = .shared) {e : Edit} (put : t.put mode fields content = .ok e) :
    ∃ records, t.decodeRecords content = .ok records ∧ e = .write (.ofRecords (t.putRecords fields records)) := by
  simp only [Target.put, layout] at put
  cases document : t.putShared mode fields content with
  | error x => simp [document, Except.map] at put
  | ok v =>
      rw [document] at put
      cases put
      obtain ⟨records, decodes, document⟩ := exists_of_bind_eq_ok document
      refine ⟨records, decodes, ?_⟩
      by_cases present : mode = .insert ∧ (records.get? t.key.id).isSome
      · simp only [present, and_self, ↓reduceIte] at document
        cases document
      · simp only [present, ↓reduceIte] at document
        cases document
        rfl

/-- Records that were read from a file, or that there are none of, leave room for other ones. -/
theorem depth_le_of_decodeRecords (decodes : t.decodeRecords content = .ok records) :
    (Value.ofRecords records).depth ≤ t.codec.format.nestingLimit := by
  cases content with
  | none =>
      cases decodes
      obtain ⟨n, limit⟩ := t.codec.format.nestingLimit_eq_add_three
      exact limit ▸ Nat.le_add_left 1 _
  | some content => exact Codec.depth_le_of_decodeRecords (decodeRecords_eq_ok.mp decodes)

/-- The document after a put is nested too deep if and only if the fields do not fit. -/
theorem depth_putRecords_le_iff (distinct : (t.codec.projection.columns.map Prod.fst).Nodup)
    (decodes : t.decodeRecords content = .ok records) (fields : Fields) :
    (Value.ofRecords (t.putRecords fields records)).depth ≤ t.codec.format.nestingLimit ↔ t.Fits fields := by
  have before := depth_le_of_decodeRecords decodes
  unfold Fits
  obtain ⟨n, limit⟩ := t.codec.format.nestingLimit_eq_add_three
  rw [limit] at before ⊢
  rw [Value.depth_ofRecords_le_iff] at before ⊢
  have own := Projection.depth_stored_le_iff distinct fields fun existing held =>
    before t.key.id existing held
  simp only [Nat.add_le_add_iff_right] at own ⊢
  rw [← own]
  constructor
  · exact fun after => after t.key.id _ (SortedMap.get?_insert_self _ _ _)
  · intro fits id existing held
    by_cases same : id = t.key.id
    · subst same
      rw [putRecords, SortedMap.get?_insert_self] at held
      cases held
      exact fits
    · rw [putRecords, SortedMap.get?_insert_of_ne _ same] at held
      exact before id existing held

/-- In JSON the document after a put is read back up to its numbers. -/
theorem readsBack_putRecords (json : t.codec.format = .json)
    (distinct : (t.codec.projection.columns.map Prod.fst).Nodup)
    (decodes : t.decodeRecords content = .ok records)
    (regular : Json.Regular Json.Reread (.ofFields fields)) :
    Format.json.ReadsBack (.ofRecords (t.putRecords fields records)) := by
  refine Format.readsBack_json (Json.regular_ofRecords_iff.mpr ?_)
  have before : Json.Regular Json.Reread (.ofRecords records) := by
    cases content with
    | none =>
        cases decodes
        exact ⟨.nil, trivial⟩
    | some content => exact Codec.regular_of_decodeRecords json (decodeRecords_eq_ok.mp decodes)
  rw [Json.regular_ofRecords_iff] at before
  intro id existing held
  by_cases same : id = t.key.id
  · subst same
    rw [putRecords, SortedMap.get?_insert_self] at held
    cases held
    exact Json.regular_stored distinct regular (before t.key.id)
  · rw [putRecords, SortedMap.get?_insert_of_ne _ same] at held
    exact before id existing held

end Target

/-! ### Stores after a put -/

section Put

variable {d : Option Definition} {author : Option String} {mode : PutMode} {key : RecordKey} {data : Value}
  {t : Target} {s s' : MemoryStore}

/-- What a put that succeeds has done to a shared file. -/
theorem exists_of_put (faultless : s.faults = []) (resolved : Target.resolve d key = .ok t)
    (layout : t.layout = .shared)
    (put : (Invocation.program d ⟨author, .put mode key data⟩).runOn MemoryStore.call s = (.ok .changed, s')) :
    ∃ fields records path, data.fields? = some fields ∧ t.decodeRecords (s.file? t.path) = .ok records ∧
      storePath t.path = .ok path ∧ s'.faults = [] ∧
      s'.file? t.path = some (t.codec.encodeRecords (t.putRecords fields records)) ∧
      Invocation.written d s ⟨author, .put mode key data⟩ =
        some (t.codec.format, .ofRecords (t.putRecords fields records)) := by
  cases planned : Invocation.plan d ⟨author, .put mode key data⟩ with
  | error e => simp [Invocation.program_eq, planned, fail, runOn_done] at put
  | ok p =>
      obtain ⟨resolved', -, fields, payload, decides⟩ := Invocation.plan_eq_ok planned
      obtain rfl : t = p.target := Except.ok.inj (resolved.symm.trans resolved')
      cases accepted : storePath p.target.path with
      | error e =>
          rw [Invocation.program_eq, planned] at put
          simp [p.runOn_program_of_refused faultless accepted] at put
      | ok path =>
          rw [Invocation.runOn_program faultless planned accepted, decides] at put
          cases edit : p.target.put mode fields (s.file? p.target.path) with
          | error e => simp [edit, Decision.ofEdit] at put
          | ok e =>
              obtain ⟨records, decoded, rfl⟩ := Target.put_eq_ok_of_shared layout edit
              simp only [edit, Decision.ofEdit, Prod.mk.injEq, true_and] at put
              subst put
              refine ⟨fields, records, path, fields?_of_payload payload, decoded, rfl, ?_, ?_, ?_⟩
              · rw [Edit.apply_faults, faultless]
              · exact Edit.file?_apply accepted _
              · simp only [Invocation.written, planned, decides, edit, Decision.ofEdit]

/-- A get of any id reads the one file of a shared collection. -/
theorem runOn_get_of_shared (faultless : s.faults = []) (resolved : Target.resolve d key = .ok t)
    (layout : t.layout = .shared) {path : String} (accepted : storePath t.path = .ok path)
    {content : ByteArray} (held : s.file? t.path = some content) {id : String} (nonempty : id ≠ "")
    (author : Option String) :
    ((⟨d, author⟩ : Session).get ⟨key.collection, id⟩).runOn MemoryStore.call s =
      (((t.codec.decodeRecords content).mapError (.format t.path)).map
        fun records => (records.get? id).map t.codec.view, s) := by
  rw [runOn_get faultless author (Target.resolve_of_shared resolved layout nonempty) accepted]
  simp only [held, Target.seen, layout, Target.decodeRecords]

/-- A put into a JSON file writes a document that is read back up to its numbers, if the payload was read. -/
theorem readsBack_of_put (faultless : s.faults = []) (resolved : Target.resolve d key = .ok t)
    (layout : t.layout = .shared) (json : t.codec.format = .json) {text : String}
    (read : Json.read? text = some data)
    (put : (Invocation.program d ⟨author, .put mode key data⟩).runOn MemoryStore.call s = (.ok .changed, s'))
    {document : Value}
    (written : Invocation.written d s ⟨author, .put mode key data⟩ = some (t.codec.format, document)) :
    Format.json.ReadsBack document := by
  obtain ⟨fields, records, path, payload, decodes, -, -, -, wrote⟩ :=
    exists_of_put faultless resolved layout put
  obtain rfl : document = _ := congrArg Prod.snd (Option.some.inj (written.symm.trans wrote))
  refine Target.readsBack_putRecords json (Target.nodup_columns resolved) decodes ?_
  have regular := (Json.bounded_of_read? (fun _ _ => Json.reread_of_number?) read).2
  cases data with
  | object fs =>
      cases payload
      refine Json.regular_ofFields_iff.mpr fun column v found => ?_
      exact regular.of_mem (SortedMap.mem_of_get?_ofList found)
  | _ => cases payload

/-- **When a shared file can be read after a put** of a payload that was read: if and only if the payload fits
below the ids, its columns and its locales. If it does not, no record can be read any more, whatever its id. Of
YAML it is assumed that the document is read back up to its numbers unless it is nested too deep. -/
theorem gets_after_put (faultless : s.faults = []) (resolved : Target.resolve d key = .ok t)
    (layout : t.layout = .shared) {text : String} (read : Json.read? text = some data)
    (put : (Invocation.program d ⟨author, .put mode key data⟩).runOn MemoryStore.call s = (.ok .changed, s'))
    (yaml : ∀ document, Invocation.written d s ⟨author, .put mode key data⟩ = some (.yaml, document) →
      Format.yaml.ReadsBack document) :
    ∃ fields content, data.fields? = some fields ∧ s'.file? t.path = some content ∧
      (t.Fits fields → t.decodes content = true ∧ ∀ id, id ≠ "" → ∀ author, ∃ x,
        ((⟨d, author⟩ : Session).get ⟨key.collection, id⟩).runOn MemoryStore.call s' = (.ok x, s')) ∧
      (¬t.Fits fields → t.decodes content = false ∧ ∀ id, id ≠ "" → ∀ author,
        ((⟨d, author⟩ : Session).get ⟨key.collection, id⟩).runOn MemoryStore.call s' =
          (.error (.format t.path (.malformed t.codec.format)), s')) := by
  obtain ⟨fields, records, path, payload, decodes, accepted, faultless', held, written⟩ :=
    exists_of_put faultless resolved layout put
  have back : t.codec.format.ReadsBack (.ofRecords (t.putRecords fields records)) := by
    cases format : t.codec.format with
    | yaml => exact yaml _ (format ▸ written)
    | json => exact readsBack_of_put faultless resolved layout format read put written
  have decoded := Codec.decodeRecords_encodeRecords back
  have room := Target.depth_putRecords_le_iff (Target.nodup_columns resolved) decodes fields
  refine ⟨fields, _, payload, held, fun fits => ?_, fun deep => ?_⟩
  · rw [if_pos (room.mpr fits)] at decoded
    obtain ⟨found, decoded⟩ := decoded
    refine ⟨by simp [Target.decodes, layout, decoded, Except.isOk, Except.toBool], fun id nonempty author => ?_⟩
    rw [runOn_get_of_shared faultless' resolved layout accepted held nonempty, decoded]
    exact ⟨_, rfl⟩
  · rw [if_neg fun within => deep (room.mp within)] at decoded
    refine ⟨by simp [Target.decodes, layout, decoded, Except.isOk, Except.toBool], fun id nonempty author => ?_⟩
    rw [runOn_get_of_shared faultless' resolved layout accepted held nonempty, decoded]
    rfl

end Put

/-! ### Two languages and a tower -/

/-- Tags with English names that share a file. -/
def sharedTags (file encoding : String) : Definition :=
  Definition.empty.add ⟨"tags", "tags", some ⟨file, encoding, .shared⟩, .insert .empty "name" ⟨.string, some "en"⟩⟩

/-- A tag has a German name. -/
def germanTag : MemoryStore := MemoryStore.empty.seed "tags/all.yaml" "a:\n  name:\n    de: Rot\n".toUTF8

/-- The tag is given an English name. -/
def naming : Invocation := ⟨none, .put .set ⟨"tags", "a"⟩ (.object [("name", .string "Red")])⟩

/-- A tag with two names can be read. -/
theorem gets_after_put_naming :
    let d := some (sharedTags "all.yaml" "yaml")
    let t : Target := ⟨⟨"tags", "a"⟩, "tags/all.yaml", .shared, ⟨.yaml, ⟨[("name", "en")]⟩⟩⟩
    let s' := ((naming.program d).runOn MemoryStore.call germanTag).2
    germanTag.faults = [] ∧ Target.resolve d ⟨"tags", "a"⟩ = .ok t ∧ t.layout = .shared ∧
      Json.read? "\x7b\"name\": \"Red\"\x7d" = some (.object [("name", .string "Red")]) ∧
      (naming.program d).runOn MemoryStore.call germanTag = (.ok .changed, s') ∧
      (∀ document, naming.written d germanTag = some (.yaml, document) → Format.yaml.ReadsBack document) ∧
      ∃ fields content, (Value.object [("name", .string "Red")]).fields? = some fields ∧
        s'.file? t.path = some content ∧ t.Fits fields ∧ t.decodes content = true ∧
        ∀ id, id ≠ "" → ∀ author, ∃ x,
          ((⟨d, author⟩ : Session).get ⟨"tags", id⟩).runOn MemoryStore.call s' = (.ok x, s') := by
  intro d t s'
  have faultless : germanTag.faults = [] := by decide
  have resolved : Target.resolve d ⟨"tags", "a"⟩ = .ok t := by decide
  have read : Json.read? "\x7b\"name\": \"Red\"\x7d" = some (.object [("name", .string "Red")]) := by
    decide +kernel
  have put : (naming.program d).runOn MemoryStore.call germanTag = (.ok .changed, s') :=
    Prod.ext (by decide +kernel) rfl
  have yaml : ∀ document, naming.written d germanTag = some (.yaml, document) →
      Format.yaml.ReadsBack document := by
    have faithful : ∀ w ∈ naming.written d germanTag, w.1.decode (w.1.encode w.2) = .ok w.2 := by decide +kernel
    exact fun document written => .of_decode (faithful _ written)
  obtain ⟨fields, content, payload, held, opens, -⟩ :=
    gets_after_put faultless resolved rfl read put yaml
  have fits : t.Fits fields := by
    cases payload
    intro column v found
    rcases List.mem_singleton.mp (SortedMap.mem_of_get?_ofList found) with ⟨rfl, rfl⟩
    decide
  exact ⟨faultless, resolved, rfl, read, put, yaml, fields, content, payload, held, fits, opens fits⟩

/-- Arrays in each other, one more than the number says. -/
def tower : Nat → Value
  | 0 => .array []
  | n + 1 => .array [tower n]

theorem depth_tower (n : Nat) : (tower n).depth = n + 1 := by
  induction n with
  | zero => rfl
  | succ n ih => simp [tower, Value.depth, Value.depthItems, ih]

/-- A payload with as many arrays in each other as the reader accepts. -/
def towerChars : List Char :=
  "\x7b\"t\":".toList ++ List.replicate 126 '[' ++ List.replicate 126 ']' ++ ['\x7d']

set_option maxRecDepth 20000 in
theorem read_tower : Json.read? (String.ofList towerChars) = some (.object [("t", tower 125)]) := by
  have chars : Json.readChars? towerChars = some (.object [("t", tower 125)]) := by decide
  rw [Json.read?, String.toList_ofList, chars]

/-- Not every put that succeeds leaves a file that can be read: the tower is put, and then nothing can be
got. -/
theorem not_forall_get_of_put :
    ¬ ∀ (d : Option Definition) (author : Option String) (mode : PutMode) (key : RecordKey) (text : String)
        (data : Value) (t : Target) (s s' : MemoryStore),
      s.faults = [] → Target.resolve d key = .ok t → t.layout = .shared →
        (s.file? t.path).all t.decodes = true →
          Json.read? text = some data → data.fields?.isSome →
            (Invocation.program d ⟨author, .put mode key data⟩).runOn MemoryStore.call s = (.ok .changed, s') →
              ∀ id, id ≠ "" → ∃ x,
                ((⟨d, author⟩ : Session).get ⟨key.collection, id⟩).runOn MemoryStore.call s' = (.ok x, s') := by
  intro gets
  let d := some (sharedTags "all.json" "json")
  let t : Target := ⟨⟨"tags", "a"⟩, "tags/all.json", .shared, ⟨.json, ⟨[("name", "en")]⟩⟩⟩
  let i : Invocation := ⟨none, .put .set ⟨"tags", "a"⟩ (.object [("t", tower 125)])⟩
  let s' := ((i.program d).runOn MemoryStore.call .empty).2
  have resolved : Target.resolve d ⟨"tags", "a"⟩ = .ok t := by decide
  have put : (i.program d).runOn MemoryStore.call .empty = (.ok .changed, s') :=
    Prod.ext (by decide) rfl
  obtain ⟨x, got⟩ := gets d none .set ⟨"tags", "a"⟩ _ _ t .empty s' rfl resolved rfl (by decide)
    read_tower rfl put "b" (by decide)
  obtain ⟨fields, records, path, payload, decodes, accepted, faultless, held, written⟩ :=
    exists_of_put (s := .empty) rfl resolved rfl put
  have deep : ¬t.Fits fields := by
    intro fits
    cases payload
    have below := fits "t" (tower 125) rfl
    rw [show t.codec.projection.storedDepth "t" (tower 125) = (tower 125).depth from rfl, depth_tower] at below
    exact absurd below (by decide)
  have room := Target.depth_putRecords_le_iff (Target.nodup_columns resolved) decodes fields
  have back := readsBack_of_put rfl resolved rfl rfl read_tower put written
  have decoded := Codec.decodeRecords_encodeRecords (c := t.codec) back
  rw [if_neg fun within => deep (room.mp within)] at decoded
  rw [runOn_get_of_shared faultless resolved rfl accepted held (by decide), decoded] at got
  cases got

end RecordTree
