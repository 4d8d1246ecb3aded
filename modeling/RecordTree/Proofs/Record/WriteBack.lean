import RecordTree.Proofs.Record.Nesting
import RecordTree.Proofs.Record.Registers

/-!
# Writing back what was read

A get followed by a set of the very fields that were got should change nothing, and mostly it does not. The values
under other locales are kept, and so are columns that are missing. But a localized column that is not a mapping, as
files from before the column was localized have it, comes back below the locale, and a mapping without any value is
dropped. `unchanged_iff_filled` says that these two are all.

What a file holds is a map of records in either layout (`Target.contents`), so that a set is one assignment to that
map (`Target.put_set_of_contents`), and whether it changes the map is a question about one record.
-/

namespace RecordTree

open Program

namespace Target

variable {t : Target} {content : Option ByteArray} {records : RecordMap} {raw : Option Fields}

/-- What a file holds: all records of a shared file, and else the one record of the target, if it is there. -/
def contents (t : Target) (content : Option ByteArray) : Except RecordError RecordMap :=
  match t.layout with
  | .single => (t.held content).map (SortedMap.empty.assign t.key.id)
  | .shared => t.decodeRecords content

/-- What is held of the record is found among the records of its file. -/
theorem held_eq (t : Target) (content : Option ByteArray) :
    t.held content = (t.contents content).map fun records => records.get? t.key.id := by
  cases layout : t.layout with
  | single =>
      simp only [contents, layout]
      cases t.held content with
      | error e => rfl
      | ok raw => exact congrArg Except.ok (SortedMap.get?_assign_self ..).symm
  | shared => simp only [held, contents, layout]

/-- A file of which the record is known has records. -/
theorem exists_contents_of_held (held : t.held content = .ok raw) :
    ∃ records, t.contents content = .ok records ∧ records.get? t.key.id = raw := by
  rw [held_eq] at held
  cases read : t.contents content with
  | error e => simp [read, Except.map] at held
  | ok records =>
      rw [read] at held
      exact ⟨records, rfl, Except.ok.inj held⟩

/-- **A set is one assignment.** It is not refused where the file can be read, and it assigns to the id what is
stored over the record that was there. -/
theorem put_set_of_contents (read : t.contents content = .ok records) (fields : Fields) :
    ∃ document, t.put .set fields content = .ok (.write document) ∧
      ((Edit.write document).Faithful t.codec.format →
        t.contents (some (t.codec.format.encode document)) =
          .ok (records.assign t.key.id (some (t.codec.stored fields (records.get? t.key.id))))) := by
  have held : t.held content = .ok (records.get? t.key.id) := by
    rw [held_eq, read]
    rfl
  cases layout : t.layout with
  | single =>
      have put : t.put .set fields content =
          .ok (.write (.ofFields (t.codec.stored fields (records.get? t.key.id)))) := by
        simp only [Target.put, layout, putSingle_set layout held, Except.map]
      refine ⟨_, put, fun faithful => ?_⟩
      have after := held_of_put held put faithful
      rw [Edit.content] at after
      simp only [Target.contents, layout, after]
      -- The map of one record is what was assigned to its id, whatever stood there.
      simp only [Target.contents, layout, held, Except.map, Except.ok.injEq] at read
      rw [← read, SortedMap.assign_assign]
      rfl
  | shared =>
      simp only [Target.contents, layout] at read ⊢
      refine ⟨.ofRecords (t.putRecords fields records), ?_, fun faithful => ?_⟩
      · simp only [Target.put, layout, putShared, read]
        rfl
      · rw [decodeRecords, Codec.decodeRecords_ofRecords faithful]
        rfl

end Target

/-- A set whose file can be read succeeds, and the file holds its records with the one that was assigned. -/
theorem runOn_set_of_contents {d : Option Definition} {author : Option String} {key : RecordKey} {t : Target}
    {s : MemoryStore} {path : String} {records : RecordMap} (faultless : s.faults = [])
    (resolved : Target.resolve d key = .ok t) (accepted : storePath t.path = .ok path)
    (read : t.contents (s.file? t.path) = .ok records) (fields : Fields)
    (faithful : ∀ w ∈ Invocation.written d s ⟨author, .put .set key (.ofFields fields)⟩,
      w.1.decode (w.1.encode w.2) = .ok w.2) :
    ∃ s' content, (Invocation.program d ⟨author, .put .set key (.ofFields fields)⟩).runOn MemoryStore.call s =
        (.ok .changed, s') ∧ s'.file? t.path = some content ∧
      t.contents (some content) =
        .ok (records.assign key.id (some (t.codec.stored fields (records.get? key.id)))) := by
  have planned := Invocation.plan_put resolved author .set fields
  obtain ⟨document, put, after⟩ := t.put_set_of_contents read fields
  have decided : Decision.ofEdit (changeMessage .set key author) (t.put .set fields (s.file? t.path)) =
      .edit _ (.write document) := Decision.ofEdit_eq_edit_iff.mpr ⟨rfl, put⟩
  have done := Invocation.runOn_program_of_edit faultless planned accepted decided
  have reads := Invocation.faithful_of_decide planned decided faithful
  refine ⟨_, t.codec.format.encode document, done, Edit.file?_apply accepted _, ?_⟩
  rw [after reads, Target.key_of_resolve resolved]

/-- **Writing back what was read changes nothing, exactly when it can be.** That is so for stored fields and any
localized columns, even if some are listed more than once: they stay if and only if every localized column is missing
or a mapping with a value. And it is so for a record in a store: got and set as it was got, it leaves its file with
the records that the file had, if and only if its localized columns are such. -/
theorem unchanged_iff_filled :
    (∀ (p : Projection) (raw : Fields), p.stored (p.view raw) (some raw) = raw ↔ p.Filled raw) ∧
      ∀ (d : Option Definition) (key : RecordKey) (t : Target) (s : MemoryStore) (content : ByteArray)
        (raw : Fields) (reader writer : Option String),
        s.faults = [] → Target.resolve d key = .ok t → s.file? t.path = some content →
          t.held (some content) = .ok (some raw) →
            (∀ w ∈ Invocation.written d s ⟨writer, .put .set key (.ofFields (t.codec.view raw))⟩,
              w.1.decode (w.1.encode w.2) = .ok w.2) →
              ∃ fields s' content',
                runAlone d [⟨reader, .get key⟩, ⟨writer, .put .set key (.ofFields fields)⟩] s =
                    ([.ok (.seen (some fields)), .ok .changed], s') ∧
                  s'.file? t.path = some content' ∧
                    (t.contents (some content') = t.contents (some content) ↔ t.codec.projection.Filled raw) := by
  refine ⟨Projection.stored_view_eq_iff, ?_⟩
  intro d key t s content raw reader writer faultless resolved there held faithful
  obtain ⟨path, accepted, -⟩ := MemoryStore.file?_eq_some_iff.mp there
  have same := Target.key_of_resolve resolved
  obtain ⟨records, read, own⟩ := Target.exists_contents_of_held held
  -- The get shows the record, and the set stores it over itself.
  have got : (Invocation.program d ⟨reader, .get key⟩).runOn MemoryStore.call s =
      (.ok (.seen (some (t.codec.view raw))), s) := by
    have seen : t.seen (s.file? t.path) = .ok (some (t.codec.view raw)) := by
      rw [there, t.seen_eq, held]
      rfl
    simp only [Invocation.program, bind_eq, runOn_bind, runOn_get faultless reader resolved accepted, seen]
    rfl
  obtain ⟨s', content', done, there', after⟩ := runOn_set_of_contents faultless resolved accepted
    (there ▸ read) (t.codec.view raw) faithful
  refine ⟨t.codec.view raw, s', content', ?_, there', ?_⟩
  · simp only [runAlone, got, done]
  · rw [same] at own
    rw [after, read, own, Except.ok.injEq, SortedMap.assign_eq_self_iff, own, Option.some.injEq,
      ← Projection.stored_view_eq_iff]
    exact eq_comm

/-- A tag with a German name alone shows no name to an English reader, and stays as it is. -/
theorem unchanged_iff_filled_german :
    let d := some (sharedTags "all.yaml" "yaml")
    let t : Target := ⟨⟨"tags", "a"⟩, "tags/all.yaml", .shared, ⟨.yaml, ⟨[("name", "en")]⟩⟩⟩
    let raw : Fields := .ofList [("name", .object [("de", .string "Rot")])]
    ∃ content, germanTag.faults = [] ∧ Target.resolve d ⟨"tags", "a"⟩ = .ok t ∧
      germanTag.file? t.path = some content ∧ t.held (some content) = .ok (some raw) ∧
      (∀ w ∈ Invocation.written d germanTag ⟨none, .put .set ⟨"tags", "a"⟩ (.ofFields (t.codec.view raw))⟩,
        w.1.decode (w.1.encode w.2) = .ok w.2) ∧
      ∃ fields s' content',
        runAlone d [⟨none, .get ⟨"tags", "a"⟩⟩, ⟨none, .put .set ⟨"tags", "a"⟩ (.ofFields fields)⟩] germanTag =
            ([.ok (.seen (some fields)), .ok .changed], s') ∧
          s'.file? t.path = some content' ∧ t.contents (some content') = t.contents (some content) := by
  intro d t raw
  have there : germanTag.file? t.path = some "a:\n  name:\n    de: Rot\n".toUTF8 := by decide
  have held : t.held (some "a:\n  name:\n    de: Rot\n".toUTF8) = .ok (some raw) := by decide +kernel
  have resolved : Target.resolve d ⟨"tags", "a"⟩ = .ok t := by decide
  have faithful : ∀ w ∈ Invocation.written d germanTag
      ⟨none, .put .set ⟨"tags", "a"⟩ (.ofFields (t.codec.view raw))⟩, w.1.decode (w.1.encode w.2) = .ok w.2 := by
    decide +kernel
  obtain ⟨fields, s', content', run, there', same⟩ :=
    unchanged_iff_filled.2 d ⟨"tags", "a"⟩ t germanTag _ raw none none rfl resolved there held faithful
  have filled : t.codec.projection.Filled raw := by
    intro column v localized found
    obtain ⟨rfl, rfl⟩ := Prod.mk.inj (List.mem_singleton.mp (SortedMap.mem_of_get?_ofList found))
    exact ⟨.ofList [("de", .string "Rot")], rfl, rfl⟩
  exact ⟨_, rfl, resolved, there, held, faithful, fields, s', content', run, there', same.mpr filled⟩

end RecordTree
