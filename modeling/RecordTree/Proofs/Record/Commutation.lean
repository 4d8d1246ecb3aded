import RecordTree.Proofs.Record.WriteBack

/-!
# Independent writes

In a shared file all records lie side by side, and each change reads and writes the whole file. Still two changes of
different records do not meet: a change assigns to the id of its record what depends on that record alone
(`Plan.assigns`), and it does not matter in which order different ids are assigned. As the document of a map does not
tell how the map came about, the file is the same to the byte.

Two sets of one record do meet, and the second one leaves nothing of the first, not even in localized columns: a set
decides after another one what it would have decided without it (`Target.put_set_after_put_set`).
-/

namespace RecordTree

open Program

variable {d : Option Definition} {i j : Invocation} {s s' : MemoryStore}

/-! ### Runs of two operations -/

/-- Two operations run alone if the second one starts from what the first one leaves. -/
theorem runAlone_pair_iff {x y : Result} :
    runAlone d [i, j] s = ([x, y], s') ↔
      ∃ s₁, (i.program d).runOn MemoryStore.call s = (x, s₁) ∧
        (j.program d).runOn MemoryStore.call s₁ = (y, s') := by
  simp only [runAlone, Prod.mk.injEq, List.cons.injEq, and_true]
  constructor
  · rintro ⟨⟨rfl, rfl⟩, rfl⟩
    exact ⟨_, rfl, rfl⟩
  · rintro ⟨s₁, first, second⟩
    rw [first, second]
    exact ⟨⟨rfl, rfl⟩, rfl⟩

/-- Of two documents that are written to a file the second one stays. -/
theorem Edit.files_apply_apply (edit : Edit) (document : Value) (f f' : Format) (q : String)
    (message message' : String) (expected expected' : Revision) :
    ((write document).apply f' q message' expected' (edit.apply f q message expected s)).files =
      s.files.insert q (f'.encode document) := by
  refine SortedMap.ext_get? fun path => ?_
  rw [get?_apply, get?_apply, SortedMap.get?_insert]
  split <;> rfl

/-- Two operations on one file, the second of which decides to write after what the first one leaves. -/
theorem exists_runAlone_pair {p p' : Plan} {path message message' : String} {edit : Edit} {document : Value}
    (faultless : s.faults = []) (planned : i.plan d = .ok p) (planned' : j.plan d = .ok p')
    (accepted : storePath p.target.path = .ok path) (same : p'.target.path = p.target.path)
    (decided : p.decide (s.file? p.target.path) = .edit message edit)
    (decided' : p'.decide (edit.content p.target.codec.format) = .edit message' (.write document)) :
    ∃ s', runAlone d [i, j] s = ([.ok .changed, .ok .changed], s') ∧
      s'.files = s.files.insert path (p'.target.codec.format.encode document) := by
  have done := i.runOn_program_of_edit faultless planned accepted decided
  rw [← same] at accepted
  have left : (edit.apply p.target.codec.format path message ((s.revision? path).getD .none) s).file? p'.target.path =
      edit.content p.target.codec.format := Edit.file?_apply accepted edit
  rw [← left] at decided'
  have done' := j.runOn_program_of_edit ((Edit.apply_faults _).trans faultless) planned' accepted decided'
  exact ⟨_, runAlone_pair_iff.mpr ⟨_, done, done'⟩, Edit.files_apply_apply ..⟩

/-- Two stores have the same files, and the one under the given path is among them: its bytes are the same in both,
and so is its revision. -/
structure MemoryStore.SameBytes (path : String) (s s' : MemoryStore) : Prop where
  files : s'.files = s.files
  file : ∃ q content, storePath path = .ok q ∧ s.files.get? q = some content ∧ s'.files.get? q = some content ∧
    s'.revision? q = s.revision? q

theorem MemoryStore.SameBytes.of_files_eq {path : String} (files : s'.files = s.files)
    (there : (s.file? path).isSome) : s.SameBytes path s' := by
  obtain ⟨content, there⟩ := Option.isSome_iff_exists.mp there
  obtain ⟨q, accepted, found⟩ := file?_eq_some_iff.mp there
  refine ⟨files, q, content, accepted, found, files ▸ found, ?_⟩
  rw [MemoryStore.revision?, MemoryStore.revision?, files]

/-! ### Changes of different records -/

namespace Target

variable {t : Target} {mode : PutMode} {fields : Fields} {content : Option ByteArray} {records : RecordMap}

/-- What a put does in a shared file that can be read. -/
theorem put_of_shared (layout : t.layout = .shared) (decodes : t.decodeRecords content = .ok records) :
    t.put mode fields content =
      if mode = .insert ∧ (records.get? t.key.id).isSome then .error (.alreadyExists t.key)
      else .ok (.write (.ofRecords
        (records.assign t.key.id (some (t.codec.stored fields (records.get? t.key.id)))))) := by
  simp only [put, layout, putShared, decodes, Bind.bind, Except.bind]
  split <;> rfl

/-- What a deletion does in a shared file that can be read. -/
theorem removed_of_shared (layout : t.layout = .shared) (decodes : t.decodeRecords content = .ok records) :
    t.removed content =
      if (records.get? t.key.id).isSome then .ok (.write (.ofRecords (records.assign t.key.id none)))
      else .error (.notFound t.key) := by
  cases content with
  | none =>
      cases decodes
      rfl
  | some content =>
      simp only [removed, layout, decodes, Bind.bind, Except.bind]
      cases records.get? t.key.id <;> rfl

/-- A shared file that cannot be read is not changed. -/
theorem exists_decodeRecords_of_removed (layout : t.layout = .shared) {edit : Edit}
    (removed : t.removed content = .ok edit) : ∃ records, t.decodeRecords content = .ok records := by
  cases content with
  | none => cases removed
  | some content =>
      simp only [Target.removed, layout] at removed
      obtain ⟨records, decodes, -⟩ := exists_of_bind_eq_ok removed
      exact ⟨records, decodes⟩

end Target

/-- A plan assigns something to the id of its record, in every file that holds of that record what the given map
holds of it. -/
def Plan.Assigns (p : Plan) (message : String) (records : RecordMap) (x : Option Fields) : Prop :=
  ∀ content records', p.target.decodeRecords content = .ok records' →
    records'.get? p.target.key.id = records.get? p.target.key.id →
      p.decide content = .edit message (.write (.ofRecords (records'.assign p.target.key.id x)))

/-- **A change of a shared file is an assignment** to the id of its record, and what it assigns depends on that
record alone. -/
theorem Plan.assigns {p : Plan} (planned : i.plan d = .ok p) (layout : p.target.layout = .shared)
    {content : Option ByteArray} {message : String} {edit : Edit}
    (decided : p.decide content = .edit message edit) :
    ∃ records x, p.target.decodeRecords content = .ok records ∧ p.Assigns message records x ∧
      edit = .write (.ofRecords (records.assign p.target.key.id x)) := by
  obtain ⟨-, -, decides⟩ := i.plan_eq_ok planned
  cases operation : i.operation with
  | get key =>
      rw [operation] at decides
      simp [decides] at decided
  | put mode key data =>
      rw [operation] at decides
      obtain ⟨fields, -, decides⟩ := decides
      obtain ⟨said, put⟩ := Decision.ofEdit_eq_edit_iff.mp (decides content ▸ decided)
      obtain ⟨records, decodes, -⟩ := Target.put_eq_ok_of_shared layout put
      rw [Target.put_of_shared layout decodes] at put
      split at put
      · cases put
      · rename_i vacant
        refine ⟨records, _, decodes, ?_, (Except.ok.inj put).symm⟩
        intro content' records' decodes' same
        rw [decides, Target.put_of_shared layout decodes', same, if_neg vacant, said]
        rfl
  | delete key =>
      rw [operation] at decides
      obtain ⟨said, removed⟩ := Decision.ofEdit_eq_edit_iff.mp (decides content ▸ decided)
      obtain ⟨records, decodes⟩ := Target.exists_decodeRecords_of_removed layout removed
      rw [Target.removed_of_shared layout decodes] at removed
      split at removed
      · rename_i present
        refine ⟨records, none, decodes, ?_, (Except.ok.inj removed).symm⟩
        intro content' records' decodes' same
        rw [decides, Target.removed_of_shared layout decodes', same, if_pos present, said]
        rfl
      · cases removed

/-- **Two changes of a shared file decide on the same document in the end**, whichever of them goes first. -/
theorem Plan.decide_comm {p p' : Plan} (planned : i.plan d = .ok p) (planned' : j.plan d = .ok p')
    (layout : p.target.layout = .shared) (layout' : p'.target.layout = .shared)
    (codec : p'.target.codec = p.target.codec) (other : p'.target.key.id ≠ p.target.key.id)
    {content : Option ByteArray} {message message' : String} {edit edit' : Edit}
    (decided : p.decide content = .edit message edit) (reads : edit.Faithful p.target.codec.format)
    (decided' : p'.decide (edit.content p.target.codec.format) = .edit message' edit') :
    ∃ first last, p'.decide content = .edit message' (.write first) ∧ edit' = .write last ∧
      ((Edit.write first).Faithful p.target.codec.format →
        p.decide (some (p.target.codec.format.encode first)) = .edit message (.write last)) := by
  obtain ⟨records, x, decodes, assigns, rfl⟩ := Plan.assigns planned layout decided
  obtain ⟨records', y, decodes', assigns', rfl⟩ := Plan.assigns planned' layout' decided'
  -- What the second change has read is what the first one has written.
  obtain rfl : records.assign p.target.key.id x = records' := by
    have read := Target.decodeRecords_eq_ok.mp (Target.decodeRecords_congr codec decodes')
    exact Except.ok.inj ((Codec.decodeRecords_ofRecords reads).symm.trans read)
  refine ⟨.ofRecords (records.assign p'.target.key.id y), _, ?_, rfl, fun reads' => ?_⟩
  · refine assigns' content records (Target.decodeRecords_congr codec.symm decodes) ?_
    exact (SortedMap.get?_assign_of_ne records other x).symm
  · have read := Target.decodeRecords_eq_ok.mpr (Codec.decodeRecords_ofRecords reads')
    rw [SortedMap.assign_comm records (Ne.symm other)]
    exact assigns _ _ read (SortedMap.get?_assign_of_ne records (Ne.symm other) y)

/-- **Changes of different records commute.** If they succeed in one order they succeed in the other one, and leave
the same bytes. -/
theorem runAlone_comm (faultless : s.faults = []) {t : Target}
    (resolved : Target.resolve d i.operation.key = .ok t) (layout : t.layout = .shared)
    (collection : j.operation.key.collection = i.operation.key.collection)
    (other : j.operation.key.id ≠ i.operation.key.id)
    (faithful : ∀ w ∈ i.written d s, w.1.decode (w.1.encode w.2) = .ok w.2)
    (faithful' : ∀ w ∈ j.written d s, w.1.decode (w.1.encode w.2) = .ok w.2)
    (changed : runAlone d [i, j] s = ([.ok .changed, .ok .changed], s')) :
    ∃ s'', runAlone d [j, i] s = ([.ok .changed, .ok .changed], s'') ∧ s'.SameBytes t.path s'' := by
  obtain ⟨s₁, done, done'⟩ := runAlone_pair_iff.mp changed
  obtain ⟨p, q, message, edit, planned, accepted, decided, rfl⟩ := i.exists_edit_of_changed faultless done
  obtain ⟨p', q', message', edit', planned', accepted', decided', rfl⟩ :=
    j.exists_edit_of_changed ((Edit.apply_faults _).trans faultless) done'
  -- Both plans are about the same file, and differ in the id.
  obtain rfl : t = p.target := Except.ok.inj (resolved.symm.trans (i.plan_eq_ok planned).1)
  have resolved' : Target.resolve d j.operation.key = .ok p'.target := (j.plan_eq_ok planned').1
  have moved : p'.target = { p.target with key := j.operation.key } := by
    have shared := Target.resolve_of_shared resolved layout (Target.id_ne_empty_of_resolve resolved')
    rw [← collection] at shared
    exact Except.ok.inj (resolved'.symm.trans shared)
  have path : p'.target.path = p.target.path := by rw [moved]
  have codec : p'.target.codec = p.target.codec := by rw [moved]
  have layout' : p'.target.layout = .shared := by rw [moved, layout]
  have differ : p'.target.key.id ≠ p.target.key.id := by
    rw [Target.key_of_resolve resolved, Target.key_of_resolve resolved']
    exact other
  rw [path] at accepted' decided'
  obtain rfl : q = q' := Except.ok.inj (accepted.symm.trans accepted')
  rw [Edit.file?_apply accepted] at decided'
  obtain ⟨first, last, before, rfl, after⟩ := Plan.decide_comm planned planned' layout layout' codec differ decided
    (i.faithful_of_decide planned decided faithful) decided'
  -- The other order: the second change is made first, and then the first one.
  rw [← path] at before
  have reads' := j.faithful_of_decide planned' before faithful'
  rw [codec] at reads'
  obtain ⟨s'', run, files⟩ := exists_runAlone_pair faultless planned' planned (path ▸ accepted) path.symm before
    (codec ▸ after reads')
  refine ⟨s'', run, .of_files_eq ?_ ?_⟩
  · rw [files, codec, Edit.files_apply_apply]
  · rw [Edit.file?_apply accepted]
    rfl

/-! ### Sets of one record -/

/-- **After a set, another set of the same record decides what it would have decided without it.** -/
theorem Target.put_set_after_put_set {t : Target} {first second : Fields} {content : Option ByteArray}
    {edit : Edit} (put : t.put .set first content = .ok edit) (faithful : edit.Faithful t.codec.format) :
    t.put .set second (edit.content t.codec.format) = t.put .set second content := by
  cases layout : t.layout with
  | shared =>
      obtain ⟨records, decodes, rfl⟩ := put_eq_ok_of_shared layout put
      have read : t.decodeRecords ((Edit.write (.ofRecords (t.putRecords first records))).content
          t.codec.format) = .ok (t.putRecords first records) :=
        decodeRecords_eq_ok.mpr (Codec.decodeRecords_ofRecords faithful)
      have stored : (t.putRecords first records).get? t.key.id =
          some (t.codec.stored first (records.get? t.key.id)) := SortedMap.get?_insert_self ..
      have absorbed : t.codec.stored second (some (t.codec.stored first (records.get? t.key.id))) =
          t.codec.stored second (records.get? t.key.id) := Projection.stored_stored ..
      rw [put_of_shared layout read, put_of_shared layout decodes, stored, absorbed]
      simp only [reduceCtorEq, false_and, ↓reduceIte, Except.ok.injEq, Edit.write.injEq]
      exact congrArg Value.ofRecords (records.assign_assign _ (some _) (some _))
  | single =>
      cases identity : t.codec.projection.isIdentity with
      | true =>
          -- Without localized columns nobody looks at what was there.
          have blind : ∀ fields content, t.put .set fields content = .ok (.write (.ofFields fields)) := by
            intro fields content
            simp only [Target.put, layout, putSingle, Codec.mergesOnWrite, identity, Codec.stored,
              Projection.stored_of_isIdentity identity]
            cases content <;> rfl
          rw [blind, blind]
      | false =>
          have held : ∃ existing, t.held content = .ok existing := by
            cases content with
            | none => exact ⟨none, by simp only [Target.held, layout]⟩
            | some content =>
                cases decodes : t.decodeFields content with
                | ok raw => exact ⟨some raw, by simp only [Target.held, layout, decodes]; rfl⟩
                | error e =>
                    simp [Target.put, layout, putSingle, Codec.mergesOnWrite, identity, decodes, Except.map,
                      Bind.bind, Except.bind] at put
          obtain ⟨existing, held⟩ := held
          have after := held_of_put held put faithful
          simp only [Target.put, layout, putSingle_set layout held, putSingle_set layout after]
          exact congrArg (fun stored => Except.ok (Edit.write (.ofFields stored)))
            (Projection.stored_stored t.codec.projection first second existing)

/-- The plan of a set. -/
theorem Invocation.exists_of_plan_set {author : Option String} {key : RecordKey} {data : Value} {p : Plan}
    (planned : Invocation.plan d ⟨author, .put .set key data⟩ = .ok p) :
    ∃ fields, ∀ content, p.decide content =
      .ofEdit (changeMessage .set key author) (p.target.put .set fields content) := by
  obtain ⟨-, -, fields, -, decides⟩ := Invocation.plan_eq_ok planned
  exact ⟨fields, decides⟩

/-- **A later set absorbs an earlier one**: it succeeds without it, and leaves the same bytes. -/
theorem runAlone_absorbs (faultless : s.faults = []) {key : RecordKey} {first second : Value}
    {author author' : Option String}
    (faithful : ∀ w ∈ Invocation.written d s ⟨author, .put .set key first⟩, w.1.decode (w.1.encode w.2) = .ok w.2)
    (changed : runAlone d [⟨author, .put .set key first⟩, ⟨author', .put .set key second⟩] s =
      ([.ok .changed, .ok .changed], s')) :
    ∃ t s'', Target.resolve d key = .ok t ∧
      runAlone d [⟨author', .put .set key second⟩] s = ([.ok .changed], s'') ∧ s'.SameBytes t.path s'' := by
  obtain ⟨s₁, done, done'⟩ := runAlone_pair_iff.mp changed
  obtain ⟨p, q, message, edit, planned, accepted, decided, rfl⟩ :=
    Invocation.exists_edit_of_changed faultless done
  obtain ⟨p', q', message', edit', planned', accepted', decided', rfl⟩ :=
    Invocation.exists_edit_of_changed ((Edit.apply_faults _).trans faultless) done'
  have resolved := (Invocation.plan_eq_ok planned).1
  have same : p'.target = p.target := Except.ok.inj ((Invocation.plan_eq_ok planned').1.symm.trans resolved)
  obtain ⟨fields, decides⟩ := Invocation.exists_of_plan_set planned
  obtain ⟨fields', decides'⟩ := Invocation.exists_of_plan_set planned'
  rw [same] at accepted' decided'
  obtain rfl : q = q' := Except.ok.inj (accepted.symm.trans accepted')
  have reads := Invocation.faithful_of_decide planned decided faithful
  rw [decides] at decided
  obtain ⟨-, put⟩ := Decision.ofEdit_eq_edit_iff.mp decided
  rw [Edit.file?_apply accepted, decides', same, Target.put_set_after_put_set put reads] at decided'
  have alone : p'.decide (s.file? p'.target.path) = .edit message' edit' := by
    rw [decides', same, decided']
  have run := Invocation.runOn_program_of_edit faultless planned' (same ▸ accepted) alone
  cases edit' with
  | remove => exact absurd (Decision.ofEdit_eq_edit_iff.mp decided').2 (Target.put_ne_remove _ _ _ _)
  | write document =>
      refine ⟨p.target, _, resolved, by simp only [runAlone, run]; rfl, .of_files_eq ?_ ?_⟩
      · rw [same, Edit.files_apply_apply]
        rfl
      · rw [same, Edit.file?_apply accepted]
        rfl

/-- **Independent writes commute, and later sets absorb earlier ones, down to the bytes.** In a shared file two
changes of different records that succeed in one order succeed in the other one as well, and the file that they leave
is the same. In either layout, and whatever columns are localized, a set after a set of the same record leaves the
file that it leaves alone. Of the documents that are written it is assumed that they are read back as they are
written. -/
theorem changes_comm_and_sets_absorb (faultless : s.faults = []) :
    (∀ (i j : Invocation) (t : Target) (s' : MemoryStore),
      Target.resolve d i.operation.key = .ok t → t.layout = .shared →
        j.operation.key.collection = i.operation.key.collection → j.operation.key.id ≠ i.operation.key.id →
          (∀ k ∈ [i, j], ∀ w ∈ k.written d s, w.1.decode (w.1.encode w.2) = .ok w.2) →
            runAlone d [i, j] s = ([.ok .changed, .ok .changed], s') →
              ∃ s'', runAlone d [j, i] s = ([.ok .changed, .ok .changed], s'') ∧ s'.SameBytes t.path s'') ∧
      ∀ (key : RecordKey) (first second : Value) (author author' : Option String) (s' : MemoryStore),
        (∀ w ∈ Invocation.written d s ⟨author, .put .set key first⟩, w.1.decode (w.1.encode w.2) = .ok w.2) →
          runAlone d [⟨author, .put .set key first⟩, ⟨author', .put .set key second⟩] s =
              ([.ok .changed, .ok .changed], s') →
            ∃ t s'', Target.resolve d key = .ok t ∧
              runAlone d [⟨author', .put .set key second⟩] s = ([.ok .changed], s'') ∧
                s'.SameBytes t.path s'' := by
  constructor
  · intro i j t s' resolved layout collection other faithful changed
    exact runAlone_comm faultless resolved layout collection other (faithful i (by simp)) (faithful j (by simp))
      changed
  · intro key first second author author' s' faithful changed
    exact runAlone_absorbs faultless faithful changed

/-- Two tags are made in a new file, the first one or the second one first; and of two names the second one stays. -/
theorem changes_comm_and_sets_absorb_tags :
    let d := some (sharedTags "all.json" "json")
    let made : Invocation := ⟨none, .put .insert ⟨"tags", "b"⟩ (.object [("name", .string "Blue")])⟩
    let renamed : Invocation := ⟨none, .put .set ⟨"tags", "a"⟩ (.object [("name", .string "Scarlet")])⟩
    (∃ s' s'', runAlone d [naming, made] .empty = ([.ok .changed, .ok .changed], s') ∧
      runAlone d [made, naming] .empty = ([.ok .changed, .ok .changed], s'') ∧
        s'.SameBytes "tags/all.json" s'') ∧
      ∃ s' s'', runAlone d [naming, renamed] .empty = ([.ok .changed, .ok .changed], s') ∧
        runAlone d [renamed] .empty = ([.ok .changed], s'') ∧ s'.SameBytes "tags/all.json" s'' := by
  intro d made renamed
  have resolved : Target.resolve d ⟨"tags", "a"⟩ =
      .ok ⟨⟨"tags", "a"⟩, "tags/all.json", .shared, ⟨.json, ⟨[("name", "en")]⟩⟩⟩ := by decide
  have faithful : ∀ k ∈ [naming, made], ∀ w ∈ k.written d .empty,
      w.1.decode (w.1.encode w.2) = .ok w.2 := by decide +kernel
  have changed : runAlone d [naming, made] .empty =
      ([.ok .changed, .ok .changed], (runAlone d [naming, made] .empty).2) :=
    Prod.ext (by decide +kernel) rfl
  have changed' : runAlone d [naming, renamed] .empty =
      ([.ok .changed, .ok .changed], (runAlone d [naming, renamed] .empty).2) :=
    Prod.ext (by decide +kernel) rfl
  obtain ⟨comm, absorbs⟩ := changes_comm_and_sets_absorb (d := d) (s := .empty) rfl
  obtain ⟨s'', run, same⟩ := comm naming made _ _ resolved rfl rfl (by decide) faithful changed
  obtain ⟨t, alone, resolved', run', same'⟩ := absorbs ⟨"tags", "a"⟩ _ _ none none _
    (faithful naming (by simp)) changed'
  obtain rfl := Except.ok.inj (resolved.symm.trans resolved')
  exact ⟨⟨_, s'', changed, run, same⟩, _, alone, changed', run', same'⟩

end RecordTree
