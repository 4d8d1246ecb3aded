import Mathlib.Data.Set.Basic
import RecordTree.Proofs.Record.Alone
import RecordTree.Proofs.Value

/-!
# A database is a map from keys to records

As far as operations can tell, a database is a plain map from keys to fields (`Operation.onMap`): a get answers
what the map holds, a put replaces it, an insertion asks that there is nothing, and a deletion that there is
something. Two conditions are needed. Different keys lead to different files, unless they belong to one shared
collection (`Separate`), and documents are read back as they are written.

`Represents` relates a store and a map: each key's record is seen in its file as the map has it. One operation
preserves it (`Represents.step`), and so does a run (`runAlone_refines`).
-/

namespace RecordTree

open Program

/-! ### Maps -/

/-- What an operation does to a map from keys to fields, and what it answers. -/
def Operation.onMap (m : RecordKey → Option Fields) : Operation → Result × (RecordKey → Option Fields)
  | get key => (.ok (.seen (m key)), m)
  | put mode key data =>
    match data.fields? with
    | none => (.error (.invalidPayload key data.kind), m)
    | some fields =>
      if mode = .insert ∧ (m key).isSome then (.error (.alreadyExists key), m)
      else (.ok .changed, Function.update m key (some fields))
  | delete key =>
    if (m key).isNone then (.error (.notFound key), m)
    else (.ok .changed, Function.update m key none)

/-- What operations do to a map, one after the other, and what they answer. -/
def runOnMap : List Invocation → (RecordKey → Option Fields) →
    List Result × (RecordKey → Option Fields)
  | [], m => ([], m)
  | i :: rest, m =>
    let (result, m) := i.operation.onMap m
    let (results, m) := runOnMap rest m
    (result :: results, m)

/-! ### Conditions -/

variable {d : Option Definition} {K : Set RecordKey}

/-- The keys lead to accepted paths, and different keys to different ones, unless they belong to one shared
collection. -/
structure Separate (d : Option Definition) (K : Set RecordKey) : Prop where
  resolves : ∀ key ∈ K, ∃ t path, Target.resolve d key = .ok t ∧ storePath t.path = .ok path
  apart : ∀ key ∈ K, ∀ key' ∈ K, key ≠ key' →
    ∀ t t', Target.resolve d key = .ok t → Target.resolve d key' = .ok t' →
      storePath t.path = storePath t'.path → key.collection = key'.collection ∧ t.layout = .shared

/-- Whether every file that a key leads to can be read. -/
def Readable (d : Option Definition) (K : Set RecordKey) (s : MemoryStore) : Prop :=
  ∀ key ∈ K, ∀ t content, Target.resolve d key = .ok t → s.file? t.path = some content →
    t.decodes content = true

/-- The documents that operations write, one after the other. -/
def written (d : Option Definition) : List Invocation → MemoryStore → List (Format × Value)
  | [], _ => []
  | i :: rest, s =>
    (i.written d s).toList ++ written d rest ((i.program d).runOn MemoryStore.call s).2

/-- What a get reads in a store, as a map. -/
def MemoryStore.records (d : Option Definition) (s : MemoryStore) (key : RecordKey) : Option Fields :=
  match ((⟨d, none⟩ : Session).get key).runOn call s with
  | (.ok fields, _) => fields
  | (.error _, _) => none

/-! ### The invariant -/

/-- A store shows of each key what a map has. -/
structure Represents (d : Option Definition) (K : Set RecordKey) (s : MemoryStore)
    (m : RecordKey → Option Fields) : Prop where
  faultless : s.faults = []
  seen : ∀ key ∈ K, ∀ t, Target.resolve d key = .ok t → t.seen (s.file? t.path) = .ok (m key)

/-! ### Decisions -/

/-- **What is decided about a file** is what the operation does to a map that has what is seen in it. -/
theorem Plan.decide_eq {i : Invocation} {p : Plan} (planned : i.plan d = .ok p)
    {content : Option ByteArray} {m : RecordKey → Option Fields}
    (seen : p.target.seen content = .ok (m i.operation.key)) :
    (∃ result, p.decide content = .answer result ∧ i.operation.onMap m = (result, m)) ∨
      ∃ message e x, p.decide content = .edit message e ∧
        i.operation.onMap m = (.ok .changed, Function.update m i.operation.key x) ∧
        (e.Faithful p.target.codec.format → p.target.Becomes content (e.content p.target.codec.format) x) := by
  obtain ⟨resolved, -, decides⟩ := i.plan_eq_ok planned
  have key := Target.key_of_resolve resolved
  cases operation : i.operation with
  | get key' =>
      rw [operation] at decides seen
      exact .inl ⟨_, by rw [decides, seen]; rfl, rfl⟩
  | put mode key' data =>
      rw [operation] at decides seen key
      obtain ⟨fields, payload, decides⟩ := decides
      simp only [Operation.onMap, fields?_of_payload payload]
      by_cases present : mode = .insert ∧ (m key').isSome
      · obtain ⟨rfl, there⟩ := present
        obtain ⟨x, held⟩ := Option.isSome_iff_exists.mp there
        have refused := Target.put_insert_of_present (seen.trans (congrArg _ held)) fields
        refine .inl ⟨.error (.alreadyExists key'), ?_, by simp only [there, and_self, ↓reduceIte]⟩
        rw [decides, refused, key]
        rfl
      · obtain ⟨e, put, becomes⟩ := Target.put_of_vacant seen present fields
        refine .inr ⟨changeMessage mode.verb key' i.author, e, some fields, ?_, ?_, becomes⟩
        · rw [decides, put]
          rfl
        · simp only [present, ↓reduceIte]
          rfl
  | delete key' =>
      rw [operation] at decides seen key
      simp only [Operation.onMap]
      cases held : m key' with
      | none =>
          have refused := Target.removed_of_missing (seen.trans (congrArg _ held))
          refine .inl ⟨.error (.notFound key'), ?_, rfl⟩
          rw [decides, refused, key]
          rfl
      | some x =>
          obtain ⟨e, removed, becomes⟩ := Target.removed_of_present (seen.trans (congrArg _ held))
          refine .inr ⟨changeMessage .delete key' i.author, e, none, ?_, rfl, becomes⟩
          rw [decides, removed]
          rfl

/-- An operation on a key that leads to a file fails its checks only if its payload is no mapping. -/
theorem Operation.onMap_of_unplanned {i : Invocation} {t : Target}
    (resolved : Target.resolve d i.operation.key = .ok t) {e : RecordError} (planned : i.plan d = .error e)
    (m : RecordKey → Option Fields) : i.operation.onMap m = (.error e, m) := by
  obtain ⟨author, operation⟩ := i
  cases operation with
  | get key =>
      change Target.resolve d key = .ok t at resolved
      simp [Invocation.plan, resolved] at planned
  | put mode key data =>
      change Target.resolve d key = .ok t at resolved
      cases payload : Session.payload key data with
      | ok fields =>
          simp only [Invocation.plan, payload, resolved] at planned
          cases planned
      | error e' =>
          simp only [Invocation.plan, payload] at planned
          cases planned
          unfold Session.payload at payload
          split at payload
          · cases payload
          · rename_i fields
            cases payload
            simp only [onMap, fields]
  | delete key =>
      change Target.resolve d key = .ok t at resolved
      simp [Invocation.plan, resolved] at planned

namespace Represents

variable {s : MemoryStore} {m : RecordKey → Option Fields}

/-- An edit that changes what is seen of one key changes the map at this key. -/
theorem apply (represents : Represents d K s m) (separate : Separate d K) {key : RecordKey} (within : key ∈ K)
    {t : Target} (resolved : Target.resolve d key = .ok t) {path : String}
    (accepted : storePath t.path = .ok path) {e : Edit} {x : Option Fields}
    (becomes : t.Becomes (s.file? t.path) (e.content t.codec.format) x) (message : String)
    (expected : Revision) :
    Represents d K (e.apply t.codec.format path message expected s) (Function.update m key x) := by
  refine ⟨(Edit.apply_faults e).trans represents.faultless, ?_⟩
  intro key' within' t' resolved'
  obtain ⟨t', path', again, accepted'⟩ := separate.resolves key' within'
  obtain rfl := Except.ok.inj (resolved'.symm.trans again)
  have seen := represents.seen key' within' t' resolved'
  rw [MemoryStore.file?_eq accepted'] at seen ⊢
  rw [MemoryStore.file?_eq accepted] at becomes
  rw [Edit.get?_apply]
  by_cases same : key' = key
  · subst same
    obtain rfl := Except.ok.inj (resolved.symm.trans resolved')
    obtain rfl : path = path' := by simpa [accepted] using accepted'
    simpa using becomes.own
  · rw [Function.update_of_ne same]
    by_cases shares : path' = path
    · subst shares
      obtain ⟨collection, shared⟩ := separate.apart key within key' within' (Ne.symm same) t t' resolved
        resolved' (accepted.trans accepted'.symm)
      obtain ⟨layout, codec⟩ := Target.resolve_congr resolved resolved' collection
      simp only [↓reduceIte]
      refine becomes.others t' shared (layout ▸ shared) codec.symm (fun id => same ?_) _ seen
      rw [Target.key_of_resolve resolved, Target.key_of_resolve resolved'] at id
      obtain ⟨_, _⟩ := key
      obtain ⟨_, _⟩ := key'
      cases collection
      cases id
      rfl
    · simpa [shares] using seen

/-- **One operation** does to a store what it does to the map that the store represents. -/
theorem step (represents : Represents d K s m) (separate : Separate d K) {i : Invocation}
    (within : i.operation.key ∈ K)
    (faithful : ∀ w ∈ i.written d s, w.1.decode (w.1.encode w.2) = .ok w.2) :
    ((i.program d).runOn MemoryStore.call s).1 = (i.operation.onMap m).1 ∧
      Represents d K ((i.program d).runOn MemoryStore.call s).2 (i.operation.onMap m).2 := by
  obtain ⟨t, path, resolved, accepted⟩ := separate.resolves _ within
  cases planned : i.plan d with
  | error e =>
      rw [i.program_eq, planned, Operation.onMap_of_unplanned resolved planned]
      exact ⟨rfl, represents⟩
  | ok p =>
      obtain rfl := Except.ok.inj (resolved.symm.trans (i.plan_eq_ok planned).1)
      rw [i.runOn_program represents.faultless planned accepted]
      obtain ⟨result, decided, onMap⟩ | ⟨message, e, x, decided, onMap, becomes⟩ :=
        p.decide_eq planned (represents.seen _ within p.target resolved)
      · rw [decided, onMap]
        exact ⟨rfl, represents⟩
      · have reads := i.faithful_of_decide planned decided faithful
        rw [decided, onMap]
        exact ⟨rfl, represents.apply separate within resolved accepted (becomes reads) message _⟩

end Represents

/-! ### Runs -/

variable {s : MemoryStore}

/-- A store whose files can be read represents the map of what a get reads. -/
theorem represents_records (separate : Separate d K) (faultless : s.faults = []) (readable : Readable d K s) :
    Represents d K s (s.records d) := by
  refine ⟨faultless, fun key within t resolved => ?_⟩
  obtain ⟨t', path, again, accepted⟩ := separate.resolves key within
  obtain rfl := Except.ok.inj (resolved.symm.trans again)
  have seen : ∃ x, t.seen (s.file? t.path) = .ok x := by
    cases held : s.file? t.path with
    | none => exact ⟨none, t.seen_none⟩
    | some content => exact Target.exists_seen_of_decodes (readable key within t content resolved held)
  obtain ⟨x, seen⟩ := seen
  rw [MemoryStore.records, runOn_get faultless none resolved accepted, seen]

/-- What a run does to a store is what it does to the map that the store represents. -/
theorem Represents.run {m : RecordKey → Option Fields} (represents : Represents d K s m)
    (separate : Separate d K) {invocations : List Invocation}
    (within : ∀ i ∈ invocations, i.operation.key ∈ K)
    (faithful : ∀ w ∈ written d invocations s, w.1.decode (w.1.encode w.2) = .ok w.2) :
    (runAlone d invocations s).1 = (runOnMap invocations m).1 ∧
      Represents d K (runAlone d invocations s).2 (runOnMap invocations m).2 := by
  induction invocations generalizing s m with
  | nil => exact ⟨rfl, represents⟩
  | cons i rest ih =>
      simp only [List.forall_mem_cons] at within
      simp only [written, List.forall_mem_append, Option.mem_toList] at faithful
      obtain ⟨result, represents'⟩ := represents.step separate within.1 faithful.1
      obtain ⟨results, represents''⟩ := ih represents' within.2 faithful.2
      simp only [runAlone, runOnMap]
      exact ⟨by rw [result, results], represents''⟩

/-- **A database is a map.** Operations answer what they answer on the map of what a get reads at first, and
at the end a get of every key reads what that map has then. -/
theorem runAlone_refines (separate : Separate d K) (faultless : s.faults = []) (readable : Readable d K s)
    {invocations : List Invocation} (within : ∀ i ∈ invocations, i.operation.key ∈ K)
    (faithful : ∀ w ∈ written d invocations s, w.1.decode (w.1.encode w.2) = .ok w.2) :
    (runAlone d invocations s).1 = (runOnMap invocations (s.records d)).1 ∧
      ∀ key ∈ K, ∀ author,
        ((⟨d, author⟩ : Session).get key).runOn MemoryStore.call (runAlone d invocations s).2 =
          (.ok ((runOnMap invocations (s.records d)).2 key), (runAlone d invocations s).2) := by
  obtain ⟨results, represents⟩ :=
    (represents_records separate faultless readable).run separate within faithful
  refine ⟨results, fun key mem author => ?_⟩
  obtain ⟨t, path, resolved, accepted⟩ := separate.resolves key mem
  rw [runOn_get represents.faultless author resolved accepted, represents.seen key mem t resolved]

/-! ### Two layouts in one run -/

/-- Cities with names in several languages, each in a file of its own, and tags that share a file. -/
def atlas : Definition :=
  (Definition.empty.add
    ⟨"cities", "cities", some ⟨Path.placeholder ++ ".json", "json", .single⟩,
      .insert .empty "name" ⟨.string, some "en"⟩⟩).add
    ⟨"tags", "tags", some ⟨"all.yaml", "yaml", .shared⟩, .empty⟩

/-- The store has the German name of a city, and a tag without fields. -/
def atlasStore : MemoryStore :=
  (MemoryStore.empty.seed "cities/c.json"
    "\x7b\"name\": \x7b\"de\": \"Wien\"\x7d\x7d".toUTF8).seed "tags/all.yaml" "a: null\n".toUTF8

/-- A city and two tags. -/
def atlasKeys : List RecordKey := [⟨"cities", "c"⟩, ⟨"tags", "a"⟩, ⟨"tags", "b"⟩]

/-- The files of the city and of the tags. -/
def atlasTarget (key : RecordKey) : Target :=
  if key.collection = "cities" then ⟨key, "cities/c.json", .single, ⟨.json, ⟨[("name", "en")]⟩⟩⟩
  else ⟨key, "tags/all.yaml", .shared, ⟨.yaml, ⟨[]⟩⟩⟩

/-- The city is given an English name, one tag is made and the other one is deleted. -/
def atlasRun : List Invocation :=
  [⟨none, .put .set ⟨"cities", "c"⟩ (.object [("name", .string "Vienna")])⟩,
    ⟨none, .get ⟨"cities", "c"⟩⟩,
    ⟨none, .put .insert ⟨"tags", "b"⟩ (.object [("n", .number (.whole 1))])⟩,
    ⟨none, .delete ⟨"tags", "a"⟩⟩,
    ⟨none, .put .insert ⟨"tags", "b"⟩ (.object [])⟩]

theorem resolve_atlas : ∀ key ∈ atlasKeys, Target.resolve (some atlas) key = .ok (atlasTarget key) := by
  decide

theorem separate_atlas : Separate (some atlas) {key | key ∈ atlasKeys} := by
  have accepted : ∀ key ∈ atlasKeys, storePath (atlasTarget key).path = .ok (atlasTarget key).path := by
    decide
  have apart : ∀ key ∈ atlasKeys, ∀ key' ∈ atlasKeys, key ≠ key' →
      storePath (atlasTarget key).path = storePath (atlasTarget key').path →
        key.collection = key'.collection ∧ (atlasTarget key).layout = .shared := by
    decide
  refine ⟨fun key mem => ⟨_, _, resolve_atlas key mem, accepted key mem⟩, ?_⟩
  intro key mem key' mem' different t t' resolved resolved' same
  rw [resolve_atlas key mem] at resolved
  rw [resolve_atlas key' mem'] at resolved'
  cases resolved
  cases resolved'
  exact apart key mem key' mem' different same

/-- A run over a localized file and a shared one. -/
theorem runAlone_refines_atlas :
    Separate (some atlas) {key | key ∈ atlasKeys} ∧ atlasStore.faults = [] ∧
      Readable (some atlas) {key | key ∈ atlasKeys} atlasStore ∧
      (∀ i ∈ atlasRun, i.operation.key ∈ {key | key ∈ atlasKeys}) ∧
      (∀ w ∈ written (some atlas) atlasRun atlasStore, w.1.decode (w.1.encode w.2) = .ok w.2) ∧
      (runAlone (some atlas) atlasRun atlasStore).1 =
        (runOnMap atlasRun (atlasStore.records (some atlas))).1 ∧
      ∀ key ∈ {key | key ∈ atlasKeys}, ∀ author,
        ((⟨some atlas, author⟩ : Session).get key).runOn MemoryStore.call
            (runAlone (some atlas) atlasRun atlasStore).2 =
          (.ok ((runOnMap atlasRun (atlasStore.records (some atlas))).2 key),
            (runAlone (some atlas) atlasRun atlasStore).2) := by
  have faultless : atlasStore.faults = [] := by decide
  have readable : Readable (some atlas) {key | key ∈ atlasKeys} atlasStore := by
    have decodes : ∀ key ∈ atlasKeys,
        (atlasStore.file? (atlasTarget key).path).all (atlasTarget key).decodes = true := by
      decide +kernel
    intro key mem t content resolved held
    rw [resolve_atlas key mem] at resolved
    cases resolved
    simpa [held] using decodes key mem
  have within : ∀ i ∈ atlasRun, i.operation.key ∈ {key | key ∈ atlasKeys} := by
    have keys : ∀ i ∈ atlasRun, i.operation.key ∈ atlasKeys := by decide
    exact keys
  have faithful : ∀ w ∈ written (some atlas) atlasRun atlasStore, w.1.decode (w.1.encode w.2) = .ok w.2 := by
    decide +kernel
  obtain ⟨results, gets⟩ := runAlone_refines separate_atlas faultless readable within faithful
  exact ⟨separate_atlas, faultless, readable, within, faithful, results, gets⟩

end RecordTree
