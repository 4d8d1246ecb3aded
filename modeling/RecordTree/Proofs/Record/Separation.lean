import Mathlib
import RecordTree.Definition.File
import RecordTree.Proofs.Path.Template
import RecordTree.Proofs.Record.Faults

/-!
# Records in files of their own

Whether the records of a collection have files of their own. What is got of a record depends on its file alone
(`got_eq`), so a change of one record is not seen in another one that lies elsewhere (`apart_of_files`). Records lie
in different files if and only if the key is left in their paths (`records_apart_iff`), which no definition has to
see to.
-/

namespace RecordTree

open Program MemoryStore

variable {d : Option Definition} {key key' : RecordKey} {s s' : MemoryStore}

/-- Whether two records do not come into each other's way: they lie in different files of a store, and no change of
the first that succeeds, whatever faults are in front of it, changes what is got of the second. -/
structure Apart (d : Option Definition) (key key' : RecordKey) : Prop where
  files : ∀ t t' path, Target.resolve d key = .ok t → Target.resolve d key' = .ok t' →
    storePath t.path = .ok path → storePath t'.path ≠ .ok path
  gets : ∀ (s : MemoryStore) (i : Invocation) (verb : Verb) (reply : Reply), i.operation.key = key →
    i.operation.verb? = some verb → ((i.program d).runOn MemoryStore.call s).1 = .ok reply →
      ((i.program d).runOn MemoryStore.call s).2.got d key' = s.got d key'

/-- **Records in different files are apart.** -/
theorem apart_of_files
    (files : ∀ t t' path, Target.resolve d key = .ok t → Target.resolve d key' = .ok t' →
      storePath t.path = .ok path → storePath t'.path ≠ .ok path) : Apart d key key' := by
  refine ⟨files, fun s i verb reply same changes done => ?_⟩
  obtain rfl := i.eq_changed_of_ok changes done
  obtain ⟨-, t, path, verb', change, resolved, accepted, -, rfl, -, -, changed⟩ := i.changedBy_of_changed done
  rw [same] at resolved
  cases resolved' : Target.resolve d key' with
  | error e => rw [got_of_unresolved _ resolved', got_of_unresolved _ resolved']
  | ok t' =>
      rw [got_eq _ resolved', got_eq _ resolved']
      cases accepted' : storePath t'.path with
      | error e => rfl
      | ok path' =>
          have other : path' ≠ change.path := by
            rintro rfl
            exact files t t' _ resolved resolved' accepted accepted'
          simp only [changed.get?_of_ne other]

/-! ### Records of one collection -/

open RecordTree.Path (IsName KeyIsLeft Escapes)

section Collection

variable {d : Definition} {id i j : String} {c : Collection} {f : RecordFile}

/-- Where the records of a collection lie. -/
theorem path_of_resolve (collection : d.collection? id = some c) (file : c.recordFile = some f) {t : Target}
    (resolved : Target.resolve (some d) ⟨id, i⟩ = .ok t) : t.path = Path.ofRecord c.dir f.name i := by
  obtain ⟨c', f', collection', file', -, path, -, -⟩ := Target.resolve_eq_ok resolved
  obtain rfl : c = c' := by simpa [collection] using collection'
  obtain rfl : f = f' := by simpa [file] using file'
  exact path

/-- A collection with one file per record, in a format that there is, has a target for every id. -/
theorem exists_resolve_of_single (collection : d.collection? id = some c) (file : c.recordFile = some f)
    (single : f.type = .single) {format : Format} (supported : Format.ofName f.format = .ok format)
    (nonempty : i ≠ "") : ∃ t, Target.resolve (some d) ⟨id, i⟩ = .ok t := by
  have layout : resolveLayout c f = .ok .single := by rw [resolveLayout, single]
  have codec : Codec.ofCollection c f = .ok ⟨format, .ofCollection c⟩ := by rw [Codec.ofCollection, supported]; rfl
  exact ⟨_, Target.resolve_of_parts ⟨id, i⟩ collection nonempty file layout codec⟩

/-- Records are apart if the key is left in their paths. -/
theorem apart_of_keyIsLeft (collection : d.collection? id = some c) (file : c.recordFile = some f)
    (left : KeyIsLeft c.dir f.name) (name : IsName i.toList) (name' : IsName j.toList) (other : i ≠ j) :
    Apart (some d) ⟨id, i⟩ ⟨id, j⟩ := by
  refine apart_of_files fun t t' path resolved resolved' accepted => ?_
  rw [path_of_resolve collection file resolved, storePath_eq_ok_iff] at accepted
  rw [path_of_resolve collection file resolved', ne_eq, storePath_eq_ok_iff]
  exact Path.normalize?_ofRecord_ne left name name' other accepted

/-- Records without any file are apart. -/
theorem apart_of_escapes (collection : d.collection? id = some c) (file : c.recordFile = some f)
    (up : Escapes c.dir f.name) (name : IsName i.toList) : Apart (some d) ⟨id, i⟩ ⟨id, j⟩ := by
  refine apart_of_files fun t t' path resolved resolved' accepted => ?_
  rw [path_of_resolve collection file resolved, storePath_eq_ok_iff,
    Path.normalize?_ofRecord_of_escapes name up] at accepted
  cases accepted

/-- All records lie in one file if the key is not left in their paths. -/
theorem exists_shared_file (collection : d.collection? id = some c) (file : c.recordFile = some f)
    (single : f.type = .single) {format : Format} (supported : Format.ofName f.format = .ok format)
    (left : ¬ KeyIsLeft c.dir f.name) (down : ¬ Escapes c.dir f.name) :
    ∃ path, ∀ i : String, IsName i.toList →
      ∃ t, Target.resolve (some d) ⟨id, i⟩ = .ok t ∧ storePath t.path = .ok path := by
  have first : IsName "a".toList := by decide
  obtain ⟨path, normal⟩ : ∃ path, Path.normalize? (Path.ofRecord c.dir f.name "a") = some path :=
    ⟨_, (Path.normalize?_ofRecord first down).2⟩
  refine ⟨path, fun i name => ?_⟩
  have nonempty : i ≠ "" := by
    rintro rfl
    exact name.ne_nil rfl
  obtain ⟨t, resolved⟩ := exists_resolve_of_single collection file single supported nonempty
  refine ⟨t, resolved, ?_⟩
  rw [path_of_resolve collection file resolved, storePath_eq_ok_iff, Path.normalize?_ofRecord_congr left name first]
  exact normal

/-- **When the records of a collection have files of their own**: in a collection with one file per record, any two
records whose ids can be file names are apart if and only if the key is left in the paths of the records when they
are cleaned, or the paths lead out of the store, so that no record has a file. -/
theorem records_apart_iff (collection : d.collection? id = some c) (file : c.recordFile = some f)
    (single : f.type = .single) {format : Format} (supported : Format.ofName f.format = .ok format) :
    (∀ i j : String, IsName i.toList → IsName j.toList → i ≠ j → Apart (some d) ⟨id, i⟩ ⟨id, j⟩) ↔
      KeyIsLeft c.dir f.name ∨ Escapes c.dir f.name := by
  constructor
  · intro apart
    by_contra shared
    rw [not_or] at shared
    obtain ⟨path, records⟩ := exists_shared_file collection file single supported shared.1 shared.2
    obtain ⟨t, resolved, accepted⟩ := records "a" (by decide)
    obtain ⟨t', resolved', accepted'⟩ := records "b" (by decide)
    exact (apart "a" "b" (by decide) (by decide) (by decide)).files t t' path resolved resolved' accepted accepted'
  · rintro (left | up) i j name name' other
    · exact apart_of_keyIsLeft collection file left name name' other
    · exact apart_of_escapes collection file up name

end Collection

/-- A template that has a placeholder for its name keeps all records apart. -/
theorem records_apart_iff_plainTags :
    plainTags.collection? "tags" = some ⟨"tags", "tags", some ⟨"\x7bkey\x7d.json", "json", .single⟩, .empty⟩ ∧
      KeyIsLeft "tags" "\x7bkey\x7d.json" ∧
      ∀ i j : String, IsName i.toList → IsName j.toList → i ≠ j →
        Apart (some plainTags) ⟨"tags", i⟩ ⟨"tags", j⟩ := by
  have left : KeyIsLeft "tags" "\x7bkey\x7d.json" := by decide
  have collection : plainTags.collection? "tags" =
      some ⟨"tags", "tags", some ⟨"\x7bkey\x7d.json", "json", .single⟩, .empty⟩ := rfl
  have supported : Format.ofName "json" = .ok .json := rfl
  exact ⟨collection, left, (records_apart_iff collection rfl rfl supported).mpr (.inl left)⟩

/-! ### A template without a placeholder -/

/-- The collection `st` with one file per record, whose name is the same for all of them. -/
def keylessText : String :=
  "collections: \x7bst: \x7bdir_path: st, record_file: \x7bname: data.json, format: json, type: single_record\x7d\x7d\x7d"

/-- What it says. -/
def keyless : Definition := .add .empty ⟨"st", "st", some ⟨"data.json", "json", .single⟩, .empty⟩

theorem ofYaml_keylessText : Definition.ofYaml keylessText = .ok keyless := by
  cbv

/-- A set of one record makes the other one. -/
theorem not_forall_apart :
    ¬ ∀ (text : String) (d : Definition), (Definition.ofYaml text = .ok d ∨ Definition.ofToml text = .ok d) →
      ∀ (id : String) (c : Collection) (f : RecordFile) (format : Format), d.collection? id = some c →
        c.recordFile = some f → f.type = .single → Format.ofName f.format = .ok format →
          ∀ i j : String, IsName i.toList → IsName j.toList → i ≠ j → Apart (some d) ⟨id, i⟩ ⟨id, j⟩ := by
  intro all
  have apart := all keylessText keyless (.inl ofYaml_keylessText) "st" _ _ .json rfl rfl rfl rfl "a" "b" (by decide)
    (by decide) (by decide)
  let set : Invocation := ⟨none, .put .set ⟨"st", "a"⟩ (.object [])⟩
  have done : ((set.program (some keyless)).runOn MemoryStore.call MemoryStore.empty).1 = .ok .changed := by
    decide +kernel
  have same := apart.gets MemoryStore.empty set .set .changed rfl rfl done
  have before : MemoryStore.empty.got (some keyless) ⟨"st", "b"⟩ = .ok none := by decide +kernel
  have after : ((set.program (some keyless)).runOn MemoryStore.call MemoryStore.empty).2.got (some keyless)
      ⟨"st", "b"⟩ = .ok (some .empty) := by
    decide +kernel
  rw [before, after] at same
  cases same

end RecordTree
