import RecordTree.Proofs.Record.Faults
import RecordTree.Proofs.Store.Listing

/-!
# Listings of collections

A record and a listing reach the store on two ways. The path of a record is cleaned with its directory in front, and a
directory that begins with a slash is a root on which a step up goes nowhere. A listing hands the directory to the
store as it was written, and the store takes the slashes away before it cleans. Mostly both ways lead to the same
place, and then a listing shows the record that was inserted. They part where a rooted directory has more steps up
than names: its records are put below the root, and its listing is refused (`lists_inserted_iff`).
-/

namespace RecordTree

open RecordTree.Program RecordTree.Path

/-! ### One file in a listing -/

/-- The path of a file begins with the path of its directory. -/
theorem MemoryStore.ofNames_concat {names : List Component} (all : ∀ name ∈ names, IsName name) (name : Component) :
    String.ofList (ofNames (names ++ [name])) =
      childPrefix (String.ofList (ofNames names)) ++ String.ofList name := by
  rw [ofNames_eq_of_ne_nil (by simp)]
  by_cases top : names = []
  · subst top
    exact String.empty_append.symm
  · rw [childPrefix, if_neg (DirectoryStore.ofNames_ne_here all top), ofNames_eq_of_ne_nil top,
      joinAll_append top (by simp), ← String.toList_inj]
    simp [joinAll]

/-- **A listing shows a file of its directory once**, under its own name. -/
theorem MemoryStore.filter_entries {m : MemoryStore} {dir q : String} {name : List Char} {content : ByteArray}
    (held : m.files.get? q = some content) (joined : q = childPrefix dir ++ String.ofList name)
    (slashless : '/' ∉ name) :
    (m.entries (childPrefix dir)).filter (fun e => e.kind = .file ∧ e.path = q) =
      [⟨String.ofList name, q, .file⟩] := by
  refine ((m.pairwise_entries _).sublist List.filter_sublist).eq_of_mem_iff (List.pairwise_singleton _ _) fun e => ?_
  rw [List.mem_filter, List.mem_singleton, mem_entries, decide_eq_true_iff]
  constructor
  · rintro ⟨⟨f, -, rest, -, rfl⟩, kind, path⟩
    have same : (entryOf (childPrefix dir) rest).name = String.ofList name := by
      have paths : childPrefix dir ++ (entryOf (childPrefix dir) rest).name =
          childPrefix dir ++ String.ofList name := path.trans joined
      exact String.append_right_inj (childPrefix dir) |>.mp paths
    calc entryOf (childPrefix dir) rest
        = ⟨(entryOf (childPrefix dir) rest).name, (entryOf (childPrefix dir) rest).path,
            (entryOf (childPrefix dir) rest).kind⟩ := rfl
      _ = ⟨String.ofList name, q, .file⟩ := by rw [same, path, kind]
  · rintro rfl
    refine ⟨⟨(q, content), SortedMap.get?_eq_some_iff.mp held, name, ?_, ?_⟩, rfl, rfl⟩
    · rw [joined, String.toList_append, String.toList_ofList]
    · rw [entryOf_eq _ (split_of_slashless slashless), joined]
      rfl

/-- What a listing of a collection comes to. -/
theorem runOn_listFiles {d : Definition} {c : Collection} {id : String} {s : MemoryStore} (faultless : s.faults = [])
    (author : Option String) (collection : d.collection? id = some c) :
    ((⟨some d, author⟩ : Session).listFiles id).runOn MemoryStore.call s =
      match storePath c.dir with
      | .error e => (.error (.store e), s)
      | .ok dir =>
        if (s.entries (MemoryStore.childPrefix dir)).isEmpty ∧ dir ≠ "." then (.error (.store (.notFound dir)), s)
        else (.ok (s.entries (MemoryStore.childPrefix dir)), s) := by
  simp only [Session.listFiles, collection, Program.list, runOn_call, MemoryStore.call_of_faultless faultless,
    MemoryStore.fulfil]
  cases storePath c.dir with
  | error e => rfl
  | ok dir =>
      dsimp only
      split <;> rfl

/-! ### Inserted records -/

/-- Where an insert that succeeds puts its record. -/
theorem exists_file_of_insert {d : Definition} {c : Collection} {f : RecordFile} {key : RecordKey}
    {author : Option String} {data : Value} {s s' : MemoryStore} (faultless : s.faults = [])
    (collection : d.collection? key.collection = some c) (file : c.recordFile = some f)
    (inserted : (Invocation.program (some d) ⟨author, .put .insert key data⟩).runOn MemoryStore.call s =
      (.ok .changed, s')) :
    ∃ q content, storePath (ofRecord c.dir f.name key.id) = .ok q ∧ s'.faults = [] ∧
      s'.files.get? q = some content := by
  obtain ⟨p, q, message, edit, planned, accepted, decided, rfl⟩ := Invocation.exists_edit_of_changed faultless inserted
  obtain ⟨c', f', collection', file', -, path, -⟩ := Target.resolve_eq_ok (Invocation.plan_eq_ok planned).1
  obtain rfl : c = c' := Option.some.inj (collection.symm.trans collection')
  obtain rfl : f = f' := Option.some.inj (file.symm.trans file')
  obtain ⟨verb, -, -, kind⟩ := Invocation.decide_eq_edit planned decided
  cases edit with
  | remove => cases kind
  | write document =>
      refine ⟨q, p.target.codec.format.encode document, path ▸ accepted, (Edit.apply_faults _).trans faultless, ?_⟩
      rw [Edit.get?_apply, if_pos rfl]
      rfl

/-- **When a listing shows an inserted record**: whenever the store does not refuse the directory as it is written,
and it shows the record as one file, under its file name and its path in the store. Else the listing fails, and that
happens to rooted directories alone. -/
theorem lists_inserted_iff {d : Definition} {c : Collection} {f : RecordFile} {key : RecordKey}
    {author : Option String} {data : Value} {s s' : MemoryStore} (faultless : s.faults = [])
    (collection : d.collection? key.collection = some c) (file : c.recordFile = some f)
    (named : IsName (fill key.id.toList f.name.toList))
    (inserted : (Invocation.program (some d) ⟨author, .put .insert key data⟩).runOn MemoryStore.call s =
      (.ok .changed, s')) (reader : Option String) :
    ∃ q, storePath (ofRecord c.dir f.name key.id) = .ok q ∧
      ((∃ entries, ((⟨some d, reader⟩ : Session).listFiles key.collection).runOn MemoryStore.call s' =
            (.ok entries, s') ∧
          entries.filter (fun e => e.kind = .file ∧ e.path = q) =
            [⟨String.ofList (fill key.id.toList f.name.toList), q, .file⟩]) ↔ normalize? c.dir ≠ none) ∧
      (normalize? c.dir = none → c.dir.toList.head? = some '/' ∧
        ((⟨some d, reader⟩ : Session).listFiles key.collection).runOn MemoryStore.call s' =
          (.error (.store (.invalidPath c.dir "escapes the store root")), s')) := by
  obtain ⟨q, content, accepted, faultless', held⟩ := exists_file_of_insert faultless collection file inserted
  have listing := runOn_listFiles faultless' reader collection
  refine ⟨q, accepted, ?_⟩
  -- The record was put below the names that are left of its directory.
  rw [storePath_eq_ok_iff, normalize?_ofRecord_of_isName named] at accepted
  split_ifs at accepted with up
  obtain rfl := Option.some.inj accepted
  cases normal : normalize? c.dir with
  | none =>
      rw [storePath, normal] at listing
      refine ⟨?_, fun _ => ⟨?_, listing⟩⟩
      · simp [listing]
      · by_contra unrooted
        have whole : c.dir.toList.dropWhile (· = '/') = c.dir.toList := by
          cases chars : c.dir.toList with
          | nil => rfl
          | cons first rest => exact List.dropWhile_cons_of_neg (by simpa [chars] using unrooted)
        rw [normalize?_eq, whole, if_neg up] at normal
        cases normal
  | some dir =>
      rw [normalize?_eq] at normal
      split_ifs at normal with up'
      rw [left_dropWhile up', Option.some.injEq] at normal
      have names := isName_of_mem_left up
      have accepted' : storePath c.dir = .ok dir := by
        rw [storePath_eq_ok_iff, normalize?_eq, if_neg up', left_dropWhile up', normal]
      have joined := MemoryStore.ofNames_concat names (fill key.id.toList f.name.toList)
      rw [normal] at joined
      have shown := MemoryStore.filter_entries held joined named.slashless
      simp only [accepted'] at listing
      have filled : ¬((s'.entries (MemoryStore.childPrefix dir)).isEmpty ∧ dir ≠ ".") := by
        rintro ⟨empty, -⟩
        rw [List.isEmpty_iff.mp empty] at shown
        cases shown
      rw [if_neg filled] at listing
      constructor
      · simp only [ne_eq, reduceCtorEq, not_false_eq_true, iff_true]
        exact ⟨_, listing, shown⟩
      · intro missing
        cases missing

/-- A tag that was inserted is listed. -/
theorem lists_inserted_iff_plainTags :
    let d := plainTags
    let i : Invocation := ⟨none, .put .insert ⟨"tags", "a"⟩ (.object [])⟩
    let s' := ((i.program (some d)).runOn MemoryStore.call .empty).2
    (i.program (some d)).runOn MemoryStore.call .empty = (.ok .changed, s') ∧
      ∃ entries, ((⟨some d, none⟩ : Session).listFiles "tags").runOn MemoryStore.call s' = (.ok entries, s') ∧
        entries.filter (fun e => e.kind = .file ∧ e.path = "tags/a.json") = [⟨"a.json", "tags/a.json", .file⟩] := by
  intro d i s'
  have inserted : (i.program (some d)).runOn MemoryStore.call .empty = (.ok .changed, s') :=
    Prod.ext (by decide) rfl
  have collection : d.collection? (⟨"tags", "a"⟩ : RecordKey).collection = some _ := rfl
  obtain ⟨q, accepted, shown, -⟩ := lists_inserted_iff rfl collection rfl (by decide) inserted none
  have path : storePath "tags/a.json" = .ok "tags/a.json" := by decide
  obtain rfl : q = "tags/a.json" := Except.ok.inj (accepted.symm.trans path)
  exact ⟨inserted, shown.mpr (by decide)⟩

/-- Tags in the directory above the root. -/
def tagsAboveRoot : Definition :=
  .add .empty ⟨"tags", "/..", some ⟨placeholder ++ ".json", "json", .single⟩, .empty⟩

/-- Not every record that was inserted is listed: a tag in the directory above the root is put into the root, and the
directory cannot be listed. -/
theorem not_forall_listed :
    ¬ ∀ (d : Definition) (c : Collection) (f : RecordFile) (key : RecordKey) (author reader : Option String)
        (data : Value) (s s' : MemoryStore),
      s.faults = [] → d.collection? key.collection = some c → c.recordFile = some f → f.type = .single →
        '/' ∉ f.name.toList → '/' ∉ key.id.toList → fill key.id.toList f.name.toList ∉ [[], here, above] →
          (Invocation.program (some d) ⟨author, .put .insert key data⟩).runOn MemoryStore.call s =
              (.ok .changed, s') →
            ∃ q entries, storePath (ofRecord c.dir f.name key.id) = .ok q ∧
              ((⟨some d, reader⟩ : Session).listFiles key.collection).runOn MemoryStore.call s' = (.ok entries, s') ∧
                entries.filter (fun e => e.kind = .file ∧ e.path = q) =
                  [⟨String.ofList (fill key.id.toList f.name.toList), q, .file⟩] := by
  intro listed
  let i : Invocation := ⟨none, .put .insert ⟨"tags", "a"⟩ (.object [])⟩
  let s' := ((i.program (some tagsAboveRoot)).runOn MemoryStore.call .empty).2
  have inserted : (i.program (some tagsAboveRoot)).runOn MemoryStore.call .empty = (.ok .changed, s') :=
    Prod.ext (by decide) rfl
  obtain ⟨q, entries, -, listing, -⟩ := listed tagsAboveRoot _ _ ⟨"tags", "a"⟩ none none (.object []) .empty s' rfl
    rfl rfl rfl (by decide) (by decide) (by decide) inserted
  have refused : (((⟨some tagsAboveRoot, none⟩ : Session).listFiles "tags").runOn MemoryStore.call s').1 =
      .error (.store (.invalidPath "/.." "escapes the store root")) := by decide
  rw [listing] at refused
  cases refused

end RecordTree
