import RecordTree.Proofs.Store.Sight

/-!
# What a store in a directory touches

A request for a canonical path goes one of four ways (`course`): it only looks, its check fails, the file system does
not take the name of its file, or the change is made and an entry is to be added to the log. In each of them it touches
one file and the log at most, and makes no directories but those on the way there (`touches`).
-/

namespace RecordTree.DirectoryStore

variable {s : DirectoryStore} {q : String} {r : Request} {content? : Option ByteArray}

/-- Whether a request passes the check of its file. -/
def IsFit (s : DirectoryStore) (r : Request) (q : String) : Prop :=
  ∃ before, s.current q = .ok before ∧ r.check q (before.map .ofContent) = .ok ()

/-- The ways that a request for a canonical path can go: it only looks; its check fails, and nothing is done; its file
has a name that the file system does not take, and at most directories are made; or the change is made, and an entry is
to be added to the log. -/
inductive Course (now : Instant) (r : Request) (q : String) (s : DirectoryStore) : Prop where
  | looks (quiet : r.outcome? = none) (state : (call now r s).2 = s)
  | refused {failure : StoreError} (unfit : ¬ s.IsFit r q) (result : call now r s = (.error failure, s))
  | unnamed {failure : StoreError} {content : ByteArray} (changes : r.outcome? = some (some content))
      (fit : s.IsFit r q) (unnamed : ¬ ∀ name ∈ place q, Tree.isName name = true)
      (result : call now r s = (.error failure, { s with tree := (s.tree.makeDirs (place q).dropLast).2 }))
  | made {content? : Option ByteArray} {entry : LogEntry} {tree tree' : Tree} (changes : r.outcome? = some content?)
      (admits : s.Admits r q) (noted : r.note? now = some entry) (changed : s.tree.ChangedAt tree (place q) content?)
      (logged : { s with tree : DirectoryStore }.Logged entry tree') (state : (call now r s).2 = { s with tree := tree' })
      (answer : (call now r s).1.isOk = s.logAnswer.isOk)

theorem course_of_admits (isDir : s.tree.isDir = true) (now : Instant) (changes : r.outcome? = some content?)
    (admits : s.Admits r q) : Course now r q s := by
  obtain ⟨tree, entry, noted, changed, state, done⟩ := call_of_admits isDir now changes admits
  obtain ⟨tree', logged⟩ := exists_logged changed.isDir (s := { s with tree }) entry
  have same := logAnswer_of_changedAt (isCanonical_of_resolve admits.resolved).2 changed
  rw [logged.state, same] at done state
  refine .made changes admits noted changed logged state ?_
  cases answer : s.logAnswer with
  | ok logged =>
      obtain ⟨result, done⟩ := done.mpr answer
      rw [done]
      rfl
  | error failure =>
      cases result : (call now r s).1 with
      | ok result' =>
          have logged' := done.mp ⟨result', result⟩
          rw [answer] at logged'
          cases logged'
      | error failure' => rfl

/-- **Every request for a canonical path goes one of these ways.** -/
theorem course (isDir : s.tree.isDir = true) (resolved : resolve r.path = .ok q) (now : Instant) : Course now r q s := by
  obtain ⟨canonical, -⟩ := isCanonical_of_resolve resolved
  cases r with
  | peek path => exact .looks rfl (congrArg Prod.snd (call_peek now resolved))
  | read path => exact .looks rfl (congrArg Prod.snd (call_read now resolved))
  | list path => exact .looks rfl (congrArg Prod.snd (call_list now resolved))
  | write path message content expected =>
      by_cases fit : s.IsFit (.write path message content expected) q
      · by_cases names : ∀ name ∈ place q, Tree.isName name = true
        · exact course_of_admits isDir now rfl ⟨resolved, fit, names⟩
        · obtain ⟨before, found, checked⟩ := id fit
          exact .unnamed rfl fit names ((call_write now message content expected resolved).trans
            (write_of_unnamed now message content isDir canonical found checked names))
      · obtain ⟨failure, failed⟩ := write_of_unchecked now message content fit
        exact .refused fit ((call_write now message content expected resolved).trans failed)
  | delete path message expected =>
      by_cases fit : s.IsFit (.delete path message expected) q
      · refine course_of_admits isDir now rfl ⟨resolved, fit, ?_⟩
        obtain ⟨before, found, checked⟩ := fit
        cases before with
        | none => cases checked
        | some content => exact Tree.isName_of_file? (current_eq_ok_iff.mp found).2.2
      · obtain ⟨failure, failed⟩ := delete_of_refused now message fit
        exact .refused fit ((call_delete now message expected resolved).trans failed)

/-- What a request for a canonical path does to a store. It touches the file that the path names and the log, and
makes directories on the way to the two. -/
structure Touches (now : Instant) (r : Request) (q : String) (s : DirectoryStore) : Prop where
  root : (call now r s).2.root = s.root
  isDir : (call now r s).2.tree.isDir = true
  tidy : s.tree.Tidy → (call now r s).2.tree.Tidy
  /-- To look at something changes nothing. -/
  looks : r.outcome? = none → (call now r s).2 = s
  /-- Nor does a request whose check fails. -/
  unfit : ¬ s.IsFit r q → (call now r s).2 = s
  /-- A change that is not admitted touches no file. -/
  refused : ¬ s.Admits r q → ∀ p, (call now r s).2.tree.file? p = s.tree.file? p
  /-- A change that is admitted leaves its file as it is to be, … -/
  made : ∀ content?, r.outcome? = some content? → s.Admits r q → (call now r s).2.tree.file? (place q) = content?
  /-- … and no other file but the log is touched. -/
  others : ∀ p, p ≠ place q → p ≠ logPlace → (call now r s).2.tree.file? p = s.tree.file? p
  /-- The log has one line more if a change is done, and else it stays. -/
  logged : ∀ entry, r.note? now = some entry → (call now r s).2.tree.file? logPlace =
    if (call now r s).1.isOk then some ((s.tree.file? logPlace).getD .empty ++ entry.line.toUTF8)
    else s.tree.file? logPlace
  /-- No directory goes. -/
  kept : ∀ p, s.tree.IsDirAt p → (call now r s).2.tree.IsDirAt p
  /-- A directory that comes is above a file that is to be written, or it is the one of the log. -/
  grown : ∀ p, (call now r s).2.tree.IsDirAt p →
    s.tree.IsDirAt p ∨ ((∃ content, r.outcome? = some (some content)) ∧ p <+: place q ∧ p ≠ place q) ∨
      (r.outcome? ≠ none ∧ s.Admits r q ∧ p = [metaName])

/-- The way to the log goes over one directory. -/
theorem above_logPlace {p : List String} (within : p <+: logPlace) (proper : p ≠ logPlace) :
    p = [] ∨ p = [metaName] := by
  have short := within.length_le
  have same := List.prefix_iff_eq_take.mp within
  match length : p.length with
  | 0 => exact .inl (List.length_eq_zero_iff.mp length)
  | 1 => exact .inr (by rw [same, length]; rfl)
  | _ + 2 =>
      have full : p.length = logPlace.length := Nat.le_antisymm short (by rw [length]; exact Nat.le_add_left 2 _)
      exact absurd (within.eq_of_length full) proper

/-- What looks at something leaves no entry. -/
theorem note?_eq_none (quiet : r.outcome? = none) (now : Instant) : r.note? now = none := by
  cases r with
  | peek path => rfl
  | read path => rfl
  | list path => rfl
  | write path message content expected => cases quiet
  | delete path message expected => cases quiet

/-- What changes something leaves an entry when it is done. -/
theorem exists_entry (resolved : resolve r.path = .ok q) (changes : r.outcome? ≠ none) (now : Instant) :
    ∃ entry, r.note? now = some entry := by
  obtain ⟨normal, -⟩ := normalize?_of_resolve resolved
  cases r with
  | peek path => exact absurd rfl changes
  | read path => exact absurd rfl changes
  | list path => exact absurd rfl changes
  | write path message content expected => exact ⟨_, congrArg (Option.map _) normal⟩
  | delete path message expected => exact ⟨_, congrArg (Option.map _) normal⟩

/-- A request that leaves the store as it is touches nothing. -/
theorem touches_of_idle {now : Instant} (isDir : s.tree.isDir = true) (state : (call now r s).2 = s)
    (idle : ∀ content?, r.outcome? = some content? → ¬ s.Admits r q)
    (undone : ∀ entry, r.note? now = some entry → (call now r s).1.isOk = false) : Touches now r q s where
  root := by rw [state]
  isDir := by rw [state, isDir]
  tidy tidy := by rwa [state]
  looks _ := state
  unfit _ := state
  refused _ p := by rw [state]
  made content? changes admits := absurd admits (idle content? changes)
  others p _ _ := by rw [state]
  logged entry noted := by
    rw [undone entry noted, state]
    rfl
  kept p found := by rwa [state]
  grown p found := by
    rw [state] at found
    exact .inl found

/-- **What a request touches.** -/
theorem touches (isDir : s.tree.isDir = true) (resolved : resolve r.path = .ok q) (now : Instant) :
    Touches now r q s := by
  have outside := (isCanonical_of_resolve resolved).2
  have apart : logPlace ≠ place q := by
    intro same
    rw [← same] at outside
    exact outside rfl
  cases course isDir resolved now with
  | looks quiet state =>
      refine touches_of_idle isDir state (fun content? changes => ?_) fun entry noted => ?_
      · rw [quiet] at changes
        cases changes
      · rw [note?_eq_none quiet] at noted
        cases noted
  | refused unfit result =>
      have state : (call now r s).2 = s := by rw [result]
      refine touches_of_idle isDir state (fun _ _ admits => unfit admits.checked) fun _ _ => ?_
      rw [result]
      rfl
  | unnamed changes fit unnamed result =>
      rename_i failure content
      have nonempty : place q ≠ [] := by
        intro top
        rw [top] at unnamed
        exact unnamed (by simp)
      have touched := Tree.touchedAt_makeDirs isDir nonempty
      have files := Tree.file?_makeDirs s.tree (place q).dropLast
      have idle : ¬ s.Admits r q := fun admits => unnamed admits.named
      have state : (call now r s).2 = { s with tree := (s.tree.makeDirs (place q).dropLast).2 } := by rw [result]
      exact {
        root := by rw [state]
        isDir := by rw [state, touched.isDir]
        tidy := fun tidy => by rw [state]; exact touched.tidy tidy
        looks := fun quiet => by rw [changes] at quiet; cases quiet
        unfit := fun unfit => absurd fit unfit
        refused := fun _ p => by rw [state, files]
        made := fun _ _ admits => absurd admits idle
        others := fun p _ _ => by rw [state, files]
        logged := fun entry _ => by rw [result]; exact files logPlace
        kept := fun p found => by rw [state]; exact touched.kept p found
        grown := fun p found => by
          rw [state] at found
          exact (touched.grown p found).imp_right fun ⟨_, above⟩ => .inl ⟨⟨content, changes⟩, above⟩ }
  | made changes admits noted changed logged state answer =>
      rename_i content? entry tree tree'
      have touched := changed.touchedAt
      have same := logAnswer_of_changedAt outside changed
      exact {
        root := by rw [state]
        isDir := by rw [state, logged.touched.isDir]
        tidy := fun tidy => by rw [state]; exact logged.touched.tidy (touched.tidy tidy)
        looks := fun quiet => by rw [changes] at quiet; cases quiet
        unfit := fun unfit => absurd admits.checked unfit
        refused := fun refused => absurd admits refused
        made := fun content' changes' _ => by
          rw [changes] at changes'
          cases changes'
          rw [state, logged.touched.others _ apart.symm, changed.file?, if_pos rfl]
        others := fun p other other' => by rw [state, logged.touched.others p other', touched.others p other]
        logged := fun entry' noted' => by
          rw [noted] at noted'
          cases noted'
          rw [state, logged.file?, same, answer, touched.others logPlace apart]
        kept := fun p found => by rw [state]; exact logged.touched.kept p (touched.kept p found)
        grown := fun p found => by
          rw [state] at found
          rcases logged.touched.grown p found with found | ⟨-, within, proper⟩
          · refine (touched.grown p found).imp_right fun ⟨written, above⟩ => .inl ⟨?_, above⟩
            obtain ⟨content, rfl⟩ := Option.isSome_iff_exists.mp written
            exact ⟨content, changes⟩
          · rcases above_logPlace within proper with rfl | rfl
            · exact .inl (Tree.isDirAt_nil isDir)
            · exact .inr (.inr ⟨by simp [changes], admits, rfl⟩) }

/-- What is seen of the log changes when a change is done, and then there is one. -/
theorem logSight_call (isDir : s.tree.isDir = true) (resolved : resolve r.path = .ok q) (now : Instant) :
    logSight (call now r s).2.tree =
      if r.outcome?.isSome && (call now r s).1.isOk then .ok false else logSight s.tree := by
  have outside : logPlace.head? ≠ (place q).head? := Ne.symm (isCanonical_of_resolve resolved).2
  cases course isDir resolved now with
  | looks quiet state => simp [quiet, state]
  | refused unfit result => simp [result, Except.isOk, Except.toBool]
  | unnamed changes fit unnamed result =>
      have same : (s.tree.makeDirs (place q).dropLast).2.find logPlace = s.tree.find logPlace :=
        Tree.find_makeDirs_of_ne (Tree.head?_ne_head?_dropLast (by decide) outside) (by decide)
      simp [result, Except.isOk, Except.toBool, logSight, same]
  | made changes admits noted changed logged state answer =>
      have same := changed.find logPlace (by decide) outside
      rw [state, answer, changes, logged.seen, logAnswer_of_changedAt (Ne.symm outside) changed, logSight, same]
      rfl

end RecordTree.DirectoryStore
