import Mathlib.Data.List.Forall2
import RecordTree.Proofs.Store.Confinement
import RecordTree.Proofs.Store.History

/-!
# A log that loses nothing

A store lies in a directory tree (`Site`), where it is asked for changes and now and then opened anew. Each request
either is a change that is done, and then the log has one entry more, which tells of it (`Tells`), or the log stays as
it is (`told_or_kept`). To open the store anew finds it as it was left (`Site.Sound.reopened`). So from a store that has
no directory of its own yet, the history is one entry for each change that was done, in order (`history_exact`), of
whatever characters the messages are made.
-/

namespace RecordTree.DirectoryStore

variable {s : DirectoryStore} {q : String} {r : Request} {now : Instant} {entries : List LogEntry}

/-! ### Single requests -/

/-- Whether an entry tells of a change that is asked for at a time of a store in a given state: it has the canonical
path, the message as it is, the kind of the change, and the revision of the content that is written or that there was to
be removed. -/
inductive Tells (s : DirectoryStore) (now : Instant) : Request → LogEntry → Prop where
  | write {path message : String} {content : ByteArray} {expected : Revision} {q : String}
      (normal : Path.normalize? path = some q) :
      Tells s now (.write path message content expected) ⟨⟨q, message, .write, .ofContent content⟩, now⟩
  | delete {path message : String} {content : ByteArray} {expected : Revision} {q : String}
      (normal : Path.normalize? path = some q) (held : s.tree.file? (place q) = some content) :
      Tells s now (.delete path message expected) ⟨⟨q, message, .delete, .ofContent content⟩, now⟩

theorem Tells.time {e : LogEntry} (tells : Tells s now r e) : e.time = now := by
  cases tells <;> rfl

/-- Whether a request is for a change and the change is done. -/
def isDone (s : DirectoryStore) (now : Instant) (r : Request) : Bool :=
  r.outcome?.isSome && (call now r s).1.isOk

/-- What is noted of a change that is admitted tells of it, though for a removal it repeats what the caller expects. -/
theorem tells_of_admits {e : LogEntry} (admits : s.Admits r q) (noted : r.note? now = some e) : Tells s now r e := by
  obtain ⟨normal, -⟩ := normalize?_of_resolve admits.resolved
  obtain ⟨before, found, checked⟩ := admits.checked
  cases r with
  | peek path => cases noted
  | read path => cases noted
  | list path => cases noted
  | write path message content expected =>
      obtain ⟨q', normal', rfl⟩ := Option.map_eq_some_iff.mp noted
      exact .write normal'
  | delete path message expected =>
      have normal : Path.normalize? path = some q := normal
      rw [Request.note?, normal] at noted
      cases noted
      cases before with
      | none => cases checked
      | some content =>
          obtain ⟨-, -, held⟩ := current_eq_ok_iff.mp found
          have expects : Revision.ofContent content = expected := by
            by_contra other
            simp [Request.check, checkDelete, checkSame, other] at checked
          exact expects ▸ .delete normal held

/-- **A change that is done is told of, and nothing else is.** -/
theorem told_or_kept (isDir : s.tree.isDir = true) (remembers : s.Remembers entries) (now : Instant) (r : Request) :
    (s.isDone now r = true ∧ ∃ e, Tells s now r e ∧ (call now r s).2.Remembers (entries ++ [e])) ∨
      s.isDone now r = false ∧ (call now r s).2.Remembers entries := by
  cases resolved : resolve r.path with
  | error failure =>
      rw [isDone, call_of_unresolved now resolved]
      exact .inr ⟨Bool.and_false _, remembers⟩
  | ok q =>
      have outside := (isCanonical_of_resolve resolved).2
      cases course isDir resolved now with
      | looks quiet state =>
          rw [isDone, quiet, state]
          exact .inr ⟨Bool.false_and _, remembers⟩
      | refused unfit result =>
          rw [isDone, result]
          exact .inr ⟨Bool.and_false _, remembers⟩
      | unnamed changes fit unnamed result =>
          rw [isDone, result]
          refine .inr ⟨Bool.and_false _, remembers.of_find ?_⟩
          exact Tree.find_makeDirs_of_ne (Tree.head?_ne_head?_dropLast (by decide) (Ne.symm outside)) (by decide)
      | made changes admits noted changed logged state answer =>
          rename_i content? entry tree tree'
          obtain ⟨grown, content, -, written, remembers'⟩ := (remembers.of_changedAt outside changed).log changed.isDir _
          obtain ⟨success, same⟩ := Prod.mk.inj (logged.state.symm.trans written)
          rw [logAnswer_of_changedAt outside changed] at success
          rw [isDone, changes, answer, success, state, same]
          exact .inl ⟨rfl, entry, tells_of_admits admits noted, remembers'⟩

/-! ### Where a store lies -/

/-- A file system with an open store in it. -/
structure Site where
  disk : FileSystem
  store : DirectoryStore

/-- What happens to an open store: it is asked for something at a time, or it is opened anew. -/
inductive Happening where
  | request (now : Instant) (r : Request)
  | reopening

/-- Whether something happens at a time that can be written down. -/
def Happening.IsPlain : Happening → Prop
  | .request now _ => now.IsPlain
  | .reopening => True

/-- A change that was done: the store that was asked for it, and when it was asked for what. -/
structure Deed where
  store : DirectoryStore
  time : Instant
  request : Request

/-- Whether an entry tells of a change that was done. -/
def Deed.ToldBy (d : Deed) (e : LogEntry) : Prop := Tells d.store d.time d.request e

namespace Site

/-- The site once the directory of its store holds what the store holds now. -/
def settle (site : Site) (s : DirectoryStore) : Site :=
  match site.disk.walk s.root with
  | .ok base => ⟨site.disk.replace base s.tree, s⟩
  | .error _ => ⟨site.disk, s⟩

/-- The site after something happens. A store that cannot be opened anew stays open. -/
def step (site : Site) : Happening → Site
  | .request now r => site.settle (call now r site.store).2
  | .reopening =>
    match ofFound site.store.root (site.disk.reach site.store.root) with
    | .ok s => { site with store := s }
    | .error _ => site

/-- The site after some things happen. -/
def after (site : Site) (happenings : List Happening) : Site := happenings.foldl step site

/-- The change that is done when something happens. -/
def deed? (site : Site) : Happening → Option Deed
  | .request now r => if site.store.isDone now r then some ⟨site.store, now, r⟩ else none
  | .reopening => none

/-- The changes that are done while some things happen, in order. -/
def deeds : Site → List Happening → List Deed
  | _, [] => []
  | site, h :: hs => (site.deed? h).toList ++ (site.step h).deeds hs

/-- Whether a store lies where a root leads and holds what is there. -/
structure Sound (site : Site) (root : String) : Prop where
  root_eq : site.store.root = root
  isDir : site.store.tree.isDir = true
  lies : ∃ base, site.store.LiesAt site.disk base

variable {site : Site} {root : String} {before : List LogEntry}

theorem sound_of_ofFound {disk : FileSystem} (opened : ofFound root (disk.reach root) = .ok s) :
    (⟨disk, s⟩ : Site).Sound root := by
  obtain ⟨isDir, lies⟩ := liesAt_of_ofFound opened
  refine ⟨?_, isDir, lies⟩
  unfold ofFound at opened
  split at opened <;> cases opened
  rfl

/-- **To open a store anew** finds it as it was left. -/
theorem Sound.reopened (sound : site.Sound root) : ofFound root (site.disk.reach root) = .ok site.store := by
  obtain ⟨rfl, isDir, base, walked, held⟩ := sound
  have reached : site.disk.reach site.store.root = .ok site.store.tree := by
    rw [FileSystem.reach, walked]
    exact held
  obtain ⟨disk, root, tree⟩ := site
  cases tree with
  | file content => cases isDir
  | dir children =>
      rw [reached]
      rfl

theorem Sound.step_reopening (sound : site.Sound root) : site.step .reopening = site := by
  rw [step, sound.root_eq, sound.reopened]

/-- A store stays where it is while it is asked. -/
theorem Sound.step_request (sound : site.Sound root) (now : Instant) (r : Request) :
    (site.step (.request now r)).Sound root ∧ (site.step (.request now r)).store = (call now r site.store).2 := by
  obtain ⟨rfl, isDir, base, lies⟩ := sound
  have keeps := Keeps.call isDir now r
  have walked : site.disk.walk (call now r site.store).2.root = .ok base := keeps.root ▸ lies.walked
  rw [step, settle, walked]
  exact ⟨⟨keeps.root, keeps.isDir, base, lies.replace keeps.root keeps.kept⟩, rfl⟩

/-- **One happening** adds an entry to the log if it is a change that is done, and else leaves the log as it is. -/
theorem Sound.step (sound : site.Sound root) (remembers : site.store.Remembers before) {h : Happening}
    (plain : h.IsPlain) :
    (site.step h).Sound root ∧ ∃ entries, List.Forall₂ Deed.ToldBy (site.deed? h).toList entries ∧
      (∀ e ∈ entries, e.time.IsPlain) ∧ (site.step h).store.Remembers (before ++ entries) := by
  cases h with
  | reopening =>
      rw [sound.step_reopening]
      exact ⟨sound, [], .nil, by simp, by rwa [List.append_nil]⟩
  | request now r =>
      obtain ⟨sound', store⟩ := sound.step_request now r
      refine ⟨sound', ?_⟩
      rw [store, deed?]
      rcases told_or_kept sound.isDir remembers now r with ⟨done, e, tells, remembers'⟩ | ⟨undone, remembers'⟩
      · rw [if_pos done]
        refine ⟨[e], .cons tells .nil, ?_, remembers'⟩
        rintro e' mem
        rw [List.mem_singleton.mp mem, tells.time]
        exact plain
      · rw [if_neg (by simp [undone])]
        exact ⟨[], .nil, by simp, by rwa [List.append_nil]⟩

/-- **Any number of happenings** add one entry for each change that is done, in order. -/
theorem Sound.after (sound : site.Sound root) (remembers : site.store.Remembers before)
    {happenings : List Happening} (plain : ∀ h ∈ happenings, h.IsPlain) :
    (site.after happenings).Sound root ∧ ∃ entries, List.Forall₂ Deed.ToldBy (site.deeds happenings) entries ∧
      (∀ e ∈ entries, e.time.IsPlain) ∧ (site.after happenings).store.Remembers (before ++ entries) := by
  induction happenings generalizing site before with
  | nil => exact ⟨sound, [], .nil, by simp, by rwa [List.append_nil]⟩
  | cons h hs ih =>
      obtain ⟨first, others⟩ := List.forall_mem_cons.mp plain
      obtain ⟨sound', entries, told, plain', remembers'⟩ := sound.step remembers first
      obtain ⟨sound'', entries', told', plain'', remembers''⟩ := ih sound' remembers' others
      refine ⟨sound'', entries ++ entries', List.rel_append told told', ?_, ?_⟩
      · exact List.forall_mem_append.mpr ⟨plain', plain''⟩
      · rwa [← List.append_assoc]

end Site

/-- **The log loses nothing.** From a store that is opened anywhere in a file system and has no directory of its own there,
let requests for any paths and with any messages come, and let the store be opened anew in between. Then its history is
one entry for each change that was done, in order, which tells of it, and nothing else; and it is the same store that is
found when it is opened once more. Of the file system it is asked that it takes the path of the log, and of
the clock that its times can be written down. -/
theorem history_exact {disk : FileSystem} {root : String} (opened : ofFound root (disk.reach root) = .ok s)
    (unlogged : s.tree.find [metaName] = .error .missing) (taken : isSystemPath (s.systemPath logPath) = true)
    {happenings : List Happening} (plain : ∀ h ∈ happenings, h.IsPlain) :
    ∃ entries, ((⟨disk, s⟩ : Site).after happenings).store.history = .ok entries ∧
      List.Forall₂ Deed.ToldBy ((⟨disk, s⟩ : Site).deeds happenings) entries ∧
        ofFound root (((⟨disk, s⟩ : Site).after happenings).disk.reach root) =
          .ok ((⟨disk, s⟩ : Site).after happenings).store := by
  have sound : (⟨disk, s⟩ : Site).Sound root := Site.sound_of_ofFound opened
  obtain ⟨sound', entries, told, plain', remembers⟩ := sound.after (remembers_nil taken unlogged) plain
  exact ⟨entries, remembers.history_eq plain', told, sound'.reopened⟩

/-- A store with one file, without a directory of its own. -/
def fresh : DirectoryStore := ⟨"/tmp/data", .dir [("a.json", .file "1".toUTF8)]⟩

/-- The file system around it. The working directory is elsewhere. -/
def spacious : FileSystem := ⟨.dir [("home", .empty), ("tmp", .dir [("data", fresh.tree)])], ["home"]⟩

/-- A message that would end a line early and begin a false entry if it were written down as it is, a change that fails
as the file is there, one that is refused, and one after the store is opened anew. -/
def eventful : List Happening :=
  [.request ⟨0, 0⟩ (.write "./new//b.json" "add b\r\n\n\x7b\"path\":\"a.json\"\x7d\\\u0000é" "2".toUTF8 .none),
    .request ⟨1, 0⟩ (.write "a.json" "add a" "3".toUTF8 .none), .request ⟨2, 0⟩ (.write "../a.json" "" "".toUTF8 .none),
    .reopening, .request ⟨3, 0⟩ (.delete "a.json" "" (.ofContent "1".toUTF8))]

/-- Two of the four requests are remembered. -/
theorem history_exact_eventful :
    ofFound "/tmp/data" (spacious.reach "/tmp/data") = .ok fresh ∧
      fresh.tree.find [metaName] = .error .missing ∧ isSystemPath (fresh.systemPath logPath) = true ∧
        (∀ h ∈ eventful, h.IsPlain) ∧
          ∃ entries, ((⟨spacious, fresh⟩ : Site).after eventful).store.history = .ok entries ∧
            entries.length = 2 := by
  have opened : ofFound "/tmp/data" (spacious.reach "/tmp/data") = .ok fresh := rfl
  have bare : fresh.tree.find [metaName] = .error .missing := rfl
  have taken : isSystemPath (fresh.systemPath logPath) = true := by decide +kernel
  have plain : ∀ h ∈ eventful, h.IsPlain := by
    simp only [eventful, List.forall_mem_cons, Happening.IsPlain]
    exact ⟨⟨rfl, by decide⟩, ⟨rfl, by decide⟩, ⟨rfl, by decide⟩, trivial, ⟨rfl, by decide⟩, by simp⟩
  obtain ⟨entries, history, told, -⟩ := history_exact opened bare taken plain
  refine ⟨opened, bare, taken, plain, entries, history, ?_⟩
  rw [← told.length_eq]
  decide +kernel

end RecordTree.DirectoryStore
