import RecordTree.Proofs.Json.Part
import RecordTree.Proofs.Time
import RecordTree.Store.Log

/-!
# The change log, read back

The text of a log is read back as the entries that were written (`Log.read?_text`). It is cut into the lines that
were written, since no line has a line break in it before its end; and each line is read back, whatever stands in
its message and its path (`LogEntry.read?_line`). What is added at the end of a log is added at the end of its
text (`Log.text_append`).
-/

namespace RecordTree

namespace LogEntry

/-- The fields of an entry with their texts. -/
def texts (e : LogEntry) : List (String × String) :=
  [("path", e.change.path), ("message", e.change.message), ("kind", e.change.kind.name),
    ("revision", e.change.revision.text), ("at", e.time.text)]

/-- The line of an entry without its line break. -/
def chars (e : LogEntry) : List Char := Json.compactValue e.value []

theorem toList_line (e : LogEntry) : e.line.toList = e.chars ++ ['\n'] := by
  simp [line, Json.compact, chars]

/-- Each field of an entry stands once. -/
theorem only?_texts (e : LogEntry) :
    only? "path" (Json.textParts e.texts) = some (Json.quoted e.change.path.toList []) ∧
      only? "message" (Json.textParts e.texts) = some (Json.quoted e.change.message.toList []) ∧
      only? "kind" (Json.textParts e.texts) = some (Json.quoted e.change.kind.name.toList []) ∧
      only? "revision" (Json.textParts e.texts) = some (Json.quoted e.change.revision.text.toList []) ∧
      only? "at" (Json.textParts e.texts) = some (Json.quoted e.time.text.toList []) :=
  ⟨rfl, rfl, rfl, rfl, rfl⟩

/-- **The line of an entry is read back.** -/
theorem read?_line {e : LogEntry} (plain : e.time.IsPlain) : read? e.chars = some e := by
  have fields : Json.fields? e.chars = some (Json.textParts e.texts) :=
    Json.fields?_compact (show e.texts ≠ [] by simp [texts])
  have noItems : Json.items? e.chars = none := rfl
  have kind : kind? (Json.quoted e.change.kind.name.toList []) = some e.change.kind := by
    rw [kind?, Json.string?_quoted]
    exact ChangeKind.ofName?_name _
  obtain ⟨path, message, kind', revision, time⟩ := e.only?_texts
  rw [read?, noItems, fields]
  simp only [path, message, kind', revision, time, ofParts?, Json.string?_quoted, kind, Instant.read?_text plain,
    Option.bind_eq_bind, Option.bind_some]
  rfl

/-- No line has a control character in it before its end. -/
theorem control_chars (e : LogEntry) : ∀ c ∈ e.chars, 0x20 ≤ c.toNat := by
  have brace : ∀ c ∈ ['\x7d'], 0x20 ≤ c.toNat := by simp
  exact List.forall_mem_cons.mpr ⟨by decide, Json.control_compactFields e.texts brace⟩

end LogEntry

namespace Log

/-- A line without control characters is cut off at its end. -/
theorem go_append {line : List Char} (plain : ∀ c ∈ line, 0x20 ≤ c.toNat) (acc rest : List Char)
    (before : ∀ c ∈ acc, 0x20 ≤ c.toNat) :
    lines.go acc (line ++ '\n' :: rest) = (acc.reverse ++ line) :: lines rest := by
  induction line generalizing acc with
  | nil =>
      rw [List.nil_append, List.append_nil, lines.go]
      · rfl
      · rintro acc rfl
        exact absurd (before '\r' List.mem_cons_self) (by decide)
  | cons c line ih =>
      obtain ⟨first, others⟩ := List.forall_mem_cons.mp plain
      have inside : c ≠ '\n' := by
        rintro rfl
        exact absurd first (by decide)
      rw [List.cons_append, lines.go, ih others _ (List.forall_mem_cons.mpr ⟨first, before⟩)]
      · simp
      · exact inside

/-- The text of a log. -/
def text (entries : List LogEntry) : String := String.ofList (entries.flatMap fun e => e.line.toList)

theorem text_append_text (entries entries' : List LogEntry) :
    text (entries ++ entries') = text entries ++ text entries' := by
  simp [text]

theorem text_singleton (e : LogEntry) : text [e] = e.line := by
  simp [text]

/-- An entry is added at the end. -/
theorem text_append (entries : List LogEntry) (e : LogEntry) : text (entries ++ [e]) = text entries ++ e.line := by
  rw [text_append_text, text_singleton]

theorem lines_text (entries : List LogEntry) : lines (text entries).toList = entries.map LogEntry.chars := by
  rw [text, String.toList_ofList]
  induction entries with
  | nil => rfl
  | cons e entries ih =>
      rw [List.flatMap_cons, LogEntry.toList_line, List.append_assoc, List.singleton_append, lines,
        go_append e.control_chars [] _ (by simp), ih]
      rfl

/-- **A log is read back.** -/
theorem read?_text {entries : List LogEntry} (plain : ∀ e ∈ entries, e.time.IsPlain) :
    read? (text entries) = some entries := by
  have solid : ∀ e : LogEntry, (!e.chars.all Text.isBlank) = true := fun e => rfl
  have kept : (entries.map LogEntry.chars).filter (fun cs => !cs.all Text.isBlank) = entries.map LogEntry.chars := by
    refine List.filter_eq_self.mpr fun cs mem => ?_
    obtain ⟨e, -, rfl⟩ := List.mem_map.mp mem
    exact solid e
  rw [read?, lines_text, kept]
  clear kept
  induction entries with
  | nil => rfl
  | cons e entries ih =>
      obtain ⟨first, others⟩ := List.forall_mem_cons.mp plain
      rw [List.map_cons, List.mapM_cons, LogEntry.read?_line first, ih others]
      rfl

end Log

end RecordTree
