import Mathlib.Data.List.Infix
import RecordTree.Proofs.Record.Faults

/-!
# What a change description tells

A change description is put together from a verb, a collection, an id and an author, with a slash and a mark before
the author between them and without any of them being escaped. A text that stands between two parts and does not overlap
with itself (`Borderless`) can be mistaken only for another occurrence of it within a part
(`append_append_eq_append_append_iff`). So a description tells the verb, and it tells the record and the author but for
records of which the id goes on with what reads as an author, or the collection with what reads as an id
(`changeMessage_eq_iff`); neither comes about without a slash in a collection or a mark in an id.
-/

namespace RecordTree

/-! ### Texts between two parts -/

section Separators

variable {α : Type} {m c c' x x' : List α}

/-- Whether no text begins and ends a given one but the empty text and itself. -/
def Borderless (m : List α) : Prop := ∀ z ∈ m.inits, z <:+ m → z = [] ∨ z = m

instance [DecidableEq α] (m : List α) : Decidable (Borderless m) :=
  inferInstanceAs (Decidable (∀ z ∈ m.inits, z <:+ m → z = [] ∨ z = m))

/-- A separator is found again behind a text if the text is empty or begins with a separator. -/
theorem Borderless.append_eq_append_append (borderless : Borderless m) (same : m ++ x = c ++ (m ++ x')) :
    c = [] ∧ x = x' ∨ ∃ w, c = m ++ w ∧ x = w ++ (m ++ x') := by
  rcases List.append_eq_append_iff.mp same with ⟨w, longer, rest⟩ | ⟨z, shorter, rest⟩
  · exact .inr ⟨w, longer, rest⟩
  · -- what is left of the first separator begins the second one
    have ends : z <:+ m := ⟨c, shorter.symm⟩
    have begins : z <+: m := List.prefix_of_prefix_length_le ⟨x, rest.symm⟩ (List.prefix_append m x') ends.length_le
    rcases borderless z ((List.mem_inits z m).mpr begins) ends with rfl | rfl
    · rw [List.append_nil] at shorter
      exact .inr ⟨[], by rw [List.append_nil, shorter], rest.symm⟩
    · have empty : c = [] := by simpa using shorter
      exact .inl ⟨empty, (List.append_cancel_left rest).symm⟩

/-- **Two parts with a separator between them** are what is before it and behind it, unless one of the parts holds the
separator. -/
theorem Borderless.append_append_eq_iff (borderless : Borderless m) :
    c ++ (m ++ x) = c' ++ (m ++ x') ↔
      c = c' ∧ x = x' ∨ (∃ w, c' = c ++ (m ++ w) ∧ x = w ++ (m ++ x')) ∨
        ∃ w, c = c' ++ (m ++ w) ∧ x' = w ++ (m ++ x) := by
  constructor
  · intro same
    rcases List.append_eq_append_iff.mp same with ⟨u, rfl, rest⟩ | ⟨u, rfl, rest⟩
    · rcases borderless.append_eq_append_append rest with ⟨rfl, rfl⟩ | ⟨w, rfl, rfl⟩
      · exact .inl ⟨(List.append_nil c).symm, rfl⟩
      · exact .inr (.inl ⟨w, rfl, rfl⟩)
    · rcases borderless.append_eq_append_append rest with ⟨rfl, rfl⟩ | ⟨w, rfl, rfl⟩
      · exact .inl ⟨List.append_nil c', rfl⟩
      · exact .inr (.inr ⟨w, rfl, rfl⟩)
  · rintro (⟨rfl, rfl⟩ | ⟨w, rfl, rfl⟩ | ⟨w, rfl, rfl⟩) <;> simp

end Separators

/-- The same for texts. -/
theorem append_append_eq_append_append_iff {m c c' x x' : String} (borderless : Borderless m.toList) :
    c ++ (m ++ x) = c' ++ (m ++ x') ↔
      c = c' ∧ x = x' ∨ (∃ w, c' = c ++ (m ++ w) ∧ x = w ++ (m ++ x')) ∨
        ∃ w, c = c' ++ (m ++ w) ∧ x' = w ++ (m ++ x) := by
  have texts : ∀ p : List Char → Prop, (∃ w : String, p w.toList) ↔ ∃ w, p w := fun p =>
    ⟨fun ⟨w, holds⟩ => ⟨w.toList, holds⟩, fun ⟨w, holds⟩ => ⟨String.ofList w, by rwa [String.toList_ofList]⟩⟩
  simp only [← String.toList_inj, String.toList_append]
  rw [borderless.append_append_eq_iff, ← texts, ← texts]

/-! ### Descriptions -/

/-- What stands before the author in a description. -/
def authorMark : String := "\n\nAuthor: "

/-- What the author adds to a description. -/
def trailer : Option String → String
  | some author => authorMark ++ author
  | none => ""

theorem changeMessage_eq (verb : Verb) (key : RecordKey) (author : Option String) :
    changeMessage verb key author =
      verb.name ++ (" record " ++ (key.collection ++ ("/" ++ (key.id ++ trailer author)))) := by
  cases author <;> simp [changeMessage, RecordKey.text, trailer, authorMark, String.append_assoc]

/-- A description begins with its verb. -/
theorem Verb.name_append_inj {v v' : Verb} {x x' : String} : v.name ++ x = v'.name ++ x' ↔ v = v' ∧ x = x' := by
  constructor
  · intro same
    have first : v = v' := by
      have heads := congrArg (fun text : String => text.toList.head?) same
      cases v <;> cases v' <;> simp [Verb.name] at heads ⊢
    subst first
    exact ⟨rfl, (String.append_right_inj _).mp same⟩
  · rintro ⟨rfl, rfl⟩
    rfl

/-- Where an id with an author is the same text as another one. -/
theorem append_trailer_eq_iff {id id' : String} {a a' : Option String} :
    id ++ trailer a = id' ++ trailer a' ↔
      id = id' ∧ a = a' ∨ (∃ w, id' = id ++ (authorMark ++ w) ∧ a = some (w ++ trailer a')) ∨
        ∃ w, id = id' ++ (authorMark ++ w) ∧ a' = some (w ++ trailer a) := by
  cases a with
  | none =>
      cases a' with
      | none => simp [trailer]
      | some author => simp [trailer]
  | some author =>
      cases a' with
      | none => simp [trailer, eq_comm]
      | some author' =>
          rw [trailer, trailer, append_append_eq_append_append_iff (by decide)]
          simp

/-- Whether the description of a change by one author to one record is that of another one, of which a part holds what
reads as the end of the part. -/
inductive Mistakable (key : RecordKey) (author : Option String) (key' : RecordKey) (author' : Option String) : Prop where
  /-- The id of the other record goes on with what reads as an author. -/
  | author (text : String) (same : key'.collection = key.collection) (longer : key'.id = key.id ++ (authorMark ++ text))
      (rest : author = some (text ++ trailer author'))
  /-- The collection of the other record goes on with what reads as the beginning of an id. -/
  | collection (text : String) (longer : key'.collection = key.collection ++ ("/" ++ text))
      (rest : key.id ++ trailer author = text ++ ("/" ++ (key'.id ++ trailer author')))

/-- Nothing is mistakable for a change to a record with no slash in its collection and no mark in its id. -/
theorem Mistakable.slash_or_mark {key key' : RecordKey} {author author' : Option String}
    (mistakable : Mistakable key author key' author') :
    '/' ∈ key'.collection.toList ∨ authorMark.toList <:+: key'.id.toList := by
  cases mistakable with
  | author text same longer rest => exact .inr ⟨key.id.toList, text.toList, by simp [longer]⟩
  | collection text longer rest => exact .inl (by simp [longer])

/-- **What a description tells.** Changes with the same description are made with the same verb, to the same record and
by the same author, unless one of them is mistakable for the other. -/
theorem changeMessage_eq_iff {verb verb' : Verb} {key key' : RecordKey} {author author' : Option String} :
    changeMessage verb key author = changeMessage verb' key' author' ↔
      verb = verb' ∧ (key = key' ∧ author = author' ∨ Mistakable key author key' author' ∨
        Mistakable key' author' key author) := by
  obtain ⟨collection, id⟩ := key
  obtain ⟨collection', id'⟩ := key'
  rw [changeMessage_eq, changeMessage_eq, Verb.name_append_inj, String.append_right_inj,
    append_append_eq_append_append_iff (by decide), append_trailer_eq_iff]
  dsimp only
  refine and_congr_right fun _ => ⟨?_, ?_⟩
  · rintro (⟨rfl, ⟨rfl, rfl⟩ | ⟨w, rfl, rfl⟩ | ⟨w, rfl, rfl⟩⟩ | ⟨w, rfl, rest⟩ | ⟨w, rfl, rest⟩)
    · exact .inl ⟨rfl, rfl⟩
    · exact .inr (.inl (.author w rfl rfl rfl))
    · exact .inr (.inr (.author w rfl rfl rfl))
    · exact .inr (.inl (.collection w rfl rest))
    · exact .inr (.inr (.collection w rfl rest))
  · rintro (⟨same, rfl⟩ | mistakable | mistakable)
    · cases same
      exact .inl ⟨rfl, .inl ⟨rfl, rfl⟩⟩
    · cases mistakable with
      | author w same longer rest => exact .inl ⟨same.symm, .inr (.inl ⟨w, longer, rest⟩)⟩
      | collection w longer rest => exact .inr (.inl ⟨w, longer, rest⟩)
    · cases mistakable with
      | author w same longer rest => exact .inl ⟨same, .inr (.inr ⟨w, longer, rest⟩)⟩
      | collection w longer rest => exact .inr (.inr ⟨w, longer, rest⟩)

/-- Not all descriptions tell the record and the author: one record can be named so that what nobody has signed reads as
a change to another record by someone else. -/
theorem not_forall_eq_of_changeMessage_eq :
    ¬ ∀ (d : Option Definition) (verb verb' : Verb) (key key' : RecordKey) (author author' : Option String),
        (∃ t, Target.resolve d key = .ok t) → (∃ t, Target.resolve d key' = .ok t) →
          changeMessage verb key author = changeMessage verb' key' author' →
            verb = verb' ∧ key.collection = key'.collection ∧ key.id = key'.id ∧ author = author' := by
  intro told
  obtain ⟨-, -, same, -⟩ := told (some plainTags) .insert .insert ⟨"tags", "a\n\nAuthor: bob"⟩ ⟨"tags", "a"⟩ none
    (some "bob") ⟨_, rfl⟩ ⟨_, rfl⟩ rfl
  revert same
  decide

end RecordTree
