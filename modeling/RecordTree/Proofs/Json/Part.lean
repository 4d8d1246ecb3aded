import RecordTree.Json.Part
import RecordTree.Proofs.Json.Text

/-!
# Parts of a JSON text, found again

An object of texts that was written without blanks is taken apart into its fields (`fields?_compact`). A part that
is a text ends at its own closing quote, whatever characters are in it, since no quote is written without a
backslash before it (`part_quoted`). What is written has no control character (`control_quoted`), and so no line
break.
-/

namespace RecordTree.Json

/-! ### Texts -/

/-- One character more of a text is dropped. -/
theorem skipString_escape (fuel : Nat) (c : Char) (rest : List Char) :
    skipString (fuel + 1) (escape c ++ rest) = skipString fuel rest := by
  unfold escape
  split_ifs with quote backslash plain newline return' tab back form
  · rfl
  · rfl
  · rw [List.singleton_append, skipString]
    · rw [if_neg (by omega)]
    · exact quote
    · exact fun _ same => absurd same backslash
    · exact fun _ _ same => absurd same backslash
  · rfl
  · rfl
  · rfl
  · rfl
  · rfl
  · have digits := fourHex_hexDigits (n := c.toNat) (by omega) rest
    simp only [List.cons_append, List.nil_append, skipString, digits]

theorem skipString_flatMap_escape (s : List Char) {fuel : Nat} (enough : s.length < fuel) (rest : List Char) :
    skipString fuel (s.flatMap escape ++ '"' :: rest) = some rest := by
  induction s generalizing fuel with
  | nil =>
      cases fuel with
      | zero => simp at enough
      | succ fuel => rfl
  | cons c s ih =>
      cases fuel with
      | zero => simp at enough
      | succ fuel =>
          rw [List.flatMap_cons, List.append_assoc, skipString_escape]
          exact ih (by simpa using enough)

theorem quoted_eq_append (s rest : List Char) : quoted s rest = quoted s [] ++ rest := by
  simp [quoted]

/-- **A quoted text is a part.** -/
theorem part_quoted (s rest : List Char) : part (quoted s rest) = some (quoted s [], rest) := by
  have enough : s.length < (s.flatMap escape ++ '"' :: rest).length + 1 := by
    have := length_le_flatMap_escape s
    rw [List.length_append]
    omega
  have skipped : skipValue (2 * (quoted s rest).length + 2) (quoted s rest) = some rest :=
    skipString_flatMap_escape s enough rest
  rw [part, skipped, quoted_eq_append s rest]
  simp

theorem string?_quoted (s : String) : string? (quoted s.toList []) = some s := by
  have read := string_quoted s []
  simp only [string?, quoted, skipBlank_cons (c := '"') rfl, read]
  rfl

/-! ### Objects of texts -/

/-- The fields of an object of texts. -/
def textFields (fs : List (String × String)) : List (String × Value) := fs.map fun f => (f.1, .string f.2)

/-- The parts of such an object. -/
def textParts (fs : List (String × String)) : List (String × List Char) := fs.map fun f => (f.1, quoted f.2.toList [])

/-- One field more is taken. -/
theorem fieldParts_comma (fuel : Nat) (acc : List (String × List Char)) (k s : String) (rest : List Char) :
    fieldParts (fuel + 1) acc (quoted k.toList (':' :: quoted s.toList (',' :: rest))) =
      fieldParts fuel ((k, quoted s.toList []) :: acc) rest := by
  have key := string_quoted k (':' :: quoted s.toList (',' :: rest))
  simp only [fieldParts, quoted.eq_def k.toList, skipBlank_cons (c := '"') rfl, key, skipBlank_cons (c := ':') rfl,
    part_quoted, skipBlank_cons (c := ',') rfl]

/-- The last field is taken. -/
theorem fieldParts_brace (fuel : Nat) (acc : List (String × List Char)) (k s : String) (rest : List Char) :
    fieldParts (fuel + 1) acc (quoted k.toList (':' :: quoted s.toList ('\x7d' :: rest))) =
      some ((k, quoted s.toList []) :: acc, rest) := by
  have key := string_quoted k (':' :: quoted s.toList ('\x7d' :: rest))
  simp only [fieldParts, quoted.eq_def k.toList, skipBlank_cons (c := '"') rfl, key, skipBlank_cons (c := ':') rfl,
    part_quoted, skipBlank_cons (c := '\x7d') rfl]

theorem fieldParts_compactFields {fs : List (String × String)} (nonempty : fs ≠ []) {n : Nat}
    (enough : fs.length ≤ n) (acc : List (String × List Char)) (rest : List Char) :
    fieldParts n acc (compactFields (textFields fs) ('\x7d' :: rest)) =
      some ((textParts fs).reverse ++ acc, rest) := by
  induction fs generalizing n acc with
  | nil => contradiction
  | cons f fs ih =>
      obtain ⟨k, s⟩ := f
      cases n with
      | zero => simp at enough
      | succ n =>
          cases fs with
          | nil => exact fieldParts_brace n acc k s rest
          | cons f' fs =>
              refine (fieldParts_comma n acc k s _).trans ?_
              refine (ih (by simp) (by simpa using enough) _).trans ?_
              simp [textParts]

/-- An object of texts without blanks begins with a quote behind its brace and is as long as it has fields. -/
theorem exists_compactFields_cons {fs : List (String × String)} (nonempty : fs ≠ []) (rest : List Char) :
    ∃ cs, compactFields (textFields fs) rest = '"' :: cs ∧ fs.length ≤ cs.length + 1 := by
  induction fs with
  | nil => contradiction
  | cons f fs ih =>
      cases fs with
      | nil => exact ⟨_, rfl, by simp⟩
      | cons f' fs =>
          obtain ⟨cs, text, enough⟩ := ih (by simp)
          refine ⟨_, rfl, ?_⟩
          have inner : compactFields (List.map (fun f => (f.1, Value.string f.2)) (f' :: fs)) rest = '"' :: cs := text
          simp only [List.length_cons, List.length_append, compactValue, quoted, inner] at enough ⊢
          omega

/-- **An object of texts is taken apart into its fields.** -/
theorem fields?_compact {fs : List (String × String)} (nonempty : fs ≠ []) :
    fields? (compactValue (.object (textFields fs)) []) = some (textParts fs) := by
  obtain ⟨cs, text, enough⟩ := exists_compactFields_cons nonempty ['\x7d']
  have parts := fieldParts_compactFields nonempty (n := cs.length + 1 + 1) (by omega) [] []
  rw [text] at parts
  simp only [compactValue, fields?, skipBlank_cons (c := '\x7b') rfl, text, skipBlank_cons (c := '"') rfl]
  simp [parts, skipBlank]

/-! ### Control characters -/

theorem control_escape (c : Char) : ∀ c' ∈ escape c, 0x20 ≤ c'.toNat := by
  have hex : ∀ n < 16, 0x20 ≤ (hexDigit n).toNat := by decide
  unfold escape
  split_ifs with quote backslash plain newline return' tab back form
  · simp
  · simp
  · simpa using plain
  · simp
  · simp
  · simp
  · simp
  · simp
  · have high := hex (c.toNat / 16) (by omega)
    have low := hex (c.toNat % 16) (by omega)
    simp [high, low]

/-- No control character is written in a text. -/
theorem control_quoted (s : List Char) {rest : List Char} (plain : ∀ c ∈ rest, 0x20 ≤ c.toNat) :
    ∀ c ∈ quoted s rest, 0x20 ≤ c.toNat := by
  intro c mem
  simp only [quoted, List.mem_cons, List.mem_append, List.mem_flatMap] at mem
  rcases mem with rfl | ⟨c', -, mem⟩ | rfl | mem
  · decide
  · exact control_escape c' c mem
  · decide
  · exact plain c mem

theorem control_compactFields (fs : List (String × String)) {rest : List Char}
    (plain : ∀ c ∈ rest, 0x20 ≤ c.toNat) : ∀ c ∈ compactFields (textFields fs) rest, 0x20 ≤ c.toNat := by
  have mark : ∀ {m : Char} {cs : List Char}, 0x20 ≤ m.toNat → (∀ c ∈ cs, 0x20 ≤ c.toNat) →
      ∀ c ∈ m :: cs, 0x20 ≤ c.toNat := fun first rest => List.forall_mem_cons.mpr ⟨first, rest⟩
  induction fs with
  | nil => exact plain
  | cons f fs ih =>
      cases fs with
      | nil => exact control_quoted _ (mark (by decide) (control_quoted _ plain))
      | cons f' fs => exact control_quoted _ (mark (by decide) (control_quoted _ (mark (by decide) ih)))

end RecordTree.Json
