import Mathlib.Data.List.DropRight
import RecordTree.Json.Printer
import RecordTree.Json.Reader

/-!
# Texts and blanks in JSON, read back

A quoted text is read back as it was (`string_quoted`), and line breaks and indents are skipped.
-/

namespace RecordTree.Json

/-! ### Texts -/

/-- A text is read back from its bytes. -/
theorem fromUTF8?_toUTF8 (text : String) : String.fromUTF8? text.toUTF8 = some text := by
  have valid : text.toUTF8.IsValidUTF8 := text.isValidUTF8
  rw [String.fromUTF8?, dif_pos valid]
  rfl

theorem hexValue?_hexDigit : ∀ n < 16, hexValue? (hexDigit n) = some n := by
  decide

/-- A control character's number in four digits. -/
theorem fourHex_hexDigits {n : Nat} (small : n < 0x20) (rest : List Char) :
    fourHex ('0' :: '0' :: hexDigit (n / 16) :: hexDigit (n % 16) :: rest) = some (n, rest) := by
  have high := hexValue?_hexDigit (n / 16) (by omega)
  have low := hexValue?_hexDigit (n % 16) (by omega)
  have zero : hexValue? '0' = some 0 := by decide
  have number : ((0 * 16 + 0) * 16 + n / 16) * 16 + n % 16 = n := by omega
  simp only [fourHex, high, low, zero, Option.bind_eq_bind, Option.bind_some, number]

/-- A control character is read from its number. -/
theorem unicodeEscape_hexDigits {n : Nat} (small : n < 0x20) (rest : List Char) :
    unicodeEscape ('0' :: '0' :: hexDigit (n / 16) :: hexDigit (n % 16) :: rest) =
      some (Char.ofNat n, rest) := by
  simp only [unicodeEscape, fourHex_hexDigits small, Option.bind_eq_bind, Option.bind_some]
  rw [if_neg (by omega), if_neg (by omega)]

/-- A character behind a backslash is read as the one that it names. -/
theorem stringBody_backslash {fuel : Nat} {acc cs rest : List Char} {c : Char}
    (named : escaped cs = some (c, rest)) :
    stringBody (fuel + 1) acc ('\\' :: cs) = stringBody fuel (c :: acc) rest := by
  rw [stringBody, named]
  rfl

/-- One character more of a text is read. -/
theorem stringBody_escape (fuel : Nat) (acc : List Char) (c : Char) (rest : List Char) :
    stringBody (fuel + 1) acc (escape c ++ rest) = stringBody fuel (c :: acc) rest := by
  have named : ∀ n, c.toNat = n → Char.ofNat n = c := fun n same => same ▸ Char.ofNat_toNat c
  unfold escape
  split_ifs with quote backslash plain newline return' tab back form
  · subst quote
    exact stringBody_backslash rfl
  · subst backslash
    exact stringBody_backslash rfl
  · rw [List.singleton_append, stringBody]
    · rw [if_neg (by omega)]
    · exact quote
    · exact backslash
  · exact stringBody_backslash (newline ▸ rfl)
  · exact stringBody_backslash (return' ▸ rfl)
  · exact stringBody_backslash (tab ▸ rfl)
  · exact stringBody_backslash (named _ back ▸ rfl)
  · exact stringBody_backslash (named _ form ▸ rfl)
  · refine stringBody_backslash ?_
    have small : c.toNat < 0x20 := by omega
    simpa [escaped, named _ rfl] using unicodeEscape_hexDigits small rest

/-- The characters of a text are read up to the closing quote. -/
theorem stringBody_flatMap_escape (s : List Char) {fuel : Nat} (enough : s.length < fuel)
    (acc rest : List Char) :
    stringBody fuel acc (s.flatMap escape ++ '"' :: rest) = some (s.reverse ++ acc, rest) := by
  induction s generalizing fuel acc with
  | nil =>
      cases fuel with
      | zero => simp at enough
      | succ fuel => rfl
  | cons c s ih =>
      cases fuel with
      | zero => simp at enough
      | succ fuel =>
          rw [List.flatMap_cons, List.append_assoc, stringBody_escape, ih (by simpa using enough)]
          simp

theorem length_le_flatMap_escape (s : List Char) : s.length ≤ (s.flatMap escape).length := by
  induction s with
  | nil => simp
  | cons c s ih =>
      have one : 1 ≤ (escape c).length := by
        unfold escape
        split_ifs <;> simp
      rw [List.flatMap_cons, List.length_append, List.length_cons]
      omega

/-- **A quoted text is read back.** -/
theorem string_quoted (s : String) (rest : List Char) :
    string ((s.toList.flatMap escape) ++ '"' :: rest) = some (s, rest) := by
  have enough : s.toList.length < (s.toList.flatMap escape ++ '"' :: rest).length + 1 := by
    have := length_le_flatMap_escape s.toList
    rw [List.length_append]
    omega
  rw [string, stringBody_flatMap_escape _ enough]
  simp

/-! ### Blanks -/

theorem skipBlank_cons {c : Char} (blank : isBlank c = false) (cs : List Char) :
    skipBlank (c :: cs) = c :: cs := by
  simp [skipBlank, blank]

/-- Line breaks and indents are skipped. -/
@[simp] theorem skipBlank_newline (level : Nat) (rest : List Char) :
    skipBlank (newline level rest) = skipBlank rest := by
  have indent : ∀ n, skipBlank (List.replicate n ' ' ++ rest) = skipBlank rest := by
    intro n
    induction n with
    | zero => rfl
    | succ n ih =>
        rw [List.replicate_succ, List.cons_append, ← ih]
        rfl
  exact indent (2 * level)

end RecordTree.Json
