import Mathlib.Tactic.Common
import Mathlib.Tactic.Linarith
import Mathlib.Tactic.Ring
import RecordTree.Time

/-!
# Instants, read back

The day with a number has that number (`Day.number_ofNumber`), and an instant that the calendar has is read back from
its text (`Instant.read?_text`).
-/

namespace RecordTree

/-! ### The calendar -/

namespace Day

/-- The days of an era fall into centuries, of which the last one is longer, four-year spans, of which the last one of
a century is shorter, years, of which the last one of a span is longer, and days. -/
theorem exists_parts {n : Int} (nonneg : 0 ≤ n) (below : n < 146097) :
    ∃ century span year day : Int, n = 36524 * century + 1461 * span + 365 * year + day ∧
      (0 ≤ century ∧ century ≤ 3) ∧ (0 ≤ span ∧ span ≤ 24) ∧ (0 ≤ year ∧ year ≤ 3) ∧ (0 ≤ day ∧ day ≤ 365) ∧
      (day = 365 → year = 3 ∧ (span < 24 ∨ century = 3)) := by
  let century := min (n / 36524) 3
  let span := (n - 36524 * century) / 1461
  let year := min ((n - 36524 * century - 1461 * span) / 365) 3
  refine ⟨century, span, year, n - 36524 * century - 1461 * span - 365 * year, ?_⟩
  omega

/-- The year of an era in which a day falls. -/
theorem yearOfEra_eq {n century span year day : Int} (parts : n = 36524 * century + 1461 * span + 365 * year + day)
    (centuries : 0 ≤ century ∧ century ≤ 3) (spans : 0 ≤ span ∧ span ≤ 24) (years : 0 ≤ year ∧ year ≤ 3)
    (days : 0 ≤ day ∧ day ≤ 365) (last : day = 365 → year = 3 ∧ (span < 24 ∨ century = 3)) :
    (n - n / 1460 + n / 36524 - n / 146096) / 365 = 100 * century + 4 * span + year := by
  have whole : n / 36524 - n / 146096 = century := by
    obtain rfl | rfl | rfl | rfl : century = 0 ∨ century = 1 ∨ century = 2 ∨ century = 3 := by omega
    all_goals omega
  -- how many days of the year at hand the count of leap days takes away is at most one
  obtain ⟨leap, leaps, low, high⟩ : ∃ leap, n / 1460 = 25 * century + span + leap ∧ 0 ≤ day - leap ∧ day - leap ≤ 364 := by
    refine ⟨(24 * century + span + 365 * year + day) / 1460, by omega, ?_⟩
    obtain rfl | rfl | rfl | rfl : year = 0 ∨ year = 1 ∨ year = 2 ∨ year = 3 := by omega
    all_goals omega
  have total : n - n / 1460 + n / 36524 - n / 146096 = 365 * (100 * century + 4 * span + year) + (day - leap) := by
    omega
  rw [total]
  omega

/-- The number of a day, with its year and month counted from March. -/
theorem number_eq {era yearOfEra month : Int} (years : 0 ≤ yearOfEra ∧ yearOfEra < 400)
    (months : 0 ≤ month ∧ month ≤ 11) (day : Nat) :
    number ⟨if month < 10 then yearOfEra + era * 400 else yearOfEra + era * 400 + 1,
        (if month < 10 then month + 3 else month - 9).toNat, day⟩ =
      era * 146097 + (yearOfEra * 365 + yearOfEra / 4 - yearOfEra / 100) + ((153 * month + 2) / 5 + day - 1) - 719468 := by
  have late : ((if month < 10 then month + 3 else month - 9).toNat ≤ 2) ↔ ¬ month < 10 := by
    split_ifs <;> omega
  have march : (((if month < 10 then month + 3 else month - 9).toNat : Int) + 9) % 12 = month := by
    split_ifs <;> omega
  have year : (if (if month < 10 then month + 3 else month - 9).toNat ≤ 2 then
      (if month < 10 then yearOfEra + era * 400 else yearOfEra + era * 400 + 1) - 1
      else if month < 10 then yearOfEra + era * 400 else yearOfEra + era * 400 + 1) = yearOfEra + era * 400 := by
    simp only [late]
    split_ifs <;> omega
  have eras : (yearOfEra + era * 400) / 400 = era := by omega
  have inEra : (yearOfEra + era * 400) % 400 = yearOfEra := by omega
  simp only [number, march, year, eras, inEra]
  omega

/-- **The day with a number has that number.** -/
theorem number_ofNumber (n : Int) : (ofNumber n).number = n := by
  obtain ⟨century, span, year, day, parts, centuries, spans, years, days, last⟩ :=
    exists_parts (n := (n + 719468) % 146097) (by omega) (by omega)
  have fourths : (100 * century + 4 * span + year) / 4 = 25 * century + span := by omega
  have hundredths : (100 * century + 4 * span + year) / 100 = century := by omega
  have inEra : 0 ≤ 100 * century + 4 * span + year ∧ 100 * century + 4 * span + year < 400 := by omega
  have dayOfYear : (n + 719468) % 146097 - (365 * (100 * century + 4 * span + year) +
      (100 * century + 4 * span + year) / 4 - (100 * century + 4 * span + year) / 100) = day := by
    rw [fourths, hundredths, parts]
    ring
  have months : 0 ≤ (5 * day + 2) / 153 ∧ (5 * day + 2) / 153 ≤ 11 := by omega
  have dayOfMonth : (((day - (153 * ((5 * day + 2) / 153) + 2) / 5 + 1).toNat : Nat) : Int) =
      day - (153 * ((5 * day + 2) / 153) + 2) / 5 + 1 := by
    omega
  have yearOfEra := yearOfEra_eq parts centuries spans years days last
  simp only [ofNumber, yearOfEra, dayOfYear]
  rw [number_eq inEra months, dayOfMonth]
  have whole := Int.emod_add_mul_ediv (n + 719468) 146097
  linarith [dayOfYear]

/-- Months and days have two digits. -/
theorem lt_of_isValid {d : Day} (valid : d.isValid = true) : d.month < 10 ^ 2 ∧ d.day < 10 ^ 2 := by
  have most : daysIn d.year d.month ≤ 31 := by
    unfold daysIn
    split_ifs <;> omega
  simp only [isValid, Bool.and_eq_true, decide_eq_true_eq] at valid
  omega

end Day

namespace Instant

/-! ### Numbers -/

theorem isBlank_of_isDigit {c : Char} (digit : c.isDigit = true) : Text.isBlank c = false := by
  obtain ⟨low, high⟩ : 48 ≤ c.toNat ∧ c.toNat ≤ 57 := Char.isDigit_iff_toNat.mp digit
  simp [Text.isBlank]
  omega

theorem skipBlank_of_isDigit {c : Char} (digit : c.isDigit = true) (cs : List Char) :
    skipBlank (c :: cs) = c :: cs := by
  simp [skipBlank, isBlank_of_isDigit digit]

/-- Digits are read up to the character that stops them. -/
theorem digits_append {most : Nat} {ds : List Char} (nonempty : ds ≠ []) (all : ∀ c ∈ ds, c.isDigit = true)
    (short : ds.length ≤ most) {c : Char} (stop : c.isDigit = false) (rest : List Char) :
    digits most (ds ++ c :: rest) = some (ofDigits ds, c :: rest) := by
  have front : skipBlank (ds ++ c :: rest) = ds ++ c :: rest := by
    obtain ⟨d, more, rfl⟩ := List.exists_cons_of_ne_nil nonempty
    exact skipBlank_of_isDigit (all d List.mem_cons_self) _
  have run : ((ds ++ c :: rest).take most).takeWhile Char.isDigit = ds := by
    rw [List.take_append, List.take_of_length_le short, List.takeWhile_append_of_pos all]
    cases most - ds.length <;> simp [stop]
  simp only [digits, front, run]
  simp [nonempty]

theorem toList_padded (width n : Nat) :
    (padded width n).toList =
      List.replicate (width - (Nat.toDigits 10 n).length) '0' ++ Nat.toDigits 10 n := by
  have digits : (toString n).toList = Nat.toDigits 10 n := Nat.toList_repr
  rw [padded, String.toList_append, String.toList_ofList, digits, ← String.length_toList, digits]

theorem padded_ne_nil (width n : Nat) : (padded width n).toList ≠ [] := by
  rw [toList_padded]
  simp [Nat.toDigits_ne_nil]

theorem isDigit_padded (width n : Nat) : ∀ c ∈ (padded width n).toList, c.isDigit = true := by
  intro c mem
  rw [toList_padded, List.mem_append] at mem
  rcases mem with zero | digit
  · rw [List.eq_of_mem_replicate zero]
    rfl
  · exact Nat.isDigit_of_mem_toDigits (by decide) (by decide) digit

/-- A padded number stands for the number. -/
theorem ofDigits_padded (width n : Nat) : ofDigits (padded width n).toList = n := by
  have zeros : ∀ count, Nat.ofDigitChars 10 (List.replicate count '0') 0 = 0 := by
    intro count
    induction count with
    | zero => rfl
    | succ count ih => rw [List.replicate_succ, Nat.ofDigitChars_cons]; exact ih
  have value : ∀ cs, ofDigits cs = Nat.ofDigitChars 10 cs 0 := by
    intro cs
    rw [Nat.ofDigitChars_eq_foldl]
    exact congrArg (fun f => cs.foldl f 0) (funext fun n => funext fun c => by rw [Nat.mul_comm])
  rw [value, toList_padded, Nat.ofDigitChars_append, zeros, Nat.ofDigitChars_ten_toDigits]

theorem length_padded {width n : Nat} (pos : 0 < width) (small : n < 10 ^ width) :
    (padded width n).toList.length = width := by
  have short := (Nat.length_toDigits_le_iff (b := 10) (k := width) (by decide) pos).mpr small
  rw [toList_padded, List.length_append, List.length_replicate]
  omega

/-- A padded number of the width is read back. -/
theorem digits_padded {width n : Nat} (pos : 0 < width) (small : n < 10 ^ width) {c : Char}
    (stop : c.isDigit = false) (rest : List Char) :
    digits width ((padded width n).toList ++ c :: rest) = some (n, c :: rest) := by
  rw [digits_append (padded_ne_nil width n) (isDigit_padded width n) (length_padded pos small).le stop,
    ofDigits_padded]

/-! ### Parts of a text -/

/-- A year is read back up to the dash behind it. -/
theorem year_yearText (y : Int) (rest : List Char) :
    year ((yearText y).toList ++ '-' :: rest) = some (y, '-' :: rest) := by
  -- a signed year may have any number of digits
  have signed : ∀ n : Nat, ∃ d more, (padded 4 n).toList ++ '-' :: rest = d :: more ∧ d.isDigit = true ∧
      digits (d :: more).length (d :: more) = some (n, '-' :: rest) := by
    intro n
    obtain ⟨d, more, front⟩ := List.exists_cons_of_ne_nil (padded_ne_nil 4 n)
    have read := digits_append (padded_ne_nil 4 n) (isDigit_padded 4 n)
      (Nat.le_add_right _ ('-' :: rest).length) (by decide : ('-').isDigit = false) rest
    refine ⟨d, more ++ '-' :: rest, by rw [front]; rfl, isDigit_padded 4 n d (by simp [front]), ?_⟩
    rw [← List.cons_append, ← front, List.length_append, read, ofDigits_padded]
  by_cases plain : 0 ≤ y ∧ y ≤ 9999
  · have small : y.toNat < 10 ^ 4 := by omega
    have read := digits_padded (by decide) small (by decide : ('-').isDigit = false) rest
    obtain ⟨d, more, front, digit, -⟩ := signed y.toNat
    rw [yearText, if_pos plain, year, front, skipBlank_of_isDigit digit]
    rw [front] at read
    split
    · rename_i same
      cases same
      cases digit
    · rename_i same
      cases same
      cases digit
    · rw [read]
      simp [plain.1]
  · obtain ⟨d, more, front, digit, read⟩ := signed y.natAbs
    rw [yearText, if_neg plain]
    have sign : ∀ mark : String, (mark ++ padded 4 y.natAbs).toList ++ '-' :: rest = mark.toList ++ d :: more := by
      intro mark
      rw [String.toList_append, List.append_assoc, front]
    split_ifs with negative
    · have front : skipBlank ("-".toList ++ d :: more) = '-' :: d :: more := rfl
      have value : -(y.natAbs : Int) = y := by omega
      simp only [sign, year, front, digit, if_true, read, Option.map_some, value]
    · have front : skipBlank ("+".toList ++ d :: more) = '+' :: d :: more := rfl
      have value : (y.natAbs : Int) = y := by omega
      simp only [sign, year, front, digit, if_true, read, Option.map_some, value]

/-- A fraction of a second is read back. -/
theorem nanoseconds_fraction (i : Instant) :
    nanoseconds (i.fraction.toList ++ ['Z']) = some (i.nanos % 1000000000, ['Z']) := by
  have few : i.nanos % 1000000000 < 1000000000 := Nat.mod_lt _ (by decide)
  have group : ∀ {width n : Nat}, 0 < width → width ≤ 9 → n < 10 ^ width →
      nanoseconds ('.' :: (padded width n).toList ++ ['Z']) = some (n * 10 ^ (9 - width), ['Z']) := by
    intro width n pos short small
    have length := length_padded pos small
    have run : ((padded width n).toList ++ ['Z']).takeWhile Char.isDigit = (padded width n).toList := by
      rw [List.takeWhile_append_of_pos (isDigit_padded width n)]
      simp
    have seen : (padded width n).toList.take 9 = (padded width n).toList := List.take_of_length_le (by omega)
    have behind : ((padded width n).toList ++ ['Z']).drop width = ['Z'] := List.drop_left' length
    have nonempty : (padded width n).toList.isEmpty = false := List.isEmpty_eq_false_iff.mpr (padded_ne_nil width n)
    simp only [List.cons_append, nanoseconds, run, seen, ofDigits_padded, length, behind, nonempty]
    rfl
  have dotted : ∀ width n, ("." ++ padded width n).toList = '.' :: (padded width n).toList := fun width n => by
    rw [String.toList_append]
    rfl
  simp only [fraction]
  split_ifs with whole millis micros
  · rw [whole]
    rfl
  · rw [dotted, group (by decide) (by decide) (by omega)]
    congr 2
    omega
  · rw [dotted, group (by decide) (by decide) (by omega)]
    congr 2
    omega
  · rw [dotted, group (by decide) (by decide) few]
    simp

theorem exists_fraction_cons (i : Instant) :
    ∃ c rest, i.fraction.toList ++ ['Z'] = c :: rest ∧ c.isDigit = false := by
  have dotted : ∀ digits : String, ∃ c rest, ("." ++ digits).toList ++ ['Z'] = c :: rest ∧ c.isDigit = false :=
    fun digits => ⟨'.', digits.toList ++ ['Z'], by rw [String.toList_append]; rfl, rfl⟩
  simp only [fraction]
  split_ifs
  · exact ⟨'Z', [], rfl, rfl⟩
  · exact dotted _
  · exact dotted _
  · exact dotted _

theorem mark_cons {c : Char} (visible : Text.isBlank c = false) (cs : List Char) : mark c (c :: cs) = some cs := by
  simp [mark, skipBlank, visible]

/-! ### Instants -/

/-- Whether the calendar has the day of an instant, which is not within a leap second. -/
structure IsPlain (i : Instant) : Prop where
  day : (Day.ofNumber (i.seconds / 86400)).isValid = true
  nanos : i.nanos < 1000000000

/-- The characters of an instant. -/
theorem toList_text (i : Instant) :
    i.text.toList = (yearText (Day.ofNumber (i.seconds / 86400)).year).toList ++
      '-' :: ((padded 2 (Day.ofNumber (i.seconds / 86400)).month).toList ++
      '-' :: ((padded 2 (Day.ofNumber (i.seconds / 86400)).day).toList ++
      'T' :: ((padded 2 ((i.seconds % 86400).toNat / 3600)).toList ++
      ':' :: ((padded 2 ((i.seconds % 86400).toNat / 60 % 60)).toList ++
      ':' :: ((padded 2 ((i.seconds % 86400).toNat % 60 + i.nanos / 1000000000)).toList ++
      (i.fraction.toList ++ ['Z'])))))) := by
  have dash : ∀ cs, "-".toList ++ cs = '-' :: cs := fun _ => rfl
  have colon : ∀ cs, ":".toList ++ cs = ':' :: cs := fun _ => rfl
  have letter : ∀ cs, "T".toList ++ cs = 'T' :: cs := fun _ => rfl
  have zulu : "Z".toList = ['Z'] := rfl
  simp only [text, dateTime, String.toList_append, List.append_assoc, List.cons_append, dash, colon, letter, zulu]

/-- The parts of an instant come to the instant. -/
theorem ofLocal?_parts {i : Instant} (plain : i.IsPlain) :
    ofLocal? (Day.ofNumber (i.seconds / 86400)) ((i.seconds % 86400).toNat / 3600)
      ((i.seconds % 86400).toNat / 60 % 60) ((i.seconds % 86400).toNat % 60) i.nanos 0 = some i := by
  have valid := plain.day
  have number := Day.number_ofNumber (i.seconds / 86400)
  generalize Day.ofNumber (i.seconds / 86400) = d at valid number ⊢
  have ofDay : (i.seconds % 86400).toNat < 86400 := by omega
  generalize clock : (i.seconds % 86400).toNat = t at ofDay ⊢
  have inDay : d.isValid = true ∧ t / 3600 < 24 ∧ t / 60 % 60 < 60 ∧ t % 60 ≤ 60 ∧ (0 : Int).natAbs < 86400 :=
    ⟨valid, by omega, by omega, by omega, by decide⟩
  have noLeapSecond : ¬ t % 60 = 60 := by omega
  have seconds : d.number * 86400 +
      (((t / 3600 : Nat) : Int) * 3600 + ((t / 60 % 60 : Nat) : Int) * 60 + ((t % 60 : Nat) : Int)) - 0 = i.seconds := by
    rw [number]
    omega
  rw [ofLocal?, if_pos inDay]
  simp only [noLeapSecond, if_false, seconds, plain.day, if_true]

/-- **An instant is read back.** -/
theorem read?_text {i : Instant} (plain : i.IsPlain) : read? i.text = some i := by
  obtain ⟨c, rest, behind, stop⟩ := exists_fraction_cons i
  have fraction := nanoseconds_fraction i
  rw [behind, Nat.mod_eq_of_lt plain.nanos] at fraction
  have chars := i.toList_text
  rw [Nat.div_eq_of_lt plain.nanos, Nat.add_zero, behind] at chars
  obtain ⟨month, day⟩ := Day.lt_of_isValid plain.day
  have ofDay : (i.seconds % 86400).toNat < 86400 := by omega
  have two : ∀ {n : Nat} {c : Char}, n < 100 → c.isDigit = false → ∀ rest,
      digits 2 ((padded 2 n).toList ++ c :: rest) = some (n, c :: rest) :=
    fun small stop rest => digits_padded (by decide) small stop rest
  have markDash : ∀ cs, mark '-' ('-' :: cs) = some cs := mark_cons (by decide)
  have markColon : ∀ cs, mark ':' (':' :: cs) = some cs := mark_cons (by decide)
  have divided : ∀ cs, between ('T' :: cs) = some cs := fun _ => rfl
  have universal : offset ['Z'] = some (0, []) := rfl
  -- the parts of the text one after the other, each up to the mark behind it
  rw [read?, chars]
  refine Option.bind_eq_some_iff.mpr ⟨_, year_yearText _ _, ?_⟩
  refine Option.bind_eq_some_iff.mpr ⟨_, markDash _, ?_⟩
  refine Option.bind_eq_some_iff.mpr ⟨_, two month rfl _, ?_⟩
  refine Option.bind_eq_some_iff.mpr ⟨_, markDash _, ?_⟩
  refine Option.bind_eq_some_iff.mpr ⟨_, two day rfl _, ?_⟩
  refine Option.bind_eq_some_iff.mpr ⟨_, divided _, ?_⟩
  refine Option.bind_eq_some_iff.mpr ⟨_, two (by omega) rfl _, ?_⟩
  refine Option.bind_eq_some_iff.mpr ⟨_, markColon _, ?_⟩
  refine Option.bind_eq_some_iff.mpr ⟨_, two (by omega) rfl _, ?_⟩
  refine Option.bind_eq_some_iff.mpr ⟨_, markColon _, ?_⟩
  refine Option.bind_eq_some_iff.mpr ⟨_, two (by omega) stop _, ?_⟩
  refine Option.bind_eq_some_iff.mpr ⟨_, fraction, ?_⟩
  refine Option.bind_eq_some_iff.mpr ⟨_, universal, ?_⟩
  have atEnd : (skipBlank []).isEmpty = true := rfl
  simp only [atEnd, if_true]
  exact ofLocal?_parts plain

end Instant

end RecordTree
