import Mathlib.Data.List.TakeDrop
import RecordTree.Json.Printer
import RecordTree.Proofs.Decimal.Shortest

/-!
# JSON numbers, read back

Every number that was read from JSON is written as a text that is read again (`reread_of_number?`), perhaps as
a neighbouring double. That a text has the form of a number is one half of it (`NumberText.read_chars`); the
other half is that what it stands for is not too large for a double, although the reader rounds three times.
-/

namespace RecordTree.Json

open Decimal

/-! ### Texts of numbers -/

/-- Whether a text can follow a number. -/
def Ends (rest : List Char) : Prop := ∃ c cs, rest = c :: cs ∧ (c = ',' ∨ c = '\n')

theorem ends_comma (cs : List Char) : Ends (',' :: cs) := ⟨_, _, rfl, .inl rfl⟩

theorem ends_newline (level : Nat) (rest : List Char) : Ends (newline level rest) := ⟨_, _, rfl, .inr rfl⟩

/-- Whether a text is a run of digits. -/
def IsRun (cs : List Char) : Prop := cs ≠ [] ∧ ∀ c ∈ cs, c.isDigit = true

theorem isRun_zero : IsRun ['0'] := ⟨by simp, by simp⟩

theorem isDigit_replicate (n : Nat) : ∀ c ∈ List.replicate n '0', c.isDigit = true := by
  intro c mem
  rw [List.eq_of_mem_replicate mem]
  rfl

namespace IsRun

variable {cs ds : List Char} {n : Nat}

theorem append (run : IsRun cs) (digits : ∀ c ∈ ds, c.isDigit = true) : IsRun (cs ++ ds) :=
  ⟨List.append_ne_nil_of_left_ne_nil run.1 ds, List.forall_mem_append.mpr ⟨run.2, digits⟩⟩

theorem prepend (run : IsRun cs) (digits : ∀ c ∈ ds, c.isDigit = true) : IsRun (ds ++ cs) :=
  ⟨List.append_ne_nil_of_right_ne_nil ds run.1, List.forall_mem_append.mpr ⟨digits, run.2⟩⟩

theorem take (run : IsRun cs) (positive : 0 < n) : IsRun (cs.take n) := by
  refine ⟨?_, fun c mem => run.2 c (List.mem_of_mem_take mem)⟩
  rw [Ne, List.take_eq_nil_iff]
  rintro (zero | empty)
  · exact positive.ne' zero
  · exact run.1 empty

theorem drop (run : IsRun cs) (more : n < cs.length) : IsRun (cs.drop n) := by
  refine ⟨?_, fun c mem => run.2 c (List.mem_of_mem_drop mem)⟩
  rw [Ne, List.drop_eq_nil_iff]
  exact more.not_ge

end IsRun

/-- Whether a text goes on with something else than a digit. -/
def Breaks (rest : List Char) : Prop := ∀ c ∈ rest.head?, c.isDigit = false

theorem Ends.breaks {rest : List Char} (ends : Ends rest) : Breaks rest := by
  obtain ⟨c, cs, rfl, rfl | rfl⟩ := ends <;> simp [Breaks]

theorem digitRun_append {cs rest : List Char} (run : IsRun cs) (breaks : Breaks rest) :
    digitRun (cs ++ rest) = some (cs, rest) := by
  have stops : rest.takeWhile Char.isDigit = [] ∧ rest.dropWhile Char.isDigit = rest := by
    cases rest with
    | nil => simp
    | cons c rest => simp [breaks c rfl]
  rw [digitRun, List.span_eq_takeWhile_dropWhile, List.takeWhile_append_of_pos run.2,
    List.dropWhile_append_of_pos run.2, stops.1, stops.2, List.append_nil]
  cases cs with
  | nil => exact absurd rfl run.1
  | cons c cs => rfl

namespace NumberText

/-- The text of a fraction. -/
def fractionChars : Option (List Char) → List Char
  | some ds => '.' :: ds
  | none => []

/-- The text of an exponent. -/
def exponentChars : Option (Bool × List Char) → List Char
  | some (minus, ds) => 'e' :: (if minus then '-' else '+') :: ds
  | none => []

/-- The text of a number's parts. -/
def chars (t : NumberText) : List Char :=
  (if t.negative then ['-'] else []) ++ (t.whole ++ (fractionChars t.fraction ++ exponentChars t.exponent))

/-- Whether the parts are runs of digits, and the whole part has no zero in front. -/
structure WellFormed (t : NumberText) : Prop where
  whole : IsRun t.whole
  plain : t.whole.head? = some '0' → t.whole.length = 1
  fraction : ∀ ds ∈ t.fraction, IsRun ds
  exponent : ∀ e ∈ t.exponent, IsRun e.2

theorem breaks_exponentChars (exponent : Option (Bool × List Char)) {rest : List Char} (ends : Ends rest) :
    Breaks (exponentChars exponent ++ rest) := by
  cases exponent with
  | none => exact ends.breaks
  | some e => simp [exponentChars, Breaks]

theorem breaks_fractionChars (fraction : Option (List Char)) {rest : List Char} (breaks : Breaks rest) :
    Breaks (fractionChars fraction ++ rest) := by
  cases fraction with
  | none => exact breaks
  | some ds => simp [fractionChars, Breaks]

theorem readFraction_append {fraction : Option (List Char)} (runs : ∀ ds ∈ fraction, IsRun ds)
    {rest : List Char} (breaks : Breaks rest) (plain : rest.head? ≠ some '.') :
    readFraction (fractionChars fraction ++ rest) = some (fraction, rest) := by
  cases fraction with
  | some ds => simp [fractionChars, readFraction, digitRun_append (runs ds rfl) breaks]
  | none =>
      rw [fractionChars, List.nil_append]
      unfold readFraction
      split
      · exact absurd rfl plain
      · rfl

theorem readExponent_append {exponent : Option (Bool × List Char)} (runs : ∀ e ∈ exponent, IsRun e.2)
    {rest : List Char} (ends : Ends rest) :
    readExponent (exponentChars exponent ++ rest) = some (exponent, rest) := by
  cases exponent with
  | some e =>
      obtain ⟨minus, ds⟩ := e
      have run := digitRun_append (runs _ rfl) ends.breaks
      cases minus <;> simp [exponentChars, readExponent, takeSign, run]
  | none => obtain ⟨c, cs, rfl, rfl | rfl⟩ := ends <;> rfl

theorem takeMinus_append (negative : Bool) {cs rest : List Char} (run : IsRun cs) :
    takeMinus ((if negative then ['-'] else []) ++ (cs ++ rest)) = (negative, cs ++ rest) := by
  cases negative with
  | true => rfl
  | false =>
      obtain ⟨c, cs, rfl⟩ := List.exists_cons_of_ne_nil run.1
      have digit := run.2 c (by simp)
      simp only [Bool.false_eq_true, ↓reduceIte, List.nil_append, List.cons_append]
      unfold takeMinus
      split
      · rename_i minus
        obtain ⟨rfl, -⟩ := List.cons.inj minus
        cases digit
      · rfl

/-- **The text of well-formed parts** is read as these parts. -/
theorem read_chars {t : NumberText} (formed : t.WellFormed) {rest : List Char} (ends : Ends rest) :
    NumberText.read (t.chars ++ rest) = some (t, rest) := by
  have afterWhole := breaks_exponentChars t.exponent ends
  have noPoint : (exponentChars t.exponent ++ rest).head? ≠ some '.' := by
    obtain ⟨c, cs, rfl, rfl | rfl⟩ := ends <;> cases t.exponent <;> simp [exponentChars]
  have noZero : ¬(t.whole.head? = some '0' ∧ t.whole.length ≠ 1) := fun front => front.2 (formed.plain front.1)
  have shape : t.chars ++ rest = (if t.negative then ['-'] else []) ++
      (t.whole ++ (fractionChars t.fraction ++ (exponentChars t.exponent ++ rest))) := by
    simp [chars]
  rw [NumberText.read, shape, takeMinus_append t.negative formed.whole]
  simp only [digitRun_append formed.whole (breaks_fractionChars t.fraction afterWhole), Option.bind_eq_bind,
    Option.bind_some, noZero, ↓reduceIte, readFraction_append formed.fraction afterWhole noPoint,
    readExponent_append formed.exponent ends]

end NumberText

/-! ### Digits -/

theorem digitText_eq (n : Nat) : Layout.digitText n = Nat.toDigits 10 n := Nat.toList_repr

theorem isRun_digitText (n : Nat) : IsRun (Layout.digitText n) := by
  rw [digitText_eq]
  exact ⟨Nat.toDigits_ne_nil, fun c mem => Nat.isDigit_of_mem_toDigits (by decide) (by decide) mem⟩

/-- A positive number has no zero in front. -/
theorem head?_digitText {n : Nat} (positive : 0 < n) : (Layout.digitText n).head? ≠ some '0' := by
  rw [digitText_eq]
  induction n using Nat.base_induction 10 (by decide) with
  | single m small =>
      rw [Nat.toDigits_of_lt_base small]
      have digits : ∀ m < 10, 0 < m → [Nat.digitChar m].head? ≠ some '0' := by decide
      exact digits m small positive
  | digit m k small above ih =>
      rw [← Nat.toDigits_append_toDigits (by decide) above small, List.head?_append_of_ne_nil _ Nat.toDigits_ne_nil]
      exact ih above

/-- The digits of a number stand for it. -/
theorem ofDigitChars_digitText (n : Nat) : Nat.ofDigitChars 10 (Layout.digitText n) 0 = n := by
  rw [digitText_eq, Nat.ofDigitChars_ten_toDigits]

theorem foldl_eq_ofDigitChars (cs : List Char) (n : Nat) :
    cs.foldl (fun n c => n * 10 + digitValue c) n = Nat.ofDigitChars 10 cs n := by
  rw [Nat.ofDigitChars_eq_foldl]
  exact congrArg (fun f => cs.foldl f n) (funext fun n => funext fun c => by rw [Nat.mul_comm]; rfl)

theorem mul_pow_le_ofDigitChars (cs : List Char) (n : Nat) : n * 10 ^ cs.length ≤ Nat.ofDigitChars 10 cs n := by
  rw [Nat.ofDigitChars_eq_ofDigitChars_zero, Nat.mul_comm]
  exact Nat.le_add_right _ _

/-- Digits that follow a number make it longer by as many places. -/
theorem ofDigitChars_lt {cs : List Char} (digits : ∀ c ∈ cs, c.isDigit = true) (n : Nat) :
    Nat.ofDigitChars 10 cs n < (n + 1) * 10 ^ cs.length := by
  induction cs generalizing n with
  | nil => simp
  | cons c cs ih =>
      obtain ⟨digit, rest⟩ := List.forall_mem_cons.mp digits
      have small : c.toNat - '0'.toNat ≤ 9 := by
        simp only [Char.isDigit, Bool.and_eq_true, decide_eq_true_eq] at digit
        have high : c.toNat ≤ '9'.toNat := digit.2
        have ends : '9'.toNat - '0'.toNat = 9 := rfl
        omega
      rw [Nat.ofDigitChars_cons, List.length_cons, Nat.pow_succ]
      calc Nat.ofDigitChars 10 cs (10 * n + (c.toNat - '0'.toNat))
          < (10 * n + (c.toNat - '0'.toNat) + 1) * 10 ^ cs.length := ih rest _
        _ ≤ (10 * (n + 1)) * 10 ^ cs.length := Nat.mul_le_mul_right _ (by omega)
        _ = (n + 1) * (10 ^ cs.length * 10) := by ring

/-- The digits that are read off a text and the ones that are left over stand for what all of them do, and none
are left over if that fits. -/
theorem takeDigits_spec (cs : List Char) (n : Nat) :
    Nat.ofDigitChars 10 (takeDigits n cs).2 (takeDigits n cs).1 = Nat.ofDigitChars 10 cs n ∧
      (takeDigits n cs).2.length ≤ cs.length ∧ (n ≤ wordLimit → (takeDigits n cs).1 ≤ wordLimit) ∧
      (Nat.ofDigitChars 10 cs n ≤ wordLimit → (takeDigits n cs).2 = []) := by
  induction cs generalizing n with
  | nil => exact ⟨rfl, le_rfl, id, fun _ => rfl⟩
  | cons c cs ih =>
      have next : Nat.ofDigitChars 10 (c :: cs) n = Nat.ofDigitChars 10 cs (n * 10 + digitValue c) := by
        rw [Nat.ofDigitChars_cons, Nat.mul_comm]
        rfl
      rw [takeDigits]
      split_ifs with fits
      · obtain ⟨same, shorter, bounded, all⟩ := ih (n * 10 + digitValue c)
        exact ⟨same.trans next.symm, Nat.le_succ_of_le shorter, fun _ => bounded fits, fun room => all (next ▸ room)⟩
      · refine ⟨rfl, le_rfl, id, fun room => absurd ?_ fits⟩
        have grows := mul_pow_le_ofDigitChars cs (n * 10 + digitValue c)
        rw [next] at room
        exact (Nat.le_mul_of_pos_right _ (Nat.pow_pos (by decide))).trans (grows.trans room)

/-! ### Powers of ten -/

/-- The rounded power of ten is not less than one. -/
theorem one_le_value_power (n : Nat) : 1 ≤ Double.value (Double.roundQuotient (Nat.pow 10 n) 1) :=
  (Double.value_roundQuotient Nat.one_pos (Nat.pow_pos (by decide))).1

theorem value_one : Double.value (Double.roundQuotient (Nat.pow 10 0) 1) = 1 := by
  have rank : Double.roundQuotient (Nat.pow 10 0) 1 = 1023 * Double.binade := by decide +kernel
  have least : Double.leastExponent = -1074 := rfl
  rw [rank, Double.value, Double.significand, Double.exponent, if_neg (by decide), if_neg (by decide),
    Nat.mul_mod_left, Nat.mul_div_cancel _ (by decide), least]
  norm_num [Double.binade]

/-- A finite double that is not made larger stays finite. -/
theorem isSome_placePoint {fuel rank : Nat} {e : Int} (finite : rank < Double.rankLimit) (low : e ≤ 0) :
    (placePoint fuel rank e).isSome := by
  induction fuel generalizing rank e with
  | zero => rfl
  | succ fuel ih =>
      rw [placePoint]
      dsimp only
      split_ifs with near up down zero up
      · rfl
      · refine absurd ?_ down
        obtain rfl : e = 0 := by omega
        refine Double.mulRank_lt_rankLimit ?_
        rw [Int.natAbs_zero, value_one, mul_one]
        exact Double.value_lt_ceiling finite
      · rfl
      · rfl
      · omega
      · refine ih (Double.divRank_lt_rankLimit finite (one_le_value_power _)) ?_
        rw [powerLimit] at near ⊢
        omega

/-- What is placed is finite. -/
theorem lt_of_placePoint {fuel rank r : Nat} {e : Int} (finite : rank < Double.rankLimit)
    (placed : placePoint fuel rank e = some r) : r < Double.rankLimit := by
  induction fuel generalizing rank e with
  | zero =>
      cases placed
      exact finite
  | succ fuel ih =>
      rw [placePoint] at placed
      dsimp only at placed
      split_ifs at placed with near up down zero up
      · cases placed
        exact down
      · cases placed
        exact Double.divRank_lt_rankLimit finite (one_le_value_power _)
      · cases placed
        exact Nat.zero_lt_of_lt finite
      · exact ih (Double.divRank_lt_rankLimit finite (one_le_value_power _)) placed

/-- A number that is made larger stays finite if there is room for its roundings. -/
theorem isSome_placePoint_of_room {fuel s e : Nat} (power : e ≤ powerLimit)
    (room : (s : ℚ) * 10 ^ e ≤ (2 ^ 53 - 4) * 2 ^ (971 : Int)) :
    (placePoint (fuel + 1) (Double.roundQuotient s 1) e).isSome := by
  have product : Double.mulRank (Double.roundQuotient s 1) (Double.roundQuotient (Nat.pow 10 e) 1) <
      Double.rankLimit := by
    rcases Nat.eq_zero_or_pos s with rfl | positive
    · refine Double.mulRank_lt_rankLimit ?_
      rw [Double.roundQuotient, if_pos rfl, Double.value_of_subnormal (by decide), Nat.cast_zero, zero_mul, zero_mul]
      exact mul_pos (by norm_num) (by positivity)
    · refine Double.mulRank_roundQuotient_lt_rankLimit positive (Nat.pow_pos (by decide)) ?_
      rwa [Nat.pow_eq, Nat.cast_pow, Nat.cast_ofNat]
  rw [placePoint, if_pos (by simpa using power)]
  simp only [Int.natAbs_natCast, Int.natCast_nonneg, ↓reduceIte, product, Option.isSome_some]

/-! ### What is read is finite -/

theorem finite_roundQuotient {s : Nat} (fits : s ≤ wordLimit) : Double.roundQuotient s 1 < Double.rankLimit := by
  refine Double.roundQuotient_lt_rankLimit Nat.one_pos ?_
  have word : (s : ℚ) ≤ 2 ^ (64 : Int) := by
    have below : s ≤ 2 ^ 64 := fits.trans (Nat.sub_le _ _)
    exact_mod_cast below
  have next : (2 : ℚ) ^ (64 : Int) < 2 ^ (970 : Int) := (zpow_lt_zpow_iff_right₀ one_lt_two).mpr (by decide)
  rw [Nat.cast_one, div_one]
  calc (s : ℚ) ≤ 2 ^ (64 : Int) := word
    _ < 2 ^ (970 : Int) := next
    _ = 1 * 2 ^ (970 : Int) := (one_mul _).symm
    _ ≤ Double.ceiling := by
      unfold Double.ceiling
      gcongr
      norm_num

/-- What is scaled is a finite double. -/
theorem exists_of_scaled {negative : Bool} {s : Nat} {e : Int} {n : Number} (fits : s ≤ wordLimit)
    (read : scaled negative s e = some n) :
    ∃ rank, n = .double ⟨negative, rank⟩ ∧ rank < Double.rankLimit := by
  obtain ⟨rank, placed, rfl⟩ := Option.map_eq_some_iff.mp read
  exact ⟨rank, rfl, lt_of_placePoint (finite_roundQuotient fits) placed⟩

/-- Whether a number is one that a text can stand for. -/
def Readable : Number → Prop
  | .whole n => n.natAbs ≤ wordLimit
  | .double x => x.rank < Double.rankLimit

/-- **What a text stands for** is a whole number of one word, or a finite double. -/
theorem readable_of_number? {t : NumberText} {n : Number} (read : t.number? = some n) : Readable n := by
  have start : (takeDigits 0 t.whole).1 ≤ wordLimit := (takeDigits_spec t.whole 0).2.2.1 (Nat.zero_le _)
  have scaledBy : ∀ s e, s ≤ wordLimit → scaled t.negative s e = some n → Readable n := by
    intro s e fits read
    obtain ⟨rank, rfl, finite⟩ := exists_of_scaled fits read
    exact finite
  unfold NumberText.number? at read
  dsimp only at read
  split at read
  · split_ifs at read with all sign small
    · cases read
      exact start
    · cases read
      simpa [Readable] using start
    · cases read
      exact finite_roundQuotient start
    · exact scaledBy _ _ start read
  · have more := (takeDigits_spec (t.fraction.getD []) (takeDigits 0 t.whole).1).2.2.1 start
    split at read
    · exact scaledBy _ _ more read
    · split_ifs at read with large zero
      · cases read
        exact Nat.zero_lt_of_lt (finite_roundQuotient start)
      · exact scaledBy _ _ more read
      · exact scaledBy _ _ more read

/-! ### What is written is read -/

namespace NumberText

/-- The parts of the text of a positive decimal. -/
def ofDigits (negative : Bool) (d : Digits) : NumberText :=
  let digits := Layout.digitText d.digits
  let point : Int := digits.length + d.exponent
  if 0 ≤ d.exponent ∧ point ≤ 16 then
    ⟨negative, digits ++ List.replicate d.exponent.toNat '0', some ['0'], none⟩
  else if 0 < point ∧ point ≤ 16 then
    ⟨negative, digits.take point.toNat, some (digits.drop point.toNat), none⟩
  else if -5 < point ∧ point ≤ 0 then
    ⟨negative, ['0'], some (List.replicate (-point).toNat '0' ++ digits), none⟩
  else
    ⟨negative, digits.take 1, if digits.length = 1 then none else some (digits.drop 1),
      some (decide (point - 1 < 0), Layout.digitText (point - 1).natAbs)⟩

theorem negative_ofDigits (negative : Bool) (d : Digits) : (ofDigits negative d).negative = negative := by
  unfold ofDigits
  dsimp only
  split_ifs <;> rfl

/-- The text of the parts is what is written. -/
theorem chars_ofDigits (negative : Bool) (d : Digits) :
    (ofDigits negative d).chars = (if negative then ['-'] else []) ++ layout.write d := by
  rw [chars, negative_ofDigits]
  refine congrArg _ ?_
  unfold ofDigits Layout.write
  dsimp only
  by_cases left : 0 ≤ d.exponent ∧ ((Layout.digitText d.digits).length : Int) + d.exponent ≤ 16
  · rw [if_pos left, if_pos left]
    simp [fractionChars, exponentChars]
  by_cases inside : 0 < ((Layout.digitText d.digits).length : Int) + d.exponent ∧
      ((Layout.digitText d.digits).length : Int) + d.exponent ≤ 16
  · rw [if_neg left, if_pos inside, if_neg left, if_pos inside]
    simp [fractionChars, exponentChars]
  by_cases right : -5 < ((Layout.digitText d.digits).length : Int) + d.exponent ∧
      ((Layout.digitText d.digits).length : Int) + d.exponent ≤ 0
  · rw [if_neg left, if_neg inside, if_pos right, if_neg left, if_neg inside, if_pos right]
    simp [fractionChars, exponentChars]
  rw [if_neg left, if_neg inside, if_neg right, if_neg left, if_neg inside, if_neg right]
  have plus : layout.exponentPlus = true := rfl
  obtain ⟨c, cs, digits⟩ := List.exists_cons_of_ne_nil (isRun_digitText d.digits).1
  generalize ((Layout.digitText d.digits).length : Int) + d.exponent - 1 = power
  rw [digits]
  cases cs <;> by_cases small : power < 0 <;> simp [small, plus, fractionChars, exponentChars]

/-- What is written of a positive decimal is well-formed. -/
theorem wellFormed_ofDigits (negative : Bool) {d : Digits} (positive : 0 < d.digits) :
    (ofDigits negative d).WellFormed := by
  have run := isRun_digitText d.digits
  have noZero := head?_digitText positive
  have length := List.length_pos_of_ne_nil run.1
  unfold ofDigits
  dsimp only
  split_ifs with left inside right single
  · refine ⟨run.append (isDigit_replicate _), fun zero => ?_, ?_, by simp⟩
    · rw [List.head?_append_of_ne_nil _ run.1] at zero
      exact absurd zero noZero
    · rintro ds ⟨⟩
      exact isRun_zero
  · refine ⟨run.take (by omega), fun zero => ?_, ?_, by simp⟩
    · rw [List.head?_take, if_neg (by omega)] at zero
      exact absurd zero noZero
    · rintro ds ⟨⟩
      exact run.drop (by omega)
  · refine ⟨isRun_zero, fun _ => rfl, ?_, by simp⟩
    rintro ds ⟨⟩
    exact run.prepend (isDigit_replicate _)
  · refine ⟨run.take (by omega), fun _ => ?_, by simp, ?_⟩
    · rw [List.length_take, single]
      rfl
    · rintro e ⟨⟩
      exact isRun_digitText _
  · refine ⟨run.take (by omega), fun _ => ?_, ?_, ?_⟩
    · rw [List.length_take]
      omega
    · rintro ds ⟨⟩
      exact run.drop (by omega)
    · rintro e ⟨⟩
      exact isRun_digitText _

/-- What is scaled down is finite. -/
theorem isSome_scaled {negative : Bool} {s : Nat} {e : Int} (fits : s ≤ wordLimit) (low : e ≤ 0) :
    (scaled negative s e).isSome := by
  rw [scaled, Option.isSome_map]
  exact isSome_placePoint (finite_roundQuotient fits) low

/-- Nineteen digits fit in a word. -/
theorem takeDigits_of_short {cs : List Char} (digits : ∀ c ∈ cs, c.isDigit = true) (short : cs.length ≤ 19) :
    (takeDigits 0 cs).2 = [] := by
  refine (takeDigits_spec cs 0).2.2.2 ?_
  have below := ofDigitChars_lt digits 0
  have most : (0 + 1) * 10 ^ cs.length ≤ (0 + 1) * 10 ^ 19 :=
    Nat.mul_le_mul_left _ (Nat.pow_le_pow_right (by decide) short)
  have word : (0 + 1) * 10 ^ 19 ≤ wordLimit := by decide
  omega

variable {t : NumberText}

/-- Whole digits that fit in a word stand for a number. -/
theorem isSome_number?_of_whole (fraction : t.fraction = none) (exponent : t.exponent = none)
    (fits : Nat.ofDigitChars 10 t.whole 0 ≤ wordLimit) : t.number?.isSome := by
  have all := (takeDigits_spec t.whole 0).2.2.2 fits
  unfold number?
  simp only [fraction, exponent, all, List.isEmpty_nil, ↓reduceIte]
  split_ifs <;> rfl

/-- A fraction behind few digits stands for a number. -/
theorem isSome_number?_of_fraction {ds : List Char} (fraction : t.fraction = some ds)
    (exponent : t.exponent = none) (digits : ∀ c ∈ t.whole, c.isDigit = true) (short : t.whole.length ≤ 19) :
    t.number?.isSome := by
  have all := takeDigits_of_short digits short
  have start := (takeDigits_spec t.whole 0).2.2.1 (Nat.zero_le _)
  have more := (takeDigits_spec ds (takeDigits 0 t.whole).1).2.2.1 start
  unfold number?
  simp only [fraction, exponent, all, Option.getD_some, List.length_nil]
  exact isSome_scaled more (by omega)

/-- An exponent stands for a number if it is negative, or if there is room for its power. -/
theorem isSome_number?_of_exponent {minus : Bool} {power : List Char} (exponent : t.exponent = some (minus, power))
    (digits : ∀ c ∈ t.whole, c.isDigit = true) (short : t.whole.length ≤ 19)
    (room : minus = false → Nat.ofDigitChars 10 power 0 ≤ exponentLimit ∧ ∀ s unread, s ≤ wordLimit →
      unread ≤ (t.fraction.getD []).length →
        s * 10 ^ unread ≤ Nat.ofDigitChars 10 (t.whole ++ t.fraction.getD []) 0 →
          (scaled t.negative s (Nat.ofDigitChars 10 power 0 - ((t.fraction.getD []).length - unread : Nat))).isSome) :
    t.number?.isSome := by
  have all := takeDigits_of_short digits short
  obtain ⟨whole, -, bounded, -⟩ := takeDigits_spec t.whole 0
  have start := bounded (Nat.zero_le _)
  obtain ⟨same, shorter, bounded, -⟩ := takeDigits_spec (t.fraction.getD []) (takeDigits 0 t.whole).1
  have more := bounded start
  rw [all, Nat.ofDigitChars_nil] at whole
  set size := Nat.ofDigitChars 10 power 0
  set taken := takeDigits (takeDigits 0 t.whole).1 (t.fraction.getD []) with named
  set place : Int := 0 - ((t.fraction.getD []).length - taken.2.length : Nat) with placed
  have read : t.number? =
      if exponentLimit < size then
        if taken.1 ≠ 0 ∧ !minus then none else some (.double (Double.zero t.negative))
      else scaled t.negative taken.1 (if minus then place - size else place + size) := by
    unfold number?
    simp only [exponent, all, List.length_nil, foldl_eq_ofDigitChars]
    cases fraction : t.fraction <;> simp only [named, placed, fraction] <;> rfl
  rw [read]
  cases minus with
  | true =>
      simp only [Bool.not_true, Bool.false_eq_true, and_false, ↓reduceIte]
      split_ifs
      · rfl
      · exact isSome_scaled more (by omega)
  | false =>
      obtain ⟨small, placed'⟩ := room rfl
      have value := mul_pow_le_ofDigitChars taken.2 taken.1
      rw [same, whole, ← Nat.ofDigitChars_append] at value
      rw [if_neg (by omega), if_neg Bool.false_ne_true,
        show place + size = size - ((t.fraction.getD []).length - taken.2.length : Nat) by omega]
      exact placed' _ _ more shorter value

/-! ### Doubles -/

/-- A number has no fewer places than its length says. -/
theorem pow_length_le {n : Nat} (positive : 0 < n) : 10 ^ ((Layout.digitText n).length - 1) ≤ n := by
  rw [digitText_eq]
  by_cases one : (Nat.toDigits 10 n).length ≤ 1
  · rw [Nat.sub_eq_zero_of_le one]
    exact positive
  · by_contra less
    have shorter := (Nat.length_toDigits_le_iff (by decide) (by omega)).mpr (Nat.lt_of_not_le less)
    omega

section Shortest

variable {rank : Nat}

/-- The first digit of a double stands no higher than a power of ten that is a double. -/
theorem exponent_add_le {u : Nat} (positive : 0 < rank) (small : rank + 4 < Double.rankLimit)
    (digits : 10 ^ u ≤ (shortest rank).digits) : (shortest rank).exponent + u ≤ powerLimit := by
  have bound := (shortest_spec positive (by omega)).2
  have room : Double.value (rank + 1) ≤ _ := Double.value_le_of_add_four_le (by omega)
  have power : (2 : ℚ) ^ (1024 : Int) ≤ 10 ^ (309 : Int) := by
    have natural : (2 : Nat) ^ 1024 ≤ 10 ^ 309 := by decide +kernel
    exact_mod_cast natural
  have reach : (10 : ℚ) ^ ((shortest rank).exponent + u) < 10 ^ (309 : Int) := by
    calc (10 : ℚ) ^ ((shortest rank).exponent + u) = 10 ^ u * 10 ^ (shortest rank).exponent := by
          rw [zpow_add₀ (by norm_num), zpow_natCast, mul_comm]
      _ ≤ (shortest rank).digits * 10 ^ (shortest rank).exponent := by
          gcongr
          exact_mod_cast digits
      _ ≤ (2 ^ 53 - 4) * 2 ^ (971 : Int) := bound.trans room
      _ < 2 ^ (53 : Int) * 2 ^ (971 : Int) := by
          gcongr
          norm_num
      _ = 2 ^ (1024 : Int) := (zpow_add₀ two_ne_zero 53 971).symm
      _ ≤ 10 ^ (309 : Int) := power
  have below := (zpow_lt_zpow_iff_right₀ (by norm_num)).mp reach
  rw [powerLimit]
  omega

/-- Digits of a double are read with their exponent, even if only the first of them are read. -/
theorem isSome_scaled_shortest {s u : Nat} (positive : 0 < rank) (small : rank + 4 < Double.rankLimit)
    (fits : s ≤ wordLimit) (digits : 10 ^ u ≤ (shortest rank).digits)
    (part : s * 10 ^ u ≤ (shortest rank).digits) (negative : Bool) :
    (scaled negative s ((shortest rank).exponent + u)).isSome := by
  rcases Int.le_total ((shortest rank).exponent + u) 0 with low | high
  · exact isSome_scaled fits low
  obtain ⟨e, exponent⟩ := Int.eq_ofNat_of_zero_le high
  have power := exponent_add_le positive small digits
  have bound := (shortest_spec positive (by omega)).2
  have room : Double.value (rank + 1) ≤ _ := Double.value_le_of_add_four_le (by omega)
  rw [scaled, Option.isSome_map, exponent]
  refine isSome_placePoint_of_room (by omega) ?_
  calc (s : ℚ) * 10 ^ e = s * 10 ^ u * 10 ^ (shortest rank).exponent := by
        rw [← zpow_natCast, ← exponent, zpow_add₀ (by norm_num), zpow_natCast]
        ring
    _ ≤ (shortest rank).digits * 10 ^ (shortest rank).exponent := by
        gcongr
        exact_mod_cast part
    _ ≤ (2 ^ 53 - 4) * 2 ^ (971 : Int) := bound.trans room

/-- A double that is written with a power of ten stands for a number. -/
theorem isSome_number?_of_power (positive : 0 < rank) (small : rank + 4 < Double.rankLimit)
    {fraction : Option (List Char)}
    (rest : fraction.getD [] = (Layout.digitText (shortest rank).digits).drop 1) {power : Int}
    (place : power = (Layout.digitText (shortest rank).digits).length + (shortest rank).exponent - 1)
    (negative : Bool) :
    (NumberText.number? ⟨negative, (Layout.digitText (shortest rank).digits).take 1, fraction,
      some (decide (power < 0), Layout.digitText power.natAbs)⟩).isSome := by
  have run := isRun_digitText (shortest rank).digits
  have length := List.length_pos_of_ne_nil run.1
  have places := pow_length_le (shortest_spec positive (by omega)).1
  have reach := exponent_add_le positive small places
  have limit : powerLimit ≤ exponentLimit := by decide
  refine isSome_number?_of_exponent rfl (run.take (by omega)).2 ?_ fun plus => ?_
  · rw [List.length_take]
    omega
  have sign := of_decide_eq_false plus
  rw [ofDigitChars_digitText]
  refine ⟨by omega, fun s u fits shorter part => ?_⟩
  simp only [rest, List.take_append_drop, ofDigitChars_digitText, List.length_drop] at part shorter ⊢
  have fewer : 10 ^ u ≤ (shortest rank).digits := (Nat.pow_le_pow_right (by decide) shorter).trans places
  have placed := isSome_scaled_shortest positive small fits fewer part negative
  rwa [show (power.natAbs : Int) - ((Layout.digitText (shortest rank).digits).length - 1 - u : Nat) =
    (shortest rank).exponent + u by omega]

/-- **What is written of a positive double** stands for a number. -/
theorem isSome_number?_ofDigits (positive : 0 < rank) (finite : rank < Double.rankLimit) (negative : Bool) :
    (ofDigits negative (shortest rank)).number?.isSome := by
  by_cases small : rank + 4 < Double.rankLimit
  · have above := (shortest_spec positive finite).1
    have run := isRun_digitText (shortest rank).digits
    unfold ofDigits
    dsimp only
    split_ifs with left inside right single
    · refine isSome_number?_of_fraction rfl rfl (run.append (isDigit_replicate _)).2 ?_
      rw [List.length_append, List.length_replicate]
      omega
    · refine isSome_number?_of_fraction rfl rfl (run.take (by omega)).2 ?_
      rw [List.length_take]
      omega
    · exact isSome_number?_of_fraction rfl rfl isRun_zero.2 (by simp)
    · refine isSome_number?_of_power positive small ?_ rfl negative
      rw [Option.getD_none, eq_comm, List.drop_eq_nil_iff]
      omega
    · exact isSome_number?_of_power positive small rfl rfl negative
  · have top : rank = Double.rankLimit - 4 ∨ rank = Double.rankLimit - 3 ∨ rank = Double.rankLimit - 2 ∨
        rank = Double.rankLimit - 1 := by omega
    rcases top with rfl | rfl | rfl | rfl <;> cases negative <;> decide +kernel

end Shortest

/-- Well-formed parts begin with a sign or a digit. -/
theorem opens_chars (formed : t.WellFormed) : ∃ c cs, t.chars = c :: cs ∧ (c = '-' ∨ c.isDigit = true) := by
  obtain ⟨c, cs, whole⟩ := List.exists_cons_of_ne_nil formed.whole.1
  cases sign : t.negative with
  | true => exact ⟨'-', _, by simp [chars, sign]; rfl, .inl rfl⟩
  | false =>
      have digit := formed.whole.2 c (by simp [whole])
      exact ⟨c, _, by simp [chars, sign, whole]; rfl, .inr digit⟩

end NumberText

/-- Whether a number is read back from its text, perhaps as another one. -/
structure Reread (n : Number) : Prop where
  opens : ∃ c cs, numberText n = c :: cs ∧ (c = '-' ∨ c.isDigit = true)
  read : ∃ m, ∀ rest, Ends rest →
    ∃ t, NumberText.read (numberText n ++ rest) = some (t, rest) ∧ t.number? = some m

/-- A number whose text is that of well-formed parts is read back if they stand for a number. -/
theorem reread_of_chars {n : Number} {t : NumberText} (formed : t.WellFormed) (text : t.chars = numberText n)
    (value : t.number?.isSome) : Reread n := by
  obtain ⟨m, number⟩ := Option.isSome_iff_exists.mp value
  refine ⟨text ▸ NumberText.opens_chars formed, m, fun rest ends => ⟨t, ?_, number⟩⟩
  rw [← text]
  exact NumberText.read_chars formed ends

theorem reread_whole {n : Int} (fits : n.natAbs ≤ wordLimit) : Reread (.whole n) := by
  refine reread_of_chars (t := ⟨decide (n < 0), Layout.digitText n.natAbs, none, none⟩) ?_ ?_ ?_
  · refine ⟨isRun_digitText _, fun zero => ?_, by simp, by simp⟩
    rcases Nat.eq_zero_or_pos n.natAbs with none | positive
    · simp only [none]
      rfl
    · exact absurd zero (head?_digitText positive)
  · have text : NumberText.chars ⟨decide (n < 0), Layout.digitText n.natAbs, none, none⟩ =
        (if n < 0 then ['-'] else []) ++ Layout.digitText n.natAbs := by
      simp [NumberText.chars, NumberText.fractionChars, NumberText.exponentChars]
    rw [text, numberText, Int.toString_eq_repr, Int.repr_eq_if]
    by_cases sign : 0 ≤ n
    · rw [if_pos sign, if_neg (by omega), show n.toNat = n.natAbs by omega]
      rfl
    · rw [if_neg sign, if_pos (by omega), show (-n).toNat = n.natAbs by omega, String.toList_append]
      rfl
  · refine NumberText.isSome_number?_of_whole rfl rfl ?_
    rwa [ofDigitChars_digitText]

theorem reread_double {x : Double} (finite : x.rank < Double.rankLimit) : Reread (.double x) := by
  obtain ⟨negative, rank⟩ := x
  rcases Nat.eq_zero_or_pos rank with rfl | positive
  · refine reread_of_chars (t := ⟨negative, ['0'], some ['0'], none⟩) ?_ ?_ ?_
    · exact ⟨isRun_zero, fun _ => rfl, by simp [isRun_zero], by simp⟩
    · cases negative <;> simp [numberText, Layout.text, NumberText.chars, NumberText.fractionChars,
        NumberText.exponentChars]
    · exact NumberText.isSome_number?_of_fraction rfl rfl (by simp) (by simp)
  · refine reread_of_chars (t := .ofDigits negative (shortest rank)) ?_ ?_ ?_
    · exact NumberText.wellFormed_ofDigits negative (shortest_spec positive finite).1
    · rw [NumberText.chars_ofDigits]
      cases negative <;> simp [numberText, Layout.text, positive.ne']
    · exact NumberText.isSome_number?_ofDigits positive finite negative

/-- **Every number that was read is read again** from its text. -/
theorem reread_of_number? {t : NumberText} {n : Number} (read : t.number? = some n) : Reread n := by
  have readable := readable_of_number? read
  cases n with
  | whole n => exact reread_whole readable
  | double x => exact reread_double readable

end RecordTree.Json
