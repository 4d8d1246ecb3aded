import Mathlib.Algebra.Order.Field.Power
import Mathlib.Data.Rat.Cast.Order
import Mathlib.Tactic.FieldSimp
import Mathlib.Tactic.Linarith
import Mathlib.Tactic.NormNum
import Mathlib.Tactic.Positivity
import Mathlib.Tactic.Ring
import RecordTree.Decimal.Double

/-!
# Rounding to doubles

What a rank stands for is a rational number (`value`). A quotient that is rounded becomes at most one part in
`2 ^ 53` larger (`value_roundQuotient_le`), and it overflows only from halfway beyond the largest double on
(`roundQuotient_lt_rankLimit`).
-/

namespace RecordTree.Decimal

/-! ### Rounding to whole numbers -/

theorem div_le_roundHalfEven (num den : Nat) : num / den ≤ roundHalfEven num den := by
  unfold roundHalfEven
  dsimp only
  split_ifs <;> omega

/-- To round adds at most one half. -/
theorem roundHalfEven_le {num den : Nat} (positive : 0 < den) :
    (roundHalfEven num den : ℚ) ≤ num / den + 1 / 2 := by
  have parts := Nat.div_add_mod num den
  have bound : 2 * (den * roundHalfEven num den) ≤ 2 * num + den := by
    unfold roundHalfEven
    dsimp only
    split_ifs with low high
    · omega
    · rw [Nat.mul_add]
      omega
    · have up : den * (num / den % 2) ≤ den * 1 := Nat.mul_le_mul_left den (by omega)
      rw [Nat.mul_add]
      omega
  have cast : (2 : ℚ) * (den * roundHalfEven num den) ≤ 2 * num + den := by exact_mod_cast bound
  have pos : (0 : ℚ) < den := by exact_mod_cast positive
  rw [div_add' _ _ _ pos.ne', le_div_iff₀ pos]
  linarith

namespace Double

/-! ### Quotients of powers of two -/

theorem scale_eq (num den : Nat) (shift : Int) :
    ((scale num den shift).1 : ℚ) / (scale num den shift).2 = num / den * 2 ^ shift := by
  unfold scale
  split_ifs with sign
  · obtain ⟨k, rfl⟩ := Int.eq_ofNat_of_zero_le sign
    simp [mul_div_right_comm]
  · obtain ⟨k, rfl⟩ : ∃ k : Nat, shift = -k := ⟨(-shift).toNat, by omega⟩
    simp [div_eq_mul_inv, mul_assoc, mul_comm]

theorem scale_snd_pos {num den : Nat} (positive : 0 < den) (shift : Int) : 0 < (scale num den shift).2 := by
  unfold scale
  split_ifs
  · exact positive
  · exact Nat.mul_pos positive (Nat.pow_pos (by decide))

/-- The highest bit of a quotient stands between two powers of two. -/
theorem floorLog2_spec {num den : Nat} (above : 0 < num) (below : 0 < den) :
    (2 : ℚ) ^ floorLog2 num den ≤ num / den ∧ (num : ℚ) / den < 2 ^ (floorLog2 num den + 1) := by
  have numLow : (2 : ℚ) ^ (num.log2 : Int) ≤ num := by
    exact_mod_cast Nat.log2_self_le above.ne'
  have numHigh : (num : ℚ) < 2 ^ ((num.log2 : Int) + 1) := by
    exact_mod_cast Nat.lt_log2_self (n := num)
  have denLow : (2 : ℚ) ^ (den.log2 : Int) ≤ den := by
    exact_mod_cast Nat.log2_self_le below.ne'
  have denHigh : (den : ℚ) < 2 ^ ((den.log2 : Int) + 1) := by
    exact_mod_cast Nat.lt_log2_self (n := den)
  have positive : (0 : ℚ) < den := by exact_mod_cast below
  set guess : Int := (num.log2 : Int) - den.log2 with guessed
  have low : (2 : ℚ) ^ (guess - 1) ≤ num / den := by
    rw [le_div_iff₀ positive]
    calc (2 : ℚ) ^ (guess - 1) * den ≤ 2 ^ (guess - 1) * 2 ^ ((den.log2 : Int) + 1) := by gcongr
      _ = 2 ^ (num.log2 : Int) := by rw [← zpow_add₀ two_ne_zero, guessed]; congr 1; ring
      _ ≤ num := numLow
  have high : (num : ℚ) / den < 2 ^ (guess + 1) := by
    rw [div_lt_iff₀ positive]
    calc (num : ℚ) < 2 ^ ((num.log2 : Int) + 1) := numHigh
      _ = 2 ^ (guess + 1) * 2 ^ (den.log2 : Int) := by rw [← zpow_add₀ two_ne_zero, guessed]; congr 1; ring
      _ ≤ 2 ^ (guess + 1) * den := by gcongr
  have fits : (scale num den (-guess)).2 ≤ (scale num den (-guess)).1 ↔ (2 : ℚ) ^ guess ≤ num / den := by
    have pos : (0 : ℚ) < (scale num den (-guess)).2 := by exact_mod_cast scale_snd_pos below _
    rw [← @Nat.cast_le ℚ, ← one_le_div pos, scale_eq, zpow_neg, ← div_eq_mul_inv,
      one_le_div (by positivity)]
  have step : floorLog2 num den =
      if (scale num den (-guess)).2 ≤ (scale num den (-guess)).1 then guess else guess - 1 := rfl
  rw [step]
  split_ifs with reaches
  · exact ⟨fits.mp reaches, high⟩
  · rw [sub_add_cancel]
    exact ⟨low, not_le.mp (mt fits.mpr reaches)⟩

/-! ### Rounding to ranks -/

/-- How a quotient is rounded: to a whole number of units, which are so small that there are no fewer than a
binade has unless they are the least ones. -/
structure Rounding (num den : Nat) (unit : Int) (rounded : Nat) : Prop where
  least : leastExponent ≤ unit
  rank : roundQuotient num den = (unit - leastExponent).toNat * binade + rounded
  below : (rounded : ℚ) ≤ num / den * 2 ^ (-unit) + 1 / 2
  fits : (num : ℚ) / den * 2 ^ (-unit) < 2 ^ 53
  full : leastExponent < unit → (2 : ℚ) ^ 52 ≤ num / den * 2 ^ (-unit) ∧ binade ≤ rounded

/-- A positive quotient is rounded so. -/
theorem exists_rounding {num den : Nat} (above : 0 < num) (below : 0 < den) :
    ∃ unit rounded, Rounding num den unit rounded := by
  obtain ⟨low, high⟩ := floorLog2_spec above below
  set highest := floorLog2 num den with named
  set unit : Int := max (highest - 52) leastExponent with chosen
  have pos : 0 < (scale num den (-unit)).2 := scale_snd_pos below _
  have ratio := scale_eq num den (-unit)
  have shifted : ∀ e : Int, (2 : ℚ) ^ e * 2 ^ (-unit) = 2 ^ (e - unit) := fun e =>
    (zpow_add₀ two_ne_zero e (-unit)).symm
  refine ⟨unit, roundHalfEven (scale num den (-unit)).1 (scale num den (-unit)).2,
    le_max_right _ _, ?_, ?_, ?_, fun most => ?_⟩
  · rw [roundQuotient, if_neg above.ne']
  · rw [← ratio]
    exact roundHalfEven_le pos
  · calc (num : ℚ) / den * 2 ^ (-unit) < 2 ^ (highest + 1) * 2 ^ (-unit) := by gcongr
      _ = 2 ^ (highest + 1 - unit) := shifted _
      _ ≤ 2 ^ (53 : Int) := by
        refine zpow_le_zpow_right₀ one_le_two ?_
        have := le_max_left (highest - 52) leastExponent
        omega
      _ = 2 ^ 53 := by norm_num
  · have exact' : unit = highest - 52 := by omega
    have units : (2 : ℚ) ^ 52 ≤ num / den * 2 ^ (-unit) := by
      calc (2 : ℚ) ^ 52 = 2 ^ (highest - unit) := by rw [exact', sub_sub_cancel]; norm_num
        _ = 2 ^ highest * 2 ^ (-unit) := (shifted _).symm
        _ ≤ num / den * 2 ^ (-unit) := by gcongr
    refine ⟨units, le_trans ?_ (div_le_roundHalfEven _ _)⟩
    rw [← ratio, le_div_iff₀ (by exact_mod_cast pos)] at units
    rw [Nat.le_div_iff_mul_le pos]
    exact_mod_cast units

/-- The rounded number of units is at most two binades. -/
theorem Rounding.le_two_binades {num den : Nat} {unit : Int} {rounded : Nat}
    (rounding : Rounding num den unit rounded) : rounded ≤ 2 * binade := by
  have close : (rounded : ℚ) < ((2 * binade + 1 : Nat) : ℚ) := by
    calc (rounded : ℚ) ≤ num / den * 2 ^ (-unit) + 1 / 2 := rounding.below
      _ < 2 ^ 53 + 1 / 2 := by gcongr; exact rounding.fits
      _ < ((2 * binade + 1 : Nat) : ℚ) := by norm_num [binade]
  exact Nat.le_of_lt_succ (by exact_mod_cast close)

/-! ### Values -/

/-- The magnitude that a rank stands for. -/
def value (rank : Nat) : ℚ := significand rank * 2 ^ exponent rank

/-- The least magnitude that is rounded to no finite double. -/
def ceiling : ℚ := (2 ^ 54 - 1) * 2 ^ (970 : Int)

/-- The ceiling in units of the last place of the largest double. -/
theorem ceiling_eq : ceiling = (2 ^ 53 - 1 / 2) * 2 ^ (971 : Int) := by
  have next : (2 : ℚ) ^ (971 : Int) = 2 * 2 ^ (970 : Int) := zpow_one_add₀ two_ne_zero 970
  rw [ceiling, next]
  ring

theorem magnitude_eq (rank : Nat) : ((magnitude rank).1 : ℚ) / (magnitude rank).2 = value rank := by
  rw [magnitude, scale_eq, value, Nat.cast_one, div_one]

theorem magnitude_snd_pos (rank : Nat) : 0 < (magnitude rank).2 := scale_snd_pos Nat.one_pos _

theorem value_nonneg (rank : Nat) : 0 ≤ value rank := by
  unfold value
  positivity

/-- Full units with a carry into the next binade or without one. -/
theorem value_of_units {unit : Int} {rounded : Nat} (least : leastExponent ≤ unit) (full : binade ≤ rounded)
    (room : rounded ≤ 2 * binade) :
    value ((unit - leastExponent).toNat * binade + rounded) = rounded * 2 ^ unit := by
  obtain ⟨n, rfl⟩ : ∃ n : Nat, unit = n + leastExponent := ⟨(unit - leastExponent).toNat, by omega⟩
  have positive : 0 < binade := by decide
  rw [add_sub_cancel_right, Int.toNat_natCast]
  have normal : ¬ n * binade + rounded < binade := by omega
  rcases room.eq_or_lt with rfl | room
  · have place : n * binade + 2 * binade = (n + 2) * binade := by ring
    rw [value, significand, exponent, if_neg normal, if_neg normal, place, Nat.mul_mod_left,
      Nat.mul_div_cancel _ positive]
    have carried : ((n + 2 : Nat) : Int) - 1 + leastExponent = 1 + (n + leastExponent) := by
      push_cast
      ring
    rw [carried, zpow_add₀ two_ne_zero]
    push_cast
    ring
  · obtain ⟨m, rfl⟩ := Nat.exists_eq_add_of_le full
    have small : m < binade := by omega
    have place : n * binade + (binade + m) = m + (n + 1) * binade := by ring
    rw [value, significand, exponent, if_neg normal, if_neg normal, place, Nat.add_mul_mod_self_right,
      Nat.mod_eq_of_lt small, Nat.add_mul_div_right _ _ positive, Nat.div_eq_of_lt small]
    have own : ((0 + (n + 1) : Nat) : Int) - 1 + leastExponent = n + leastExponent := by
      push_cast
      ring
    rw [own]

theorem value_of_subnormal {rank : Nat} (small : rank < binade) : value rank = rank * 2 ^ leastExponent := by
  rw [value, significand, exponent, if_pos small, if_pos small]

/-- Neighbouring doubles are one unit apart, and at most two binades of units large. -/
theorem exists_value_succ (rank : Nat) : ∃ (units : Nat) (unit : Int), units < 2 * binade ∧ leastExponent ≤ unit ∧
    value rank = units * 2 ^ unit ∧ value (rank + 1) = (units + 1) * 2 ^ unit := by
  have size : 0 < binade := by decide
  by_cases small : rank < binade
  · refine ⟨rank, leastExponent, by omega, le_rfl, value_of_subnormal small, ?_⟩
    rcases Nat.lt_or_ge (rank + 1) binade with next | next
    · rw [value_of_subnormal next]
      push_cast
      rfl
    · have carry := value_of_units (le_refl leastExponent) next (by omega)
      rw [sub_self, Int.toNat_zero, Nat.zero_mul, Nat.zero_add] at carry
      rw [carry]
      push_cast
      rfl
  · have parts := Nat.div_add_mod' rank binade
    have rest := Nat.mod_lt rank size
    have first : 1 ≤ rank / binade := (Nat.one_le_div_iff size).mpr (by omega)
    have split : (rank / binade - 1) * binade + (binade + rank % binade) = rank := by
      obtain ⟨n, same⟩ := Nat.exists_eq_add_of_le first
      rw [same, Nat.add_mul, Nat.one_mul] at parts
      rw [same, Nat.add_sub_cancel_left]
      omega
    have least : leastExponent ≤ ((rank / binade - 1 : Nat) : Int) + leastExponent := by omega
    have here := value_of_units least (Nat.le_add_right binade (rank % binade)) (by omega)
    have next := value_of_units least (Nat.le_succ_of_le (Nat.le_add_right binade (rank % binade))) (by omega)
    rw [add_sub_cancel_right, Int.toNat_natCast] at here next
    rw [split] at here
    rw [Nat.succ_eq_add_one, ← Nat.add_assoc, split] at next
    exact ⟨_, _, by omega, least, here, by rw [next]; push_cast; rfl⟩

theorem strictMono_value : StrictMono value := by
  refine strictMono_nat_of_lt_succ fun rank => ?_
  obtain ⟨units, unit, -, -, here, next⟩ := exists_value_succ rank
  rw [here, next, add_mul]
  exact lt_add_of_pos_right _ (by positivity)

/-- A double is not too large for its distance from the one below it. -/
theorem value_succ_le (rank : Nat) : value (rank + 1) ≤ 2 ^ 53 * (value (rank + 1) - value rank) := by
  obtain ⟨units, unit, few, -, here, next⟩ := exists_value_succ rank
  have most : (units + 1 : ℚ) ≤ 2 ^ 53 := by exact_mod_cast few
  calc value (rank + 1) = (units + 1) * 2 ^ unit := next
    _ ≤ 2 ^ 53 * 2 ^ unit := by gcongr
    _ = 2 ^ 53 * (value (rank + 1) - value rank) := by rw [here, next]; ring

theorem le_value_of_pos {rank : Nat} (positive : 0 < rank) : 2 ^ leastExponent ≤ value rank := by
  have one : value 1 = 2 ^ leastExponent := by
    rw [value_of_subnormal (by decide), Nat.cast_one, one_mul]
  rw [← one]
  exact strictMono_value.monotone positive

/-- **A quotient that is rounded** becomes at most one part in `2 ^ 53` larger, and not less than one if it was
not. -/
theorem value_roundQuotient {num den : Nat} (below : 0 < den) (large : den ≤ num) :
    1 ≤ value (roundQuotient num den) ∧
      value (roundQuotient num den) ≤ num / den * (1 + 2 ^ (-53 : Int)) := by
  obtain ⟨unit, rounded, rounding⟩ := exists_rounding (Nat.lt_of_lt_of_le below large) below
  have pos : (0 : ℚ) < den := by exact_mod_cast below
  have atLeast : (1 : ℚ) ≤ num / den := by
    rw [one_le_div pos]
    exact_mod_cast large
  have units : (0 : ℚ) < 2 ^ unit := by positivity
  have near : -53 < unit := by
    have shift : (2 : ℚ) ^ (-unit) < 2 ^ (53 : Int) := by
      calc (2 : ℚ) ^ (-unit) = 1 * 2 ^ (-unit) := (one_mul _).symm
        _ ≤ num / den * 2 ^ (-unit) := by gcongr
        _ < 2 ^ (53 : Int) := by exact_mod_cast rounding.fits
    have := (zpow_lt_zpow_iff_right₀ one_lt_two).mp shift
    omega
  have most : leastExponent < unit := by
    unfold leastExponent
    omega
  obtain ⟨full, filled⟩ := rounding.full most
  rw [rounding.rank, value_of_units rounding.least filled rounding.le_two_binades]
  constructor
  · calc (1 : ℚ) ≤ 2 ^ (52 + unit) := one_le_zpow₀ one_le_two (by omega)
      _ = binade * 2 ^ unit := by rw [zpow_add₀ two_ne_zero]; norm_num [binade]
      _ ≤ rounded * 2 ^ unit := by gcongr
  · have cancel : (2 : ℚ) ^ (-unit) * 2 ^ unit = 1 := by rw [← zpow_add₀ two_ne_zero]; simp
    have share : (2 : ℚ) ^ 52 * 2 ^ unit ≤ num / den := by
      calc (2 : ℚ) ^ 52 * 2 ^ unit ≤ num / den * 2 ^ (-unit) * 2 ^ unit := by gcongr
        _ = num / den := by rw [mul_assoc, cancel, mul_one]
    calc (rounded : ℚ) * 2 ^ unit ≤ (num / den * 2 ^ (-unit) + 1 / 2) * 2 ^ unit := by
          gcongr
          exact rounding.below
      _ = num / den + 2 ^ unit / 2 := by rw [add_mul, mul_assoc, cancel]; ring
      _ ≤ num / den * (1 + 2 ^ (-53 : Int)) := by
          norm_num at share ⊢
          linarith

/-- **What is below the ceiling** does not overflow. -/
theorem roundQuotient_lt_rankLimit {num den : Nat} (below : 0 < den) (low : (num : ℚ) / den < ceiling) :
    roundQuotient num den < rankLimit := by
  rcases Nat.eq_zero_or_pos num with rfl | above
  · simp [roundQuotient, rankLimit, binade]
  obtain ⟨unit, rounded, rounding⟩ := exists_rounding above below
  by_cases top : unit ≤ 970
  · have units : (unit - leastExponent).toNat ≤ 2044 := by
      rw [leastExponent]
      omega
    calc roundQuotient num den = (unit - leastExponent).toNat * binade + rounded := rounding.rank
      _ ≤ 2044 * binade + 2 * binade := Nat.add_le_add (Nat.mul_le_mul_right _ units) rounding.le_two_binades
      _ < rankLimit := by decide
  · have most : leastExponent < unit := by
      rw [leastExponent]
      omega
    obtain ⟨full, -⟩ := rounding.full most
    have share : (2 : ℚ) ^ 52 * 2 ^ unit ≤ num / den := by
      calc (2 : ℚ) ^ 52 * 2 ^ unit ≤ num / den * 2 ^ (-unit) * 2 ^ unit := by gcongr
        _ = num / den := by rw [mul_assoc, ← zpow_add₀ two_ne_zero]; simp
    obtain rfl : unit = 971 := by
      by_contra other
      have next : (2 : ℚ) * 2 ^ (971 : Int) ≤ 2 ^ unit := by
        rw [← zpow_one_add₀ two_ne_zero]
        exact zpow_le_zpow_right₀ one_le_two (by omega)
      have reached : (2 : ℚ) ^ 52 * (2 * 2 ^ (971 : Int)) < (2 ^ 53 - 1 / 2) * 2 ^ (971 : Int) := by
        rw [← ceiling_eq]
        exact lt_of_le_of_lt (le_trans (by gcongr) share) low
      have units : (0 : ℚ) < 2 ^ (971 : Int) := by positivity
      generalize (2 : ℚ) ^ (971 : Int) = u at reached units
      linarith
    have close : (rounded : ℚ) < ((2 * binade : Nat) : ℚ) := by
      calc (rounded : ℚ) ≤ num / den * 2 ^ (-971 : Int) + 1 / 2 := rounding.below
        _ < ceiling * 2 ^ (-971 : Int) + 1 / 2 := by gcongr
        _ = ((2 * binade : Nat) : ℚ) := by
          rw [ceiling_eq, mul_assoc, ← zpow_add₀ two_ne_zero]
          norm_num [binade]
    have under : rounded < 2 * binade := by exact_mod_cast close
    calc roundQuotient num den = (971 - leastExponent).toNat * binade + rounded := rounding.rank
      _ < (971 - leastExponent).toNat * binade + 2 * binade := Nat.add_lt_add_left under _
      _ = rankLimit := by decide

/-- Finite doubles are below the ceiling. -/
theorem value_lt_ceiling {rank : Nat} (finite : rank < rankLimit) : value rank < ceiling := by
  have top : exponent rank ≤ 971 := by
    have quotient : rank / binade < 2047 := Nat.div_lt_of_lt_mul (by rwa [Nat.mul_comm])
    unfold exponent leastExponent
    split_ifs <;> omega
  have few : significand rank < 2 * binade := by
    have rest : rank % binade < binade := Nat.mod_lt _ (by decide)
    unfold significand
    split_ifs <;> omega
  have fewer : (significand rank : ℚ) ≤ 2 ^ 53 - 1 := by
    have cast : ((significand rank + 1 : Nat) : ℚ) ≤ ((2 * binade : Nat) : ℚ) := by exact_mod_cast few
    rw [le_sub_iff_add_le]
    exact_mod_cast cast
  calc value rank ≤ (2 ^ 53 - 1) * 2 ^ (971 : Int) := by
        unfold value
        gcongr
        exact one_le_two
    _ < (2 ^ 53 - 1 / 2) * 2 ^ (971 : Int) := by gcongr; norm_num
    _ = ceiling := ceiling_eq.symm

/-- All but the largest doubles are four units below the next power of two. -/
theorem value_le_of_add_four_le {rank : Nat} (small : rank + 4 ≤ rankLimit) :
    value rank ≤ (2 ^ 53 - 4) * 2 ^ (971 : Int) := by
  have four := @value_of_units 971 (2 * binade - 4) (by decide) (by decide) (by decide)
  rw [show (971 - leastExponent).toNat * binade + (2 * binade - 4) = rankLimit - 4 by decide] at four
  have units : ((2 * binade - 4 : Nat) : ℚ) = 2 ^ 53 - 4 := by
    rw [Nat.cast_sub (by decide)]
    norm_num [binade]
  rw [← units, ← four]
  exact strictMono_value.monotone (by omega)

/-- A product below the ceiling does not overflow. -/
theorem mulRank_lt_rankLimit {a b : Nat} (low : value a * value b < ceiling) : mulRank a b < rankLimit := by
  refine roundQuotient_lt_rankLimit (Nat.mul_pos (magnitude_snd_pos a) (magnitude_snd_pos b)) ?_
  rw [Nat.cast_mul, Nat.cast_mul, mul_div_mul_comm]
  rwa [← magnitude_eq a, ← magnitude_eq b] at low

/-- **A product of two rounded numbers** does not overflow if the exact one is four units below the next power
of two. -/
theorem mulRank_roundQuotient_lt_rankLimit {a b : Nat} (apos : 1 ≤ a) (bpos : 1 ≤ b)
    (room : (a : ℚ) * b ≤ (2 ^ 53 - 4) * 2 ^ (971 : Int)) :
    mulRank (roundQuotient a 1) (roundQuotient b 1) < rankLimit := by
  obtain ⟨-, left⟩ := value_roundQuotient Nat.one_pos apos
  obtain ⟨-, right⟩ := value_roundQuotient Nat.one_pos bpos
  rw [Nat.cast_one, div_one] at left right
  refine mulRank_lt_rankLimit ?_
  calc value (roundQuotient a 1) * value (roundQuotient b 1)
      ≤ a * (1 + 2 ^ (-53 : Int)) * (b * (1 + 2 ^ (-53 : Int))) :=
        mul_le_mul left right (value_nonneg _) (by positivity)
    _ = a * b * (1 + 2 ^ (-53 : Int)) ^ 2 := by ring
    _ ≤ (2 ^ 53 - 4) * 2 ^ (971 : Int) * (1 + 2 ^ (-53 : Int)) ^ 2 := by gcongr
    _ = (2 ^ 53 - 4) * (1 + 2 ^ (-53 : Int)) ^ 2 * 2 ^ (971 : Int) := by ring
    _ < (2 ^ 53 - 1 / 2) * 2 ^ (971 : Int) := by gcongr; norm_num
    _ = ceiling := ceiling_eq.symm

/-- A finite double divided by one that is not less than one does not overflow. -/
theorem divRank_lt_rankLimit {a b : Nat} (finite : a < rankLimit) (large : 1 ≤ value b) :
    divRank a b < rankLimit := by
  have pos : (0 : ℚ) < (magnitude b).1 / (magnitude b).2 := by
    rw [magnitude_eq]
    linarith
  have top : 0 < (magnitude b).1 := by
    rcases Nat.eq_zero_or_pos (magnitude b).1 with zero | top
    · simp [zero] at pos
    · exact top
  refine roundQuotient_lt_rankLimit (Nat.mul_pos (magnitude_snd_pos a) top) ?_
  have low := lt_of_le_of_lt (div_le_self (value_nonneg a) large) (value_lt_ceiling finite)
  rw [← magnitude_eq a, ← magnitude_eq b, div_div_div_eq] at low
  rwa [Nat.cast_mul, Nat.cast_mul]

end Double

end RecordTree.Decimal
