import RecordTree.Decimal.Shortest
import RecordTree.Proofs.Decimal.Double

/-!
# The fewest digits of a double

The search for the fewest digits comes to an end: on a grid of eighteen digits the neighbour below a double
is nearer to it than the next double, so that the search finds a point of the interval at last
(`contains_search`). The digits that are found are not zero, and stand for no more than the next double
(`shortest_spec`).
-/

namespace RecordTree.Decimal

open Double

/-! ### Powers of ten -/

theorem powerOfTen_fst_pos (n : Int) : 0 < (powerOfTen n).1 := by
  unfold powerOfTen
  split_ifs
  · exact Nat.pow_pos (by decide)
  · exact Nat.one_pos

theorem powerOfTen_snd_pos (n : Int) : 0 < (powerOfTen n).2 := by
  unfold powerOfTen
  split_ifs
  · exact Nat.one_pos
  · exact Nat.pow_pos (by decide)

theorem powerOfTen_eq (n : Int) : ((powerOfTen n).1 : ℚ) / (powerOfTen n).2 = 10 ^ n := by
  unfold powerOfTen
  split_ifs with sign
  · obtain ⟨k, rfl⟩ := Int.eq_ofNat_of_zero_le sign
    simp
  · obtain ⟨k, rfl⟩ : ∃ k : Nat, n = -k := ⟨(-n).toNat, by omega⟩
    simp

/-- To compare quotients is to compare products. -/
theorem powerOfTen_mul_le_iff {n : Int} {num den : Nat} (positive : 0 < den) :
    (powerOfTen n).1 * den ≤ num * (powerOfTen n).2 ↔ (10 : ℚ) ^ n ≤ num / den := by
  have step : (0 : ℚ) < (powerOfTen n).2 := by exact_mod_cast powerOfTen_snd_pos n
  rw [← powerOfTen_eq, div_le_div_iff₀ step (by exact_mod_cast positive)]
  exact_mod_cast Iff.rfl

/-- In every binade the guess of the first digit's exponent is at most one too large. -/
theorem zpow_le_of_binade {e : Int} (low : leastExponent ≤ e) (high : e < 1024) :
    (10 : ℚ) ^ (e * 30103 / 100000 - 1) ≤ 2 ^ e := by
  have checked : ((List.range 2098).all fun n =>
      (powerOfTen (((n : Int) - 1074) * 30103 / 100000 - 1)).1 * (scale 1 1 (n - 1074)).2 ≤
        (scale 1 1 (n - 1074)).1 * (powerOfTen (((n : Int) - 1074) * 30103 / 100000 - 1)).2) = true := by
    decide +kernel
  rw [leastExponent] at low
  obtain ⟨n, rfl⟩ : ∃ n : Nat, e = n - 1074 := ⟨(e + 1074).toNat, by omega⟩
  have here := List.all_eq_true.mp checked n (List.mem_range.mpr (by omega))
  rw [decide_eq_true_eq, powerOfTen_mul_le_iff (scale_snd_pos Nat.one_pos _), scale_eq] at here
  simpa using here

/-- The first digit of a double does not stand too high. -/
theorem zpow_floorLog10_le {num den : Nat} (below : 0 < den) {rank : Nat} (positive : 0 < rank)
    (finite : rank < rankLimit) (same : (num : ℚ) / den = value rank) :
    (10 : ℚ) ^ floorLog10 num den ≤ value rank := by
  have least : (0 : ℚ) < 2 ^ leastExponent := by positivity
  have magnitude := le_value_of_pos positive
  have above : 0 < num := by
    rcases Nat.eq_zero_or_pos num with rfl | above
    · rw [Nat.cast_zero, zero_div] at same
      linarith
    · exact above
  obtain ⟨low, high⟩ := floorLog2_spec above below
  have ceiling := value_lt_ceiling finite
  rw [same] at low high
  have guess := zpow_le_of_binade (e := floorLog2 num den) ?_ ?_
  · unfold floorLog10
    dsimp only
    split_ifs with more exact'
    · rwa [powerOfTen_mul_le_iff below, same] at more
    · rwa [powerOfTen_mul_le_iff below, same] at exact'
    · exact guess.trans low
  · have := (zpow_lt_zpow_iff_right₀ one_lt_two).mp (lt_of_le_of_lt magnitude high)
    omega
  · have reach : (2 : ℚ) ^ floorLog2 num den < 2 ^ (1024 : Int) := by
      calc (2 : ℚ) ^ floorLog2 num den ≤ value rank := low
        _ < (2 ^ 53 - 1 / 2) * 2 ^ (971 : Int) := by rwa [← ceiling_eq]
        _ ≤ 2 ^ (53 : Int) * 2 ^ (971 : Int) := by gcongr; norm_num
        _ = 2 ^ (1024 : Int) := (zpow_add₀ two_ne_zero 53 971).symm
    exact (zpow_lt_zpow_iff_right₀ one_lt_two).mp reach

/-! ### Points of an interval -/

namespace Interval

variable {i : Interval} {step : Nat × Nat} {digits : Nat}

theorem contains_iff : i.contains digits step = true ↔
    if i.closed then i.lower * step.2 ≤ digits * step.1 * i.den ∧ digits * step.1 * i.den ≤ i.upper * step.2
    else i.lower * step.2 < digits * step.1 * i.den ∧ digits * step.1 * i.den < i.upper * step.2 := by
  unfold contains
  cases i.closed <;> simp

/-- What lies between the ends lies in the interval. -/
theorem contains_of_lt (low : i.lower * step.2 < digits * step.1 * i.den)
    (high : digits * step.1 * i.den < i.upper * step.2) : i.contains digits step = true := by
  rw [contains_iff]
  split_ifs
  · exact ⟨low.le, high.le⟩
  · exact ⟨low, high⟩

/-- What lies in the interval is not beyond its ends. -/
theorem le_of_contains (inside : i.contains digits step = true) :
    i.lower * step.2 ≤ digits * step.1 * i.den ∧ digits * step.1 * i.den ≤ i.upper * step.2 := by
  rw [contains_iff] at inside
  split_ifs at inside
  · exact inside
  · exact ⟨inside.1.le, inside.2.le⟩

/-- What is picked lies in the interval. -/
theorem contains_of_pick? (picked : i.pick? step = some digits) : i.contains digits step = true := by
  unfold pick? at picked
  dsimp only at picked
  split at picked
  · rename_i down up
    cases picked
    unfold roundHalfEven
    dsimp only
    split_ifs with near far
    · exact down
    · exact up
    · rcases Nat.mod_two_eq_zero_or_one (i.middle * step.2 / (step.1 * i.den)) with even | odd
      · rwa [even]
      · rwa [odd]
  · rename_i down _
    cases picked
    exact down
  · rename_i _ up
    cases picked
    exact up
  · cases picked

/-- On a fine grid the neighbour below the middle lies in the interval. -/
theorem isSome_pick? (positive : 0 < step.1 * i.den) (scaled : 0 < step.2) (low : i.lower ≤ i.middle)
    (high : i.middle < i.upper) (fine : step.1 * i.den ≤ (i.middle - i.lower) * step.2) :
    (i.pick? step).isSome := by
  have down : i.contains (i.middle * step.2 / (step.1 * i.den)) step = true := by
    have under := Nat.div_mul_le_self (i.middle * step.2) (step.1 * i.den)
    have near := Nat.lt_mul_div_succ (i.middle * step.2) positive
    have split : i.middle * step.2 = i.lower * step.2 + (i.middle - i.lower) * step.2 := by
      rw [← Nat.add_mul, Nat.add_sub_cancel' low]
    have beyond : i.middle * step.2 < i.upper * step.2 := Nat.mul_lt_mul_of_pos_right high scaled
    rw [Nat.mul_add, Nat.mul_one, Nat.mul_comm (step.1 * i.den)] at near
    refine contains_of_lt ?_ ?_ <;> rw [Nat.mul_assoc] <;> omega
  unfold pick?
  dsimp only
  rw [down]
  cases i.contains (i.middle * step.2 / (step.1 * i.den) + 1) step <;> rfl

/-- The search finds a point of the interval, if there is one on its last grid. -/
theorem contains_search (top : Int) (more count : Nat)
    (last : (i.pick? (powerOfTen (top + 1 - (count + more : Nat)))).isSome) :
    i.contains (i.search top more count).digits (powerOfTen (i.search top more count).exponent) = true := by
  induction more generalizing count with
  | zero =>
      obtain ⟨digits, picked⟩ := Option.isSome_iff_exists.mp last
      rw [Nat.add_zero] at picked
      rw [search, picked]
      exact contains_of_pick? picked
  | succ more ih =>
      rw [search]
      split
      · rename_i digits picked
        exact contains_of_pick? picked
      · refine ih (count + 1) ?_
        rwa [Nat.add_right_comm, Nat.add_assoc]

end Interval

/-! ### The interval of a rank -/

/-- The magnitude of a rank in halves of the least double. -/
def halves (rank : Nat) : Nat := (scale (2 * significand rank) 1 (exponent rank - leastExponent)).1

/-- How many halves of the least double make up one. -/
def halvesOfOne : Nat := 2 * Nat.pow 2 (-leastExponent).toNat

theorem ofRank_eq (rank : Nat) : Interval.ofRank rank =
    ⟨(halves (rank - 1) + halves rank) / 2, halves rank, (halves rank + halves (rank + 1)) / 2, halvesOfOne,
      rank % 2 = 0⟩ := by
  simp only [Interval.ofRank, halves, halvesOfOne]

theorem halvesOfOne_eq : (halvesOfOne : ℚ) = 2 * 2 ^ (-leastExponent) := by
  obtain ⟨k, same⟩ : ∃ k : Nat, leastExponent = -k := ⟨1074, rfl⟩
  unfold halvesOfOne
  rw [same, neg_neg, Int.toNat_natCast, zpow_natCast, Nat.cast_mul, Nat.cast_two, Nat.pow_eq, Nat.cast_pow,
    Nat.cast_two]

attribute [irreducible] halvesOfOne

theorem halvesOfOne_pos : 0 < halvesOfOne := by
  have one : (0 : ℚ) < halvesOfOne := by
    rw [halvesOfOne_eq]
    positivity
  exact_mod_cast one

theorem leastExponent_le_exponent (rank : Nat) : leastExponent ≤ exponent rank := by
  unfold exponent
  split_ifs with small
  · exact le_rfl
  · have first : 1 ≤ rank / binade := (Nat.one_le_div_iff (by decide)).mpr (by omega)
    omega

/-- Every double is a whole number of least doubles. -/
theorem exists_halves (rank : Nat) : ∃ n, halves rank = 2 * n := by
  have least := leastExponent_le_exponent rank
  refine ⟨significand rank * Nat.pow 2 (exponent rank - leastExponent).toNat, ?_⟩
  rw [halves, scale, if_pos (by omega), Nat.mul_assoc]

theorem halves_eq (rank : Nat) : (halves rank : ℚ) = value rank * halvesOfOne := by
  have least := leastExponent_le_exponent rank
  have scaled := scale_eq (2 * significand rank) 1 (exponent rank - leastExponent)
  rw [show (scale (2 * significand rank) 1 (exponent rank - leastExponent)).2 = 1 by
    rw [scale, if_pos (by omega)], Nat.cast_one, div_one, div_one] at scaled
  rw [halves, scaled, halvesOfOne_eq, value, sub_eq_add_neg, zpow_add₀ two_ne_zero]
  push_cast
  ring

theorem halves_lt_succ (rank : Nat) : halves rank + 2 ≤ halves (rank + 1) := by
  have less : (halves rank : ℚ) < halves (rank + 1) := by
    rw [halves_eq, halves_eq]
    have one : (0 : ℚ) < halvesOfOne := by exact_mod_cast halvesOfOne_pos
    exact mul_lt_mul_of_pos_right (strictMono_value (Nat.lt_succ_self rank)) one
  have less : halves rank < halves (rank + 1) := by exact_mod_cast less
  obtain ⟨n, here⟩ := exists_halves rank
  obtain ⟨m, next⟩ := exists_halves (rank + 1)
  omega

/-- A step of the grid of eighteen digits is at most half of the gap below a double. -/
theorem zpow_mul_le_gap {rank : Nat} {top : Int} (first : (10 : ℚ) ^ top ≤ value (rank + 1)) :
    (10 : ℚ) ^ (top + 1 - 18) * halvesOfOne ≤ 1 / 2 * (halves (rank + 1) - halves rank) := by
  have gap := value_succ_le rank
  calc (10 : ℚ) ^ (top + 1 - 18) * halvesOfOne = 10 ^ top * 10 ^ (-17 : Int) * halvesOfOne := by
        rw [← zpow_add₀ (by norm_num)]
        congr 2
        omega
    _ ≤ value (rank + 1) * 10 ^ (-17 : Int) * halvesOfOne := by gcongr
    _ ≤ 2 ^ 53 * (value (rank + 1) - value rank) * 10 ^ (-17 : Int) * halvesOfOne := by gcongr
    _ = 2 ^ 53 * 10 ^ (-17 : Int) * (halves (rank + 1) - halves rank) := by
        rw [halves_eq, halves_eq]
        ring
    _ ≤ 1 / 2 * (halves (rank + 1) - halves rank) := by
        gcongr
        · have less : (halves rank : ℚ) ≤ halves (rank + 1) := by
            exact_mod_cast (Nat.le_add_right _ 2).trans (halves_lt_succ rank)
          linarith
        · norm_num

/-- The interval reaches down to the middle of the gap below a double. -/
theorem gap_le_reach (rank : Nat) : (1 / 2 : ℚ) * (halves (rank + 1) - halves rank) ≤
    (halves (rank + 1) - (halves rank + halves (rank + 1)) / 2 : Nat) := by
  have below := halves_lt_succ rank
  have apart : halves (rank + 1) ≤
      2 * (halves (rank + 1) - (halves rank + halves (rank + 1)) / 2) + halves rank := by omega
  have cast : (halves (rank + 1) : ℚ) ≤
      2 * (halves (rank + 1) - (halves rank + halves (rank + 1)) / 2 : Nat) + halves rank := by
    exact_mod_cast apart
  linarith

/-- **A grid of eighteen digits** has a point in the interval of every double. -/
theorem isSome_pick?_ofRank {rank : Nat} (finite : rank + 1 < rankLimit) :
    let i := Interval.ofRank (rank + 1)
    (i.pick? (powerOfTen (floorLog10 i.middle i.den + 1 - 18))).isSome := by
  intro i
  have below := halves_lt_succ rank
  have above := halves_lt_succ (rank + 1)
  have one : (0 : ℚ) < halvesOfOne := by exact_mod_cast halvesOfOne_pos
  have ratio : (halves (rank + 1) : ℚ) / halvesOfOne = value (rank + 1) := by
    rw [halves_eq, mul_div_cancel_right₀ _ one.ne']
  have first := zpow_floorLog10_le halvesOfOne_pos (Nat.succ_pos rank) finite ratio
  rw [show i = _ from ofRank_eq (rank + 1)]
  refine Interval.isSome_pick? ?_ (powerOfTen_snd_pos _) ?_ ?_ ?_
  · exact Nat.mul_pos (powerOfTen_fst_pos _) halvesOfOne_pos
  · simp only [Nat.add_sub_cancel]
    omega
  · simp only
    omega
  · simp only [Nat.add_sub_cancel]
    rw [powerOfTen_mul_le_iff halvesOfOne_pos, le_div_iff₀ one]
    exact (zpow_mul_le_gap first).trans (gap_le_reach rank)

/-! ### The digits that are found -/

/-- A decimal stays what it is when its trailing zeros go. -/
theorem trim_spec (fuel : Nat) (d : Digits) :
    (0 < d.digits → 0 < (d.trim fuel).digits) ∧
      ((d.trim fuel).digits : ℚ) * 10 ^ (d.trim fuel).exponent = d.digits * 10 ^ d.exponent := by
  induction fuel generalizing d with
  | zero => exact ⟨id, rfl⟩
  | succ fuel ih =>
      rw [Digits.trim]
      split_ifs with zero
      · obtain ⟨positive, same⟩ := ih ⟨d.digits / 10, d.exponent + 1⟩
        refine ⟨fun _ => positive (by simp only; omega), same.trans ?_⟩
        have tens : d.digits = 10 * (d.digits / 10) := by omega
        have cast : (d.digits : ℚ) = 10 * (d.digits / 10 : Nat) := by exact_mod_cast tens
        simp only
        rw [cast, zpow_add₀ (by norm_num), zpow_one]
        ring
      · exact ⟨id, rfl⟩

/-- **The fewest digits of a double** are not zero, and they stand for no more than the next double. -/
theorem shortest_spec {rank : Nat} (positive : 0 < rank) (finite : rank < rankLimit) :
    0 < (shortest rank).digits ∧
      ((shortest rank).digits : ℚ) * 10 ^ (shortest rank).exponent ≤ value (rank + 1) := by
  obtain ⟨rank, rfl⟩ := Nat.exists_eq_add_of_le' positive
  have one : (0 : ℚ) < halvesOfOne := by exact_mod_cast halvesOfOne_pos
  rw [shortest]
  set i := Interval.ofRank (rank + 1) with interval
  set found := i.search (floorLog10 i.middle i.den) 17 1 with named
  have inside := Interval.contains_search _ 17 1 (isSome_pick?_ofRank finite)
  rw [← interval, ← named] at inside
  obtain ⟨low, high⟩ := Interval.le_of_contains inside
  rw [interval, ofRank_eq, Nat.add_sub_cancel] at low high
  have below := halves_lt_succ rank
  have above := halves_lt_succ (rank + 1)
  have step : (0 : ℚ) < (powerOfTen found.exponent).2 := by exact_mod_cast powerOfTen_snd_pos _
  have digits : 0 < found.digits := by
    rcases Nat.eq_zero_or_pos found.digits with zero | digits
    · have end' : 0 < (halves rank + halves (rank + 1)) / 2 * (powerOfTen found.exponent).2 :=
        Nat.mul_pos (by omega) (powerOfTen_snd_pos _)
      simp only [zero, Nat.zero_mul] at low
      omega
    · exact digits
  have bound : (found.digits : ℚ) * 10 ^ found.exponent ≤ value (rank + 1 + 1) := by
    have cast : ((found.digits * (powerOfTen found.exponent).1 * halvesOfOne : Nat) : ℚ) ≤
        (halves (rank + 1 + 1) * (powerOfTen found.exponent).2 : Nat) := by
      have high' : found.digits * (powerOfTen found.exponent).1 * halvesOfOne ≤
          halves (rank + 1 + 1) * (powerOfTen found.exponent).2 :=
        high.trans (Nat.mul_le_mul_right _ (by simp only; omega))
      exact_mod_cast high'
    rw [Nat.cast_mul, Nat.cast_mul, Nat.cast_mul, halves_eq] at cast
    rw [← powerOfTen_eq, mul_div_assoc', div_le_iff₀ step]
    refine le_of_mul_le_mul_right ?_ one
    linarith
  obtain ⟨keeps, same⟩ := trim_spec 400 found
  exact ⟨keeps digits, same.le.trans bound⟩

end RecordTree.Decimal
