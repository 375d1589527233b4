import Mathlib.Data.List.TakeWhile
import GraphMapper.Decimal.Shortest
import GraphMapper.Proofs.Decimal.Binary

/-!
The shortest digits of a double round to it.

* `gridRatio_scale`: what numerators and denominators of grids stand for;
* `Interval.meets`, `Interval.meets_iff`: multiples of a power of ten that lie in an interval;
* `Interval.contains_of_onGrid`: what is found on a grid lies in the interval;
* `Interval.le_of_magnitude`: the magnitude of an interval;
* `Interval.isSome_onGrid_around`: seventeen digits are enough for any double;
* `Digits.value`, `Digits.value_ofCoefficient`: the number that digits stand for;
* `shortest_spec` (**the shortest digits round to the double**).
-/

namespace GraphMapper.Decimal

/-! ### Grids -/

/-- Numerator and denominator of a grid are the two powers on one scale. -/
lemma gridRatio_scale (unit power : ℤ) :
    ∃ c : ℚ, 0 < c ∧ ((gridRatio unit power).1 : ℚ) = 2 ^ unit * c ∧
      ((gridRatio unit power).2 : ℚ) = 10 ^ power * c := by
  have htwo : (2 : ℚ) ^ unit = 2 ^ unit.toNat / 2 ^ (-unit).toNat := by
    conv_lhs => rw [← Int.toNat_sub_toNat_neg unit]
    rw [zpow_sub₀ two_ne_zero, zpow_natCast, zpow_natCast]
  have hten : (10 : ℚ) ^ power = 10 ^ power.toNat / 10 ^ (-power).toNat := by
    conv_lhs => rw [← Int.toNat_sub_toNat_neg power]
    rw [zpow_sub₀ (by norm_num), zpow_natCast, zpow_natCast]
  refine ⟨2 ^ (-unit).toNat * 10 ^ (-power).toNat, by positivity, ?_, ?_⟩
  · simp only [gridRatio, Nat.pow_eq, htwo]
    push_cast
    field_simp
  · simp only [gridRatio, Nat.pow_eq, hten]
    push_cast
    field_simp

namespace Interval

variable {i : Interval} {tie : Tie} {power : ℤ} {d : ℕ}

/-- Whether a multiple of a power of ten lies in an interval. -/
def meets (i : Interval) (power : ℤ) (d : ℕ) : Bool :=
  let (num, den) := gridRatio i.unit power
  if i.closed then i.low * num ≤ d * den && d * den ≤ i.high * num
  else i.low * num < d * den && d * den < i.high * num

/-- The multiple of a power of ten next below the value of an interval. -/
def floor (i : Interval) (power : ℤ) : ℕ :=
  i.value * (gridRatio i.unit power).1 / (gridRatio i.unit power).2

lemma meets_iff : i.meets power d ↔ i.Contains (d * 10 ^ power) := by
  obtain ⟨c, hc, hnum, hden⟩ := gridRatio_scale i.unit power
  have hle (a b : ℕ) (x y : ℚ) : (a : ℚ) * (x * c) ≤ b * (y * c) ↔ a * x ≤ b * y := by
    rw [← mul_assoc, ← mul_assoc, mul_le_mul_iff_left₀ hc]
  have hlt (a b : ℕ) (x y : ℚ) : (a : ℚ) * (x * c) < b * (y * c) ↔ a * x < b * y := by
    rw [← mul_assoc, ← mul_assoc, mul_lt_mul_iff_left₀ hc]
  rw [meets, Contains]
  dsimp only
  split_ifs
  · rw [Bool.and_eq_true, decide_eq_true_iff, decide_eq_true_iff, ← @Nat.cast_le ℚ,
      ← @Nat.cast_le ℚ]
    push_cast
    rw [hnum, hden, hle, hle]
  · rw [Bool.and_eq_true, decide_eq_true_iff, decide_eq_true_iff, ← @Nat.cast_lt ℚ,
      ← @Nat.cast_lt ℚ]
    push_cast
    rw [hnum, hden, hlt, hlt]

/-- The value of an interval lies between two neighbours on a grid. -/
lemma floor_le (i : Interval) (power : ℤ) :
    (i.floor power : ℚ) * 10 ^ power ≤ i.value * 2 ^ i.unit ∧
      (i.value * 2 ^ i.unit : ℚ) < (i.floor power + 1) * 10 ^ power := by
  obtain ⟨c, hc, hnum, hden⟩ := gridRatio_scale i.unit power
  have hpos : 0 < (gridRatio i.unit power).2 := by
    rw [← @Nat.cast_pos ℚ, hden]
    positivity
  have hfloor : i.floor power * (gridRatio i.unit power).2 ≤ i.value * (gridRatio i.unit power).1 :=
    Nat.div_mul_le_self _ _
  have hnext : i.value * (gridRatio i.unit power).1 <
      (i.floor power + 1) * (gridRatio i.unit power).2 :=
    (Nat.div_lt_iff_lt_mul hpos).mp (Nat.lt_succ_self _)
  rw [← @Nat.cast_le ℚ] at hfloor
  rw [← @Nat.cast_lt ℚ] at hnext
  push_cast at hfloor hnext
  rw [hnum, hden, ← mul_assoc, ← mul_assoc] at hfloor hnext
  exact ⟨(mul_le_mul_iff_left₀ hc).mp hfloor, (mul_lt_mul_iff_left₀ hc).mp hnext⟩

lemma onGrid_eq (i : Interval) (tie : Tie) (power : ℤ) :
    i.onGrid tie power =
      match i.meets power (i.floor power), i.meets power (i.floor power + 1) with
      | false, false => none
      | true, false => some (i.floor power)
      | false, true => some (i.floor power + 1)
      | true, true =>
        match compare
          (i.value * (gridRatio i.unit power).1 - i.floor power * (gridRatio i.unit power).2)
          ((i.floor power + 1) * (gridRatio i.unit power).2 -
            i.value * (gridRatio i.unit power).1) with
        | .lt => some (i.floor power)
        | .gt => some (i.floor power + 1)
        | .eq =>
          match tie with
          | .toEven => some (if i.floor power % 2 = 0 then i.floor power else i.floor power + 1)
          | .up => some (i.floor power + 1) := rfl

/-- What is found on a grid lies in the interval. -/
lemma contains_of_onGrid (h : i.onGrid tie power = some d) : i.Contains (d * 10 ^ power) := by
  rw [onGrid_eq] at h
  rw [← meets_iff]
  grind

/-- A neighbour that lies in the interval is found. -/
lemma isSome_onGrid (h : i.meets power (i.floor power) ∨ i.meets power (i.floor power + 1)) :
    (i.onGrid tie power).isSome := by
  rw [onGrid_eq]
  grind

/-- The value of an interval, with the power of two on both sides of a fraction. -/
lemma value_eq (i : Interval) :
    (i.value * 2 ^ i.unit : ℚ) =
      (i.value * Nat.pow 2 i.unit.toNat : ℕ) / (Nat.pow 2 (-i.unit).toNat : ℕ) := by
  have htwo : (2 : ℚ) ^ i.unit = 2 ^ i.unit.toNat / 2 ^ (-i.unit).toNat := by
    conv_lhs => rw [← Int.toNat_sub_toNat_neg i.unit]
    rw [zpow_sub₀ two_ne_zero, zpow_natCast, zpow_natCast]
  rw [htwo]
  simp only [Nat.pow_eq]
  push_cast
  ring

lemma pow_length_le {n : ℕ} (h : 0 < n) : 10 ^ ((Nat.toDigits 10 n).length - 1) ≤ n := by
  have hpos : 0 < (Nat.toDigits 10 n).length := Nat.length_toDigits_pos
  rcases Nat.eq_zero_or_pos ((Nat.toDigits 10 n).length - 1) with hone | hmore
  · rw [hone]
    exact h
  · by_contra hlt
    have := (Nat.length_toDigits_le_iff (by norm_num) hmore).mpr (not_le.mp hlt)
    omega

lemma lt_pow_length (n : ℕ) : n < 10 ^ (Nat.toDigits 10 n).length :=
  (Nat.length_toDigits_le_iff (by norm_num) Nat.length_toDigits_pos).mp le_rfl

/-- The magnitude of an interval: its value is not below a tenth of that power of ten. -/
lemma le_of_magnitude (h : 0 < i.value) :
    (10 : ℚ) ^ (i.magnitude - 1) ≤ i.value * 2 ^ i.unit := by
  rw [i.value_eq, magnitude]
  have hden : 0 < Nat.pow 2 (-i.unit).toNat := Nat.pow_pos two_pos
  have hnum : 0 < i.value * Nat.pow 2 i.unit.toNat := Nat.mul_pos h (Nat.pow_pos two_pos)
  generalize i.value * Nat.pow 2 i.unit.toNat = num at hnum ⊢
  generalize Nat.pow 2 (-i.unit).toNat = den at hden ⊢
  have hden' : (0 : ℚ) < den := Nat.cast_pos.mpr hden
  split_ifs with hle
  · have hquotient : 0 < num / den := Nat.div_pos hle hden
    have hlength : 0 < (Nat.toDigits 10 (num / den)).length := Nat.length_toDigits_pos
    have hpower : ((Nat.toDigits 10 (num / den)).length : ℤ) - 1 =
        (((Nat.toDigits 10 (num / den)).length - 1 : ℕ) : ℤ) := by omega
    rw [hpower, zpow_natCast, le_div_iff₀ hden']
    calc (10 : ℚ) ^ ((Nat.toDigits 10 (num / den)).length - 1) * den
        ≤ (num / den : ℕ) * den := by
          gcongr
          exact_mod_cast pow_length_le hquotient
      _ ≤ num := by exact_mod_cast Nat.div_mul_le_self num den
  · have hquotient := lt_pow_length (den / num)
    have hbound : den ≤ 10 ^ (Nat.toDigits 10 (den / num)).length * num :=
      calc den ≤ (den / num + 1) * num := ((Nat.div_lt_iff_lt_mul hnum).mp (Nat.lt_succ_self _)).le
        _ ≤ _ := Nat.mul_le_mul_right num hquotient
    rw [show (1 - ((Nat.toDigits 10 (den / num)).length : ℤ)) - 1 =
      -((Nat.toDigits 10 (den / num)).length : ℤ) by ring, zpow_neg, zpow_natCast,
      le_div_iff₀ hden', inv_mul_le_iff₀ (by positivity)]
    exact_mod_cast hbound

lemma contains_of_lt {r : ℚ} (hlow : i.low * 2 ^ i.unit < r) (hhigh : r < i.high * 2 ^ i.unit) :
    i.Contains r := by
  rw [Contains]
  split_ifs
  · exact ⟨hlow.le, hhigh.le⟩
  · exact ⟨hlow, hhigh⟩

/-- Seventeen digits are enough for any double. -/
theorem isSome_onGrid_around {m : ℕ} {q : ℤ} (h : Canonical m q) (hm : 0 < m) (tie : Tie) :
    ((around m q).onGrid tie ((around m q).magnitude - 17)).isSome := by
  set i := around m q with hi
  have hmagnitude := i.le_of_magnitude (show 0 < 4 * m by omega)
  rw [show i.magnitude - 1 = ((16 : ℕ) : ℤ) + (i.magnitude - 17) by push_cast; ring,
    zpow_add₀ (by norm_num), zpow_natCast] at hmagnitude
  obtain ⟨hbelow, habove⟩ := i.floor_le (i.magnitude - 17)
  apply isSome_onGrid
  rw [meets_iff, meets_iff]
  have hvalue : (i.value : ℚ) = 4 * m := by simp [hi, around]
  have hhigh : (i.high : ℚ) = 4 * m + 2 := by simp [hi, around]
  -- a half step below, or a quarter step below a leading bit
  have hlow : (i.low + 2 : ℚ) = 4 * m ∨ ((i.low + 1 : ℚ) = 4 * m ∧ (m : ℚ) = 2 ^ 52) := by
    have : i.low + 2 = 4 * m ∨ (i.low + 1 = 4 * m ∧ m = 2 ^ 52) := by
      simp only [hi, around, Nat.pow_eq]
      split_ifs with hbit
      · exact .inr ⟨by omega, hbit.1⟩
      · exact .inl (by omega)
    exact_mod_cast this
  have hm' : (m : ℚ) < 2 ^ 53 := by exact_mod_cast h.lt
  have hunit : (0 : ℚ) < 2 ^ i.unit := by positivity
  push_cast
  generalize (10 : ℚ) ^ (i.magnitude - 17) = step at hmagnitude hbelow habove ⊢
  have hends (r : ℚ) := @contains_of_lt i r
  generalize (2 : ℚ) ^ i.unit = unit at hmagnitude hbelow habove hunit hends
  rw [hvalue] at hmagnitude hbelow habove
  rw [hhigh] at hends
  have hsize : (m : ℚ) * unit < 2 ^ 53 * unit := mul_lt_mul_of_pos_right hm' hunit
  -- the upper neighbour is inside unless it is half a step away; then the lower one is near
  by_cases hnear : (i.floor (i.magnitude - 17) + 1) * step < (4 * m + 2) * unit
  · refine .inr (hends _ ?_ hnear)
    rcases hlow with hlow | ⟨hlow, -⟩ <;> nlinarith
  · rcases hlow with hlow | ⟨-, hbit⟩
    · refine .inl (hends _ ?_ ?_) <;> nlinarith
    · rw [hbit] at hmagnitude hbelow hnear
      linarith

end Interval

/-! ### Digits -/

namespace Digits

variable {coefficient : ℕ} {power : ℤ}

/-- The number that digits stand for. -/
def value (d : Digits) : ℚ :=
  Nat.ofDigitChars 10 d.digits 0 * 10 ^ d.power

/-- There is a digit, and there are only digits. -/
structure WellFormed (d : Digits) : Prop where
  ne_nil : d.digits ≠ []
  isDigit : ∀ c ∈ d.digits, c.isDigit

/-- Only zeros are left out. -/
lemma exists_toDigits_eq (coefficient : ℕ) (power : ℤ) :
    ∃ k : ℕ, Nat.toDigits 10 coefficient =
        (ofCoefficient coefficient power).digits ++ List.replicate k '0' ∧
      (ofCoefficient coefficient power).power = power + k := by
  set backwards := (Nat.toDigits 10 coefficient).reverse with hbackwards
  have hzeros : backwards.takeWhile (· = '0') =
      List.replicate (backwards.takeWhile (· = '0')).length '0' :=
    List.eq_replicate_of_mem fun c hc => by simpa using List.mem_takeWhile_imp hc
  have hlength := congrArg List.length
    (List.takeWhile_append_dropWhile : backwards.takeWhile (· = '0') ++ backwards.dropWhile _ = _)
  rw [List.length_append] at hlength
  refine ⟨(backwards.takeWhile (· = '0')).length, ?_, ?_⟩
  · calc Nat.toDigits 10 coefficient
        = (backwards.takeWhile (· = '0') ++ backwards.dropWhile (· = '0')).reverse := by
          rw [List.takeWhile_append_dropWhile, hbackwards, List.reverse_reverse]
      _ = _ := by
          rw [List.reverse_append, hzeros, List.reverse_replicate, List.length_replicate]
          rfl
  · change power + ((backwards.length - (backwards.dropWhile (· = '0')).length : ℕ) : ℤ) = _
    omega

/-- Leaving out the zeros at the end does not change the number. -/
theorem value_ofCoefficient (coefficient : ℕ) (power : ℤ) :
    (ofCoefficient coefficient power).value = coefficient * 10 ^ power := by
  obtain ⟨k, hdigits, hpower⟩ := exists_toDigits_eq coefficient power
  have hcoefficient : coefficient =
      10 ^ k * Nat.ofDigitChars 10 (ofCoefficient coefficient power).digits 0 := by
    rw [← Nat.ofDigitChars_replicate_zero, ← Nat.ofDigitChars_append, ← hdigits,
      Nat.ofDigitChars_ten_toDigits]
  rw [value, hpower, zpow_add₀ (by norm_num), zpow_natCast]
  conv_rhs => rw [hcoefficient]
  push_cast
  ring

lemma wellFormed_ofCoefficient (h : 0 < coefficient) :
    (ofCoefficient coefficient power).WellFormed := by
  obtain ⟨k, hdigits, -⟩ := exists_toDigits_eq coefficient power
  constructor
  · intro hnil
    rw [hnil, List.nil_append] at hdigits
    have hzero := @Nat.ofDigitChars_ten_toDigits coefficient
    rw [hdigits, Nat.ofDigitChars_replicate_zero, Nat.mul_zero] at hzero
    exact h.ne hzero
  · intro c hc
    have hmem : c ∈ Nat.toDigits 10 coefficient := by
      rw [hdigits]
      exact List.mem_append_left _ hc
    exact Nat.isDigit_of_mem_toDigits (by decide) (by decide) hmem

end Digits

/-- **The shortest digits round to the double.** -/
theorem shortest_spec {m : ℕ} {q : ℤ} (h : Canonical m q) (hm : 0 < m) (tie : Tie) :
    (shortest tie m q).WellFormed ∧ (Interval.around m q).Contains (shortest tie m q).value := by
  have hsome := Interval.isSome_onGrid_around h hm tie
  rw [shortest]
  dsimp only
  cases hfound : (List.range 17).findSome? fun n =>
      ((Interval.around m q).onGrid tie ((Interval.around m q).magnitude - (n + 1 : ℕ))).map
        (Digits.ofCoefficient · ((Interval.around m q).magnitude - (n + 1 : ℕ))) with
  | none =>
      have hlast := List.findSome?_eq_none_iff.mp hfound 16 (by simp)
      exact absurd hsome (Option.not_isSome_iff_eq_none.mpr (Option.map_eq_none_iff.mp hlast))
  | some d =>
      obtain ⟨n, -, hn⟩ := List.exists_of_findSome?_eq_some hfound
      obtain ⟨coefficient, hgrid, rfl⟩ := Option.map_eq_some_iff.mp hn
      have hcontains := Interval.contains_of_onGrid hgrid
      rw [Option.getD_some, Digits.value_ofCoefficient]
      refine ⟨Digits.wellFormed_ofCoefficient (Nat.pos_of_ne_zero ?_), hcontains⟩
      rintro rfl
      rw [Nat.cast_zero, zero_mul] at hcontains
      exact Interval.not_contains_zero hm hcontains

end GraphMapper.Decimal
