import Mathlib.Algebra.Order.Field.Power
import Mathlib.Tactic
import GraphMapper.Decimal.Binary

/-!
Doubles and the numbers that round to them.

* `Canonical`: the multiples of powers of two that doubles stand for;
* `Binary.ofFloat_of_isFinite`, `Binary.ofFloat_injOn`: a finite double stands for one of them, and no two
  doubles stand for the same;
* `Interval.Contains`: numbers that round to a double;
* `Interval.eq_of_contains` (**no number rounds to two doubles**).
-/

namespace GraphMapper.Decimal

open Float.Model (UnpackedFloat Format.binary64)

/-- A multiple of a power of two that a double stands for: all but the least power have the leading bit
set. -/
structure Canonical (m : ℕ) (q : ℤ) : Prop where
  lt : m < 2 ^ 53
  le : -1074 ≤ q
  full : 2 ^ 52 ≤ m ∨ q = -1074

/-! ### Bits -/

lemma toBits_injective : Function.Injective Float.toBits := by
  rintro ⟨⟨a, ha⟩⟩ ⟨⟨b, hb⟩⟩ h
  obtain rfl : a = b := h
  rfl

lemma toNat_unpackExponent (x : Float) :
    (@UnpackedFloat.unpackExponent Format.binary64 x.toModel.toBits.toBitVec).toNat =
      x.toBits.toNat / 2 ^ 52 % 2 ^ 11 := by
  rw [UnpackedFloat.unpackExponent, BitVec.toNat_cast, BitVec.extractLsb_toNat,
    Nat.shiftRight_eq_div_pow]
  rfl

/-- The exponent field of a finite double is not all ones. -/
lemma exponentField_ne {x : Float} (h : x.isFinite) : x.toBits.toNat / 2 ^ 52 % 2 ^ 11 ≠ 2047 := by
  intro hfield
  have hones : @UnpackedFloat.unpackExponent Format.binary64 x.toModel.toBits.toBitVec =
      -1#11 := BitVec.eq_of_toNat_eq ((toNat_unpackExponent x).trans hfield)
  have hunpack : x.toModel.unpack =
      if @UnpackedFloat.unpackMantissa Format.binary64 x.toModel.toBits.toBitVec = 0#52 then
        .infinity (.ofBitVec (@UnpackedFloat.unpackSign Format.binary64 x.toModel.toBits.toBitVec))
      else .notANumber := if_pos hones
  change x.toModel.unpack.isFinite = true at h
  rw [hunpack] at h
  split_ifs at h
  · exact Bool.false_ne_true h
  · exact Bool.false_ne_true h

namespace Binary

/-- A finite double stands for a number. -/
theorem ofFloat_of_isFinite {x : Float} (h : x.isFinite) :
    ∃ negative m q, ofFloat x = .finite negative m q ∧ Canonical m q := by
  have hfield := exponentField_ne h
  rw [ofFloat]
  simp only [Nat.pow_eq] at hfield ⊢
  rw [if_neg hfield]
  split_ifs with hzero
  · refine ⟨_, _, _, rfl, ?_, le_rfl, .inr rfl⟩
    omega
  · refine ⟨_, _, _, rfl, ?_, ?_, .inl ?_⟩ <;> omega

/-- No two doubles stand for the same number. -/
theorem ofFloat_injOn : Set.InjOn ofFloat {x | x.isFinite} := by
  intro x hx y hy h
  have hfieldx := exponentField_ne hx
  have hfieldy := exponentField_ne hy
  refine toBits_injective (UInt64.toNat_inj.mp ?_)
  have hltx := x.toBits.toNat_lt
  have hlty := y.toBits.toNat_lt
  rw [ofFloat, ofFloat] at h
  simp only [Nat.pow_eq] at hfieldx hfieldy h
  rw [if_neg hfieldx, if_neg hfieldy] at h
  split_ifs at h <;> simp only [finite.injEq, decide_eq_decide] at h <;> omega

end Binary

/-! ### Intervals -/

namespace Interval

/-- The numbers between the ends; the ends themselves count where the interval is closed. -/
def Contains (i : Interval) (r : ℚ) : Prop :=
  if i.closed then i.low * 2 ^ i.unit ≤ r ∧ r ≤ i.high * 2 ^ i.unit
  else i.low * 2 ^ i.unit < r ∧ r < i.high * 2 ^ i.unit

variable {i j : Interval} {r : ℚ}

lemma Contains.le (h : i.Contains r) : i.low * 2 ^ i.unit ≤ r ∧ r ≤ i.high * 2 ^ i.unit := by
  rw [Contains] at h
  split_ifs at h
  · exact h
  · exact ⟨h.1.le, h.2.le⟩

lemma Contains.lt (h : i.Contains r) (hopen : i.closed = false) :
    i.low * 2 ^ i.unit < r ∧ r < i.high * 2 ^ i.unit := by
  rwa [Contains, if_neg (by simp [hopen])] at h

/-- Zero is below the interval of a positive number. -/
lemma not_contains_zero {m : ℕ} {q : ℤ} (hm : 0 < m) : ¬ (around m q).Contains 0 := by
  intro h
  have hlow : 0 < (around m q).low := by
    simp only [around]
    split_ifs <;> omega
  exact absurd h.le.1 (not_le.mpr (mul_pos (Nat.cast_pos.mpr hlow) (by positivity)))

/-- One interval ends where the other begins, or before.  Where they touch, one of them is open. -/
structure Before (i j : Interval) : Prop where
  le : (i.high * 2 ^ i.unit : ℚ) ≤ j.low * 2 ^ j.unit
  touch : (i.high * 2 ^ i.unit : ℚ) = j.low * 2 ^ j.unit → i.closed = false ∨ j.closed = false

/-- Such intervals have no number in common. -/
lemma Before.apart (h : i.Before j) (hi : i.Contains r) : ¬ j.Contains r := by
  intro hj
  have heq : (i.high * 2 ^ i.unit : ℚ) = j.low * 2 ^ j.unit := h.le.antisymm (hj.le.1.trans hi.le.2)
  rcases h.touch heq with hopen | hopen
  · exact absurd (hi.lt hopen).2 (not_lt.mpr (heq ▸ hj.le.1))
  · exact absurd (hj.lt hopen).1 (not_lt.mpr (heq ▸ hi.le.2))

/-- The interval of a number comes before that of a greater one with the same power of two. -/
lemma around_before {m m' : ℕ} {q : ℤ} (h : Canonical m q) (hlt : m < m') :
    (around m q).Before (around m' q) := by
  have hunit : (0 : ℚ) < 2 ^ (q - 2) := by positivity
  -- the lower number is short of the leading bit, or the upper one is past it
  have hbelow : ¬ (m' = 2 ^ 52 ∧ -1074 < q) := by
    rintro ⟨hm', hq⟩
    rcases h.full with hfull | hfull <;> omega
  have hnat : (around m q).high ≤ (around m' q).low := by
    simp only [around, Nat.pow_eq, if_neg hbelow]
    omega
  refine ⟨mul_le_mul_of_nonneg_right (Nat.cast_le.mpr hnat) hunit.le, fun heq => ?_⟩
  have hends : (around m q).high = (around m' q).low :=
    Nat.cast_injective (mul_right_cancel₀ hunit.ne' heq)
  simp only [around, Nat.pow_eq, if_neg hbelow] at hends
  simp only [around, decide_eq_false_iff_not]
  omega

/-- The same where the greater number has a greater power of two. -/
lemma around_before_of_lt {m m' : ℕ} {q q' : ℤ} (h : Canonical m q) (h' : Canonical m' q')
    (hlt : q < q') : (around m q).Before (around m' q') := by
  obtain ⟨k, rfl⟩ : ∃ k : ℕ, q' = q + (k + 1) := ⟨(q' - q - 1).toNat, by omega⟩
  have hunit : (0 : ℚ) < 2 ^ (q - 2) := by positivity
  have hscale : (2 : ℚ) ^ (q + (k + 1) - 2) = (2 ^ (k + 1) : ℕ) * 2 ^ (q - 2) := by
    rw [show q + (k + 1) - 2 = ((k + 1 : ℕ) : ℤ) + (q - 2) by push_cast; ring,
      zpow_add₀ two_ne_zero, zpow_natCast]
    push_cast
    rfl
  have hvalue : ((around m' (q + (k + 1))).low : ℚ) * 2 ^ (around m' (q + (k + 1))).unit =
      ((around m' (q + (k + 1))).low * 2 ^ (k + 1) : ℕ) * 2 ^ (q - 2) := by
    rw [Nat.cast_mul, mul_assoc, ← hscale]
    rfl
  have hm := h.lt
  have hq := h.le
  have hfull : 2 ^ 52 ≤ m' := h'.full.resolve_right (by omega)
  have hlow : 2 ^ 54 - 1 ≤ (around m' (q + (k + 1))).low := by
    simp only [around, Nat.pow_eq]
    split_ifs <;> omega
  have hbound : (2 ^ 54 - 1) * 2 ≤ (around m' (q + (k + 1))).low * 2 ^ (k + 1) :=
    Nat.mul_le_mul hlow (Nat.le_self_pow (Nat.succ_ne_zero k) 2)
  have hnat : (around m q).high ≤ (around m' (q + (k + 1))).low * 2 ^ (k + 1) := by
    refine le_trans ?_ hbound
    simp only [around]
    omega
  refine ⟨?_, fun heq => .inl ?_⟩
  · rw [hvalue]
    exact mul_le_mul_of_nonneg_right (Nat.cast_le.mpr hnat) hunit.le
  · -- they touch only at the last number before a leading bit, which is odd
    rw [hvalue] at heq
    have hends : (around m q).high = (around m' (q + (k + 1))).low * 2 ^ (k + 1) :=
      Nat.cast_injective (mul_right_cancel₀ hunit.ne' heq)
    rw [← hends] at hbound
    simp only [around] at hbound
    simp only [around, decide_eq_false_iff_not]
    omega

/-- **No number rounds to two doubles.** -/
theorem eq_of_contains {m m' : ℕ} {q q' : ℤ} (h : Canonical m q) (h' : Canonical m' q')
    (hr : (around m q).Contains r) (hr' : (around m' q').Contains r) : m = m' ∧ q = q' := by
  rcases lt_trichotomy q q' with hlt | rfl | hlt
  · exact absurd hr' ((around_before_of_lt h h' hlt).apart hr)
  · rcases lt_trichotomy m m' with hlt | rfl | hlt
    · exact absurd hr' ((around_before h hlt).apart hr)
    · exact ⟨rfl, rfl⟩
    · exact absurd hr ((around_before h' hlt).apart hr')
  · exact absurd hr ((around_before_of_lt h' h hlt).apart hr')

end Interval

end GraphMapper.Decimal
