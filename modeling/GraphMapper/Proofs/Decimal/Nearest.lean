import GraphMapper.Proofs.Decimal.Order

/-!
Integers and the doubles nearest to them.

* `nearestQuotient`, `nearest`: rounding to as many bits as a double has, a half going to the even
  neighbour; `nearest_mono`, `nearest_of_le`, `nearest_near`: it keeps the order, leaves small numbers as
  they are, and is off by at most half a unit;
* `standsFor_ofNat`, `standsFor_floatOfInt` (**an integer becomes the double nearest to it**);
* `floatOfInt_lt_iff`, `lt_of_floatOfInt_lt`, `le_add_of_nearestInt_le`: what the order of the doubles
  says about that of the integers.
-/

namespace GraphMapper.Decimal

open Float.Model (UnpackedFloat Format Format.binary64 totalExponent)
open Float.Model.UnpackedFloat (ExtendedMantissa shiftToTargetExponent shiftToExponent
  roundWithAccuracy decreaseExponent)
open Number (floatOfInt)

/-! ### Rounding -/

/-- The quotient by a power of two, rounded; a half goes to the even neighbour. -/
def nearestQuotient (n k : ℕ) : ℕ :=
  let rest := n % 2 ^ k
  if 2 * rest < 2 ^ k then n / 2 ^ k
  else if 2 * rest = 2 ^ k then n / 2 ^ k + n / 2 ^ k % 2
  else n / 2 ^ k + 1

/-- The number with at most 53 significant bits that is nearest to a number. -/
def nearest (n : ℕ) : ℕ :=
  nearestQuotient n (n.log2 - 52) * 2 ^ (n.log2 - 52)

section

variable {n m k : ℕ}

lemma nearestQuotient_zero (n : ℕ) : nearestQuotient n 0 = n := by
  simp [nearestQuotient, Nat.mod_one]

/-- The rounded quotient has its leading bit in the same place, or is the next power of two. -/
lemma nearestQuotient_mem (hlog : n.log2 = 52 + k) :
    2 ^ 52 ≤ nearestQuotient n k ∧ nearestQuotient n k ≤ 2 ^ 53 := by
  have hn : n ≠ 0 := by rintro rfl; rw [Nat.log2_zero] at hlog; omega
  obtain ⟨hge, hlt⟩ := (Nat.log2_eq_iff hn).mp hlog
  have hpos : 0 < 2 ^ k := Nat.two_pow_pos k
  have hquotGe : 2 ^ 52 ≤ n / 2 ^ k := by
    rwa [Nat.le_div_iff_mul_le hpos, ← pow_add]
  have hquotLt : n / 2 ^ k < 2 ^ 53 := by
    rwa [Nat.div_lt_iff_lt_mul hpos, ← pow_add, show 53 + k = 52 + k + 1 by omega]
  rw [nearestQuotient]
  split_ifs <;> omega

lemma nearestQuotient_mono (k : ℕ) : Monotone (nearestQuotient · k) := by
  intro n m h
  have hquot : n / 2 ^ k ≤ m / 2 ^ k := Nat.div_le_div_right h
  have hn := Nat.div_add_mod n (2 ^ k)
  have hm := Nat.div_add_mod m (2 ^ k)
  obtain heq | hlt := hquot.eq_or_lt
  · have hrest : n % 2 ^ k ≤ m % 2 ^ k := by rw [heq] at hn; omega
    simp only [nearestQuotient, heq]
    split_ifs <;> omega
  · simp only [nearestQuotient]
    split_ifs <;> omega

lemma nearest_of_log2_le (h : n.log2 ≤ 52) : nearest n = n := by
  rw [nearest, Nat.sub_eq_zero_of_le h, nearestQuotient_zero, pow_zero, mul_one]

/-- Numbers of at most 53 bits, and the next one, are left as they are. -/
lemma nearest_of_le (h : n ≤ 2 ^ 53) : nearest n = n := by
  obtain hlt | rfl := h.lt_or_eq
  · obtain rfl | hn := Nat.eq_zero_or_pos n
    · exact nearest_of_log2_le (by decide)
    · exact nearest_of_log2_le (Nat.le_of_lt_succ ((Nat.log2_lt hn.ne').mpr hlt))
  · rfl

lemma nearest_mem (hn : 0 < n) : 2 ^ n.log2 ≤ nearest n ∧ nearest n ≤ 2 ^ (n.log2 + 1) := by
  obtain hsmall | hlarge := le_total n.log2 52
  · rw [nearest_of_log2_le hsmall]
    exact ⟨Nat.log2_self_le hn.ne', Nat.lt_log2_self.le⟩
  · obtain ⟨hge, hle⟩ := nearestQuotient_mem (Nat.add_sub_cancel' hlarge).symm
    have hsplit : 2 ^ n.log2 = 2 ^ 52 * 2 ^ (n.log2 - 52) := by
      rw [← pow_add, Nat.add_sub_cancel' hlarge]
    rw [nearest, pow_succ', hsplit, ← mul_assoc]
    exact ⟨Nat.mul_le_mul_right _ hge, Nat.mul_le_mul_right _ hle⟩

/-- Rounding keeps the order. -/
theorem nearest_mono : Monotone nearest := by
  intro n m h
  obtain rfl | hn := Nat.eq_zero_or_pos n
  · rw [nearest_of_log2_le (by decide)]
    exact Nat.zero_le _
  have hlog : n.log2 ≤ m.log2 :=
    (Nat.le_log2 (by omega)).mpr ((Nat.log2_self_le hn.ne').trans h)
  obtain heq | hlt := hlog.eq_or_lt
  · rw [nearest, nearest, heq]
    exact Nat.mul_le_mul_right _ (nearestQuotient_mono _ h)
  · calc nearest n ≤ 2 ^ (n.log2 + 1) := (nearest_mem hn).2
      _ ≤ 2 ^ m.log2 := Nat.pow_le_pow_right two_pos hlt
      _ ≤ nearest m := (nearest_mem (hn.trans_le h)).1

/-- Rounding is off by at most half a unit. -/
lemma nearest_near (n : ℕ) : 2 * nearest n ≤ 2 * n + 2 ^ (n.log2 - 52) ∧
    2 * n ≤ 2 * nearest n + 2 ^ (n.log2 - 52) := by
  have hdiv := Nat.div_add_mod' n (2 ^ (n.log2 - 52))
  have hlt := Nat.mod_lt n (Nat.two_pow_pos (n.log2 - 52))
  rw [nearest, nearestQuotient]
  generalize 2 ^ (n.log2 - 52) = unit at *
  split_ifs
  · omega
  · rcases Nat.mod_two_eq_zero_or_one (n / unit) with hbit | hbit
    · rw [hbit, add_zero]
      omega
    · rw [hbit, Nat.add_mul, Nat.one_mul]
      omega
  · rw [Nat.add_mul, Nat.one_mul]
    omega

end

/-! ### Bits that are shifted out -/

/-- A mantissa of which bits were shifted out.  The two bits beside it tell whether these were half a
unit at least, and whether they were neither nothing nor just a half. -/
structure ShiftedOut (n k : ℕ) (em : ExtendedMantissa) : Prop where
  mantissa : em.mantissa = n / 2 ^ k
  roundBit : em.roundBit = decide (2 ^ k ≤ 2 * (n % 2 ^ k))
  stickyBit : em.stickyBit = decide (n % 2 ^ k ≠ 0 ∧ 2 * (n % 2 ^ k) ≠ 2 ^ k)

namespace ShiftedOut

variable {n k : ℕ} {em : ExtendedMantissa}

lemma shiftRightOne (h : ShiftedOut n k em) : ShiftedOut n (k + 1) em.shiftRightOne := by
  have hrest : n % 2 ^ (k + 1) = n % 2 ^ k + 2 ^ k * (n / 2 ^ k % 2) := by
    rw [pow_succ, Nat.mod_mul]
  have hlt : n % 2 ^ k < 2 ^ k := Nat.mod_lt _ (Nat.two_pow_pos k)
  have hpow : 2 ^ (k + 1) = 2 * 2 ^ k := pow_succ' 2 k
  have hbit := Nat.mod_two_eq_zero_or_one (n / 2 ^ k)
  constructor
  · rw [ExtendedMantissa.shiftRightOne, h.mantissa, Nat.div_div_eq_div_mul, ← pow_succ]
  · rw [ExtendedMantissa.shiftRightOne, h.mantissa, hrest, hpow, Bool.eq_iff_iff]
    rcases hbit with hbit | hbit
    · simpa [hbit] using hlt
    · simp [hbit]
  · rw [ExtendedMantissa.shiftRightOne, h.roundBit, h.stickyBit, hrest, hpow]
    rcases hbit with hbit | hbit <;> grind

lemma shiftRight (n k : ℕ) :
    ShiftedOut n k (ExtendedMantissa.ofMantissaAndAccuracy n .exact >>> k) := by
  induction k with
  | zero =>
      constructor
      · exact (Nat.div_one n).symm
      · exact (decide_eq_false (by simp [Nat.mod_one])).symm
      · exact (decide_eq_false (by simp [Nat.mod_one])).symm
  | succ k ih => exact ih.shiftRightOne

lemma roundedMantissa (h : ShiftedOut n k em) : em.roundedMantissa = nearestQuotient n k := by
  obtain ⟨m, round, sticky⟩ := em
  obtain ⟨rfl, hround, hsticky⟩ := h
  have hpos : 0 < 2 ^ k := Nat.two_pow_pos k
  rw [Bool.eq_iff_iff, decide_eq_true_iff] at hround hsticky
  simp only [nearestQuotient, ExtendedMantissa.roundedMantissa, ExtendedMantissa.accuracy]
  grind [UnpackedFloat.Accuracy.roundToNearestEven]

end ShiftedOut

/-! ### Rounding a double that is taken apart -/

section

variable {n k : ℕ} {q : ℤ}

lemma shiftToTargetExponent_eq (hlog : n.log2 = 52 + k) (hq : -1074 ≤ q) :
    shiftToTargetExponent Format.binary64 n q .exact =
      (ExtendedMantissa.ofMantissaAndAccuracy n .exact >>> k, q + k) := by
  have htarget : (Format.binary64.targetExponent (totalExponent n q) - q).toNat = k := by
    simp only [Format.targetExponent, totalExponent, Format.mantissaBits, Format.minExponent]
    omega
  simp only [shiftToTargetExponent, shiftToExponent, htarget]

/-- The second shift decides what rounding makes of a mantissa. -/
lemma roundWithAccuracy_eq {m : ℕ} {q' : ℤ} {em : ExtendedMantissa} (hlog : n.log2 = 52 + k)
    (hq : -1074 ≤ q)
    (hagain : shiftToTargetExponent Format.binary64 (nearestQuotient n k) (q + k) .exact = (em, q'))
    (hm : em.mantissa = m) (hpos : 0 < m) :
    roundWithAccuracy Format.binary64 .positive n q .exact = .finite .positive m q' hpos := by
  subst hm
  simp only [roundWithAccuracy, shiftToTargetExponent_eq hlog hq,
    (ShiftedOut.shiftRight n k).roundedMantissa, hagain, dif_neg hpos.ne']

lemma standsFor_roundWithAccuracy (hlog : n.log2 = 52 + k) (hq : -1074 ≤ q)
    (hle : q + k + 1 ≤ 971) :
    StandsFor (roundWithAccuracy Format.binary64 .positive n q .exact)
      (nearestQuotient n k * 2 ^ (q + k)) := by
  obtain ⟨hge, hmost⟩ := nearestQuotient_mem hlog
  obtain hlt | heq := hmost.lt_or_eq
  · have hagain : (nearestQuotient n k).log2 = 52 + 0 :=
      (Nat.log2_eq_iff (by omega)).mpr ⟨hge, hlt⟩
    rw [roundWithAccuracy_eq hlog hq (shiftToTargetExponent_eq hagain (by omega)) rfl
      (by omega : 0 < nearestQuotient n k), Nat.cast_zero, add_zero]
    exact .positive ⟨hlt, by omega, .inl hge⟩ (by omega) _
  · -- rounding up has made one bit more; the last one, which is zero, is shifted out
    have hagain : (nearestQuotient n k).log2 = 52 + 1 := by rw [heq]; exact Nat.log2_two_pow
    have hhalf : (ExtendedMantissa.ofMantissaAndAccuracy (nearestQuotient n k) .exact >>> 1).mantissa =
        2 ^ 52 := by
      rw [(ShiftedOut.shiftRight _ 1).mantissa, heq]
      rfl
    have hvalue : ((2 ^ 53 : ℕ) : ℚ) * 2 ^ (q + k) = (2 ^ 52 : ℕ) * 2 ^ (q + k + 1) := by
      rw [zpow_add_one₀ two_ne_zero]
      push_cast
      ring
    rw [roundWithAccuracy_eq hlog hq (shiftToTargetExponent_eq hagain (by omega)) hhalf (by decide),
      heq, hvalue]
    exact .positive ⟨by decide, by omega, .inl le_rfl⟩ hle _

lemma log2_mul_two_pow (hn : n ≠ 0) (j : ℕ) : (n * 2 ^ j).log2 = n.log2 + j := by
  have hpos : 0 < 2 ^ j := Nat.two_pow_pos j
  rw [Nat.log2_eq_iff (Nat.mul_ne_zero hn hpos.ne'), Nat.add_right_comm, pow_add, pow_add]
  exact ⟨Nat.mul_le_mul_right _ (Nat.log2_self_le hn),
    Nat.mul_lt_mul_of_pos_right Nat.lt_log2_self hpos⟩

/-- A positive number is rounded with its leading bit in the place it has in a double. -/
lemma ofNat_eq (hn : 0 < n) (hlog : n.log2 < 64) :
    UnpackedFloat.ofNat Format.binary64 n =
      roundWithAccuracy Format.binary64 .positive (n * 2 ^ (52 - n.log2))
        (0 - (52 - n.log2 : ℕ)) .exact := by
  have htarget : Format.binary64.targetExponent (totalExponent n 0) = n.log2 - 52 := by
    simp only [Format.targetExponent, totalExponent, Format.mantissaBits, Format.minExponent]
    omega
  have hshift : (0 - ((n.log2 : ℤ) - 52)).toNat = 52 - n.log2 := by omega
  rw [UnpackedFloat.ofNat, UnpackedFloat.ofInt, UnpackedFloat.normalize,
    compare_gt_iff_gt.mpr (by omega : (n : ℤ) > 0)]
  simp only [UnpackedFloat.round, Int.toNat_natCast, htarget, decreaseExponent, Nat.shiftLeft_eq,
    hshift]

lemma standsFor_ofNat (hlt : n < 2 ^ 64) :
    StandsFor (UnpackedFloat.ofNat Format.binary64 n) (nearest n) := by
  obtain rfl | hn := Nat.eq_zero_or_pos n
  · rw [nearest_of_log2_le (by decide), Nat.cast_zero]
    exact .zero _
  have hlog : n.log2 < 64 := (Nat.log2_lt hn.ne').mpr hlt
  have hleading : (n * 2 ^ (52 - n.log2)).log2 = 52 + (n.log2 - 52) := by
    rw [log2_mul_two_pow hn.ne']
    omega
  have hstands := standsFor_roundWithAccuracy (q := 0 - (52 - n.log2 : ℕ)) hleading
    (by omega) (by omega)
  rw [ofNat_eq hn hlog]
  convert hstands using 1
  obtain hsmall | hlarge := le_total n.log2 52
  · rw [nearest_of_log2_le hsmall, Nat.sub_eq_zero_of_le hsmall, nearestQuotient_zero, Nat.cast_zero,
      add_zero, zero_sub, zpow_neg, zpow_natCast]
    push_cast
    field_simp
  · rw [nearest, Nat.sub_eq_zero_of_le hlarge, pow_zero, mul_one, Nat.cast_zero, sub_zero, zero_add,
      zpow_natCast]
    push_cast
    rfl

end

/-! ### Integers -/

/-- The integer with at most 53 significant bits that is nearest to an integer. -/
def nearestInt (n : ℤ) : ℤ :=
  if n < 0 then -nearest n.natAbs else nearest n.natAbs

/-- An integer of at most 64 bits, signed or unsigned. -/
def IsWord (n : ℤ) : Prop :=
  -2 ^ 63 ≤ n ∧ n < 2 ^ 64

instance (n : ℤ) : Decidable (IsWord n) :=
  inferInstanceAs (Decidable (_ ∧ _))

section

variable {m n : ℤ}

theorem nearestInt_mono : Monotone nearestInt := by
  intro m n h
  rw [nearestInt, nearestInt]
  split_ifs
  · have := nearest_mono (by omega : n.natAbs ≤ m.natAbs)
    omega
  · omega
  · omega
  · have := nearest_mono (by omega : m.natAbs ≤ n.natAbs)
    omega

lemma nearestInt_of_le (h : n.natAbs ≤ 2 ^ 53) : nearestInt n = n := by
  rw [nearestInt, nearest_of_le h]
  split_ifs <;> omega

/-- A word is off by at most 1024. -/
lemma nearestInt_near (hn : IsWord n) : nearestInt n ≤ n + 2 ^ 10 ∧ n ≤ nearestInt n + 2 ^ 10 := by
  obtain ⟨hge, hlt⟩ := hn
  have hlog : n.natAbs.log2 - 52 ≤ 11 := by
    obtain hzero | hpos := Nat.eq_zero_or_pos n.natAbs
    · rw [hzero]; decide
    · have := (Nat.log2_lt hpos.ne').mpr (by omega : n.natAbs < 2 ^ 64)
      omega
  have hunit : 2 ^ (n.natAbs.log2 - 52) ≤ 2 ^ 11 := Nat.pow_le_pow_right two_pos hlog
  have hnear := nearest_near n.natAbs
  rw [nearestInt]
  split_ifs <;> omega

/-- A natural number of 64 bits becomes the double nearest to it. -/
lemma standsFor_toFloat (word : UInt64) :
    StandsFor word.toFloat.toModel.unpack (nearest word.toNat) := by
  have hstands := standsFor_ofNat word.toNat_lt
  change StandsFor (Float.Model.pack
    (UnpackedFloat.ofNat Format.binary64 word.toNat)).unpack _
  rw [hstands.unpack_pack]
  exact hstands

/-- **An integer becomes the double nearest to it.** -/
theorem standsFor_floatOfInt (hn : IsWord n) :
    StandsFor (floatOfInt n).toModel.unpack (nearestInt n) := by
  have hlt : n.natAbs < 2 ^ 64 := by obtain ⟨hge, hlt⟩ := hn; omega
  have hsize := standsFor_toFloat n.natAbs.toUInt64
  rw [show n.natAbs.toUInt64.toNat = n.natAbs from Nat.mod_eq_of_lt hlt] at hsize
  rw [floatOfInt, nearestInt]
  split_ifs
  · push_cast
    exact standsFor_neg hsize
  · exact hsize

/-- Every integer becomes a finite double, also one of more than 64 bits, whose upper bits are lost. -/
lemma exists_standsFor_floatOfInt (n : ℤ) : ∃ r, StandsFor (floatOfInt n).toModel.unpack r := by
  have hsize := standsFor_toFloat n.natAbs.toUInt64
  rw [floatOfInt]
  split_ifs
  · exact ⟨_, standsFor_neg hsize⟩
  · exact ⟨_, hsize⟩

lemma floatOfInt_lt_iff (hm : IsWord m) (hn : IsWord n) :
    floatOfInt m < floatOfInt n ↔ nearestInt m < nearestInt n := by
  rw [lt_iff_of_standsFor (standsFor_floatOfInt hm) (standsFor_floatOfInt hn), Int.cast_lt]

lemma lt_of_floatOfInt_lt (hm : IsWord m) (hn : IsWord n) (h : floatOfInt m < floatOfInt n) :
    m < n :=
  nearestInt_mono.reflect_lt ((floatOfInt_lt_iff hm hn).mp h)

/-- An integer that does not become a greater double is not much greater. -/
lemma le_add_of_nearestInt_le (hm : IsWord m) (hn : IsWord n) (h : nearestInt m ≤ nearestInt n) :
    m ≤ n + 2 ^ 11 := by
  have hnearM := nearestInt_near hm
  have hnearN := nearestInt_near hn
  omega

end

end GraphMapper.Decimal
