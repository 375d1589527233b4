import Mathlib
import GraphMapper.Aggregate.Evaluate
import GraphMapper.Proofs.Decimal.Binary

/-!
Doubles in their order.

* `Canonical.compare_eq`: powers of two decide first, then their multiples;
* `StandsFor`: the number that a finite double stands for, once its bits are taken apart;
* `numberOf`, `standsFor_numberOf`: that number as a function, and every finite double stands for it;
* `Canonical.unpack_pack`: putting the bits together loses nothing;
* `compareFloats_eq` (**doubles are compared by size**): the order of two finite doubles is that of the
  numbers they stand for.
-/

namespace GraphMapper.Decimal

open Float.Model (UnpackedFloat Format Format.binary64)
open Float.Model.UnpackedFloat (Sign packComponents unpackExponent_packComponents
  unpackMantissa_packComponents unpackSign_packComponents)

/-! ### Multiples of powers of two -/

namespace Canonical

variable {m m' : ℕ} {q q' : ℤ}

/-- The number with the greater power of two is the greater one. -/
lemma lt_of_lt (h : Canonical m q) (h' : Canonical m' q') (hlt : q < q') :
    (m * 2 ^ q : ℚ) < m' * 2 ^ q' := by
  have hfull : 2 ^ 52 ≤ m' := h'.full.resolve_right (by have := h.le; omega)
  calc (m * 2 ^ q : ℚ) < (2 ^ 53 : ℕ) * 2 ^ q :=
        mul_lt_mul_of_pos_right (Nat.cast_lt.mpr h.lt) (zpow_pos two_pos q)
    _ = (2 ^ 52 : ℕ) * 2 ^ (q + 1) := by rw [zpow_add_one₀ two_ne_zero]; push_cast; ring
    _ ≤ m' * 2 ^ q' := by
        gcongr
        · exact one_le_two
        · omega

/-- Powers of two decide first, then their multiples. -/
lemma compare_eq (h : Canonical m q) (h' : Canonical m' q') :
    (compare q q').then (compare m m') = compare (m * 2 ^ q : ℚ) (m' * 2 ^ q') := by
  rcases lt_trichotomy q q' with hlt | rfl | hlt
  · rw [compare_lt_iff_lt.mpr hlt, compare_lt_iff_lt.mpr (h.lt_of_lt h' hlt)]
    rfl
  · rw [compare_eq_iff_eq.mpr (rfl : q = q), Ordering.eq_then, ← cmp_eq_compare, ← cmp_eq_compare,
      cmp_mul_pos_right (zpow_pos two_pos q), (Nat.strictMono_cast (α := ℚ)).cmp_map_eq]
  · rw [compare_gt_iff_gt.mpr hlt, compare_gt_iff_gt.mpr (h'.lt_of_lt h hlt)]
    rfl

end Canonical

lemma mul_zpow_pos {m : ℕ} (hpos : 0 < m) (q : ℤ) : (0 : ℚ) < m * 2 ^ q :=
  mul_pos (Nat.cast_pos.mpr hpos) (zpow_pos two_pos q)

/-! ### Doubles taken apart -/

/-- The number that a finite double stands for, once its bits are taken apart. -/
inductive StandsFor : UnpackedFloat → ℚ → Prop where
  | zero (s : Sign) : StandsFor (.zero s) 0
  | positive {m : ℕ} {q : ℤ} (h : Canonical m q) (hle : q ≤ 971) (hpos : 0 < m) :
    StandsFor (.finite .positive m q hpos) (m * 2 ^ q)
  | negative {m : ℕ} {q : ℤ} (h : Canonical m q) (hle : q ≤ 971) (hpos : 0 < m) :
    StandsFor (.finite .negative m q hpos) (-(m * 2 ^ q))

namespace StandsFor

variable {u v : UnpackedFloat} {r s : ℚ}

lemma neg (h : StandsFor u r) : StandsFor u.neg (-r) := by
  cases h with
  | zero s => rw [neg_zero]; exact .zero (-s)
  | positive h hle hpos => exact .negative h hle hpos
  | negative h hle hpos => rw [neg_neg]; exact .positive h hle hpos

/-- The order of two doubles taken apart is that of the numbers. -/
lemma compare_eq (hu : StandsFor u r) (hv : StandsFor v s) :
    u.compare v = some (compare r s) := by
  cases hu with
  | zero =>
      cases hv with
      | zero => rfl
      | @positive m q _ _ hpos =>
          exact congrArg some (compare_lt_iff_lt.mpr (mul_zpow_pos hpos q)).symm
      | @negative m q _ _ hpos =>
          exact congrArg some (compare_gt_iff_gt.mpr (neg_neg_of_pos (mul_zpow_pos hpos q))).symm
  | @positive m q h _ hpos =>
      have hr := mul_zpow_pos hpos q
      cases hv with
      | zero => exact congrArg some (compare_gt_iff_gt.mpr hr).symm
      | positive h' => exact congrArg some (h.compare_eq h')
      | @negative m' q' _ _ hpos' =>
          have hs := neg_neg_of_pos (mul_zpow_pos hpos' q')
          exact congrArg some (compare_gt_iff_gt.mpr (hs.trans hr)).symm
  | @negative m q h _ hpos =>
      have hr := neg_neg_of_pos (mul_zpow_pos hpos q)
      cases hv with
      | zero => exact congrArg some (compare_lt_iff_lt.mpr hr).symm
      | @positive m' q' _ _ hpos' =>
          exact congrArg some (compare_lt_iff_lt.mpr (hr.trans (mul_zpow_pos hpos' q'))).symm
      | negative h' =>
          have hneg : StrictAnti fun t : ℚ => -t := fun _ _ => neg_lt_neg
          refine congrArg some ?_
          rw [h.compare_eq h', ← cmp_eq_compare, ← cmp_eq_compare, cmp_swap]
          exact (hneg.cmp_map_eq _ _).symm

end StandsFor

lemma exists_standsFor_finite (s : Sign) {m : ℕ} {q : ℤ} (h : Canonical m q) (hle : q ≤ 971)
    (hpos : 0 < m) : ∃ r, StandsFor (.finite s m q hpos) r := by
  cases s with
  | positive => exact ⟨_, .positive h hle hpos⟩
  | negative => exact ⟨_, .negative h hle hpos⟩

/-- Every finite double stands for a number. -/
lemma exists_standsFor {x : Float} (h : x.isFinite) : ∃ r, StandsFor x.toModel.unpack r := by
  have hfield := exponentField_ne h
  rw [← toNat_unpackExponent] at hfield
  set bits := x.toModel.toBits.toBitVec with hbits
  have hexponent := (@UnpackedFloat.unpackExponent Format.binary64 bits).isLt
  have hmantissa := (@UnpackedFloat.unpackMantissa Format.binary64 bits).isLt
  have hfull : (1#1 ++ @UnpackedFloat.unpackMantissa Format.binary64 bits).toNat =
      2 ^ 52 + (@UnpackedFloat.unpackMantissa Format.binary64 bits).toNat := by
    rw [BitVec.toNat_append, ← Nat.shiftLeft_add_eq_or_of_lt (BitVec.isLt _)]
    rfl
  have hbias : (Format.binary64.exponentBias : ℤ) = 1023 := rfl
  simp only at hexponent hmantissa
  rw [Float.Model.unpack, ← hbits, UnpackedFloat.unpack]
  simp only [hbias]
  rw [if_neg fun heq => hfield (congrArg BitVec.toNat heq)]
  split_ifs with hzero hnone
  · exact ⟨0, .zero _⟩
  · have hleast : (@UnpackedFloat.unpackExponent Format.binary64 bits).toNat = 0 := by
      rw [hzero]
      rfl
    exact exists_standsFor_finite _ ⟨by omega, by omega, .inr (by omega)⟩ (by omega) _
  · have hne : (@UnpackedFloat.unpackExponent Format.binary64 bits).toNat ≠ 0 :=
      fun heq => hzero (BitVec.eq_of_toNat_eq heq)
    exact exists_standsFor_finite _ ⟨by omega, by omega, .inl (by omega)⟩ (by omega) _

/-- The number that a finite double stands for, as a function. -/
def numberOf (x : Float) : ℚ :=
  match x.toModel.unpack with
  | .finite .positive m q _ => m * 2 ^ q
  | .finite .negative m q _ => -(m * 2 ^ q)
  | _ => 0

lemma StandsFor.eq_numberOf {x : Float} {r : ℚ} (h : StandsFor x.toModel.unpack r) :
    r = numberOf x := by
  rw [numberOf]
  generalize x.toModel.unpack = u at h
  cases h <;> rfl

lemma standsFor_numberOf {x : Float} (h : x.isFinite) : StandsFor x.toModel.unpack (numberOf x) := by
  obtain ⟨r, hr⟩ := exists_standsFor h
  exact hr.eq_numberOf ▸ hr

section

variable {x y : Float} {r s : ℚ}

lemma lt_iff_compare : x < y ↔ x.toModel.unpack.compare y.toModel.unpack = some .lt := by
  change decide (x.toModel.unpack.lt y.toModel.unpack = true) = true ↔ _
  rw [decide_eq_true_iff, UnpackedFloat.lt, beq_iff_eq]

lemma lt_iff_of_standsFor (hx : StandsFor x.toModel.unpack r) (hy : StandsFor y.toModel.unpack s) :
    x < y ↔ r < s := by
  rw [lt_iff_compare, hx.compare_eq hy, Option.some.injEq, compare_lt_iff_lt]

/-- **Doubles are compared by size.** -/
theorem compareFloats_eq (hx : StandsFor x.toModel.unpack r) (hy : StandsFor y.toModel.unpack s) :
    compareFloats x y = compare r s := by
  simp only [compareFloats, lt_iff_of_standsFor hx hy, lt_iff_of_standsFor hy hx]
  rcases lt_trichotomy r s with hlt | rfl | hlt
  · rw [if_pos hlt, compare_lt_iff_lt.mpr hlt]
  · rw [if_neg (lt_irrefl r), if_neg (lt_irrefl r), compare_eq_iff_eq.mpr rfl]
  · rw [if_neg hlt.not_gt, if_pos hlt, compare_gt_iff_gt.mpr hlt]

end

/-! ### Doubles put together -/

section

variable (s : Sign)

lemma ofNat_ne_ofNat {width a b : ℕ} (ha : a < 2 ^ width) (hb : b < 2 ^ width) (h : a ≠ b) :
    BitVec.ofNat width a ≠ BitVec.ofNat width b := by
  intro heq
  have hmod := congrArg BitVec.toNat heq
  rw [BitVec.toNat_ofNat, BitVec.toNat_ofNat, Nat.mod_eq_of_lt ha, Nat.mod_eq_of_lt hb] at hmod
  exact h hmod

variable {m : ℕ} (hpos : 0 < m)

/-- What is read from bits with an exponent field and the leading bit left out. -/
lemma unpack_packComponents_full {field : ℕ} (hfield : 0 < field) (hfinite : field < 2047)
    (hge : 2 ^ 52 ≤ m) (hlt : m < 2 ^ 53) :
    UnpackedFloat.unpack Format.binary64 (packComponents Format.binary64 s (BitVec.ofNat 11 field)
      (BitVec.ofNat 52 m)) = .finite s m (field - 1075) hpos := by
  have hones : (-1#11 : BitVec 11) = BitVec.ofNat 11 2047 := rfl
  have hnotOnes : BitVec.ofNat 11 field ≠ -1#11 :=
    hones ▸ ofNat_ne_ofNat (by omega) (by decide) (by omega)
  have hnotZero : BitVec.ofNat 11 field ≠ 0#11 :=
    ofNat_ne_ofNat (by omega) (by decide : 0 < 2 ^ 11) (by omega)
  have hmantissa : (1#1 ++ BitVec.ofNat 52 m).toNat = m := by
    rw [BitVec.toNat_append, ← Nat.shiftLeft_add_eq_or_of_lt (BitVec.isLt _), BitVec.toNat_ofNat]
    change 1 <<< 52 + m % 2 ^ 52 = m
    omega
  rw [UnpackedFloat.unpack]
  simp only [unpackExponent_packComponents, unpackMantissa_packComponents,
    unpackSign_packComponents, Sign.ofBitVec_toBitVec]
  rw [if_neg hnotOnes, if_neg hnotZero]
  simp only [hmantissa, BitVec.toNat_ofNat, Nat.mod_eq_of_lt (hfinite.trans (by decide : _ < 2 ^ 11))]
  rfl

/-- What is read from bits without an exponent field. -/
lemma unpack_packComponents_short (hlt : m < 2 ^ 52) :
    UnpackedFloat.unpack Format.binary64 (packComponents Format.binary64 s 0#11
      (BitVec.ofNat 52 m)) = .finite s m (-1074) hpos := by
  have hnotZero : BitVec.ofNat 52 m ≠ 0#52 :=
    ofNat_ne_ofNat hlt (by decide : 0 < 2 ^ 52) hpos.ne'
  rw [UnpackedFloat.unpack]
  simp only [unpackExponent_packComponents, unpackMantissa_packComponents,
    unpackSign_packComponents, Sign.ofBitVec_toBitVec]
  rw [if_neg (by decide), if_pos trivial, dif_neg hnotZero]
  simp only [BitVec.toNat_ofNat, Nat.mod_eq_of_lt hlt]
  rfl

/-- Putting the bits of a multiple of a power of two together loses nothing. -/
lemma Canonical.unpack_pack {q : ℤ} (h : Canonical m q) (hle : q ≤ 971) :
    (Float.Model.pack (.finite s m q hpos)).unpack = .finite s m q hpos := by
  obtain ⟨hlt, hge, hfull⟩ := h
  obtain ⟨field, rfl⟩ : ∃ field : ℕ, q = field - 1075 := ⟨(q + 1075).toNat, by omega⟩
  have hbiased : ((field - 1075 : ℤ) + Format.binary64.exponentBias +
      Format.binary64.mantissaBitsWithoutImplicit).toNat = field := by
    simp only [Format.exponentBias]
    omega
  have hfinite : ¬ 2 ^ Format.binary64.exponentBits ≤ field + 1 := by
    change ¬ 2048 ≤ field + 1
    omega
  change UnpackedFloat.unpack Format.binary64
    (UnpackedFloat.pack Format.binary64 (.finite s m _ hpos)) = _
  simp only [UnpackedFloat.pack, hbiased]
  rw [if_neg hfinite]
  by_cases hleading : 2 ^ 52 ≤ m
  · have hlog : m.log2 + 1 = Format.binary64.mantissaBits :=
      congrArg (· + 1) ((Nat.log2_eq_iff hpos.ne').mpr ⟨hleading, hlt⟩)
    rw [if_pos hlog]
    exact unpack_packComponents_full s hpos (by omega) (by omega) hleading hlt
  · have hshort : m < 2 ^ 52 := not_le.mp hleading
    have hlog : m.log2 + 1 ≠ Format.binary64.mantissaBits := by
      have := (Nat.log2_lt hpos.ne').mpr hshort
      change _ ≠ 53
      omega
    rw [if_neg hlog, hfull.resolve_left hleading]
    exact unpack_packComponents_short s hpos hshort

variable {s} {u : UnpackedFloat} {r : ℚ}

lemma StandsFor.unpack_pack (h : StandsFor u r) : (Float.Model.pack u).unpack = u := by
  cases h with
  | zero s => cases s <;> rfl
  | positive h hle hpos => exact h.unpack_pack _ hpos hle
  | negative h hle hpos => exact h.unpack_pack _ hpos hle

/-- Negating a double negates the number. -/
lemma standsFor_neg {x : Float} (h : StandsFor x.toModel.unpack r) :
    StandsFor (-x).toModel.unpack (-r) := by
  change StandsFor (Float.Model.pack x.toModel.unpack.neg).unpack (-r)
  rw [h.neg.unpack_pack]
  exact h.neg

end

end GraphMapper.Decimal
