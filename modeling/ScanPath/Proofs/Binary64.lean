import Mathlib

/-!
# Floats as numbers

A float is packed from a sign, an exponent and a mantissa.  It is determined by
what it unpacks to, and where the exact result of an operation needs no more
than 53 bits, nothing is lost: the shifts that rounding makes drop zeros only.
-/

namespace ScanPath

open Float.Model Float.Model.UnpackedFloat

theorem eq_of_unpack_eq {x y : Float} (h : x.toModel.unpack = y.toModel.unpack) : x = y :=
  Float.toBits_inj.mp (UInt64.toBitVec_inj.mp
    ((unpack_inj_of_valid x.toModel.valid y.toModel.valid).mp h))

/-! ## Comparison -/

theorem lt_iff_compare (x y : Float) :
    x < y ↔ UnpackedFloat.compare x.toModel.unpack y.toModel.unpack = some .lt := by
  change decide ((UnpackedFloat.compare x.toModel.unpack y.toModel.unpack == some .lt) = true) =
    true ↔ _
  rw [decide_eq_true_eq, beq_iff_eq]

theorem le_iff_compare (x y : Float) :
    x ≤ y ↔ (UnpackedFloat.compare x.toModel.unpack y.toModel.unpack).any (·.isLE) = true := by
  change decide (UnpackedFloat.le x.toModel.unpack y.toModel.unpack = true) = true ↔ _
  rw [decide_eq_true_eq]
  rfl

theorem beq_iff_compare (x y : Float) :
    (x == y) = true ↔ UnpackedFloat.compare x.toModel.unpack y.toModel.unpack = some .eq := by
  change (UnpackedFloat.compare x.toModel.unpack y.toModel.unpack == some .eq) = true ↔ _
  exact beq_iff_eq

theorem unpacked_eq_or_zeros {first second : UnpackedFloat}
    (h : UnpackedFloat.compare first second = some .eq) :
    first = second ∨ ∃ sign other, first = .zero sign ∧ second = .zero other := by
  have hparts : ∀ {m n : Nat} {e f : Int}, (compare e f).then (compare m n) = .eq →
      e = f ∧ m = n := by
    intro m n e f h
    rw [Ordering.then_eq_eq] at h
    exact ⟨compare_eq_iff_eq.mp h.1, compare_eq_iff_eq.mp h.2⟩
  cases first with
  | notANumber => simp [UnpackedFloat.compare] at h
  | infinity sign =>
      cases second with
      | infinity other =>
          cases sign <;> cases other
          · exact .inl rfl
          · cases h
          · cases h
          · exact .inl rfl
      | _ => cases sign <;> simp [UnpackedFloat.compare] at h
  | zero sign =>
      cases second with
      | zero other => exact .inr ⟨sign, other, rfl, rfl⟩
      | infinity other => cases other <;> simp [UnpackedFloat.compare] at h
      | finite other _ _ _ => cases other <;> simp [UnpackedFloat.compare] at h
      | notANumber => simp [UnpackedFloat.compare] at h
  | finite sign mantissa exponent hpos =>
      cases second with
      | finite other mantissa' exponent' hpos' =>
          left
          cases sign <;> cases other <;> simp only [UnpackedFloat.compare, Option.some.injEq,
            Ordering.swap_eq_eq, reduceCtorEq] at h
          · obtain ⟨rfl, rfl⟩ := hparts h
            rfl
          · obtain ⟨rfl, rfl⟩ := hparts h
            rfl
      | zero other => cases sign <;> simp [UnpackedFloat.compare] at h
      | infinity other => cases other <;> simp [UnpackedFloat.compare] at h
      | notANumber => simp [UnpackedFloat.compare] at h

theorem eq_or_zeros_of_beq {x y : Float} (h : (x == y) = true) :
    x = y ∨ x = 0.0 ∧ y = -0.0 ∨ x = -0.0 ∧ y = 0.0 := by
  have hpositive : (0.0 : Float).toModel.unpack = .zero .positive := rfl
  have hnegative : (-0.0 : Float).toModel.unpack = .zero .negative := rfl
  rw [beq_iff_compare] at h
  rcases unpacked_eq_or_zeros h with heq | ⟨sign, other, hx, hy⟩
  · exact .inl (eq_of_unpack_eq heq)
  · cases sign <;> cases other
    · exact .inl (eq_of_unpack_eq (hx.trans hy.symm))
    · exact .inr (.inr ⟨eq_of_unpack_eq (hx.trans hnegative.symm),
        eq_of_unpack_eq (hy.trans hpositive.symm)⟩)
    · exact .inr (.inl ⟨eq_of_unpack_eq (hx.trans hpositive.symm),
        eq_of_unpack_eq (hy.trans hnegative.symm)⟩)
    · exact .inl (eq_of_unpack_eq (hx.trans hy.symm))

theorem beq_self_of_isFinite {x : Float} (h : x.isFinite = true) : (x == x) = true := by
  rw [beq_iff_compare]
  change x.toModel.unpack.isFinite = true at h
  cases hx : x.toModel.unpack with
  | finite sign mantissa exponent hpos => cases sign <;> simp [UnpackedFloat.compare]
  | zero sign => simp [UnpackedFloat.compare]
  | _ =>
      rw [hx] at h
      cases h

theorem not_lt_of_isNaN {x : Float} (h : x.isNaN = true) (y : Float) : ¬ x < y := by
  have hunpack : x.toModel.unpack = .notANumber := isNaN_iff.mp h
  rw [lt_iff_compare, hunpack]
  simp [UnpackedFloat.compare]

theorem isFinite_of_isNaN {x : Float} (h : x.isNaN = true) : x.isFinite = false :=
  congrArg UnpackedFloat.isFinite (isNaN_iff.mp h)

theorem of_zero_lt {x : Float} (h : 0.0 < x) : ¬ x < 0.0 ∧ (x == 0.0) = false := by
  have hzero : (0.0 : Float).toModel.unpack = .zero .positive := rfl
  rw [← Bool.not_eq_true, lt_iff_compare, beq_iff_compare, hzero]
  rw [lt_iff_compare, hzero] at h
  cases hx : x.toModel.unpack with
  | infinity sign => cases sign <;> simp_all [UnpackedFloat.compare]
  | finite sign mantissa exponent hpos => cases sign <;> simp_all [UnpackedFloat.compare]
  | _ => simp [hx, UnpackedFloat.compare] at h

inductive Standing (x : Float) : Prop
  | notANumber (h : x.isNaN = true)
  | negative (h : x < 0.0)
  | zero (h : x = 0.0 ∨ x = -0.0)
  | infinite (h : x = 1.0 / 0.0)
  | positive (h : 0.0 < x) (finite : x.isFinite = true)

theorem standing (x : Float) : Standing x := by
  cases h : x.toModel.unpack with
  | notANumber => exact .notANumber (congrArg UnpackedFloat.isNaN h)
  | zero sign =>
      cases sign with
      | positive => exact .zero (.inl (eq_of_unpack_eq h))
      | negative => exact .zero (.inr (eq_of_unpack_eq h))
  | infinity sign =>
      cases sign with
      | positive => exact .infinite (eq_of_unpack_eq h)
      | negative => exact .negative ((lt_iff_compare x 0.0).mpr (h ▸ rfl))
  | finite sign mantissa exponent hpos =>
      cases sign with
      | positive =>
          exact .positive ((lt_iff_compare 0.0 x).mpr (h ▸ rfl)) (congrArg UnpackedFloat.isFinite h)
      | negative => exact .negative ((lt_iff_compare x 0.0).mpr (h ▸ rfl))

theorem toNat_append_implicit (mantissa : BitVec 52) :
    (1#1 ++ mantissa).toNat = 2 ^ 52 + mantissa.toNat := by
  rw [BitVec.toNat_append, ← Nat.shiftLeft_add_eq_or_of_lt mantissa.isLt]
  rfl

private theorem unpack_normal (sign : Sign) {exponent : BitVec 11} (mantissa : BitVec 52)
    (hspecial : exponent ≠ -1#11) (hsmall : exponent ≠ 0#11) :
    UnpackedFloat.unpack .binary64 (packComponents .binary64 sign exponent mantissa) =
      .finite sign (1#1 ++ mantissa).toNat ((exponent.toNat : Int) - 1075)
        (by rw [toNat_append_implicit]; omega) := by
  dsimp only [UnpackedFloat.unpack]
  simp only [unpackExponent_packComponents, unpackMantissa_packComponents,
    unpackSign_packComponents, Sign.ofBitVec_toBitVec]
  rw [if_neg hspecial, if_neg hsmall]
  rfl

theorem unpack_pack_normal {sign : Sign} {mantissa : Nat} {exponent : Int} (hpos : 0 < mantissa)
    (hlog : mantissa.log2 = 52) (hlow : -1074 ≤ exponent) (hhigh : exponent ≤ 971) :
    (Float.Model.pack (.finite sign mantissa exponent hpos)).unpack =
      .finite sign mantissa exponent hpos := by
  obtain ⟨biased, hbiased⟩ := Int.eq_ofNat_of_zero_le (show 0 ≤ exponent + 1075 by omega)
  have hpacked : UnpackedFloat.pack .binary64 (.finite sign mantissa exponent hpos) =
      packComponents .binary64 sign (BitVec.ofNat 11 biased) (BitVec.ofNat 52 mantissa) := by
    have htoNat : (exponent + (Format.binary64.exponentBias : Nat) +
        (Format.binary64.mantissaBitsWithoutImplicit : Nat)).toNat = biased := by
      change (exponent + (1023 : Nat) + (52 : Nat)).toNat = biased
      omega
    dsimp only [UnpackedFloat.pack]
    rw [htoNat, if_neg (show ¬ 2 ^ 11 ≤ biased + 1 by omega)]
    exact if_pos (show mantissa.log2 + 1 = 53 by omega)
  have hexponent : (BitVec.ofNat 11 biased).toNat = biased := by
    rw [BitVec.toNat_ofNat, Nat.mod_eq_of_lt (by omega)]
  have hmantissa : (1#1 ++ BitVec.ofNat 52 mantissa).toNat = mantissa := by
    have hbounds := (Nat.log2_eq_iff (Nat.ne_of_gt hpos)).mp hlog
    rw [toNat_append_implicit, BitVec.toNat_ofNat]
    omega
  change UnpackedFloat.unpack .binary64
    (UnpackedFloat.pack .binary64 (.finite sign mantissa exponent hpos)) = _
  rw [hpacked, unpack_normal]
  · simp only [hmantissa, hexponent, UnpackedFloat.finite.injEq, true_and]
    omega
  · intro h
    rw [h] at hexponent
    simp at hexponent
    omega
  · intro h
    rw [h] at hexponent
    simp at hexponent
    omega

/-! ## Rounding without loss -/

theorem shiftRight_exact (mantissa shift : Nat) :
    (ExtendedMantissa.mk (mantissa * 2 ^ shift) false false) >>> shift =
      ⟨mantissa, false, false⟩ := by
  change shift.repeat ExtendedMantissa.shiftRightOne _ = _
  induction shift generalizing mantissa with
  | zero => simp [Nat.repeat]
  | succ shift ih =>
      rw [Nat.repeat, Nat.pow_succ, Nat.mul_comm (2 ^ shift), ← Nat.mul_assoc, ih]
      simp [ExtendedMantissa.shiftRightOne]

private theorem log2_mul_two_pow {mantissa : Nat} (hpos : 0 < mantissa) (shift : Nat) :
    (mantissa * 2 ^ shift).log2 = mantissa.log2 + shift := by
  induction shift with
  | zero => simp
  | succ shift ih =>
      have hne : mantissa * 2 ^ shift ≠ 0 := Nat.ne_of_gt (Nat.mul_pos hpos (Nat.two_pow_pos shift))
      rw [Nat.pow_succ, ← Nat.mul_assoc, Nat.mul_comm _ 2, Nat.log2_two_mul hne, ih, Nat.add_assoc]

theorem targetExponent_eq (mantissa : Nat) (exponent : Int) :
    Format.binary64.targetExponent (totalExponent mantissa exponent) =
      max (mantissa.log2 + exponent - 52) (-1074) := by
  change max ((mantissa.log2 : Int) + 1 + exponent - (53 : Nat)) (-1074) = _
  congr 1
  omega

private theorem targetExponent_mul_two_pow {mantissa : Nat} (hpos : 0 < mantissa) (shift : Nat)
    (exponent : Int) :
    Format.binary64.targetExponent (totalExponent (mantissa * 2 ^ shift) exponent) =
      max (mantissa.log2 + shift + exponent - 52) (-1074) := by
  rw [targetExponent_eq, log2_mul_two_pow hpos, Int.natCast_add]

private theorem shiftToTargetExponent_exact {mantissa : Nat} (hlog : mantissa.log2 = 52)
    (hpos : 0 < mantissa) (shift : Nat) {exponent : Int} (hlow : -1074 ≤ exponent + shift) :
    shiftToTargetExponent .binary64 (mantissa * 2 ^ shift) exponent .exact =
      (⟨mantissa, false, false⟩, exponent + shift) := by
  have hshift : (max (mantissa.log2 + shift + exponent - 52) (-1074) - exponent).toNat = shift := by
    omega
  rw [shiftToTargetExponent, targetExponent_mul_two_pow hpos]
  dsimp only [shiftToExponent]
  rw [hshift, ExtendedMantissa.ofMantissaAndAccuracy, shiftRight_exact]

theorem roundWithAccuracy_exact (sign : Sign) {mantissa : Nat} (hlog : mantissa.log2 = 52)
    (hpos : 0 < mantissa) (shift : Nat) {exponent : Int} (hlow : -1074 ≤ exponent + shift) :
    roundWithAccuracy .binary64 sign (mantissa * 2 ^ shift) exponent .exact =
      .finite sign mantissa (exponent + shift) hpos := by
  have hagain := shiftToTargetExponent_exact hlog hpos 0
    (show -1074 ≤ exponent + shift + (0 : Nat) by omega)
  rw [Nat.pow_zero, Nat.mul_one, Int.natCast_zero, Int.add_zero] at hagain
  unfold roundWithAccuracy
  simp only [shiftToTargetExponent_exact hlog hpos shift hlow, ExtendedMantissa.roundedMantissa,
    ExtendedMantissa.accuracy, Accuracy.roundToNearestEven, hagain]
  exact dif_neg (Nat.ne_of_gt hpos)

def normalForm (sign : Sign) (mantissa : Nat) (exponent : Int) (hpos : 0 < mantissa) :
    UnpackedFloat :=
  .finite sign (mantissa * 2 ^ (52 - mantissa.log2)) (exponent - (52 - mantissa.log2 : Nat))
    (Nat.mul_pos hpos (Nat.two_pow_pos _))

theorem round_exact (sign : Sign) {mantissa : Nat} (hlog : mantissa.log2 ≤ 52)
    (hpos : 0 < mantissa) (shift : Nat) {exponent : Int}
    (hlow : -1074 ≤ exponent + shift - (52 - mantissa.log2 : Nat)) :
    UnpackedFloat.round .binary64 sign (mantissa * 2 ^ shift) exponent =
      normalForm sign mantissa (exponent + shift) hpos := by
  have hfull : (mantissa * 2 ^ (52 - mantissa.log2)).log2 = 52 := by
    rw [log2_mul_two_pow hpos]
    omega
  have hpos' : 0 < mantissa * 2 ^ (52 - mantissa.log2) := Nat.mul_pos hpos (Nat.two_pow_pos _)
  unfold UnpackedFloat.round
  rw [targetExponent_mul_two_pow hpos]
  dsimp only [decreaseExponent]
  rcases Nat.le_total shift (52 - mantissa.log2) with hle | hle
  · -- the mantissa is moved up to 53 bits
    obtain ⟨more, hmore⟩ := Nat.exists_eq_add_of_le hle
    have hshift :
        (exponent - max (mantissa.log2 + shift + exponent - 52) (-1074)).toNat = more := by
      omega
    have hmantissa : (mantissa * 2 ^ shift) <<< more =
        mantissa * 2 ^ (52 - mantissa.log2) * 2 ^ 0 := by
      rw [Nat.shiftLeft_eq, Nat.mul_assoc, ← Nat.pow_add, ← hmore, Nat.pow_zero, Nat.mul_one]
    rw [hshift, hmantissa, roundWithAccuracy_exact sign hfull hpos' 0 (by omega), normalForm]
    congr 1
    omega
  · -- zeros at the end are dropped
    obtain ⟨more, hmore⟩ := Nat.exists_eq_add_of_le hle
    have hshift : (exponent - max (mantissa.log2 + shift + exponent - 52) (-1074)).toNat = 0 := by
      omega
    have hmantissa : (mantissa * 2 ^ shift) <<< 0 =
        mantissa * 2 ^ (52 - mantissa.log2) * 2 ^ more := by
      rw [Nat.shiftLeft_zero, Nat.mul_assoc, ← Nat.pow_add, ← hmore]
    rw [hshift, hmantissa, roundWithAccuracy_exact sign hfull hpos' more (by omega), normalForm]
    congr 1
    omega

/-! ## Exact values -/

/-- The value of a finite float; infinities and NaN have none and count as zero. -/
def exact (x : Float) : ℚ :=
  match x.toModel.unpack with
  | .finite sign mantissa exponent _ => (sign.apply mantissa : ℚ) * 2 ^ exponent
  | _ => 0

theorem exact_eq_of_normalForm {x : Float} {sign : Sign} {mantissa : Nat} {exponent : Int}
    {hpos : 0 < mantissa} (h : x.toModel.unpack = normalForm sign mantissa exponent hpos) :
    exact x = (sign.apply mantissa : ℚ) * 2 ^ exponent := by
  rw [exact, h, normalForm]
  dsimp only
  rw [zpow_sub₀ two_ne_zero, zpow_natCast]
  have hne : (2 : ℚ) ^ (52 - mantissa.log2) ≠ 0 := pow_ne_zero _ two_ne_zero
  have hmul : ((sign.apply (mantissa * 2 ^ (52 - mantissa.log2) : Nat) : Int) : ℚ) =
      (sign.apply mantissa : ℚ) * 2 ^ (52 - mantissa.log2) := by
    cases sign <;> simp [Sign.apply]
  rw [hmul]
  field_simp

theorem isFinite_of_normalForm {x : Float} {sign : Sign} {mantissa : Nat} {exponent : Int}
    {hpos : 0 < mantissa} (h : x.toModel.unpack = normalForm sign mantissa exponent hpos) :
    x.isFinite = true :=
  congrArg UnpackedFloat.isFinite h

theorem exact_nonneg {x : Float} (h : 0.0 ≤ x) : 0 ≤ exact x := by
  have hzero : (0.0 : Float).toModel.unpack = .zero .positive := rfl
  rw [le_iff_compare, hzero] at h
  unfold exact
  cases hx : x.toModel.unpack with
  | finite sign mantissa exponent hpos =>
      cases sign with
      | positive =>
          exact mul_nonneg (Int.cast_nonneg (Int.natCast_nonneg _)) (zpow_nonneg two_pos.le _)
      | negative =>
          rw [hx] at h
          cases h
  | _ => exact le_refl 0

theorem unpack_pack_normalForm {sign : Sign} {mantissa : Nat} {exponent : Int}
    (hpos : 0 < mantissa) (hlog : mantissa.log2 ≤ 52)
    (hlow : -1022 ≤ exponent) (hhigh : exponent ≤ 971) :
    (Float.Model.pack (normalForm sign mantissa exponent hpos)).unpack =
      normalForm sign mantissa exponent hpos := by
  apply unpack_pack_normal
  · rw [log2_mul_two_pow hpos]
    omega
  · omega
  · omega

theorem unpack_mul_two_pow (power : Int) {x y : Float} {sign : Sign} {mantissa : Nat}
    {exponent : Int} {hpos : 0 < mantissa} (hlog : mantissa.log2 ≤ 52)
    (hx : x.toModel.unpack = normalForm sign mantissa exponent hpos)
    (hy : y.toModel.unpack = .finite .positive (2 ^ 52) (power - 52) (Nat.two_pow_pos 52))
    (hlow : -1022 ≤ exponent + power) (hhigh : exponent + power ≤ 971) :
    (x * y).toModel.unpack = normalForm sign mantissa (exponent + power) hpos := by
  have hfull : (mantissa * 2 ^ (52 - mantissa.log2)).log2 = 52 := by
    rw [log2_mul_two_pow hpos]
    omega
  have hproduct : UnpackedFloat.mul .binary64 x.toModel.unpack y.toModel.unpack =
      normalForm sign mantissa (exponent + power) hpos := by
    have hsign : sign * .positive = sign := by cases sign <;> rfl
    rw [hx, hy, normalForm]
    dsimp only [UnpackedFloat.mul]
    rw [hsign, roundWithAccuracy_exact sign hfull (Nat.mul_pos hpos (Nat.two_pow_pos _)) 52
      (by omega), normalForm]
    congr 1
    omega
  change (Float.Model.pack
    (UnpackedFloat.mul .binary64 x.toModel.unpack y.toModel.unpack)).unpack = _
  rw [hproduct]
  exact unpack_pack_normalForm hpos hlog hlow hhigh

theorem normalize_natCast {mantissa : Nat} (hlog : mantissa.log2 ≤ 52) (hpos : 0 < mantissa)
    (shift : Nat) {exponent : Int} (hlow : -1022 ≤ exponent + shift) (zeroSign : Sign) :
    UnpackedFloat.normalize .binary64 (mantissa * 2 ^ shift : Nat) exponent zeroSign =
      normalForm .positive mantissa (exponent + shift) hpos := by
  have hcompare : compare ((mantissa * 2 ^ shift : Nat) : Int) 0 = .gt :=
    compare_gt_iff_gt.mpr (Int.natCast_pos.mpr (Nat.mul_pos hpos (Nat.two_pow_pos shift)))
  rw [UnpackedFloat.normalize, hcompare]
  dsimp only
  rw [Int.toNat_natCast, round_exact .positive hlog hpos shift (by omega)]

theorem normalize_neg_natCast {mantissa : Nat} (hlog : mantissa.log2 ≤ 52) (hpos : 0 < mantissa)
    (shift : Nat) {exponent : Int} (hlow : -1022 ≤ exponent + shift) (zeroSign : Sign) :
    UnpackedFloat.normalize .binary64 (-(mantissa * 2 ^ shift : Nat)) exponent zeroSign =
      normalForm .negative mantissa (exponent + shift) hpos := by
  have hcompare : compare (-((mantissa * 2 ^ shift : Nat) : Int)) 0 = .lt := by
    rw [compare_lt_iff_lt]
    have := Int.natCast_pos.mpr (Nat.mul_pos hpos (Nat.two_pow_pos shift))
    omega
  rw [UnpackedFloat.normalize, hcompare]
  dsimp only
  rw [Int.neg_neg, Int.toNat_natCast, round_exact .negative hlog hpos shift (by omega)]

theorem exact_pack_normalize {integer : Int} (hbits : integer.natAbs < 2 ^ 53) (shift : Nat)
    {exponent : Int} (hlow : -1022 ≤ exponent + shift) (hhigh : exponent + shift ≤ 971) {x : Float}
    (hx : x.toModel =
      Float.Model.pack
        (UnpackedFloat.normalize .binary64 (integer * 2 ^ shift) exponent .positive)) :
    x.isFinite = true ∧ exact x = integer * 2 ^ (exponent + shift) := by
  have hlog : ∀ {mantissa : Nat}, 0 < mantissa → mantissa < 2 ^ 53 → mantissa.log2 ≤ 52 :=
    fun hpos hlt => Nat.lt_succ_iff.mp ((Nat.log2_lt (Nat.ne_of_gt hpos)).mpr hlt)
  rcases lt_trichotomy integer 0 with hneg | rfl | hpos
  · obtain ⟨mantissa, rfl⟩ := Int.exists_eq_neg_ofNat (Int.le_of_lt hneg)
    have hpos : 0 < mantissa := by omega
    have hlog' := hlog hpos (by omega)
    have hnormal := normalize_neg_natCast hlog' hpos shift hlow .positive
    push_cast at hnormal
    rw [Int.neg_mul, hnormal] at hx
    have hunpack := hx ▸ unpack_pack_normalForm hpos hlog' hlow hhigh
    refine ⟨isFinite_of_normalForm hunpack, ?_⟩
    rw [exact_eq_of_normalForm hunpack]
    rfl
  · rw [Int.zero_mul] at hx
    have hnormal : UnpackedFloat.normalize .binary64 0 exponent .positive = .zero .positive := by
      rw [UnpackedFloat.normalize, compare_eq_iff_eq.mpr rfl]
    have hunpack : x.toModel.unpack = .zero .positive := by
      rw [hx, hnormal]
      rfl
    refine ⟨congrArg UnpackedFloat.isFinite hunpack, ?_⟩
    rw [exact, hunpack, Int.cast_zero, zero_mul]
  · obtain ⟨mantissa, rfl⟩ := Int.eq_ofNat_of_zero_le (Int.le_of_lt hpos)
    have hpos : 0 < mantissa := by omega
    have hlog' := hlog hpos (by omega)
    have hnormal := normalize_natCast hlog' hpos shift hlow .positive
    push_cast at hnormal
    rw [hnormal] at hx
    have hunpack := hx ▸ unpack_pack_normalForm hpos hlog' hlow hhigh
    refine ⟨isFinite_of_normalForm hunpack, ?_⟩
    rw [exact_eq_of_normalForm hunpack]
    rfl

theorem unpack_toFloat {count : UInt64} (hpos : 0 < count.toNat) (hlog : count.toNat.log2 ≤ 52) :
    count.toFloat.toModel.unpack = normalForm .positive count.toNat 0 hpos := by
  have hlow : -1022 ≤ (0 : Int) + (0 : Nat) := by omega
  have hnormal := normalize_natCast hlog hpos 0 hlow .positive
  rw [Nat.pow_zero, Nat.mul_one] at hnormal
  change (Float.Model.pack
    (UnpackedFloat.normalize .binary64 (count.toNat : Int) 0 .positive)).unpack = _
  rw [hnormal]
  exact unpack_pack_normalForm hpos hlog (by omega) (by omega)

end ScanPath
