import ScanPath.Leaf.Basic
import ScanPath.Proofs.Binary64.Rounded

/-!
# Correctly rounded operations

The product, the sum, the quotient and the square root of finite floats, and a
count taken as a float, are the real results rounded to nearest.  Where a product
or a sum is finite, so are its operands.
-/

namespace ScanPath

open Float.Model Float.Model.UnpackedFloat

theorem rounded_roundWithAccuracy {x : Float} {sign : Sign} {mantissa : ℕ} {exponent : ℤ}
    {accuracy : Accuracy} {magnitude : ℝ}
    (hx : x.toModel =
      Float.Model.pack (roundWithAccuracy .binary64 sign mantissa exponent accuracy))
    (hpos : 0 < magnitude) (hplaces : Places accuracy (magnitude / 2 ^ exponent - mantissa))
    (henough : 2 ^ 52 ≤ mantissa ∨ exponent ≤ -1074) : Rounded x (signed sign magnitude) := by
  obtain ⟨_, _, hfits, hnearest, hresult⟩ := roundWithAccuracy_nearest sign hpos hplaces henough
  exact rounded_fromParts hfits (hx.trans (congrArg Float.Model.pack hresult)) hpos.le hnearest

theorem rounded_round {x : Float} {sign : Sign} {mantissa : ℕ} {exponent : ℤ}
    (hx : x.toModel = Float.Model.pack (UnpackedFloat.round .binary64 sign mantissa exponent))
    (hpos : 0 < mantissa) : Rounded x (signed sign (mantissa * 2 ^ exponent)) := by
  obtain ⟨_, _, hfits, hnearest, hresult⟩ := round_nearest sign hpos exponent
  exact rounded_fromParts hfits (hx.trans (congrArg Float.Model.pack hresult)) (by positivity)
    hnearest

/-! ## Products -/

theorem signed_mul (sign other : Sign) (magnitude size : ℝ) :
    signed (sign * other) (magnitude * size) = signed sign magnitude * signed other size := by
  cases sign <;> cases other
  · exact (neg_mul_neg _ _).symm
  · exact (neg_mul _ _).symm
  · exact (mul_neg _ _).symm
  · rfl

theorem toModel_mul (x y : Float) : (x * y).toModel =
    Float.Model.pack (UnpackedFloat.mul .binary64 x.toModel.unpack y.toModel.unpack) := rfl

theorem rounded_mul {x y : Float} (hx : x.isFinite = true) (hy : y.isFinite = true) :
    Rounded (x * y) (exact x * exact y) := by
  have hproduct := toModel_mul x y
  rcases unpack_of_isFinite hx with ⟨sign, hunpack⟩ | ⟨sign, mantissa, exponent, hpos, hunpack⟩ <;>
    rcases unpack_of_isFinite hy with
      ⟨other, hunpack'⟩ | ⟨other, mantissa', exponent', hpos', hunpack'⟩ <;>
    rw [hunpack, hunpack'] at hproduct
  · exact rounded_of_unpack_zero (hproduct ▸ unpack_pack_zero (sign * other))
      (by simp [exact_eq_zero hunpack])
  · exact rounded_of_unpack_zero (hproduct ▸ unpack_pack_zero (sign * other))
      (by simp [exact_eq_zero hunpack])
  · exact rounded_of_unpack_zero (hproduct ▸ unpack_pack_zero (sign * other))
      (by simp [exact_eq_zero hunpack'])
  · rw [exact_eq_signed hunpack, exact_eq_signed hunpack', ← signed_mul]
    have hfits := (fits_of_unpack_eq hunpack).1
    have hfits' := (fits_of_unpack_eq hunpack').1
    have hmagnitude : (0 : ℝ) < mantissa * 2 ^ exponent * (mantissa' * 2 ^ exponent') := by
      positivity
    have hvalue : (mantissa : ℝ) * 2 ^ exponent * (mantissa' * 2 ^ exponent') /
        2 ^ (exponent + exponent') = (mantissa * mantissa' : ℕ) := by
      rw [zpow_add₀ two_ne_zero, Nat.cast_mul]
      field_simp
    have henough : 2 ^ 52 ≤ mantissa * mantissa' ∨ exponent + exponent' ≤ -1074 := by
      rcases hfits.full with hfull | rfl
      · exact .inl (hfull.trans (Nat.le_mul_of_pos_right mantissa hpos'))
      · rcases hfits'.full with hfull | rfl
        · exact .inl (hfull.trans (Nat.le_mul_of_pos_left mantissa' hpos))
        · exact .inr (by decide)
    apply rounded_roundWithAccuracy hproduct hmagnitude _ henough
    rw [hvalue]
    exact sub_self _

/-! ## Sums -/

theorem toModel_add (x y : Float) : (x + y).toModel =
    Float.Model.pack (UnpackedFloat.add .binary64 x.toModel.unpack y.toModel.unpack) := rfl

theorem rounded_normalize {x : Float} {integer : ℤ} {exponent : ℤ}
    (hx : x.toModel =
      Float.Model.pack (UnpackedFloat.normalize .binary64 integer exponent .positive)) :
    Rounded x (integer * 2 ^ exponent) := by
  rcases lt_trichotomy integer 0 with hneg | rfl | hpos
  · obtain ⟨mantissa, rfl⟩ := Int.exists_eq_neg_ofNat hneg.le
    have hpos : 0 < mantissa := by omega
    rw [UnpackedFloat.normalize, compare_lt_iff_lt.mpr hneg] at hx
    dsimp only at hx
    rw [Int.neg_neg, Int.toNat_natCast] at hx
    rw [Int.cast_neg, Int.cast_natCast, neg_mul]
    exact rounded_round hx hpos
  · rw [UnpackedFloat.normalize, compare_eq_iff_eq.mpr rfl] at hx
    exact rounded_of_unpack_zero (hx ▸ unpack_pack_zero .positive) (by simp)
  · obtain ⟨mantissa, rfl⟩ := Int.eq_ofNat_of_zero_le hpos.le
    rw [UnpackedFloat.normalize, compare_gt_iff_gt.mpr hpos] at hx
    dsimp only at hx
    rw [Int.toNat_natCast] at hx
    rw [Int.cast_natCast]
    exact rounded_round hx (Int.natCast_pos.mp hpos)

theorem signed_decreaseExponent (sign : Sign) (mantissa : ℕ) {exponent lower : ℤ}
    (h : lower ≤ exponent) :
    ((sign.apply (decreaseExponent mantissa exponent lower).1 : ℤ) : ℝ) * 2 ^ lower =
      signed sign (mantissa * 2 ^ exponent) := by
  obtain ⟨shift, hshift⟩ := Int.eq_ofNat_of_zero_le (sub_nonneg.mpr h)
  obtain rfl : exponent = lower + shift := by omega
  have hmantissa : (((decreaseExponent mantissa (lower + shift) lower).1 : ℕ) : ℝ) * 2 ^ lower =
      mantissa * 2 ^ (lower + shift) := by
    dsimp only [decreaseExponent]
    rw [hshift, Int.toNat_natCast, natCast_shiftLeft, zpow_add₀ two_ne_zero]
    ring
  rw [← hmantissa]
  cases sign
  · dsimp only [Sign.apply, signed]
    rw [Int.cast_neg, Int.cast_natCast, neg_mul]
  · rfl

theorem rounded_add {x y : Float} (hx : x.isFinite = true) (hy : y.isFinite = true) :
    Rounded (x + y) (exact x + exact y) := by
  have hsum := toModel_add x y
  rcases unpack_of_isFinite hx with ⟨sign, hunpack⟩ | ⟨sign, mantissa, exponent, hpos, hunpack⟩ <;>
    rcases unpack_of_isFinite hy with
      ⟨other, hunpack'⟩ | ⟨other, mantissa', exponent', hpos', hunpack'⟩ <;>
    rw [hunpack, hunpack'] at hsum
  · have hzero : ∃ either, (x + y).toModel.unpack = .zero either := by
      rw [hsum]
      cases sign <;> cases other
      · exact ⟨_, rfl⟩
      · exact ⟨_, rfl⟩
      · exact ⟨_, rfl⟩
      · exact ⟨_, rfl⟩
    obtain ⟨either, heither⟩ := hzero
    exact rounded_of_unpack_zero heither (by simp [exact_eq_zero hunpack, exact_eq_zero hunpack'])
  · rw [exact_eq_zero hunpack, Rat.cast_zero, zero_add, exact_eq_signed hunpack']
    exact rounded_of_fits (fits_of_unpack_eq hunpack').1 hsum
  · rw [exact_eq_zero hunpack', Rat.cast_zero, add_zero, exact_eq_signed hunpack]
    exact rounded_of_fits (fits_of_unpack_eq hunpack).1 hsum
  · rw [exact_eq_signed hunpack, exact_eq_signed hunpack',
      ← signed_decreaseExponent sign mantissa (min_le_left exponent exponent'),
      ← signed_decreaseExponent other mantissa' (min_le_right exponent exponent'), ← add_mul,
      ← Int.cast_add]
    exact rounded_normalize hsum

theorem rounded_toFloat (count : UInt64) : Rounded count.toFloat count.toNat := by
  have hmodel : count.toFloat.toModel = Float.Model.pack
      (UnpackedFloat.normalize .binary64 (count.toNat : ℤ) 0 .positive) := rfl
  have hrounded := rounded_normalize hmodel
  rwa [zpow_zero, mul_one, Int.cast_natCast] at hrounded

theorem within_toFloat (count : UInt64) : Within count.toFloat 64 := by
  apply (rounded_toFloat count).within _ (by decide)
  rw [Nat.abs_cast]
  exact_mod_cast count.toNat_lt.le

theorem toNat_toUInt64_of_lt {count : ℕ} (h : count < countLimit) :
    count.toUInt64.toNat = count :=
  Nat.mod_eq_of_lt h

theorem rounded_countToFloat {count : ℕ} (h : count < countLimit) :
    Rounded (countToFloat count) count := by
  have hrounded := rounded_toFloat count.toUInt64
  rwa [toNat_toUInt64_of_lt h] at hrounded

theorem roundToInt_eq (sign : Sign) (mantissa : ℕ) (exponent : ℤ) :
    roundToInt sign mantissa exponent = sign.apply ⌊(mantissa * 2 ^ exponent : ℝ)⌋₊ := by
  have hvalue : (mantissa * 2 ^ exponent : ℝ) =
      (mantissa <<< exponent.toNat : ℕ) / 2 ^ (-exponent).toNat := by
    rw [natCast_shiftLeft, mul_div_assoc, ← zpow_natCast 2 (-exponent).toNat,
      ← zpow_sub₀ two_ne_zero]
    congr 2
    omega
  have hwhole : Represents (.ofMantissaAndAccuracy (mantissa <<< exponent.toNat) .exact)
      ((mantissa <<< exponent.toNat : ℕ) : ℝ) := represents_ofMantissaAndAccuracy (sub_self _)
  have hbounds := (hwhole.shiftRight (-exponent).toNat).bounds
  rw [← hvalue] at hbounds
  have hshift : (0 - (exponent - (exponent.toNat : ℤ))).toNat = (-exponent).toNat := by omega
  unfold roundToInt
  dsimp only [decreaseExponent, shiftToExponent]
  rw [sub_zero, hshift, (Nat.floor_eq_iff ((Nat.cast_nonneg _).trans hbounds.1)).mpr hbounds]

theorem toNat_ofNatClamp (n : ℕ) : (UInt64.ofNatClamp n).toNat = min n (countLimit - 1) := by
  unfold UInt64.ofNatClamp
  split
  next hlt => exact (min_eq_left (Nat.le_sub_one_of_lt hlt)).symm
  next hge => exact (min_eq_right ((Nat.sub_le _ _).trans (Nat.le_of_not_lt hge))).symm

theorem toNat_toUInt64 {x : Float} (h : x.isFinite = true) :
    x.toUInt64.toNat = min ⌊exact x⌋₊ (countLimit - 1) := by
  have hround : x.toUInt64.toNat =
      min (toInt 0 (UInt64.size - 1) x.toModel.unpack).toNat (countLimit - 1) :=
    toNat_ofNatClamp _
  rw [hround, ← Int.floor_toNat, ← Rat.floor_cast (α := ℝ), Int.floor_toNat]
  congr 1
  rcases unpack_of_isFinite h with ⟨sign, hx⟩ | ⟨sign, mantissa, exponent, hpos, hx⟩
  · rw [hx, exact_eq_zero hx, Rat.cast_zero, Nat.floor_zero]
    rfl
  · rw [hx, exact_eq_signed hx]
    dsimp only [toInt]
    rw [roundToInt_eq]
    have hsize : (0 : ℝ) ≤ mantissa * 2 ^ exponent := by positivity
    cases sign with
    | positive => rfl
    | negative =>
        rw [signed, Nat.floor_of_nonpos (neg_nonpos.mpr hsize), Sign.apply]
        exact Int.toNat_of_nonpos (by omega)

theorem isFinite_unpack_pack_eq_false {result : UnpackedFloat} (h : result.isFinite = false) :
    (Float.Model.pack result).unpack.isFinite = false := by
  cases result with
  | notANumber => rfl
  | infinity sign => cases sign <;> rfl
  | zero sign => cases h
  | finite => cases h

def Absorbs (operation : UnpackedFloat → UnpackedFloat → UnpackedFloat) : Prop :=
  ∀ first second, first.isFinite = false ∨ second.isFinite = false →
    (operation first second).isFinite = false

theorem Absorbs.isFinite_operands {operation : UnpackedFloat → UnpackedFloat → UnpackedFloat}
    (habsorbs : Absorbs operation) {x y : Float}
    (h : (Float.Model.pack (operation x.toModel.unpack y.toModel.unpack)).unpack.isFinite = true) :
    x.isFinite = true ∧ y.isFinite = true := by
  change x.toModel.unpack.isFinite = true ∧ y.toModel.unpack.isFinite = true
  by_contra hoperands
  rw [not_and_or, Bool.not_eq_true, Bool.not_eq_true] at hoperands
  rw [isFinite_unpack_pack_eq_false (habsorbs _ _ hoperands)] at h
  cases h

theorem isFinite_of_isFinite_add {x y : Float} (h : (x + y).isFinite = true) :
    x.isFinite = true ∧ y.isFinite = true := by
  have habsorbs : Absorbs (UnpackedFloat.add .binary64) := by
    intro first second hoperands
    cases first with
    | infinity sign => cases second with
      | infinity other => cases sign <;> cases other <;> rfl
      | _ => rfl
    | _ => cases second <;> first | rfl | simp [UnpackedFloat.isFinite] at hoperands
  exact habsorbs.isFinite_operands h

theorem isFinite_of_isFinite_mul {x y : Float} (h : (x * y).isFinite = true) :
    x.isFinite = true ∧ y.isFinite = true := by
  have habsorbs : Absorbs (UnpackedFloat.mul .binary64) := by
    intro first second hoperands
    cases first <;> cases second <;> first | rfl | simp [UnpackedFloat.isFinite] at hoperands
  exact habsorbs.isFinite_operands h

/-! ## Quotients -/

theorem toModel_div (x y : Float) : (x / y).toModel =
    Float.Model.pack (UnpackedFloat.div .binary64 x.toModel.unpack y.toModel.unpack) := rfl

/-- A quotient by an infinity is a zero, so nothing is known of the divisor. -/
theorem isFinite_of_isFinite_div {x y : Float} (h : (x / y).isFinite = true) :
    x.isFinite = true := by
  change (x / y).toModel.unpack.isFinite = true at h
  change x.toModel.unpack.isFinite = true
  rw [toModel_div] at h
  by_contra hdividend
  rw [Bool.not_eq_true] at hdividend
  have hquotient : (UnpackedFloat.div .binary64 x.toModel.unpack y.toModel.unpack).isFinite =
      false := by
    generalize x.toModel.unpack = first at hdividend
    cases first <;> cases y.toModel.unpack <;>
      first | rfl | simp [UnpackedFloat.isFinite] at hdividend
  rw [isFinite_unpack_pack_eq_false hquotient] at h
  cases h

theorem signed_div (sign other : Sign) (magnitude size : ℝ) :
    signed (sign / other) (magnitude / size) = signed sign magnitude / signed other size := by
  cases sign <;> cases other
  · exact (neg_div_neg_eq _ _).symm
  · exact (neg_div _ _).symm
  · exact (div_neg _).symm
  · rfl

theorem places_accuracyOfFraction {part whole : ℕ} (h : part < whole) :
    Places (accuracyOfFraction part whole) (part / whole : ℝ) := by
  have hwhole : (0 : ℝ) < whole := Nat.cast_pos.mpr (Nat.zero_lt_of_lt h)
  unfold accuracyOfFraction
  split
  next hzero =>
    rw [hzero, Nat.cast_zero]
    exact zero_div _
  next hne =>
    have hpart : (0 : ℝ) < part / whole :=
      div_pos (Nat.cast_pos.mpr (Nat.pos_of_ne_zero hne)) hwhole
    have hbelow : (part / whole : ℝ) < 1 := (div_lt_one hwhole).mpr (Nat.cast_lt.mpr h)
    rcases lt_trichotomy (2 * part) whole with hlt | heq | hgt
    · rw [compare_lt_iff_lt.mpr hlt]
      refine ⟨hpart, ?_⟩
      rw [div_lt_div_iff₀ hwhole two_pos]
      have hdouble : (2 * part : ℝ) < whole := by exact_mod_cast hlt
      linarith
    · rw [compare_eq_iff_eq.mpr heq]
      change (part / whole : ℝ) = 1 / 2
      rw [div_eq_div_iff hwhole.ne' two_ne_zero]
      have hdouble : (2 * part : ℝ) = whole := by exact_mod_cast heq
      linarith
    · rw [compare_gt_iff_gt.mpr hgt]
      refine ⟨?_, hbelow⟩
      rw [div_lt_div_iff₀ two_pos hwhole]
      have hdouble : (whole : ℝ) < 2 * part := by exact_mod_cast hgt
      linarith

theorem divCore_enough {mantissa mantissa' shift : ℕ} {exponent exponent' target : ℤ}
    (hpos : 0 < mantissa) (hpos' : 0 < mantissa')
    (htarget : target = min (exponent - exponent') (Format.binary64.targetExponent
      (totalExponent mantissa exponent - totalExponent mantissa' exponent')))
    (hshift : exponent - exponent' - target = shift) :
    2 ^ 52 ≤ (mantissa <<< shift) / mantissa' ∨ target ≤ -1074 := by
  rcases le_or_gt target (-1074) with hlow | hnormal
  · exact .inr hlow
  left
  have hbits : mantissa'.log2 + 53 ≤ mantissa.log2 + shift := by
    have htotal : Format.binary64.targetExponent
        (totalExponent mantissa exponent - totalExponent mantissa' exponent') =
        max ((mantissa.log2 : ℤ) + 1 + exponent - (mantissa'.log2 + 1 + exponent') - (53 : ℕ))
          (-1074) := rfl
    rw [htotal] at htarget
    omega
  rw [Nat.le_div_iff_mul_le hpos']
  calc 2 ^ 52 * mantissa'
      ≤ 2 ^ 52 * 2 ^ (mantissa'.log2 + 1) := Nat.mul_le_mul_left _ Nat.lt_log2_self.le
    _ = 2 ^ (52 + (mantissa'.log2 + 1)) := (pow_add _ _ _).symm
    _ ≤ mantissa <<< shift := two_pow_le_shiftLeft hpos (by omega)

theorem rounded_div {x y : Float} (hx : x.isFinite = true) (hy : y.isFinite = true)
    (hne : exact y ≠ 0) : Rounded (x / y) (exact x / exact y) := by
  have hquotient := toModel_div x y
  rcases unpack_of_isFinite hy with
    ⟨other, hunpack'⟩ | ⟨other, mantissa', exponent', hpos', hunpack'⟩
  · exact absurd (exact_eq_zero hunpack') hne
  rcases unpack_of_isFinite hx with ⟨sign, hunpack⟩ | ⟨sign, mantissa, exponent, hpos, hunpack⟩ <;>
    rw [hunpack, hunpack'] at hquotient
  · exact rounded_of_unpack_zero (hquotient ▸ unpack_pack_zero (sign / other))
      (by simp [exact_eq_zero hunpack])
  · rw [exact_eq_signed hunpack, exact_eq_signed hunpack', ← signed_div]
    dsimp only [UnpackedFloat.div, divCore] at hquotient
    generalize htarget : min (exponent - exponent') (Format.binary64.targetExponent
      (totalExponent mantissa exponent - totalExponent mantissa' exponent')) = target at hquotient
    obtain ⟨shift, hshift⟩ := Int.eq_ofNat_of_zero_le
      (sub_nonneg.mpr (htarget ▸ min_le_left _ _ : target ≤ exponent - exponent'))
    rw [hshift, Int.toNat_natCast] at hquotient
    have hmagnitude : (0 : ℝ) < mantissa * 2 ^ exponent / (mantissa' * 2 ^ exponent') := by
      positivity
    have hvalue : (mantissa : ℝ) * 2 ^ exponent / (mantissa' * 2 ^ exponent') / 2 ^ target =
        ((mantissa <<< shift : ℕ) : ℝ) / mantissa' := by
      have hexponent : exponent = exponent' + target + shift := by omega
      rw [hexponent, zpow_add₀ two_ne_zero, zpow_add₀ two_ne_zero, natCast_shiftLeft]
      field_simp
    have hrest : ((mantissa <<< shift : ℕ) : ℝ) / mantissa' -
        ((mantissa <<< shift / mantissa' : ℕ) : ℝ) =
          ((mantissa <<< shift % mantissa' : ℕ) : ℝ) / mantissa' := by
      have hparts : ((mantissa <<< shift : ℕ) : ℝ) =
          mantissa' * (mantissa <<< shift / mantissa' : ℕ) +
            (mantissa <<< shift % mantissa' : ℕ) := by
        exact_mod_cast (Nat.div_add_mod (mantissa <<< shift) mantissa').symm
      rw [hparts]
      field_simp
      ring
    apply rounded_roundWithAccuracy hquotient hmagnitude _
      (divCore_enough hpos hpos' htarget.symm hshift)
    rw [hvalue, hrest]
    exact places_accuracyOfFraction (Nat.mod_lt _ hpos')

/-! ## Square roots -/

theorem toModel_sqrt (x : Float) :
    x.sqrt.toModel = Float.Model.pack (UnpackedFloat.sqrt .binary64 x.toModel.unpack) := rfl

theorem places_sqrt (square : ℕ) :
    Places
      (if square - square.sqrt * square.sqrt = 0 then .exact
        else .inexact (if square - square.sqrt * square.sqrt ≤ square.sqrt then .lt else .gt))
      (√(square : ℝ) - square.sqrt) := by
  have hbelow := Nat.sqrt_le square
  have habove := Nat.sqrt_le_add square
  generalize square.sqrt = root at hbelow habove
  obtain ⟨rest, rfl⟩ := Nat.exists_eq_add_of_le hbelow
  rw [Nat.add_sub_cancel_left]
  have hsquare : ((root * root + rest : ℕ) : ℝ) = root ^ 2 + rest := by
    push_cast
    ring
  have hroot : (0 : ℝ) ≤ root := Nat.cast_nonneg root
  rw [hsquare]
  split
  next hzero =>
    rw [hzero, Nat.cast_zero, add_zero, Real.sqrt_sq hroot]
    exact sub_self _
  next hne =>
    have hrest : (1 : ℝ) ≤ rest := by exact_mod_cast Nat.one_le_iff_ne_zero.mpr hne
    have hpositive : (root : ℝ) < √(root ^ 2 + rest) := by
      rw [Real.lt_sqrt hroot]
      linarith
    split
    next hle =>
      -- a half more than the root has a square that is not whole
      have hle' : (rest : ℝ) ≤ root := Nat.cast_le.mpr hle
      have hhalf : √((root : ℝ) ^ 2 + rest) < root + 1 / 2 := by
        rw [Real.sqrt_lt' (by linarith)]
        linarith [add_sq (root : ℝ) (1 / 2)]
      exact ⟨by linarith, by linarith⟩
    next hgt =>
      have hgt' : (root : ℝ) + 1 ≤ rest := by exact_mod_cast not_le.mp hgt
      have hmost : (rest : ℝ) ≤ 2 * root := by exact_mod_cast (by omega : rest ≤ 2 * root)
      have hhalf : (root : ℝ) + 1 / 2 < √(root ^ 2 + rest) := by
        rw [Real.lt_sqrt (by linarith)]
        linarith [add_sq (root : ℝ) (1 / 2)]
      have hone : √((root : ℝ) ^ 2 + rest) < root + 1 := by
        rw [Real.sqrt_lt' (by linarith)]
        linarith [add_sq (root : ℝ) 1]
      exact ⟨by linarith, by linarith⟩

theorem sqrtCore_enough {mantissa shift : ℕ} {exponent target : ℤ} (hpos : 0 < mantissa)
    (htarget : target = min (exponent.ediv 2)
      (Format.binary64.targetExponent ((totalExponent mantissa exponent + 1).ediv 2)))
    (hshift : exponent - 2 * target = shift) :
    2 ^ 52 ≤ (mantissa <<< shift).sqrt ∨ target ≤ -1074 := by
  rcases le_or_gt target (-1074) with hlow | hnormal
  · exact .inr hlow
  left
  have hbits : 104 ≤ mantissa.log2 + shift := by
    have htotal : Format.binary64.targetExponent ((totalExponent mantissa exponent + 1).ediv 2) =
        max (((mantissa.log2 : ℤ) + 1 + exponent + 1) / 2 - (53 : ℕ)) (-1074) := rfl
    rw [htotal] at htarget
    omega
  rw [Nat.le_sqrt, ← pow_add]
  exact two_pow_le_shiftLeft hpos hbits

theorem rounded_sqrt {x : Float} (hx : x.isFinite = true) (hnonneg : 0 ≤ exact x) :
    Rounded x.sqrt √(exact x : ℝ) := by
  have hroot := toModel_sqrt x
  rcases unpack_of_isFinite hx with ⟨sign, hunpack⟩ | ⟨sign, mantissa, exponent, hpos, hunpack⟩ <;>
    rw [hunpack] at hroot
  · exact rounded_of_unpack_zero (hroot ▸ unpack_pack_zero sign) (by simp [exact_eq_zero hunpack])
  have hexact := exact_eq_signed hunpack
  have hsize : (0 : ℝ) < mantissa * 2 ^ exponent := by positivity
  cases sign with
  | negative =>
      rw [← Rat.cast_nonneg (K := ℝ), hexact] at hnonneg
      exact absurd hnonneg (not_le.mpr (neg_neg_of_pos hsize))
  | positive =>
      rw [hexact]
      dsimp only [UnpackedFloat.sqrt, sqrtCore] at hroot
      generalize htarget : min (exponent.ediv 2) (Format.binary64.targetExponent
        ((totalExponent mantissa exponent + 1).ediv 2)) = target at hroot
      have hle : 2 * target ≤ exponent := by
        have hhalf : target ≤ exponent / 2 := htarget ▸ min_le_left _ _
        omega
      obtain ⟨shift, hshift⟩ := Int.eq_ofNat_of_zero_le (sub_nonneg.mpr hle)
      rw [hshift, Int.toNat_natCast] at hroot
      have hvalue : √((mantissa : ℝ) * 2 ^ exponent) / 2 ^ target =
          √((mantissa <<< shift : ℕ) : ℝ) := by
        have hsquare : (mantissa : ℝ) * 2 ^ exponent =
            (mantissa <<< shift : ℕ) * (2 ^ target) ^ 2 := by
          have hexponent : exponent = shift + (target + target) := by omega
          rw [hexponent, zpow_add₀ two_ne_zero, zpow_add₀ two_ne_zero, natCast_shiftLeft]
          ring
        have hunit : (0 : ℝ) < 2 ^ target := zpow_pos two_pos _
        rw [hsquare, Real.sqrt_mul (Nat.cast_nonneg _), Real.sqrt_sq hunit.le,
          mul_div_cancel_right₀ _ hunit.ne']
      apply rounded_roundWithAccuracy hroot (Real.sqrt_pos.mpr hsize) _
        (sqrtCore_enough hpos htarget.symm hshift)
      rw [hvalue]
      exact places_sqrt _

end ScanPath
