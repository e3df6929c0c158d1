import ScanPath.Proofs.Binary64.Rounding

/-!
# Rounded results

A rounded mantissa is packed into the float it stands for, or into an infinity
where its exponent is too large.  A float that was rounded from a real number has
the sign of the number, and its size is that of the number rounded to nearest.
As rounding is monotone, a result of smaller size than a finite one is finite as
well.
-/

namespace ScanPath

open Float.Model Float.Model.UnpackedFloat

theorem unpack_pack_subnormal {sign : Sign} {mantissa : ℕ} (hpos : 0 < mantissa)
    (hsmall : mantissa < 2 ^ 52) :
    (Float.Model.pack (.finite sign mantissa (-1074) hpos)).unpack =
      .finite sign mantissa (-1074) hpos := by
  have hlog : mantissa.log2 + 1 ≠ 53 := by
    have hlt := (Nat.log2_lt hpos.ne').mpr hsmall
    omega
  have hpacked : UnpackedFloat.pack .binary64 (.finite sign mantissa (-1074) hpos) =
      packComponents .binary64 sign 0#11 (BitVec.ofNat 52 mantissa) := if_neg hlog
  have hmantissa : (BitVec.ofNat 52 mantissa).toNat = mantissa := by
    rw [BitVec.toNat_ofNat, Nat.mod_eq_of_lt hsmall]
  have hne : BitVec.ofNat 52 mantissa ≠ 0#52 := by
    intro h
    rw [h] at hmantissa
    exact hpos.ne hmantissa
  change UnpackedFloat.unpack .binary64
    (UnpackedFloat.pack .binary64 (.finite sign mantissa (-1074) hpos)) = _
  rw [hpacked]
  dsimp only [UnpackedFloat.unpack]
  simp only [unpackExponent_packComponents, unpackMantissa_packComponents,
    unpackSign_packComponents, Sign.ofBitVec_toBitVec]
  rw [if_neg (by decide), if_pos trivial, dif_neg hne]
  simp only [hmantissa]
  rfl

theorem unpack_pack_overflow {sign : Sign} {mantissa : ℕ} {exponent : ℤ} (hpos : 0 < mantissa)
    (hhigh : 971 < exponent) :
    (Float.Model.pack (.finite sign mantissa exponent hpos)).unpack = .infinity sign := by
  have hpacked : UnpackedFloat.pack .binary64 (.finite sign mantissa exponent hpos) =
      packedInfinity .binary64 sign := by
    apply if_pos
    change 2 ^ 11 ≤ (exponent + (1023 : ℕ) + (52 : ℕ)).toNat + 1
    omega
  change UnpackedFloat.unpack .binary64
    (UnpackedFloat.pack .binary64 (.finite sign mantissa exponent hpos)) = _
  rw [hpacked]
  cases sign <;> rfl

theorem Fits.unpack_pack {sign : Sign} {mantissa : ℕ} {exponent : ℤ} (h : Fits mantissa exponent)
    (hpos : 0 < mantissa) (hhigh : exponent ≤ 971) :
    (Float.Model.pack (.finite sign mantissa exponent hpos)).unpack =
      .finite sign mantissa exponent hpos := by
  rcases Nat.lt_or_ge mantissa (2 ^ 52) with hsmall | hfull
  · obtain rfl := h.full.resolve_left (by omega)
    exact unpack_pack_subnormal hpos hsmall
  · exact unpack_pack_normal hpos ((Nat.log2_eq_iff hpos.ne').mpr ⟨hfull, h.bits⟩) h.low hhigh

theorem fits_of_unpack_eq {x : Float} {sign : Sign} {mantissa : ℕ} {exponent : ℤ}
    {hpos : 0 < mantissa} (h : x.toModel.unpack = .finite sign mantissa exponent hpos) :
    Fits mantissa exponent ∧ exponent ≤ 971 := by
  change UnpackedFloat.unpack .binary64 x.toModel.toBits.toBitVec = _ at h
  obtain ⟨biased, hbiased⟩ : ∃ biased : BitVec 11,
    @unpackExponent .binary64 x.toModel.toBits.toBitVec = biased := ⟨_, rfl⟩
  obtain ⟨stored, hstored⟩ : ∃ stored : BitVec 52,
    @unpackMantissa .binary64 x.toModel.toBits.toBitVec = stored := ⟨_, rfl⟩
  dsimp only [UnpackedFloat.unpack] at h
  simp only [hbiased, hstored] at h
  have hbits := stored.isLt
  split at h
  next => split at h <;> cases h
  next hspecial =>
    split at h
    next hsmall =>
      split at h
      · cases h
      · injection h with _ hmantissa hexponent
        rw [hsmall] at hexponent
        have hlow : exponent = -1074 := hexponent.symm
        exact ⟨⟨by omega, by omega, .inr hlow⟩, by omega⟩
    next hnormal =>
      injection h with _ hmantissa hexponent
      change (biased.toNat : ℤ) - (1023 + 52) = exponent at hexponent
      rw [toNat_append_implicit] at hmantissa
      have hpositive : biased.toNat ≠ 0 := fun h => hnormal (BitVec.eq_of_toNat_eq h)
      have hfinite : biased.toNat ≠ 2047 := fun h => hspecial (BitVec.eq_of_toNat_eq h)
      have hrange := biased.isLt
      exact ⟨⟨by omega, by omega, .inl (by omega)⟩, by omega⟩

/-! ## Rounded results -/

def signed : Sign → ℝ → ℝ
  | .positive, magnitude => magnitude
  | .negative, magnitude => -magnitude

@[simp] theorem abs_signed (sign : Sign) (magnitude : ℝ) :
    |signed sign magnitude| = |magnitude| := by
  cases sign
  · exact abs_neg magnitude
  · rfl

theorem signed_nonneg_iff {sign : Sign} {magnitude : ℝ} (hpos : 0 < magnitude) :
    0 ≤ signed sign magnitude ↔ sign = .positive := by
  cases sign with
  | positive => exact iff_of_true hpos.le rfl
  | negative => exact iff_of_false (not_le.mpr (neg_neg_of_pos hpos)) nofun

theorem signed_nonpos_iff {sign : Sign} {magnitude : ℝ} (hpos : 0 < magnitude) :
    signed sign magnitude ≤ 0 ↔ sign = .negative := by
  cases sign with
  | positive => exact iff_of_false (not_le.mpr hpos) nofun
  | negative => exact iff_of_true (neg_neg_of_pos hpos).le rfl

theorem exact_eq_signed {x : Float} {sign : Sign} {mantissa : ℕ} {exponent : ℤ}
    {hpos : 0 < mantissa} (h : x.toModel.unpack = .finite sign mantissa exponent hpos) :
    (exact x : ℝ) = signed sign (mantissa * 2 ^ exponent) := by
  rw [exact, h]
  cases sign <;> simp [Sign.apply, signed]

theorem exact_eq_zero {x : Float} {sign : Sign} (h : x.toModel.unpack = .zero sign) :
    exact x = 0 := by
  rw [exact, h]

theorem unpack_pack_zero (sign : Sign) :
    (Float.Model.pack (.zero sign)).unpack = .zero sign := by
  cases sign <;> rfl

/-- The float is the number rounded to nearest, or infinite where that is too large. -/
structure Rounded (x : Float) (value : ℝ) : Prop where
  isFinite_iff : x.isFinite = true ↔ nearest |value| < 2 ^ 1024
  abs_exact : x.isFinite = true → |(exact x : ℝ)| = nearest |value|
  nonneg : 0 ≤ value → 0 ≤ exact x
  nonpos : value ≤ 0 → exact x ≤ 0

theorem Fits.lt_overflow_iff {mantissa : ℕ} {exponent : ℤ} (h : Fits mantissa exponent) :
    (mantissa : ℝ) * 2 ^ exponent < 2 ^ 1024 ↔ exponent ≤ 971 := by
  have hunit : (0 : ℝ) < 2 ^ exponent := zpow_pos two_pos _
  have hoverflow : (2 : ℝ) ^ 1024 = 2 ^ (1024 : ℤ) := (zpow_natCast 2 1024).symm
  rw [hoverflow]
  constructor
  · intro hlt
    by_contra hhigh
    have hfull : 2 ^ 52 ≤ mantissa := h.full.resolve_right (by omega)
    apply hlt.not_ge
    calc (2 : ℝ) ^ (1024 : ℤ)
        ≤ 2 ^ (exponent + (52 : ℕ)) := zpow_le_zpow_right₀ one_le_two (by omega)
      _ = ((2 ^ 52 : ℕ) : ℝ) * 2 ^ exponent := (natCast_two_pow_mul 52 exponent).symm
      _ ≤ mantissa * 2 ^ exponent := mul_le_mul_of_nonneg_right (Nat.cast_le.mpr hfull) hunit.le
  · intro hhigh
    calc (mantissa : ℝ) * 2 ^ exponent
        < ((2 ^ 53 : ℕ) : ℝ) * 2 ^ exponent :=
          mul_lt_mul_of_pos_right (Nat.cast_lt.mpr h.bits) hunit
      _ = 2 ^ (exponent + (53 : ℕ)) := natCast_two_pow_mul 53 exponent
      _ ≤ 2 ^ (1024 : ℤ) := zpow_le_zpow_right₀ one_le_two (by omega)

theorem rounded_of_unpack_zero {x : Float} {sign : Sign} {value : ℝ}
    (h : x.toModel.unpack = .zero sign) (hvalue : nearest |value| = 0) : Rounded x value := by
  have hfinite : x.isFinite = true := congrArg UnpackedFloat.isFinite h
  have hexact := exact_eq_zero h
  constructor <;> simp [hfinite, hexact, hvalue]

theorem rounded_of_unpack_finite {x : Float} {sign : Sign} {mantissa : ℕ} {exponent : ℤ}
    {hpos : 0 < mantissa} (h : x.toModel.unpack = .finite sign mantissa exponent hpos)
    {magnitude : ℝ} (hmagnitude : 0 < magnitude)
    (hnearest : (mantissa : ℝ) * 2 ^ exponent = nearest magnitude) :
    Rounded x (signed sign magnitude) := by
  have hsize : (0 : ℝ) < mantissa * 2 ^ exponent := by positivity
  have hvalue : nearest |signed sign magnitude| = mantissa * 2 ^ exponent := by
    rw [abs_signed, abs_of_pos hmagnitude, hnearest]
  have hexact := exact_eq_signed h
  obtain ⟨hfits, hhigh⟩ := fits_of_unpack_eq h
  refine ⟨iff_of_true (congrArg UnpackedFloat.isFinite h) ?_, fun _ => ?_, fun hnonneg => ?_,
    fun hnonpos => ?_⟩
  · rw [hvalue]
    exact hfits.lt_overflow_iff.mpr hhigh
  · rw [hexact, abs_signed, abs_of_pos hsize, hvalue]
  · rw [← Rat.cast_nonneg (K := ℝ), hexact, signed_nonneg_iff hsize]
    exact (signed_nonneg_iff hmagnitude).mp hnonneg
  · rw [← Rat.cast_nonpos (K := ℝ), hexact, signed_nonpos_iff hsize]
    exact (signed_nonpos_iff hmagnitude).mp hnonpos

theorem rounded_of_unpack_infinity {x : Float} {sign : Sign} {value : ℝ}
    (h : x.toModel.unpack = .infinity sign) (hlarge : ¬ nearest |value| < 2 ^ 1024) :
    Rounded x value := by
  have hinfinite : x.isFinite = false := congrArg UnpackedFloat.isFinite h
  have hexact : exact x = 0 := by rw [exact, h]
  constructor <;> simp [hinfinite, hexact, not_lt.mp hlarge]

theorem rounded_fromParts {x : Float} {sign : Sign} {mantissa : ℕ} {exponent : ℤ}
    (hfits : Fits mantissa exponent)
    (hx : x.toModel = Float.Model.pack (fromParts sign mantissa exponent))
    {magnitude : ℝ} (hnonneg : 0 ≤ magnitude)
    (hnearest : (mantissa : ℝ) * 2 ^ exponent = nearest magnitude) :
    Rounded x (signed sign magnitude) := by
  have hvalue : nearest |signed sign magnitude| = mantissa * 2 ^ exponent := by
    rw [abs_signed, abs_of_nonneg hnonneg, hnearest]
  rcases Nat.eq_zero_or_pos mantissa with rfl | hpos
  · rw [fromParts, dif_pos rfl] at hx
    exact rounded_of_unpack_zero (hx ▸ unpack_pack_zero sign)
      (by rw [hvalue, Nat.cast_zero, zero_mul])
  rw [fromParts, dif_neg hpos.ne'] at hx
  rcases le_or_gt exponent 971 with hle | hgt
  · have hmagnitude : 0 < magnitude := by
      apply hnonneg.lt_of_ne
      rintro rfl
      rw [nearest_zero] at hnearest
      exact (mul_pos (Nat.cast_pos.mpr hpos) (zpow_pos two_pos _)).ne' hnearest
    exact rounded_of_unpack_finite (hx ▸ hfits.unpack_pack hpos hle) hmagnitude hnearest
  · apply rounded_of_unpack_infinity (hx ▸ unpack_pack_overflow hpos hgt)
    rw [hvalue, hfits.lt_overflow_iff]
    exact not_le.mpr hgt

theorem rounded_of_fits {x : Float} {sign : Sign} {mantissa : ℕ} {exponent : ℤ}
    {hpos : 0 < mantissa} (hfits : Fits mantissa exponent)
    (hx : x.toModel = Float.Model.pack (.finite sign mantissa exponent hpos)) :
    Rounded x (signed sign (mantissa * 2 ^ exponent)) := by
  have hparts : fromParts sign mantissa exponent = .finite sign mantissa exponent hpos :=
    dif_neg hpos.ne'
  exact rounded_fromParts hfits (hparts ▸ hx) (by positivity)
    (nearest_of_le_exponent hfits.bits hfits.low).symm

theorem unpack_of_isFinite {x : Float} (h : x.isFinite = true) :
    (∃ sign, x.toModel.unpack = .zero sign) ∨
      ∃ sign mantissa exponent hpos, x.toModel.unpack = .finite sign mantissa exponent hpos := by
  change x.toModel.unpack.isFinite = true at h
  cases hunpack : x.toModel.unpack with
  | zero sign => exact .inl ⟨sign, rfl⟩
  | finite sign mantissa exponent hpos => exact .inr ⟨sign, mantissa, exponent, hpos, rfl⟩
  | infinity sign =>
      rw [hunpack] at h
      cases h
  | notANumber =>
      rw [hunpack] at h
      cases h

theorem rounded_self {x : Float} (h : x.isFinite = true) : Rounded x (exact x) := by
  rcases unpack_of_isFinite h with ⟨sign, hunpack⟩ | ⟨sign, mantissa, exponent, hpos, hunpack⟩
  · exact rounded_of_unpack_zero hunpack (by simp [exact_eq_zero hunpack])
  · have hfits := (fits_of_unpack_eq hunpack).1
    rw [exact_eq_signed hunpack]
    exact rounded_of_unpack_finite hunpack (by positivity)
      (nearest_of_le_exponent hfits.bits hfits.low).symm

theorem Rounded.le {x y : Float} {value bound : ℝ} (hx : Rounded x value) (hy : Rounded y bound)
    (h : |value| ≤ |bound|) (hfinite : y.isFinite = true) :
    x.isFinite = true ∧ |exact x| ≤ |exact y| := by
  have hnearest : nearest |value| ≤ nearest |bound| := nearest_mono (abs_nonneg value) h
  have hx' : x.isFinite = true :=
    hx.isFinite_iff.mpr (hnearest.trans_lt (hy.isFinite_iff.mp hfinite))
  refine ⟨hx', ?_⟩
  rw [← Rat.cast_le (K := ℝ), Rat.cast_abs, Rat.cast_abs, hx.abs_exact hx', hy.abs_exact hfinite]
  exact hnearest

/-- Finite and of at most the size of a power of two. -/
structure Within (x : Float) (power : ℕ) : Prop where
  isFinite : x.isFinite = true
  abs_le : |(exact x : ℝ)| ≤ 2 ^ power

theorem Within.mono {x : Float} {power higher : ℕ} (h : Within x power) (hle : power ≤ higher) :
    Within x higher :=
  ⟨h.isFinite, h.abs_le.trans (pow_le_pow_right₀ one_le_two hle)⟩

theorem within_of_unpack_eq {x : Float} {sign : Sign} {mantissa : ℕ} {exponent : ℤ}
    {hpos : 0 < mantissa} (h : x.toModel.unpack = .finite sign mantissa exponent hpos) {power : ℕ}
    (hpower : exponent + 53 ≤ power) : Within x power := by
  refine ⟨congrArg UnpackedFloat.isFinite h, ?_⟩
  have hunit : (0 : ℝ) < 2 ^ exponent := zpow_pos two_pos _
  have hbits : (mantissa : ℝ) ≤ (2 ^ 53 : ℕ) := Nat.cast_le.mpr (fits_of_unpack_eq h).1.bits.le
  rw [exact_eq_signed h, abs_signed, abs_of_nonneg (by positivity)]
  calc (mantissa : ℝ) * 2 ^ exponent
      ≤ (2 ^ 53 : ℕ) * 2 ^ exponent := mul_le_mul_of_nonneg_right hbits hunit.le
    _ = 2 ^ (exponent + (53 : ℕ)) := natCast_two_pow_mul 53 exponent
    _ ≤ 2 ^ (power : ℤ) := zpow_le_zpow_right₀ one_le_two hpower
    _ = 2 ^ power := zpow_natCast 2 power

theorem Rounded.within {x : Float} {value : ℝ} {power : ℕ} (hx : Rounded x value)
    (h : |value| ≤ 2 ^ power) (hpower : power < 1024) : Within x power := by
  have hnearest : nearest |value| ≤ 2 ^ power :=
    (nearest_mono (abs_nonneg value) h).trans_eq (nearest_two_pow power)
  have hx' : x.isFinite = true :=
    hx.isFinite_iff.mpr (hnearest.trans_lt (pow_lt_pow_right₀ one_lt_two hpower))
  exact ⟨hx', (hx.abs_exact hx').trans_le hnearest⟩

/-! ## Magnitudes -/

theorem exact_abs {x : Float} (h : x.isFinite = true) :
    x.abs.isFinite = true ∧ exact x.abs = |exact x| := by
  have habs : x.abs.toModel = Float.Model.pack (UnpackedFloat.abs x.toModel.unpack) := rfl
  rcases unpack_of_isFinite h with ⟨sign, hunpack⟩ | ⟨sign, mantissa, exponent, hpos, hunpack⟩ <;>
    rw [hunpack] at habs
  · have hzero : x.abs.toModel.unpack = .zero .positive := habs ▸ unpack_pack_zero .positive
    refine ⟨congrArg UnpackedFloat.isFinite hzero, ?_⟩
    rw [exact_eq_zero hzero, exact_eq_zero hunpack, abs_zero]
  · obtain ⟨hfits, hhigh⟩ := fits_of_unpack_eq hunpack
    have hsize : x.abs.toModel.unpack = .finite .positive mantissa exponent hpos :=
      habs ▸ hfits.unpack_pack hpos hhigh
    refine ⟨congrArg UnpackedFloat.isFinite hsize, ?_⟩
    rw [← Rat.cast_inj (α := ℝ), Rat.cast_abs, exact_eq_signed hsize, exact_eq_signed hunpack,
      abs_signed, abs_of_nonneg (by positivity)]
    rfl

theorem magnitude_le_one {mantissa : ℕ} {exponent : ℤ} (hbits : mantissa < 2 ^ 53)
    (h : ((compare exponent (-52)).then (compare mantissa (2 ^ 52))).isLE = true) :
    (mantissa : ℝ) * 2 ^ exponent ≤ 1 := by
  have hunit : (0 : ℝ) ≤ 2 ^ exponent := zpow_nonneg two_pos.le _
  rcases lt_trichotomy exponent (-52) with hlt | rfl | hgt
  · calc (mantissa : ℝ) * 2 ^ exponent
        ≤ ((2 ^ 53 : ℕ) : ℝ) * 2 ^ exponent :=
          mul_le_mul_of_nonneg_right (Nat.cast_le.mpr hbits.le) hunit
      _ = 2 ^ (exponent + (53 : ℕ)) := natCast_two_pow_mul 53 exponent
      _ ≤ 2 ^ (0 : ℤ) := zpow_le_zpow_right₀ one_le_two (by omega)
      _ = 1 := zpow_zero 2
  · rw [compare_eq_iff_eq.mpr rfl, Ordering.eq_then, Nat.isLE_compare] at h
    calc (mantissa : ℝ) * 2 ^ (-52 : ℤ)
        ≤ ((2 ^ 52 : ℕ) : ℝ) * 2 ^ (-52 : ℤ) :=
          mul_le_mul_of_nonneg_right (Nat.cast_le.mpr h) hunit
      _ = 2 ^ ((-52 : ℤ) + (52 : ℕ)) := natCast_two_pow_mul 52 (-52)
      _ = 1 := zpow_zero 2
  · rw [compare_gt_iff_gt.mpr hgt] at h
    cases h

theorem within_zero_iff {x : Float} :
    Within x 0 ↔ x.isFinite = true ∧ |(exact x : ℝ)| ≤ 1 := by
  rw [← pow_zero (2 : ℝ)]
  exact ⟨fun h => ⟨h.isFinite, h.abs_le⟩, fun h => ⟨h.1, h.2⟩⟩

theorem within_one {x : Float} (hlow : -1.0 ≤ x) (hhigh : x ≤ 1.0) : Within x 0 := by
  have hminus : (-1.0 : Float).toModel.unpack =
      .finite .negative (2 ^ 52) (-52) (Nat.two_pow_pos 52) := rfl
  have hplus : (1.0 : Float).toModel.unpack =
      .finite .positive (2 ^ 52) (-52) (Nat.two_pow_pos 52) := rfl
  rw [le_iff_compare, hminus] at hlow
  rw [le_iff_compare, hplus] at hhigh
  rw [within_zero_iff]
  cases hunpack : x.toModel.unpack with
  | notANumber =>
      rw [hunpack] at hhigh
      cases hhigh
  | infinity sign =>
      rw [hunpack] at hlow hhigh
      cases sign
      · cases hlow
      · cases hhigh
  | zero sign =>
      refine ⟨congrArg UnpackedFloat.isFinite hunpack, ?_⟩
      rw [exact_eq_zero hunpack, Rat.cast_zero, abs_zero]
      exact zero_le_one
  | finite sign mantissa exponent hpos =>
      refine ⟨congrArg UnpackedFloat.isFinite hunpack, ?_⟩
      have hbits := (fits_of_unpack_eq hunpack).1.bits
      rw [exact_eq_signed hunpack, abs_signed, abs_of_nonneg (by positivity)]
      rw [hunpack] at hlow hhigh
      apply magnitude_le_one hbits
      cases sign with
      | positive => exact hhigh
      | negative =>
          rw [← Int.compare_swap, ← Nat.compare_swap, ← Ordering.swap_then]
          exact hlow

end ScanPath
