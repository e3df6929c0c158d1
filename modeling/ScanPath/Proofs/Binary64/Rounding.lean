import ScanPath.Proofs.Binary64

/-!
# Rounding to nearest

A result is rounded on the grid of the floats of its size: the real number is
counted in units of the last place and the count goes to the nearest whole
number, to the even one of two.  This is monotone, also where the unit changes,
since every power of two lies on the grids on both of its sides.  What the model
keeps of a result, a whole number with a round bit and a sticky bit, is just
enough to round it, and shifting it keeps that.
-/

namespace ScanPath

open Float.Model Float.Model.UnpackedFloat

/-- The whole number nearest to a number that is not negative, the even one of two. -/
noncomputable def nearestWhole (x : ℝ) : ℕ :=
  if x - ⌊x⌋₊ < 1 / 2 then ⌊x⌋₊
  else if 1 / 2 < x - ⌊x⌋₊ then ⌊x⌋₊ + 1
  else ⌊x⌋₊ + ⌊x⌋₊ % 2

@[simp] theorem nearestWhole_natCast (n : ℕ) : nearestWhole n = n := by
  simp [nearestWhole]

theorem floor_le_nearestWhole (x : ℝ) : ⌊x⌋₊ ≤ nearestWhole x := by
  unfold nearestWhole
  split_ifs <;> omega

theorem nearestWhole_le_floor_add_one (x : ℝ) : nearestWhole x ≤ ⌊x⌋₊ + 1 := by
  unfold nearestWhole
  split_ifs <;> omega

theorem nearestWhole_mono {x y : ℝ} (h : x ≤ y) : nearestWhole x ≤ nearestWhole y := by
  rcases Nat.lt_or_eq_of_le (Nat.floor_mono h) with hlt | heq
  · calc nearestWhole x
        ≤ ⌊x⌋₊ + 1 := nearestWhole_le_floor_add_one x
      _ ≤ ⌊y⌋₊ := hlt
      _ ≤ nearestWhole y := floor_le_nearestWhole y
  · -- the same whole part, so the fractions decide
    unfold nearestWhole
    rw [heq]
    split_ifs <;> first | omega | linarith

/-! ## Grids -/

theorem natCast_two_pow_mul (count : ℕ) (exponent : ℤ) :
    ((2 ^ count : ℕ) : ℝ) * 2 ^ exponent = 2 ^ (exponent + count) := by
  rw [zpow_add₀ two_ne_zero, zpow_natCast, Nat.cast_pow, Nat.cast_ofNat, mul_comm]

/-- The exponent of the last place of the floats of a size. -/
noncomputable def unitExponent (x : ℝ) : ℤ := max (Int.log 2 x - 52) (-1074)

noncomputable def nearest (x : ℝ) : ℝ :=
  nearestWhole (x / 2 ^ unitExponent x) * 2 ^ unitExponent x

theorem natCast_shiftLeft (mantissa shift : ℕ) :
    ((mantissa <<< shift : ℕ) : ℝ) = mantissa * 2 ^ (shift : ℤ) := by
  rw [Nat.shiftLeft_eq, zpow_natCast, Nat.cast_mul, Nat.cast_pow, Nat.cast_ofNat]

theorem lt_two_zpow_unitExponent {x : ℝ} : x < 2 ^ (unitExponent x + 53) := by
  have hone : (1 : ℝ) ≤ 2 := one_le_two
  calc x
      < (2 : ℕ) ^ (Int.log 2 x + 1) := Int.lt_zpow_succ_log_self (by decide) x
    _ ≤ 2 ^ (unitExponent x + 53) := by
        push_cast
        apply zpow_le_zpow_right₀ hone
        have hunit := le_max_left (Int.log 2 x - 52) (-1074)
        rw [unitExponent]
        omega

theorem nearestWhole_unit_le (x : ℝ) : nearestWhole (x / 2 ^ unitExponent x) ≤ 2 ^ 53 := by
  have hpos : (0 : ℝ) < 2 ^ unitExponent x := zpow_pos two_pos _
  have hlt : x / 2 ^ unitExponent x ≤ (2 ^ 53 : ℕ) := by
    rw [div_le_iff₀ hpos, natCast_two_pow_mul]
    exact lt_two_zpow_unitExponent.le
  calc nearestWhole (x / 2 ^ unitExponent x)
      ≤ nearestWhole ((2 ^ 53 : ℕ) : ℝ) := nearestWhole_mono hlt
    _ = 2 ^ 53 := nearestWhole_natCast _

theorem nearest_nonneg (x : ℝ) : 0 ≤ nearest x :=
  mul_nonneg (Nat.cast_nonneg _) (zpow_nonneg two_pos.le _)

@[simp] theorem nearest_zero : nearest 0 = 0 := by
  have hzero : nearestWhole 0 = 0 := by exact_mod_cast nearestWhole_natCast 0
  rw [nearest, zero_div, hzero, Nat.cast_zero, zero_mul]

theorem nearest_mono {x y : ℝ} (hx : 0 ≤ x) (h : x ≤ y) : nearest x ≤ nearest y := by
  rcases hx.eq_or_lt with rfl | hpos
  · rw [nearest_zero]
    exact nearest_nonneg y
  have hlog : Int.log 2 x ≤ Int.log 2 y := Int.log_mono_right hpos h
  have hunits : unitExponent x ≤ unitExponent y :=
    max_le_max (Int.sub_le_sub_right hlog 52) le_rfl
  rcases hunits.eq_or_lt with heq | hlt
  · have hunit : (0 : ℝ) < 2 ^ unitExponent y := zpow_pos two_pos _
    rw [nearest, nearest, heq]
    have hwhole := nearestWhole_mono (div_le_div_of_nonneg_right h hunit.le)
    exact mul_le_mul_of_nonneg_right (Nat.cast_le.mpr hwhole) hunit.le
  · -- a power of two lies between them, and it is on both grids
    have hunit : (0 : ℝ) < 2 ^ unitExponent y := zpow_pos two_pos _
    have hnormal : unitExponent y = Int.log 2 y - 52 := by
      simp only [unitExponent] at hlt ⊢
      omega
    have hpower : (2 : ℝ) ^ (unitExponent y + 52) ≤ y := by
      have hbelow := Int.zpow_log_le_self (b := 2) (r := y) (by decide) (hpos.trans_le h)
      rw [hnormal, sub_add_cancel]
      exact_mod_cast hbelow
    calc nearest x
        ≤ (2 ^ 53 : ℕ) * 2 ^ unitExponent x :=
          mul_le_mul_of_nonneg_right (Nat.cast_le.mpr (nearestWhole_unit_le x))
            (zpow_nonneg two_pos.le _)
      _ = 2 ^ (unitExponent x + 53) := natCast_two_pow_mul 53 _
      _ ≤ 2 ^ (unitExponent y + 52) := zpow_le_zpow_right₀ one_le_two (by omega)
      _ = (2 ^ 52 : ℕ) * 2 ^ unitExponent y := (natCast_two_pow_mul 52 _).symm
      _ ≤ nearest y := by
          apply mul_le_mul_of_nonneg_right _ hunit.le
          rw [Nat.cast_le, ← nearestWhole_natCast (2 ^ 52)]
          apply nearestWhole_mono
          rw [le_div_iff₀ hunit, natCast_two_pow_mul]
          exact hpower

theorem nearest_of_le_exponent {mantissa : ℕ} {exponent : ℤ} (hbits : mantissa < 2 ^ 53)
    (hlow : -1074 ≤ exponent) :
    nearest ((mantissa : ℝ) * 2 ^ exponent) = (mantissa : ℝ) * 2 ^ exponent := by
  rcases Nat.eq_zero_or_pos mantissa with rfl | hpos
  · rw [Nat.cast_zero, zero_mul, nearest_zero]
  have hvalue : (0 : ℝ) < mantissa * 2 ^ exponent :=
    mul_pos (Nat.cast_pos.mpr hpos) (zpow_pos two_pos _)
  have hunit : unitExponent ((mantissa : ℝ) * 2 ^ exponent) ≤ exponent := by
    have hlog : Int.log 2 ((mantissa : ℝ) * 2 ^ exponent) < 53 + exponent := by
      rw [← Int.lt_zpow_iff_log_lt (by decide) hvalue]
      push_cast
      rw [zpow_add₀ two_ne_zero]
      apply mul_lt_mul_of_pos_right _ (zpow_pos two_pos _)
      exact_mod_cast hbits
    rw [unitExponent]
    omega
  obtain ⟨shift, hshift⟩ := Int.eq_ofNat_of_zero_le (sub_nonneg.mpr hunit)
  have hwhole : (mantissa : ℝ) * 2 ^ exponent / 2 ^ unitExponent ((mantissa : ℝ) * 2 ^ exponent) =
      (mantissa * 2 ^ shift : ℕ) := by
    rw [mul_div_assoc, ← zpow_sub₀ two_ne_zero, hshift]
    push_cast
    rw [zpow_natCast]
  rw [nearest, hwhole, nearestWhole_natCast, ← hwhole,
    div_mul_cancel₀ _ (zpow_ne_zero _ two_ne_zero)]

theorem nearest_two_pow (power : ℕ) : nearest (2 ^ power) = 2 ^ power := by
  have hunit := @nearest_of_le_exponent 1 power (by decide) (by omega)
  rwa [Nat.cast_one, one_mul, zpow_natCast] at hunit

theorem abs_nearestWhole_sub_le {x : ℝ} (h : 0 ≤ x) : |(nearestWhole x : ℝ) - x| ≤ 1 / 2 := by
  have hfloor := Nat.floor_le h
  have hnext := Nat.lt_floor_add_one x
  unfold nearestWhole
  split_ifs with hbelow habove
  · rw [abs_le]
    constructor <;> linarith
  · push_cast
    rw [abs_le]
    constructor <;> linarith
  · -- a tie goes either way
    have htie : x - ⌊x⌋₊ = 1 / 2 := le_antisymm (not_lt.mp habove) (not_lt.mp hbelow)
    rcases Nat.mod_two_eq_zero_or_one ⌊x⌋₊ with hparity | hparity <;>
      rw [hparity] <;> push_cast <;> rw [abs_le] <;> constructor <;> linarith

theorem abs_nearest_sub_le {x : ℝ} (h : 0 ≤ x) : |nearest x - x| ≤ 2 ^ unitExponent x / 2 := by
  have hunit : (0 : ℝ) < 2 ^ unitExponent x := zpow_pos two_pos _
  have hscaled : nearest x - x =
      (nearestWhole (x / 2 ^ unitExponent x) - x / 2 ^ unitExponent x) * 2 ^ unitExponent x := by
    rw [nearest, sub_mul, div_mul_cancel₀ _ hunit.ne']
  have hwhole := abs_nearestWhole_sub_le (div_nonneg h hunit.le)
  rw [hscaled, abs_mul, abs_of_pos hunit]
  calc |(nearestWhole (x / 2 ^ unitExponent x) : ℝ) - x / 2 ^ unitExponent x| * 2 ^ unitExponent x
      ≤ 1 / 2 * 2 ^ unitExponent x := mul_le_mul_of_nonneg_right hwhole hunit.le
    _ = 2 ^ unitExponent x / 2 := one_div_mul_eq_div _ _

noncomputable def leastHalf : ℝ := 2 ^ (-1075 : ℤ)

theorem leastHalf_pos : 0 < leastHalf := zpow_pos two_pos _

theorem half_unit_le {x : ℝ} (h : 0 < x) :
    (2 : ℝ) ^ unitExponent x / 2 ≤ x / 2 ^ 53 + leastHalf := by
  have hsmall := leastHalf_pos
  have hhalf : (2 : ℝ) ^ unitExponent x / 2 = 2 ^ (unitExponent x - 1) :=
    (zpow_sub_one₀ two_ne_zero _).symm
  rw [hhalf]
  rcases le_total (Int.log 2 x - 52) (-1074) with hlow | hnormal
  · rw [unitExponent, max_eq_right hlow]
    have hpart : 0 ≤ x / 2 ^ 53 := by positivity
    exact le_add_of_nonneg_left hpart
  · have hbelow : (2 : ℝ) ^ Int.log 2 x ≤ x := by
      exact_mod_cast Int.zpow_log_le_self (b := 2) (by decide) h
    have hsplit : (2 : ℝ) ^ (Int.log 2 x - 52 - 1) = 2 ^ Int.log 2 x / 2 ^ 53 := by
      rw [sub_sub, zpow_sub₀ two_ne_zero]
      norm_num
    rw [unitExponent, max_eq_left hnormal, hsplit]
    have hpart := div_le_div_of_nonneg_right hbelow (by positivity : (0 : ℝ) ≤ 2 ^ 53)
    linarith

noncomputable def roundOff (value : ℝ) : ℝ := |value| / 2 ^ 53 + leastHalf

/-! ## Round bit and sticky bit -/

/-- Where a number lies between the whole number below it and the next one. -/
def Places : Accuracy → ℝ → Prop
  | .exact, fraction => fraction = 0
  | .inexact .lt, fraction => 0 < fraction ∧ fraction < 1 / 2
  | .inexact .eq, fraction => fraction = 1 / 2
  | .inexact .gt, fraction => 1 / 2 < fraction ∧ fraction < 1

def Represents (kept : ExtendedMantissa) (x : ℝ) : Prop :=
  Places kept.accuracy (x - kept.mantissa)

theorem represents_ofMantissaAndAccuracy {mantissa : ℕ} {accuracy : Accuracy} {x : ℝ}
    (h : Places accuracy (x - mantissa)) :
    Represents (.ofMantissaAndAccuracy mantissa accuracy) x := by
  rcases accuracy with _ | (_ | _ | _) <;> exact h

theorem Represents.bounds {kept : ExtendedMantissa} {x : ℝ} (h : Represents kept x) :
    kept.mantissa ≤ x ∧ x < kept.mantissa + 1 := by
  obtain ⟨mantissa, roundBit, stickyBit⟩ := kept
  cases roundBit <;> cases stickyBit <;>
    simp only [Represents, ExtendedMantissa.accuracy, Places] at h ⊢ <;>
    constructor <;> linarith

theorem Represents.roundedMantissa_eq {kept : ExtendedMantissa} {x : ℝ} (h : Represents kept x) :
    kept.roundedMantissa = nearestWhole x := by
  have hbounds := h.bounds
  have hfloor : ⌊x⌋₊ = kept.mantissa := by
    rw [Nat.floor_eq_iff ((Nat.cast_nonneg _).trans hbounds.1)]
    exact hbounds
  obtain ⟨mantissa, roundBit, stickyBit⟩ := kept
  cases roundBit <;> cases stickyBit <;>
    simp only [Represents, ExtendedMantissa.accuracy, Places] at h <;>
    simp only [ExtendedMantissa.roundedMantissa, ExtendedMantissa.accuracy,
      Accuracy.roundToNearestEven, nearestWhole, hfloor] <;>
    split_ifs <;> first | rfl | (exfalso; linarith)

theorem Represents.shiftRightOne {kept : ExtendedMantissa} {x : ℝ} (h : Represents kept x) :
    Represents kept.shiftRightOne (x / 2) := by
  obtain ⟨mantissa, roundBit, stickyBit⟩ := kept
  have hhalves : (mantissa : ℝ) = 2 * (mantissa / 2 : ℕ) + (mantissa % 2 : ℕ) := by
    exact_mod_cast (Nat.div_add_mod mantissa 2).symm
  have hodd : (1 != 0) = true := rfl
  rcases Nat.mod_two_eq_zero_or_one mantissa with hparity | hparity <;>
    rw [hparity] at hhalves <;>
    cases roundBit <;> cases stickyBit <;>
    simp only [Represents, ExtendedMantissa.shiftRightOne, ExtendedMantissa.accuracy, hparity,
      Places, bne_self_eq_false, hodd, Bool.or_false, Bool.or_true, Nat.cast_zero,
      Nat.cast_one] at h hhalves ⊢ <;>
    first | linarith | (constructor <;> linarith)

theorem Represents.shiftRight {kept : ExtendedMantissa} {x : ℝ} (h : Represents kept x)
    (shift : ℕ) : Represents (kept >>> shift) (x / 2 ^ shift) := by
  change Represents (shift.repeat ExtendedMantissa.shiftRightOne kept) _
  induction shift with
  | zero => simpa [Nat.repeat] using h
  | succ shift ih =>
      rw [Nat.repeat, pow_succ, ← div_div]
      exact ih.shiftRightOne

/-! ## Rounded mantissas -/

theorem two_pow_le_shiftLeft {mantissa bits shift : ℕ} (hpos : 0 < mantissa)
    (h : bits ≤ mantissa.log2 + shift) : 2 ^ bits ≤ mantissa <<< shift := by
  rw [Nat.shiftLeft_eq]
  calc 2 ^ bits
      ≤ 2 ^ (mantissa.log2 + shift) := Nat.pow_le_pow_right two_pos h
    _ = 2 ^ mantissa.log2 * 2 ^ shift := pow_add _ _ _
    _ ≤ mantissa * 2 ^ shift := Nat.mul_le_mul_right _ (Nat.log2_self_le hpos.ne')

theorem unitExponent_eq {mantissa : ℕ} {exponent : ℤ} {x : ℝ} (hpos : 0 < x)
    (hlow : mantissa ≤ x / 2 ^ exponent) (hhigh : x / 2 ^ exponent < mantissa + 1)
    (henough : 2 ^ 52 ≤ mantissa ∨ exponent ≤ -1074) :
    unitExponent x = max (mantissa.log2 + exponent - 52) (-1074) := by
  have hunit : (0 : ℝ) < 2 ^ exponent := zpow_pos two_pos _
  rw [le_div_iff₀ hunit] at hlow
  rw [div_lt_iff₀ hunit] at hhigh
  rw [unitExponent]
  rcases Nat.eq_zero_or_pos mantissa with rfl | hmantissa
  · -- less than the lowest unit
    rw [Nat.cast_zero, zero_add, one_mul] at hhigh
    have hlog : Int.log 2 x < exponent := by
      rw [← Int.lt_zpow_iff_log_lt (by decide) hpos]
      exact_mod_cast hhigh
    rw [Nat.log2_zero]
    omega
  · have hbounds := (Nat.log2_eq_iff hmantissa.ne').mp rfl
    have hlog : Int.log 2 x = mantissa.log2 + exponent := by
      apply le_antisymm
      · rw [← Int.lt_add_one_iff, ← Int.lt_zpow_iff_log_lt (by decide) hpos]
        push_cast
        rw [add_right_comm, zpow_add₀ two_ne_zero]
        apply hhigh.trans_le
        apply mul_le_mul_of_nonneg_right _ hunit.le
        exact_mod_cast hbounds.2
      · rw [← Int.zpow_le_iff_le_log (by decide) hpos]
        push_cast
        rw [zpow_add₀ two_ne_zero, zpow_natCast]
        apply le_trans _ hlow
        apply mul_le_mul_of_nonneg_right _ hunit.le
        exact_mod_cast hbounds.1
    rw [hlog]

/-- At most 53 bits, and fewer at the lowest exponent only. -/
structure Fits (mantissa : ℕ) (exponent : ℤ) : Prop where
  bits : mantissa < 2 ^ 53
  low : -1074 ≤ exponent
  full : 2 ^ 52 ≤ mantissa ∨ exponent = -1074

def fromParts (sign : Sign) (mantissa : ℕ) (exponent : ℤ) : UnpackedFloat :=
  if h : mantissa = 0 then .zero sign else .finite sign mantissa exponent (Nat.pos_of_ne_zero h)

theorem Fits.shiftToTargetExponent_eq {mantissa : ℕ} {exponent : ℤ} (h : Fits mantissa exponent) :
    shiftToTargetExponent .binary64 mantissa exponent .exact =
      (⟨mantissa, false, false⟩, exponent) := by
  obtain ⟨hbits, hlow, hfull⟩ := h
  have hshift : (max (mantissa.log2 + exponent - 52) (-1074) - exponent).toNat = 0 := by
    rcases Nat.eq_zero_or_pos mantissa with rfl | hpos
    · rw [Nat.log2_zero]
      omega
    · have := (Nat.log2_lt hpos.ne').mpr hbits
      omega
  rw [shiftToTargetExponent, targetExponent_eq]
  dsimp only [shiftToExponent]
  rw [hshift, Int.natCast_zero, Int.add_zero]
  rfl

theorem shiftToTargetExponent_carry {exponent : ℤ} (hlow : -1074 ≤ exponent) :
    shiftToTargetExponent .binary64 (2 ^ 53) exponent .exact =
      (⟨2 ^ 52, false, false⟩, exponent + 1) := by
  have hshift : (max (((2 ^ 53 : ℕ).log2 : ℤ) + exponent - 52) (-1074) - exponent).toNat = 1 := by
    rw [Nat.log2_two_pow]
    omega
  rw [shiftToTargetExponent, targetExponent_eq]
  dsimp only [shiftToExponent]
  have hcarry : (2 ^ 53 : ℕ) = 2 ^ 52 * 2 ^ 1 := rfl
  rw [hshift, hcarry, ExtendedMantissa.ofMantissaAndAccuracy, shiftRight_exact]
  rfl

theorem le_nearestWhole_unit {x : ℝ} (hpos : 0 < x) :
    2 ^ 52 ≤ nearestWhole (x / 2 ^ unitExponent x) ∨ unitExponent x = -1074 := by
  rcases eq_or_ne (unitExponent x) (-1074) with hlow | hnormal
  · exact .inr hlow
  · left
    rw [← nearestWhole_natCast (2 ^ 52)]
    apply nearestWhole_mono
    rw [le_div_iff₀ (zpow_pos two_pos _), natCast_two_pow_mul]
    have hlog : unitExponent x + (52 : ℕ) = Int.log 2 x := by
      simp only [unitExponent] at hnormal ⊢
      omega
    rw [hlog]
    exact_mod_cast Int.zpow_log_le_self (b := 2) (by decide) hpos

theorem roundWithAccuracy_eq_fromParts {sign : Sign} {mantissa mantissa' : ℕ}
    {exponent unit exponent' : ℤ} {accuracy : Accuracy} {kept : ExtendedMantissa}
    (hfirst : shiftToTargetExponent .binary64 mantissa exponent accuracy = (kept, unit))
    (hagain : shiftToTargetExponent .binary64 kept.roundedMantissa unit .exact =
      (⟨mantissa', false, false⟩, exponent')) :
    roundWithAccuracy .binary64 sign mantissa exponent accuracy =
      fromParts sign mantissa' exponent' := by
  unfold roundWithAccuracy
  simp only [hfirst, hagain]
  rfl

theorem roundWithAccuracy_nearest (sign : Sign) {mantissa : ℕ} {exponent : ℤ} {accuracy : Accuracy}
    {x : ℝ} (hpos : 0 < x) (hplaces : Places accuracy (x / 2 ^ exponent - mantissa))
    (henough : 2 ^ 52 ≤ mantissa ∨ exponent ≤ -1074) :
    ∃ mantissa' exponent', Fits mantissa' exponent' ∧
      (mantissa' : ℝ) * 2 ^ exponent' = nearest x ∧
      roundWithAccuracy .binary64 sign mantissa exponent accuracy =
        fromParts sign mantissa' exponent' := by
  have hkept := represents_ofMantissaAndAccuracy hplaces
  have hbounds := hkept.bounds
  have hmantissa : (ExtendedMantissa.ofMantissaAndAccuracy mantissa accuracy).mantissa =
      mantissa := by
    rcases accuracy with _ | (_ | _ | _) <;> rfl
  rw [hmantissa] at hbounds
  have hunit := unitExponent_eq hpos hbounds.1 hbounds.2 henough
  have hle : exponent ≤ unitExponent x := by
    rw [hunit]
    rcases henough with hfull | hlow
    · have := (Nat.le_log2 (by omega)).mpr hfull
      omega
    · omega
  obtain ⟨shift, hshift⟩ := Int.eq_ofNat_of_zero_le (sub_nonneg.mpr hle)
  have hfirst : shiftToTargetExponent .binary64 mantissa exponent accuracy =
      (ExtendedMantissa.ofMantissaAndAccuracy mantissa accuracy >>> shift, unitExponent x) := by
    rw [shiftToTargetExponent, targetExponent_eq, ← hunit]
    dsimp only [shiftToExponent]
    rw [hshift, Int.toNat_natCast, ← hshift, add_sub_cancel]
  have hrounded :
      (ExtendedMantissa.ofMantissaAndAccuracy mantissa accuracy >>> shift).roundedMantissa =
        nearestWhole (x / 2 ^ unitExponent x) := by
    rw [(hkept.shiftRight shift).roundedMantissa_eq, div_div, ← zpow_natCast, ← hshift,
      ← zpow_add₀ two_ne_zero, add_sub_cancel]
  have hlow : -1074 ≤ unitExponent x := le_max_right _ _
  rcases (nearestWhole_unit_le x).lt_or_eq with hlt | hcarry
  · have hfits : Fits (nearestWhole (x / 2 ^ unitExponent x)) (unitExponent x) :=
      ⟨hlt, hlow, le_nearestWhole_unit hpos⟩
    refine ⟨_, _, hfits, rfl, roundWithAccuracy_eq_fromParts hfirst ?_⟩
    rw [hrounded, hfits.shiftToTargetExponent_eq]
  · refine ⟨2 ^ 52, unitExponent x + 1, ⟨by decide, by omega, .inl le_rfl⟩, ?_,
      roundWithAccuracy_eq_fromParts hfirst ?_⟩
    · rw [nearest, hcarry, natCast_two_pow_mul, natCast_two_pow_mul]
      congr 1
      omega
    · rw [hrounded, hcarry, shiftToTargetExponent_carry hlow]

theorem round_nearest (sign : Sign) {mantissa : ℕ} (hpos : 0 < mantissa) (exponent : ℤ) :
    ∃ mantissa' exponent', Fits mantissa' exponent' ∧
      (mantissa' : ℝ) * 2 ^ exponent' = nearest ((mantissa : ℝ) * 2 ^ exponent) ∧
      UnpackedFloat.round .binary64 sign mantissa exponent =
        fromParts sign mantissa' exponent' := by
  unfold UnpackedFloat.round
  rw [targetExponent_eq]
  dsimp only [decreaseExponent]
  generalize hshift : (exponent - max (mantissa.log2 + exponent - 52) (-1074)).toNat = shift
  have hvalue : (mantissa : ℝ) * 2 ^ exponent / 2 ^ (exponent - shift) =
      (mantissa <<< shift : ℕ) := by
    rw [mul_div_assoc, ← zpow_sub₀ two_ne_zero, sub_sub_cancel, natCast_shiftLeft]
  apply roundWithAccuracy_nearest sign
  · exact mul_pos (Nat.cast_pos.mpr hpos) (zpow_pos two_pos _)
  · rw [hvalue]
    exact sub_self _
  · rcases le_or_gt (-1074) (mantissa.log2 + exponent - 52 : ℤ) with hnormal | hlow
    · exact .inl (two_pow_le_shiftLeft hpos (by omega))
    · right
      omega

end ScanPath
