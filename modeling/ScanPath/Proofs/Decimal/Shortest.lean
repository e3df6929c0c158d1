import Mathlib
import ScanPath.Decimal.Shortest

/-!
# The shortest digits of a double

The numbers that round to a double form an interval around it.  The search for
the coarsest grid with a point in the interval ends at the seventeenth place
behind the first digit at the latest, so the digits that it finds round to the
double.  The intervals of two doubles have at most an end in common, and there
one of the mantissas is odd: the digits tell which double they are of.
-/

namespace ScanPath.Decimal

theorem zpow_mul_pow_toNat {base : ℚ} (h : base ≠ 0) (power : Int) :
    base ^ power * base ^ (-power).toNat = base ^ power.toNat := by
  rw [← zpow_natCast, ← zpow_natCast, ← zpow_add₀ h]
  congr 1
  omega

theorem scales_pos (value : Binary) (place : Int) :
    0 < (scales value place).1 ∧ 0 < (scales value place).2 :=
  ⟨Nat.mul_pos (Nat.pow_pos (by decide)) (Nat.pow_pos (by decide)),
    Nat.mul_pos (Nat.pow_pos (by decide)) (Nat.pow_pos (by decide))⟩

theorem scales_ratio (value : Binary) (place : Int) :
    ((scales value place).1 : ℚ) * 10 ^ place =
      (scales value place).2 * 2 ^ (value.exponent - 2) := by
  have htwo := zpow_mul_pow_toNat two_ne_zero (value.exponent - 2)
  have hten := zpow_mul_pow_toNat (show (10 : ℚ) ≠ 0 by norm_num) place
  rw [neg_sub] at htwo
  simp only [scales, Nat.pow_eq, Nat.cast_mul, Nat.cast_pow, Nat.cast_ofNat]
  rw [← htwo, ← hten]
  ring

theorem mul_le_mul_iff_of_ratio {first second : Nat} {size other : ℚ}
    (h : (first : ℚ) * other = second * size) (hsecond : 0 < second) (hother : 0 < other)
    (m n : Nat) : m * first ≤ n * second ↔ (m : ℚ) * size ≤ n * other := by
  have hsecond' : (0 : ℚ) < second := Nat.cast_pos.mpr hsecond
  calc m * first ≤ n * second
      ↔ (m : ℚ) * first * other ≤ n * second * other := by
        rw [mul_le_mul_iff_left₀ hother]
        norm_cast
    _ ↔ (second : ℚ) * (m * size) ≤ second * (n * other) := by
        rw [mul_assoc, h, mul_left_comm, mul_comm (n : ℚ), mul_assoc]
    _ ↔ (m : ℚ) * size ≤ n * other := mul_le_mul_iff_right₀ hsecond'

section

variable (value : Binary) (place : Int) (quarters units : Nat)

theorem mul_quarter_le_iff :
    quarters * (scales value place).1 ≤ units * (scales value place).2 ↔
      (quarters : ℚ) * 2 ^ (value.exponent - 2) ≤ units * 10 ^ place :=
  mul_le_mul_iff_of_ratio (scales_ratio value place) (scales_pos value place).2
    (zpow_pos (by norm_num) _) quarters units

theorem mul_unit_le_iff :
    units * (scales value place).2 ≤ quarters * (scales value place).1 ↔
      (units : ℚ) * 10 ^ place ≤ quarters * 2 ^ (value.exponent - 2) :=
  mul_le_mul_iff_of_ratio (scales_ratio value place).symm (scales_pos value place).1
    (zpow_pos (by norm_num) _) units quarters

end

/-! ## Intervals -/

namespace Binary

def lowQuarters (value : Binary) : Nat := 4 * value.mantissa - if value.narrow then 1 else 2

def highQuarters (value : Binary) : Nat := 4 * value.mantissa + 2

def low (value : Binary) : ℚ := value.lowQuarters * 2 ^ (value.exponent - 2)

def high (value : Binary) : ℚ := value.highQuarters * 2 ^ (value.exponent - 2)

/-- The numbers that round to a value: the ends of the interval do when the mantissa is even. -/
structure Rounds (value : Binary) (number : ℚ) : Prop where
  low_le : value.low ≤ number
  le_high : number ≤ value.high
  ends : value.mantissa % 2 = 0 ∨ value.low < number ∧ number < value.high

end Binary

theorem roundsTo_iff (value : Binary) (place : Int) (count : Nat) :
    roundsTo value place count = true ↔ value.Rounds (count * 10 ^ place) := by
  have hlow := mul_quarter_le_iff value place value.lowQuarters count
  have hlow' := not_congr (mul_unit_le_iff value place value.lowQuarters count)
  have hhigh := mul_unit_le_iff value place value.highQuarters count
  have hhigh' := not_congr (mul_quarter_le_iff value place value.highQuarters count)
  rw [not_le, not_le] at hlow' hhigh'
  simp only [roundsTo, ← Binary.lowQuarters.eq_1, ← Binary.highQuarters.eq_1]
  split
  next heven =>
    rw [decide_eq_true_eq, hlow, hhigh]
    exact ⟨fun h => ⟨h.1, h.2, .inl heven⟩, fun h => ⟨h.low_le, h.le_high⟩⟩
  next hodd =>
    rw [decide_eq_true_eq, hlow', hhigh']
    exact ⟨fun h => ⟨h.1.le, h.2.le, .inr h⟩, fun h => h.ends.resolve_left hodd⟩

/-! ## Search -/

theorem roundsTo_of_gridPoint? {tie : Tie} {value : Binary} {place : Int} {count : Nat}
    (h : gridPoint? tie value place = some count) : roundsTo value place count = true := by
  simp only [gridPoint?] at h
  split at h
  next => cases h
  next hbelow _ => exact Option.some.inj h ▸ hbelow
  next _ habove => exact Option.some.inj h ▸ habove
  next hbelow habove =>
    split at h
    · exact Option.some.inj h ▸ hbelow
    · split at h
      · exact Option.some.inj h ▸ habove
      · cases tie with
        | up => exact Option.some.inj h ▸ habove
        | even =>
            dsimp only at h
            split at h
            · exact Option.some.inj h ▸ hbelow
            · exact Option.some.inj h ▸ habove

theorem roundsTo_above {value : Binary} {place : Int}
    (h : (scales value place).2 < 2 * (scales value place).1) :
    roundsTo value place
      (4 * value.mantissa * (scales value place).1 / (scales value place).2 + 1) = true := by
  have hunit := (scales_pos value place).2
  simp only [roundsTo]
  generalize scales value place = factors at h hunit ⊢
  obtain ⟨quarter, unit⟩ := factors
  dsimp only at h hunit ⊢
  set exact := 4 * value.mantissa * quarter with hexact
  have hdiv := Nat.div_add_mod exact unit
  have hmod := Nat.mod_lt exact hunit
  have hlow : (4 * value.mantissa - if value.narrow then 1 else 2) * quarter ≤ exact :=
    Nat.mul_le_mul_right _ (Nat.sub_le _ _)
  have hpoint : (exact / unit + 1) * unit = unit * (exact / unit) + unit := by ring
  have hhigh : (4 * value.mantissa + 2) * quarter = exact + 2 * quarter := by
    rw [Nat.add_mul]
  rw [hpoint, hhigh]
  split <;> rw [decide_eq_true_eq] <;> omega

theorem isSome_gridPoint? (tie : Tie) {value : Binary} {place : Int}
    (h : (scales value place).2 < 2 * (scales value place).1) :
    (gridPoint? tie value place).isSome = true := by
  have habove := roundsTo_above h
  simp only [gridPoint?]
  split
  next _ hnone => exact absurd habove (Bool.eq_false_iff.mp hnone)
  next => rfl
  next => rfl
  next =>
    split
    · rfl
    · split
      · rfl
      · cases tie <;> rfl

theorem firstGrid_rounds {tie : Tie} {value : Binary} {fuel : Nat} {place : Int}
    (h : (gridPoint? tie value (place - fuel)).isSome = true) :
    roundsTo value (firstGrid tie value fuel place).exponent
      (firstGrid tie value fuel place).digits = true := by
  induction fuel generalizing place with
  | zero =>
      rw [Nat.cast_zero, sub_zero] at h
      obtain ⟨count, hcount⟩ := Option.isSome_iff_exists.mp h
      simp only [firstGrid, hcount, Option.getD_some]
      exact roundsTo_of_gridPoint? hcount
  | succ fuel ih =>
      rw [firstGrid]
      split
      next count hcount => exact roundsTo_of_gridPoint? hcount
      next =>
        apply ih
        rw [← h]
        congr 2
        omega

/-- A power of ten stays below the power of two that its exponent is taken from, if the two bases
are compared at exponents that are large enough. -/
theorem ten_zpow_le {twos tens : Nat} (hlow : 2 ^ twos ≤ 10 ^ tens)
    (hhigh : 10 ^ tens ≤ 2 ^ (twos + 1)) (htwos : 0 < twos) {place power : Int}
    (h : place * twos ≤ power * tens) (hpower : power ≤ twos) :
    (10 : ℚ) ^ place ≤ 2 ^ (power + 1) := by
  have hlow' : (2 : ℚ) ^ (twos : Int) ≤ 10 ^ (tens : Int) := by
    rw [zpow_natCast, zpow_natCast]
    exact_mod_cast hlow
  have hhigh' : (10 : ℚ) ^ (tens : Int) ≤ 2 ^ (twos + 1 : Int) := by
    rw [← Nat.cast_succ, zpow_natCast, zpow_natCast]
    exact_mod_cast hhigh
  have hbases : (10 : ℚ) ^ (tens * power) ≤ 2 ^ (twos * (power + 1)) := by
    rcases le_or_gt 0 power with hnonneg | hneg
    · calc (10 : ℚ) ^ (tens * power) = (10 ^ (tens : Int)) ^ power := zpow_mul _ _ _
        _ ≤ (2 ^ (twos + 1 : Int)) ^ power := zpow_le_zpow_left₀ hnonneg (by positivity) hhigh'
        _ = 2 ^ ((twos + 1) * power) := (zpow_mul _ _ _).symm
        _ ≤ 2 ^ (twos * (power + 1)) := zpow_le_zpow_right₀ one_le_two (by linarith)
    · calc (10 : ℚ) ^ (tens * power) = ((10 ^ (tens : Int)) ^ (-power))⁻¹ := by
            rw [← zpow_mul, ← zpow_neg, mul_neg, neg_neg]
        _ ≤ ((2 ^ (twos : Int)) ^ (-power))⁻¹ :=
            inv_anti₀ (by positivity) (zpow_le_zpow_left₀ (by omega) (by positivity) hlow')
        _ = 2 ^ (twos * power) := by rw [← zpow_mul, ← zpow_neg, mul_neg, neg_neg]
        _ ≤ 2 ^ (twos * (power + 1)) := zpow_le_zpow_right₀ one_le_two (by linarith)
  apply le_of_pow_le_pow_left₀ (Nat.ne_of_gt htwos) (zpow_nonneg two_pos.le _)
  calc ((10 : ℚ) ^ place) ^ twos = 10 ^ (place * twos) := by rw [← zpow_natCast, ← zpow_mul]
    _ ≤ 10 ^ (tens * power) := zpow_le_zpow_right₀ (by norm_num) (by linarith)
    _ ≤ 2 ^ (twos * (power + 1)) := hbases
    _ = (2 ^ (power + 1)) ^ twos := by rw [← zpow_natCast, ← zpow_mul, mul_comm]

structure Binary.Sound (value : Binary) : Prop where
  mantissa_lt : value.mantissa < 2 ^ 53
  le_exponent : -1074 ≤ value.exponent
  exponent_le : value.exponent ≤ 971
  le_mantissa : -1074 < value.exponent → 2 ^ 52 ≤ value.mantissa
  narrow_iff : value.narrow = true ↔ value.mantissa = 2 ^ 52 ∧ -1074 < value.exponent

theorem four_mul_two_zpow (exponent : Int) : (4 : ℚ) * 2 ^ (exponent - 2) = 2 ^ exponent := by
  rw [zpow_sub₀ two_ne_zero, mul_div_left_comm]
  norm_num

theorem ten_zpow_leadingPlace_le {value : Binary} (h : value.Sound) (hpos : 0 < value.mantissa) :
    (10 : ℚ) ^ leadingPlace value ≤ 2 ^ (53 : Int) * 2 ^ value.exponent := by
  have hlog : value.mantissa.log2 < 53 := (Nat.log2_lt hpos.ne').mpr h.mantissa_lt
  have hexponent := h.exponent_le
  simp only [leadingPlace]
  set guess := Int.fdiv ((value.mantissa.log2 + value.exponent) * 30103) 100000 with hguess
  split
  next hfits =>
    rw [← one_mul (scales value (guess + 1)).2] at hfits
    have hplace := (mul_unit_le_iff value (guess + 1) (4 * value.mantissa) 1).mp hfits
    have hmantissa : (value.mantissa : ℚ) ≤ 2 ^ (53 : Int) := by
      exact_mod_cast h.mantissa_lt.le
    calc (10 : ℚ) ^ (guess + 1) = (1 : Nat) * 10 ^ (guess + 1) := by rw [Nat.cast_one, one_mul]
      _ ≤ (4 * value.mantissa : Nat) * 2 ^ (value.exponent - 2) := hplace
      _ = value.mantissa * 2 ^ value.exponent := by
          rw [← four_mul_two_zpow value.exponent]
          push_cast
          ring
      _ ≤ 2 ^ (53 : Int) * 2 ^ value.exponent := by gcongr
  next =>
    have hplace : guess * (100000 : Nat) ≤
        (value.mantissa.log2 + value.exponent) * (30103 : Nat) := by
      rw [hguess, Int.fdiv_eq_ediv_of_nonneg _ (by decide)]
      omega
    calc (10 : ℚ) ^ guess ≤ 2 ^ (value.mantissa.log2 + value.exponent + 1) :=
          ten_zpow_le (by decide +kernel) (by decide +kernel) (by decide) hplace (by omega)
      _ ≤ 2 ^ (53 + value.exponent) := zpow_le_zpow_right₀ one_le_two (by omega)
      _ = 2 ^ (53 : Int) * 2 ^ value.exponent := zpow_add₀ two_ne_zero _ _

/-- With seventeen digits more the grid is finer than half the interval. -/
theorem scales_lt {value : Binary} (h : value.Sound) (hpos : 0 < value.mantissa) :
    (scales value (leadingPlace value - 17)).2 <
      2 * (scales value (leadingPlace value - 17)).1 := by
  have hiff := not_congr (mul_quarter_le_iff value (leadingPlace value - 17) 2 1)
  rw [not_le, not_le, one_mul] at hiff
  apply hiff.mpr
  have hplace := ten_zpow_leadingPlace_le h hpos
  have htwo : (0 : ℚ) < 2 ^ value.exponent := zpow_pos two_pos _
  calc ((1 : Nat) : ℚ) * 10 ^ (leadingPlace value - 17)
      = 10 ^ leadingPlace value / 10 ^ (17 : Int) := by
        rw [Nat.cast_one, one_mul, zpow_sub₀ (by norm_num)]
    _ ≤ 2 ^ (53 : Int) * 2 ^ value.exponent / 10 ^ (17 : Int) := by gcongr
    _ = 2 ^ (53 : Int) / 10 ^ (17 : Int) * 2 ^ value.exponent := mul_div_right_comm _ _ _
    _ < 1 / 2 * 2 ^ value.exponent := mul_lt_mul_of_pos_right (by norm_num) htwo
    _ = (2 : Nat) * 2 ^ (value.exponent - 2) := by
        rw [← four_mul_two_zpow value.exponent]
        push_cast
        ring

/-! ## Shortest digits -/

def Digits.value (decimal : Digits) : ℚ := decimal.digits * 10 ^ decimal.exponent

theorem Digits.value_trimmed (fuel : Nat) (decimal : Digits) :
    (decimal.trimmed fuel).value = decimal.value := by
  induction fuel generalizing decimal with
  | zero => rfl
  | succ fuel ih =>
      rw [trimmed]
      split
      next h =>
        have htens : decimal.digits = decimal.digits / 10 * 10 := by omega
        rw [ih, value, value]
        conv_rhs => rw [htens]
        push_cast
        rw [zpow_add_one₀ (by norm_num)]
        ring
      next => rfl

/-- Whatever ties are settled to, the digits that are found round to the value. -/
theorem rounds_shortest (tie : Tie) {value : Binary} (h : value.Sound) (hpos : 0 < value.mantissa) :
    value.Rounds (shortest tie value).value := by
  rw [shortest, if_neg hpos.ne', Digits.value_trimmed]
  exact (roundsTo_iff ..).mp (firstGrid_rounds (isSome_gridPoint? tie (scales_lt h hpos)))

namespace Binary

theorem low_pos {value : Binary} (hpos : 0 < value.mantissa) : 0 < value.low := by
  have hquarters : 0 < value.lowQuarters := by
    unfold lowQuarters
    split <;> omega
  exact mul_pos (Nat.cast_pos.mpr hquarters) (zpow_pos two_pos _)

def Before (first second : Binary) : Prop :=
  first.exponent < second.exponent ∨
    first.exponent = second.exponent ∧ first.mantissa < second.mantissa

theorem Sound.le_two_mul_lowQuarters {value : Binary} (h : value.Sound)
    (hnormal : -1074 < value.exponent) : 2 ^ 55 - 2 ≤ value.lowQuarters * 2 := by
  have hmantissa := h.le_mantissa hnormal
  unfold lowQuarters
  split
  next => omega
  next hnarrow =>
    have hne : value.mantissa ≠ 2 ^ 52 := fun heq => hnarrow (h.narrow_iff.mpr ⟨heq, hnormal⟩)
    omega

/-- In quarters of the unit of the first value, the interval of the second one begins behind the
interval of the first, or where it ends if the mantissas are not both even. -/
theorem Before.quarters_le {first second : Binary} (h : Before first second) (hfirst : first.Sound)
    (hsecond : second.Sound) :
    ∃ shift : Nat, second.exponent = first.exponent + shift ∧
      first.highQuarters ≤ second.lowQuarters * 2 ^ shift ∧
      (first.mantissa % 2 = 0 → second.mantissa % 2 = 0 →
        first.highQuarters < second.lowQuarters * 2 ^ shift) := by
  have hlt := hfirst.mantissa_lt
  rcases h with hexponent | ⟨hexponent, hmantissa⟩
  · obtain ⟨shift, hshift⟩ := Int.exists_add_of_le (Int.add_one_le_of_lt hexponent)
    have hquarters :=
      hsecond.le_two_mul_lowQuarters (lt_of_le_of_lt hfirst.le_exponent hexponent)
    have hscaled : second.lowQuarters * 2 ≤ second.lowQuarters * 2 ^ (shift + 1) :=
      Nat.mul_le_mul_left _ (Nat.le_self_pow (Nat.succ_ne_zero _) 2)
    refine ⟨shift + 1, by push_cast; omega, ?_⟩
    unfold highQuarters
    omega
  · refine ⟨0, by omega, ?_⟩
    rw [pow_zero, mul_one]
    unfold highQuarters lowQuarters
    split <;> omega

theorem Before.high_le {first second : Binary} (h : Before first second) (hfirst : first.Sound)
    (hsecond : second.Sound) : first.high ≤ second.low ∧
      (first.mantissa % 2 = 0 → second.mantissa % 2 = 0 → first.high < second.low) := by
  obtain ⟨shift, hshift, hle, hlt⟩ := h.quarters_le hfirst hsecond
  have hunit : (0 : ℚ) < 2 ^ (first.exponent - 2) := zpow_pos two_pos _
  have hlow : second.low = (second.lowQuarters * 2 ^ shift : Nat) * 2 ^ (first.exponent - 2) := by
    have hpower : second.exponent - 2 = shift + (first.exponent - 2) := by omega
    rw [low, hpower, zpow_add₀ two_ne_zero, zpow_natCast, ← mul_assoc]
    push_cast
    rfl
  rw [hlow, high]
  constructor
  · exact mul_le_mul_of_nonneg_right (Nat.cast_le.mpr hle) hunit.le
  · intro heven heven'
    exact mul_lt_mul_of_pos_right (Nat.cast_lt.mpr (hlt heven heven')) hunit

theorem Before.not_rounds {first second : Binary} (h : Before first second) (hfirst : first.Sound)
    (hsecond : second.Sound) {number : ℚ} (hrounds : first.Rounds number) :
    ¬ second.Rounds number := by
  intro hrounds'
  obtain ⟨hle, hlt⟩ := h.high_le hfirst hsecond
  rcases hrounds.ends with heven | hends
  · rcases hrounds'.ends with heven' | hends'
    · linarith [hlt heven heven', hrounds.le_high, hrounds'.low_le]
    · linarith [hrounds.le_high]
  · linarith [hrounds'.low_le]

theorem Sound.eq_of_parts {first second : Binary} (hfirst : first.Sound) (hsecond : second.Sound)
    (hmantissa : first.mantissa = second.mantissa) (hexponent : first.exponent = second.exponent) :
    first = second := by
  have hnarrow : first.narrow = second.narrow := by
    rw [Bool.eq_iff_iff, hfirst.narrow_iff, hsecond.narrow_iff, hmantissa, hexponent]
  obtain ⟨mantissa, exponent, narrow⟩ := first
  obtain ⟨mantissa', exponent', narrow'⟩ := second
  rw [show mantissa = mantissa' from hmantissa, show exponent = exponent' from hexponent,
    show narrow = narrow' from hnarrow]

theorem Sound.eq_of_rounds {first second : Binary} (hfirst : first.Sound) (hsecond : second.Sound)
    {number : ℚ} (h : first.Rounds number) (h' : second.Rounds number) : first = second := by
  by_contra hne
  have hbefore : Before first second ∨ Before second first := by
    simp only [Before]
    by_contra hnot
    exact hne (hfirst.eq_of_parts hsecond (by omega) (by omega))
  rcases hbefore with hbefore | hbefore
  · exact hbefore.not_rounds hfirst hsecond h h'
  · exact hbefore.not_rounds hsecond hfirst h' h

end Binary

theorem value_shortest_eq_zero_iff (tie : Tie) {value : Binary} (h : value.Sound) :
    (shortest tie value).value = 0 ↔ value.mantissa = 0 := by
  constructor
  · intro hzero
    by_contra hne
    have hpos := Nat.pos_of_ne_zero hne
    have hrounds := rounds_shortest tie h hpos
    rw [hzero] at hrounds
    exact absurd hrounds.low_le (not_le.mpr (Binary.low_pos hpos))
  · intro hzero
    rw [shortest, if_pos hzero, Digits.value, Nat.cast_zero, zero_mul]

/-- The shortest digits of a double tell which double they are of. -/
theorem eq_of_value_shortest_eq {tie : Tie} {first second : Binary} (hfirst : first.Sound)
    (hsecond : second.Sound) (h : (shortest tie first).value = (shortest tie second).value) :
    first = second := by
  have hzero : first.mantissa = 0 ↔ second.mantissa = 0 := by
    rw [← value_shortest_eq_zero_iff tie hfirst, h, value_shortest_eq_zero_iff tie hsecond]
  rcases Nat.eq_zero_or_pos first.mantissa with hmantissa | hpos
  · -- both have the exponent of the smallest doubles
    have hmantissa' := hzero.mp hmantissa
    have hexponent := hfirst.le_exponent
    have hexponent' := hsecond.le_exponent
    have hnormal := hfirst.le_mantissa
    have hnormal' := hsecond.le_mantissa
    exact hfirst.eq_of_parts hsecond (hmantissa.trans hmantissa'.symm) (by omega)
  · have hpos' : 0 < second.mantissa := Nat.pos_of_ne_zero fun heq => hpos.ne' (hzero.mpr heq)
    exact hfirst.eq_of_rounds hsecond (rounds_shortest tie hfirst hpos)
      (h ▸ rounds_shortest tie hsecond hpos')

/-! ## Doubles -/

open Float.Model Float.Model.UnpackedFloat in
theorem exists_magnitude?_of_isFinite {x : Float} (h : x.isFinite = true) :
    ∃ value, magnitude? x = some value := by
  have hspecial : x.toBits.toNat / 2 ^ 52 % 2 ^ 11 ≠ 2047 := by
    intro hbiased
    have hexponent : @unpackExponent .binary64 x.toBits.toBitVec = -1#11 := by
      apply BitVec.eq_of_toNat_eq
      change (x.toBits.toNat >>> 52) % 2 ^ 11 = 2047
      rw [Nat.shiftRight_eq_div_pow, hbiased]
    change (UnpackedFloat.unpack .binary64 x.toBits.toBitVec).isFinite = true at h
    simp only [UnpackedFloat.unpack] at h
    rw [if_pos hexponent] at h
    split at h <;> cases h
  simp only [magnitude?, Nat.pow_eq, if_neg hspecial]
  split <;> exact ⟨_, rfl⟩

theorem sound_of_magnitude? {x : Float} {value : Binary} (h : magnitude? x = some value) :
    value.Sound := by
  have hbits := x.toBits.toNat_lt
  simp only [magnitude?, Nat.pow_eq] at h
  split at h
  · cases h
  next hspecial =>
    split at h <;> obtain rfl := Option.some.inj h
    all_goals constructor <;> simp <;> omega

theorem eq_of_magnitude?_eq {x y : Float} {value : Binary} (hx : magnitude? x = some value)
    (hy : magnitude? y = some value) (hsign : isNegative x = isNegative y) : x = y := by
  have hbits := x.toBits.toNat_lt
  have hbits' := y.toBits.toNat_lt
  rw [Bool.eq_iff_iff, isNegative, isNegative, beq_iff_eq, beq_iff_eq, Nat.pow_eq] at hsign
  simp only [magnitude?, Nat.pow_eq] at hx hy
  rw [← Float.toBits_inj, ← UInt64.toNat_inj]
  split at hx
  · cases hx
  · split at hy
    · cases hy
    · split at hx <;> obtain rfl := Option.some.inj hx <;> split at hy <;>
        simp only [Option.some.injEq, Binary.mk.injEq] at hy <;> omega

end ScanPath.Decimal
