import ScanPath.Proofs.Binary64.Error
import ScanPath.Proofs.Leaf.Finite

/-!
# The ends of a line

The first and the last value of a line are not the ends that it was given.  They
are computed: the ends are subtracted, the distance divided into steps, the steps
multiplied and added again, and each of these results is rounded.  The first
value is the start wherever the distance is not too large for a float.  The last
value comes close to the stop, and it is the stop if neither the distance nor the
step had to be rounded.
-/

namespace ScanPath

theorem isFinite_of_beq {x y : Float} (h : (x == y) = true) (hy : y.isFinite = true) :
    x.isFinite = true := by
  rcases eq_or_zeros_of_beq h with rfl | ⟨rfl, -⟩ | ⟨rfl, -⟩
  · exact hy
  · rfl
  · rfl

theorem two_pow_mul_leastHalf (count : ℕ) :
    (2 : ℝ) ^ count * leastHalf = 2 ^ (-1075 + (count : ℤ)) := by
  have hmul := natCast_two_pow_mul count (-1075)
  rwa [Nat.cast_pow, Nat.cast_ofNat] at hmul

theorem two_pow_mul_leastHalf_le_one : (2 : ℝ) ^ 64 * leastHalf ≤ 1 := by
  rw [two_pow_mul_leastHalf]
  exact zpow_le_one_of_nonpos₀ one_le_two (by decide)

namespace Line

/-! ## Errors that add up -/

section

variable {start stop distance step count walked reached : ℝ} (hone : 1 ≤ count)
  (hmost : count ≤ 2 ^ 64) (hstep : |step - distance / count| ≤ roundOff (distance / count))

include hone hmost hstep

/-- All steps together make up the distance, but for what each of them was rounded by. -/
theorem share_error :
    |count * step - distance| ≤ |distance| / 2 ^ 53 + 2 ^ 64 * leastHalf := by
  have hpos : 0 < count := one_pos.trans_le hone
  have hsmall := mul_le_mul_of_nonneg_right hmost leastHalf_pos.le
  have hscaled : count * step - distance = count * (step - distance / count) := by
    rw [mul_sub, mul_div_cancel₀ _ hpos.ne']
  calc |count * step - distance|
      = count * |step - distance / count| := by rw [hscaled, abs_mul, abs_of_pos hpos]
    _ ≤ count * roundOff (distance / count) := mul_le_mul_of_nonneg_left hstep hpos.le
    _ = |distance| / 2 ^ 53 + count * leastHalf := by
        rw [roundOff, abs_div, abs_of_pos hpos]
        field_simp
    _ ≤ |distance| / 2 ^ 53 + 2 ^ 64 * leastHalf := by linarith

theorem accumulated_error (hdistance : |distance - (stop - start)| ≤ roundOff (stop - start))
    (hwalked : |walked - count * step| ≤ roundOff (count * step))
    (hreached : |reached - (start + walked)| ≤ roundOff (start + walked)) :
    |reached - stop| ≤ |stop| / 2 ^ 53 + |stop - start| / 2 ^ 51 + 2 ^ 66 * leastHalf := by
  have hshare := share_error hone hmost hstep
  have hsmall := leastHalf_pos
  have hdistance' : |distance| ≤ |stop - start| + |distance - (stop - start)| := by
    linarith [abs_sub_abs_le_abs_sub distance (stop - start)]
  have hproduct : |count * step| ≤ |distance| + |count * step - distance| := by
    linarith [abs_sub_abs_le_abs_sub (count * step) distance]
  have hoff : |walked - (stop - start)| ≤
      |walked - count * step| + |count * step - distance| + |distance - (stop - start)| := by
    linarith [abs_sub_le walked (count * step) (stop - start),
      abs_sub_le (count * step) distance (stop - start)]
  have hsum : start + walked - stop = walked - (stop - start) := by ring
  have hend : |start + walked| ≤ |stop| + |walked - (stop - start)| := by
    rw [← hsum]
    linarith [abs_sub_abs_le_abs_sub (start + walked) stop]
  have htotal : |reached - stop| ≤
      |reached - (start + walked)| + |walked - (stop - start)| := by
    rw [← hsum]
    exact abs_sub_le _ _ _
  have hsize := abs_nonneg (stop - start)
  unfold roundOff at hdistance hwalked hreached
  linarith

end

def valueBetween (numPoints : ℕ) (start stop : Float) (index : ℕ) : Float :=
  start + countToFloat index * stepBetween numPoints start stop

theorem valuesAt_of_lt (line : Line) {index : ℕ} (h : index < line.numPoints) :
    line.valuesAt index = some (List.zipWith
      (fun start stop => valueBetween line.numPoints start stop index) line.start line.stop) := by
  rw [valuesAt, if_pos h, steps]
  congr 1
  apply List.ext_getElem?
  intro slot
  simp only [List.getElem?_zipWith]
  cases line.start[slot]? <;> cases line.stop[slot]? <;> rfl

section

variable {numPoints : ℕ} {start stop : Float} (hstart : start.isFinite = true)
  (hstop : stop.isFinite = true) (hpoints : 2 ≤ numPoints) (hlimit : numPoints < countLimit)

include hpoints

theorem isFinite_distance (h : (stepBetween numPoints start stop).isFinite = true) :
    (stop - start).isFinite = true := by
  rw [stepBetween, if_pos (by omega)] at h
  exact isFinite_of_isFinite_div h

include hlimit

theorem count_bounds : (countToFloat (numPoints - 1)).isFinite = true ∧
    (1 : ℝ) ≤ exact (countToFloat (numPoints - 1)) ∧
      (exact (countToFloat (numPoints - 1)) : ℝ) ≤ 2 ^ 64 := by
  have hcount := within_toFloat (numPoints - 1).toUInt64
  have hone := one_le_exact_countToFloat (show 0 < numPoints - 1 by omega) (by omega)
  exact ⟨hcount.isFinite, by exact_mod_cast hone, (le_abs_self _).trans hcount.abs_le⟩

/-- A step is a share of the distance, so it is not too large if the distance is not. -/
theorem rounded_step (hdistance : (stop - start).isFinite = true) :
    (stepBetween numPoints start stop).isFinite = true ∧
      Rounded (stepBetween numPoints start stop)
        (exact (stop - start) / exact (countToFloat (numPoints - 1))) := by
  obtain ⟨hcount, hone, -⟩ := count_bounds hpoints hlimit
  have hne : exact (countToFloat (numPoints - 1)) ≠ 0 := by
    intro hzero
    rw [hzero, Rat.cast_zero] at hone
    linarith
  have hstep := rounded_div hdistance hcount hne
  rw [stepBetween, if_pos (by omega)]
  refine ⟨(hstep.le (rounded_self hdistance) ?_ hdistance).1, hstep⟩
  rw [abs_div]
  exact div_le_self (abs_nonneg _) (hone.trans (le_abs_self _))

include hstart

theorem first_beq_iff :
    (valueBetween numPoints start stop 0 == start) = true ↔ (stop - start).isFinite = true := by
  constructor
  · intro h
    obtain ⟨-, hproduct⟩ := isFinite_of_isFinite_add (isFinite_of_beq h hstart)
    exact isFinite_distance hpoints (isFinite_of_isFinite_mul hproduct).2
  · intro hdistance
    obtain ⟨hstep, -⟩ := rounded_step hpoints hlimit hdistance
    have hnone : exact (countToFloat 0) = 0 := rfl
    have hproduct := rounded_mul (x := countToFloat 0) rfl hstep
    rw [hnone, Rat.cast_zero, zero_mul, ← Rat.cast_zero (α := ℝ), ← hnone] at hproduct
    obtain ⟨hwalked, hzero⟩ := hproduct.exact_eq (rounded_self rfl) rfl
    have hsum := rounded_add hstart hwalked
    rw [hzero, hnone, Rat.cast_zero, add_zero] at hsum
    obtain ⟨hfirst, hexact⟩ := hsum.exact_eq (rounded_self hstart) hstart
    exact beq_of_exact_eq hfirst hstart hexact

include hstop

theorem last_error (h : (valueBetween numPoints start stop (numPoints - 1)).isFinite = true) :
    |(exact (valueBetween numPoints start stop (numPoints - 1)) - exact stop : ℝ)| ≤
      |(exact stop : ℝ)| / 2 ^ 53 + |(exact stop - exact start : ℝ)| / 2 ^ 51 +
        2 ^ 66 * leastHalf := by
  obtain ⟨-, hproduct⟩ := isFinite_of_isFinite_add h
  obtain ⟨hcount, hstep⟩ := isFinite_of_isFinite_mul hproduct
  have hdistance := isFinite_distance hpoints hstep
  obtain ⟨-, hone, hmost⟩ := count_bounds hpoints hlimit
  exact accumulated_error hone hmost
    ((rounded_step hpoints hlimit hdistance).2.abs_sub_le hstep)
    ((rounded_sub hstop hstart).abs_sub_le hdistance)
    ((rounded_mul hcount hstep).abs_sub_le hproduct)
    ((rounded_add hstart hproduct).abs_sub_le h)

/-- Without a rounding on the way the rest is exact as well: the distance is a float, and so is the
stop. -/
theorem last_beq (hdistance : (stop - start).isFinite = true)
    (hexact : exact (stop - start) = exact stop - exact start)
    (hshare : exact (countToFloat (numPoints - 1)) * exact (stepBetween numPoints start stop) =
      exact (stop - start)) :
    (valueBetween numPoints start stop (numPoints - 1) == stop) = true := by
  obtain ⟨hcount, -⟩ := count_bounds hpoints hlimit
  obtain ⟨hstep, -⟩ := rounded_step hpoints hlimit hdistance
  have hproduct := rounded_mul hcount hstep
  rw [← Rat.cast_mul, hshare] at hproduct
  obtain ⟨hwalked, hwalked'⟩ := hproduct.exact_eq (rounded_self hdistance) hdistance
  have hsum := rounded_add hstart hwalked
  rw [hwalked', hexact, ← Rat.cast_add, add_sub_cancel] at hsum
  obtain ⟨hlast, hlast'⟩ := hsum.exact_eq (rounded_self hstop) hstop
  exact beq_of_exact_eq hlast hstop hlast'

omit hstart hstop in
theorem last_finite (hstart : Within start 1020) (hstop : Within stop 1020) :
    (stop - start).isFinite = true ∧
      (valueBetween numPoints start stop (numPoints - 1)).isFinite = true := by
  have hdistance : Within (stop - start) 1021 := by
    apply (rounded_sub hstop.isFinite hstart.isFinite).within _ (by decide)
    rw [pow_succ, mul_two]
    exact (abs_sub _ _).trans (add_le_add hstop.abs_le hstart.abs_le)
  refine ⟨hdistance.isFinite, ?_⟩
  obtain ⟨hcount, hone, hmost⟩ := count_bounds hpoints hlimit
  obtain ⟨hstep, hquotient⟩ := rounded_step hpoints hlimit hdistance.isFinite
  have hshare := share_error hone hmost (hquotient.abs_sub_le hstep)
  have hlarge : (2 : ℝ) ≤ 2 ^ 1021 := le_self_pow₀ one_le_two (by decide)
  have hwalked : Within (countToFloat (numPoints - 1) * stepBetween numPoints start stop) 1022 := by
    apply (rounded_mul hcount hstep).within _ (by decide)
    have hproduct := abs_sub_abs_le_abs_sub
      (exact (countToFloat (numPoints - 1)) * exact (stepBetween numPoints start stop) : ℝ)
      (exact (stop - start))
    have hsize := hdistance.abs_le
    rw [pow_succ]
    generalize (2 : ℝ) ^ 1021 = large at hlarge hsize ⊢
    linarith [two_pow_mul_leastHalf_le_one]
  exact ((hstart.mono (show 1020 ≤ 1022 by decide)).add hwalked (by decide)).isFinite

end

/-! ## Both ends -/

/-- How the first and the last value of an axis stand to the ends that the axis was given. -/
structure Ends (numPoints : ℕ) (start stop first last : Float) : Prop where
  first_iff : (first == start) = true ↔ (stop - start).isFinite = true
  last_only : (last == stop) = true → (stop - start).isFinite = true
  last_close : last.isFinite = true →
    |(exact last - exact stop : ℝ)| ≤
      |(exact stop : ℝ)| / 2 ^ 53 + |(exact stop - exact start : ℝ)| / 2 ^ 51 + 2 ^ (-1009 : ℤ)
  last_eq : (stop - start).isFinite = true → exact (stop - start) = exact stop - exact start →
    exact (countToFloat (numPoints - 1)) * exact (stepBetween numPoints start stop) =
      exact (stop - start) → (last == stop) = true
  finite : Within start 1020 → Within stop 1020 →
    (stop - start).isFinite = true ∧ last.isFinite = true

theorem ends_valueBetween {numPoints : ℕ} {start stop : Float} (hstart : start.isFinite = true)
    (hstop : stop.isFinite = true) (hpoints : 2 ≤ numPoints) (hlimit : numPoints < countLimit) :
    Ends numPoints start stop (valueBetween numPoints start stop 0)
      (valueBetween numPoints start stop (numPoints - 1)) where
  first_iff := first_beq_iff hstart hpoints hlimit
  last_only h := by
    obtain ⟨-, hproduct⟩ := isFinite_of_isFinite_add (isFinite_of_beq h hstop)
    exact isFinite_distance hpoints (isFinite_of_isFinite_mul hproduct).2
  last_close h := by
    have herror := last_error hstart hstop hpoints hlimit h
    rwa [two_pow_mul_leastHalf] at herror
  last_eq := last_beq hstart hstop hpoints hlimit
  finite := last_finite hpoints hlimit

/-- A line of two points or more has values at both ends of its range.  On every axis the first of
them is the start, unless the distance from the start to the stop is too large for a float.  The
last one is close to the stop if it is finite, and it is the stop if neither the distance nor the
step was rounded.  Ends that are far from the largest float do not make anything too large. -/
theorem build_ends {line : Line} {leaf : Leaf} (h : line.build = .ok leaf)
    (hpoints : 2 ≤ line.numPoints) (hlimit : line.numPoints < countLimit) :
    ∃ first last, leaf.valuesAt 0 = some first ∧
      leaf.valuesAt (line.numPoints - 1) = some last ∧
      first.length = line.axes.length ∧ last.length = line.axes.length ∧
      ∀ slot < line.axes.length, ∃ start stop x y, line.start[slot]? = some start ∧
        line.stop[slot]? = some stop ∧ first[slot]? = some x ∧ last[slot]? = some y ∧
        Ends line.numPoints start stop x y := by
  obtain ⟨hcheck, rfl⟩ := Checked.return_eq_ok.mp h
  have hfinite := finite_of_check hcheck
  simp only [check, Checked.seq_eq_ok] at hcheck
  obtain ⟨-, -, hstart, hstop, -⟩ := hcheck
  have hstart := Leaf.requireLength_eq_ok hstart
  have hstop := Leaf.requireLength_eq_ok hstop
  refine ⟨_, _, line.valuesAt_of_lt (by omega), line.valuesAt_of_lt (by omega), ?_, ?_, ?_⟩
  · simp [← hstart, ← hstop]
  · simp [← hstart, ← hstop]
  · intro slot hslot
    have hslot' : slot < line.start.length := hstart ▸ hslot
    have hslot'' : slot < line.stop.length := hstop ▸ hslot
    refine ⟨line.start[slot], line.stop[slot], _, _, List.getElem?_eq_getElem hslot',
      List.getElem?_eq_getElem hslot'', ?_, ?_,
      ends_valueBetween (hfinite.start _ (List.getElem_mem hslot'))
        (hfinite.stop _ (List.getElem_mem hslot'')) hpoints hlimit⟩
    · simp [hslot', hslot'']
    · simp [hslot', hslot'']

def quarters : Line := .single "x" "mm" 0.0 1.0 5

theorem build_ends_quarters :
    ∃ leaf x y, quarters.build = .ok leaf ∧ leaf.valuesAt 0 = some [x] ∧
      leaf.valuesAt 4 = some [y] ∧ (x == 0.0) = true ∧ (y == 1.0) = true := by
  obtain ⟨leaf, hbuild⟩ := Checked.exists_eq_ok (show quarters.build.isOk = true by decide +kernel)
  obtain ⟨first, last, hfirst, hlast, hwidth, hwidth', hends⟩ :=
    build_ends hbuild (by decide) (by decide)
  obtain ⟨start, stop, x, y, hstart, hstop, hx, hy, hboth⟩ := hends 0 (by decide)
  cases hstart
  cases hstop
  obtain ⟨x', rfl⟩ := List.length_eq_one_iff.mp hwidth
  obtain ⟨y', rfl⟩ := List.length_eq_one_iff.mp hwidth'
  cases hx
  cases hy
  refine ⟨leaf, x, y, hbuild, hfirst, hlast, hboth.first_iff.mpr (by decide +kernel), ?_⟩
  exact hboth.last_eq (by decide +kernel) (by decide +kernel) (by decide +kernel)

def tenths : Line := .single "x" "mm" 0.0 0.9 4

/-- Three steps of three tenths miss nine tenths. -/
theorem tenths_misses_stop :
    ∃ y, tenths.build = .ok tenths.leaf ∧ tenths.leaf.valuesAt 3 = some [y] ∧
      (y == 0.9) = false := by
  obtain ⟨⟨⟩, hcheck⟩ := Checked.exists_eq_ok (show tenths.check.isOk = true by decide +kernel)
  exact ⟨_, Checked.return_eq_ok.mpr ⟨hcheck, rfl⟩, rfl, by decide +kernel⟩

end Line

end ScanPath
