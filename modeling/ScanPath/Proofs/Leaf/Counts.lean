import ScanPath.Proofs.Binary64.Order
import ScanPath.Proofs.Leaf.Finite

/-!
# Counts in 64 bits

Sums and differences of counts wrap around where they leave the 64 bits of a
count.  Here an operation on counts has a result only if nothing wraps, and what
a leaf keeps for all of its points and what a pass gives out are computed once
more with these operations; the values at an index take no further arithmetic on
counts.  A line, a list and a spiral come out as they are built, and so does
every pass, since an index that is given out is below a size that is a count
itself.  A curve does unless it has as many lobes as a count can hold: its
second frequency is zero then.
-/

namespace ScanPath

namespace Count

def add? (first second : UInt64) : Option UInt64 :=
  if first.toNat + second.toNat < countLimit then some (first + second) else none

def sub? (first second : UInt64) : Option UInt64 :=
  if second.toNat ≤ first.toNat then some (first - second) else none

def ofFloat? (x : Float) : Option UInt64 :=
  if x.isFinite ∧ 0 ≤ exact x ∧ exact x < countLimit then some x.toUInt64 else none

theorem add?_eq_some_iff {first second sum : UInt64} :
    add? first second = some sum ↔ first.toNat + second.toNat = sum.toNat := by
  unfold add?
  split
  next hlt =>
    have hsum : (first + second).toNat = first.toNat + second.toNat := Nat.mod_eq_of_lt hlt
    rw [Option.some.injEq, ← UInt64.toNat_inj, hsum]
  next hge =>
    simp only [reduceCtorEq, false_iff]
    exact fun heq => hge (heq ▸ sum.toNat_lt)

theorem add?_eq_none_iff {first second : UInt64} :
    add? first second = none ↔ countLimit ≤ first.toNat + second.toNat := by
  unfold add?
  split
  next hlt => simp [Nat.not_le.mpr hlt]
  next hge => simp [Nat.not_lt.mp hge]

theorem add?_one {count : UInt64} (h : count.toNat + 1 < countLimit) :
    add? count 1 = some (count + 1) ∧ (count + 1).toNat = count.toNat + 1 := by
  have hnext : (count + 1).toNat = count.toNat + 1 := Nat.mod_eq_of_lt h
  exact ⟨add?_eq_some_iff.mpr hnext.symm, hnext⟩

theorem sub?_eq_some_iff {first second difference : UInt64} :
    sub? first second = some difference ↔ difference.toNat + second.toNat = first.toNat := by
  unfold sub?
  split
  next hle =>
    rw [Option.some.injEq, ← UInt64.toNat_inj, UInt64.toNat_sub_of_le _ _ hle]
    omega
  next hgt =>
    simp only [reduceCtorEq, false_iff]
    omega

theorem ofFloat?_eq_some {x : Float} (h : x.isFinite = true) (hlow : 0 ≤ exact x)
    (hhigh : exact x < countLimit) :
    ofFloat? x = some x.toUInt64 ∧ x.toUInt64.toNat = ⌊exact x⌋₊ := by
  refine ⟨if_pos ⟨h, hlow, hhigh⟩, ?_⟩
  rw [toNat_toUInt64 h]
  exact min_eq_left (Nat.le_sub_one_of_lt ((Nat.floor_lt hlow).mpr hhigh))

end Count

/-! ## Lines -/

namespace Line

def countedStep? (numPoints : UInt64) (start stop : Float) : Option Float :=
  if 1 < numPoints then
    (Count.sub? numPoints 1).map fun gaps => (stop - start) / gaps.toFloat
  else some 0.0

def countedSteps? (line : Line) : Option (List Float) :=
  (line.start.zip line.stop).mapM fun ends => countedStep? line.numPoints.toUInt64 ends.1 ends.2

theorem counted_gaps {numPoints : ℕ} (hpos : 0 < numPoints) (h : numPoints < countLimit) :
    Count.sub? numPoints.toUInt64 1 = some (numPoints - 1).toUInt64 := by
  rw [Count.sub?_eq_some_iff, toNat_toUInt64_of_lt h, toNat_toUInt64_of_lt (by omega)]
  exact Nat.sub_add_cancel hpos

theorem countedStep?_eq {numPoints : ℕ} (h : numPoints < countLimit) (start stop : Float) :
    countedStep? numPoints.toUInt64 start stop = some (stepBetween numPoints start stop) := by
  have hmany : 1 < numPoints.toUInt64 ↔ 1 < numPoints := by
    rw [UInt64.lt_iff_toNat_lt, toNat_toUInt64_of_lt h]
    rfl
  unfold countedStep? stepBetween
  rw [if_congr hmany rfl rfl]
  split
  next hmore =>
    rw [counted_gaps (Nat.zero_lt_of_lt hmore) h]
    rfl
  next => rfl

theorem countedSteps?_eq {line : Line} (h : line.numPoints < countLimit) :
    line.countedSteps? = some line.steps := by
  unfold countedSteps? steps
  rw [← List.map_uncurry_zip_eq_zipWith]
  simp only [countedStep?_eq h]
  exact List.mapM_pure

end Line

/-! ## Spirals -/

namespace Spiral

theorem exact_tooLarge : exact 18446744073709551616.0 = countLimit := by decide +kernel

/-- No point is lost when the points are counted: they are as many as a count can hold. -/
theorem size_counted {spiral : Spiral} (h : spiral.check = .ok ()) :
    Count.ofFloat? spiral.points = some spiral.points.toUInt64 ∧
      spiral.size = ⌊exact spiral.points⌋₊ := by
  simp only [check, Checked.seq_eq_ok] at h
  obtain ⟨-, -, -, -, -, -, hsize⟩ := h
  split at hsize
  next => cases hsize
  next hrange =>
    simp only [Bool.or_eq_true, Bool.not_eq_true', decide_eq_true_eq, not_or,
      Bool.not_eq_false] at hrange
    obtain ⟨hfinite, hsmall⟩ := hrange
    have hhigh : exact spiral.points < countLimit :=
      exact_tooLarge ▸ exact_lt_exact hfinite rfl (lt_of_not_le_of_isFinite hfinite rfl hsmall)
    split at hsize
    next => cases hsize
    next hsome =>
      -- a negative number of points would have been counted as none
      have hlow : 0 ≤ exact spiral.points := by
        by_contra hnegative
        apply hsome
        rw [size, toNat_toUInt64 hfinite, Nat.floor_of_nonpos (not_le.mp hnegative).le,
          Nat.zero_min]
      exact Count.ofFloat?_eq_some hfinite hlow hhigh

end Spiral

/-! ## Lissajous curves -/

namespace Lissajous

def countedFrequency? (curve : Lissajous) : Option Float :=
  (Count.add? curve.numLobes.toUInt64 1).map UInt64.toFloat

theorem yFrequency_eq (curve : Lissajous) :
    curve.yFrequency = countToFloat (curve.numLobes + 1) :=
  congrArg UInt64.toFloat (UInt64.ofNat_add curve.numLobes 1).symm

theorem countedFrequency?_eq_some {curve : Lissajous} (h : curve.numLobes + 1 < countLimit) :
    curve.countedFrequency? = some curve.yFrequency := by
  have hlobes : curve.numLobes.toUInt64.toNat + 1 < countLimit := by
    rwa [toNat_toUInt64_of_lt (by omega)]
  rw [countedFrequency?, (Count.add?_one hlobes).1]
  rfl

theorem countedFrequency?_eq_none {curve : Lissajous} (h : curve.numLobes + 1 = countLimit) :
    curve.countedFrequency? = none := by
  have hnext : Count.add? curve.numLobes.toUInt64 1 = none := by
    rw [Count.add?_eq_none_iff, toNat_toUInt64_of_lt (by omega)]
    exact h.ge
  rw [countedFrequency?, hnext]
  rfl

theorem yFrequency_wrapped {curve : Lissajous} (h : curve.numLobes + 1 = countLimit) :
    curve.yFrequency = 0.0 := by
  rw [yFrequency_eq, h]
  rfl

/-- Wrapped around, the frequency is not even near to the number of lobes and one. -/
theorem rounded_yFrequency_iff {curve : Lissajous} (h : curve.numLobes < countLimit) :
    Rounded curve.yFrequency (curve.numLobes + 1 : ℕ) ↔ curve.numLobes + 1 < countLimit := by
  constructor
  · intro hrounded
    by_contra hwrapped
    have hzero : curve.yFrequency = 0.0 := yFrequency_wrapped (by omega)
    rw [hzero] at hrounded
    have hone : Rounded (countToFloat 1) (1 : ℕ) := rounded_countToFloat (by decide)
    have hle : |((1 : ℕ) : ℝ)| ≤ |((curve.numLobes + 1 : ℕ) : ℝ)| := by
      rw [Nat.abs_cast, Nat.abs_cast]
      exact Nat.cast_le.mpr (Nat.succ_le_succ (Nat.zero_le _))
    have hsize := (hone.le hrounded hle rfl).2
    have hlarge := (one_le_exact_countToFloat one_pos (by decide)).trans (le_abs_self _)
    exact absurd (hlarge.trans hsize) (by decide)
  · intro hlt
    rw [yFrequency_eq]
    exact rounded_countToFloat hlt

end Lissajous

namespace LeafPass

def countedTake? (leaf : Leaf) : ℕ → UInt64 → Option (List Position × UInt64)
  | 0, next => some ([], next)
  | count + 1, next =>
      match (LeafPass.mk leaf next.toNat).step? with
      | none => some ([], next)
      | some (position, _) => do
          let after ← Count.add? next 1
          let (positions, last) ← countedTake? leaf count after
          return (position :: positions, last)

section

variable {leaf : Leaf} (hsound : leaf.Sound) (hlimit : leaf.size < countLimit)

include hsound hlimit

theorem countedTake?_eq (count : ℕ) (next : UInt64) :
    ∃ last, countedTake? leaf count next = some ((take count ⟨leaf, next.toNat⟩).1, last) ∧
      (take count ⟨leaf, next.toNat⟩).2 = ⟨leaf, last.toNat⟩ := by
  induction count generalizing next with
  | zero => exact ⟨next, rfl, rfl⟩
  | succ count ih =>
      rcases Nat.lt_or_ge next.toNat leaf.size with hnext | hend
      · obtain ⟨position, hstep, -⟩ := step?_of_lt ⟨leaf, next.toNat⟩ hsound hnext
        -- an index below the size is followed by another count
        obtain ⟨hadd, hvalue⟩ := Count.add?_one (Nat.lt_of_le_of_lt hnext hlimit)
        obtain ⟨last, htake, hlater⟩ := ih (next + 1)
        rw [hvalue] at htake hlater
        refine ⟨last, ?_, ?_⟩
        · simp only [countedTake?, take, hstep, hadd, Option.bind_eq_bind, Option.bind_some, htake]
          rfl
        · simp only [take, hstep, hlater]
      · have hnone := step?_of_le ⟨leaf, next.toNat⟩ hsound hend
        exact ⟨next, by simp only [countedTake?, take, hnone], by simp only [take, hnone]⟩

theorem remaining_counted {count : ℕ} {next : UInt64}
    (h : ((start leaf).take count).2 = ⟨leaf, next.toNat⟩) :
    Count.sub? leaf.size.toUInt64 next =
      some ((start leaf).take count).2.remaining.toUInt64 := by
  obtain ⟨-, hlater, -⟩ := take_carries count (start leaf) hsound
  have hle : next.toNat ≤ leaf.size := by
    rw [h] at hlater
    have hnext : next.toNat = 0 + min count (leaf.size - 0) := congrArg LeafPass.next hlater
    omega
  have hless : leaf.size - next.toNat < countLimit := Nat.lt_of_le_of_lt (Nat.sub_le _ _) hlimit
  rw [h, Count.sub?_eq_some_iff, toNat_toUInt64_of_lt hlimit]
  exact (congrArg (· + next.toNat) (toNat_toUInt64_of_lt hless)).trans
    (Nat.sub_add_cancel hle)

end

end LeafPass

/-! ## Leaves that are built -/

namespace LeafConfig

/-- The size of a leaf, and the floats that are computed once for all of its points. -/
structure Derived where
  size : ℕ
  floats : List Float

def derived : LeafConfig → Derived
  | .line parameters => ⟨parameters.numPoints, parameters.steps⟩
  | .listed parameters => ⟨parameters.points.length, []⟩
  | .spiral parameters => ⟨parameters.size, [Spiral.alpha, parameters.beta]⟩
  | .lissajous parameters =>
      ⟨parameters.numPoints,
        [parameters.xFrequency, parameters.yFrequency, parameters.increment]⟩

/-- The same with all counts in range. -/
def counted? : LeafConfig → Option Derived
  | .line parameters => parameters.countedSteps?.map (.mk parameters.numPoints)
  | .listed parameters => some ⟨parameters.points.length, []⟩
  | .spiral parameters =>
      (Count.ofFloat? parameters.points).map fun size =>
        ⟨size.toNat, [Spiral.alpha, parameters.beta]⟩
  | .lissajous parameters =>
      parameters.countedFrequency?.map fun frequency =>
        ⟨parameters.numPoints, [parameters.xFrequency, frequency, parameters.increment]⟩

/-- The counts among the parameters have 64 bits. -/
def CountsFit : LeafConfig → Prop
  | .line parameters => parameters.numPoints < countLimit
  | .listed parameters => parameters.points.length < countLimit
  | .spiral _ => True
  | .lissajous parameters =>
      parameters.numLobes < countLimit ∧ parameters.numPoints < countLimit

/-- A curve with as many lobes as a count can hold. -/
def Wraps : LeafConfig → Prop
  | .lissajous parameters => parameters.numLobes + 1 = countLimit
  | .line _ | .listed _ | .spiral _ => False

variable {config : LeafConfig} {leaf : Leaf}

theorem size_derived (hbuild : config.build = .ok leaf) : config.derived.size = leaf.size := by
  cases config <;> obtain ⟨-, rfl⟩ := Checked.return_eq_ok.mp hbuild <;> rfl

theorem size_lt_countLimit (hbuild : config.build = .ok leaf) (hfits : config.CountsFit) :
    leaf.size < countLimit := by
  rw [← size_derived hbuild]
  cases config with
  | line parameters => exact hfits
  | listed parameters => exact hfits
  | spiral parameters => exact parameters.points.toUInt64.toNat_lt
  | lissajous parameters => exact hfits.2

theorem counted?_eq (hbuild : config.build = .ok leaf) (hfits : config.CountsFit) :
    (¬ config.Wraps → config.counted? = some config.derived) ∧
      (config.Wraps → config.counted? = none) := by
  cases config with
  | line parameters =>
      refine ⟨fun _ => ?_, False.elim⟩
      rw [counted?, parameters.countedSteps?_eq hfits]
      rfl
  | listed parameters => exact ⟨fun _ => rfl, False.elim⟩
  | spiral parameters =>
      obtain ⟨hcheck, -⟩ := Checked.return_eq_ok.mp hbuild
      refine ⟨fun _ => ?_, False.elim⟩
      rw [counted?, (Spiral.size_counted hcheck).1]
      rfl
  | lissajous parameters =>
      constructor
      · intro hrange
        have hlt : parameters.numLobes + 1 < countLimit :=
          Nat.lt_of_le_of_ne hfits.1 hrange
        rw [counted?, Lissajous.countedFrequency?_eq_some hlt]
        rfl
      · intro hwraps
        rw [counted?, Lissajous.countedFrequency?_eq_none hwraps]
        rfl

/-- Nothing that is counted while a leaf is built wraps around, but for a curve with as many lobes
as a count can hold: its second frequency is zero, and with any other number of lobes it is that
number and one more, rounded.  The gaps of a line are one less than its points, and the size of a
spiral is the whole part of the number of its points.  Over a leaf that was built, the index of a
pass and what is left of it never leave the counts. -/
theorem build_counted (hbuild : config.build = .ok leaf) (hfits : config.CountsFit) :
    (¬ config.Wraps → config.counted? = some config.derived) ∧
      (config.Wraps → config.counted? = none) ∧
      (∀ curve, config = .lissajous curve →
        (Rounded curve.yFrequency (curve.numLobes + 1 : ℕ) ↔ ¬ config.Wraps) ∧
          (config.Wraps → curve.yFrequency = 0.0)) ∧
      (∀ line, config = .line line →
        Count.sub? line.numPoints.toUInt64 1 = some (line.numPoints - 1).toUInt64) ∧
      (∀ spiral, config = .spiral spiral → spiral.size = ⌊exact spiral.points⌋₊) ∧
      ∀ count : ℕ,
        let given := ((LeafPass.start leaf).take count).1
        let later := ((LeafPass.start leaf).take count).2
        ∃ next, LeafPass.countedTake? leaf count 0 = some (given, next) ∧
          next.toNat = later.next ∧
          Count.sub? leaf.size.toUInt64 next = some later.remaining.toUInt64 := by
  have hlimit := size_lt_countLimit hbuild hfits
  have hsound := build_sound hbuild
  obtain ⟨hkept, hwrapped⟩ := counted?_eq hbuild hfits
  refine ⟨hkept, hwrapped, ?_, ?_, ?_, ?_⟩
  · rintro curve rfl
    have hnext : curve.numLobes + 1 < countLimit ↔ ¬ (lissajous curve).Wraps :=
      Nat.lt_iff_le_and_ne.trans (and_iff_right hfits.1)
    exact ⟨(Lissajous.rounded_yFrequency_iff hfits.1).trans hnext, Lissajous.yFrequency_wrapped⟩
  · rintro line rfl
    have hpos : 0 < line.numPoints := hsound.size_pos.trans_eq (size_derived hbuild).symm
    exact Line.counted_gaps hpos hfits
  · rintro spiral rfl
    obtain ⟨hcheck, -⟩ := Checked.return_eq_ok.mp hbuild
    exact (Spiral.size_counted hcheck).2
  · intro count given later
    obtain ⟨next, htake, hlater⟩ := LeafPass.countedTake?_eq hsound hlimit count 0
    exact ⟨next, htake, (congrArg LeafPass.next hlater).symm,
      LeafPass.remaining_counted hsound hlimit hlater⟩

theorem build_counted_figureEight :
    ∃ leaf, figureEight.build = .ok leaf ∧ figureEight.counted? = some figureEight.derived ∧
      ∃ next, LeafPass.countedTake? leaf 7 0 = some (((LeafPass.start leaf).take 7).1, next) ∧
        next.toNat = 5 := by
  have hbuild : figureEight.build = .ok (Lissajous.leaf _) := rfl
  have hrange : ¬ figureEight.Wraps := show 1 + 1 ≠ countLimit by decide
  obtain ⟨hkept, -, -, -, -, hpass⟩ := build_counted hbuild ⟨by decide, by decide⟩
  obtain ⟨next, htake, hnext, -⟩ := hpass 7
  refine ⟨_, hbuild, hkept hrange, next, htake, ?_⟩
  rw [hnext, (LeafPass.take_carries 7 _ (build_sound hbuild)).2.1]
  rfl

def mostLobes : Lissajous :=
  ⟨["x", "y"], ["mm", "mm"], ⟨(0.0, 0.0), 2.0, 2.0⟩, 18446744073709551615, 4⟩

/-- One lobe more wraps around to none, and the second frequency is zero. -/
theorem not_counted_mostLobes :
    (lissajous mostLobes).build = .ok mostLobes.leaf ∧ (lissajous mostLobes).counted? = none ∧
      mostLobes.yFrequency = 0.0 ∧
      ¬ Rounded mostLobes.yFrequency (mostLobes.numLobes + 1 : ℕ) := by
  have hwraps : mostLobes.numLobes + 1 = countLimit := rfl
  refine ⟨rfl, ?_, Lissajous.yFrequency_wrapped hwraps, ?_⟩
  · rw [counted?, Lissajous.countedFrequency?_eq_none hwraps]
    rfl
  · rw [Lissajous.rounded_yFrequency_iff (by decide), hwraps]
    exact lt_irrefl _

end LeafConfig

end ScanPath
