import ScanPath.Excluder
import ScanPath.Proofs.Binary64.Undefined
import ScanPath.Proofs.Checked
import ScanPath.Proofs.Trigonometry

/-!
# Undefined positions

A position with a coordinate that is not a number lies in no region, as long as
the region accepts by comparisons.  A sector refuses by comparisons: its two
radii do not keep the position out, and only the comparison of its angles does.
A sector that goes all the way round does not look at the angle, so it is the
one region that keeps undefined positions.
-/

namespace ScanPath

/-- The angle of a vector is no number where one of its coordinates is none. -/
def Trigonometry.StrictAngle [Trigonometry] : Prop :=
  ∀ y x : Float, y.isNaN = true ∨ x.isNaN = true → (atan2 y x).isNaN = true

namespace Trigonometry

@[reducible] def strictWave : Trigonometry :=
  { squareWave with
    atan2 := fun y x => if y.isNaN || x.isNaN then 0.0 / 0.0 else squareWave.atan2 y x }

theorem strictWave_strictAngle : @StrictAngle strictWave := by
  intro y x h
  have hundefined : (0.0 / 0.0 : Float).isNaN = true := by decide
  change (if y.isNaN || x.isNaN then 0.0 / 0.0 else squareWave.atan2 y x).isNaN = true
  rw [if_pos (Bool.or_eq_true .. ▸ h)]
  exact hundefined

end Trigonometry

namespace Region

def FullTurn : Region → Prop
  | .sector _ _ angles => turn ≤ angles.2 - angles.1
  | _ => False

section

variable {x y : Float} (h : x.isNaN = true ∨ y.isNaN = true)

include h

theorem isNaN_offset (origin : Float × Float) :
    (x - origin.1).isNaN = true ∨ (y - origin.2).isNaN = true :=
  h.imp (fun hx => isNaN_sub (.inl hx)) fun hy => isNaN_sub (.inl hy)

theorem isNaN_sum_squares : (x * x + y * y).isNaN = true :=
  isNaN_add (h.imp (fun hx => isNaN_mul (.inl hx)) fun hy => isNaN_mul (.inl hy))

theorem crossingParity_of_isNaN (previous : Float × Float) (vertices : List (Float × Float)) :
    crossingParity x y previous vertices = false := by
  have hcrosses : ∀ vertex previous, crosses x y vertex previous = false := by
    intro vertex previous
    rw [crosses]
    rcases h with hx | hy
    · rw [decide_eq_false (not_lt_of_isNaN hx _), Bool.and_false]
    · rw [decide_eq_false (not_lt_of_isNaN hy _), decide_eq_false (not_lt_of_isNaN hy _)]
      rfl
  induction vertices generalizing previous with
  | nil => rfl
  | cons vertex vertices ih => rw [crossingParity, hcrosses, ih, bne_self_eq_false]

variable [Trigonometry]

theorem isNaN_rotate (angle : Float) :
    (rotate x y angle).1.isNaN = true ∧ (rotate x y angle).2.isNaN = true :=
  ⟨isNaN_sub (h.imp (fun hx => isNaN_mul (.inl hx)) fun hy => isNaN_mul (.inl hy)),
    isNaN_add (h.imp (fun hx => isNaN_mul (.inl hx)) fun hy => isNaN_mul (.inl hy))⟩

theorem contains_of_isNaN (hangle : Trigonometry.StrictAngle) (region : Region) :
    region.contains x y = true ↔ region.FullTurn := by
  cases region with
  | circular centre radius =>
      have hdistance := isNaN_sum_squares (isNaN_offset h centre)
      exact iff_of_false (fun hkept => not_le_of_isNaN hdistance _ (of_decide_eq_true hkept)) id
  | elliptical centre semiaxes angle =>
      obtain ⟨hu, -⟩ := isNaN_rotate (isNaN_offset h centre) (-angle)
      refine iff_of_false (fun hkept => ?_) id
      exact not_le_of_isNaN (isNaN_sum_squares (.inl (isNaN_div hu semiaxes.1))) _
        (of_decide_eq_true hkept)
  | point target =>
      refine iff_of_false ?_ id
      simp only [contains, Bool.and_eq_true, decide_eq_true_eq, not_and_or]
      exact (isNaN_offset h target).imp (fun hx => not_le_of_isNaN (isNaN_abs hx) _)
        fun hy => not_le_of_isNaN (isNaN_abs hy) _
  | polygonal pointsX pointsY =>
      refine iff_of_false ?_ id
      rw [contains, polygonContains]
      cases (pointsX.zip pointsY).getLast? with
      | none => exact Bool.false_ne_true
      | some last => simp [crossingParity_of_isNaN h]
  | rectangular start width height angle =>
      obtain ⟨hu, -⟩ := isNaN_rotate (isNaN_offset h start) (-angle)
      refine iff_of_false ?_ id
      simp [contains, not_le_of_isNaN hu]
  | sector centre radii angles =>
      have hdistance := isNaN_sqrt (isNaN_sum_squares (isNaN_offset h centre))
      have hoffset := hangle _ _ (isNaN_offset h centre).symm
      have hrelative := isNaN_remainderEuclid (isNaN_sub (.inl hoffset) (y := angles.1)) turn
      -- neither radius refuses, so the angles decide
      simp only [contains, FullTurn, decide_eq_false (not_lt_of_isNaN hdistance radii.1),
        decide_eq_false (not_lt_isNaN radii.2 hdistance), Bool.or_self]
      simp [not_le_of_isNaN hrelative]

end

end Region

namespace RegionSet

/-- Of all regions only a sector that goes all the way round contains a position with an undefined
coordinate, and an excluder keeps such a position exactly when one of its regions is such a
sector. -/
theorem undefined_kept_iff [Trigonometry] (hangle : Trigonometry.StrictAngle) {x y : Float}
    (h : x.isNaN = true ∨ y.isNaN = true) :
    (∀ region : Region, region.contains x y = true ↔ region.FullTurn) ∧
    ∀ set excluder, build set = .ok excluder → ∀ rest,
      (excluder.contains (x :: y :: rest) = true ↔ ∃ region ∈ set.regions, region.FullTurn) := by
  refine ⟨Region.contains_of_isNaN h hangle, ?_⟩
  intro set excluder hbuild rest
  obtain ⟨-, rfl⟩ := Checked.return_eq_ok.mp hbuild
  change (set.regions.any fun region => region.contains x y) = true ↔ _
  simp only [List.any_eq_true, Region.contains_of_isNaN h hangle]

def upToAngle (angle : Float) : RegionSet :=
  ⟨[.circular (0.0, 0.0) 2.0, .sector (0.0, 0.0) (0.0, 1.0) (0.0, angle)], ["x", "y"]⟩

theorem undefined_kept_iff_upToAngle :
    let _ := Trigonometry.strictWave
    (0.0 / 0.0 : Float).isNaN = true ∧
      (upToAngle 7.0).excluder.contains [0.0 / 0.0, 0.5] = true ∧
      (upToAngle 6.0).excluder.contains [0.0 / 0.0, 0.5] = false := by
  intro trigonometry
  have hundefined : (0.0 / 0.0 : Float).isNaN = true := by decide
  obtain ⟨-, hkept⟩ :=
    undefined_kept_iff Trigonometry.strictWave_strictAngle (y := 0.5) (.inl hundefined)
  have hregions : ∀ angle, (∃ region ∈ (upToAngle angle).regions, region.FullTurn) ↔
      Region.turn ≤ angle - 0.0 := by
    simp [upToAngle, Region.FullTurn]
  refine ⟨hundefined, ?_, ?_⟩
  · rw [hkept (upToAngle 7.0) _ rfl [], hregions]
    decide
  · rw [← Bool.not_eq_true, hkept (upToAngle 6.0) _ rfl [], hregions]
    decide

/-- A sector all the way round keeps a position of which one coordinate is no number. -/
theorem contains_undefined :
    (upToAngle 7.0).build = .ok (upToAngle 7.0).excluder ∧
      (0.0 / 0.0 : Float).isNaN = true ∧
      (upToAngle 7.0).excluder.contains [0.0 / 0.0, 0.5] = true ∧
      (Region.sector (0.0, 0.0) (0.0, 1.0) (0.0, 7.0)).contains (0.0 / 0.0) 0.5 = true := by
  refine ⟨rfl, ?_, ?_, ?_⟩ <;> decide +kernel

end RegionSet

end ScanPath
