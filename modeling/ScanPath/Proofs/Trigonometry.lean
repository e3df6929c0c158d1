import ScanPath.Proofs.Binary64.Zeros
import ScanPath.Trigonometry

/-!
# Laws of circular functions

Whatever their last bits are, the sine and the cosine of a finite angle lie
between minus one and one, and at zero they are exact.  Nothing else is relied
on.  A square wave keeps to these laws as well.
-/

namespace ScanPath.Trigonometry

structure Lawful [Trigonometry] : Prop where
  sin_bounds : ∀ x : Float, x.isFinite = true → -1.0 ≤ sin x ∧ sin x ≤ 1.0
  cos_bounds : ∀ x : Float, x.isFinite = true → -1.0 ≤ cos x ∧ cos x ≤ 1.0
  sin_zero : sin 0.0 = 0.0
  sin_negative_zero : sin (-0.0) = -0.0
  cos_zero : cos 0.0 = 1.0
  cos_negative_zero : cos (-0.0) = 1.0

section

variable [Trigonometry] (hlawful : Lawful)

include hlawful

theorem Lawful.sin_sameNumber {x x' : Float} (h : SameNumber x x') :
    SameNumber (sin x) (sin x') := by
  have hzeros : SameNumber (sin 0.0) (sin (-0.0)) := by
    rw [hlawful.sin_zero, hlawful.sin_negative_zero]
    exact .zeros
  rcases h.eq_or_zeros with rfl | ⟨rfl, rfl⟩ | ⟨rfl, rfl⟩
  · rfl
  · exact hzeros
  · exact hzeros.symm

theorem Lawful.cos_eq {x x' : Float} (h : SameNumber x x') : cos x = cos x' := by
  rcases h.eq_or_zeros with rfl | ⟨rfl, rfl⟩ | ⟨rfl, rfl⟩
  · rfl
  · rw [hlawful.cos_zero, hlawful.cos_negative_zero]
  · rw [hlawful.cos_zero, hlawful.cos_negative_zero]

end

/-- Circular functions that are exact at zero, at a quarter turn and along the first axis. -/
@[reducible] def squareWave : Trigonometry where
  sin x := if x == 0.0 then x else if 0.0 < x then 1.0 else -1.0
  cos x := if x == 0.0 then 1.0 else 0.0
  atan2 _ x := if 0.0 < x ∨ x = 0.0 then 0.0 else 3.141592653589793

theorem squareWave_lawful : @Lawful squareWave := by
  refine @Lawful.mk squareWave ?_ ?_ rfl rfl rfl rfl
  · intro x _
    change -1.0 ≤ (if x == 0.0 then x else if 0.0 < x then 1.0 else -1.0) ∧
      (if x == 0.0 then x else if 0.0 < x then 1.0 else -1.0) ≤ 1.0
    split
    next hzero =>
      have hsame := SameNumber.of_beq hzero
      rw [SameNumber.le_iff (.refl _) hsame, SameNumber.le_iff hsame (.refl _)]
      decide
    · split <;> decide
  · intro x _
    change -1.0 ≤ (if x == 0.0 then 1.0 else 0.0) ∧ (if x == 0.0 then 1.0 else 0.0) ≤ 1.0
    split <;> decide

end ScanPath.Trigonometry
