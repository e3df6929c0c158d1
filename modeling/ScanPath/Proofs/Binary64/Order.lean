import ScanPath.Proofs.Binary64.Rounded

/-!
# The order of floats

Finite floats are compared by their exponents first.  Since a mantissa has all
its 53 bits unless the exponent is the lowest, this is the order of the values.
-/

namespace ScanPath

open Float.Model Float.Model.UnpackedFloat

theorem Fits.lt_of_compare {mantissa mantissa' : ℕ} {exponent exponent' : ℤ}
    (h : Fits mantissa exponent) (h' : Fits mantissa' exponent')
    (hlt : (compare exponent exponent').then (compare mantissa mantissa') = .lt) :
    (mantissa * 2 ^ exponent : ℝ) < mantissa' * 2 ^ exponent' := by
  rcases Ordering.then_eq_lt.mp hlt with hexponent | ⟨hexponent, hmantissa⟩
  · have hexponent := compare_lt_iff_lt.mp hexponent
    have hfull : 2 ^ 52 ≤ mantissa' := h'.full.resolve_right (by have := h.low; omega)
    have hpower : (2 : ℝ) ^ (exponent + 1) ≤ 2 ^ exponent' :=
      zpow_le_zpow_right₀ one_le_two (by omega)
    have hbits : (mantissa : ℝ) < 2 ^ 53 := by exact_mod_cast h.bits
    have hfull' : (2 ^ 52 : ℝ) ≤ mantissa' := by exact_mod_cast hfull
    calc (mantissa * 2 ^ exponent : ℝ)
        < 2 ^ 53 * 2 ^ exponent := mul_lt_mul_of_pos_right hbits (zpow_pos two_pos _)
      _ = 2 ^ 52 * 2 ^ (exponent + 1) := by rw [zpow_add_one₀ two_ne_zero]; ring
      _ ≤ mantissa' * 2 ^ exponent' := mul_le_mul hfull' hpower (by positivity) (by positivity)
  · rw [compare_eq_iff_eq.mp hexponent]
    have hmantissa : (mantissa : ℝ) < mantissa' := by exact_mod_cast compare_lt_iff_lt.mp hmantissa
    exact mul_lt_mul_of_pos_right hmantissa (zpow_pos two_pos _)

theorem exact_lt_exact {x y : Float} (hx : x.isFinite = true) (hy : y.isFinite = true)
    (h : x < y) : exact x < exact y := by
  rw [lt_iff_compare] at h
  rw [← Rat.cast_lt (K := ℝ)]
  rcases unpack_of_isFinite hx with ⟨sign, hx⟩ | ⟨sign, mantissa, exponent, hpos, hx⟩ <;>
    rcases unpack_of_isFinite hy with ⟨other, hy⟩ | ⟨other, mantissa', exponent', hpos', hy⟩ <;>
    rw [hx, hy] at h
  · cases h
  · cases other with
    | negative => cases h
    | positive =>
        rw [exact_eq_zero hx, Rat.cast_zero, exact_eq_signed hy]
        exact mul_pos (Nat.cast_pos.mpr hpos') (zpow_pos two_pos _)
  · cases sign with
    | positive => cases h
    | negative =>
        rw [exact_eq_zero hy, Rat.cast_zero, exact_eq_signed hx]
        exact neg_neg_of_pos (mul_pos (Nat.cast_pos.mpr hpos) (zpow_pos two_pos _))
  · have hfits := (fits_of_unpack_eq hx).1
    have hfits' := (fits_of_unpack_eq hy).1
    rw [exact_eq_signed hx, exact_eq_signed hy]
    cases sign <;> cases other <;> simp only [UnpackedFloat.compare, Option.some.injEq] at h
    case negative.negative =>
      rw [Ordering.swap_then, Int.compare_swap, Nat.compare_swap] at h
      exact neg_lt_neg (hfits'.lt_of_compare hfits h)
    case negative.positive =>
      exact (neg_neg_of_pos (mul_pos (Nat.cast_pos.mpr hpos) (zpow_pos two_pos _))).trans
        (mul_pos (Nat.cast_pos.mpr hpos') (zpow_pos two_pos _))
    case positive.negative => cases h
    case positive.positive => exact hfits.lt_of_compare hfits' h

private theorem swap_eq_lt {order : Ordering} (h : ¬ order.isLE = true) : order.swap = .lt := by
  cases order with
  | gt => rfl
  | lt | eq => exact absurd rfl h

theorem lt_of_not_le_of_isFinite {x y : Float} (hx : x.isFinite = true) (hy : y.isFinite = true)
    (h : ¬ y ≤ x) : x < y := by
  rw [le_iff_compare] at h
  rw [lt_iff_compare]
  rcases unpack_of_isFinite hx with ⟨sign, hx⟩ | ⟨sign, mantissa, exponent, hpos, hx⟩ <;>
    rcases unpack_of_isFinite hy with ⟨other, hy⟩ | ⟨other, mantissa', exponent', hpos', hy⟩ <;>
    rw [hx, hy] at h ⊢
  · exact absurd rfl h
  · cases other with
    | negative => exact absurd rfl h
    | positive => rfl
  · cases sign with
    | negative => rfl
    | positive => exact absurd rfl h
  · have hswap : (compare exponent exponent').then (compare mantissa mantissa') =
        ((compare exponent' exponent).then (compare mantissa' mantissa)).swap := by
      rw [Ordering.swap_then, Int.compare_swap, Nat.compare_swap]
    cases sign <;> cases other <;> simp only [UnpackedFloat.compare, Option.any_some] at h ⊢
    case negative.negative =>
      rw [← hswap] at h
      exact congrArg some (swap_eq_lt h)
    case positive.negative => exact absurd rfl h
    case positive.positive =>
      rw [hswap]
      exact congrArg some (swap_eq_lt h)

end ScanPath
