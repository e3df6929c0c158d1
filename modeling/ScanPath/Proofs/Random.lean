import Mathlib.Tactic.Linarith
import Mathlib.Tactic.Positivity
import ScanPath.Proofs.Binary64
import ScanPath.Random

/-!
# The range of a draw

A draw scales the upper 52 bits of two words of the keystream to a multiple of
`2 ^ -51` and moves it by one.  Every float on the way has room for all of these
bits, so the draw is that multiple exactly and lies from `-1` up to `1`, where
`1` itself is never drawn.
-/

namespace ScanPath.Random

open Float.Model Float.Model.UnpackedFloat

private theorem add_neg_one {count shift : Nat} (hshift : shift = 52 - count.log2)
    (hlog : count.log2 ≤ 51) (hpos : 0 < count) :
    UnpackedFloat.add .binary64 (normalForm .positive count (-51) hpos)
        (-1.0 : Float).toModel.unpack =
      UnpackedFloat.normalize .binary64 (((count : Int) - 2 ^ 51) * 2 ^ shift) (-51 - shift)
        .positive := by
  have hone : (-1.0 : Float).toModel.unpack =
      .finite .negative (2 ^ 52) (-52) (Nat.two_pow_pos 52) := rfl
  have hmin : min (-51 - ((52 - count.log2 : Nat) : Int)) (-52) = -51 - shift := by omega
  have hleft : (-51 - ((52 - count.log2 : Nat) : Int) - (-51 - shift)).toNat = 0 := by omega
  have hright : (-52 - (-51 - (shift : Int))).toNat = shift - 1 := by omega
  rw [hone, normalForm]
  dsimp only [UnpackedFloat.add, decreaseExponent]
  rw [hmin, hleft, hright]
  have hpower : 2 ^ 52 * 2 ^ (shift - 1) = 2 ^ 51 * 2 ^ shift := by
    rw [← Nat.pow_add, ← Nat.pow_add]
    congr 1
    omega
  have hmantissa : Sign.positive.apply ((count * 2 ^ (52 - count.log2)) <<< 0 : Nat) +
      Sign.negative.apply ((2 ^ 52) <<< (shift - 1) : Nat) =
        ((count : Int) - 2 ^ 51) * 2 ^ shift := by
    rw [Nat.shiftLeft_zero, Nat.shiftLeft_eq, hpower, ← hshift]
    simp only [Sign.apply]
    push_cast
    ring
  exact congrArg (UnpackedFloat.normalize .binary64 · (-51 - shift) .positive) hmantissa

theorem exact_add_neg_one {x : Float} {count : Nat} {hpos : 0 < count} (hlt : count < 2 ^ 52)
    (hx : x.toModel.unpack = normalForm .positive count (-51) hpos) :
    (x + (-1.0)).isFinite = true ∧ exact (x + (-1.0)) = count / 2 ^ 51 - 1 := by
  have hlog : count.log2 ≤ 51 := Nat.lt_succ_iff.mp ((Nat.log2_lt (Nat.ne_of_gt hpos)).mpr hlt)
  have hsum : (x + (-1.0)).toModel = Float.Model.pack (UnpackedFloat.normalize .binary64
      (((count : Int) - 2 ^ 51) * 2 ^ (52 - count.log2)) (-51 - (52 - count.log2 : Nat))
        .positive) := by
    change Float.Model.pack (UnpackedFloat.add .binary64 x.toModel.unpack _) = _
    rw [hx, add_neg_one rfl hlog]
  obtain ⟨hfinite, hexact⟩ :=
    exact_pack_normalize (by omega) (52 - count.log2) (by omega) (by omega)
    hsum
  refine ⟨hfinite, ?_⟩
  rw [hexact, Int.sub_add_cancel]
  push_cast
  field_simp
  norm_num

theorem exact_symmetricUnit (stream : Stream) :
    ∃ count : Nat, count < 2 ^ 52 ∧ stream.symmetricUnit.1.isFinite = true ∧
      exact stream.symmetricUnit.1 = (count : ℚ) / 2 ^ 51 - 1 := by
  have hlt : (stream.next64.1 >>> 12).toNat < 2 ^ 52 := by
    have hword := stream.next64.1.toNat_lt
    rw [UInt64.toNat_shiftRight, Nat.shiftRight_eq_div_pow]
    change stream.next64.1.toNat / 2 ^ 12 < _
    omega
  refine ⟨(stream.next64.1 >>> 12).toNat, hlt, ?_⟩
  change ((stream.next64.1 >>> 12).toFloat * 2.220446049250313e-16 * 2.0 + (-1.0)).isFinite = true ∧
    exact ((stream.next64.1 >>> 12).toFloat * 2.220446049250313e-16 * 2.0 + (-1.0)) = _
  generalize stream.next64.1 >>> 12 = count at hlt ⊢
  rcases Nat.eq_zero_or_pos count.toNat with hzero | hpos
  · obtain rfl : count = 0 := UInt64.toNat_inj.mp hzero
    have hunpack : ((0 : UInt64).toFloat * 2.220446049250313e-16 * 2.0 + (-1.0)).toModel.unpack =
        .finite .negative (2 ^ 52) (-52) (Nat.two_pow_pos 52) := rfl
    refine ⟨rfl, ?_⟩
    rw [exact, hunpack]
    norm_num [Sign.apply]
  · have hlog : count.toNat.log2 ≤ 52 := by
      have := (Nat.log2_lt (Nat.ne_of_gt hpos)).mpr hlt
      omega
    have hscaled := unpack_mul_two_pow (-52) (y := 2.220446049250313e-16) hlog
      (unpack_toFloat hpos hlog) rfl (by omega) (by omega)
    have hdoubled := unpack_mul_two_pow 1 (y := 2.0) hlog hscaled rfl (by omega) (by omega)
    exact exact_add_neg_one hlt hdoubled

theorem exact_symmetricUnit_bounds (stream : Stream) : stream.symmetricUnit.1.isFinite = true ∧
    -1 ≤ exact stream.symmetricUnit.1 ∧ exact stream.symmetricUnit.1 < 1 := by
  obtain ⟨count, hlt, hfinite, hexact⟩ := exact_symmetricUnit stream
  have hcount : (count : ℚ) < 2 ^ 52 := by exact_mod_cast hlt
  refine ⟨hfinite, ?_, ?_⟩
  · rw [hexact]
    have hnonneg : 0 ≤ (count : ℚ) / 2 ^ 51 := by positivity
    linarith
  · rw [hexact, sub_lt_iff_lt_add, div_lt_iff₀ (by positivity)]
    linarith

end ScanPath.Random
