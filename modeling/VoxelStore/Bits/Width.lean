import Mathlib
import VoxelStore.Bits
/-!
# The least width of a number

`bitLength n` is the least width that holds `n` (`bitLength_le_iff`), and that of the greatest of some indices the
least width with as many numbers (`isLeast_bitLength`).
-/

namespace VoxelStore

/-- A width holds `n` exactly when it is at least the bit length of `n`. -/
theorem bitLength_le_iff {n b : Nat} : bitLength n ≤ b ↔ n < 2 ^ b := by
  unfold bitLength
  split
  · next h =>
    subst h
    exact ⟨fun _ => Nat.two_pow_pos b, fun _ => Nat.zero_le b⟩
  · next h => rw [Nat.succ_le_iff, Nat.log2_lt h]

theorem lt_two_pow_bitLength (n : Nat) : n < 2 ^ bitLength n :=
  bitLength_le_iff.1 (Nat.le_refl _)

theorem bitLength_mono {m n : Nat} (h : m ≤ n) : bitLength m ≤ bitLength n :=
  bitLength_le_iff.2 (Nat.lt_of_le_of_lt h (lt_two_pow_bitLength n))

/-- The greatest of `n` indices fits exactly the widths with as many numbers. -/
theorem bitLength_pred_le_iff {n b : Nat} (h : 0 < n) : bitLength (n - 1) ≤ b ↔ n ≤ 2 ^ b := by
  rw [bitLength_le_iff]
  omega

/-- The least width with `len` numbers. -/
theorem isLeast_bitLength (len : Nat) : IsLeast {w | len ≤ 2 ^ w} (bitLength (len - 1)) := by
  rcases Nat.eq_zero_or_pos len with rfl | hpos
  · exact ⟨Nat.zero_le _, fun w _ => Nat.zero_le w⟩
  · exact ⟨(bitLength_pred_le_iff hpos).1 (Nat.le_refl _), fun w hw => (bitLength_pred_le_iff hpos).2 hw⟩

end VoxelStore
