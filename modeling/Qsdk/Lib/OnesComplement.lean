/-
**Sums in ones' complement.**

A sum of words of `w` bits is folded onto `w` bits by adding what overflows to the rest. That keeps
the sum modulo `2 ^ w - 1`, and keeps it from becoming zero, so folding is exact in the ring of
integers modulo `2 ^ w - 1` but for the two words that stand for zero. Words of 16 bits that are
summed up in 32 bits are within `w` bits after two folds, two such words after one.
-/

import Mathlib.Data.ZMod.Basic

namespace Qsdk.OnesComplement

/-- One fold of a sum onto `w` bits. -/
def fold (w sum : Nat) : Nat := sum % 2 ^ w + sum / 2 ^ w

variable {w sum : Nat}

/-- Folding keeps a sum modulo `2 ^ w - 1`. -/
theorem fold_modEq : fold w sum ≡ sum [MOD 2 ^ w - 1] := by
  have one : 2 ^ w ≡ 1 [MOD 2 ^ w - 1] := by
    have split : 2 ^ w = 2 ^ w - 1 + 1 := (Nat.sub_add_cancel Nat.one_le_two_pow).symm
    conv_lhs => rw [split]
    exact Nat.add_modEq_left
  have parts : sum % 2 ^ w + 2 ^ w * (sum / 2 ^ w) = sum := Nat.mod_add_div sum (2 ^ w)
  have shifted : 1 * (sum / 2 ^ w) ≡ 2 ^ w * (sum / 2 ^ w) [MOD 2 ^ w - 1] := one.symm.mul_right _
  rw [one_mul] at shifted
  have whole := shifted.add_left (sum % 2 ^ w)
  rw [parts] at whole
  exact whole

/-- Folding makes nothing zero. -/
theorem fold_pos (pos : 0 < sum) : 0 < fold w sum := by
  rw [Nat.pos_iff_ne_zero]
  intro zero
  obtain ⟨low, high⟩ := Nat.add_eq_zero_iff.mp zero
  have parts : sum % 2 ^ w + 2 ^ w * (sum / 2 ^ w) = sum := Nat.mod_add_div sum (2 ^ w)
  rw [low, high] at parts
  exact absurd parts pos.ne

/-- One fold is enough for the sum of two words. -/
theorem fold_lt_of_two (bound : sum ≤ 2 * (2 ^ w - 1)) : fold w sum < 2 ^ w := by
  have pos : 0 < 2 ^ w := Nat.two_pow_pos w
  have parts : sum % 2 ^ w + 2 ^ w * (sum / 2 ^ w) = sum := Nat.mod_add_div sum (2 ^ w)
  have low : sum % 2 ^ w < 2 ^ w := Nat.mod_lt _ pos
  have high : sum / 2 ^ w < 2 := Nat.div_lt_of_lt_mul (by omega)
  unfold fold
  rcases Nat.le_one_iff_eq_zero_or_eq_one.mp (Nat.lt_succ_iff.mp high) with none | one
  · rw [none]
    omega
  · rw [one] at parts ⊢
    omega

/-- Two folds are enough for a sum of twice the width. -/
theorem fold_fold_lt (bound : sum < 2 ^ w * 2 ^ w) : fold w (fold w sum) < 2 ^ w := by
  have low : sum % 2 ^ w < 2 ^ w := Nat.mod_lt _ (Nat.two_pow_pos w)
  have high : sum / 2 ^ w < 2 ^ w := Nat.div_lt_of_lt_mul bound
  refine fold_lt_of_two ?_
  unfold fold
  omega

end Qsdk.OnesComplement
