/-
**Serial-number arithmetic on `w`-bit words.**

A counter or clock of `w` bits wraps around, so two of its readings cannot be compared as numbers.
`gte` compares them through the wrapped difference, `diff` reads that difference as a signed
number. Both are right as long as the true values lie less than half the range apart
(`gte_ofNat`, `diff_ofNat`), and `gte` is a linear preorder on every window of half the range
(`gte_iff_of_inWindow`, `gte_trans_of_inWindow`).
-/

import Mathlib.Data.BitVec
import Mathlib.Tactic.Ring
import Mathlib.Tactic.Linarith

namespace Qsdk.Serial

variable {w : Nat}

/-- `first` is the later reading of the two, or the same: the wrapped difference is at most half
the range. -/
def gte (first second : BitVec w) : Bool :=
  decide ((first - second).toNat ≤ 2 ^ (w - 1))

/-- The signed reading of the wrapped difference. -/
def diff (first second : BitVec w) : Int :=
  if (first - second).toNat > 2 ^ (w - 1) then
    ((first - second).toNat : Int) - 2 ^ w
  else (first - second).toNat

theorem two_pow_split (pos : 0 < w) : (2 : Nat) ^ w = 2 ^ (w - 1) + 2 ^ (w - 1) := by
  obtain ⟨v, rfl⟩ : ∃ v, w = v + 1 := ⟨w - 1, by omega⟩
  rw [Nat.add_sub_cancel, Nat.pow_succ]
  omega

/-! ### Readings of true values -/

/-- The wrapped difference of two readings whose true values are in order. -/
theorem toNat_sub_ofNat_of_le {low high : Nat} (order : low ≤ high) (near : high < low + 2 ^ w) :
    (BitVec.ofNat w high - BitVec.ofNat w low).toNat = high - low := by
  have split : high = low + (high - low) := by omega
  have sum : BitVec.ofNat w high = BitVec.ofNat w low + BitVec.ofNat w (high - low) := by
    rw [← BitVec.ofNat_add, ← split]
  rw [sum, BitVec.add_comm, BitVec.add_sub_cancel, BitVec.toNat_ofNat]
  exact Nat.mod_eq_of_lt (by omega)

/-- The wrapped difference of two readings whose true values are out of order. -/
theorem toNat_sub_ofNat_of_lt {low high : Nat} (order : low < high) (near : high < low + 2 ^ w) :
    (BitVec.ofNat w low - BitVec.ofNat w high).toNat = 2 ^ w - (high - low) := by
  have forward := toNat_sub_ofNat_of_le (w := w) (Nat.le_of_lt order) near
  rw [← neg_sub (BitVec.ofNat w high), BitVec.toNat_neg, forward]
  exact Nat.mod_eq_of_lt (by omega)

/-- **The comparison is right on readings less than half the range apart.** -/
theorem gte_ofNat (pos : 0 < w) (first second : Nat) (above : first < second + 2 ^ (w - 1))
    (below : second < first + 2 ^ (w - 1)) :
    gte (BitVec.ofNat w first) (BitVec.ofNat w second) = true ↔ second ≤ first := by
  have split := two_pow_split pos
  unfold gte
  rw [decide_eq_true_iff]
  rcases Nat.lt_or_ge first second with less | atLeast
  · rw [toNat_sub_ofNat_of_lt less (by omega)]
    omega
  · rw [toNat_sub_ofNat_of_le atLeast (by omega)]
    omega

/-- **The signed difference is right on readings less than half the range apart.** -/
theorem diff_ofNat (pos : 0 < w) (first second : Nat) (above : first < second + 2 ^ (w - 1))
    (below : second < first + 2 ^ (w - 1)) :
    diff (BitVec.ofNat w first) (BitVec.ofNat w second) = (first : Int) - second := by
  have split := two_pow_split pos
  have cast : (2 : Int) ^ w = ((2 ^ w : Nat) : Int) := by push_cast; rfl
  unfold diff
  rw [cast]
  rcases Nat.lt_or_ge first second with less | atLeast
  · rw [toNat_sub_ofNat_of_lt less (by omega), if_pos (by omega)]
    omega
  · rw [toNat_sub_ofNat_of_le atLeast (by omega), if_neg (by omega)]
    omega

/-! ### Windows of half the range -/

/-- `word` lies in the half range that starts at `base`. -/
def InWindow (base word : BitVec w) : Prop := (word - base).toNat < 2 ^ (w - 1)

instance (base word : BitVec w) : Decidable (InWindow base word) :=
  inferInstanceAs (Decidable (_ < _))

/-- **Inside a window the comparison is the order of the distances from its base.** -/
theorem gte_iff_of_inWindow (pos : 0 < w) {base first second : BitVec w}
    (inFirst : InWindow base first) (inSecond : InWindow base second) :
    gte first second = true ↔ (second - base).toNat ≤ (first - base).toNat := by
  have shift : (first - base) - (second - base) = first - second :=
    sub_sub_sub_cancel_right first second base
  unfold InWindow at inFirst inSecond
  have order := gte_ofNat pos (first - base).toNat (second - base).toNat
    (by omega) (by omega)
  rw [BitVec.ofNat_toNat, BitVec.ofNat_toNat, BitVec.setWidth_eq, BitVec.setWidth_eq] at order
  unfold gte at order ⊢
  rwa [shift] at order

theorem gte_trans_of_inWindow (pos : 0 < w) {base first second third : BitVec w}
    (inFirst : InWindow base first) (inSecond : InWindow base second)
    (inThird : InWindow base third) (one : gte first second = true)
    (two : gte second third = true) : gte first third = true := by
  rw [gte_iff_of_inWindow pos inFirst inSecond] at one
  rw [gte_iff_of_inWindow pos inSecond inThird] at two
  rw [gte_iff_of_inWindow pos inFirst inThird]
  exact le_trans two one

theorem gte_total_of_inWindow (pos : 0 < w) {base first second : BitVec w}
    (inFirst : InWindow base first) (inSecond : InWindow base second)
    (older : gte first second = false) : gte second first = true := by
  rw [gte_iff_of_inWindow pos inSecond inFirst]
  by_contra later
  push Not at later
  have := (gte_iff_of_inWindow pos inFirst inSecond).mpr (le_of_lt later)
  rw [older] at this
  exact Bool.false_ne_true this

end Qsdk.Serial
