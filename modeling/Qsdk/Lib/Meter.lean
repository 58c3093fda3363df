/-
**A counter of a period beside a counter of a life.**

A `Meter` counts into a narrow word, `delta`, and from time to time moves what the word holds to a
wide one, `total`. Whoever moves it reports the amount. Two things hold of a meter whatever the
order of counting and moving: the reported amounts and the pending one add up to what was counted,
modulo the narrow word (`Accounts`); and as long as the narrow word does not wrap, the wide one
holds exactly what was counted before the last move (`Settled`).
-/

import Mathlib.Data.BitVec
import Mathlib.Data.Nat.ModEq

namespace Qsdk

/-- A counter of a period and a counter of a life. -/
structure Meter (w v : Nat) where
  delta : BitVec w
  total : BitVec v
deriving DecidableEq

namespace Meter

variable {w v : Nat} (meter : Meter w v)

/-- Count an amount. -/
def count (amount : BitVec w) : Meter w v := { meter with delta := meter.delta + amount }

/-- Move the pending amount over. -/
def drain : Meter w v := ⟨meter.delta - meter.delta, meter.total + meter.delta.zeroExtend v⟩

/-- A meter that has counted nothing. -/
def zero : Meter w v := ⟨0#w, 0#v⟩

@[simp]
theorem drain_delta : meter.drain.delta = 0#w := sub_self meter.delta

/-- What was reported and what is pending add up to what was counted. -/
def Accounts (reported counted : Nat) : Prop :=
  reported + meter.delta.toNat ≡ counted [MOD 2 ^ w]

/-- The wide word holds all of what was counted but the pending amount. -/
def Settled (counted : Nat) : Prop :=
  ∃ settled, meter.total = BitVec.ofNat v settled ∧ settled + meter.delta.toNat = counted

variable {meter} {reported counted : Nat}

theorem accounts_zero : (zero : Meter w v).Accounts 0 0 := by
  show 0 + (0#w).toNat ≡ 0 [MOD 2 ^ w]
  rw [BitVec.toNat_zero]

theorem settled_zero : (zero : Meter w v).Settled 0 :=
  ⟨0, rfl, by show 0 + (0#w).toNat = 0; rw [BitVec.toNat_zero]⟩

/-- **Counting keeps the account.** -/
theorem Accounts.count (accounts : meter.Accounts reported counted) (amount : BitVec w) :
    (meter.count amount).Accounts reported (counted + amount.toNat) := by
  have pending : (meter.delta + amount).toNat ≡ meter.delta.toNat + amount.toNat [MOD 2 ^ w] := by
    rw [BitVec.toNat_add]
    exact Nat.mod_modEq _ _
  calc reported + (meter.delta + amount).toNat
      ≡ reported + (meter.delta.toNat + amount.toNat) [MOD 2 ^ w] := pending.add_left _
    _ = reported + meter.delta.toNat + amount.toNat := (Nat.add_assoc _ _ _).symm
    _ ≡ counted + amount.toNat [MOD 2 ^ w] := accounts.add_right _

/-- **Moving and reporting the pending amount keeps the account.** -/
theorem Accounts.drain (accounts : meter.Accounts reported counted) :
    meter.drain.Accounts (meter.delta.toNat + reported) counted := by
  unfold Accounts
  rw [drain_delta, Nat.add_comm meter.delta.toNat]
  exact accounts

/-- Moving without a report keeps the account if nothing was pending. -/
theorem Accounts.drain_silent (accounts : meter.Accounts reported counted)
    (none : meter.delta = 0#w) :
    meter.drain.Accounts reported counted := by
  have moved := accounts.drain
  rw [none, BitVec.toNat_zero, Nat.zero_add] at moved
  exact moved

/-- With nothing pending, the reports add up to what was counted. -/
theorem Accounts.reported_modEq (accounts : meter.Accounts reported counted)
    (none : meter.delta = 0#w) :
    reported ≡ counted [MOD 2 ^ w] := by
  unfold Accounts at accounts
  rw [none, BitVec.toNat_zero, Nat.add_zero] at accounts
  exact accounts

/-- Counting without a wrap keeps the wide word right. -/
theorem Settled.count (settled : meter.Settled counted) {amount : BitVec w}
    (fits : meter.delta.toNat + amount.toNat < 2 ^ w) :
    (meter.count amount).Settled (counted + amount.toNat) := by
  obtain ⟨before, total, pending⟩ := settled
  refine ⟨before, total, ?_⟩
  have sum : (meter.delta + amount).toNat = meter.delta.toNat + amount.toNat := by
    rw [BitVec.toNat_add, Nat.mod_eq_of_lt fits]
  rw [← pending]
  show before + (meter.delta + amount).toNat = before + meter.delta.toNat + amount.toNat
  rw [sum, Nat.add_assoc]

/-- **After a move the wide word holds what was counted.** -/
theorem Settled.drain_total (settled : meter.Settled counted) :
    meter.drain.total = BitVec.ofNat v counted := by
  obtain ⟨before, total, pending⟩ := settled
  show meter.total + meter.delta.zeroExtend v = BitVec.ofNat v counted
  rw [total, ← pending, BitVec.ofNat_add]
  exact congrArg _ (BitVec.ofNat_toNat v meter.delta).symm

theorem Settled.drain (settled : meter.Settled counted) : meter.drain.Settled counted :=
  ⟨counted, settled.drain_total, by rw [drain_delta, BitVec.toNat_zero, Nat.add_zero]⟩

end Meter

end Qsdk
