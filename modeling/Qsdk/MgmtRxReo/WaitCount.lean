/-
**Wait counts stay coherent.**

A wait count is `Coherent` when its total is the sum of its per-link counts. Every operation on wait
counts keeps this: recording the estimate of a link that has none yet (`Coherent.record`), lowering
to another frame's counts (`Coherent.updateWaitCount`), the decrement on an arrival
(`Coherent.decrement`). The totals are 64 bits wide and never wrap.

`updateWaitCount_perLink` and `decrement_perLink` say what the operations do to one link's count,
and `framesPending_range` bounds the estimate of one link.
-/

import Qsdk.MgmtRxReo.Basic
import Mathlib.Algebra.Order.BigOperators.Group.Finset

namespace Qsdk.MgmtRxReo

/-- The sum of the per-link counts. -/
def WaitCount.sum (count : WaitCount) : Nat := ∑ link, (count.perLinkCount link).toNat

/-- The total is the sum of the per-link counts. -/
def WaitCount.Coherent (count : WaitCount) : Prop := count.totalCount.toNat = count.sum

theorem mem_mloLinks {numMloLinks : Nat} {link : Link} :
    link ∈ mloLinks numMloLinks ↔ link.val < numMloLinks := by
  simp [mloLinks]

theorem nodup_mloLinks (numMloLinks : Nat) : (mloLinks numMloLinks).Nodup :=
  (List.nodup_finRange maxLinks).filter _

/-! ### The sum of the counts -/

theorem sum_update (counts : Link → BitVec 32) (link : Link) (value : BitVec 32) :
    (∑ other, (Function.update counts link value other).toNat) + (counts link).toNat =
      (∑ other, (counts other).toNat) + value.toNat := by
  have left := Finset.add_sum_erase Finset.univ
    (fun other => (Function.update counts link value other).toNat) (Finset.mem_univ link)
  have right := Finset.add_sum_erase Finset.univ (fun other => (counts other).toNat)
    (Finset.mem_univ link)
  have rest : ∑ other ∈ Finset.univ.erase link, (Function.update counts link value other).toNat =
      ∑ other ∈ Finset.univ.erase link, (counts other).toNat := by
    refine Finset.sum_congr rfl fun other member => ?_
    rw [Function.update_of_ne (Finset.ne_of_mem_erase member)]
  simp only [Function.update_self] at left
  omega

theorem count_le_sum (counts : Link → BitVec 32) (link : Link) :
    (counts link).toNat ≤ ∑ other, (counts other).toNat :=
  Finset.single_le_sum (f := fun other => (counts other).toNat) (fun _ _ => Nat.zero_le _)
    (Finset.mem_univ link)

theorem WaitCount.sum_lt (count : WaitCount) : count.sum < 2 ^ 34 := by
  have bound : count.sum ≤ ∑ _link : Link, (2 ^ 32 - 1) :=
    Finset.sum_le_sum fun link _ => by have := (count.perLinkCount link).isLt; omega
  have size : (∑ _link : Link, (2 ^ 32 - 1)) = 4 * (2 ^ 32 - 1) := by decide
  omega

theorem WaitCount.Coherent.zero_iff {count : WaitCount} (coherent : count.Coherent) :
    count.totalCount = 0 ↔ ∀ link, count.perLinkCount link = 0 := by
  have asNat : count.totalCount = 0 ↔ count.sum = 0 := by
    rw [← coherent, ← BitVec.toNat_inj]
    rfl
  rw [asNat, WaitCount.sum, Finset.sum_eq_zero_iff]
  simp [← BitVec.toNat_inj]

theorem WaitCount.coherent_zero : WaitCount.zero.Coherent := by
  simp [WaitCount.Coherent, WaitCount.sum, WaitCount.zero]

/-! ### Recording an estimate -/

/-- Setting the count of a link that has none and adding it to the total keeps coherence. -/
theorem WaitCount.Coherent.set {count : WaitCount} (coherent : count.Coherent) (link : Link)
    (unset : count.perLinkCount link = 0) {value : BitVec 32} {added : BitVec 64}
    (same : added.toNat = value.toNat) :
    WaitCount.Coherent ⟨Function.update count.perLinkCount link value,
      count.totalCount + added⟩ := by
  have moved := sum_update count.perLinkCount link value
  have total : count.totalCount.toNat = ∑ other, (count.perLinkCount other).toNat := coherent
  have small := count.sum_lt
  have valueLt := value.isLt
  unfold WaitCount.sum at small
  rw [unset] at moved
  show (count.totalCount + added).toNat =
    ∑ other, (Function.update count.perLinkCount link value other).toNat
  rw [BitVec.toNat_add, same, total]
  simp only [BitVec.toNat_zero, BitVec.ofNat_eq_ofNat, add_zero] at moved
  rw [moved]
  exact Nat.mod_eq_of_lt (by omega)

theorem WaitCount.Coherent.record {count : WaitCount} (coherent : count.Coherent) {link : Link}
    (unset : count.perLinkCount link = 0) {pending : Int} (nonneg : 0 ≤ pending)
    (small : pending < 2 ^ 32) : (count.record link pending).Coherent := by
  refine coherent.set link unset ?_
  rw [BitVec.toNat_ofInt, BitVec.toNat_ofInt]
  rw [Int.emod_eq_of_lt nonneg (by omega), Int.emod_eq_of_lt nonneg (by omega)]

theorem WaitCount.Coherent.recordUintMax {count : WaitCount} (coherent : count.Coherent)
    {link : Link} (unset : count.perLinkCount link = 0) : (count.recordUintMax link).Coherent :=
  coherent.set link unset rfl

/-! ### Lowering to another frame's counts -/

theorem qdfMin_toNat (first second : BitVec 32) :
    (qdfMin first second).toNat = min first.toNat second.toNat := by
  unfold qdfMin
  split <;> rename_i order <;> rw [BitVec.lt_def] at order <;> omega

theorem updateWaitCountLink_perLink (newFrame oldFrame : WaitCount) (visited link : Link) :
    ((updateWaitCountLink newFrame oldFrame visited).perLinkCount link).toNat =
      if link = visited then
        min (oldFrame.perLinkCount link).toNat (newFrame.perLinkCount link).toNat
      else (oldFrame.perLinkCount link).toNat := by
  unfold updateWaitCountLink
  by_cases same : link = visited
  · subst same
    rw [if_pos rfl]
    split
    · simp only [Function.update_self]
      exact qdfMin_toNat _ _
    · rename_i isZero
      rw [ne_eq, not_not] at isZero
      rw [isZero]
      simp
  · rw [if_neg same]
    split
    · simp only [Function.update_of_ne same]
    · rfl

theorem foldl_updateWaitCountLink_perLink (newFrame : WaitCount) (link : Link) :
    ∀ (links : List Link) (oldFrame : WaitCount),
      ((links.foldl (updateWaitCountLink newFrame) oldFrame).perLinkCount link).toNat =
        if link ∈ links then
          min (oldFrame.perLinkCount link).toNat (newFrame.perLinkCount link).toNat
        else (oldFrame.perLinkCount link).toNat
  | [], oldFrame => by simp
  | visited :: rest, oldFrame => by
    rw [List.foldl_cons, foldl_updateWaitCountLink_perLink newFrame link rest,
      updateWaitCountLink_perLink]
    by_cases same : link = visited <;> by_cases later : link ∈ rest <;> simp [same, later]

/-- **A link's count after the update is the smaller of the two counts.** -/
theorem updateWaitCount_perLink (numMloLinks : Nat) (oldFrame newFrame : WaitCount) (link : Link) :
    ((updateWaitCount numMloLinks oldFrame newFrame).perLinkCount link).toNat =
      if link.val < numMloLinks then
        min (oldFrame.perLinkCount link).toNat (newFrame.perLinkCount link).toNat
      else (oldFrame.perLinkCount link).toNat := by
  rw [updateWaitCount, foldl_updateWaitCountLink_perLink]
  simp only [mem_mloLinks]

theorem WaitCount.Coherent.updateWaitCountLink {oldFrame : WaitCount}
    (coherent : oldFrame.Coherent) (newFrame : WaitCount) (link : Link) :
    (updateWaitCountLink newFrame oldFrame link).Coherent := by
  unfold MgmtRxReo.updateWaitCountLink
  split
  · have moved := sum_update oldFrame.perLinkCount link
      (qdfMin (oldFrame.perLinkCount link) (newFrame.perLinkCount link))
    have total : oldFrame.totalCount.toNat = ∑ other, (oldFrame.perLinkCount other).toNat :=
      coherent
    have single := count_le_sum oldFrame.perLinkCount link
    have lowered := qdfMin_toNat (oldFrame.perLinkCount link) (newFrame.perLinkCount link)
    have below := oldFrame.totalCount.isLt
    show (oldFrame.totalCount - (oldFrame.perLinkCount link - qdfMin (oldFrame.perLinkCount link)
        (newFrame.perLinkCount link)).setWidth 64).toNat =
      ∑ other, (Function.update oldFrame.perLinkCount link (qdfMin (oldFrame.perLinkCount link)
        (newFrame.perLinkCount link)) other).toNat
    rw [BitVec.toNat_sub, BitVec.toNat_setWidth, BitVec.toNat_sub, lowered]
    rw [lowered] at moved
    have countLt := (oldFrame.perLinkCount link).isLt
    have difference : (2 ^ 32 - min (oldFrame.perLinkCount link).toNat
        (newFrame.perLinkCount link).toNat + (oldFrame.perLinkCount link).toNat) % 2 ^ 32 % 2 ^ 64 =
        (oldFrame.perLinkCount link).toNat - min (oldFrame.perLinkCount link).toNat
          (newFrame.perLinkCount link).toNat := by omega
    rw [difference]
    omega
  · exact coherent

theorem WaitCount.Coherent.updateWaitCount {oldFrame : WaitCount} (coherent : oldFrame.Coherent)
    (numMloLinks : Nat) (newFrame : WaitCount) :
    (updateWaitCount numMloLinks oldFrame newFrame).Coherent := by
  unfold MgmtRxReo.updateWaitCount
  generalize mloLinks numMloLinks = links
  induction links generalizing oldFrame with
  | nil => exact coherent
  | cons link rest ih => exact ih (coherent.updateWaitCountLink newFrame link)

/-! ### The decrement on an arrival -/

theorem decrement_perLink (count : WaitCount) (arrived link : Link) :
    ((count.decrement arrived).perLinkCount link).toNat =
      if link = arrived then (count.perLinkCount link).toNat - 1
      else (count.perLinkCount link).toNat := by
  unfold WaitCount.decrement
  by_cases same : link = arrived
  · subst same
    rw [if_pos rfl]
    split
    · rename_i nonzero
      have positive : (count.perLinkCount link).toNat ≠ 0 := fun isZero =>
        nonzero (BitVec.eq_of_toNat_eq isZero)
      have bound := (count.perLinkCount link).isLt
      simp only [Function.update_self, BitVec.toNat_sub]
      show (2 ^ 32 - 1 + _) % 2 ^ 32 = _
      omega
    · rename_i isZero
      rw [ne_eq, not_not] at isZero
      rw [isZero]
      rfl
  · rw [if_neg same]
    split
    · simp only [Function.update_of_ne same]
    · rfl

theorem WaitCount.Coherent.decrement {count : WaitCount} (coherent : count.Coherent)
    (link : Link) : (count.decrement link).Coherent := by
  have perLink := decrement_perLink count link link
  unfold WaitCount.decrement at perLink ⊢
  split
  · rename_i nonzero
    have positive : (count.perLinkCount link).toNat ≠ 0 := fun isZero =>
      nonzero (BitVec.eq_of_toNat_eq isZero)
    rw [if_pos nonzero, if_pos rfl] at perLink
    simp only [Function.update_self] at perLink
    have moved := sum_update count.perLinkCount link (count.perLinkCount link - 1)
    have total : count.totalCount.toNat = ∑ other, (count.perLinkCount other).toNat := coherent
    have single := count_le_sum count.perLinkCount link
    have below := count.totalCount.isLt
    show (count.totalCount - 1).toNat =
      ∑ other, (Function.update count.perLinkCount link (count.perLinkCount link - 1) other).toNat
    rw [BitVec.toNat_sub]
    show (2 ^ 64 - 1 + _) % 2 ^ 64 = _
    omega
  · exact coherent

/-! ### The estimate of one link -/

theorem diff_range (ctr1 ctr2 : BitVec 16) :
    -(2 ^ 15 : Int) < subtractPktCtrs ctr1 ctr2 ∧ subtractPktCtrs ctr1 ctr2 ≤ 2 ^ 15 := by
  have bound := (ctr1 - ctr2).isLt
  unfold subtractPktCtrs Serial.diff
  split <;> omega

theorem assertAlways_bind {A : Type} {condition : Bool} {next : Unit → Option A} {value : A} :
    (assertAlways condition >>= next) = some value ↔ condition = true ∧ next () = some value := by
  unfold assertAlways
  cases condition <;> simp

theorem pendingBeforeConsumed_range {inFrameTs : BitVec 32}
    {hostSs fwConsumedSs fwForwardedSs : SnapshotParams} {before pending : Int}
    (nonneg : 0 ≤ before) (small : before ≤ 2 ^ 15)
    (estimate : pendingBeforeConsumed inFrameTs hostSs fwConsumedSs fwForwardedSs before =
      some pending) : 0 ≤ pending ∧ pending ≤ 2 ^ 15 := by
  have consumedRange := diff_range fwConsumedSs.mgmtPktCtr hostSs.mgmtPktCtr
  have forwardedRange := diff_range fwForwardedSs.mgmtPktCtr hostSs.mgmtPktCtr
  unfold pendingBeforeConsumed at estimate
  split at estimate
  · rw [assertAlways_bind, decide_eq_true_eq] at estimate
    obtain ⟨positive, estimate⟩ := estimate
    split at estimate <;> obtain rfl := Option.some.inj estimate
    · split <;> omega
    · omega
  · obtain rfl := Option.some.inj estimate
    exact ⟨nonneg, small⟩

/-- **The estimate of one link is a small natural number.** -/
theorem framesPending_range {inFrameTs : BitVec 32}
    {hostSs macHwSs fwConsumedSs fwForwardedSs : SnapshotParams} {pending : Int}
    (estimate : framesPending inFrameTs hostSs macHwSs fwConsumedSs fwForwardedSs = some pending) :
    0 ≤ pending ∧ pending ≤ 2 ^ 15 := by
  have hwRange := diff_range macHwSs.mgmtPktCtr hostSs.mgmtPktCtr
  unfold framesPending at estimate
  rw [assertAlways_bind, decide_eq_true_eq] at estimate
  obtain ⟨hwSeen, estimate⟩ := estimate
  split at estimate
  · rw [assertAlways_bind, decide_eq_true_eq] at estimate
    obtain ⟨hwBefore, estimate⟩ := estimate
    obtain ⟨before, consumed, forwarded⟩ := Option.bind_eq_some_iff.mp estimate
    have range := pendingBeforeConsumed_range hwBefore (by omega) consumed
    unfold pendingBeforeForwarded at forwarded
    split at forwarded
    · rw [assertAlways_bind, assertAlways_bind, decide_eq_true_eq, decide_eq_true_eq] at forwarded
      obtain ⟨positive, minNonneg, forwarded⟩ := forwarded
      obtain rfl := Option.some.inj forwarded
      omega
    · obtain rfl := Option.some.inj forwarded
      exact range
  · obtain rfl := Option.some.inj estimate
    omega

end Qsdk.MgmtRxReo
