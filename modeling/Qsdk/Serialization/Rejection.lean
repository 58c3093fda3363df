/-
**What a rejected request changes.**

`enqueueCmd_unchanged_iff`: in every reachable state, a request that is neither activated nor queued
leaves the queue as it was exactly unless it has been counted as waiting before it was rejected, or
it has disabled the queue of its vdev although the lists had no room for it.
-/

import Qsdk.Serialization.Bookkeeping

namespace Qsdk.Serialization

open Queue

variable {limits : Limits}

namespace Queue

/-- The lists hold the same commands, and counters and flags are the same. -/
structure Unchanged (queue after : Queue limits) : Prop where
  active : after.activeList.map after.cmd = queue.activeList.map queue.cmd
  pending : after.pendingList.map after.cmd = queue.pendingList.map queue.cmd
  pool : (after.cmdPoolList : Multiset NodeId) = queue.cmdPoolList
  blockingActive : after.blockingCmdActive = queue.blockingCmdActive
  waiting : after.blockingCmdWaiting = queue.blockingCmdWaiting
  bitmap : after.vdevActiveCmdBitmap = queue.vdevActiveCmdBitmap
  queueDisable : after.queueDisable = queue.queueDisable

/-- The queue of the command's vdev is disabled although the lists have no room for it. -/
def DisabledInVain (queue : Queue limits) (cmd : Command limits) : Prop :=
  cmd.queueDisable = true ∧ queue.queueDisable cmd.vdev = false ∧
    queue.isCmdPresentQueue cmd (queue.activeQueue cmd) = false ∧ queue.cmdPoolList ≠ [] ∧
    queue.Full cmd (queue.activeQueue cmd)

end Queue

section Rejected

variable {queue after : Queue limits} {cmd : Command limits}

theorem unchanged_iff_counts (sameActive : after.pdevList = queue.pdevList)
    (sameCmd : ∀ isActive, ∀ node ∈ queue.pdevList isActive, after.cmd node = queue.cmd node)
    (samePool : (after.cmdPoolList : Multiset NodeId) = queue.cmdPoolList)
    (sameFlag : after.blockingCmdActive = queue.blockingCmdActive)
    (sameBitmap : after.vdevActiveCmdBitmap = queue.vdevActiveCmdBitmap) :
    queue.Unchanged after ↔ after.blockingCmdWaiting = queue.blockingCmdWaiting ∧
      after.queueDisable = queue.queueDisable := by
  refine ⟨fun unchanged => ⟨unchanged.waiting, unchanged.queueDisable⟩, fun ⟨waiting, disable⟩ =>
    ⟨?_, ?_, samePool, sameFlag, waiting, sameBitmap, disable⟩⟩
  · unfold activeList
    rw [sameActive]
    exact List.map_congr_left (sameCmd true)
  · unfold pendingList
    rw [sameActive]
    exact List.map_congr_left (sameCmd false)

theorem counted_waiting_eq_iff :
    (queue.counted cmd).blockingCmdWaiting = queue.blockingCmdWaiting ↔ ¬queue.Counts cmd := by
  rw [counted_waiting]
  by_cases counts : queue.Counts cmd
  · rw [if_pos counts]
    refine iff_of_false (fun same => ?_) (not_not_intro counts)
    have changed : queue.blockingCmdWaiting + 1 ≠ queue.blockingCmdWaiting := by
      intro same
      have values := congrArg BitVec.toNat same
      have one : (1 : BitVec 16).toNat = 1 := rfl
      rw [BitVec.toNat_add] at values
      have bound := queue.blockingCmdWaiting.isLt
      omega
    exact changed same
  · rw [if_neg counts]
    exact iff_of_true rfl counts

theorem counted_queueDisable : (queue.counted cmd).queueDisable = queue.queueDisable := by
  unfold counted
  split <;> rfl

/-- A command with the attribute leaves the flags as they were when its vdev's is set already. -/
theorem disableQueue_eq_iff : (queue.disableQueue cmd).queueDisable = queue.queueDisable ↔
    ¬(cmd.queueDisable = true ∧ queue.queueDisable cmd.vdev = false) := by
  unfold disableQueue
  by_cases disables : cmd.queueDisable = true
  · rw [if_pos disables]
    refine ⟨fun same both => ?_, fun already => ?_⟩
    · have value := congrFun same cmd.vdev
      rw [both.2] at value
      simp at value
    · rw [not_and] at already
      have isSet := eq_true_of_ne_false (already disables)
      funext vdev
      show Function.update queue.queueDisable cmd.vdev true vdev = _
      by_cases same : vdev = cmd.vdev
      · subst same
        rw [Function.update_self, isSet]
      · rw [Function.update_of_ne same]
  · rw [if_neg disables]
    exact iff_of_true rfl fun both => disables both.1

/-- **A rejected request**, in a state that keeps the queue invariant. -/
theorem enqueued_unchanged_iff (wf : Wf 0 queue) {reason : QueueReason}
    {res : SerStatus × Option NodeId} (isEnqueued : queue.Enqueued cmd reason res after)
    (rejected : res.1 ≠ .active ∧ res.1 ≠ .pending) :
    queue.Unchanged after ↔
      ¬(queue.Admits cmd reason ∧ (queue.Counts cmd ∨ queue.DisabledInVain cmd)) := by
  cases isEnqueued with
  | refused denied refuses =>
    refine iff_of_true ⟨rfl, rfl, rfl, rfl, rfl, rfl, rfl⟩ fun both => refuses both.1
  | rejected denied admits why =>
    rw [unchanged_iff_counts (counted_pdevList ..) (fun _ node _ => congrFun (counted_cmd ..) node)
      (congrArg _ (counted_cmdPoolList ..)) (counted_blockingCmdActive ..)
      (counted_vdevActiveCmdBitmap ..), counted_waiting_eq_iff, counted_queueDisable]
    have notInVain : ¬queue.DisabledInVain cmd := by
      rintro ⟨-, -, isNew, pool, -⟩
      rcases why with present | empty
      · rw [isNew] at present
        exact Bool.false_ne_true present
      · exact pool empty
    simp [admits, notInVain]
  | full admits isNew isPool full =>
    rename_i node pool
    have listed : ∀ isActive, ∀ other ∈ queue.pdevList isActive,
        (((freshFor queue node pool cmd).disableQueue cmd).release node).cmd other =
          queue.cmd other := by
      intro isActive other listed
      have different : other ≠ node := by
        rintro rfl
        refine wf.pool_not_listed ?_ isActive listed
        rw [isPool]
        exact List.mem_cons_self
      refine (Function.update_of_ne different _ _).trans ?_
      rw [disableQueue_cmd]
      exact freshFor_cmd_of_listed wf isPool listed
    have samePool : ((((freshFor queue node pool cmd).disableQueue cmd).release node).cmdPoolList :
        Multiset NodeId) = queue.cmdPoolList := by
      have isPool' : (((freshFor queue node pool cmd).disableQueue cmd).release node).cmdPoolList =
          pool ++ [node] := congrArg (· ++ [node]) (disableQueue_cmdPoolList ..)
      rw [isPool', isPool]
      exact Multiset.coe_eq_coe.mpr List.perm_append_comm
    have sameDisable : (freshFor queue node pool cmd).queueDisable = queue.queueDisable :=
      counted_queueDisable
    have disables : (((freshFor queue node pool cmd).disableQueue cmd).release node).queueDisable =
        queue.queueDisable ↔
          ¬(cmd.queueDisable = true ∧ queue.queueDisable cmd.vdev = false) := by
      rw [← sameDisable]
      exact disableQueue_eq_iff
    have waits :
      (((freshFor queue node pool cmd).disableQueue cmd).release node).blockingCmdWaiting =
        queue.blockingCmdWaiting ↔ ¬queue.Counts cmd := by
      rw [← counted_waiting_eq_iff]
      show ((freshFor queue node pool cmd).disableQueue cmd).blockingCmdWaiting = _ ↔ _
      rw [disableQueue_blockingCmdWaiting]
      rfl
    have inVain : queue.DisabledInVain cmd ↔
        cmd.queueDisable = true ∧ queue.queueDisable cmd.vdev = false := by
      refine ⟨fun ⟨first, second, _⟩ => ⟨first, second⟩, fun ⟨first, second⟩ =>
        ⟨first, second, isNew, ?_, full⟩⟩
      rw [isPool]
      exact List.cons_ne_nil _ _
    have iff : queue.Unchanged (((freshFor queue node pool cmd).disableQueue cmd).release node) ↔
        _ :=
      unchanged_iff_counts ((disableQueue_pdevList ..).trans (counted_pdevList ..)) listed samePool
        ((disableQueue_blockingCmdActive ..).trans (counted_blockingCmdActive ..))
        ((disableQueue_vdevActiveCmdBitmap ..).trans (counted_vdevActiveCmdBitmap ..))
    rw [waits, disables, ← inVain] at iff
    refine iff.trans ?_
    simp [admits]
  | pending admits isNew isPool room waits => exact absurd rfl rejected.2
  | active admits isPool room allowed => exact absurd rfl rejected.1

end Rejected

/-- **A rejected request changes nothing**, in every reachable state, exactly unless it was admitted
and either it had to wait for a vdev, or it disabled the queue of its vdev in vain. -/
theorem enqueueCmd_unchanged_iff {Tid : Type} [DecidableEq Tid]
    {history : List (Queue limits × SerLabel Tid limits)} {machine : Machine Tid limits}
    (run : (system Tid limits).Run history machine) (cmd : Command limits) (reason : QueueReason)
    (rejected : (machine.state.enqueueCmd cmd reason).1.1 ≠ .active ∧
      (machine.state.enqueueCmd cmd reason).1.1 ≠ .pending) :
    machine.state.Unchanged (machine.state.enqueueCmd cmd reason).2 ↔
      ¬(machine.state.Admits cmd reason ∧
        (machine.state.Counts cmd ∨ machine.state.DisabledInVain cmd)) := by
  obtain ⟨owed, total, -, base, -⟩ :=
    (base_valid Tid fun _ _ => True).holds (run.guarded fun _ _ => trivial)
  exact enqueued_unchanged_iff base.wf (enqueueCmd_cases base.wf cmd reason) rejected

/-- A blocking command that waits for another one is requested again. -/
theorem not_unchanged_duplicate : ∃ machine : Machine Bool threeVdevs,
    (system Bool threeVdevs).Reachable machine ∧
      (machine.state.enqueueCmd (command 2 1 true) .request).1.1 = .deniedUnspecified ∧
      ¬machine.state.Unchanged (machine.state.enqueueCmd (command 2 1 true) .request).2 := by
  refine ⟨requestedTwice, requestedTwice_reachable, by decide +kernel, fun unchanged => ?_⟩
  have counted :
    (requestedTwice.state.enqueueCmd (command 2 1 true) .request).2.blockingCmdWaiting ≠
      requestedTwice.state.blockingCmdWaiting := by decide +kernel
  exact counted unchanged.waiting

/-- A command is queued behind itself. -/
def queuedTwice : Machine Bool threeVdevs :=
  let strategy := succeeds Bool threeVdevs
  ((Machine.init Bool threeVdevs).calls strategy false
    (.enqueue (command 1 0 false) .request) 7).calls strategy false
      (.enqueue (command 1 0 false) .request) 7

theorem queuedTwice_reachable : (system Bool threeVdevs).Reachable queuedTwice := by
  refine Machine.calls_reachable _ ?_ (by exact ⟨rfl, _, _, rfl⟩) (by decide +kernel) _ _
  refine Machine.calls_reachable _ ?_ (by exact ⟨rfl, _, _, rfl⟩) rfl _ _
  exact ⟨[], .init rfl⟩

/-- A non-blocking command that is pending is rejected, and nothing changes. -/
theorem enqueueCmd_unchanged_iff_queuedTwice :
    (queuedTwice.state.enqueueCmd (command 1 0 false) .request).1.1 = .deniedUnspecified ∧
      queuedTwice.state.Unchanged
          (queuedTwice.state.enqueueCmd (command 1 0 false) .request).2 := by
  obtain ⟨history, run⟩ := queuedTwice_reachable
  refine ⟨by decide +kernel, (enqueueCmd_unchanged_iff run _ _ (by decide +kernel)).mpr ?_⟩
  rintro ⟨-, counts | inVain⟩
  · exact Bool.false_ne_true counts.1
  · exact Bool.false_ne_true inVain.1

end Qsdk.Serialization
