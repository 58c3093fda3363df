/-
**What one operation does, to the queue and to what the threads owe.**

`Effect` puts the sections and the ledger together: every operation that a thread is entitled to has
one of these effects (`effect_of_run`), given the queue invariant and room in the active lists. All
the invariants of the queue are shown to be kept effect by effect.
-/

import Qsdk.Serialization.Duties
import Qsdk.Serialization.Sections

namespace Qsdk.Serialization

variable {limits : Limits}

/-- The operation walks over the pdev's pending list. -/
def SerOp.WalksPdev (queue : Queue limits) : SerOp limits → Prop
  | .moveStart _ blockingCmdRemoved => queue.vdevQueueLookup blockingCmdRemoved = false
  | .moveResume => queue.blockingCmdActive = false
  | _ => False

/-- A cancellation takes a command off the lists. -/
inductive Queue.Cancels (queue : Queue limits) (isActive : Bool) (cmd : Command limits) :
    Queue limits → Prop where
  | mk {inUse : NodeId → InUse} {node : NodeId} (remarks : queue.Remarks [] inUse)
      (listed : node ∈ queue.pdevList isActive) (isCmd : queue.cmd node = some cmd) :
      Cancels queue isActive cmd
        (((queue.remarked inUse).take isActive node cmd.vdev).release node)

/-- The effects of the operations. -/
inductive Effect : SerOp limits → Duties limits → Queue limits → Duties limits → Queue limits →
    Prop where
  /-- At most, bits of nodes are changed. -/
  | remarked {op : SerOp limits} {owed : Duties limits} {queue : Queue limits}
      {inUse : NodeId → InUse} (remarks : queue.Remarks [] inUse) :
      Effect op owed queue owed (queue.remarked inUse)
  | activated {node : NodeId} {owed : Duties limits} {queue : Queue limits} :
      Effect (.activated node) owed queue owed (queue.activated node)
  | enqueued {cmd : Command limits} {reason : QueueReason} {owed : Duties limits}
      {queue after : Queue limits} {res : SerStatus × Option NodeId}
      (isEnqueued : queue.Enqueued cmd reason res after) :
      Effect (.enqueue cmd reason) owed queue owed after
  | dequeuedActive {ref : CmdRef limits} {owed : Duties limits} {queue : Queue limits}
      {node : NodeId} {cmd : Command limits} (listed : node ∈ queue.activeList)
      (isCmd : queue.cmd node = some cmd) :
      Effect (.dequeue ref true) owed queue (Duty.ofRemoved cmd.vdev cmd.isBlocking ::ₘ owed)
        ((queue.removed true node cmd.vdev).release node)
  | dequeuedPending {ref : CmdRef limits} {owed : Duties limits} {queue : Queue limits}
      {node : NodeId} {given cmd : Command limits} (resolved : ref.resolve queue = some given)
      (found : queue.findCmd queue.pendingList given = some node)
      (listed : node ∈ queue.pendingList) (isCmd : queue.cmd node = some cmd) :
      Effect (.dequeue ref false) owed queue owed
        ((queue.removed false node cmd.vdev).release node)
  /-- The first pending command of the vdev, if any, may not be moved. -/
  | vdevIdle {vdev : limits.Vdev} {owed : Duties limits} {queue : Queue limits}
      (owes : Duty.move vdev ∈ owed) (noneWaits : queue.blockingCmdWaiting = 0)
      (idle : ∀ node rest, queue.vdevList false vdev = node :: rest →
        queue.vdevActiveCmdBitmap vdev = true ∨ (queue.cmdInUse node).markedForMovement = true) :
      Effect (.moveStart vdev false) owed queue (owed.erase (.move vdev)) queue
  | vdevMoved {vdev : limits.Vdev} {owed : Duties limits} {queue after : Queue limits}
      {node : NodeId} {cmd : Command limits} (owes : Duty.move vdev ∈ owed)
      (noneWaits : queue.blockingCmdWaiting = 0)
      (first : (queue.vdevList false vdev).head? = some node)
      (unmarked : (queue.cmdInUse node).markedForMovement = false) (onVdev : cmd.vdev = vdev)
      (moved : queue.Moved node cmd after) (sameMarks : after = queue.promoted node cmd) :
      Effect (.moveStart vdev false) owed queue (owed.erase (.move vdev)) after
  /-- The walk has stopped at a blocking command that has to wait, or has come to the end. -/
  | pdevIdle {op : SerOp limits} {duty : Duty limits} {owed : Duties limits} {queue : Queue limits}
      {inUse : NodeId → InUse} (walks : op.WalksPdev queue) (owes : duty ∈ owed)
      (noAccount : ¬duty.IsAccount) (remarks : queue.Remarks queue.pendingList inUse)
      (idle : (∃ node ∈ queue.pendingList, queue.isBlocking node = true ∧
          queue.anyVdevCmdActive = true) ∨
        ∀ node ∈ queue.pendingList, queue.vdevCmdActive node = true ∧
          (inUse node).markedForMovement = false) :
      Effect op owed queue (owed.erase duty) (queue.remarked inUse)
  | pdevMoved {op : SerOp limits} {duty : Duty limits} {owed : Duties limits}
      {queue after : Queue limits} {node : NodeId} {cmd : Command limits}
      (walks : op.WalksPdev queue) (owes : duty ∈ owed) (noAccount : ¬duty.IsAccount)
      (reached : node ∈ queue.walked queue.pendingList) (moved : queue.Moved node cmd after) :
      Effect op owed queue (Duty.walk ::ₘ owed.erase duty) after
  /-- A blocking command is active: the walk is not taken up again. -/
  | stopped {owed : Duties limits} {queue : Queue limits} (owes : Duty.walk ∈ owed)
      (active : queue.blockingCmdActive = true) :
      Effect .moveResume owed queue (owed.erase .walk) queue
  | cancelled {ref : CancelRef limits} {isActive : Bool} {owed : Duties limits}
      {queue after : Queue limits} {cmd : Command limits}
      (cancels : queue.Cancels isActive cmd after) :
      Effect (.cancelStart ref isActive) owed queue (Duty.ofCancelled isActive cmd ::ₘ owed) after
  | settled {ref : CancelRef limits} {isActive : Bool} {cmd : Command limits}
      {loop : Queue.CancelLoop} {owed : Duties limits} {queue : Queue limits}
      {inUse : NodeId → InUse} (owes : Duty.ofCancelled isActive cmd ∈ owed)
      (remarks : (queue.cancelSettle cmd isActive).Remarks [] inUse) :
      Effect (.cancelResume ref isActive cmd loop) owed queue
        (owed.erase (.ofCancelled isActive cmd))
        ((queue.cancelSettle cmd isActive).remarked inUse)
  | settledCancelled {ref : CancelRef limits} {isActive : Bool} {cmd next : Command limits}
      {loop : Queue.CancelLoop} {owed : Duties limits} {queue after : Queue limits}
      (owes : Duty.ofCancelled isActive cmd ∈ owed)
      (cancels : (queue.cancelSettle cmd isActive).Cancels isActive next after) :
      Effect (.cancelResume ref isActive cmd loop) owed queue
        (Duty.ofCancelled isActive next ::ₘ owed.erase (.ofCancelled isActive cmd)) after

/-! ### The settlement of an account -/

section Settle

variable (queue : Queue limits) (cmd : Command limits) (isActive : Bool)

theorem cancelSettle_pdevList : (queue.cancelSettle cmd isActive).pdevList = queue.pdevList := by
  unfold Queue.cancelSettle
  split
  · rfl
  · split <;> rfl

theorem cancelSettle_cmd : (queue.cancelSettle cmd isActive).cmd = queue.cmd := by
  unfold Queue.cancelSettle
  split
  · rfl
  · split <;> rfl

theorem wf_cancelSettle {hand : Multiset NodeId} (wf : Queue.Wf hand queue) :
    Queue.Wf hand (queue.cancelSettle cmd isActive) := by
  unfold Queue.cancelSettle
  split
  · exact wf.congr rfl rfl rfl rfl rfl
  · split
    · exact wf.congr rfl rfl rfl rfl rfl
    · exact wf

end Settle

/-! ### Every operation has one of the effects -/

section Run

variable {queue after : Queue limits} {owed : Duties limits}

theorem effect_of_pdevWalk (wf : Queue.Wf 0 queue) (roomy : queue.Roomy) {op : SerOp limits}
    {duty : Duty limits} (walks : op.WalksPdev queue) (owes : duty ∈ owed)
    (noAccount : ¬duty.IsAccount) {res : Option NodeId}
    (walk : Queue.promotePicked (queue.pickFromPdevQueue queue.pendingList) = (res, after)) :
    Effect op owed queue (owed.exchange (some duty) (res.map fun _ => .walk)) after := by
  rcases Queue.pdevWalk_cases wf roomy walk with
    ⟨rfl, inUse, rfl, remarks, idle⟩ | ⟨node, cmd, rfl, reached, moved⟩
  · exact .pdevIdle walks owes noAccount remarks idle
  · exact .pdevMoved walks owes noAccount reached moved

theorem effect_of_moveStart (wf : Queue.Wf 0 queue) (roomy : queue.Roomy) {vdev : limits.Vdev}
    {blocking : Bool} (owes : Duty.ofRemoved vdev blocking ∈ owed) {res : Bool × Option NodeId}
    (ran : queue.moveStart vdev blocking = (res, after)) :
    Effect (.moveStart vdev blocking) owed queue
      (owed.exchange (some (.ofRemoved vdev blocking))
        ((SerOp.moveStart vdev blocking).leaves res)) after := by
  unfold Queue.moveStart at ran
  by_cases lookup : queue.vdevQueueLookup blocking = true
  · rw [if_pos lookup] at ran
    have looked := lookup
    unfold Queue.vdevQueueLookup at looked
    rw [Bool.and_eq_true, Bool.not_eq_true', decide_eq_true_iff] at looked
    obtain ⟨rfl, noneWaits⟩ := looked
    cases walk : Queue.promotePicked (queue.pickFromVdevQueue vdev, queue) with
    | mk moved last =>
      rw [walk] at ran
      obtain ⟨rfl, rfl⟩ := Prod.mk.inj ran
      rcases Queue.vdevWalk_cases wf roomy vdev walk with
        ⟨rfl, rfl, idle⟩ | ⟨node, cmd, rfl, first, unmarked, onVdev, isMoved, same⟩
      · exact .vdevIdle owes noneWaits idle
      · exact .vdevMoved owes noneWaits first unmarked onVdev isMoved same
  · rw [if_neg lookup] at ran
    cases walk : Queue.promotePicked (queue.pickFromPdevQueue queue.pendingList) with
    | mk moved last =>
      rw [walk] at ran
      obtain ⟨rfl, rfl⟩ := Prod.mk.inj ran
      have walks : (SerOp.moveStart vdev blocking).WalksPdev queue := eq_false_of_ne_true lookup
      have effect := effect_of_pdevWalk wf roomy walks owes
        (Duty.ofRemoved_not_account vdev blocking) walk
      cases moved with
      | none => exact effect
      | some node => exact effect

theorem effect_of_moveResume (wf : Queue.Wf 0 queue) (roomy : queue.Roomy)
    (owes : Duty.walk ∈ owed) {res : Option NodeId} (ran : queue.moveResume = (res, after)) :
    Effect .moveResume owed queue
      (owed.exchange (some .walk) (SerOp.moveResume.leaves res)) after := by
  unfold Queue.moveResume at ran
  by_cases active : queue.blockingCmdActive = true
  · rw [if_pos active] at ran
    obtain ⟨rfl, rfl⟩ := Prod.mk.inj ran
    exact .stopped owes active
  · rw [if_neg active] at ran
    have walks : (SerOp.moveResume : SerOp limits).WalksPdev queue := eq_false_of_ne_true active
    have effect := effect_of_pdevWalk wf roomy walks owes id ran
    cases res with
    | none => exact effect
    | some node => exact effect

theorem effect_of_dequeue (wf : Queue.Wf 0 queue) {ref : CmdRef limits} {activeCmd : Bool}
    {outcome : Bool} {res : Queue.Dequeued limits}
    (ran : (SerOp.dequeue ref activeCmd).run outcome queue = (res, after)) :
    Effect (.dequeue ref activeCmd) owed queue
      (owed.exchange none ((SerOp.dequeue ref activeCmd).leaves res)) after := by
  have none_left : ∀ {res : Queue.Dequeued limits},
    (∀ vdev blocking, res ≠ .removed vdev blocking) →
      (SerOp.dequeue ref activeCmd).leaves res = none := by
    intro res notRemoved
    cases activeCmd with
    | false => rfl
    | true =>
      cases res with
      | removed vdev blocking => exact absurd rfl (notRemoved vdev blocking)
      | _ => rfl
  unfold SerOp.run at ran
  dsimp only at ran
  cases resolved : ref.resolve queue with
  | none =>
    rw [resolved] at ran
    obtain ⟨rfl, rfl⟩ := Prod.mk.inj ran
    have nothing : (SerOp.dequeue ref activeCmd).leaves .notFound = none :=
      none_left fun _ _ => by simp
    rw [nothing]
    exact .remarked (.refl _ _)
  | some cmd =>
    rw [resolved] at ran
    rcases Queue.dequeueCmd_cases wf cmd activeCmd ran with
      ⟨notRemoved, inUse, rfl, remarks⟩ | ⟨node, listed, held, isHeld, found, rfl, rfl⟩
    · rw [none_left notRemoved]
      exact .remarked remarks
    · cases activeCmd with
      | false => exact .dequeuedPending resolved found listed isHeld
      | true => exact .dequeuedActive listed isHeld

theorem effect_of_cancelStart {ref : CancelRef limits} {isActive outcome : Bool}
    {res : Queue.Cancelled limits}
    (ran : (SerOp.cancelStart ref isActive).run outcome queue = (res, after)) :
    Effect (.cancelStart ref isActive) owed queue
      (owed.exchange none ((SerOp.cancelStart ref isActive).leaves res)) after := by
  unfold SerOp.run at ran
  dsimp only at ran
  cases resolved : ref.resolve queue with
  | none =>
    rw [resolved] at ran
    obtain ⟨rfl, rfl⟩ := Prod.mk.inj ran
    exact .remarked (.refl _ _)
  | some request =>
    rw [resolved] at ran
    obtain ⟨inUse, remarks, ⟨idle, rfl⟩ | ⟨node, cmd, loop, rfl, listed, isCmd, rfl⟩⟩ :=
      Queue.cancelLoop_cases _ _ _ _ _ ran
    · cases res with
      | removed cmd loop => exact absurd idle id
      | _ => exact .remarked remarks
    · exact .cancelled ⟨remarks, listed, isCmd⟩

theorem effect_of_cancelResume {ref : CancelRef limits} {isActive outcome : Bool}
    {cmd : Command limits} {loop : Queue.CancelLoop} {res : Queue.Cancelled limits}
    (owes : Duty.ofCancelled isActive cmd ∈ owed)
    (ran : (SerOp.cancelResume ref isActive cmd loop).run outcome queue = (res, after)) :
    Effect (.cancelResume ref isActive cmd loop) owed queue
      (owed.exchange (some (.ofCancelled isActive cmd))
        ((SerOp.cancelResume ref isActive cmd loop).leaves res)) after := by
  unfold SerOp.run at ran
  dsimp only at ran
  cases resolved : ref.resolve queue with
  | none =>
    rw [resolved] at ran
    obtain ⟨rfl, rfl⟩ := Prod.mk.inj ran
    exact .settled owes (.refl _ _)
  | some request =>
    rw [resolved] at ran
    dsimp only at ran
    unfold Queue.cancelResume at ran
    dsimp only at ran
    split at ran
    · obtain ⟨rfl, rfl⟩ := Prod.mk.inj ran
      exact .settled owes (.refl _ _)
    · obtain ⟨inUse, remarks, ⟨idle, rfl⟩ | ⟨node, next, loop, rfl, listed, isCmd, rfl⟩⟩ :=
        Queue.cancelLoop_cases _ _ _ _ _ ran
      · cases res with
        | removed next loop => exact absurd idle id
        | _ => exact .settled owes remarks
      · exact .settledCancelled owes ⟨remarks, listed, isCmd⟩

/-- **Every operation has one of the effects.** -/
theorem effect_of_run (wf : Queue.Wf 0 queue) (roomy : queue.Roomy) {op : SerOp limits}
    {outcome : Bool} {res : op.Res} (owes : ∀ duty, op.settles = some duty → duty ∈ owed)
    (ran : op.run outcome queue = (res, after)) :
    Effect op owed queue (owed.exchange op.settles (op.leaves res)) after := by
  cases op with
  | enqueue cmd reason =>
    have isEnqueued := Queue.enqueueCmd_cases wf cmd reason
    have ran : queue.enqueueCmd cmd reason = (res, after) := ran
    rw [ran] at isEnqueued
    exact .enqueued isEnqueued
  | dequeue ref activeCmd => exact effect_of_dequeue wf ran
  | moveStart vdev blocking => exact effect_of_moveStart wf roomy (owes _ rfl) ran
  | moveResume => exact effect_of_moveResume wf roomy (owes _ rfl) ran
  | notify node =>
    obtain ⟨rfl, rfl⟩ := Prod.mk.inj ran
    exact .remarked (.refl _ _)
  | activated node =>
    obtain ⟨rfl, rfl⟩ := Prod.mk.inj ran
    exact .activated
  | readInUse node =>
    obtain ⟨rfl, rfl⟩ := Prod.mk.inj ran
    exact .remarked (.refl _ _)
  | cancelStart ref isActive => exact effect_of_cancelStart ran
  | cancelResume ref isActive cmd loop => exact effect_of_cancelResume (owes _ rfl) ran
  | isCmdPresentInActiveQueue cmd =>
    obtain ⟨rfl, rfl⟩ := Prod.mk.inj ran
    exact .remarked (.refl _ _)

end Run

end Qsdk.Serialization
