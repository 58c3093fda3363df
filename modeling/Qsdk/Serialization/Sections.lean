/-
**What the sections under the lock do.**

Each section is described by the outcomes it can have: an enqueue is refused, rejected after the
command was counted, or adds the command (`Enqueued`); a dequeue removes a command or not
(`dequeueCmd_cases`); a walk over a pending list picks a command or says why there is none
(`pickFromPdevQueue_spec`), and the command picked is moved (`promoteCmd_eq`); a cancellation
removes one command or none (`cancelLoop_spec`).
-/

import Qsdk.Serialization.QueueInvariant
import Mathlib.Data.List.Find
import Mathlib.Data.List.Pairwise

namespace Qsdk.Serialization.Queue

variable {limits : Limits} {hand : Multiset NodeId} {queue : Queue limits} {isActive : Bool}
  {node : NodeId} {cmd : Command limits}

/-! ### Fields that a section leaves alone -/

section Fields

variable (queue : Queue limits) (isActive : Bool) (node : NodeId) (vdev : limits.Vdev)
  (cmd : Command limits)

@[simp] theorem disableQueue_pdevList : (queue.disableQueue cmd).pdevList = queue.pdevList := by
  unfold disableQueue
  split <;> rfl

@[simp] theorem disableQueue_vdevList : (queue.disableQueue cmd).vdevList = queue.vdevList := by
  unfold disableQueue
  split <;> rfl

@[simp] theorem disableQueue_cmdPoolList :
    (queue.disableQueue cmd).cmdPoolList = queue.cmdPoolList := by
  unfold disableQueue
  split <;> rfl

@[simp] theorem disableQueue_cmd : (queue.disableQueue cmd).cmd = queue.cmd := by
  unfold disableQueue
  split <;> rfl

@[simp] theorem disableQueue_cmdInUse : (queue.disableQueue cmd).cmdInUse = queue.cmdInUse := by
  unfold disableQueue
  split <;> rfl

@[simp] theorem disableQueue_vdevActiveCmdBitmap :
    (queue.disableQueue cmd).vdevActiveCmdBitmap = queue.vdevActiveCmdBitmap := by
  unfold disableQueue
  split <;> rfl

@[simp] theorem disableQueue_blockingCmdActive :
    (queue.disableQueue cmd).blockingCmdActive = queue.blockingCmdActive := by
  unfold disableQueue
  split <;> rfl

@[simp] theorem disableQueue_blockingCmdWaiting :
    (queue.disableQueue cmd).blockingCmdWaiting = queue.blockingCmdWaiting := by
  unfold disableQueue
  split <;> rfl

@[simp] theorem added_pdevList :
    (queue.added isActive node cmd).pdevList = (queue.put isActive node cmd).pdevList := by
  cases isActive <;> exact disableQueue_pdevList _ _

@[simp] theorem added_vdevList :
    (queue.added isActive node cmd).vdevList = (queue.put isActive node cmd).vdevList := by
  cases isActive <;> exact disableQueue_vdevList _ _

@[simp] theorem added_cmdPoolList :
    (queue.added isActive node cmd).cmdPoolList = queue.cmdPoolList := by
  cases isActive <;> exact disableQueue_cmdPoolList _ _

@[simp] theorem added_cmd : (queue.added isActive node cmd).cmd = queue.cmd := by
  cases isActive <;> exact disableQueue_cmd _ _

@[simp] theorem added_cmdInUse : (queue.added isActive node cmd).cmdInUse = queue.cmdInUse := by
  cases isActive <;> exact disableQueue_cmdInUse _ _

@[simp] theorem added_blockingCmdWaiting :
    (queue.added isActive node cmd).blockingCmdWaiting = queue.blockingCmdWaiting := by
  cases isActive <;> exact disableQueue_blockingCmdWaiting _ _

/-- Only an active command sets its vdev's bit. -/
theorem added_vdevActiveCmdBitmap : (queue.added isActive node cmd).vdevActiveCmdBitmap =
    if isActive then Function.update queue.vdevActiveCmdBitmap cmd.vdev true
    else queue.vdevActiveCmdBitmap := by
  cases isActive with
  | false => exact disableQueue_vdevActiveCmdBitmap _ _
  | true =>
    show Function.update ((queue.put true node cmd).disableQueue cmd).vdevActiveCmdBitmap _ _ = _
    rw [disableQueue_vdevActiveCmdBitmap]
    rfl

/-- Only an active blocking command sets the flag. -/
theorem added_blockingCmdActive : (queue.added isActive node cmd).blockingCmdActive =
    (queue.blockingCmdActive || isActive && cmd.isBlocking) := by
  cases isActive with
  | false =>
    rw [Bool.false_and, Bool.or_false]
    exact disableQueue_blockingCmdActive _ _
  | true =>
    show (((queue.put true node cmd).disableQueue cmd).blockingCmdActive || _) = _
    rw [disableQueue_blockingCmdActive]
    rfl

end Fields

theorem Wf.added (wf : Wf (node ::ₘ hand) queue) (isCmd : queue.cmd node = some cmd)
    (isIdle : isActive = false → (queue.cmdInUse node).markedForActivation = false)
    (isNew : isActive = false → ∀ other ∈ queue.pendingList, ∀ third,
      queue.cmd other = some third → sameKey third cmd = false) :
    Wf hand (queue.added isActive node cmd) :=
  (wf.put isCmd isIdle isNew).congr (added_pdevList ..) (added_vdevList ..) (added_cmdPoolList ..)
    (added_cmd ..) (added_cmdInUse ..)

theorem count_added (isCmd : queue.cmd node = some cmd) (kind : Command limits → Bool)
    (other : Bool) : (queue.added isActive node cmd).count other kind =
      queue.count other kind + if other = isActive ∧ kind cmd = true then 1 else 0 := by
  rw [← count_put isCmd kind other]
  unfold count
  rw [added_pdevList, added_cmd]
  rfl

/-! ### Enqueue -/

/-- The request reaches the admission of its command. -/
def Admits (queue : Queue limits) (cmd : Command limits) (reason : QueueReason) : Prop :=
  cmd.cmdCb = true ∧ ¬(reason = .request ∧ queue.queueDisable cmd.vdev = true)

instance (queue : Queue limits) (cmd : Command limits) (reason : QueueReason) :
    Decidable (queue.Admits cmd reason) := inferInstanceAs (Decidable (_ ∧ _))

/-- The list that an admitted command is for. -/
def activeQueue (queue : Queue limits) (cmd : Command limits) : Bool :=
  (queue.isActiveCmdAllowed cmd).1

/-- A blocking command that has to wait is counted. -/
def Counts (queue : Queue limits) (cmd : Command limits) : Prop :=
  cmd.isBlocking = true ∧ queue.anyVdevCmdActive = true

instance (queue : Queue limits) (cmd : Command limits) : Decidable (queue.Counts cmd) :=
  inferInstanceAs (Decidable (_ ∧ _))

/-- The queue after the admission of a command. -/
def counted (queue : Queue limits) (cmd : Command limits) : Queue limits :=
  if queue.Counts cmd then { queue with blockingCmdWaiting := queue.blockingCmdWaiting + 1 }
  else queue

theorem isActiveCmdAllowed_eq (queue : Queue limits) (cmd : Command limits) :
    queue.isActiveCmdAllowed cmd = (queue.activeQueue cmd, queue.counted cmd) := by
  refine Prod.ext rfl ?_
  show (queue.isActiveNonScanCmdAllowed cmd).2 = _
  unfold isActiveNonScanCmdAllowed counted Counts
  by_cases blocking : cmd.isBlocking = true <;> by_cases any : queue.anyVdevCmdActive = true <;>
    simp [blocking, any, apply_ite Prod.snd]

/-- **Which commands become active.** -/
theorem activeQueue_iff (queue : Queue limits) (cmd : Command limits) :
    queue.activeQueue cmd = true ↔ queue.vdevList false cmd.vdev = [] ∧
      if cmd.isBlocking then queue.anyVdevCmdActive = false
      else queue.blockingCmdActive = false ∧ queue.blockingCmdWaiting.setWidth 8 = 0 ∧
        queue.vdevActiveCmdBitmap cmd.vdev = false := by
  have same : (queue.isActiveNonScanCmdAllowed cmd).2.vdevList = queue.vdevList := by
    unfold isActiveNonScanCmdAllowed
    split
    · split <;> rfl
    · split <;> rfl
  show ((queue.isActiveNonScanCmdAllowed cmd).1 &&
    ((queue.isActiveNonScanCmdAllowed cmd).2.vdevList false cmd.vdev).isEmpty) = true ↔ _
  rw [same, Bool.and_eq_true, List.isEmpty_iff, and_comm]
  refine and_congr_right fun _ => ?_
  unfold isActiveNonScanCmdAllowed
  by_cases blocking : cmd.isBlocking = true
  · by_cases any : queue.anyVdevCmdActive = true <;> simp [blocking, any]
  · by_cases active : queue.blockingCmdActive = true
    · simp [blocking, active]
    · by_cases waiting : queue.blockingCmdWaiting.setWidth 8 = 0#8 <;>
        simp [blocking, active, waiting]

/-- What the section of `wlan_serialization_enqueue_cmd` does. -/
inductive Enqueued (queue : Queue limits) (cmd : Command limits) (reason : QueueReason) :
    SerStatus × Option NodeId → Queue limits → Prop where
  | refused {status : SerStatus} (denied : status ≠ .active ∧ status ≠ .pending)
      (refuses : ¬queue.Admits cmd reason) : Enqueued queue cmd reason (status, none) queue
  | rejected {status : SerStatus} (denied : status ≠ .active ∧ status ≠ .pending)
      (admits : queue.Admits cmd reason)
      (why : queue.isCmdPresentQueue cmd (queue.activeQueue cmd) = true ∨ queue.cmdPoolList = []) :
      Enqueued queue cmd reason (status, none) (queue.counted cmd)
  | full {node : NodeId} {pool : List NodeId} (admits : queue.Admits cmd reason)
      (isNew : queue.isCmdPresentQueue cmd (queue.activeQueue cmd) = false)
      (isPool : queue.cmdPoolList = node :: pool) (full : queue.Full cmd (queue.activeQueue cmd)) :
      Enqueued queue cmd reason (.deniedListFull, none)
        (((((queue.counted cmd).setPool pool).setCmd node (some cmd)).disableQueue cmd).release
          node)
  | pending {node : NodeId} {pool : List NodeId} (admits : queue.Admits cmd reason)
      (isNew : queue.isCmdPresentQueue cmd (queue.activeQueue cmd) = false)
      (isPool : queue.cmdPoolList = node :: pool) (room : ¬queue.Full cmd (queue.activeQueue cmd))
      (waits : queue.activeQueue cmd = false) : Enqueued queue cmd reason (.pending, none)
        ((((queue.counted cmd).setPool pool).setCmd node (some cmd)).added false node cmd)
  | active {node : NodeId} {pool : List NodeId} (admits : queue.Admits cmd reason)
      (isPool : queue.cmdPoolList = node :: pool) (room : ¬queue.Full cmd (queue.activeQueue cmd))
      (allowed : queue.activeQueue cmd = true) : Enqueued queue cmd reason (.active, some node)
        (((((queue.counted cmd).setPool pool).setCmd node (some cmd)).added true node
          cmd).updateInUse
          node fun inUse => { inUse with markedForActivation := true })

section Counted

variable (queue : Queue limits) (cmd : Command limits)

@[simp] theorem counted_pdevList : (queue.counted cmd).pdevList = queue.pdevList := by
  unfold counted
  split <;> rfl

@[simp] theorem counted_vdevList : (queue.counted cmd).vdevList = queue.vdevList := by
  unfold counted
  split <;> rfl

@[simp] theorem counted_cmdPoolList : (queue.counted cmd).cmdPoolList = queue.cmdPoolList := by
  unfold counted
  split <;> rfl

@[simp] theorem counted_cmd : (queue.counted cmd).cmd = queue.cmd := by
  unfold counted
  split <;> rfl

@[simp] theorem counted_cmdInUse : (queue.counted cmd).cmdInUse = queue.cmdInUse := by
  unfold counted
  split <;> rfl

@[simp] theorem counted_vdevActiveCmdBitmap :
    (queue.counted cmd).vdevActiveCmdBitmap = queue.vdevActiveCmdBitmap := by
  unfold counted
  split <;> rfl

@[simp] theorem counted_blockingCmdActive :
    (queue.counted cmd).blockingCmdActive = queue.blockingCmdActive := by
  unfold counted
  split <;> rfl

theorem Wf.counted {queue : Queue limits} (wf : Wf hand queue) (cmd : Command limits) :
    Wf hand (queue.counted cmd) :=
  wf.congr (counted_pdevList ..) (counted_vdevList ..) (counted_cmdPoolList ..) (counted_cmd ..)
    (counted_cmdInUse ..)

end Counted

/-- What is found in a list does not depend on the commands of other nodes. -/
theorem findCmd_congr {other : Queue limits} {list : List NodeId} (cmd : Command limits)
    (sameCmd : ∀ node ∈ list, other.cmd node = queue.cmd node) :
    other.findCmd list cmd = queue.findCmd list cmd := by
  unfold findCmd
  refine List.find?_congr fun node member => ?_
  rw [sameCmd node member]

/-- A node from the pool is given the command, and the command is added. -/
theorem addNonScanCmd_fresh {pool : List NodeId} (wf : Wf hand queue)
    (isPool : queue.cmdPoolList = node :: pool)
    (isNew : queue.isCmdPresentQueue cmd isActive = false) :
    ((queue.setPool pool).setCmd node (some cmd)).addNonScanCmd node cmd isActive =
      if queue.Full cmd isActive then
        (.deniedListFull, ((queue.setPool pool).setCmd node (some cmd)).disableQueue cmd)
      else (addedStatus isActive,
        ((queue.setPool pool).setCmd node (some cmd)).added isActive node cmd) := by
  have pooled : node ∈ queue.cmdPoolList := by
    rw [isPool]
    exact List.mem_cons_self
  by_cases full : queue.Full cmd isActive
  · rw [if_pos full]
    refine addNonScanCmd_of_full (wf.allocate isPool cmd) (Function.update_self ..)
      (wf.blank node pooled).2.1 ?_ full
    have absent : queue.findCmd (queue.vdevList isActive cmd.vdev) cmd = none := by
      simpa [isCmdPresentQueue] using isNew
    rw [← absent]
    refine findCmd_congr cmd fun other member => Function.update_of_ne ?_ _ _
    rintro rfl
    exact wf.pool_not_listed pooled isActive (wf.mem_vdevList.mp member).1
  · rw [if_neg full]
    exact addNonScanCmd_of_room full

/-- **Enqueue.** -/
theorem enqueueCmd_cases (wf : Wf hand queue) (cmd : Command limits) (reason : QueueReason) :
    Enqueued queue cmd reason (queue.enqueueCmd cmd reason).1 (queue.enqueueCmd cmd reason).2 := by
  unfold enqueueCmd
  by_cases callback : cmd.cmdCb = true
  · by_cases disabled : reason = .request ∧ queue.queueDisable cmd.vdev = true
    · have refuses : ¬queue.Admits cmd reason := fun admits => admits.2 disabled
      have isDisabled : (reason = .request && queue.queueDisable cmd.vdev : Bool) = true := by
        simp [disabled.1, disabled.2]
      rw [if_neg (by simp [callback]), if_pos isDisabled]
      exact .refused (by decide) refuses
    · have admits : queue.Admits cmd reason := ⟨callback, disabled⟩
      have isEnabled : ¬(reason = .request && queue.queueDisable cmd.vdev : Bool) = true := by
        simpa using disabled
      rw [if_neg (by simp [callback]), if_neg isEnabled, isActiveCmdAllowed_eq]
      show Enqueued queue cmd reason
        ((queue.counted cmd).enqueueAdmitted cmd (queue.activeQueue cmd)).1
        ((queue.counted cmd).enqueueAdmitted cmd (queue.activeQueue cmd)).2
      have present : (queue.counted cmd).isCmdPresentQueue cmd (queue.activeQueue cmd) =
          queue.isCmdPresentQueue cmd (queue.activeQueue cmd) := by
        unfold isCmdPresentQueue findCmd
        simp
      unfold enqueueAdmitted
      rw [present]
      by_cases isPresent : queue.isCmdPresentQueue cmd (queue.activeQueue cmd) = true
      · rw [if_pos isPresent]
        exact .rejected (by decide) admits (.inl isPresent)
      · rw [if_neg isPresent]
        have isNew := eq_false_of_ne_true isPresent
        cases isPool : queue.cmdPoolList with
        | nil =>
          have isPool' : (queue.counted cmd).cmdPoolList = [] := by simp [isPool]
          rw [isPool']
          exact .rejected (by decide) admits (.inr isPool)
        | cons node pool =>
          have isPool' : (queue.counted cmd).cmdPoolList = node :: pool := by simp [isPool]
          rw [isPool']
          dsimp only
          rw [addNonScanCmd_fresh (wf.counted cmd) isPool' (present.trans isNew)]
          have sameFull : (queue.counted cmd).Full cmd (queue.activeQueue cmd) ↔
              queue.Full cmd (queue.activeQueue cmd) := by
            unfold Full
            simp
          by_cases full : queue.Full cmd (queue.activeQueue cmd)
          · rw [if_pos (sameFull.mpr full)]
            exact .full admits isNew isPool full
          · rw [if_neg (mt sameFull.mp full)]
            cases allowed : queue.activeQueue cmd with
            | true =>
              rw [allowed] at full
              exact .active admits isPool (by rwa [allowed]) allowed
            | false =>
              exact .pending admits isNew isPool full allowed
  · have refuses : ¬queue.Admits cmd reason := fun admits => callback admits.1
    rw [if_pos (by simp [callback])]
    exact .refused (by decide) refuses

/-! ### Marks -/

/-- Only bits of nodes have changed. -/
def remarked (queue : Queue limits) (inUse : NodeId → InUse) : Queue limits :=
  { queue with cmdInUse := inUse }

/-- Which nodes are marked for activation is the same, and the nodes outside a list have the same
marks. -/
structure Remarks (queue : Queue limits) (list : List NodeId) (inUse : NodeId → InUse) : Prop where
  activation : ∀ node, (inUse node).markedForActivation = (queue.cmdInUse node).markedForActivation
  movement : ∀ node, node ∉ list →
    (inUse node).markedForMovement = (queue.cmdInUse node).markedForMovement

/-- Other bits of a node are changed. -/
theorem updateInUse_remarks (queue : Queue limits) (node : NodeId) (change : InUse → InUse)
    (activation : ∀ inUse, (change inUse).markedForActivation = inUse.markedForActivation)
    (movement : ∀ inUse, (change inUse).markedForMovement = inUse.markedForMovement) :
    queue.Remarks [] (Function.update queue.cmdInUse node (change (queue.cmdInUse node))) := by
  refine ⟨fun other => ?_, fun other _ => ?_⟩
  · by_cases same : other = node
    · subst same
      rw [Function.update_self, activation]
    · rw [Function.update_of_ne same]
  · by_cases same : other = node
    · subst same
      rw [Function.update_self, movement]
    · rw [Function.update_of_ne same]

theorem Remarks.refl (queue : Queue limits) (list : List NodeId) :
    queue.Remarks list queue.cmdInUse := ⟨fun _ => rfl, fun _ _ => rfl⟩

theorem Remarks.trans {first second : NodeId → InUse} {list one two : List NodeId}
    (before : queue.Remarks one first) (later : (queue.remarked first).Remarks two second)
    (withinOne : ∀ node ∈ one, node ∈ list) (withinTwo : ∀ node ∈ two, node ∈ list) :
    queue.Remarks list second where
  activation := fun node => (later.activation node).trans (before.activation node)
  movement := fun node outside =>
    (later.movement node fun member => outside (withinTwo node member)).trans
      (before.movement node fun member => outside (withinOne node member))

theorem Wf.remarked {list : List NodeId} {inUse : NodeId → InUse} (wf : Wf hand queue)
    (remarks : queue.Remarks list inUse) (outside : ∀ node ∈ list, node ∉ queue.cmdPoolList) :
    Wf hand (queue.remarked inUse) where
  nodes := wf.nodes
  blank := fun node pooled => by
    refine ⟨(wf.blank node pooled).1, ?_, ?_⟩
    · exact (remarks.activation node).trans (wf.blank node pooled).2.1
    · exact (remarks.movement node fun member => outside node member pooled).trans
        (wf.blank node pooled).2.2
  idle := fun node member => (remarks.activation node).trans (wf.idle node member)
  filled := wf.filled
  vdevLists := wf.vdevLists
  distinct := wf.distinct

/-! ### Dequeue -/

/-- **Dequeue.** -/
theorem dequeueCmd_cases (wf : Wf hand queue) (cmd : Command limits) (activeCmd : Bool)
    {res : Dequeued limits} {after : Queue limits}
    (isDequeued : queue.dequeueCmd cmd activeCmd = (res, after)) :
    ((∀ vdev blocking, res ≠ .removed vdev blocking) ∧ ∃ inUse, after = queue.remarked inUse ∧
      queue.Remarks [] inUse) ∨
    ∃ node ∈ queue.pdevList activeCmd, ∃ held, queue.cmd node = some held ∧
      queue.findCmd (queue.pdevList activeCmd) cmd = some node ∧
      res = .removed held.vdev (activeCmd && held.isBlocking) ∧
      after = (queue.removed activeCmd node held.vdev).release node := by
  unfold dequeueCmd at isDequeued
  rw [removeNonScanCmd_eq wf] at isDequeued
  cases found : queue.findCmd (queue.pdevList activeCmd) cmd with
  | none =>
    rw [found] at isDequeued
    obtain ⟨rfl, rfl⟩ := Prod.mk.inj isDequeued
    exact .inl ⟨nofun, queue.cmdInUse, rfl, .refl ..⟩
  | some node =>
    rw [found] at isDequeued
    dsimp only at isDequeued
    by_cases marked : (queue.cmdInUse node).markedForActivation = true
    · rw [if_pos marked] at isDequeued
      obtain ⟨rfl, rfl⟩ := Prod.mk.inj isDequeued
      exact .inl ⟨nofun, _, rfl, queue.updateInUse_remarks node
        (fun inUse => { inUse with activeMarkedForRemoval := true }) (fun _ => rfl) fun _ => rfl⟩
    · rw [if_neg marked] at isDequeued
      obtain ⟨listed, held, isHeld, same⟩ := findCmd_some found
      have sameVdev := vdev_of_sameKey same
      obtain ⟨rfl, rfl⟩ := Prod.mk.inj isDequeued
      refine .inr ⟨node, listed, held, isHeld, rfl, ?_, ?_⟩
      · have blocking : (queue.removed activeCmd node cmd.vdev).isBlocking node =
            held.isBlocking := by
          unfold isBlocking
          rw [removed_cmd, isHeld, Option.any_some]
        rw [blocking, sameVdev]
      · rw [sameVdev]

/-! ### Promotion -/

/-- A pending command is moved to the active lists. -/
def promoted (queue : Queue limits) (node : NodeId) (cmd : Command limits) : Queue limits :=
  let queue := ((queue.take false node cmd.vdev).added true node cmd).updateInUse node
    fun inUse => { inUse with markedForActivation := true }
  if cmd.isBlocking then { queue with blockingCmdWaiting := queue.blockingCmdWaiting - 1 }
  else queue

/-- No other pending command has the key of a pending command. -/
theorem Wf.findCmd_pending (wf : Wf hand queue) (pending : node ∈ queue.pendingList)
    (isCmd : queue.cmd node = some cmd) : queue.findCmd queue.pendingList cmd = some node := by
  cases found : queue.findCmd queue.pendingList cmd with
  | none =>
    have noMatch := List.find?_eq_none.mp found node pending
    rw [isCmd] at noMatch
    simp [sameKey] at noMatch
  | some other =>
    obtain ⟨listed, held, isHeld, same⟩ := findCmd_some found
    by_contra different
    have symmetric : Std.Symm fun one two => ∀ cmd other : Command limits,
        queue.cmd one = some cmd → queue.cmd two = some other → sameKey cmd other = false :=
      ⟨fun one two differ first second isFirst isSecond => by
        rw [sameKey_comm]
        exact differ second first isSecond isFirst⟩
    have differ := wf.distinct.forall listed pending fun equal => different (congrArg some equal)
    rw [differ held cmd isHeld isCmd] at same
    exact Bool.false_ne_true same

/-- **The command that a walk picks is moved.** -/
theorem promoteCmd_eq (wf : Wf hand queue) (pending : node ∈ queue.pendingList)
    (isCmd : queue.cmd node = some cmd) (room : ¬queue.Full cmd true) :
    queue.promoteCmd cmd = (some node, queue.promoted node cmd) := by
  unfold promoteCmd
  rw [removeNonScanCmd_eq wf, wf.findCmd_pending pending isCmd]
  dsimp only
  rw [if_neg (by rw [wf.idle node pending]; exact Bool.false_ne_true)]
  dsimp only
  have isHeld : (queue.removed false node cmd.vdev).cmd node = some cmd := isCmd
  rw [isHeld]
  dsimp only
  have stillRoom : ¬(queue.removed false node cmd.vdev).Full cmd true := by
    intro full
    refine room (full.imp (fun isFull => ?_) fun isFull => ?_)
    · rw [← isFull]
      show _ = ((queue.take false node cmd.vdev).vdevList true cmd.vdev).length
      rw [take_vdevList, if_neg (by simp)]
    · rw [← isFull]
      show _ = ((queue.take false node cmd.vdev).pdevList true).length
      rw [take_pdevList, if_neg (by simp)]
  rw [addNonScanCmd_of_room stillRoom]
  rfl

theorem Wf.promoted (wf : Wf hand queue) (pending : node ∈ queue.pendingList)
    (isCmd : queue.cmd node = some cmd) : Wf hand (queue.promoted node cmd) := by
  have listed : node ∈ queue.pdevList false := pending
  have moved : Wf hand ((queue.take false node cmd.vdev).added true node cmd) :=
    (wf.take listed isCmd).added isCmd nofun nofun
  have samePool : ((queue.take false node cmd.vdev).added true node cmd).cmdPoolList =
      queue.cmdPoolList := added_cmdPoolList ..
  have marked : Wf hand (((queue.take false node cmd.vdev).added true node cmd).updateInUse node
      fun inUse => { inUse with markedForActivation := true }) := by
    refine moved.updateInUse _ (fun pooled => ?_) fun still => ?_
    · rw [samePool] at pooled
      exact absurd pending (wf.pool_not_listed pooled false)
    · have still : node ∈ ((queue.take false node cmd.vdev).added true node cmd).pdevList false :=
        still
      rw [added_pdevList, put_pdevList, if_neg (by simp), take_pdevList, if_pos rfl] at still
      exact absurd still (wf.nodup false).not_mem_erase
  unfold Queue.promoted
  dsimp only
  split
  · exact marked.congr rfl rfl rfl rfl rfl
  · exact marked

section Promoted

variable (queue : Queue limits) (node : NodeId) (cmd : Command limits)

theorem promoted_pdevList (isActive : Bool) : (queue.promoted node cmd).pdevList isActive =
    if isActive then place queue.activeList node cmd else queue.pendingList.erase node := by
  have same : (queue.promoted node cmd).pdevList =
      ((queue.take false node cmd.vdev).put true node cmd).pdevList := by
    rw [← added_pdevList]
    unfold promoted
    dsimp only
    split <;> rfl
  rw [same, put_pdevList]
  cases isActive <;> simp [take_pdevList]

theorem promoted_cmd : (queue.promoted node cmd).cmd = queue.cmd := by
  have same : (queue.promoted node cmd).cmd =
      ((queue.take false node cmd.vdev).added true node cmd).cmd := by
    unfold promoted
    dsimp only
    split <;> rfl
  rw [same, added_cmd]
  rfl

theorem promoted_vdevActiveCmdBitmap : (queue.promoted node cmd).vdevActiveCmdBitmap =
    Function.update queue.vdevActiveCmdBitmap cmd.vdev true := by
  have same : (queue.promoted node cmd).vdevActiveCmdBitmap =
      ((queue.take false node cmd.vdev).added true node cmd).vdevActiveCmdBitmap := by
    unfold promoted
    dsimp only
    split <;> rfl
  rw [same, added_vdevActiveCmdBitmap]
  rfl

theorem promoted_blockingCmdActive : (queue.promoted node cmd).blockingCmdActive =
    (queue.blockingCmdActive || cmd.isBlocking) := by
  have same : (queue.promoted node cmd).blockingCmdActive =
      ((queue.take false node cmd.vdev).added true node cmd).blockingCmdActive := by
    unfold promoted
    dsimp only
    split <;> rfl
  rw [same, added_blockingCmdActive, Bool.true_and]
  rfl

theorem promoted_blockingCmdWaiting : (queue.promoted node cmd).blockingCmdWaiting =
    if cmd.isBlocking then queue.blockingCmdWaiting - 1 else queue.blockingCmdWaiting := by
  have same : (((queue.take false node cmd.vdev).added true node cmd).updateInUse node
      fun inUse => { inUse with markedForActivation := true }).blockingCmdWaiting =
        queue.blockingCmdWaiting := added_blockingCmdWaiting ..
  unfold promoted
  dsimp only
  split
  · rw [same]
  · exact same

/-- A command marked for movement was so before. -/
theorem promoted_markedForMovement (other : NodeId) :
    ((queue.promoted node cmd).cmdInUse other).markedForMovement =
      (queue.cmdInUse other).markedForMovement := by
  have same : (queue.promoted node cmd).cmdInUse = (((queue.take false node cmd.vdev).added true
      node cmd).updateInUse node fun inUse =>
          { inUse with markedForActivation := true }).cmdInUse := by
    unfold promoted
    dsimp only
    split <;> rfl
  have before : ((queue.take false node cmd.vdev).added true node cmd).cmdInUse = queue.cmdInUse :=
    added_cmdInUse ..
  rw [same]
  unfold updateInUse
  dsimp only
  rw [before]
  by_cases isNode : other = node
  · subst isNode
    rw [Function.update_self]
  · rw [Function.update_of_ne isNode]

end Promoted

theorem count_promoted (pending : node ∈ queue.pendingList) (isCmd : queue.cmd node = some cmd)
    (kind : Command limits → Bool) (other : Bool) :
    (queue.promoted node cmd).count other kind +
        (if other = false ∧ kind cmd = true then 1 else 0) =
      queue.count other kind + if other = true ∧ kind cmd = true then 1 else 0 := by
  have same : (queue.promoted node cmd).count other kind =
      ((queue.take false node cmd.vdev).added true node cmd).count other kind := by
    unfold promoted
    dsimp only
    split <;> rfl
  have listed : node ∈ queue.pdevList false := pending
  have isCmd' : (queue.take false node cmd.vdev).cmd node = some cmd := isCmd
  rw [same, count_added isCmd', ← count_take listed isCmd kind other]
  omega

/-! ### The walks over the pending lists -/

/-- The walk over the pdev's pending list gets as far as these commands. -/
def walked (queue : Queue limits) (list : List NodeId) : List NodeId :=
  list.takeWhile fun node => !(queue.isBlocking node && queue.anyVdevCmdActive)

theorem markForMovement_remarks (queue : Queue limits) (node : NodeId) (mark : Bool) :
    ∃ inUse, queue.markForMovement node mark = queue.remarked inUse ∧
      queue.Remarks [node] inUse ∧ (inUse node).markedForMovement = mark := by
  refine ⟨_, rfl, ⟨fun other => ?_, fun other outside => ?_⟩, ?_⟩
  · by_cases same : other = node
    · subst same
      rw [Function.update_self]
    · rw [Function.update_of_ne same]
  · rw [Function.update_of_ne fun same => outside (List.mem_singleton.mpr same)]
  · rw [Function.update_self]

theorem markNext_remarks (queue : Queue limits) (rest : List NodeId) :
    ∃ inUse, queue.markNext rest = queue.remarked inUse ∧ queue.Remarks rest inUse := by
  cases rest with
  | nil => exact ⟨queue.cmdInUse, rfl, .refl ..⟩
  | cons next rest =>
    obtain ⟨inUse, isMarked, remarks, -⟩ := queue.markForMovement_remarks next true
    refine ⟨inUse, isMarked, remarks.activation, fun node outside => remarks.movement node ?_⟩
    exact fun member => outside (List.mem_cons.mpr (.inl (List.mem_singleton.mp member)))

/-- **The walk over the pdev's pending list** picks a command that it gets to and whose vdev is not
active; else it has stopped at a blocking command that has to wait, or all vdevs are active and no
mark is left. -/
theorem pickFromPdevQueue_spec (queue : Queue limits) (list : List NodeId) (nodup : list.Nodup) :
    ∃ inUse, (queue.pickFromPdevQueue list).2 = queue.remarked inUse ∧
      queue.Remarks list inUse ∧
      match (queue.pickFromPdevQueue list).1 with
      | some node => node ∈ queue.walked list ∧ queue.vdevCmdActive node = false
      | none => (∃ node ∈ list, queue.isBlocking node = true ∧ queue.anyVdevCmdActive = true) ∨
        ∀ node ∈ list, queue.vdevCmdActive node = true ∧
            (inUse node).markedForMovement = false := by
  induction list generalizing queue with
  | nil =>
    exact ⟨queue.cmdInUse, rfl, .refl .., .inr fun _ member => absurd member List.not_mem_nil⟩
  | cons node rest ih =>
    obtain ⟨absent, nodup⟩ := List.nodup_cons.mp nodup
    unfold pickFromPdevQueue
    by_cases stops : (queue.isBlocking node && queue.anyVdevCmdActive) = true
    · rw [if_pos stops]
      exact ⟨queue.cmdInUse, rfl, .refl .., .inl ⟨node, List.mem_cons_self,
        Bool.and_eq_true_iff.mp stops⟩⟩
    · rw [if_neg stops]
      obtain ⟨first, isFirst, remarksFirst⟩ := queue.markNext_remarks rest
      dsimp only
      rw [isFirst]
      have inRest : ∀ other ∈ rest, other ∈ node :: rest := fun _ => List.mem_cons_of_mem _
      have walkedOn : queue.walked (node :: rest) = node :: queue.walked rest := by
        unfold walked
        rw [List.takeWhile_cons_of_pos]
        rw [eq_false_of_ne_true stops]
        rfl
      by_cases active : queue.vdevCmdActive node = true
      · have active' : (queue.remarked first).vdevCmdActive node = true := active
        rw [if_pos active']
        obtain ⟨second, isSecond, remarksSecond, cleared⟩ :=
          (queue.remarked first).markForMovement_remarks node false
        rw [isSecond]
        obtain ⟨third, isThird, remarksThird, outcome⟩ := ih (queue.remarked second) nodup
        have both : queue.Remarks (node :: rest) second := remarksFirst.trans remarksSecond inRest
          fun other member => by
            rw [List.mem_singleton.mp member]
            exact List.mem_cons_self
        refine ⟨third, isThird, both.trans remarksThird (fun _ => id) inRest, ?_⟩
        have isRemarked : (queue.remarked first).remarked second = queue.remarked second := rfl
        rw [isRemarked]
        cases picked : ((queue.remarked second).pickFromPdevQueue rest).1 with
        | some other =>
          rw [picked] at outcome
          refine ⟨?_, outcome.2⟩
          rw [walkedOn]
          exact List.mem_cons_of_mem _ outcome.1
        | none =>
          rw [picked] at outcome
          rcases outcome with ⟨other, member, stopsAt⟩ | all
          · exact .inl ⟨other, inRest other member, stopsAt⟩
          · refine .inr fun other member => ?_
            rcases List.mem_cons.mp member with rfl | member
            · exact ⟨active, (remarksThird.movement _ absent).trans cleared⟩
            · exact all other member
      · have active' : ¬(queue.remarked first).vdevCmdActive node = true := active
        rw [if_neg active']
        refine ⟨first, rfl, ⟨remarksFirst.activation, fun other outside =>
          remarksFirst.movement other fun member => outside (inRest other member)⟩, ?_, ?_⟩
        · rw [walkedOn]
          exact List.mem_cons_self
        · exact eq_false_of_ne_true active

/-- There is room in the active lists for a command of each vdev that is not active. -/
def Roomy (queue : Queue limits) : Prop :=
  ∀ cmd : Command limits, queue.vdevActiveCmdBitmap cmd.vdev = false → ¬queue.Full cmd true

/-- A command of a vdev that is not active is moved. -/
inductive Moved (queue : Queue limits) (node : NodeId) (cmd : Command limits) :
    Queue limits → Prop where
  | mk {inUse : NodeId → InUse} (remarks : queue.Remarks queue.pendingList inUse)
      (pending : node ∈ queue.pendingList) (isCmd : queue.cmd node = some cmd)
      (idle : queue.vdevActiveCmdBitmap cmd.vdev = false) :
      Moved queue node cmd ((queue.remarked inUse).promoted node cmd)

theorem moved_of_picked {inUse : NodeId → InUse} (wf : Wf hand queue) (roomy : queue.Roomy)
    (remarks : queue.Remarks queue.pendingList inUse) (pending : node ∈ queue.pendingList)
    (idle : queue.vdevCmdActive node = false) : ∃ cmd, queue.cmd node = some cmd ∧
      Moved queue node cmd ((queue.remarked inUse).promoted node cmd) ∧
        promotePicked (some node, queue.remarked inUse) =
          (some node, (queue.remarked inUse).promoted node cmd) := by
  obtain ⟨cmd, isCmd⟩ := wf.filled false node pending
  have isIdle : queue.vdevActiveCmdBitmap cmd.vdev = false := by
    simpa [vdevCmdActive, isCmd] using idle
  have outside : ∀ node ∈ queue.pendingList, node ∉ queue.cmdPoolList :=
    fun other member pooled => wf.pool_not_listed pooled false member
  refine ⟨cmd, isCmd, ⟨remarks, pending, isCmd, isIdle⟩, ?_⟩
  have isCmd' : (queue.remarked inUse).cmd node = some cmd := isCmd
  unfold promotePicked
  dsimp only
  rw [isCmd']
  exact promoteCmd_eq (wf.remarked remarks outside) pending isCmd' (roomy cmd isIdle)

/-- **The walk over a vdev's pending list** moves the first command, if any. -/
theorem vdevWalk_cases (wf : Wf hand queue) (roomy : queue.Roomy) (vdev : limits.Vdev)
    {res : Option NodeId} {after : Queue limits}
    (walk : promotePicked (queue.pickFromVdevQueue vdev, queue) = (res, after)) :
    (res = none ∧ after = queue ∧ ∀ node rest, queue.vdevList false vdev = node :: rest →
      queue.vdevActiveCmdBitmap vdev = true ∨ (queue.cmdInUse node).markedForMovement = true) ∨
    ∃ node cmd, res = some node ∧ (queue.vdevList false vdev).head? = some node ∧
      (queue.cmdInUse node).markedForMovement = false ∧ cmd.vdev = vdev ∧
      Moved queue node cmd after ∧ after = queue.promoted node cmd := by
  unfold pickFromVdevQueue at walk
  cases isList : queue.vdevList false vdev with
  | nil =>
    rw [isList] at walk
    obtain ⟨rfl, rfl⟩ := Prod.mk.inj walk
    exact .inl ⟨rfl, rfl, nofun⟩
  | cons node rest =>
    rw [isList] at walk
    dsimp only at walk
    have listed : node ∈ queue.vdevList false vdev := by
      rw [isList]
      exact List.mem_cons_self
    obtain ⟨pending, cmd, isCmd, onVdev⟩ := wf.mem_vdevList.mp listed
    have active : queue.vdevCmdActive node = queue.vdevActiveCmdBitmap vdev := by
      simp [vdevCmdActive, isCmd, onVdev]
    by_cases stops : (queue.vdevCmdActive node || (queue.cmdInUse node).markedForMovement) = true
    · rw [if_pos stops] at walk
      obtain ⟨rfl, rfl⟩ := Prod.mk.inj walk
      refine .inl ⟨rfl, rfl, fun other rest' same => ?_⟩
      obtain rfl := (List.cons.inj same).1
      rw [active] at stops
      exact Bool.or_eq_true_iff.mp stops
    · rw [if_neg stops] at walk
      rw [Bool.or_eq_true, not_or] at stops
      have idle : queue.vdevCmdActive node = false := eq_false_of_ne_true stops.1
      obtain ⟨held, isHeld, moved, isMoved⟩ := moved_of_picked wf roomy (.refl ..) pending idle
      obtain rfl := Option.some.inj (isCmd.symm.trans isHeld)
      have isMoved' : promotePicked (some node, queue) = (some node, queue.promoted node cmd) :=
        isMoved
      rw [isMoved'] at walk
      obtain ⟨rfl, rfl⟩ := Prod.mk.inj walk
      exact .inr ⟨node, cmd, rfl, rfl, eq_false_of_ne_true stops.2, onVdev, moved, rfl⟩

/-- **The walk over the pdev's pending list** moves a command that it gets to. -/
theorem pdevWalk_cases (wf : Wf hand queue) (roomy : queue.Roomy) {res : Option NodeId}
    {after : Queue limits}
    (walk : promotePicked (queue.pickFromPdevQueue queue.pendingList) = (res, after)) :
    (res = none ∧ ∃ inUse, after = queue.remarked inUse ∧
      queue.Remarks queue.pendingList inUse ∧
        ((∃ node ∈ queue.pendingList, queue.isBlocking node = true ∧
            queue.anyVdevCmdActive = true) ∨
          ∀ node ∈ queue.pendingList, queue.vdevCmdActive node = true ∧
            (inUse node).markedForMovement = false)) ∨
    ∃ node cmd, res = some node ∧ node ∈ queue.walked queue.pendingList ∧
      Moved queue node cmd after := by
  obtain ⟨inUse, isMarked, remarks, outcome⟩ :=
    queue.pickFromPdevQueue_spec queue.pendingList (wf.nodup false)
  have isPair : queue.pickFromPdevQueue queue.pendingList =
      ((queue.pickFromPdevQueue queue.pendingList).1, queue.remarked inUse) := Prod.ext rfl isMarked
  rw [isPair] at walk
  cases picked : (queue.pickFromPdevQueue queue.pendingList).1 with
  | none =>
    rw [picked] at walk outcome
    obtain ⟨rfl, rfl⟩ := Prod.mk.inj walk
    exact .inl ⟨rfl, inUse, rfl, remarks, outcome⟩
  | some node =>
    rw [picked] at walk outcome
    have pending : node ∈ queue.pendingList := (List.takeWhile_sublist _).subset outcome.1
    obtain ⟨cmd, isCmd, moved, isMoved⟩ := moved_of_picked wf roomy remarks pending outcome.2
    rw [isMoved] at walk
    obtain ⟨rfl, rfl⟩ := Prod.mk.inj walk
    exact .inr ⟨node, cmd, rfl, outcome.1, moved⟩

/-! ### Cancellation -/

/-- The next node is in the list. -/
theorem mem_of_nextNode {list : List NodeId} {nnode : Option NodeId}
    (isNext : nextNode list nnode = some (some node)) : node ∈ list := by
  unfold nextNode at isNext
  cases nnode with
  | none => exact List.mem_of_head? (Option.some.inj isNext)
  | some before =>
    dsimp only at isNext
    split at isNext
    · have inTail := List.mem_of_mem_tail (List.mem_of_head? (Option.some.inj isNext))
      exact (List.dropWhile_sublist _).subset inTail
    · exact absurd isNext (by simp)

/-- No command was removed. -/
def Cancelled.Idle : Cancelled limits → Prop
  | .removed _ _ => False
  | _ => True

/-- **The loop of a cancellation** removes one command, or none. -/
theorem cancelLoop_cases {request : CancelRequest limits} {timerFound : Bool}
    {res : Cancelled limits} {after : Queue limits} (qsize : Nat) (nnode pnode : Option NodeId)
    (status : CmdStatus) (queue : Queue limits)
    (ends : cancelLoop request isActive timerFound qsize nnode pnode status queue = (res, after)) :
    ∃ inUse, queue.Remarks [] inUse ∧ ((res.Idle ∧ after = queue.remarked inUse) ∨
      ∃ node cmd loop, res = .removed cmd loop ∧ node ∈ queue.pdevList isActive ∧
        queue.cmd node = some cmd ∧
        after = ((queue.remarked inUse).take isActive node cmd.vdev).release node) := by
  have still := Remarks.refl queue []
  induction qsize generalizing nnode pnode status queue with
  | zero =>
    obtain ⟨rfl, rfl⟩ := Prod.mk.inj ends
    exact ⟨_, still, .inl ⟨trivial, rfl⟩⟩
  | succ qsize ih =>
    unfold cancelLoop at ends
    split at ends
    · obtain ⟨rfl, rfl⟩ := Prod.mk.inj ends
      exact ⟨_, still, .inl ⟨trivial, rfl⟩⟩
    · split at ends
      · obtain ⟨rfl, rfl⟩ := Prod.mk.inj ends
        exact ⟨_, still, .inl ⟨trivial, rfl⟩⟩
      · obtain ⟨rfl, rfl⟩ := Prod.mk.inj ends
        exact ⟨_, still, .inl ⟨trivial, rfl⟩⟩
      · rename_i node isNext
        have listed := mem_of_nextNode isNext
        split at ends
        · obtain ⟨rfl, rfl⟩ := Prod.mk.inj ends
          exact ⟨_, still, .inl ⟨trivial, rfl⟩⟩
        · rename_i cmd isCmd
          split at ends
          · exact ih _ _ _ _ ends still
          · split at ends
            · obtain ⟨inUse, remarks, outcome⟩ := ih _ _ _ _ ends (.refl ..)
              have first := queue.updateInUse_remarks node
                (fun inUse => { inUse with activeMarkedForCancel := true }) (fun _ => rfl)
                fun _ => rfl
              exact ⟨inUse, first.trans remarks (fun _ => id) fun _ => id, outcome⟩
            · split at ends
              · obtain ⟨rfl, rfl⟩ := Prod.mk.inj ends
                exact ⟨_, still, .inl ⟨trivial, rfl⟩⟩
              · obtain ⟨rfl, rfl⟩ := Prod.mk.inj ends
                exact ⟨_, still, .inr ⟨node, cmd, _, rfl, listed, isCmd, rfl⟩⟩

end Qsdk.Serialization.Queue
