/-
**Work conservation: a pending command is never left alone.**

A pending command is served when something will promote it: a blocking command is active, a thread
is walking over the pdev's list or is about to look at the list of the command's vdev, or the vdev
has an active command. A cancellation clears the bit of an active command, and takes a blocking one
off the count, without looking for commands to promote. Where the queue is served without that
command, and the count of waiting commands is kept, every quiescent state with a pending command has
an active one (`conserving_run`).
-/

import Qsdk.Serialization.Bookkeeping

namespace Qsdk.Serialization

open Queue

variable {limits : Limits}

namespace Queue

/-- The removal of an active command will promote the pending ones, and no pending command has an
old mark that keeps it from being promoted. -/
def Served (queue : Queue limits) : Prop :=
  (queue.blockingCmdActive = true ∨
    (queue.blockingCmdWaiting ≠ 0 ∧ queue.anyVdevCmdActive = true) ∨
    ∀ node ∈ queue.pendingList, queue.vdevCmdActive node = true) ∧
  (queue.blockingCmdActive = true ∨ queue.blockingCmdWaiting ≠ 0 ∨
    ∀ node ∈ queue.pendingList, (queue.cmdInUse node).markedForMovement = false)

instance (queue : Queue limits) : Decidable queue.Served := by
  unfold Served
  infer_instance

/-- Without the command the queue is still served. -/
def ServedWithout (queue : Queue limits) (cmd : Command limits) (isActive : Bool) : Prop :=
  if isActive then
    ((queue.blockingCmdActive = true ∧ cmd.isBlocking = false) ∨
      (queue.blockingCmdWaiting ≠ 0 ∧
        ∃ vdev, vdev ≠ cmd.vdev ∧ queue.vdevActiveCmdBitmap vdev = true) ∨
      ∀ node ∈ queue.pendingList,
        queue.onVdev cmd.vdev node = false ∧ queue.vdevCmdActive node = true) ∧
    ((queue.blockingCmdActive = true ∧ cmd.isBlocking = false) ∨ queue.blockingCmdWaiting ≠ 0 ∨
      ∀ node ∈ queue.pendingList, (queue.cmdInUse node).markedForMovement = false)
  else
    (queue.blockingCmdActive = true ∨
      (queue.blockingCmdWaiting ≠ 1 ∧ queue.anyVdevCmdActive = true) ∨
      ∀ node ∈ queue.pendingList, queue.vdevCmdActive node = true) ∧
    (queue.blockingCmdActive = true ∨ queue.blockingCmdWaiting ≠ 1 ∨
      ∀ node ∈ queue.pendingList, (queue.cmdInUse node).markedForMovement = false)

instance (queue : Queue limits) (cmd : Command limits) (isActive : Bool) :
    Decidable (queue.ServedWithout cmd isActive) := by
  unfold ServedWithout
  infer_instance

end Queue

/-- **The steps that conserve the work**: the count of waiting commands is kept, and before a
cancellation settles the account of an active or a blocking command the queue is served without
it. -/
def conservingFit : SerOp limits → Queue limits → Prop
  | .cancelResume ref isActive cmd loop, queue =>
    countingFit (.cancelResume ref isActive cmd loop) queue ∧
      (isActive = true ∨ cmd.isBlocking = true → queue.ServedWithout cmd isActive)
  | op, queue => countingFit op queue

instance : ∀ (op : SerOp limits) (queue : Queue limits), Decidable (conservingFit op queue)
  | .cancelResume ref isActive cmd loop, queue => inferInstanceAs (Decidable
    (countingFit (.cancelResume ref isActive cmd loop) queue ∧
      (isActive = true ∨ cmd.isBlocking = true → queue.ServedWithout cmd isActive)))
  | .enqueue cmd reason, queue =>
    inferInstanceAs (Decidable (countingFit (.enqueue cmd reason) queue))
  | .dequeue ref activeCmd, queue =>
    inferInstanceAs (Decidable (countingFit (.dequeue ref activeCmd) queue))
  | .moveStart _ _, _ => .isTrue trivial
  | .moveResume, _ => .isTrue trivial
  | .notify _, _ => .isTrue trivial
  | .activated _, _ => .isTrue trivial
  | .readInUse _, _ => .isTrue trivial
  | .cancelStart _ _, _ => .isTrue trivial
  | .isCmdPresentInActiveQueue _, _ => .isTrue trivial

theorem conservingFit.counting {op : SerOp limits} {queue : Queue limits}
    (fit : conservingFit op queue) : countingFit op queue := by
  cases op with
  | cancelResume ref isActive cmd loop => exact fit.1
  | _ => exact fit

/-! ### The invariant -/

/-- Something will promote the pending commands. -/
inductive Promises (owed : Duties limits) (queue : Queue limits) : Prop where
  | blocked (active : queue.blockingCmdActive = true)
  | walk (owes : Duty.walk ∈ owed)
  | settles (owes : Duty.settlePending true ∈ owed)
  /-- A blocking command waits for an active one, or for a thread that removed one. -/
  | waits (waiting : queue.blockingCmdWaiting ≠ 0)
      (removal : queue.anyVdevCmdActive = true ∨ ∃ vdev, Duty.move vdev ∈ owed)
  /-- Every pending command waits for its own vdev. -/
  | each (serves : ∀ node ∈ queue.pendingList, ∀ cmd, queue.cmd node = some cmd →
      queue.vdevActiveCmdBitmap cmd.vdev = true ∨ Duty.move cmd.vdev ∈ owed)

/-- A mark on a pending command will be cleared. -/
def MarksCleared (owed : Duties limits) (queue : Queue limits) : Prop :=
  ∀ node ∈ queue.pendingList, (queue.cmdInUse node).markedForMovement = true →
    queue.blockingCmdActive = true ∨ Duty.walk ∈ owed ∨ queue.blockingCmdWaiting ≠ 0

/-- Counters are exact, and the pending commands will be promoted. -/
structure Conserving (owed : Duties limits) (queue : Queue limits) : Prop where
  exact : Exact owed queue
  promises : Promises owed queue
  marks : MarksCleared owed queue

section Conserving

variable {owed owed' : Duties limits} {queue after : Queue limits}

/-- Nothing that is promised is taken back. -/
structure Keeps (owed : Duties limits) (queue : Queue limits) (owed' : Duties limits)
    (after : Queue limits) : Prop where
  flag : queue.blockingCmdActive = true → after.blockingCmdActive = true
  duties : ∀ duty ∈ owed, (∀ vdev blocking, duty ≠ .settleActive vdev blocking) →
    duty ≠ .settlePending false → duty ∈ owed'
  waiting : queue.blockingCmdWaiting ≠ 0 → after.blockingCmdWaiting ≠ 0
  bitmap : ∀ vdev, queue.vdevActiveCmdBitmap vdev = true → after.vdevActiveCmdBitmap vdev = true
  pending : ∀ node ∈ after.pendingList, node ∈ queue.pendingList ∧ after.cmd node = queue.cmd node ∧
    (after.cmdInUse node).markedForMovement = (queue.cmdInUse node).markedForMovement

theorem any_iff : queue.anyVdevCmdActive = true ↔ ∃ vdev, queue.vdevActiveCmdBitmap vdev = true :=
  decide_eq_true_iff

theorem Promises.keep (promises : Promises owed queue) (keeps : Keeps owed queue owed' after) :
    Promises owed' after := by
  have moves : ∀ {vdev}, Duty.move vdev ∈ owed → Duty.move vdev ∈ owed' := fun owes =>
    keeps.duties _ owes (fun _ _ => nofun) nofun
  cases promises with
  | blocked active => exact .blocked (keeps.flag active)
  | walk owes => exact .walk (keeps.duties _ owes (fun _ _ => nofun) nofun)
  | settles owes => exact .settles (keeps.duties _ owes (fun _ _ => nofun) nofun)
  | waits waiting removal =>
    refine .waits (keeps.waiting waiting) (removal.imp (fun any => ?_) fun ⟨vdev, owes⟩ => ?_)
    · obtain ⟨vdev, busy⟩ := any_iff.mp any
      exact any_iff.mpr ⟨vdev, keeps.bitmap vdev busy⟩
    · exact ⟨vdev, moves owes⟩
  | each serves =>
    refine .each fun node listed cmd isCmd => ?_
    obtain ⟨before, same, -⟩ := keeps.pending node listed
    rw [same] at isCmd
    exact (serves node before cmd isCmd).imp (keeps.bitmap _) moves

theorem MarksCleared.keep (marks : MarksCleared owed queue) (keeps : Keeps owed queue owed' after) :
    MarksCleared owed' after := by
  intro node listed marked
  obtain ⟨before, -, same⟩ := keeps.pending node listed
  rw [same] at marked
  rcases marks node before marked with active | owes | waiting
  · exact .inl (keeps.flag active)
  · exact .inr (.inl (keeps.duties _ owes (fun _ _ => nofun) nofun))
  · exact .inr (.inr (keeps.waiting waiting))

theorem keeps_remarked {inUse : NodeId → InUse} (remarks : queue.Remarks [] inUse) :
    Keeps owed queue owed (queue.remarked inUse) :=
  ⟨id, fun _ owes _ _ => owes, id, fun _ => id, fun node listed =>
    ⟨listed, rfl, remarks.movement node List.not_mem_nil⟩⟩

theorem keeps_activated (node : NodeId) : Keeps owed queue owed (queue.activated node) := by
  refine ⟨id, fun _ owes _ _ => owes, id, fun _ => id, fun other listed => ⟨listed, rfl, ?_⟩⟩
  show (Function.update queue.cmdInUse node _ other).markedForMovement = _
  by_cases same : other = node
  · subst same
    rw [Function.update_self]
  · rw [Function.update_of_ne same]

/-- A node that goes back to the pool is not pending. -/
theorem keeps_release {hand : Multiset NodeId} {node : NodeId} {middle : Queue limits}
    (wf : Wf (node ::ₘ hand) middle) (keeps : Keeps owed queue owed' middle) :
    Keeps owed queue owed' (middle.release node) := by
  refine ⟨keeps.flag, keeps.duties, keeps.waiting, keeps.bitmap, fun other listed => ?_⟩
  have different : other ≠ node := by
    rintro rfl
    exact wf.not_listed (Multiset.mem_cons_self _ _) false listed
  obtain ⟨before, sameCmd, sameMark⟩ := keeps.pending other listed
  refine ⟨before, (Function.update_of_ne different _ _).trans sameCmd, ?_⟩
  rw [← sameMark]
  exact congrArg InUse.markedForMovement (Function.update_of_ne different _ _)

/-- A command that is taken off a list. -/
theorem keeps_take {isActive : Bool} {node : NodeId} {vdev : limits.Vdev}
    (duties : ∀ duty ∈ owed, duty ∈ owed') :
    Keeps owed queue owed' (queue.take isActive node vdev) := by
  refine ⟨id, fun duty owes _ _ => duties duty owes, id, fun _ => id, fun other listed => ?_⟩
  have listed : other ∈ (queue.take isActive node vdev).pdevList false := listed
  refine ⟨?_, rfl, rfl⟩
  rw [take_pdevList] at listed
  split at listed
  · rename_i same
    subst same
    exact List.mem_of_mem_erase listed
  · exact listed

theorem Keeps.trans {middle : Queue limits} {owed₁ : Duties limits}
    (first : Keeps owed queue owed₁ middle) (second : Keeps owed₁ middle owed' after) :
    Keeps owed queue owed' after := by
  refine ⟨fun active => second.flag (first.flag active), fun duty owes active pending =>
    second.duties duty (first.duties duty owes active pending) active pending, fun waiting =>
      second.waiting (first.waiting waiting), fun vdev busy =>
        second.bitmap vdev (first.bitmap vdev busy), fun node listed => ?_⟩
  obtain ⟨before, sameCmd, sameMark⟩ := second.pending node listed
  obtain ⟨listed, sameCmd', sameMark'⟩ := first.pending node before
  exact ⟨listed, sameCmd.trans sameCmd', sameMark.trans sameMark'⟩

theorem keeps_cancelled (wf : Wf 0 queue) {isActive : Bool} {cmd : Command limits}
    (cancels : queue.Cancels isActive cmd after) :
    Keeps owed queue (Duty.ofCancelled isActive cmd ::ₘ owed) after := by
  obtain ⟨remarks, listed, isCmd⟩ := cancels
  rename_i inUse node
  have marked : Wf 0 (queue.remarked inUse) :=
    wf.remarked remarks fun _ member => absurd member List.not_mem_nil
  have isCmd' : (queue.remarked inUse).cmd node = some cmd := isCmd
  exact (keeps_remarked remarks).trans
    (keeps_release (marked.take listed isCmd') (keeps_take fun _ => Multiset.mem_cons_of_mem))

/-- A command that is not counted, and does not get into the pending list. -/
theorem keeps_freshFor (wf : Wf 0 queue) {node : NodeId} {pool : List NodeId}
    (isPool : queue.cmdPoolList = node :: pool) {cmd : Command limits}
    (notCounted : ¬queue.Counts cmd) : Keeps owed queue owed (freshFor queue node pool cmd) := by
  have isSame : queue.counted cmd = queue := if_neg notCounted
  refine ⟨fun active => ?_, fun _ owes _ _ => owes, fun waiting => ?_, fun vdev busy => ?_,
    fun other listed => ?_⟩
  · show (queue.counted cmd).blockingCmdActive = true
    rw [isSame]
    exact active
  · show (queue.counted cmd).blockingCmdWaiting ≠ 0
    rw [isSame]
    exact waiting
  · show (queue.counted cmd).vdevActiveCmdBitmap vdev = true
    rw [isSame]
    exact busy
  · have listed : other ∈ (queue.counted cmd).pdevList false := listed
    rw [isSame] at listed
    refine ⟨listed, freshFor_cmd_of_listed wf isPool listed, ?_⟩
    rw [(freshFor_inUse wf isPool cmd).1]

/-- A command that becomes active. -/
theorem keeps_added (node : NodeId) (cmd : Command limits) :
    Keeps owed queue owed ((queue.added true node cmd).updateInUse node
      fun inUse => { inUse with markedForActivation := true }) := by
  refine ⟨fun active => ?_, fun _ owes _ _ => owes, fun waiting => ?_, fun vdev busy => ?_,
    fun other listed => ⟨?_, ?_, ?_⟩⟩
  · show (queue.added true node cmd).blockingCmdActive = true
    rw [added_blockingCmdActive, active]
    rfl
  · show (queue.added true node cmd).blockingCmdWaiting ≠ 0
    rw [added_blockingCmdWaiting]
    exact waiting
  · show (queue.added true node cmd).vdevActiveCmdBitmap vdev = true
    rw [added_vdevActiveCmdBitmap, if_pos rfl, Function.update_apply]
    split
    · rfl
    · exact busy
  · have listed : other ∈ (queue.added true node cmd).pdevList false := listed
    rw [added_pdevList, put_pdevList, if_neg (by simp)] at listed
    exact listed
  · show (queue.added true node cmd).cmd other = _
    rw [added_cmd]
  · show (Function.update (queue.added true node cmd).cmdInUse node _ other).markedForMovement = _
    rw [added_cmdInUse]
    by_cases same : other = node
    · subst same
      rw [Function.update_self]
    · rw [Function.update_of_ne same]

/-- The queue of a vdev is disabled. -/
theorem keeps_disableQueue {cmd : Command limits} :
    Keeps owed queue owed (queue.disableQueue cmd) := by
  refine ⟨fun active => ?_, fun _ owes _ _ => owes, fun waiting => ?_, fun vdev busy => ?_,
    fun other listed => ⟨?_, ?_, ?_⟩⟩
  · rw [disableQueue_blockingCmdActive]
    exact active
  · rw [disableQueue_blockingCmdWaiting]
    exact waiting
  · rw [disableQueue_vdevActiveCmdBitmap]
    exact busy
  · have listed : other ∈ (queue.disableQueue cmd).pdevList false := listed
    rw [disableQueue_pdevList] at listed
    exact listed
  · rw [disableQueue_cmd]
  · rw [disableQueue_cmdInUse]

/-! ### Enqueue -/

/-- A command that is rejected is not counted. -/
theorem not_counts_of_rejects {cmd : Command limits} {reason : QueueReason}
    (fit : countingFit (.enqueue cmd reason) queue) (admits : queue.Admits cmd reason)
    (rejects : queue.Rejects cmd) : ¬queue.Counts cmd := by
  intro counts
  have admission := fit admits counts.1
  rw [if_pos counts.2] at admission
  exact admission.1 rejects

/-- A command that becomes pending: something else is promised, or its vdev is active or will be
looked at. -/
theorem Conserving.waits_or_serves (inv : Conserving owed queue) {cmd : Command limits}
    (notBlocking : cmd.isBlocking = false) (waits : queue.activeQueue cmd = false) :
    queue.blockingCmdActive = true ∨ Duty.walk ∈ owed ∨ Duty.settlePending true ∈ owed ∨
      (queue.blockingCmdWaiting ≠ 0 ∧
        (queue.anyVdevCmdActive = true ∨ ∃ vdev, Duty.move vdev ∈ owed)) ∨
      ((∀ node ∈ queue.pendingList, ∀ other, queue.cmd node = some other →
          queue.vdevActiveCmdBitmap other.vdev = true ∨ Duty.move other.vdev ∈ owed) ∧
        (queue.vdevActiveCmdBitmap cmd.vdev = true ∨ Duty.move cmd.vdev ∈ owed)) := by
  cases inv.promises with
  | blocked active => exact .inl active
  | walk owes => exact .inr (.inl owes)
  | settles owes => exact .inr (.inr (.inl owes))
  | waits waiting removal => exact .inr (.inr (.inr (.inl ⟨waiting, removal⟩)))
  | each serves =>
    by_cases active : queue.blockingCmdActive = true
    · exact .inl active
    by_cases busy : queue.vdevActiveCmdBitmap cmd.vdev = true
    · exact .inr (.inr (.inr (.inr ⟨serves, .inl busy⟩)))
    by_cases noneWaits : queue.blockingCmdWaiting = 0
    · -- its vdev has a pending command already
      have notEmpty : queue.vdevList false cmd.vdev ≠ [] := by
        intro isEmpty
        have allowed : queue.activeQueue cmd = true := by
          refine (activeQueue_iff queue cmd).mpr ⟨isEmpty, ?_⟩
          rw [if_neg (by rw [notBlocking]; exact Bool.false_ne_true), noneWaits]
          exact ⟨eq_false_of_ne_true active, rfl, eq_false_of_ne_true busy⟩
        rw [allowed] at waits
        exact Bool.false_ne_true waits.symm
      obtain ⟨node, listed⟩ := List.exists_mem_of_ne_nil _ notEmpty
      obtain ⟨pending, other, isCmd, onVdev⟩ := inv.exact.base.wf.mem_vdevList.mp listed
      have served := serves node pending other isCmd
      rw [onVdev] at served
      exact .inr (.inr (.inr (.inr ⟨serves, served⟩)))
    · -- a blocking command waits, or its cancellation is not settled
      have exact := inv.exact.waiting
      have positive : 0 < queue.blockingCmdWaiting.toNat :=
        Nat.pos_of_ne_zero fun zero => noneWaits (BitVec.eq_of_toNat_eq zero)
      rw [exact] at positive
      rcases Nat.eq_zero_or_pos (queue.count false fun cmd => cmd.isBlocking) with none | some
      · have owing : 0 < (Account.blockingWaiting limits).owing owed := by
          have split : (Account.blockingWaiting limits).charged owed queue =
              queue.count false (fun cmd => cmd.isBlocking) +
                (Account.blockingWaiting limits).owing owed := rfl
          omega
        obtain ⟨duty, owes, stands⟩ := Multiset.countP_pos.mp owing
        cases duty with
        | settlePending blocking =>
          obtain rfl : blocking = true := stands
          exact .inr (.inr (.inl owes))
        | _ => exact absurd stands Bool.false_ne_true
      · obtain ⟨node, pending, other, isCmd, -⟩ := count_pos.mp some
        refine .inr (.inr (.inr (.inl ⟨noneWaits, ?_⟩)))
        refine (serves node pending other isCmd).imp (fun busy => ?_) fun owes => ⟨_, owes⟩
        exact any_iff.mpr ⟨_, busy⟩

theorem Conserving.pending (inv : Conserving owed queue) {cmd : Command limits}
    {reason : QueueReason} {node : NodeId} {pool : List NodeId}
    (fit : countingFit (.enqueue cmd reason) queue) (admits : queue.Admits cmd reason)
    (accepted : ¬queue.Rejects cmd) (isPool : queue.cmdPoolList = node :: pool)
    (waits : queue.activeQueue cmd = false) :
    Promises owed ((freshFor queue node pool cmd).added false node cmd) ∧
      MarksCleared owed ((freshFor queue node pool cmd).added false node cmd) := by
  have wf := inv.exact.base.wf
  have isCmd : (freshFor queue node pool cmd).cmd node = some cmd := Function.update_self ..
  have sameFlag : ((freshFor queue node pool cmd).added false node cmd).blockingCmdActive =
      queue.blockingCmdActive := by
    rw [added_blockingCmdActive, Bool.false_and, Bool.or_false]
    exact counted_blockingCmdActive ..
  have sameBits : ((freshFor queue node pool cmd).added false node cmd).vdevActiveCmdBitmap =
      queue.vdevActiveCmdBitmap := by
    rw [added_vdevActiveCmdBitmap]
    exact counted_vdevActiveCmdBitmap ..
  have sameAny : ((freshFor queue node pool cmd).added false node cmd).anyVdevCmdActive =
      queue.anyVdevCmdActive := by
    unfold anyVdevCmdActive
    rw [sameBits]
  have sameWaiting : ((freshFor queue node pool cmd).added false node cmd).blockingCmdWaiting =
      if queue.Counts cmd then queue.blockingCmdWaiting + 1 else queue.blockingCmdWaiting := by
    rw [added_blockingCmdWaiting]
    exact counted_waiting queue cmd
  have countsOne : queue.Counts cmd →
      ((freshFor queue node pool cmd).added false node cmd).blockingCmdWaiting ≠ 0 := by
    intro counts zero
    have admission := fit admits counts.1
    rw [if_pos counts.2] at admission
    rw [sameWaiting, if_pos counts] at zero
    refine admission.2 (BitVec.eq_of_toNat_eq ?_)
    have values := congrArg BitVec.toNat zero
    have one : (1 : BitVec 16).toNat = 1 := rfl
    have nothing : (0 : BitVec 16).toNat = 0 := rfl
    have top : (0xFFFF : BitVec 16).toNat = 65535 := rfl
    have bound := queue.blockingCmdWaiting.isLt
    rw [BitVec.toNat_add] at values
    omega
  have keepsWaiting : queue.blockingCmdWaiting ≠ 0 →
      ((freshFor queue node pool cmd).added false node cmd).blockingCmdWaiting ≠ 0 := by
    intro waiting
    by_cases counts : queue.Counts cmd
    · exact countsOne counts
    · rw [sameWaiting, if_neg counts]
      exact waiting
  have isPending : ∀ other ∈ ((freshFor queue node pool cmd).added false node cmd).pendingList,
      other = node ∨ other ∈ queue.pendingList := by
    intro other listed
    have listed : other ∈ ((freshFor queue node pool cmd).added false node cmd).pdevList false :=
      listed
    rw [added_pdevList, put_pdevList, if_pos rfl] at listed
    refine (mem_place.mp listed).imp_right fun before => ?_
    have before : other ∈ (queue.counted cmd).pdevList false := before
    rw [counted_pdevList] at before
    exact before
  by_cases blocking : cmd.isBlocking = true
  · -- it is counted, since it would be allowed to become active if no vdev were
    have any : queue.anyVdevCmdActive = true := by
      by_contra notAny
      have admission := fit admits blocking
      rw [if_neg notAny] at admission
      have allowed : queue.activeQueue cmd = true := by
        refine (activeQueue_iff queue cmd).mpr ⟨admission.resolve_right accepted, ?_⟩
        rw [if_pos blocking]
        exact eq_false_of_ne_true notAny
      rw [allowed] at waits
      exact Bool.false_ne_true waits.symm
    have waiting := countsOne ⟨blocking, any⟩
    exact ⟨.waits waiting (.inl (sameAny.trans any)), fun _ _ _ => .inr (.inr waiting)⟩
  · refine ⟨?_, fun other listed marked => ?_⟩
    · rcases inv.waits_or_serves (eq_false_of_ne_true blocking) waits with
        active | owes | owes | ⟨waiting, removal⟩ | ⟨serves, own⟩
      · exact .blocked (sameFlag.trans active)
      · exact .walk owes
      · exact .settles owes
      · refine .waits (keepsWaiting waiting) (removal.imp_left fun any => sameAny.trans any)
      · refine .each fun other listed held isHeld => ?_
        rw [sameBits]
        rw [added_cmd] at isHeld
        rcases isPending other listed with rfl | before
        · obtain rfl := Option.some.inj (isCmd.symm.trans isHeld)
          exact own
        · rw [freshFor_cmd_of_listed wf isPool before] at isHeld
          exact serves other before held isHeld
    · rw [added_cmdInUse, (freshFor_inUse wf isPool cmd).1] at marked
      rw [sameFlag]
      rcases isPending other listed with rfl | before
      · rw [(freshFor_inUse wf isPool cmd).2.2] at marked
        exact absurd marked Bool.false_ne_true
      · exact (inv.marks other before marked).imp_right (.imp_right keepsWaiting)

/-- **Enqueue.** -/
theorem Conserving.enqueued (inv : Conserving owed queue) {cmd : Command limits}
    {reason : QueueReason} {res : SerStatus × Option NodeId}
    (fit : countingFit (.enqueue cmd reason) queue)
    (isEnqueued : queue.Enqueued cmd reason res after) :
    Promises owed after ∧ MarksCleared owed after := by
  have wf := inv.exact.base.wf
  cases isEnqueued with
  | refused denied refuses => exact ⟨inv.promises, inv.marks⟩
  | rejected denied admits why =>
    have isSame : queue.counted cmd = queue :=
      if_neg (not_counts_of_rejects fit admits (why.imp_right .inl))
    rw [isSame]
    exact ⟨inv.promises, inv.marks⟩
  | full admits isNew isPool full =>
    have disabled := (wf_freshFor wf isPool cmd).congr (disableQueue_pdevList _ cmd)
      (disableQueue_vdevList ..) (disableQueue_cmdPoolList ..) (disableQueue_cmd ..)
      (disableQueue_cmdInUse ..)
    have fresh : Keeps owed queue owed _ :=
      keeps_freshFor wf isPool (not_counts_of_rejects fit admits (.inr (.inr full)))
    have keeps := keeps_release disabled (fresh.trans keeps_disableQueue)
    exact ⟨inv.promises.keep keeps, inv.marks.keep keeps⟩
  | pending admits isNew isPool room waits =>
    refine inv.pending fit admits ?_ isPool waits
    rintro (present | empty | full)
    · rw [isNew] at present
      exact Bool.false_ne_true present
    · rw [isPool] at empty
      exact List.cons_ne_nil _ _ empty
    · exact room full
  | active admits isPool room allowed =>
    have notCounted : ¬queue.Counts cmd := by
      rintro ⟨blocking, any⟩
      have admission := ((activeQueue_iff queue cmd).mp allowed).2
      rw [if_pos blocking, any] at admission
      exact Bool.false_ne_true admission.symm
    rename_i node pool
    have fresh : Keeps owed queue owed _ := keeps_freshFor wf isPool notCounted
    have keeps := fresh.trans (keeps_added node cmd)
    exact ⟨inv.promises.keep keeps, inv.marks.keep keeps⟩

/-! ### Dequeue and promotion -/

theorem Conserving.dequeuedPending (inv : Conserving owed queue) {node : NodeId}
    {cmd : Command limits} (listed : node ∈ queue.pendingList) (isCmd : queue.cmd node = some cmd) :
    Promises owed ((queue.removed false node cmd.vdev).release node) ∧
      MarksCleared owed ((queue.removed false node cmd.vdev).release node) := by
  have listed' : node ∈ queue.pdevList false := listed
  have keeps : Keeps owed queue owed ((queue.removed false node cmd.vdev).release node) :=
    keeps_release (inv.exact.base.wf.removed listed' isCmd) (keeps_take fun _ => id)
  exact ⟨inv.promises.keep keeps, inv.marks.keep keeps⟩

theorem Conserving.dequeuedActive (inv : Conserving owed queue) {node : NodeId}
    {cmd : Command limits} (listed : node ∈ queue.activeList) (isCmd : queue.cmd node = some cmd) :
    Promises (Duty.ofRemoved cmd.vdev cmd.isBlocking ::ₘ owed)
        ((queue.removed true node cmd.vdev).release node) ∧
      MarksCleared (Duty.ofRemoved cmd.vdev cmd.isBlocking ::ₘ owed)
        ((queue.removed true node cmd.vdev).release node) := by
  by_cases blocking : cmd.isBlocking = true
  · have owes : Duty.walk ∈ Duty.ofRemoved cmd.vdev cmd.isBlocking ::ₘ owed := by
      rw [blocking]
      exact Multiset.mem_cons_self _ _
    exact ⟨.walk owes, fun _ _ _ => .inr (.inl owes)⟩
  · have isMove : Duty.ofRemoved cmd.vdev cmd.isBlocking = .move cmd.vdev := if_neg blocking
    rw [isMove]
    have listed' : node ∈ queue.pdevList true := listed
    have notBlocking : queue.isBlocking node = false := by
      simpa [isBlocking, isCmd] using blocking
    have taken : Keeps owed queue (Duty.move cmd.vdev ::ₘ owed)
        ((queue.take true node cmd.vdev).release node) :=
      keeps_release (inv.exact.base.wf.take listed' isCmd)
        (keeps_take fun _ => Multiset.mem_cons_of_mem)
    have sameFlag : ((queue.removed true node cmd.vdev).release node).blockingCmdActive =
        queue.blockingCmdActive := by
      show (if queue.isBlocking node = true then false else queue.blockingCmdActive) = _
      rw [notBlocking]
      rfl
    have own : Duty.move cmd.vdev ∈ Duty.move cmd.vdev ::ₘ owed := Multiset.mem_cons_self _ _
    refine ⟨?_, fun other pending marked => ?_⟩
    · cases inv.promises with
      | blocked active => exact .blocked (sameFlag.trans active)
      | walk owes => exact .walk (Multiset.mem_cons_of_mem owes)
      | settles owes => exact .settles (Multiset.mem_cons_of_mem owes)
      | waits waiting removal => exact .waits waiting (.inr ⟨_, own⟩)
      | each serves =>
        refine .each fun other pending held isHeld => ?_
        obtain ⟨before, same, -⟩ := taken.pending other pending
        have isHeld : ((queue.take true node cmd.vdev).release node).cmd other = some held := isHeld
        rw [same] at isHeld
        by_cases sameVdev : held.vdev = cmd.vdev
        · rw [sameVdev]
          exact .inr own
        · refine (serves other before held isHeld).imp (fun busy => ?_) Multiset.mem_cons_of_mem
          exact (Function.update_of_ne sameVdev _ _).trans busy
    · obtain ⟨before, -, same⟩ := taken.pending other pending
      rw [sameFlag]
      exact (inv.marks other before (same.symm.trans marked)).imp_right
        (.imp_left Multiset.mem_cons_of_mem)

theorem Conserving.vdevIdle (inv : Conserving owed queue) {vdev : limits.Vdev}
    (noneWaits : queue.blockingCmdWaiting = 0)
    (idle : ∀ node rest, queue.vdevList false vdev = node :: rest →
      queue.vdevActiveCmdBitmap vdev = true ∨ (queue.cmdInUse node).markedForMovement = true) :
    Promises (owed.erase (.move vdev)) queue ∧ MarksCleared (owed.erase (.move vdev)) queue := by
  have remains : ∀ {duty : Duty limits}, duty ≠ .move vdev → duty ∈ owed →
      duty ∈ owed.erase (.move vdev) := fun different owes =>
    (Multiset.mem_erase_of_ne different).mpr owes
  refine ⟨?_, fun node pending marked => ?_⟩
  · cases inv.promises with
    | blocked active => exact .blocked active
    | walk owes => exact .walk (remains nofun owes)
    | settles owes => exact .settles (remains nofun owes)
    | waits waiting removal => exact absurd noneWaits waiting
    | each serves =>
      -- either the vdev is active, or it has no pending command, or the first one is marked
      by_cases busy : queue.vdevActiveCmdBitmap vdev = true
      · refine .each fun node pending cmd isCmd => ?_
        by_cases same : cmd.vdev = vdev
        · rw [same]
          exact .inl busy
        · refine (serves node pending cmd isCmd).imp_right (remains ?_)
          rintro equal
          exact same (Duty.move.inj equal)
      · cases isList : queue.vdevList false vdev with
        | nil =>
          refine .each fun node pending cmd isCmd => ?_
          have different : cmd.vdev ≠ vdev := by
            intro same
            have member : node ∈ queue.vdevList false vdev :=
              inv.exact.base.wf.mem_vdevList.mpr ⟨pending, cmd, isCmd, same⟩
            rw [isList] at member
            exact List.not_mem_nil member
          refine (serves node pending cmd isCmd).imp_right (remains ?_)
          rintro equal
          exact different (Duty.move.inj equal)
        | cons node rest =>
          have marked := (idle node rest isList).resolve_left busy
          have member : node ∈ queue.vdevList false vdev := by
            rw [isList]
            exact List.mem_cons_self
          have pending := (inv.exact.base.wf.mem_vdevList.mp member).1
          rcases inv.marks node pending marked with active | owes | waiting
          · exact .blocked active
          · exact .walk (remains nofun owes)
          · exact absurd noneWaits waiting
  · exact (inv.marks node pending marked).imp_right (.imp_left (remains nofun))

/-- What a promotion leaves of the pending list. -/
theorem moved_pending {node : NodeId} {cmd : Command limits} (moved : queue.Moved node cmd after)
    {other : NodeId} (listed : other ∈ after.pendingList) :
    other ∈ queue.pendingList ∧ after.cmd other = queue.cmd other := by
  obtain ⟨remarks, pending, isCmd, idle⟩ := moved
  rename_i inUse
  have listed : other ∈ ((queue.remarked inUse).promoted node cmd).pdevList false := listed
  rw [promoted_pdevList, if_neg Bool.false_ne_true] at listed
  exact ⟨List.mem_of_mem_erase listed, congrFun (promoted_cmd ..) other⟩

theorem moved_counters {node : NodeId} {cmd : Command limits}
    (moved : queue.Moved node cmd after) :
    after.vdevActiveCmdBitmap = Function.update queue.vdevActiveCmdBitmap cmd.vdev true ∧
      after.blockingCmdActive = (queue.blockingCmdActive || cmd.isBlocking) ∧
      after.blockingCmdWaiting =
        if cmd.isBlocking then queue.blockingCmdWaiting - 1 else queue.blockingCmdWaiting := by
  obtain ⟨remarks, pending, isCmd, idle⟩ := moved
  exact ⟨promoted_vdevActiveCmdBitmap .., promoted_blockingCmdActive ..,
    promoted_blockingCmdWaiting ..⟩

/-- The first command of a vdev's list is moved, and the vdev is active again. -/
theorem Conserving.vdevMoved (inv : Conserving owed queue) {node : NodeId} {cmd : Command limits}
    (noneWaits : queue.blockingCmdWaiting = 0) (moved : queue.Moved node cmd after)
    (sameMarks : ∀ other, (after.cmdInUse other).markedForMovement =
      (queue.cmdInUse other).markedForMovement) :
    Promises (owed.erase (.move cmd.vdev)) after ∧
      MarksCleared (owed.erase (.move cmd.vdev)) after := by
  obtain ⟨bits, flag, waiting⟩ := moved_counters moved
  have remains : ∀ {duty : Duty limits}, duty ≠ .move cmd.vdev → duty ∈ owed →
      duty ∈ owed.erase (.move cmd.vdev) := fun different owes =>
    (Multiset.mem_erase_of_ne different).mpr owes
  have keepsFlag : queue.blockingCmdActive = true → after.blockingCmdActive = true := by
    intro active
    rw [flag, active]
    rfl
  refine ⟨?_, fun other listed marked => ?_⟩
  · cases inv.promises with
    | blocked active => exact .blocked (keepsFlag active)
    | walk owes => exact .walk (remains nofun owes)
    | settles owes => exact .settles (remains nofun owes)
    | waits waits removal => exact absurd noneWaits waits
    | each serves =>
      refine .each fun other listed held isHeld => ?_
      obtain ⟨before, same⟩ := moved_pending moved listed
      rw [same] at isHeld
      rw [bits, Function.update_apply]
      by_cases sameVdev : held.vdev = cmd.vdev
      · rw [if_pos sameVdev]
        exact .inl rfl
      · rw [if_neg sameVdev]
        refine (serves other before held isHeld).imp_right (remains ?_)
        rintro equal
        exact sameVdev (Duty.move.inj equal)
  · obtain ⟨before, -⟩ := moved_pending moved listed
    rw [sameMarks] at marked
    rcases inv.marks other before marked with active | owes | waits
    · exact .inl (keepsFlag active)
    · exact .inr (.inl (remains nofun owes))
    · exact absurd noneWaits waits

/-- A blocking command is pending: it is counted as waiting. -/
theorem Exact.waiting_of_pending (exact : Exact owed queue) {node : NodeId}
    (pending : node ∈ queue.pendingList) (blocking : queue.isBlocking node = true) :
    queue.blockingCmdWaiting ≠ 0 := by
  intro zero
  have counts := exact.waiting
  rw [zero] at counts
  have positive : 0 < queue.count false (Account.blockingWaiting limits).kind :=
    List.countP_pos_iff.mpr ⟨node, pending, blocking⟩
  have split : (Account.blockingWaiting limits).charged owed queue =
      queue.count false (Account.blockingWaiting limits).kind +
        (Account.blockingWaiting limits).owing owed := rfl
  have nothing : (0 : BitVec 16).toNat = 0 := rfl
  omega

/-- The walk over the pdev's list ends. -/
theorem Conserving.pdevIdle (inv : Conserving owed queue) {inUse : NodeId → InUse}
    (idle : (∃ node ∈ queue.pendingList, queue.isBlocking node = true ∧
        queue.anyVdevCmdActive = true) ∨
      ∀ node ∈ queue.pendingList, queue.vdevCmdActive node = true ∧
        (inUse node).markedForMovement = false) :
    Promises owed' (queue.remarked inUse) ∧ MarksCleared owed' (queue.remarked inUse) := by
  rcases idle with ⟨node, pending, blocking, any⟩ | all
  · have waiting := inv.exact.waiting_of_pending pending blocking
    exact ⟨.waits waiting (.inl any), fun _ _ _ => .inr (.inr waiting)⟩
  · refine ⟨.each fun node pending cmd isCmd => .inl ?_, fun node pending marked => ?_⟩
    · have busy := (all node pending).1
      have isCmd : queue.cmd node = some cmd := isCmd
      show queue.vdevActiveCmdBitmap cmd.vdev = true
      simpa [vdevCmdActive, isCmd] using busy
    · have marked : (inUse node).markedForMovement = true := marked
      rw [(all node pending).2] at marked
      exact absurd marked Bool.false_ne_true

/-! ### Cancellation -/

/-- What is served is promised. -/
theorem promises_of_served (served : queue.Served) :
    Promises owed queue ∧ MarksCleared owed queue := by
  obtain ⟨first, second⟩ := served
  refine ⟨?_, fun node pending marked => ?_⟩
  · rcases first with active | ⟨waiting, any⟩ | all
    · exact .blocked active
    · exact .waits waiting (.inl any)
    · refine .each fun node pending cmd isCmd => .inl ?_
      simpa [vdevCmdActive, isCmd] using all node pending
  · rcases second with active | waiting | none
    · exact .inl active
    · exact .inr (.inr waiting)
    · rw [none node pending] at marked
      exact absurd marked Bool.false_ne_true

/-- What is served without a command is served after its settlement. -/
theorem served_settle {isActive : Bool} {cmd : Command limits}
    (matters : isActive = true ∨ cmd.isBlocking = true)
    (served : queue.ServedWithout cmd isActive) :
    (queue.cancelSettle cmd isActive).Served := by
  unfold ServedWithout at served
  cases isActive with
  | true =>
    rw [if_pos rfl] at served
    obtain ⟨first, second⟩ := served
    have flag : queue.blockingCmdActive = true ∧ cmd.isBlocking = false →
        (queue.clearActive cmd.vdev cmd.isBlocking).blockingCmdActive = true := by
      rintro ⟨active, notBlocking⟩
      rw [clearActive, notBlocking]
      exact active
    refine ⟨?_, second.imp_left flag⟩
    refine first.imp flag (.imp (And.imp_right ?_) fun all node pending => ?_)
    · rintro ⟨vdev, different, busy⟩
      refine any_iff.mpr ⟨vdev, ?_⟩
      show Function.update queue.vdevActiveCmdBitmap cmd.vdev false vdev = true
      rwa [Function.update_of_ne different]
    · obtain ⟨elsewhere, busy⟩ := all node pending
      cases isHeld : queue.cmd node with
      | none =>
        rw [vdevCmdActive, isHeld] at busy
        cases busy
      | some held =>
        have different : held.vdev ≠ cmd.vdev := by
          simpa [onVdev, isHeld] using elsewhere
        rw [vdevCmdActive, isHeld] at busy
        show (queue.cmd node).any _ = true
        rw [isHeld]
        show Function.update queue.vdevActiveCmdBitmap cmd.vdev false held.vdev = true
        rwa [Function.update_of_ne different]
  | false =>
    rw [if_neg Bool.false_ne_true] at served
    have blocking : cmd.isBlocking = true := matters.resolve_left Bool.false_ne_true
    have isSettled : queue.cancelSettle cmd false =
        { queue with blockingCmdWaiting := queue.blockingCmdWaiting - 1 } := by
      rw [cancelSettle, if_neg Bool.false_ne_true, if_pos blocking]
    have waits : queue.blockingCmdWaiting ≠ 1 → queue.blockingCmdWaiting - 1 ≠ 0 :=
      fun notOne none => notOne (by bv_omega)
    rw [isSettled]
    exact ⟨served.1.imp_right (.imp_left (And.imp_left waits)),
      served.2.imp_right (.imp_left waits)⟩

theorem Conserving.settled (inv : Conserving owed queue) {isActive : Bool} {cmd : Command limits}
    (served : isActive = true ∨ cmd.isBlocking = true → queue.ServedWithout cmd isActive) :
    Promises (owed.erase (.ofCancelled isActive cmd)) (queue.cancelSettle cmd isActive) ∧
      MarksCleared (owed.erase (.ofCancelled isActive cmd)) (queue.cancelSettle cmd isActive) := by
  by_cases matters : isActive = true ∨ cmd.isBlocking = true
  · exact promises_of_served (served_settle matters (served matters))
  · obtain ⟨notActive, notBlocking⟩ := not_or.mp matters
    obtain rfl := eq_false_of_ne_true notActive
    have isSame : queue.cancelSettle cmd false = queue := by
      unfold cancelSettle
      rw [if_neg Bool.false_ne_true, if_neg notBlocking]
    have isDuty : Duty.ofCancelled false cmd = .settlePending false := by
      show Duty.settlePending cmd.isBlocking = _
      rw [eq_false_of_ne_true notBlocking]
    rw [isSame, isDuty]
    have keeps : Keeps owed queue (owed.erase (.settlePending false)) queue :=
      ⟨id, fun duty owes _ different => (Multiset.mem_erase_of_ne different).mpr owes, id,
        fun _ => id, fun _ listed => ⟨listed, rfl, rfl⟩⟩
    exact ⟨inv.promises.keep keeps, inv.marks.keep keeps⟩

/-! ### Every run -/

/-- **One step.** -/
theorem Conserving.effect (inv : Conserving owed queue) {op : SerOp limits}
    (fit : conservingFit op queue) (effect : Effect op owed queue owed' after) :
    Conserving owed' after := by
  have exact' := inv.exact.effect fit.counting effect
  have wf := inv.exact.base.wf
  suffices both : Promises owed' after ∧ MarksCleared owed' after from ⟨exact', both.1, both.2⟩
  cases effect with
  | remarked remarks =>
    exact ⟨inv.promises.keep (keeps_remarked remarks), inv.marks.keep (keeps_remarked remarks)⟩
  | activated =>
    exact ⟨inv.promises.keep (keeps_activated _), inv.marks.keep (keeps_activated _)⟩
  | enqueued isEnqueued => exact inv.enqueued fit.counting isEnqueued
  | dequeuedActive listed isCmd => exact inv.dequeuedActive listed isCmd
  | dequeuedPending resolved found listed isCmd => exact inv.dequeuedPending listed isCmd
  | vdevIdle owes noneWaits idle => exact inv.vdevIdle noneWaits idle
  | vdevMoved owes noneWaits first unmarked onVdev moved sameMarks =>
    subst onVdev
    refine inv.vdevMoved noneWaits moved fun other => ?_
    rw [sameMarks]
    exact promoted_markedForMovement queue _ _ other
  | pdevIdle walks owes noAccount remarks idle => exact inv.pdevIdle idle
  | pdevMoved walks owes noAccount reached moved =>
    exact ⟨.walk (Multiset.mem_cons_self _ _), fun _ _ _ =>
      .inr (.inl (Multiset.mem_cons_self _ _))⟩
  | stopped owes active => exact ⟨.blocked active, fun _ _ _ => .inl active⟩
  | cancelled cancels =>
    exact ⟨inv.promises.keep (keeps_cancelled wf cancels),
      inv.marks.keep (keeps_cancelled wf cancels)⟩
  | settled owes remarks =>
    obtain ⟨promises, marks⟩ := inv.settled fit.2
    exact ⟨promises.keep (keeps_remarked remarks), marks.keep (keeps_remarked remarks)⟩
  | settledCancelled owes cancels =>
    obtain ⟨promises, marks⟩ := inv.settled fit.2
    exact ⟨promises.keep (keeps_cancelled (wf_cancelSettle _ _ _ wf) cancels),
      marks.keep (keeps_cancelled (wf_cancelSettle _ _ _ wf) cancels)⟩

/-- Where nothing is owed, a pending command has an active one before it. -/
theorem Conserving.active_of_pending (inv : Conserving 0 queue) (pending : queue.pendingList ≠ []) :
    queue.activeList ≠ [] := by
  have counted := inv.exact.counted fun _ member => absurd member (Multiset.notMem_zero _)
  have ofBusy : ∀ vdev, queue.vdevActiveCmdBitmap vdev = true → queue.activeList ≠ [] := by
    intro vdev busy
    obtain ⟨node, listed, -⟩ := (counted.bitmap vdev).mp busy
    exact List.ne_nil_of_mem listed
  cases inv.promises with
  | blocked active =>
    obtain ⟨node, listed, -⟩ := counted.active.mp active
    exact List.ne_nil_of_mem listed
  | walk owes => exact absurd owes (Multiset.notMem_zero _)
  | settles owes => exact absurd owes (Multiset.notMem_zero _)
  | waits waiting removal =>
    rcases removal with any | ⟨vdev, owes⟩
    · obtain ⟨vdev, busy⟩ := any_iff.mp any
      exact ofBusy vdev busy
    · exact absurd owes (Multiset.notMem_zero _)
  | each serves =>
    obtain ⟨node, listed⟩ := List.exists_mem_of_ne_nil _ pending
    obtain ⟨cmd, isCmd⟩ := inv.exact.base.wf.filled false node listed
    rcases serves node listed cmd isCmd with busy | owes
    · exact ofBusy cmd.vdev busy
    · exact absurd owes (Multiset.notMem_zero _)

end Conserving

theorem conserving_init (limits : Limits) : Conserving 0 (Queue.init limits) :=
  ⟨⟨base_init limits, rfl, rfl⟩, .each fun _ member => absurd member List.not_mem_nil,
    fun _ member => absurd member List.not_mem_nil⟩

theorem conserving_valid (Tid : Type) [DecidableEq Tid] (limits : Limits) :
    (duties limits).Valid ((system Tid limits).guarded conservingFit) Conserving Stop.Owes :=
  duties_valid (conserving_init limits) (fun inv => inv.exact.base) fun inv fit effect =>
    inv.effect fit effect

/-- **Work conservation, in every run** that conserves the work: when all calls have returned and a
command is pending, then a command is active. -/
theorem conserving_run {Tid : Type} [DecidableEq Tid]
    {history : List (Queue limits × SerLabel Tid limits)} {machine : Machine Tid limits}
    (run : ((system Tid limits).guarded conservingFit).Run history machine)
    (quiet : machine.Quiescent) (pending : machine.state.pendingList ≠ []) :
    machine.state.activeList ≠ [] :=
  ((conserving_valid Tid limits).quiescent run quiet).active_of_pending pending

/-! ### Two runs -/

/-- Of three commands of a vdev the first is done, and the active command of another vdev is
cancelled. -/
def secondTurn : Machine Bool threeVdevs :=
  let strategy := (succeeds Bool threeVdevs).guarded conservingFit
  (((((Machine.init Bool threeVdevs).calls strategy false
    (.enqueue (command 1 0 false) .request) 7).calls strategy false
      (.enqueue (command 2 0 false) .request) 7).calls strategy false
        (.enqueue (command 3 0 false) .request) 7).calls strategy false
          (.dequeue (command 1 0 false) true) 10).calls strategy false
            (.enqueue (command 4 1 false) .request) 7 |>.calls strategy false
              (.cancel ⟨some (4, .nonscan), false, none, .nonscan, false⟩ true false) 6

theorem secondTurn_reachable :
    ((system Bool threeVdevs).guarded conservingFit).Reachable secondTurn := by
  refine Machine.calls_reachable _ ?_ (by exact ⟨rfl, _, _, rfl⟩) (by decide +kernel) _ _
  refine Machine.calls_reachable _ ?_ (by exact ⟨rfl, _, _, rfl⟩) (by decide +kernel) _ _
  refine Machine.calls_reachable _ ?_ (by exact ⟨rfl, _, _, rfl⟩) (by decide +kernel) _ _
  refine Machine.calls_reachable _ ?_ (by exact ⟨rfl, _, _, rfl⟩) (by decide +kernel) _ _
  refine Machine.calls_reachable _ ?_ (by exact ⟨rfl, _, _, rfl⟩) (by decide +kernel) _ _
  refine Machine.calls_reachable _ ?_ (by exact ⟨rfl, _, _, rfl⟩) rfl _ _
  exact ⟨[], .init rfl⟩

/-- Work conservation where a command has been promoted and another one cancelled. -/
theorem conserving_run_secondTurn : secondTurn.state.pendingList = [2] ∧
    secondTurn.state.activeList ≠ [] := by
  obtain ⟨history, run⟩ := secondTurn_reachable
  have pending : secondTurn.state.pendingList = [2] := by decide +kernel
  refine ⟨pending, conserving_run run (fun tid => ?_) ?_⟩
  · cases tid <;> decide +kernel
  · rw [pending]
    exact List.cons_ne_nil _ _

/-- An active command is cancelled while another one of its vdev is pending. -/
def stranded : Machine Bool threeVdevs :=
  let strategy := succeeds Bool threeVdevs
  (((Machine.init Bool threeVdevs).calls strategy false
    (.enqueue (command 1 0 false) .request) 7).calls strategy false
      (.enqueue (command 2 0 false) .request) 7).calls strategy false
        (.cancel ⟨some (1, .nonscan), false, none, .nonscan, false⟩ true false) 6

theorem stranded_reachable : (system Bool threeVdevs).Reachable stranded := by
  refine Machine.calls_reachable _ ?_ (by exact ⟨rfl, _, _, rfl⟩) (by decide +kernel) _ _
  refine Machine.calls_reachable _ ?_ (by exact ⟨rfl, _, _, rfl⟩) (by decide +kernel) _ _
  refine Machine.calls_reachable _ ?_ (by exact ⟨rfl, _, _, rfl⟩) rfl _ _
  exact ⟨[], .init rfl⟩

/-- All calls have returned, a command is pending and none is active. -/
theorem not_conserving_stranded : ∃ machine : Machine Bool threeVdevs,
    (system Bool threeVdevs).Reachable machine ∧ machine.Quiescent ∧
      machine.state.pendingList ≠ [] ∧ machine.state.activeList = [] := by
  refine ⟨stranded, stranded_reachable, fun tid => ?_, by decide +kernel, by decide +kernel⟩
  cases tid <;> decide +kernel

end Qsdk.Serialization
