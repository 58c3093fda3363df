/-
**The accounts of a queue: its counters, and the commands that they count.**

Three fields of the queue are counters of commands: the bit of a vdev counts its active commands,
the flag the active blocking commands, `blocking_cmd_waiting` the pending blocking ones. A command
that a cancellation has taken off the lists is counted until its account is settled.
`Account.charged` is what a counter should show.

What an effect does to the counters and to what they should show is a `Change`
(`change_of_effect`). The bits are exact in every run (`Base`), so that no vdev ever has two active
commands and there is always room in the active lists (`Base.roomy`).
-/

import Qsdk.Serialization.Effects
import Mathlib.Algebra.BigOperators.Group.Finset.Piecewise
import Mathlib.Algebra.Order.BigOperators.Group.Finset
import Mathlib.Data.Fintype.BigOperators

namespace Qsdk.Serialization

open Queue

variable {limits : Limits}

/-! ### Accounts -/

/-- The commands of a list that are counted, and the duties that stand for a cancelled one. -/
structure Account (limits : Limits) where
  list : Bool
  kind : Command limits → Bool
  stands : Duty limits → Bool
  cancelled : ∀ isActive cmd, stands (.ofCancelled isActive cmd) = (isActive == list && kind cmd)
  noAccount : ∀ duty, ¬duty.IsAccount → stands duty = false

/-- The active commands of a vdev. -/
def Account.ofVdev (vdev : limits.Vdev) : Account limits where
  list := true
  kind := fun cmd => cmd.vdev = vdev
  stands
    | .settleActive other _ => other = vdev
    | _ => false
  cancelled := fun isActive cmd => by cases isActive <;> simp [Duty.ofCancelled]
  noAccount := fun duty noAccount => by
    cases duty with
    | settleActive other blocking => exact absurd trivial noAccount
    | _ => rfl

/-- The active blocking commands. -/
def Account.blockingActive (limits : Limits) : Account limits where
  list := true
  kind := fun cmd => cmd.isBlocking
  stands
    | .settleActive _ blocking => blocking
    | _ => false
  cancelled := fun isActive cmd => by cases isActive <;> simp [Duty.ofCancelled]
  noAccount := fun duty noAccount => by
    cases duty with
    | settleActive other blocking => exact absurd trivial noAccount
    | _ => rfl

/-- The pending blocking commands. -/
def Account.blockingWaiting (limits : Limits) : Account limits where
  list := false
  kind := fun cmd => cmd.isBlocking
  stands
    | .settlePending blocking => blocking
    | _ => false
  cancelled := fun isActive cmd => by cases isActive <;> simp [Duty.ofCancelled]
  noAccount := fun duty noAccount => by
    cases duty with
    | settlePending blocking => exact absurd trivial noAccount
    | _ => rfl

/-- How many duties stand for a counted command. -/
def Account.owing (account : Account limits) (owed : Duties limits) : Nat :=
  owed.countP fun duty => account.stands duty = true

/-- **What the counter of an account should show.** -/
def Account.charged (account : Account limits) (owed : Duties limits) (queue : Queue limits) :
    Nat :=
  queue.count account.list account.kind + account.owing owed

section Owing

variable (account : Account limits) {owed : Duties limits} {duty : Duty limits}

theorem Account.owing_cons : account.owing (duty ::ₘ owed) =
    account.owing owed + if account.stands duty = true then 1 else 0 :=
  Multiset.countP_cons ..

theorem Account.owing_erase (owes : duty ∈ owed) : account.owing (owed.erase duty) +
    (if account.stands duty = true then 1 else 0) = account.owing owed := by
  rw [← account.owing_cons, Multiset.cons_erase owes]

theorem Account.owing_cons_other (noAccount : ¬duty.IsAccount) :
    account.owing (duty ::ₘ owed) = account.owing owed := by
  rw [owing_cons, account.noAccount duty noAccount]
  rfl

theorem Account.owing_erase_other (owes : duty ∈ owed) (noAccount : ¬duty.IsAccount) :
    account.owing (owed.erase duty) = account.owing owed := by
  rw [← account.owing_erase owes, account.noAccount duty noAccount]
  rfl

theorem Account.owing_settled (settled : owed.Settled) : account.owing owed = 0 := by
  refine Multiset.countP_eq_zero.mpr fun duty member => ?_
  rw [account.noAccount duty (settled duty member)]
  exact Bool.false_ne_true

end Owing

/-! ### Changes -/

/-- What an effect does to the counters and to the commands they count. -/
inductive Change (limits : Limits) where
  | still
  /-- A command that is then rejected is counted as waiting. -/
  | counted
  | pending (cmd : Command limits) (counted : Bool)
  | active (cmd : Command limits)
  | dequeued (isActive : Bool) (cmd : Command limits)
  | moved (cmd : Command limits)
  | settled (isActive : Bool) (cmd : Command limits)

namespace Change

/-- What becomes of `vdev_active_cmd_bitmap`. -/
def bitmap : Change limits → (limits.Vdev → Bool) → limits.Vdev → Bool
  | .active cmd, bits => Function.update bits cmd.vdev true
  | .moved cmd, bits => Function.update bits cmd.vdev true
  | .dequeued true cmd, bits => Function.update bits cmd.vdev false
  | .settled true cmd, bits => Function.update bits cmd.vdev false
  | _, bits => bits

/-- What becomes of `blocking_cmd_active`. -/
def blockingActive : Change limits → Bool → Bool
  | .active cmd, flag => flag || cmd.isBlocking
  | .moved cmd, flag => flag || cmd.isBlocking
  | .dequeued true cmd, flag => if cmd.isBlocking then false else flag
  | .settled true cmd, flag => if cmd.isBlocking then false else flag
  | _, flag => flag

/-- What becomes of `blocking_cmd_waiting`. -/
def waiting : Change limits → BitVec 16 → BitVec 16
  | .counted, waiting => waiting + 1
  | .pending _ true, waiting => waiting + 1
  | .moved cmd, waiting => if cmd.isBlocking then waiting - 1 else waiting
  | .settled false cmd, waiting => if cmd.isBlocking then waiting - 1 else waiting
  | _, waiting => waiting

/-- The commands of a kind that are no longer counted for a list. -/
def loss (list : Bool) (kind : Command limits → Bool) : Change limits → Nat
  | .dequeued isActive cmd => if isActive = list ∧ kind cmd = true then 1 else 0
  | .settled isActive cmd => if isActive = list ∧ kind cmd = true then 1 else 0
  | .moved cmd => if list = false ∧ kind cmd = true then 1 else 0
  | _ => 0

/-- The commands of a kind that a list gains. -/
def gain (list : Bool) (kind : Command limits → Bool) : Change limits → Nat
  | .pending cmd _ => if list = false ∧ kind cmd = true then 1 else 0
  | .active cmd => if list = true ∧ kind cmd = true then 1 else 0
  | .moved cmd => if list = true ∧ kind cmd = true then 1 else 0
  | _ => 0

/-- The change is made. -/
structure Made (change : Change limits) (owed : Duties limits) (queue : Queue limits)
    (owed' : Duties limits) (after : Queue limits) : Prop where
  wf : Wf 0 after
  bitmap : after.vdevActiveCmdBitmap = change.bitmap queue.vdevActiveCmdBitmap
  blockingActive : after.blockingCmdActive = change.blockingActive queue.blockingCmdActive
  waiting : after.blockingCmdWaiting = change.waiting queue.blockingCmdWaiting
  counts : ∀ list kind, after.count list kind ≤ queue.count list kind + change.gain list kind
  charged : ∀ account : Account limits,
    account.charged owed' after + change.loss account.list account.kind =
      account.charged owed queue + change.gain account.list account.kind

/-- What is known when an operation makes the change. -/
def Fits (op : SerOp limits) (owed : Duties limits) (queue : Queue limits) : Change limits → Prop
  | .still => True
  | .counted => ∃ cmd reason, op = .enqueue cmd reason ∧ queue.Admits cmd reason ∧
      queue.Counts cmd ∧ (queue.isCmdPresentQueue cmd (queue.activeQueue cmd) = true ∨
        queue.cmdPoolList = [] ∨ queue.Full cmd (queue.activeQueue cmd))
  | .pending cmd isCounted => ∃ reason, op = .enqueue cmd reason ∧ queue.Admits cmd reason ∧
      queue.isCmdPresentQueue cmd (queue.activeQueue cmd) = false ∧ queue.cmdPoolList ≠ [] ∧
      ¬queue.Full cmd (queue.activeQueue cmd) ∧ queue.activeQueue cmd = false ∧
      isCounted = decide (queue.Counts cmd)
  | .active cmd => ∃ reason, op = .enqueue cmd reason ∧ queue.activeQueue cmd = true
  | .dequeued isActive cmd => ∃ ref, op = .dequeue ref isActive ∧
      ∃ node ∈ queue.pdevList isActive, queue.cmd node = some cmd ∧
        (isActive = false → ∃ given, ref.resolve queue = some given ∧
          queue.findCmd queue.pendingList given = some node)
  | .moved cmd => queue.vdevActiveCmdBitmap cmd.vdev = false ∧ ∃ node ∈ queue.pendingList,
      queue.cmd node = some cmd ∧
        ((op = .moveStart cmd.vdev false ∧ queue.blockingCmdWaiting = 0 ∧
            (queue.vdevList false cmd.vdev).head? = some node ∧
            (queue.cmdInUse node).markedForMovement = false) ∨
          (op.WalksPdev queue ∧ node ∈ queue.walked queue.pendingList))
  | .settled isActive cmd => (∃ ref loop, op = .cancelResume ref isActive cmd loop) ∧
      Duty.ofCancelled isActive cmd ∈ owed

end Change

/-! ### The change that an effect makes -/

section Made

variable {owed : Duties limits} {queue after : Queue limits} {node : NodeId} {cmd : Command limits}

theorem remarked_made (wf : Wf 0 queue) {list : List NodeId} {inUse : NodeId → InUse}
    {owed' : Duties limits} (remarks : queue.Remarks list inUse)
    (outside : ∀ node ∈ list, node ∉ queue.cmdPoolList)
    (same : ∀ account : Account limits, account.owing owed' = account.owing owed) :
    Change.still.Made owed queue owed' (queue.remarked inUse) where
  wf := wf.remarked remarks outside
  bitmap := rfl
  blockingActive := rfl
  waiting := rfl
  counts := fun _ _ => Nat.le_refl _
  charged := fun account => by
    show queue.count account.list account.kind + account.owing owed' = _
    rw [same account]
    rfl

theorem activated_made (wf : Wf 0 queue) (node : NodeId) :
    Change.still.Made owed queue owed (queue.activated node) where
  wf := wf.updateInUse (fun inUse => { inUse with markedForActivation := false, isActive := true })
    (fun _ unmarked => ⟨rfl, unmarked.2⟩) fun _ _ => rfl
  bitmap := rfl
  blockingActive := rfl
  waiting := rfl
  counts := fun _ _ => Nat.le_refl _
  charged := fun _ => rfl

/-! #### Enqueue -/

/-- A node from the pool that is given a command is not counted yet. -/
theorem count_fresh {hand : Multiset NodeId} (wf : Wf hand queue) {pool : List NodeId}
    (isPool : queue.cmdPoolList = node :: pool) (cmd : Command limits) (list : Bool)
    (kind : Command limits → Bool) :
    ((queue.setPool pool).setCmd node (some cmd)).count list kind = queue.count list kind := by
  refine count_congr kind rfl fun other member => Function.update_of_ne ?_ _ _
  rintro rfl
  have pooled : other ∈ queue.cmdPoolList := by
    rw [isPool]
    exact List.mem_cons_self
  exact wf.pool_not_listed pooled list member

theorem counted_waiting (queue : Queue limits) (cmd : Command limits) :
    (queue.counted cmd).blockingCmdWaiting =
      if queue.Counts cmd then queue.blockingCmdWaiting + 1 else queue.blockingCmdWaiting := by
  unfold counted
  split <;> rfl

theorem count_counted (queue : Queue limits) (cmd : Command limits) (list : Bool)
    (kind : Command limits → Bool) : (queue.counted cmd).count list kind =
        queue.count list kind := by
  refine count_congr kind (congrFun (counted_pdevList ..) list) fun node _ => ?_
  rw [counted_cmd]

/-- A rejected command is counted, or nothing changes. -/
theorem rejected_made (wf : Wf 0 after) {cmd : Command limits}
    (bitmap : after.vdevActiveCmdBitmap = queue.vdevActiveCmdBitmap)
    (flag : after.blockingCmdActive = queue.blockingCmdActive)
    (waiting : after.blockingCmdWaiting = (queue.counted cmd).blockingCmdWaiting)
    (count : ∀ list kind, after.count list kind = queue.count list kind) :
    (if queue.Counts cmd then Change.counted else Change.still).Made owed queue owed after := by
  rw [counted_waiting] at waiting
  have charged : ∀ account : Account limits, account.charged owed after =
      account.charged owed queue := by
    intro account
    unfold Account.charged
    rw [count]
  by_cases counts : queue.Counts cmd
  · rw [if_pos counts] at waiting ⊢
    exact ⟨wf, bitmap, flag, waiting, fun list kind => (count list kind).le, charged⟩
  · rw [if_neg counts] at waiting ⊢
    exact ⟨wf, bitmap, flag, waiting, fun list kind => (count list kind).le, charged⟩

theorem rejected_fits {reason : QueueReason} (admits : queue.Admits cmd reason)
    (why : queue.isCmdPresentQueue cmd (queue.activeQueue cmd) = true ∨
      queue.cmdPoolList = [] ∨ queue.Full cmd (queue.activeQueue cmd)) :
    (if queue.Counts cmd then Change.counted else Change.still).Fits (.enqueue cmd reason) owed
      queue := by
  by_cases counts : queue.Counts cmd
  · rw [if_pos counts]
    exact ⟨cmd, reason, rfl, admits, counts, why⟩
  · rw [if_neg counts]
    exact trivial

/-- The queue in which a command that was admitted is about to be added. -/
def freshFor (queue : Queue limits) (node : NodeId) (pool : List NodeId) (cmd : Command limits) :
    Queue limits := ((queue.counted cmd).setPool pool).setCmd node (some cmd)

section Fresh

variable {pool : List NodeId}

theorem wf_freshFor (wf : Wf 0 queue) (isPool : queue.cmdPoolList = node :: pool)
    (cmd : Command limits) : Wf (node ::ₘ 0) (freshFor queue node pool cmd) :=
  (wf.counted cmd).allocate ((counted_cmdPoolList ..).trans isPool) cmd

theorem count_freshFor (wf : Wf 0 queue) (isPool : queue.cmdPoolList = node :: pool)
    (cmd : Command limits) (list : Bool) (kind : Command limits → Bool) :
    (freshFor queue node pool cmd).count list kind = queue.count list kind :=
  (count_fresh (wf.counted cmd) ((counted_cmdPoolList ..).trans isPool) cmd list kind).trans
    (count_counted queue cmd list kind)

theorem freshFor_cmd_of_listed (wf : Wf 0 queue) (isPool : queue.cmdPoolList = node :: pool)
    {list : Bool} {other : NodeId} (listed : other ∈ queue.pdevList list) :
    (freshFor queue node pool cmd).cmd other = queue.cmd other := by
  have different : other ≠ node := by
    rintro rfl
    refine wf.pool_not_listed ?_ list listed
    rw [isPool]
    exact List.mem_cons_self
  refine (Function.update_of_ne different _ _).trans ?_
  exact congrFun (counted_cmd queue cmd) other

theorem freshFor_inUse (wf : Wf 0 queue) (isPool : queue.cmdPoolList = node :: pool)
    (cmd : Command limits) :
    (freshFor queue node pool cmd).cmdInUse = queue.cmdInUse ∧ (queue.cmdInUse node).Unmarked := by
  refine ⟨counted_cmdInUse queue cmd, (wf.blank node ?_).2⟩
  rw [isPool]
  exact List.mem_cons_self

theorem full_made (wf : Wf 0 queue) (isPool : queue.cmdPoolList = node :: pool) :
    (if queue.Counts cmd then Change.counted else Change.still).Made owed queue owed
      (((freshFor queue node pool cmd).disableQueue cmd).release node) := by
  have disabled : Wf (node ::ₘ 0) ((freshFor queue node pool cmd).disableQueue cmd) :=
    (wf_freshFor wf isPool cmd).congr (disableQueue_pdevList ..) (disableQueue_vdevList ..)
      (disableQueue_cmdPoolList ..) (disableQueue_cmd ..) (disableQueue_cmdInUse ..)
  refine rejected_made disabled.release ?_ ?_ ?_ fun list kind => ?_
  · exact (disableQueue_vdevActiveCmdBitmap ..).trans (counted_vdevActiveCmdBitmap ..)
  · exact (disableQueue_blockingCmdActive ..).trans (counted_blockingCmdActive ..)
  · exact disableQueue_blockingCmdWaiting ..
  · rw [release_count disabled, ← count_freshFor wf isPool cmd list kind]
    exact count_congr kind (congrFun (disableQueue_pdevList ..) list) fun other _ =>
      congrFun (disableQueue_cmd ..) other

theorem pending_made (wf : Wf 0 queue) (isPool : queue.cmdPoolList = node :: pool)
    (isNew : queue.isCmdPresentQueue cmd false = false) :
    (Change.pending cmd (decide (queue.Counts cmd))).Made owed queue owed
      ((freshFor queue node pool cmd).added false node cmd) := by
  have isCmd : (freshFor queue node pool cmd).cmd node = some cmd := Function.update_self ..
  have listed : (freshFor queue node pool cmd).pendingList = queue.pendingList :=
    congrFun (counted_pdevList queue cmd) false
  have count : ∀ list kind, ((freshFor queue node pool cmd).added false node cmd).count list kind =
      queue.count list kind + if list = false ∧ kind cmd = true then 1 else 0 := by
    intro list kind
    rw [count_added isCmd, count_freshFor wf isPool]
  refine ⟨(wf_freshFor wf isPool cmd).added isCmd (fun _ => ?_) fun _ other member third isThird =>
    ?_,
    ?_, ?_, ?_, fun list kind => (count list kind).le, fun account => ?_⟩
  · obtain ⟨same, unmarked⟩ := freshFor_inUse wf isPool cmd
    rw [same]
    exact unmarked.1
  · rw [listed] at member
    have absent : queue.findCmd queue.pendingList cmd = none := by
      rw [← wf.findCmd_vdevList]
      simpa [isCmdPresentQueue] using isNew
    rw [freshFor_cmd_of_listed wf isPool member] at isThird
    have noMatch := List.find?_eq_none.mp absent other member
    rw [isThird] at noMatch
    exact eq_false_of_ne_true noMatch
  · rw [added_vdevActiveCmdBitmap]
    exact counted_vdevActiveCmdBitmap ..
  · rw [added_blockingCmdActive, Bool.false_and, Bool.or_false]
    exact counted_blockingCmdActive ..
  · rw [added_blockingCmdWaiting]
    refine (counted_waiting queue cmd).trans ?_
    by_cases counts : queue.Counts cmd
    · rw [if_pos counts, decide_eq_true counts]
      rfl
    · rw [if_neg counts, decide_eq_false counts]
      rfl
  · unfold Account.charged
    rw [count]
    show _ + 0 = _ + (if account.list = false ∧ _ then 1 else 0)
    omega

theorem active_made (wf : Wf 0 queue) (isPool : queue.cmdPoolList = node :: pool)
    (allowed : queue.activeQueue cmd = true) : (Change.active cmd).Made owed queue owed
      (((freshFor queue node pool cmd).added true node cmd).updateInUse node
        fun inUse => { inUse with markedForActivation := true }) := by
  have isCmd : (freshFor queue node pool cmd).cmd node = some cmd := Function.update_self ..
  have fresh := wf_freshFor wf isPool cmd
  have inHand : node ∈ node ::ₘ (0 : Multiset NodeId) := Multiset.mem_cons_self _ _
  have added : Wf 0 ((freshFor queue node pool cmd).added true node cmd) :=
    fresh.added isCmd nofun nofun
  have count : ∀ list kind, (((freshFor queue node pool cmd).added true node cmd).updateInUse node
      fun inUse => { inUse with markedForActivation := true }).count list kind =
        queue.count list kind + if list = true ∧ kind cmd = true then 1 else 0 := by
    intro list kind
    rw [← count_freshFor wf isPool cmd list kind, ← count_added isCmd]
    rfl
  refine ⟨added.updateInUse _ (fun pooled => ?_) fun pending => ?_, ?_, ?_, ?_,
    fun list kind => (count list kind).le, fun account => ?_⟩
  · rw [added_cmdPoolList] at pooled
    exact absurd pooled (fresh.not_pooled inHand)
  · have pending : node ∈ ((freshFor queue node pool cmd).added true node cmd).pdevList false :=
      pending
    rw [added_pdevList, put_pdevList, if_neg (by simp)] at pending
    exact absurd pending (fresh.not_listed inHand false)
  · show ((freshFor queue node pool cmd).added true node cmd).vdevActiveCmdBitmap = _
    rw [added_vdevActiveCmdBitmap, if_pos rfl]
    exact congrArg (Function.update · cmd.vdev true) (counted_vdevActiveCmdBitmap ..)
  · show ((freshFor queue node pool cmd).added true node cmd).blockingCmdActive = _
    rw [added_blockingCmdActive, Bool.true_and]
    exact congrArg (· || cmd.isBlocking) (counted_blockingCmdActive ..)
  · show ((freshFor queue node pool cmd).added true node cmd).blockingCmdWaiting = _
    rw [added_blockingCmdWaiting]
    refine (counted_waiting queue cmd).trans (if_neg ?_)
    rintro ⟨blocking, any⟩
    have idle := ((activeQueue_iff queue cmd).mp allowed).2
    rw [if_pos blocking, any] at idle
    exact Bool.true_eq_false_eq_False idle
  · unfold Account.charged
    rw [count]
    show _ + 0 = _ + (if account.list = true ∧ _ then 1 else 0)
    omega

end Fresh

/-- **Enqueue**: what it changes. -/
theorem enqueued_made (wf : Wf 0 queue) {reason : QueueReason} {res : SerStatus × Option NodeId}
    (isEnqueued : queue.Enqueued cmd reason res after) : ∃ change : Change limits,
      change.Made owed queue owed after ∧ change.Fits (.enqueue cmd reason) owed queue := by
  have still : Change.still.Made owed queue owed queue :=
    remarked_made wf (.refl queue []) (fun _ member => absurd member List.not_mem_nil) fun _ => rfl
  cases isEnqueued with
  | refused denied refuses => exact ⟨.still, still, trivial⟩
  | rejected denied admits why =>
    refine ⟨_, rejected_made (wf.counted cmd) (counted_vdevActiveCmdBitmap ..)
      (counted_blockingCmdActive ..) rfl (count_counted queue cmd), rejected_fits admits ?_⟩
    exact why.imp_right .inl
  | full admits isNew isPool full =>
    exact ⟨_, full_made wf isPool, rejected_fits admits (.inr (.inr full))⟩
  | pending admits isNew isPool room waits =>
    refine ⟨_, pending_made wf isPool (waits ▸ isNew), reason, rfl, admits, isNew, ?_, room, waits,
      rfl⟩
    rw [isPool]
    exact List.cons_ne_nil _ _
  | active admits isPool room allowed =>
    exact ⟨_, active_made wf isPool allowed, reason, rfl, allowed⟩

/-! #### Dequeue, promotion, cancellation -/

theorem dequeued_made (wf : Wf 0 queue) {isActive : Bool} {owed' : Duties limits}
    (listed : node ∈ queue.pdevList isActive) (isCmd : queue.cmd node = some cmd)
    (same : ∀ account : Account limits, account.owing owed' = account.owing owed) :
    (Change.dequeued isActive cmd).Made owed queue owed'
      ((queue.removed isActive node cmd.vdev).release node) := by
  have removed := wf.removed listed isCmd
  have blocking : queue.isBlocking node = cmd.isBlocking := by simp [isBlocking, isCmd]
  have count : ∀ list kind, ((queue.removed isActive node cmd.vdev).release node).count list kind +
      (if list = isActive ∧ kind cmd = true then 1 else 0) = queue.count list kind := by
    intro list kind
    rw [release_count removed, removed_count, count_take listed isCmd]
  refine ⟨removed.release, ?_, ?_, ?_, fun list kind => (Nat.le_add_right _ _).trans
    (count list kind).le, fun account => ?_⟩
  · cases isActive <;> rfl
  · cases isActive with
    | false => rfl
    | true =>
      show (if queue.isBlocking node = true then false else queue.blockingCmdActive) = _
      rw [blocking]
      rfl
  · cases isActive <;> rfl
  · unfold Account.charged
    rw [same account, ← count]
    show _ + (if isActive = account.list ∧ _ then 1 else 0) = _ + 0
    simp only [@eq_comm Bool isActive]
    omega

theorem moved_made (wf : Wf 0 queue) {owed' : Duties limits} (moved : queue.Moved node cmd after)
    (same : ∀ account : Account limits, account.owing owed' = account.owing owed) :
    (Change.moved cmd).Made owed queue owed' after := by
  obtain ⟨remarks, pending, isCmd, idle⟩ := moved
  rename_i inUse
  have outside : ∀ node ∈ queue.pendingList, node ∉ queue.cmdPoolList :=
    fun other member pooled => wf.pool_not_listed pooled false member
  have isCmd' : (queue.remarked inUse).cmd node = some cmd := isCmd
  have pending' : node ∈ (queue.remarked inUse).pendingList := pending
  have count : ∀ list kind, ((queue.remarked inUse).promoted node cmd).count list kind +
      (if list = false ∧ kind cmd = true then 1 else 0) =
        queue.count list kind + if list = true ∧ kind cmd = true then 1 else 0 :=
    fun list kind => count_promoted pending' isCmd' kind list
  refine ⟨(wf.remarked remarks outside).promoted pending isCmd', ?_, ?_, ?_,
    fun list kind => (Nat.le_add_right _ _).trans (count list kind).le, fun account => ?_⟩
  · exact promoted_vdevActiveCmdBitmap ..
  · exact promoted_blockingCmdActive ..
  · exact promoted_blockingCmdWaiting ..
  · have count := count account.list account.kind
    unfold Account.charged
    rw [same account]
    show _ + (if account.list = false ∧ _ then 1 else 0) =
      _ + (if account.list = true ∧ _ then 1 else 0)
    omega

theorem cancelled_made (wf : Wf 0 queue) {isActive : Bool}
    (cancels : queue.Cancels isActive cmd after) :
    Change.still.Made owed queue (Duty.ofCancelled isActive cmd ::ₘ owed) after := by
  obtain ⟨remarks, listed, isCmd⟩ := cancels
  rename_i inUse node
  have marked : Wf 0 (queue.remarked inUse) :=
    wf.remarked remarks fun _ member => absurd member List.not_mem_nil
  have isCmd' : (queue.remarked inUse).cmd node = some cmd := isCmd
  have taken := marked.take listed isCmd'
  have listed' : node ∈ (queue.remarked inUse).pdevList isActive := listed
  have count : ∀ list kind,
      (((queue.remarked inUse).take isActive node cmd.vdev).release node).count list kind +
        (if list = isActive ∧ kind cmd = true then 1 else 0) = queue.count list kind := by
    intro list kind
    rw [release_count taken]
    exact count_take listed' isCmd' kind list
  refine ⟨taken.release, rfl, rfl, rfl, fun list kind => (Nat.le_add_right _ _).trans
    (count list kind).le, fun account => ?_⟩
  unfold Account.charged
  rw [account.owing_cons, account.cancelled, ← count]
  show _ + 0 = _ + 0
  have sameIf : (if (isActive == account.list && account.kind cmd) = true then 1 else 0) =
      if account.list = isActive ∧ account.kind cmd = true then 1 else 0 := by
    by_cases same : account.list = isActive
    · simp [same]
    · simp [same, Ne.symm same]
  omega

theorem settled_made (wf : Wf 0 queue) {isActive : Bool}
    (owes : Duty.ofCancelled isActive cmd ∈ owed) :
    (Change.settled isActive cmd).Made owed queue (owed.erase (.ofCancelled isActive cmd))
      (queue.cancelSettle cmd isActive) := by
  have sameCount : ∀ list kind, (queue.cancelSettle cmd isActive).count list kind =
      queue.count list kind := by
    intro list kind
    refine count_congr kind (congrFun (cancelSettle_pdevList ..) _) fun node _ => ?_
    rw [cancelSettle_cmd]
  refine ⟨wf_cancelSettle queue cmd isActive wf, ?_, ?_, ?_,
    fun list kind => (sameCount list kind).le, fun account => ?_⟩
  · unfold cancelSettle
    cases isActive with
    | true => rfl
    | false =>
      rw [if_neg Bool.false_ne_true]
      split <;> rfl
  · unfold cancelSettle
    cases isActive with
    | true => rfl
    | false =>
      rw [if_neg Bool.false_ne_true]
      split <;> rfl
  · unfold cancelSettle
    cases isActive with
    | true => rfl
    | false =>
      rw [if_neg Bool.false_ne_true]
      show _ = if cmd.isBlocking = true then queue.blockingCmdWaiting - 1
        else queue.blockingCmdWaiting
      split <;> rfl
  · unfold Account.charged
    rw [sameCount, ← account.owing_erase owes, account.cancelled]
    show _ + (if isActive = account.list ∧ _ then 1 else 0) = _ + 0
    simp only [Bool.and_eq_true, beq_iff_eq]
    omega

/-- A change, and then nothing more. -/
theorem Change.Made.then_still {change : Change limits} {middle : Queue limits}
    {owed₁ owed₂ : Duties limits} (made : change.Made owed queue owed₁ middle)
    (still : Change.still.Made owed₁ middle owed₂ after) : change.Made owed queue owed₂ after where
  wf := still.wf
  bitmap := still.bitmap.trans made.bitmap
  blockingActive := still.blockingActive.trans made.blockingActive
  waiting := still.waiting.trans made.waiting
  counts := fun list kind => (still.counts list kind).trans (made.counts list kind)
  charged := fun account => by
    have first := made.charged account
    have second : _ + 0 = _ + 0 := still.charged account
    omega

/-- **Every effect makes one change.** -/
theorem change_of_effect (wf : Wf 0 queue) {op : SerOp limits} {owed' : Duties limits}
    (effect : Effect op owed queue owed' after) : ∃ change : Change limits,
      change.Made owed queue owed' after ∧ change.Fits op owed queue := by
  have outside : ∀ node ∈ ([] : List NodeId), node ∉ queue.cmdPoolList :=
    fun _ member => absurd member List.not_mem_nil
  have pendingOutside : ∀ node ∈ queue.pendingList, node ∉ queue.cmdPoolList :=
    fun node member pooled => wf.pool_not_listed pooled false member
  cases effect with
  | remarked remarks => exact ⟨.still, remarked_made wf remarks outside fun _ => rfl, trivial⟩
  | activated => exact ⟨.still, activated_made wf _, trivial⟩
  | enqueued isEnqueued => exact enqueued_made wf isEnqueued
  | dequeuedActive listed isCmd =>
    exact ⟨_, dequeued_made wf listed isCmd fun account =>
      account.owing_cons_other (Duty.ofRemoved_not_account _ _), _, rfl, _, listed, isCmd, nofun⟩
  | dequeuedPending resolved found listed isCmd =>
    exact ⟨_, dequeued_made wf listed isCmd fun _ => rfl, _, rfl, _, listed, isCmd,
      fun _ => ⟨_, resolved, found⟩⟩
  | vdevIdle owes noneWaits idle =>
    exact ⟨.still, remarked_made wf (.refl queue []) outside fun account =>
      account.owing_erase_other owes id, trivial⟩
  | vdevMoved owes noneWaits first unmarked onVdev moved sameMarks =>
    subst onVdev
    have made := moved_made wf moved fun account => account.owing_erase_other owes id
    obtain ⟨remarks, pending, isCmd, idle⟩ := moved
    exact ⟨_, made, idle, _, pending, isCmd, .inl ⟨rfl, noneWaits, first, unmarked⟩⟩
  | pdevIdle walks owes noAccount remarks idle =>
    exact ⟨.still, remarked_made wf remarks pendingOutside fun account =>
      account.owing_erase_other owes noAccount, trivial⟩
  | pdevMoved walks owes noAccount reached moved =>
    have isWalk : ¬(Duty.walk : Duty limits).IsAccount := id
    have made := moved_made wf moved fun account => (account.owing_cons_other isWalk).trans
      (account.owing_erase_other owes noAccount)
    obtain ⟨remarks, pending, isCmd, idle⟩ := moved
    exact ⟨_, made, idle, _, pending, isCmd, .inr ⟨walks, reached⟩⟩
  | stopped owes active =>
    exact ⟨.still, remarked_made wf (.refl queue []) outside fun account =>
      account.owing_erase_other owes id, trivial⟩
  | cancelled cancels => exact ⟨.still, cancelled_made wf cancels, trivial⟩
  | settled owes remarks =>
    refine ⟨_, (settled_made wf owes).then_still (remarked_made (wf_cancelSettle _ _ _ wf) remarks
      (fun _ member => absurd member List.not_mem_nil) fun _ => rfl), ⟨_, _, rfl⟩, owes⟩
  | settledCancelled owes cancels =>
    exact ⟨_, (settled_made wf owes).then_still (cancelled_made (wf_cancelSettle _ _ _ wf) cancels),
      ⟨_, _, rfl⟩, owes⟩

end Made

/-! ### The bits are exact in every run -/

/-- The queue invariant, and every vdev's bit shows what it should. -/
structure Base (owed : Duties limits) (queue : Queue limits) : Prop where
  wf : Wf 0 queue
  bitmap : ∀ vdev, (queue.vdevActiveCmdBitmap vdev).toNat = (Account.ofVdev vdev).charged owed queue

theorem base_init (limits : Limits) : Base 0 (Queue.init limits) :=
  ⟨wf_init limits, fun _ => rfl⟩

/-- The commands of a list belong to one vdev each. -/
theorem length_eq_sum {queue : Queue limits} {list : List NodeId}
    (filled : ∀ node ∈ list, ∃ cmd, queue.cmd node = some cmd) :
    list.length = ∑ vdev, (list.filter (queue.onVdev vdev)).length := by
  induction list with
  | nil => simp
  | cons node rest ih =>
    obtain ⟨cmd, isCmd⟩ := filled node List.mem_cons_self
    have isOn : ∀ vdev, queue.onVdev vdev node = decide (cmd.vdev = vdev) := by
      intro vdev
      simp [onVdev, isCmd]
    have split : ∀ vdev, ((node :: rest).filter (queue.onVdev vdev)).length =
        (rest.filter (queue.onVdev vdev)).length + if cmd.vdev = vdev then 1 else 0 := by
      intro vdev
      rw [List.filter_cons, isOn]
      by_cases same : cmd.vdev = vdev <;> simp [same]
    simp only [split, Finset.sum_add_distrib, Finset.sum_ite_eq, Finset.mem_univ, if_true]
    rw [← ih fun other member => filled other (List.mem_cons_of_mem _ member)]
    rfl

section Base

variable {owed : Duties limits} {queue after : Queue limits}

theorem Base.vdevList_length (base : Base owed queue) (vdev : limits.Vdev) :
    (queue.vdevList true vdev).length = queue.count true (Account.ofVdev vdev).kind := by
  rw [base.wf.vdevLists, ← List.countP_eq_length_filter]
  rfl

/-- **A vdev has at most one active command.** -/
theorem Base.vdevList_length_le (base : Base owed queue) (vdev : limits.Vdev) :
    (queue.vdevList true vdev).length ≤ (queue.vdevActiveCmdBitmap vdev).toNat := by
  rw [base.bitmap, base.vdevList_length]
  exact Nat.le_add_right _ _

/-- **There is always room in the active lists** for a command of a vdev that is not active. -/
theorem Base.roomy (base : Base owed queue) : queue.Roomy := by
  intro cmd idle full
  have noneActive : (queue.vdevList true cmd.vdev).length = 0 := by
    have atMost := base.vdevList_length_le cmd.vdev
    rw [idle] at atMost
    exact Nat.le_zero.mp atMost
  rcases full with vdevFull | pdevFull
  · rw [noneActive] at vdevFull
    exact absurd vdevFull Nat.zero_ne_one
  · have isSum := length_eq_sum (base.wf.filled true)
    have fewer : ∑ vdev, ((queue.pdevList true).filter (queue.onVdev vdev)).length <
        ∑ _vdev : limits.Vdev, 1 := by
      refine Finset.sum_lt_sum (fun vdev _ => ?_) ⟨cmd.vdev, Finset.mem_univ _, ?_⟩
      · rw [← base.wf.vdevLists]
        exact (base.vdevList_length_le vdev).trans (Bool.toNat_le _)
      · rw [← base.wf.vdevLists, noneActive]
        exact Nat.zero_lt_one
    rw [← isSum, ← Finset.card_eq_sum_ones, Finset.card_univ, Fintype.card_fin] at fewer
    exact absurd pdevFull (Nat.ne_of_lt fewer)

/-- A command on the active list: its vdev's bit is set. -/
theorem Base.bit_of_active (base : Base owed queue) {node : NodeId} {cmd : Command limits}
    (listed : node ∈ queue.activeList) (isCmd : queue.cmd node = some cmd) :
    queue.vdevActiveCmdBitmap cmd.vdev = true := by
  have member : node ∈ queue.vdevList true cmd.vdev :=
    base.wf.mem_vdevList.mpr ⟨listed, cmd, isCmd, rfl⟩
  have positive := List.length_pos_of_mem member
  have atMost := base.vdevList_length_le cmd.vdev
  cases bit : queue.vdevActiveCmdBitmap cmd.vdev with
  | true => rfl
  | false =>
    rw [bit] at atMost
    exact absurd (positive.trans_le atMost) (Nat.lt_irrefl 0)

/-- While the account of an active command is open, its vdev's bit is set. -/
theorem Base.bit_of_owed (base : Base owed queue) {vdev : limits.Vdev} {blocking : Bool}
    (owes : Duty.settleActive vdev blocking ∈ owed) : queue.vdevActiveCmdBitmap vdev = true := by
  have positive : 0 < (Account.ofVdev vdev).owing owed :=
    Multiset.countP_pos.mpr ⟨_, owes, decide_eq_true rfl⟩
  have exact := base.bitmap vdev
  unfold Account.charged at exact
  cases bit : queue.vdevActiveCmdBitmap vdev with
  | true => rfl
  | false =>
    rw [bit] at exact
    simp only [Bool.toNat_false] at exact
    omega

/-- No bit is set when no vdev is active. -/
theorem idle_of_not_any {queue : Queue limits} (noneActive : queue.anyVdevCmdActive = false)
    (vdev : limits.Vdev) : queue.vdevActiveCmdBitmap vdev = false := by
  refine eq_false_of_ne_true fun active => ?_
  exact absurd ⟨vdev, active⟩ (of_decide_eq_false noneActive)

/-- A command that becomes active at once is of a vdev that is not active. -/
theorem idle_of_activeQueue {cmd : Command limits} (allowed : queue.activeQueue cmd = true) :
    queue.vdevActiveCmdBitmap cmd.vdev = false := by
  have admission := ((activeQueue_iff queue cmd).mp allowed).2
  split at admission
  · exact idle_of_not_any admission cmd.vdev
  · exact admission.2.2

theorem Base.change (base : Base owed queue) {op : SerOp limits} {owed' : Duties limits}
    {change : Change limits} (made : change.Made owed queue owed' after)
    (fits : change.Fits op owed queue) : Base owed' after := by
  refine ⟨made.wf, fun vdev => ?_⟩
  rw [made.bitmap]
  have charged := made.charged (Account.ofVdev vdev)
  have before := base.bitmap vdev
  have set : ∀ cmd : Command limits, queue.vdevActiveCmdBitmap cmd.vdev = false →
      (Account.ofVdev vdev).charged owed' after =
        (Account.ofVdev vdev).charged owed queue + (if cmd.vdev = vdev then 1 else 0) →
      (Function.update queue.vdevActiveCmdBitmap cmd.vdev true vdev).toNat =
        (Account.ofVdev vdev).charged owed' after := by
    intro cmd idle charged
    rw [charged, ← before]
    by_cases same : cmd.vdev = vdev
    · subst same
      rw [Function.update_self, idle, if_pos rfl]
      rfl
    · rw [Function.update_of_ne (Ne.symm same), if_neg same, Nat.add_zero]
  have clear : ∀ cmd : Command limits, queue.vdevActiveCmdBitmap cmd.vdev = true →
      (Account.ofVdev vdev).charged owed' after + (if cmd.vdev = vdev then 1 else 0) =
        (Account.ofVdev vdev).charged owed queue →
      (Function.update queue.vdevActiveCmdBitmap cmd.vdev false vdev).toNat =
        (Account.ofVdev vdev).charged owed' after := by
    intro cmd busy charged
    rw [← before] at charged
    by_cases same : cmd.vdev = vdev
    · subst same
      rw [busy, if_pos rfl] at charged
      rw [Function.update_self]
      exact (Nat.succ.inj charged).symm
    · rw [if_neg same, Nat.add_zero] at charged
      rw [Function.update_of_ne (Ne.symm same), charged]
  cases change with
  | still => exact before.trans charged.symm
  | counted => exact before.trans charged.symm
  | pending cmd counted => exact before.trans charged.symm
  | active cmd =>
    obtain ⟨reason, -, allowed⟩ := fits
    refine set cmd (idle_of_activeQueue allowed) ?_
    refine charged.trans (congrArg _ ?_)
    simp [Change.gain, Account.ofVdev]
  | moved cmd =>
    refine set cmd fits.1 ?_
    refine charged.trans (congrArg _ ?_)
    simp [Change.gain, Account.ofVdev]
  | dequeued isActive cmd =>
    cases isActive with
    | false => exact before.trans charged.symm
    | true =>
      obtain ⟨-, -, node, listed, isCmd, -⟩ := fits
      refine clear cmd (base.bit_of_active listed isCmd) (Eq.trans (congrArg _ ?_) charged)
      simp [Change.loss, Account.ofVdev]
  | settled isActive cmd =>
    cases isActive with
    | false => exact before.trans charged.symm
    | true =>
      refine clear cmd (base.bit_of_owed fits.2) (Eq.trans (congrArg _ ?_) charged)
      simp [Change.loss, Account.ofVdev]

/-- Where no bit is set, no command is active, and none that was cancelled is accounted for. -/
theorem Base.idle (base : Base owed queue) (noneActive : queue.anyVdevCmdActive = false) :
    queue.activeList = [] ∧ (Account.blockingActive limits).charged owed queue = 0 := by
  have isEmpty : queue.activeList = [] := by
    refine List.eq_nil_iff_forall_not_mem.mpr fun node listed => ?_
    obtain ⟨cmd, isCmd⟩ := base.wf.filled true node listed
    have busy := base.bit_of_active listed isCmd
    rw [idle_of_not_any noneActive] at busy
    exact Bool.false_ne_true busy
  refine ⟨isEmpty, ?_⟩
  have noneListed : queue.count true (Account.blockingActive limits).kind = 0 := by
    unfold count
    rw [show queue.pdevList true = [] from isEmpty]
    rfl
  have noneOwed : (Account.blockingActive limits).owing owed = 0 := by
    refine Multiset.countP_eq_zero.mpr fun duty owes stands => ?_
    cases duty with
    | settleActive vdev blocking =>
      have busy := base.bit_of_owed owes
      rw [idle_of_not_any noneActive] at busy
      exact Bool.false_ne_true busy
    | _ => exact Bool.false_ne_true stands
  show queue.count true _ + _ = 0
  rw [noneListed, noneOwed]

/-- The flag shows what it should. -/
def FlagExact (owed : Duties limits) (queue : Queue limits) : Prop :=
  queue.blockingCmdActive.toNat = (Account.blockingActive limits).charged owed queue

/-- **The flag stays exact**, unless a blocking command is moved while another is active. -/
theorem Base.flag_change (base : Base owed queue) (exact : FlagExact owed queue) {op : SerOp limits}
    {owed' : Duties limits} {change : Change limits} (made : change.Made owed queue owed' after)
    (fits : change.Fits op owed queue)
    (alone : ∀ cmd, change = .moved cmd → cmd.isBlocking = true →
      queue.blockingCmdActive = false) : FlagExact owed' after := by
  have charged := made.charged (Account.blockingActive limits)
  unfold FlagExact at exact ⊢
  rw [made.blockingActive]
  have set : ∀ cmd : Command limits,
      (cmd.isBlocking = true → queue.blockingCmdActive = false) →
      (Account.blockingActive limits).charged owed' after =
        (Account.blockingActive limits).charged owed queue +
        (if cmd.isBlocking = true then 1 else 0) →
      (queue.blockingCmdActive || cmd.isBlocking).toNat =
        (Account.blockingActive limits).charged owed' after := by
    intro cmd alone charged
    rw [charged, ← exact]
    by_cases blocking : cmd.isBlocking = true
    · rw [alone blocking, blocking]
      rfl
    · rw [if_neg blocking, eq_false_of_ne_true blocking, Bool.or_false, Nat.add_zero]
  have clear : ∀ cmd : Command limits, (Account.blockingActive limits).charged owed' after +
        (if cmd.isBlocking = true then 1 else 0) =
          (Account.blockingActive limits).charged owed queue →
      (if cmd.isBlocking = true then false else queue.blockingCmdActive).toNat =
        (Account.blockingActive limits).charged owed' after := by
    intro cmd charged
    rw [← exact] at charged
    have atMost := queue.blockingCmdActive.toNat_le
    by_cases blocking : cmd.isBlocking = true
    · rw [if_pos blocking] at charged ⊢
      simp only [Bool.toNat_false]
      omega
    · rw [if_neg blocking] at charged ⊢
      exact charged.symm
  cases change with
  | still => exact exact.trans charged.symm
  | counted => exact exact.trans charged.symm
  | pending cmd counted => exact exact.trans charged.symm
  | active cmd =>
    obtain ⟨reason, -, allowed⟩ := fits
    refine set cmd (fun blocking => ?_) ?_
    · have admission := ((activeQueue_iff queue cmd).mp allowed).2
      rw [if_pos blocking] at admission
      have nothing := (base.idle admission).2
      rw [← exact] at nothing
      exact Bool.toNat_eq_zero.mp nothing
    · refine charged.trans (congrArg _ ?_)
      simp [Change.gain, Account.blockingActive]
  | moved cmd =>
    refine set cmd (alone cmd rfl) ?_
    refine charged.trans (congrArg _ ?_)
    simp [Change.gain, Account.blockingActive]
  | dequeued isActive cmd =>
    cases isActive with
    | false => exact exact.trans charged.symm
    | true =>
      refine clear cmd (Eq.trans (congrArg _ ?_) charged)
      simp [Change.loss, Account.blockingActive]
  | settled isActive cmd =>
    cases isActive with
    | false => exact exact.trans charged.symm
    | true =>
      refine clear cmd (Eq.trans (congrArg _ ?_) charged)
      simp [Change.loss, Account.blockingActive]

end Base

/-! ### Invariants of runs -/

/-- **An invariant that every effect keeps holds in every run** whose operations are made in states
that fit them. -/
theorem duties_valid {Tid : Type} [DecidableEq Tid] {fit : SerOp limits → Queue limits → Prop}
    {inv : Duties limits → Queue limits → Prop} (init : inv 0 (Queue.init limits))
    (base : ∀ {owed queue}, inv owed queue → Base owed queue)
    (effect : ∀ {op owed queue owed' after}, inv owed queue → fit op queue →
      Effect op owed queue owed' after → inv owed' after) :
    (duties limits).Valid ((system Tid limits).guarded fit) inv Stop.Owes where
  init := fun {queue} isInit => by
    obtain rfl : queue = Queue.init limits := isInit
    exact init
  settled := fun returns _ => absurd returns id
  start := fun {total queue tid program after} holds started => by
    obtain ⟨rfl, fuel, call, rfl⟩ := started
    exact ⟨holds, settles_program fuel call⟩
  call := fun {own rest queue op res after} holds entitled made => by
    obtain ⟨⟨outcome, ran⟩, fits⟩ := made
    have owes := owes_of_pre entitled
    have known := base holds
    show inv (Duties.exchange own op.settles (op.leaves res) + rest) after
    rw [Duties.exchange_add rest owes]
    exact effect holds fits (effect_of_run known.wf known.roomy
      (fun duty settles => Multiset.mem_add.mpr (.inl (owes duty settles))) ran)
  env := fun _ moved => absurd moved id

/-- **The bits are exact in every run.** -/
theorem base_valid (Tid : Type) [DecidableEq Tid] (fit : SerOp limits → Queue limits → Prop) :
    (duties limits).Valid ((system Tid limits).guarded fit) Base Stop.Owes :=
  duties_valid (base_init limits) id fun base _ effect => by
    obtain ⟨change, made, fits⟩ := change_of_effect base.wf effect
    exact base.change made fits

end Qsdk.Serialization
