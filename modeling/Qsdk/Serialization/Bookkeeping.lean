/-
**Bookkeeping: the counters match the lists.**

Every node is in one list, and the lists of the vdevs are those of the pdev, in every run
(`Listed`). The counters match the lists (`Counted`) only where the admission of a blocking command
and its counting go together (`countingFit`), and no cancellation is between its two sections
(`bookkept_run`): an admission counts the command before it is known whether it is rejected, it does
not count a blocking command that waits only for its own vdev, and the removal of a pending command
does not take it off the count.

A cancellation releases the lock for the callbacks of each command that it removes, and goes on from
the node before it. Meanwhile that node may have left the list: then the cancellation goes on in
another list, and takes what it finds there off the count of its own. What it does there is not
described: here a cancellation stays in its list (`OnCourse`).
-/

import Qsdk.Serialization.Exclusion

namespace Qsdk.Serialization

open Queue

variable {limits : Limits}

namespace Queue

/-- Every node is in exactly one of the pool and the two lists, and a vdev's list holds the nodes of
the pdev's list with a command of the vdev. -/
structure Listed (queue : Queue limits) : Prop where
  nodes : ∀ node, queue.cmdPoolList.count node + queue.activeList.count node +
    queue.pendingList.count node = if node < limits.maxVdevs + limits.maxPendingCmds then 1 else 0
  vdevLists : ∀ isActive vdev node, node ∈ queue.vdevList isActive vdev ↔
    node ∈ queue.pdevList isActive ∧ queue.onVdev vdev node = true
  filled : ∀ isActive, ∀ node ∈ queue.pdevList isActive, ∃ vdev, queue.onVdev vdev node = true

/-- The counters are those of the commands in the lists. -/
structure Counted (queue : Queue limits) : Prop where
  waiting : queue.blockingCmdWaiting.toNat = queue.pendingList.countP queue.isBlocking
  active : queue.blockingCmdActive = true ↔ ∃ node ∈ queue.activeList, queue.isBlocking node = true
  bitmap : ∀ vdev, queue.vdevActiveCmdBitmap vdev = true ↔
    ∃ node ∈ queue.activeList, queue.onVdev vdev node = true

/-- An admitted command is rejected. -/
def Rejects (queue : Queue limits) (cmd : Command limits) : Prop :=
  queue.isCmdPresentQueue cmd (queue.activeQueue cmd) = true ∨ queue.cmdPoolList = [] ∨
    queue.Full cmd (queue.activeQueue cmd)

instance (queue : Queue limits) (cmd : Command limits) : Decidable (queue.Rejects cmd) :=
  inferInstanceAs (Decidable (_ ∨ _ ∨ _))

/-- A blocking command is counted exactly when it becomes pending. -/
def AdmissionFits (queue : Queue limits) (cmd : Command limits) : Prop :=
  cmd.isBlocking = true →
    if queue.anyVdevCmdActive then ¬queue.Rejects cmd ∧ queue.blockingCmdWaiting ≠ 0xFFFF
    else queue.vdevList false cmd.vdev = [] ∨ queue.Rejects cmd

instance (queue : Queue limits) (cmd : Command limits) : Decidable (queue.AdmissionFits cmd) := by
  unfold AdmissionFits
  infer_instance

/-- The command is not that of a pending blocking one. -/
def RemovalFits (queue : Queue limits) (cmd : Command limits) : Prop :=
  ∀ node ∈ queue.findCmd queue.pendingList cmd, queue.isBlocking node = false

instance (queue : Queue limits) (cmd : Command limits) : Decidable (queue.RemovalFits cmd) := by
  unfold RemovalFits
  infer_instance

/-- A cancellation that goes on finds itself in its list: the request is not for a single command,
steps are left and the list is not empty, and the node that it goes on from is still there. The
source does not look whether it is: `qdf_list_peek_next` follows the links of the node in the list
where it is now, and `qdf_list_remove_node` takes a node off that list and off the count of this
one. -/
def OnCourse (queue : Queue limits) (request : CancelRequest limits) (isActive : Bool)
    (loop : CancelLoop) : Prop :=
  (request.vdev.isNone = true ∧ request.pdev = false) ∨ loop.qsize = 0 ∨
    queue.pdevList isActive = [] ∨ ∀ node ∈ loop.pnode, node ∈ queue.pdevList isActive

instance (queue : Queue limits) (request : CancelRequest limits) (isActive : Bool)
    (loop : CancelLoop) : Decidable (queue.OnCourse request isActive loop) := by
  unfold OnCourse
  infer_instance

end Queue

/-- **The steps that keep the count of waiting commands**, and stay in their list. -/
def countingFit : SerOp limits → Queue limits → Prop
  | .enqueue cmd reason, queue => queue.Admits cmd reason → queue.AdmissionFits cmd
  | .dequeue ref false, queue => ∀ cmd ∈ ref.resolve queue, queue.RemovalFits cmd
  | .cancelResume ref isActive _ loop, queue =>
    ∀ request ∈ ref.resolve queue, queue.OnCourse request isActive loop
  | _, _ => True

instance : ∀ (op : SerOp limits) (queue : Queue limits), Decidable (countingFit op queue)
  | .enqueue cmd reason, queue =>
    inferInstanceAs (Decidable (queue.Admits cmd reason → queue.AdmissionFits cmd))
  | .dequeue ref false, queue =>
    inferInstanceAs (Decidable (∀ cmd ∈ ref.resolve queue, queue.RemovalFits cmd))
  | .dequeue _ true, _ => .isTrue trivial
  | .moveStart _ _, _ => .isTrue trivial
  | .moveResume, _ => .isTrue trivial
  | .notify _, _ => .isTrue trivial
  | .activated _, _ => .isTrue trivial
  | .readInUse _, _ => .isTrue trivial
  | .cancelStart _ _, _ => .isTrue trivial
  | .cancelResume ref isActive _ loop, queue => inferInstanceAs (Decidable
    (∀ request ∈ ref.resolve queue, queue.OnCourse request isActive loop))
  | .isCmdPresentInActiveQueue _, _ => .isTrue trivial

/-! ### Where a cancellation loses its list -/

section Strayed

variable {request : CancelRequest limits} {isActive timerFound : Bool} {queue : Queue limits}

/-- In its list a loop does not lose it: the lock is held until a command is removed. -/
theorem cancelLoop_ne_strayed (qsize : Nat) {nnode pnode : Option NodeId} {status : CmdStatus}
    (filled : ∀ node ∈ queue.pdevList isActive, ∃ cmd, queue.cmd node = some cmd)
    (listed : ∀ node ∈ nnode, node ∈ queue.pdevList isActive) :
    (cancelLoop request isActive timerFound qsize nnode pnode status queue).1 ≠ .strayed := by
  intro strayed
  induction qsize generalizing nnode pnode status queue with
  | zero => cases strayed
  | succ qsize ih =>
    rw [cancelLoop] at strayed
    by_cases empty : (queue.pdevList isActive).isEmpty = true
    · rw [if_pos empty] at strayed
      cases strayed
    rw [if_neg empty] at strayed
    cases next : nextNode (queue.pdevList isActive) nnode with
    | none =>
      cases nnode with
      | none => cases next
      | some node =>
        rw [nextNode, if_pos (listed node rfl)] at next
        cases next
    | some following =>
      rw [next] at strayed
      cases following with
      | none => cases strayed
      | some node =>
        have found := mem_of_nextNode next
        obtain ⟨cmd, isCmd⟩ := filled node found
        have here : ∀ other ∈ some node, other ∈ queue.pdevList isActive :=
          fun other same => Option.some.inj same ▸ found
        dsimp only at strayed
        rw [isCmd] at strayed
        dsimp only at strayed
        split_ifs at strayed
        · exact ih filled here strayed
        · refine ih ?_ ?_ strayed
          · exact filled
          · exact here

/-- **Where a cancellation loses its list**: exactly where it is not on its course. -/
theorem cancelResume_strayed_iff {hand : Multiset NodeId} (wf : Wf hand queue)
    {cmd : Command limits} {loop : CancelLoop} :
    (queue.cancelResume request isActive timerFound cmd loop).1 = .strayed ↔
      ¬queue.OnCourse request isActive loop := by
  have lists := congrFun (cancelSettle_pdevList queue cmd isActive) isActive
  have filled := (wf_cancelSettle queue cmd isActive wf).filled isActive
  constructor
  · rintro strayed (single | spent | empty | listed)
    · rw [cancelResume, if_pos (by simpa using single)] at strayed
      cases strayed
    all_goals
      rw [cancelResume] at strayed
      split at strayed
      · cases strayed
    · rw [spent] at strayed
      cases strayed
    · cases steps : loop.qsize with
      | zero =>
        rw [steps] at strayed
        cases strayed
      | succ qsize =>
        rw [steps, cancelLoop, if_pos (by rw [lists, empty]; rfl)] at strayed
        cases strayed
    · exact cancelLoop_ne_strayed _ filled (by rwa [lists]) strayed
  · intro offCourse
    simp only [OnCourse, not_or] at offCourse
    obtain ⟨wide, steps, nonempty, lost⟩ := offCourse
    obtain ⟨qsize, isSucc⟩ := Nat.exists_eq_succ_of_ne_zero steps
    cases isNode : loop.pnode with
    | none =>
      rw [isNode] at lost
      exact absurd (fun _ none => nomatch none) lost
    | some node =>
      rw [isNode] at lost
      have gone : node ∉ queue.pdevList isActive := fun listed => lost fun _ same =>
        Option.some.inj same ▸ listed
      rw [cancelResume, if_neg (by simpa using wide), isSucc, isNode, cancelLoop,
        if_neg (by simpa [lists] using nonempty), lists, nextNode, if_neg gone]

end Strayed

/-! ### The invariant -/

/-- All counters show what they should. -/
structure Exact (owed : Duties limits) (queue : Queue limits) : Prop where
  base : Base owed queue
  flag : FlagExact owed queue
  waiting : queue.blockingCmdWaiting.toNat = (Account.blockingWaiting limits).charged owed queue

section Exact

variable {owed : Duties limits} {queue after : Queue limits}

/-- A blocking command that is moved is pending, and nothing is active. -/
theorem Exact.moves_alone (inv : Exact owed queue) {op : SerOp limits} {cmd : Command limits}
    (fits : (Change.moved cmd).Fits op owed queue) (blocking : cmd.isBlocking = true) :
    queue.anyVdevCmdActive = false := by
  obtain ⟨-, node, pending, isCmd, walk⟩ := fits
  have isBlocking : queue.isBlocking node = true := by simp [Queue.isBlocking, isCmd, blocking]
  rcases walk with ⟨rfl, noneWaits, -, -⟩ | ⟨-, reached⟩
  · have waiting := inv.waiting
    rw [noneWaits] at waiting
    have noneListed : queue.count false (fun cmd => cmd.isBlocking) = 0 :=
      Nat.eq_zero_of_add_eq_zero_right waiting.symm
    exact absurd isBlocking (List.countP_eq_zero.mp noneListed node pending)
  · exact idle_of_walked reached isBlocking

/-- **One step.** -/
theorem Exact.effect (inv : Exact owed queue) {op : SerOp limits} (fit : countingFit op queue)
    {owed' : Duties limits} (effect : Effect op owed queue owed' after) : Exact owed' after := by
  obtain ⟨change, made, fits⟩ := change_of_effect inv.base.wf effect
  refine ⟨inv.base.change made fits, inv.base.flag_change inv.flag made fits ?_, ?_⟩
  · rintro cmd rfl blocking
    have nothing := (inv.base.idle (inv.moves_alone fits blocking)).2
    rw [← inv.flag] at nothing
    exact Bool.toNat_eq_zero.mp nothing
  have charged := made.charged (Account.blockingWaiting limits)
  have exact := inv.waiting
  rw [made.waiting]
  have down : ∀ cmd : Command limits, (Account.blockingWaiting limits).charged owed' after +
        (if cmd.isBlocking = true then 1 else 0) =
          (Account.blockingWaiting limits).charged owed queue →
      (if cmd.isBlocking = true then queue.blockingCmdWaiting - 1
        else queue.blockingCmdWaiting).toNat =
        (Account.blockingWaiting limits).charged owed' after := by
    intro cmd charged
    rw [← exact] at charged
    by_cases blocking : cmd.isBlocking = true
    · rw [if_pos blocking] at charged ⊢
      have one : (1 : BitVec 16).toNat = 1 := rfl
      rw [BitVec.toNat_sub_of_le (BitVec.le_def.mpr (by omega))]
      omega
    · rw [if_neg blocking] at charged ⊢
      exact charged.symm
  cases change with
  | still => exact exact.trans charged.symm
  | counted =>
    obtain ⟨cmd, reason, rfl, admits, counts, why⟩ := fits
    have admission := fit admits counts.1
    rw [if_pos counts.2] at admission
    exact absurd why admission.1
  | pending cmd counted =>
    obtain ⟨reason, rfl, admits, isNew, pool, room, waits, rfl⟩ := fits
    have accepted : ¬queue.Rejects cmd := by
      rintro (present | empty | full)
      · rw [isNew] at present
        exact Bool.false_ne_true present
      · exact pool empty
      · exact room full
    have charged : (Account.blockingWaiting limits).charged owed' after =
        queue.blockingCmdWaiting.toNat + if cmd.isBlocking = true then 1 else 0 := by
      rw [exact]
      refine charged.trans (congrArg _ ?_)
      simp [Change.gain, Account.blockingWaiting]
    rw [charged]
    by_cases blocking : cmd.isBlocking = true
    · have admission := fit admits blocking
      by_cases any : queue.anyVdevCmdActive = true
      · rw [if_pos any] at admission
        have isCounted : decide (queue.Counts cmd) = true := decide_eq_true ⟨blocking, any⟩
        rw [isCounted, if_pos blocking]
        show (queue.blockingCmdWaiting + 1).toNat = _
        have below : queue.blockingCmdWaiting.toNat ≠ 0xFFFF := fun top =>
          admission.2 (BitVec.eq_of_toNat_eq top)
        have bound := queue.blockingCmdWaiting.isLt
        have one : (1 : BitVec 16).toNat = 1 := rfl
        rw [BitVec.toNat_add]
        omega
      · rw [if_neg any] at admission
        have allowed : queue.activeQueue cmd = true := by
          refine (activeQueue_iff queue cmd).mpr ⟨admission.resolve_right accepted, ?_⟩
          rw [if_pos blocking]
          exact eq_false_of_ne_true any
        rw [allowed] at waits
        exact absurd waits.symm Bool.false_ne_true
    · have notCounted : decide (queue.Counts cmd) = false :=
        decide_eq_false fun counts => blocking counts.1
      rw [notCounted, if_neg blocking]
      rfl
  | active cmd => exact exact.trans charged.symm
  | dequeued isActive cmd =>
    cases isActive with
    | true => exact exact.trans charged.symm
    | false =>
      obtain ⟨ref, rfl, node, listed, isCmd, isGiven⟩ := fits
      obtain ⟨given, resolved, found⟩ := isGiven rfl
      have notBlocking : queue.isBlocking node = false := fit given resolved node found
      have isNot : cmd.isBlocking = false := by simpa [isBlocking, isCmd] using notBlocking
      have nothing : (Change.dequeued false cmd).loss (Account.blockingWaiting limits).list
          (Account.blockingWaiting limits).kind = 0 := by
        simp [Change.loss, Account.blockingWaiting, isNot]
      rw [nothing] at charged
      exact exact.trans charged.symm
  | moved cmd =>
    refine down cmd (Eq.trans (congrArg _ ?_) charged)
    simp [Change.loss, Account.blockingWaiting]
  | settled isActive cmd =>
    cases isActive with
    | true => exact exact.trans charged.symm
    | false =>
      refine down cmd (Eq.trans (congrArg _ ?_) charged)
      simp [Change.loss, Account.blockingWaiting]

/-- Every node is in one list, and the lists agree. -/
theorem Base.listed (base : Base owed queue) : queue.Listed where
  nodes := fun node => by
    have counts := congrArg (Multiset.count node) base.wf.nodes
    simp only [zero_add, Multiset.count_add, Multiset.coe_count] at counts
    rw [Multiset.count_eq_of_nodup (Multiset.nodup_range _)] at counts
    simp only [Multiset.mem_range] at counts
    rw [← counts]
    omega
  vdevLists := fun isActive vdev node => by
    rw [base.wf.vdevLists, List.mem_filter]
  filled := fun isActive node listed => by
    obtain ⟨cmd, isCmd⟩ := base.wf.filled isActive node listed
    exact ⟨cmd.vdev, by simp [onVdev, isCmd]⟩

/-- A counter of 0 or 1 is set when there is something to count. -/
theorem toNat_iff_exists {bit : Bool} {list : List NodeId} {kind : NodeId → Bool}
    (exact : bit.toNat = list.countP kind) :
    bit = true ↔ ∃ node ∈ list, kind node = true := by
  rw [← List.countP_pos_iff, ← exact]
  cases bit <;> simp

/-- Where no account is open, the counters are those of the lists. -/
theorem Exact.counted (inv : Exact owed queue) (settled : owed.Settled) : queue.Counted where
  waiting := by
    have exact := inv.waiting
    unfold Account.charged at exact
    rw [Account.owing_settled _ settled] at exact
    exact exact
  active := by
    have exact := inv.flag
    unfold FlagExact Account.charged at exact
    rw [Account.owing_settled _ settled] at exact
    exact toNat_iff_exists exact
  bitmap := fun vdev => by
    have exact := inv.base.bitmap vdev
    unfold Account.charged at exact
    rw [Account.owing_settled _ settled] at exact
    exact toNat_iff_exists exact

end Exact

theorem exact_valid (Tid : Type) [DecidableEq Tid] (limits : Limits) :
    (duties limits).Valid ((system Tid limits).guarded countingFit) Exact Stop.Owes :=
  duties_valid ⟨base_init limits, rfl, rfl⟩ (fun inv => inv.base) fun inv fit effect =>
    inv.effect fit effect

/-- Where no thread is between the sections of a cancellation, no account is open. -/
theorem settled_of_elsewhere {Tid : Type} {running : Tid → Option (SerProg limits Reply)}
    {owed : Tid → Duties limits} {total : Duties limits} (isTotal : Total owed total)
    (owes : ∀ tid, (duties limits).Owes Stop.Owes (owed tid) (running tid))
    (elsewhere : ∀ tid, ¬Between (running tid)) : total.Settled := by
  refine isTotal.induction Duties.Settled (fun _ member => absurd member (Multiset.notMem_zero _))
    (fun one two first second duty member => ?_) fun tid => ?_
  · rcases Multiset.mem_add.mp member with member | member
    · exact first duty member
    · exact second duty member
  · exact settled_of_not_between (owes tid) (elsewhere tid)

/-- **Bookkeeping, in every run** that keeps the count of waiting commands: every node is in one
list and the lists agree; and at every point at which no cancellation is between its sections, the
counters are those of the lists. -/
theorem bookkept_run {Tid : Type} [DecidableEq Tid]
    {history : List (Queue limits × SerLabel Tid limits)} {machine : Machine Tid limits}
    (run : ((system Tid limits).guarded countingFit).Run history machine) :
    machine.state.Listed ∧
      ((∀ tid, ¬Between (machine.running tid)) → machine.state.Counted) := by
  obtain ⟨owed, total, isTotal, inv, owes⟩ := (exact_valid Tid limits).holds run
  exact ⟨inv.base.listed, fun elsewhere =>
    inv.counted (settled_of_elsewhere isTotal owes elsewhere)⟩

/-! ### Two runs -/

/-- A blocking command waits for another command. -/
def blockingWaits : Machine Bool threeVdevs :=
  let strategy := (succeeds Bool threeVdevs).guarded countingFit
  ((Machine.init Bool threeVdevs).calls strategy false
    (.enqueue (command 1 0 false) .request) 7).calls strategy false
      (.enqueue (command 2 1 true) .request) 7

theorem blockingWaits_reachable :
    ((system Bool threeVdevs).guarded countingFit).Reachable blockingWaits := by
  refine Machine.calls_reachable _ ?_ (by exact ⟨rfl, _, _, rfl⟩) (by decide +kernel) _ _
  refine Machine.calls_reachable _ ?_ (by exact ⟨rfl, _, _, rfl⟩) rfl _ _
  exact ⟨[], .init rfl⟩

/-- While the blocking command waits, the two pending commands of another vdev are cancelled. -/
def vdevCancelled : Machine Bool threeVdevs :=
  let strategy := (succeeds Bool threeVdevs).guarded countingFit
  ((blockingWaits.calls strategy false (.enqueue (command 3 2 false) .request) 7).calls strategy
    false (.enqueue (command 4 2 false) .request) 7).calls strategy false
      (.cancel ⟨none, false, some (2 : Fin 3), .nonscan, false⟩ false true) 9

theorem vdevCancelled_reachable :
    ((system Bool threeVdevs).guarded countingFit).Reachable vdevCancelled := by
  refine Machine.calls_reachable _ ?_ (by exact ⟨rfl, _, _, rfl⟩) (by decide +kernel) _ _
  refine Machine.calls_reachable _ ?_ (by exact ⟨rfl, _, _, rfl⟩) (by decide +kernel) _ _
  exact Machine.calls_reachable _ blockingWaits_reachable (by exact ⟨rfl, _, _, rfl⟩)
    (by decide +kernel) _ _

/-- The counters of a queue in which a blocking command waits, after the cancellation. -/
theorem bookkept_run_vdevCancelled : vdevCancelled.state.pendingList = [1] ∧
    vdevCancelled.state.blockingCmdWaiting = 1 ∧ vdevCancelled.state.Listed ∧
      vdevCancelled.state.Counted := by
  obtain ⟨history, run⟩ := vdevCancelled_reachable
  obtain ⟨listed, counted⟩ := bookkept_run run
  refine ⟨by decide +kernel, by decide +kernel, listed, counted fun tid => ?_⟩
  have free : vdevCancelled.running tid = none := by
    cases tid <;> decide +kernel
  rw [free]
  exact id

/-- The same blocking command is requested twice while another command is active. -/
def requestedTwice : Machine Bool threeVdevs :=
  let strategy := succeeds Bool threeVdevs
  (((Machine.init Bool threeVdevs).calls strategy false
    (.enqueue (command 1 0 false) .request) 7).calls strategy false
      (.enqueue (command 2 1 true) .request) 7).calls strategy false
        (.enqueue (command 2 1 true) .request) 7

theorem requestedTwice_reachable : (system Bool threeVdevs).Reachable requestedTwice := by
  refine Machine.calls_reachable _ ?_ (by exact ⟨rfl, _, _, rfl⟩) (by decide +kernel) _ _
  refine Machine.calls_reachable _ ?_ (by exact ⟨rfl, _, _, rfl⟩) (by decide +kernel) _ _
  refine Machine.calls_reachable _ ?_ (by exact ⟨rfl, _, _, rfl⟩) rfl _ _
  exact ⟨[], .init rfl⟩

/-- The rejected duplicate is counted as waiting, though no thread is running. -/
theorem not_counted_requestedTwice : ∃ machine : Machine Bool threeVdevs,
    (system Bool threeVdevs).Reachable machine ∧ machine.Quiescent ∧ ¬machine.state.Counted := by
  refine ⟨requestedTwice, requestedTwice_reachable, fun tid => ?_, fun counted => ?_⟩
  · cases tid <;> decide +kernel
  · have both : requestedTwice.state.blockingCmdWaiting.toNat = 2 ∧
        requestedTwice.state.pendingList.countP requestedTwice.state.isBlocking = 1 := by
      decide +kernel
    have waiting := counted.waiting
    rw [both.1, both.2] at waiting
    exact absurd waiting (by decide)

end Qsdk.Serialization
