/-
**Exclusion: one active command for each vdev, and a blocking command alone.**

The first half holds in every run (`oneActive_run`). The second does not: the first section of
`wlan_ser_move_non_scan_pending_to_active` does not look whether a blocking command has become
active since the removal of the command that it follows, and its walk over a vdev's list does not
look whether the command found is blocking. Where it would not move such a command (`exclusionFit`),
every run is exclusive (`exclusive_run`).
-/

import Qsdk.Serialization.Accounts
import Mathlib.Data.List.TakeWhile

namespace Qsdk.Serialization

open Queue

variable {limits : Limits}

namespace Queue

/-- Each vdev has at most one active command, and an active blocking command is the only one. -/
def Exclusive (queue : Queue limits) : Prop :=
  (∀ vdev, queue.count true (fun cmd => cmd.vdev = vdev) ≤ 1) ∧
    ∀ node ∈ queue.activeList, queue.isBlocking node = true → queue.activeList = [node]

/-- A pending command may join the active ones: a blocking one only when it is alone, any other one
only beside non-blocking ones. -/
def MayJoin (queue : Queue limits) (node : NodeId) : Prop :=
  if queue.isBlocking node then queue.activeList = [] ∧ queue.blockingCmdActive = false
  else ∀ other ∈ queue.activeList, queue.isBlocking other = false

instance (queue : Queue limits) (node : NodeId) : Decidable (queue.MayJoin node) := by
  unfold MayJoin
  infer_instance

/-- The first walk of a promotion comes to no command that may not join. -/
def FirstWalkFits (queue : Queue limits) (vdev : limits.Vdev) (blockingCmdRemoved : Bool) : Prop :=
  if queue.vdevQueueLookup blockingCmdRemoved then
    ∀ node ∈ (queue.vdevList false vdev).head?, queue.vdevActiveCmdBitmap vdev = false →
      (queue.cmdInUse node).markedForMovement = false → queue.MayJoin node
  else ∀ node ∈ queue.walked queue.pendingList, queue.vdevCmdActive node = false →
    queue.MayJoin node

instance (queue : Queue limits) (vdev : limits.Vdev) (blockingCmdRemoved : Bool) :
    Decidable (queue.FirstWalkFits vdev blockingCmdRemoved) := by
  unfold FirstWalkFits
  infer_instance

end Queue

/-- **The steps that keep a blocking command alone**: only the first walk of a promotion may go
wrong. -/
def exclusionFit : SerOp limits → Queue limits → Prop
  | .moveStart vdev blockingCmdRemoved, queue => queue.FirstWalkFits vdev blockingCmdRemoved
  | _, _ => True

instance : ∀ (op : SerOp limits) (queue : Queue limits), Decidable (exclusionFit op queue)
  | .moveStart _ _, _ => inferInstanceAs (Decidable (Queue.FirstWalkFits _ _ _))
  | .enqueue _ _, _ => .isTrue trivial
  | .dequeue _ _, _ => .isTrue trivial
  | .moveResume, _ => .isTrue trivial
  | .notify _, _ => .isTrue trivial
  | .activated _, _ => .isTrue trivial
  | .readInUse _, _ => .isTrue trivial
  | .cancelStart _ _, _ => .isTrue trivial
  | .cancelResume _ _ _ _, _ => .isTrue trivial
  | .isCmdPresentInActiveQueue _, _ => .isTrue trivial

/-! ### The first half, in every run -/

/-- **In every run each vdev has at most one active command.** -/
theorem oneActive_run {Tid : Type} [DecidableEq Tid]
    {history : List (Queue limits × SerLabel Tid limits)} {machine : Machine Tid limits}
    (run : (system Tid limits).Run history machine) (vdev : limits.Vdev) :
    machine.state.count true (fun cmd => cmd.vdev = vdev) ≤ 1 := by
  obtain ⟨owed, total, -, base, -⟩ :=
    (base_valid Tid fun _ _ => True).holds (run.guarded fun _ _ => trivial)
  have length := base.vdevList_length vdev
  have atMost := (base.vdevList_length_le vdev).trans (Bool.toNat_le _)
  rw [length] at atMost
  exact atMost

/-! ### Blocking commands alone -/

/-- The bits and the flag are exact, and an active blocking command is alone. -/
structure Alone (owed : Duties limits) (queue : Queue limits) : Prop where
  base : Base owed queue
  flag : FlagExact owed queue
  alone : 0 < queue.count true (fun cmd => cmd.isBlocking) → queue.activeList.length ≤ 1

section Alone

variable {owed : Duties limits} {queue after : Queue limits}

/-- All commands of a list are counted. -/
theorem count_all (wf : Wf 0 queue) (isActive : Bool) :
    queue.count isActive (fun _ => true) = (queue.pdevList isActive).length := by
  refine List.countP_eq_length.mpr fun node listed => ?_
  obtain ⟨cmd, isCmd⟩ := wf.filled isActive node listed
  simp [isCmd]

/-- Without the flag no blocking command is active. -/
theorem FlagExact.none_blocking (exact : FlagExact owed queue)
    (clear : queue.blockingCmdActive = false) :
    queue.count true (fun cmd => cmd.isBlocking) = 0 := by
  unfold FlagExact at exact
  rw [clear] at exact
  exact Nat.eq_zero_of_add_eq_zero_right exact.symm

theorem none_blocking_of_forall (unblocked : ∀ other ∈ queue.activeList,
    queue.isBlocking other = false) : queue.count true (fun cmd => cmd.isBlocking) = 0 := by
  refine List.countP_eq_zero.mpr fun other listed blocking => ?_
  have isNot : queue.isBlocking other = true := blocking
  rw [unblocked other listed] at isNot
  exact Bool.false_ne_true isNot

/-- The walk over the pdev's pending list comes to a blocking command only when no vdev is
active. -/
theorem idle_of_walked {list : List NodeId} {node : NodeId} (reached : node ∈ queue.walked list)
    (blocking : queue.isBlocking node = true) : queue.anyVdevCmdActive = false := by
  have passes := List.mem_takeWhile_imp reached
  simpa [blocking] using passes

/-- **The command that a promotion moves may join.** -/
theorem Alone.mayJoin (inv : Alone owed queue) {op : SerOp limits} (fit : exclusionFit op queue)
    {cmd : Command limits} {node : NodeId} (isCmd : queue.cmd node = some cmd)
    (idle : queue.vdevActiveCmdBitmap cmd.vdev = false)
    (walk : (op = .moveStart cmd.vdev false ∧ queue.blockingCmdWaiting = 0 ∧
        (queue.vdevList false cmd.vdev).head? = some node ∧
        (queue.cmdInUse node).markedForMovement = false) ∨
      (op.WalksPdev queue ∧ node ∈ queue.walked queue.pendingList)) : queue.MayJoin node := by
  have isIdle : queue.vdevCmdActive node = false := by
    simpa [vdevCmdActive, isCmd] using idle
  rcases walk with ⟨rfl, noneWaits, first, unmarked⟩ | ⟨walks, reached⟩
  · have lookup : queue.vdevQueueLookup false = true := by
      simp [vdevQueueLookup, noneWaits]
    have fits : queue.FirstWalkFits cmd.vdev false := fit
    unfold FirstWalkFits at fits
    rw [if_pos lookup] at fits
    exact fits node first idle unmarked
  · cases op with
    | moveStart vdev blocking =>
      have fits : queue.FirstWalkFits vdev blocking := fit
      have lookup : queue.vdevQueueLookup blocking = false := walks
      unfold FirstWalkFits at fits
      rw [if_neg (by rw [lookup]; exact Bool.false_ne_true)] at fits
      exact fits node reached isIdle
    | moveResume =>
      have clear : queue.blockingCmdActive = false := walks
      unfold MayJoin
      split
      · rename_i blocking
        exact ⟨(inv.base.idle (idle_of_walked reached blocking)).1, clear⟩
      · intro other listed
        have nothing := List.countP_eq_zero.mp (inv.flag.none_blocking clear) other listed
        exact eq_false_of_ne_true nothing
    | _ => exact absurd walks id

/-- **One step.** -/
theorem Alone.effect (inv : Alone owed queue) {op : SerOp limits} (fit : exclusionFit op queue)
    {owed' : Duties limits} (effect : Effect op owed queue owed' after) : Alone owed' after := by
  obtain ⟨change, made, fits⟩ := change_of_effect inv.base.wf effect
  have base' := inv.base.change made fits
  have blocked := made.counts true (fun cmd => cmd.isBlocking)
  have all := made.counts true (fun _ => true)
  rw [count_all inv.base.wf, count_all base'.wf] at all
  have joins : ∀ cmd, change = .moved cmd → (cmd.isBlocking = true →
      queue.activeList = [] ∧ queue.blockingCmdActive = false) ∧ (cmd.isBlocking = false →
        queue.count true (fun cmd => cmd.isBlocking) = 0) := by
    rintro cmd rfl
    obtain ⟨idle, node, pending, isCmd, walk⟩ := fits
    have mayJoin := inv.mayJoin fit isCmd idle walk
    have sameBlocking : queue.isBlocking node = cmd.isBlocking := by simp [isBlocking, isCmd]
    unfold MayJoin at mayJoin
    rw [sameBlocking] at mayJoin
    refine ⟨fun blocking => ?_, fun notBlocking => ?_⟩
    · rw [if_pos blocking] at mayJoin
      exact mayJoin
    · rw [if_neg (by rw [notBlocking]; exact Bool.false_ne_true)] at mayJoin
      exact none_blocking_of_forall mayJoin
  refine ⟨base', inv.base.flag_change inv.flag made fits fun cmd moved blocking =>
    ((joins cmd moved).1 blocking).2, fun positive => ?_⟩
  have alone := inv.alone
  -- only a command that becomes active makes the counts grow
  have still : change.gain true (fun cmd => cmd.isBlocking) = 0 →
      change.gain true (fun _ => true) = 0 → after.activeList.length ≤ 1 := by
    intro first second
    rw [first] at blocked
    rw [second] at all
    exact all.trans (alone (positive.trans_le blocked))
  have grows : ∀ cmd : Command limits, (cmd.isBlocking = true → queue.activeList = []) →
      (cmd.isBlocking = false → queue.count true (fun cmd => cmd.isBlocking) = 0) →
      change.gain true (fun cmd => cmd.isBlocking) = (if cmd.isBlocking = true then 1 else 0) →
      change.gain true (fun _ => true) = 1 → after.activeList.length ≤ 1 := by
    intro cmd whenBlocking whenNot first second
    by_cases blocking : cmd.isBlocking = true
    · have length : (queue.pdevList true).length = 0 :=
        List.length_eq_zero_iff.mpr (whenBlocking blocking)
      rw [second, length] at all
      exact all
    · rw [first, if_neg blocking, whenNot (eq_false_of_ne_true blocking)] at blocked
      exact absurd positive (Nat.not_lt.mpr blocked)
  cases change with
  | still => exact still rfl rfl
  | counted => exact still rfl rfl
  | pending cmd counted => exact still rfl rfl
  | dequeued isActive cmd => exact still rfl rfl
  | settled isActive cmd => exact still rfl rfl
  | active cmd =>
    obtain ⟨reason, -, allowed⟩ := fits
    have admission := ((activeQueue_iff queue cmd).mp allowed).2
    refine grows cmd (fun blocking => ?_) (fun notBlocking => ?_) ?_ ?_
    · rw [if_pos blocking] at admission
      exact (inv.base.idle admission).1
    · rw [if_neg (by rw [notBlocking]; exact Bool.false_ne_true)] at admission
      exact inv.flag.none_blocking admission.1
    · simp [Change.gain]
    · simp [Change.gain]
  | moved cmd =>
    refine grows cmd (fun blocking => ((joins cmd rfl).1 blocking).1) (joins cmd rfl).2 ?_ ?_
    · simp [Change.gain]
    · simp [Change.gain]

theorem Alone.exclusive (inv : Alone owed queue) : queue.Exclusive := by
  refine ⟨fun vdev => ?_, fun node listed blocking => ?_⟩
  · have atMost := (inv.base.vdevList_length_le vdev).trans (Bool.toNat_le _)
    rw [inv.base.vdevList_length vdev] at atMost
    exact atMost
  · have positive : 0 < queue.count true (fun cmd => cmd.isBlocking) :=
      List.countP_pos_iff.mpr ⟨node, listed, blocking⟩
    have atMost := inv.alone positive
    match isList : queue.activeList, listed, atMost with
    | [other], member, _ => rw [List.mem_singleton.mp member]

end Alone

theorem alone_valid (Tid : Type) [DecidableEq Tid] (limits : Limits) :
    (duties limits).Valid ((system Tid limits).guarded exclusionFit) Alone Stop.Owes :=
  duties_valid ⟨base_init limits, rfl, fun positive => absurd positive (Nat.lt_irrefl 0)⟩
    (fun inv => inv.base) fun inv fit effect => inv.effect fit effect

/-- **Exclusion, in every run** in which the first walk of a promotion moves only commands that may
join: each vdev has at most one active command, and an active blocking command is the only one. -/
theorem exclusive_run {Tid : Type} [DecidableEq Tid]
    {history : List (Queue limits × SerLabel Tid limits)} {machine : Machine Tid limits}
    (run : ((system Tid limits).guarded exclusionFit).Run history machine) :
    machine.state.Exclusive := by
  obtain ⟨owed, total, -, inv, -⟩ := (alone_valid Tid limits).holds run
  exact inv.exclusive

/-! ### Two runs -/

/-- A blocking command has to wait for the commands of two vdevs, and becomes active after them. -/
def blockingTurn : Machine Bool threeVdevs :=
  let strategy := (succeeds Bool threeVdevs).guarded exclusionFit
  let enqueued := (((Machine.init Bool threeVdevs).calls strategy false
    (.enqueue (command 1 0 false) .request) 7).calls strategy false
      (.enqueue (command 2 1 false) .request) 7).calls strategy false
        (.enqueue (command 3 2 true) .request) 7
  (enqueued.calls strategy false (.dequeue (command 1 0 false) true) 10).calls strategy false
    (.dequeue (command 2 1 false) true) 12

theorem blockingTurn_reachable :
    ((system Bool threeVdevs).guarded exclusionFit).Reachable blockingTurn := by
  refine Machine.calls_reachable _ ?_ (by exact ⟨rfl, _, _, rfl⟩) (by decide +kernel) _ _
  refine Machine.calls_reachable _ ?_ (by exact ⟨rfl, _, _, rfl⟩) (by decide +kernel) _ _
  refine Machine.calls_reachable _ ?_ (by exact ⟨rfl, _, _, rfl⟩) (by decide +kernel) _ _
  refine Machine.calls_reachable _ ?_ (by exact ⟨rfl, _, _, rfl⟩) (by decide +kernel) _ _
  refine Machine.calls_reachable _ ?_ (by exact ⟨rfl, _, _, rfl⟩) rfl _ _
  exact ⟨[], .init rfl⟩

/-- Exclusion on a run in which a blocking command is moved. -/
theorem exclusive_run_blockingTurn : blockingTurn.state.activeList = [2] ∧
    blockingTurn.state.isBlocking 2 = true ∧ blockingTurn.state.Exclusive := by
  obtain ⟨history, run⟩ := blockingTurn_reachable
  exact ⟨by decide +kernel, by decide +kernel, exclusive_run run⟩

/-- While a promotion has not begun its first walk, another one moves a blocking command. -/
def overtaken : Machine Bool threeVdevs :=
  let strategy := succeeds Bool threeVdevs
  let enqueued := (((((Machine.init Bool threeVdevs).calls strategy false
    (.enqueue (command 1 0 false) .request) 7).calls strategy false
      (.enqueue (command 2 1 false) .request) 7).calls strategy false
        (.enqueue (command 3 2 true) .request) 7).calls strategy false
          (.enqueue (command 4 1 false) .request) 7).calls strategy false
            (.enqueue (command 5 0 false) .request) 7
  ((enqueued.calls strategy false (.dequeue (command 1 0 false) true) 1).calls strategy true
    (.dequeue (command 2 1 false) true) 2).advances strategy false 1

theorem overtaken_reachable : (system Bool threeVdevs).Reachable overtaken := by
  refine Config.advances_reachable _ _ 1 ?_
  refine Machine.calls_reachable _ ?_ (by exact ⟨rfl, _, _, rfl⟩) (by decide +kernel) _ _
  refine Machine.calls_reachable _ ?_ (by exact ⟨rfl, _, _, rfl⟩) (by decide +kernel) _ _
  refine Machine.calls_reachable _ ?_ (by exact ⟨rfl, _, _, rfl⟩) (by decide +kernel) _ _
  refine Machine.calls_reachable _ ?_ (by exact ⟨rfl, _, _, rfl⟩) (by decide +kernel) _ _
  refine Machine.calls_reachable _ ?_ (by exact ⟨rfl, _, _, rfl⟩) (by decide +kernel) _ _
  refine Machine.calls_reachable _ ?_ (by exact ⟨rfl, _, _, rfl⟩) (by decide +kernel) _ _
  refine Machine.calls_reachable _ ?_ (by exact ⟨rfl, _, _, rfl⟩) rfl _ _
  exact ⟨[], .init rfl⟩

/-- A command is active beside a blocking one. -/
theorem not_exclusive_overtaken : ∃ machine : Machine Bool threeVdevs,
    (system Bool threeVdevs).Reachable machine ∧ ¬machine.state.Exclusive := by
  refine ⟨overtaken, overtaken_reachable, fun exclusive => ?_⟩
  have blocking : overtaken.state.isBlocking 2 = true := by decide +kernel
  have both : overtaken.state.activeList = [2, 4] := by decide +kernel
  have alone := exclusive.2 2 (by rw [both]; exact List.mem_cons_self) blocking
  rw [both] at alone
  exact absurd alone (by decide)

end Qsdk.Serialization
