/-
**Serialization: the calls, lock section by lock section.**

A section under `pdev_queue_lock` is one atomic operation, and so is a test of the bits of a node
outside the lock. Whether a timer is found or started, and what a callback returns, is open at every
call. A call from inside a callback is a call of another thread.

An activation that fails removes the command again, which promotes and activates further commands,
and so on; the programs carry a bound on how deep this goes (`fuel`), which is arbitrary. A program
that runs out of it hangs, and so does a cancellation whose position in the list is lost: the source
goes on in another list, which is not described. What needs it to stay in its list says so
(`OnCourse`).
-/

import Qsdk.Lib.Schedule
import Qsdk.Serialization.Basic
import Mathlib.Algebra.GroupWithZero.Nat

namespace Qsdk.Serialization

variable {limits : Limits}

/-! ### The operations -/

/-- A command that a caller gives, or the one that a node holds when the lock is taken. -/
inductive CmdRef (limits : Limits) where
  | given (cmd : Command limits)
  | ofNode (node : NodeId)

def CmdRef.resolve (queue : Queue limits) : CmdRef limits → Option (Command limits)
  | .given cmd => some cmd
  | .ofNode node => queue.cmd node

/-- A request that a caller gives, or the one for the command that a node holds. -/
inductive CancelRef (limits : Limits) where
  | given (request : Queue.CancelRequest limits)
  | ofNode (node : NodeId)

def CancelRef.resolve (queue : Queue limits) : CancelRef limits →
    Option (Queue.CancelRequest limits)
  | .given request => some request
  | .ofNode node => (queue.cmd node).map fun cmd =>
    ⟨some (cmd.cmdId, cmd.cmdType), false, none, cmd.cmdType, false⟩

/-- The atomic operations. -/
inductive SerOp (limits : Limits) where
  | enqueue (cmd : Command limits) (reason : QueueReason)
  | dequeue (cmd : CmdRef limits) (activeCmd : Bool)
  | moveStart (vdev : limits.Vdev) (blockingCmdRemoved : Bool)
  | moveResume
  /-- The timer is started and the activation callback is called. -/
  | notify (node : NodeId)
  | activated (node : NodeId)
  | readInUse (node : NodeId)
  | cancelStart (request : CancelRef limits) (isActive : Bool)
  | cancelResume (request : CancelRef limits) (isActive : Bool) (cmd : Command limits)
      (loop : Queue.CancelLoop)
  | isCmdPresentInActiveQueue (cmd : Command limits)

/-- What an operation answers. -/
abbrev SerOp.Res : SerOp limits → Type
  | .enqueue _ _ => SerStatus × Option NodeId
  | .dequeue _ _ => Queue.Dequeued limits
  | .moveStart _ _ => Bool × Option NodeId
  | .moveResume => Option NodeId
  | .notify _ => Bool
  | .activated _ => Unit
  | .readInUse _ => InUse
  | .cancelStart _ _ => Queue.Cancelled limits
  | .cancelResume _ _ _ _ => Queue.Cancelled limits
  | .isCmdPresentInActiveQueue _ => Bool

/-- An operation, given what a timer or a callback answers. -/
def SerOp.run (outcome : Bool) : (op : SerOp limits) → Queue limits → op.Res × Queue limits
  | .enqueue cmd reason, queue => queue.enqueueCmd cmd reason
  | .dequeue cmd activeCmd, queue =>
    match cmd.resolve queue with
    | none => (.notFound, queue)
    | some cmd => queue.dequeueCmd cmd activeCmd
  | .moveStart vdev blockingCmdRemoved, queue => queue.moveStart vdev blockingCmdRemoved
  | .moveResume, queue => queue.moveResume
  | .notify _, queue => (outcome, queue)
  | .activated node, queue => ((), queue.activated node)
  | .readInUse node, queue => (queue.cmdInUse node, queue)
  | .cancelStart request isActive, queue =>
    match request.resolve queue with
    | none => (.finished .notFound, queue)
    | some request => queue.cancelStart request isActive outcome
  | .cancelResume request isActive cmd loop, queue =>
    match request.resolve queue with
    | none => (.finished loop.status, queue.cancelSettle cmd isActive)
    | some request => queue.cancelResume request isActive outcome cmd loop
  | .isCmdPresentInActiveQueue cmd, queue => (queue.isCmdPresentQueue cmd true, queue)

/-! ### The programs -/

/-- Why a program does not return. -/
inductive Stop where
  | outOfFuel
  | strayed
  deriving DecidableEq

/-- A program of a thread. -/
abbrev SerProg (limits : Limits) (A : Type) := Prog (SerOp limits) SerOp.Res Stop A

/-- One operation, as a program. -/
abbrev perform (op : SerOp limits) : SerProg limits op.Res := Prog.perform op

/-- What follows a section of a cancellation. -/
def cancelRest (request : CancelRef limits) (isActive : Bool) :
    Nat → Queue.Cancelled limits → SerProg limits CmdStatus
  | _, .finished status => pure status
  | _, .strayed => .stop .strayed
  | 0, .removed _ _ => .stop .outOfFuel
  | fuel + 1, .removed cmd loop => do
    let next ← perform (.cancelResume request isActive cmd loop)
    cancelRest request isActive fuel next

/-- `wlan_ser_cancel_non_scan_cmd`. -/
def cancelNonScanCmd (fuel : Nat) (request : CancelRef limits) (isActive : Bool) :
    SerProg limits CmdStatus := do
  let first ← perform (.cancelStart request isActive)
  cancelRest request isActive fuel first

/-- `wlan_serialization_cmd_cancel_handler`, for the lists that `queue_type` names. -/
def cmdCancelHandler (fuel : Nat) (request : CancelRef limits) (activeQueue pendingQueue : Bool) :
    SerProg limits CmdStatus := do
  let activeStatus ← (if activeQueue then cancelNonScanCmd fuel request true else pure .notFound)
  let pendingStatus ← (if pendingQueue then cancelNonScanCmd fuel request false
    else pure .notFound)
  if activeStatus = .inActiveList ∧ pendingStatus = .inPendingList then pure .inAllLists
  else if activeStatus = .inActiveList then pure activeStatus
  else if pendingStatus = .inPendingList then pure pendingStatus
  else pure .notFound

mutual

/-- `wlan_serialization_activate_cmd`. -/
def activateCmd : Nat → NodeId → SerProg limits Unit
  | 0, _ => .stop .outOfFuel
  | fuel + 1, node => do
    let success ← perform (.notify node)
    let _ ← perform (.activated node)
    if !success then
      let _ ← dequeueCmd fuel (.ofNode node) true
      pure ()
    else
      let inUse ← perform (.readInUse node)
      if inUse.activeMarkedForRemoval then
        let _ ← dequeueCmd fuel (.ofNode node) true
        pure ()
      else
        let inUse ← perform (.readInUse node)
        if inUse.activeMarkedForCancel then
          let _ ← cmdCancelHandler fuel (.ofNode node) true false
          pure ()
        else pure ()

/-- `wlan_serialization_dequeue_cmd`. -/
def dequeueCmd : Nat → CmdRef limits → Bool → SerProg limits CmdStatus
  | 0, _, _ => .stop .outOfFuel
  | fuel + 1, cmd, activeCmd => do
    match ← perform (.dequeue cmd activeCmd) with
    | .markedForActivation => pure .markedForActivation
    | .notFound => pure .notFound
    | .removed vdev blockingCmdRemoved =>
      if activeCmd then
        moveNonScanPendingToActive fuel vdev blockingCmdRemoved
        pure .inActiveList
      else pure .inPendingList

/-- `wlan_ser_move_non_scan_pending_to_active`. -/
def moveNonScanPendingToActive : Nat → limits.Vdev → Bool → SerProg limits Unit
  | 0, _, _ => .stop .outOfFuel
  | fuel + 1, vdev, blockingCmdRemoved => do
    match ← perform (.moveStart vdev blockingCmdRemoved) with
    | (_, none) => pure ()
    | (true, some node) => activateCmd fuel node
    | (false, some node) =>
      activateCmd fuel node
      moveLoop fuel

/-- The loop of `wlan_ser_move_non_scan_pending_to_active`, after an activation. -/
def moveLoop : Nat → SerProg limits Unit
  | 0 => .stop .outOfFuel
  | fuel + 1 => do
    match ← perform .moveResume with
    | none => pure ()
    | some node =>
      activateCmd fuel node
      moveLoop fuel

end

/-- `wlan_serialization_enqueue_cmd`. -/
def enqueueCmd (fuel : Nat) (cmd : Command limits) (reason : QueueReason) :
    SerProg limits SerStatus := do
  match ← perform (.enqueue cmd reason) with
  | (status, some node) =>
    activateCmd fuel node
    pure status
  | (status, none) => pure status

/-- `wlan_serialization_generic_timer_cb`. -/
def genericTimerCb (fuel : Nat) (cmd : Command limits) : SerProg limits Unit := do
  if ← perform (.isCmdPresentInActiveQueue cmd) then
    let _ ← dequeueCmd fuel (.given cmd) true
    pure ()
  else pure ()

/-! ### The threads -/

/-- What a thread may call. -/
inductive Call (limits : Limits) where
  | enqueue (cmd : Command limits) (reason : QueueReason)
  | dequeue (cmd : Command limits) (activeCmd : Bool)
  | timeout (cmd : Command limits)
  | cancel (request : Queue.CancelRequest limits) (activeQueue pendingQueue : Bool)

/-- What a call returns. -/
inductive Reply where
  | serStatus (status : SerStatus)
  | cmdStatus (status : CmdStatus)
  | none

/-- The program of a call. -/
def Call.program (fuel : Nat) : Call limits → SerProg limits Reply
  | .enqueue cmd reason => do
    let status ← enqueueCmd fuel cmd reason
    pure (.serStatus status)
  | .dequeue cmd activeCmd => do
    let status ← dequeueCmd fuel (.given cmd) activeCmd
    pure (.cmdStatus status)
  | .timeout cmd => do
    let _ ← genericTimerCb fuel cmd
    pure .none
  | .cancel request activeQueue pendingQueue => do
    let status ← cmdCancelHandler fuel (.given request) activeQueue pendingQueue
    pure (.cmdStatus status)

/-- Any number of threads `Tid` over the queue of a pdev. -/
def system (Tid : Type) (limits : Limits) :
    System Tid (SerOp limits) SerOp.Res Stop Reply (Queue limits) where
  init := fun queue => queue = Queue.init limits
  start := fun _ queue program after => after = queue ∧ ∃ fuel, ∃ call : Call limits,
    program = call.program fuel
  effect := fun op queue res after => ∃ outcome, op.run outcome queue = (res, after)
  returns := fun _ => False
  env := fun _ _ => False

/-- The steps of the threads. -/
abbrev SerLabel (Tid : Type) (limits : Limits) :=
  Label Tid (SerOp limits) SerOp.Res Stop Reply

/-- The queue with its threads. -/
abbrev Machine (Tid : Type) (limits : Limits) :=
  Config Tid (SerOp limits) SerOp.Res Stop Reply (Queue limits)

/-- The strategy in which timers are found and callbacks succeed. -/
def succeeds (Tid : Type) (limits : Limits) : Strategy (system Tid limits) where
  answer := fun op queue => some (op.run true queue)
  returns := fun _ => false
  allowed := fun answer => ⟨true, Option.some.inj answer⟩
  returns_ok := fun returns => absurd returns (by simp)

/-! ### Runs of given calls -/

/-- No thread has called anything yet. -/
def Machine.init (Tid : Type) (limits : Limits) : Machine Tid limits :=
  ⟨Queue.init limits, fun _ => none⟩

section Calls

variable {Tid : Type} [DecidableEq Tid]
  {running : System Tid (SerOp limits) SerOp.Res Stop Reply (Queue limits)}

/-- A thread makes a call and takes a number of steps in it. -/
def Machine.calls (strategy : Strategy running) (machine : Machine Tid limits) (tid : Tid)
    (call : Call limits) (steps : Nat) : Machine Tid limits :=
  (machine.begin tid (call.program 10) machine.state).advances strategy tid steps

theorem Machine.calls_reachable (strategy : Strategy running) {machine : Machine Tid limits}
    (reachable : running.Reachable machine)
    (starts : ∀ {tid queue} {call : Call limits}, running.start tid queue (call.program 10) queue)
    {tid : Tid} (free : machine.running tid = none) (call : Call limits) (steps : Nat) :
    running.Reachable (machine.calls strategy tid call steps) :=
  Config.advances_reachable strategy tid steps (Config.begin_reachable reachable free starts)

end Calls

/-- Three vdevs, four pending commands each. -/
def threeVdevs : Limits := ⟨3, 12, fun _ => 4, by decide⟩

instance threeVdevs_neZero : NeZero 3 := ⟨Nat.succ_ne_zero 2⟩

/-- A command of a kind that does not matter. -/
def command (cmdId : BitVec 32) (vdev : Fin 3) (isBlocking : Bool) :
    Command threeVdevs := ⟨.nonscan, cmdId, true, false, isBlocking, false, vdev⟩

end Qsdk.Serialization
