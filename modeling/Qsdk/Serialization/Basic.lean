/-
**Serialization: the data and the sections under the queue lock.**

The serialization component of the Wi-Fi host driver orders the commands of the vdevs of a pdev: a
command is active, or pending until others are done. A non-blocking command may be active beside the
commands of other vdevs, a blocking command only alone. This is the non-scan queue of one pdev, with
the non-scan queues of its vdevs (`wlan_serialization_non_scan.c`, `_internal.c`, `_queue.c`,
`_utils.c`).

Every function here runs under `pdev_queue_lock`. A command node is named by a number; it is in one
of the lists of the pdev and, apart from the pool, in the same list of its vdev. A flag `isActive`
selects the active or the pending lists, as in the source.

`removeNonScanCmd`, `addNonScanCmd` and `promoteCmd` keep the error paths of the source, also those
that cannot be reached.
-/

import Mathlib.Logic.Function.Basic
import Mathlib.Data.List.Basic
import Mathlib.Algebra.Group.Nat.Defs

namespace Qsdk.Serialization

/-! ### Commands and nodes -/

/-- `enum wlan_serialization_cmd_type`, without the scan command. -/
inductive CmdType where
  | nonscan | forceDisassocSta | forceDeauthSta | performPreAuth | wmStatusChange | ndpInitReq
  | ndpRespReq | ndpDataEndInitReq | ndpEndAllReq | addts | delts | tdlsSendMgmt | tdlsAddPeer
  | tdlsDelPeer | setHwMode | nssUpdate | setDualMacConfig | setAntennaMode | vdevDelete
  | vdevStartBss | vdevStopBss | vdevConnect | vdevDisconnect | vdevRestart | pdevRestart
  | pdevCsaRestart | vdevRoam | setMloLink
  deriving DecidableEq, Repr

/-- How many vdevs the pdev has, which is also the maximum number of active commands
(`WLAN_SER_MAX_ACTIVE_CMDS`), and how many commands may be pending. -/
structure Limits where
  maxVdevs : Nat
  /-- `WLAN_SER_MAX_PENDING_CMDS`, kept in a `uint8_t`. -/
  maxPendingCmds : Nat
  /-- `WLAN_SER_MAX_PENDING_CMDS_AP` or `WLAN_SER_MAX_PENDING_CMDS_STA`, by the vdev's mode. -/
  vdevMaxPendingCmds : Fin maxVdevs → Nat
  pending_lt : maxPendingCmds < 2 ^ 8

/-- A vdev of the pdev. -/
abbrev Limits.Vdev (limits : Limits) := Fin limits.maxVdevs

/-- `struct wlan_serialization_command`. `cmdCb` says whether there is a callback. -/
structure Command (limits : Limits) where
  cmdType : CmdType
  cmdId : BitVec 32
  cmdCb : Bool
  isHighPriority : Bool
  isBlocking : Bool
  queueDisable : Bool
  vdev : limits.Vdev
  deriving DecidableEq

/-- The bits of `cmd_in_use`. -/
structure InUse where
  markedForActivation : Bool
  isActive : Bool
  activeMarkedForCancel : Bool
  activeMarkedForRemoval : Bool
  markedForMovement : Bool
  deriving DecidableEq

/-- No bit is set. -/
def InUse.zero : InUse := ⟨false, false, false, false, false⟩

/-- `enum wlan_serialization_status`, as far as it is used. -/
inductive SerStatus where
  | pending | active | deniedListFull | queueDisabled | deniedUnspecified
  deriving DecidableEq, Repr

/-- `enum wlan_serialization_cmd_status`. -/
inductive CmdStatus where
  | inPendingList | inActiveList | inAllLists | markedForActivation | notFound
  deriving DecidableEq, Repr

/-- The codes of `QDF_STATUS` of a failed removal. -/
inductive QdfStatus where
  | eFailure | ePending
  deriving DecidableEq, Repr

/-- `enum ser_queue_reason` of a request. -/
inductive QueueReason where
  | request | other
  deriving DecidableEq, Repr

/-- A command node, `struct wlan_serialization_command_list`, by its number in the pool. -/
abbrev NodeId := Nat

/-- `struct wlan_serialization_pdev_queue`, with the command nodes and the
`struct wlan_serialization_vdev_queue` of each vdev. A node that was zeroed holds no command. -/
structure Queue (limits : Limits) where
  pdevList : Bool → List NodeId
  vdevList : Bool → limits.Vdev → List NodeId
  cmdPoolList : List NodeId
  cmd : NodeId → Option (Command limits)
  cmdInUse : NodeId → InUse
  vdevActiveCmdBitmap : limits.Vdev → Bool
  blockingCmdActive : Bool
  blockingCmdWaiting : BitVec 16
  queueDisable : limits.Vdev → Bool

namespace Queue

variable {limits : Limits}

/-- `active_list`. -/
abbrev activeList (queue : Queue limits) : List NodeId := queue.pdevList true

/-- `pending_list`. -/
abbrev pendingList (queue : Queue limits) : List NodeId := queue.pdevList false

/-- The queue of `wlan_serialization_pdev_create_handler`, with its pool. -/
def init (limits : Limits) : Queue limits where
  pdevList := fun _ => []
  vdevList := fun _ _ => []
  cmdPoolList := List.range (limits.maxVdevs + limits.maxPendingCmds)
  cmd := fun _ => none
  cmdInUse := fun _ => .zero
  vdevActiveCmdBitmap := fun _ => false
  blockingCmdActive := false
  blockingCmdWaiting := 0
  queueDisable := fun _ => false

/-! ### Updates of single fields -/

/-- A list of the pdev is overwritten. -/
def setPdevList (queue : Queue limits) (isActive : Bool) (list : List NodeId) : Queue limits :=
  { queue with pdevList := Function.update queue.pdevList isActive list }

/-- A list of a vdev is overwritten. -/
def setVdevList (queue : Queue limits) (isActive : Bool) (vdev : limits.Vdev)
    (list : List NodeId) : Queue limits :=
  { queue with
    vdevList := Function.update queue.vdevList isActive
      (Function.update (queue.vdevList isActive) vdev list) }

/-- The command of a node is overwritten. -/
def setCmd (queue : Queue limits) (node : NodeId) (cmd : Option (Command limits)) :
    Queue limits :=
  { queue with cmd := Function.update queue.cmd node cmd }

/-- The bits of a node are changed. -/
def updateInUse (queue : Queue limits) (node : NodeId) (change : InUse → InUse) : Queue limits :=
  { queue with
    cmdInUse := Function.update queue.cmdInUse node (change (queue.cmdInUse node)) }

/-- `CMD_MARKED_FOR_MOVEMENT` is set or cleared. -/
def markForMovement (queue : Queue limits) (node : NodeId) (mark : Bool) : Queue limits :=
  queue.updateInUse node fun inUse => { inUse with markedForMovement := mark }

/-- The pool is overwritten. -/
def setPool (queue : Queue limits) (pool : List NodeId) : Queue limits :=
  { queue with cmdPoolList := pool }

/-- A node is zeroed and goes back to the pool. -/
def release (queue : Queue limits) (node : NodeId) : Queue limits :=
  ((queue.setCmd node none).updateInUse node fun _ => .zero).setPool (queue.cmdPoolList ++ [node])

/-! ### What a node's command is -/

/-- The command of the node belongs to the vdev. -/
def onVdev (queue : Queue limits) (vdev : limits.Vdev) (node : NodeId) : Bool :=
  (queue.cmd node).any fun cmd => cmd.vdev = vdev

/-- The command of the node is blocking. -/
def isBlocking (queue : Queue limits) (node : NodeId) : Bool := (queue.cmd node).any (·.isBlocking)

/-- The bit of the node's vdev is set in `vdev_active_cmd_bitmap`. -/
def vdevCmdActive (queue : Queue limits) (node : NodeId) : Bool :=
  (queue.cmd node).any fun cmd => queue.vdevActiveCmdBitmap cmd.vdev

/-- `wlan_serialization_any_vdev_cmd_active`. -/
def anyVdevCmdActive (queue : Queue limits) : Bool :=
  decide (∃ vdev, queue.vdevActiveCmdBitmap vdev = true)

/-- `wlan_serialization_match_cmd_id_type` and `wlan_serialization_match_cmd_vdev`. -/
def sameKey (one two : Command limits) : Bool :=
  one.cmdId = two.cmdId && one.cmdType = two.cmdType && one.vdev = two.vdev

/-- `wlan_serialization_find_cmd` for `WLAN_SER_MATCH_CMD_ID_VDEV`. -/
def findCmd (queue : Queue limits) (list : List NodeId) (cmd : Command limits) : Option NodeId :=
  list.find? fun node => (queue.cmd node).any fun other => sameKey other cmd

/-- `wlan_serialization_is_cmd_present_queue`. -/
def isCmdPresentQueue (queue : Queue limits) (cmd : Command limits) (isActive : Bool) : Bool :=
  (queue.findCmd (queue.vdevList isActive cmd.vdev) cmd).isSome

/-! ### Adding a command -/

/-- The maximum size of a list of the pdev. -/
def pdevMaxSize (limits : Limits) (isActive : Bool) : Nat :=
  if isActive then limits.maxVdevs else limits.maxPendingCmds

/-- The maximum size of a list of a vdev: one active command. -/
def vdevMaxSize (limits : Limits) (isActive : Bool) (vdev : limits.Vdev) : Nat :=
  if isActive then 1 else limits.vdevMaxPendingCmds vdev

/-- `wlan_serialization_add_cmd_to_queue`: the list with the node, unless it is full. -/
def addCmdToQueue (list : List NodeId) (maxSize : Nat) (node : NodeId) (cmd : Command limits) :
    Option (List NodeId) :=
  if list.length = maxSize then none
  else if cmd.isHighPriority then some (node :: list)
  else some (list ++ [node])

/-- The status of a command that was added. -/
def addedStatus (isActive : Bool) : SerStatus := if isActive then .active else .pending

/-- A command with the attribute disables the queue of its vdev. -/
def disableQueue (queue : Queue limits) (cmd : Command limits) : Queue limits :=
  if cmd.queueDisable then
    { queue with queueDisable := Function.update queue.queueDisable cmd.vdev true }
  else queue

/-- `wlan_serialization_add_cmd_to_vdev_queue`: the queue is disabled also when its list is full. -/
def addCmdToVdevQueue (queue : Queue limits) (node : NodeId) (cmd : Command limits)
    (isActive : Bool) : SerStatus × Queue limits :=
  match addCmdToQueue (queue.vdevList isActive cmd.vdev) (vdevMaxSize limits isActive cmd.vdev)
      node cmd with
  | none => (.deniedListFull, queue.disableQueue cmd)
  | some list =>
    (addedStatus isActive, (queue.setVdevList isActive cmd.vdev list).disableQueue cmd)

/-- `wlan_serialization_add_cmd_to_pdev_queue`. -/
def addCmdToPdevQueue (queue : Queue limits) (node : NodeId) (cmd : Command limits)
    (isActive : Bool) : SerStatus × Queue limits :=
  match addCmdToQueue (queue.pdevList isActive) (pdevMaxSize limits isActive) node cmd with
  | none => (.deniedListFull, queue)
  | some list => (addedStatus isActive, queue.setPdevList isActive list)

/-! ### Removing a command -/

/-- `wlan_serialization_remove_cmd_from_queue`, up to the removal itself. A node that is about to be
activated is marked for removal instead. -/
def removeCmdFromQueue (queue : Queue limits) (list : List NodeId) (cmd : Command limits) :
    Except QdfStatus NodeId × Queue limits :=
  match queue.findCmd list cmd with
  | none => (.error .eFailure, queue)
  | some node =>
    if (queue.cmdInUse node).markedForActivation then
      (.error .ePending,
        queue.updateInUse node fun inUse => { inUse with activeMarkedForRemoval := true })
    else (.ok node, queue)

/-- `wlan_serialization_remove_cmd_from_vdev_queue`. -/
def removeCmdFromVdevQueue (queue : Queue limits) (cmd : Command limits) (isActive : Bool) :
    Except QdfStatus NodeId × Queue limits :=
  match queue.removeCmdFromQueue (queue.vdevList isActive cmd.vdev) cmd with
  | (.error status, queue) => (.error status, queue)
  | (.ok node, queue) =>
    (.ok node,
      queue.setVdevList isActive cmd.vdev ((queue.vdevList isActive cmd.vdev).erase node))

/-- `wlan_serialization_remove_cmd_from_pdev_queue`. -/
def removeCmdFromPdevQueue (queue : Queue limits) (cmd : Command limits) (isActive : Bool) :
    Except QdfStatus NodeId × Queue limits :=
  match queue.removeCmdFromQueue (queue.pdevList isActive) cmd with
  | (.error status, queue) => (.error status, queue)
  | (.ok node, queue) =>
    (.ok node, queue.setPdevList isActive ((queue.pdevList isActive).erase node))

/-- An active command is no longer accounted for. -/
def clearActive (queue : Queue limits) (vdev : limits.Vdev) (blocking : Bool) : Queue limits :=
  { queue with
    blockingCmdActive := if blocking then false else queue.blockingCmdActive
    vdevActiveCmdBitmap := Function.update queue.vdevActiveCmdBitmap vdev false }

/-- `wlan_ser_remove_non_scan_cmd`. -/
def removeNonScanCmd (queue : Queue limits) (cmd : Command limits) (isActive : Bool) :
    Except QdfStatus NodeId × Queue limits :=
  match queue.removeCmdFromVdevQueue cmd isActive with
  | (.error status, queue) => (.error status, queue)
  | (.ok _, queue) =>
    match queue.removeCmdFromPdevQueue cmd isActive with
    | (.error _, queue) => (.error .eFailure, queue)
    | (.ok node, queue) =>
      (.ok node, if isActive then queue.clearActive cmd.vdev (queue.isBlocking node) else queue)

/-! ### `wlan_ser_add_non_scan_cmd` -/

/-- An active command is accounted for. -/
def recordActive (queue : Queue limits) (cmd : Command limits) : Queue limits :=
  { queue with
    vdevActiveCmdBitmap := Function.update queue.vdevActiveCmdBitmap cmd.vdev true
    blockingCmdActive := queue.blockingCmdActive || cmd.isBlocking }

/-- `wlan_ser_add_non_scan_cmd`: a command that the pdev's list has no room for is taken off the
vdev's list again. -/
def addNonScanCmd (queue : Queue limits) (node : NodeId) (cmd : Command limits) (isActive : Bool) :
    SerStatus × Queue limits :=
  match queue.addCmdToVdevQueue node cmd isActive with
  | (.deniedListFull, queue) => (.deniedListFull, queue)
  | (vdevStatus, queue) =>
    match queue.addCmdToPdevQueue node cmd isActive with
    | (pdevStatus, queue) =>
      if pdevStatus ≠ vdevStatus then
        (pdevStatus, (queue.removeCmdFromVdevQueue cmd isActive).2)
      else (pdevStatus, if isActive then queue.recordActive cmd else queue)

/-! ### Enqueue -/

/-- `wlan_serialization_is_active_non_scan_cmd_allowed`: asking for a blocking command while another
is active counts it as waiting. The number of waiting blocking commands is read into eight bits. -/
def isActiveNonScanCmdAllowed (queue : Queue limits) (cmd : Command limits) :
    Bool × Queue limits :=
  if cmd.isBlocking then
    if queue.anyVdevCmdActive then
      (false, { queue with blockingCmdWaiting := queue.blockingCmdWaiting + 1 })
    else (true, queue)
  else if queue.blockingCmdActive || queue.blockingCmdWaiting.setWidth 8 ≠ 0 then (false, queue)
  else (!queue.vdevActiveCmdBitmap cmd.vdev, queue)

/-- `wlan_serialization_is_active_cmd_allowed`. -/
def isActiveCmdAllowed (queue : Queue limits) (cmd : Command limits) : Bool × Queue limits :=
  let (allowed, queue) := queue.isActiveNonScanCmdAllowed cmd
  (allowed && (queue.vdevList false cmd.vdev).isEmpty, queue)

/-- The part of `wlan_serialization_enqueue_cmd` after the command's admission. The node is returned
when the command becomes active. -/
def enqueueAdmitted (queue : Queue limits) (cmd : Command limits) (activeQueue : Bool) :
    (SerStatus × Option NodeId) × Queue limits :=
  if queue.isCmdPresentQueue cmd activeQueue then ((.deniedUnspecified, none), queue)
  else
    match queue.cmdPoolList with
    | [] => ((.deniedListFull, none), queue)
    | node :: pool =>
      match ((queue.setPool pool).setCmd node (some cmd)).addNonScanCmd node cmd activeQueue with
      | (.active, queue) =>
        ((.active, some node),
          queue.updateInUse node fun inUse => { inUse with markedForActivation := true })
      | (.pending, queue) => ((.pending, none), queue)
      | (status, queue) => ((status, none), queue.release node)

/-- The section of `wlan_serialization_enqueue_cmd` under the lock. -/
def enqueueCmd (queue : Queue limits) (cmd : Command limits) (reason : QueueReason) :
    (SerStatus × Option NodeId) × Queue limits :=
  if !cmd.cmdCb then ((.deniedUnspecified, none), queue)
  else if reason = .request && queue.queueDisable cmd.vdev then ((.queueDisabled, none), queue)
  else
    let (activeQueue, queue) := queue.isActiveCmdAllowed cmd
    queue.enqueueAdmitted cmd activeQueue

/-! ### Dequeue -/

/-- What the section of `wlan_serialization_dequeue_cmd` under the lock did. -/
inductive Dequeued (limits : Limits) where
  | markedForActivation
  | notFound
  | removed (vdev : limits.Vdev) (blocking : Bool)

/-- The section of `wlan_serialization_dequeue_cmd` under the lock. -/
def dequeueCmd (queue : Queue limits) (cmd : Command limits) (activeCmd : Bool) :
    Dequeued limits × Queue limits :=
  match queue.removeNonScanCmd cmd activeCmd with
  | (.error .ePending, queue) => (.markedForActivation, queue)
  | (.error .eFailure, queue) => (.notFound, queue)
  | (.ok node, queue) =>
    (.removed cmd.vdev (activeCmd && queue.isBlocking node), queue.release node)

/-! ### Promotion -/

/-- The walk over the vdev's pending list: only its first command is looked at. -/
def pickFromVdevQueue (queue : Queue limits) (vdev : limits.Vdev) : Option NodeId :=
  match queue.vdevList false vdev with
  | [] => none
  | node :: _ =>
    if queue.vdevCmdActive node || (queue.cmdInUse node).markedForMovement then none
    else some node

/-- The next command of the walk is marked for movement. -/
def markNext (queue : Queue limits) : List NodeId → Queue limits
  | [] => queue
  | next :: _ => queue.markForMovement next true

/-- The walk over the pdev's pending list, up to the first command that may be moved. The command
after the one looked at is marked for movement; the mark of a command whose vdev is active is
cleared. -/
def pickFromPdevQueue (queue : Queue limits) : List NodeId → Option NodeId × Queue limits
  | [] => (none, queue)
  | node :: rest =>
    if queue.isBlocking node && queue.anyVdevCmdActive then (none, queue)
    else
      let queue := queue.markNext rest
      if queue.vdevCmdActive node then
        pickFromPdevQueue (queue.markForMovement node false) rest
      else (some node, queue)

/-- A pending command is moved to the active lists and marked for activation. -/
def promoteCmd (queue : Queue limits) (cmd : Command limits) : Option NodeId × Queue limits :=
  match queue.removeNonScanCmd cmd false with
  | (.error _, queue) => (none, queue)
  | (.ok node, queue) =>
    match queue.cmd node with
    | none => (none, queue)
    | some moved =>
      match queue.addNonScanCmd node moved true with
      | (.active, queue) =>
        let queue := queue.updateInUse node fun inUse => { inUse with markedForActivation := true }
        (some node, if moved.isBlocking then
          { queue with blockingCmdWaiting := queue.blockingCmdWaiting - 1 } else queue)
      | (_, queue) => (none, queue.setPool (queue.cmdPoolList ++ [node]))

/-- The command of the node that a walk has picked, if any, is moved. -/
def promotePicked : Option NodeId × Queue limits → Option NodeId × Queue limits
  | (none, queue) => (none, queue)
  | (some node, queue) =>
    match queue.cmd node with
    | none => (none, queue)
    | some cmd => queue.promoteCmd cmd

/-- `vdev_queue_lookup`: the vdev's pending list is walked, and not the pdev's. -/
def vdevQueueLookup (queue : Queue limits) (blockingCmdRemoved : Bool) : Bool :=
  !blockingCmdRemoved && decide (queue.blockingCmdWaiting = 0)

/-- The first section of `wlan_ser_move_non_scan_pending_to_active` under the lock: whether it walks
the vdev's list, and the node to be activated. -/
def moveStart (queue : Queue limits) (vdev : limits.Vdev) (blockingCmdRemoved : Bool) :
    (Bool × Option NodeId) × Queue limits :=
  if queue.vdevQueueLookup blockingCmdRemoved then
    let (node, queue) := promotePicked (queue.pickFromVdevQueue vdev, queue)
    ((true, node), queue)
  else
    let (node, queue) := promotePicked (queue.pickFromPdevQueue queue.pendingList)
    ((false, node), queue)

/-- A later section, after an activation: the walk over the pdev's list starts again, unless a
blocking command is active. -/
def moveResume (queue : Queue limits) : Option NodeId × Queue limits :=
  if queue.blockingCmdActive then (none, queue)
  else promotePicked (queue.pickFromPdevQueue queue.pendingList)

/-! ### Activation -/

/-- The section of `wlan_serialization_activate_cmd` under the lock. -/
def activated (queue : Queue limits) (node : NodeId) : Queue limits :=
  queue.updateInUse node fun inUse => { inUse with markedForActivation := false, isActive := true }

/-! ### Cancellation -/

/-- The arguments of `wlan_ser_cancel_non_scan_cmd`: a command's id and type, the pdev, a vdev, the
command type, `WLAN_SER_CMD_ATTR_NONBLOCK`. -/
structure CancelRequest (limits : Limits) where
  cmd : Option (BitVec 32 × CmdType)
  pdev : Bool
  vdev : Option limits.Vdev
  cmdType : CmdType
  nonblock : Bool

/-- The command of a node is one to be cancelled. -/
def cancels (request : CancelRequest limits) (cmd : Command limits) : Bool :=
  request.cmd.all (fun (cmdId, cmdType) => cmd.cmdId = cmdId && cmd.cmdType = cmdType) &&
  request.vdev.all (fun vdev => cmd.vdev = vdev) &&
  (request.cmdType = .nonscan || request.vdev.isNone || cmd.cmdType = request.cmdType) &&
  !(request.nonblock && cmd.isBlocking)

/-- Where the loop of a cancellation is: `qsize`, `pnode`, and the status so far. -/
structure CancelLoop where
  qsize : Nat
  pnode : Option NodeId
  status : CmdStatus

/-- What a section of a cancellation did. -/
inductive Cancelled (limits : Limits) where
  | finished (status : CmdStatus)
  /-- A command was removed; the lock is released for its callbacks. -/
  | removed (cmd : Command limits) (loop : CancelLoop)
  /-- The node at which the loop stood has left the list. The source does not notice: its links are
  those of the list where it is now. What is done there is not described. -/
  | strayed

/-- `wlan_serialization_get_cmd_from_queue`: the node after the given one, `none` at the end of the
list. A node that is not in the list has its next node elsewhere: there is no answer. -/
def nextNode (list : List NodeId) : Option NodeId → Option (Option NodeId)
  | none => some list.head?
  | some node => if node ∈ list then some (list.dropWhile (· ≠ node)).tail.head? else none

/-- A command is taken off the lists, and its node goes back to the pool. -/
def cancelNode (queue : Queue limits) (node : NodeId) (cmd : Command limits) (isActive : Bool) :
    Queue limits :=
  ((queue.setPdevList isActive ((queue.pdevList isActive).erase node)).setVdevList isActive cmd.vdev
    ((queue.vdevList isActive cmd.vdev).erase node)).release node

/-- The loop of `wlan_ser_cancel_non_scan_cmd`, up to the next command that is removed. `timerFound`
is the outcome of `wlan_serialization_find_and_stop_timer`. -/
def cancelLoop (request : CancelRequest limits) (isActive timerFound : Bool) :
    (qsize : Nat) → (nnode pnode : Option NodeId) → CmdStatus → Queue limits →
      Cancelled limits × Queue limits
  | 0, _, _, status, queue => (.finished status, queue)
  | qsize + 1, nnode, pnode, status, queue =>
    if (queue.pdevList isActive).isEmpty then (.finished status, queue)
    else
      match nextNode (queue.pdevList isActive) nnode with
      | none => (.strayed, queue)
      | some none => (.finished .notFound, queue)
      | some (some node) =>
        match queue.cmd node with
        | none => (.strayed, queue)
        | some cmd =>
          if !cancels request cmd then
            cancelLoop request isActive timerFound qsize (some node) (some node) status queue
          else if isActive && (queue.cmdInUse node).markedForActivation then
            -- the command is removed once its activation is complete
            cancelLoop request isActive timerFound qsize (some node) pnode .markedForActivation
              (queue.updateInUse node fun inUse => { inUse with activeMarkedForCancel := true })
          else if isActive && !timerFound then (.finished .notFound, queue)
          else (.removed cmd ⟨qsize, pnode, if isActive then .inActiveList else status⟩,
            queue.cancelNode node cmd isActive)

/-- The first section of `wlan_ser_cancel_non_scan_cmd` under the lock. -/
def cancelStart (queue : Queue limits) (request : CancelRequest limits)
    (isActive timerFound : Bool) :
    Cancelled limits × Queue limits :=
  cancelLoop request isActive timerFound (queue.pdevList isActive).length none none .notFound queue

/-- Only now the removed command is no longer accounted for. -/
def cancelSettle (queue : Queue limits) (cmd : Command limits) (isActive : Bool) : Queue limits :=
  if isActive then queue.clearActive cmd.vdev cmd.isBlocking
  else if cmd.isBlocking then
    { queue with blockingCmdWaiting := queue.blockingCmdWaiting - 1 }
  else queue

/-- A later section, after the callbacks of the removed command. -/
def cancelResume (queue : Queue limits) (request : CancelRequest limits)
    (isActive timerFound : Bool) (cmd : Command limits) (loop : CancelLoop) :
        Cancelled limits × Queue limits :=
  let queue := queue.cancelSettle cmd isActive
  let status := if isActive then loop.status else .inPendingList
  if request.vdev.isNone && !request.pdev then (.finished status, queue)
  else cancelLoop request isActive timerFound loop.qsize loop.pnode loop.pnode status queue

end Queue

end Qsdk.Serialization
