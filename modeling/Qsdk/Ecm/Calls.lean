/-
**The handlers of a connection, between which the locks are free.**

A handler is a program over the calls that it makes under a lock, and any number of handlers run at
the same time. Which commands the driver accepts, and whether a rule can be made up, nothing here
determines: a call with such an outcome has both. An answer of the accelerator takes a command that
was sent and not answered.
-/

import Qsdk.Ecm.Basic
import Qsdk.Lib.Threads

namespace Qsdk.Ecm

/-! ### Calls -/

/-- What nothing here determines. -/
inductive Question
  | regenerationRequired
  | outOfMemory
  | badRule
  | regenerated
deriving DecidableEq

/-- What a handler does for a connection without giving up a lock. -/
inductive EcmOp
  | ask (c : Conn) (question : Question)
  | findAndRef (c : Conn)
  | ref (c : Conn)
  | deref (c : Conn)
  | pendingSet (c : Conn)
  | pendingClear (c : Conn) (mode : Mode)
  | txCreate (c : Conn)
  | txSent (c : Conn)
  | createTxFailed (c : Conn)
  | receiveCreate (c : Conn)
  | createAnswer (c : Conn) (ack : Bool)
  | decelerateStart (c : Conn)
  | defunctStart (c : Conn)
  | pendingDecelInc (c : Conn)
  | pendingDecelDec (c : Conn)
  | txDestroy (c : Conn)
  | destroyFailed (c : Conn)
  | timerSet (c : Conn)
  | destroyFailHandled (c : Conn)
  | receiveDestroy (c : Conn)
  | destroyAnswer (c : Conn) (ack : Bool)
  | accelCeasedStart (c : Conn)
  | accelerationEnds (c : Conn)
  | actionSeen (c : Conn)
  | accelMode (c : Conn)
  | timerExpire (c : Conn)
  | timerRemove (c : Conn)
  | timerDeref (c : Conn)

namespace EcmOp

/-- The connection of a call. -/
def conn : EcmOp → Conn
  | ask c _ | findAndRef c | ref c | deref c | pendingSet c | pendingClear c _ | txCreate
    c | txSent c
  | createTxFailed c | receiveCreate c | createAnswer c _ | decelerateStart c | defunctStart c
  | pendingDecelInc c | pendingDecelDec c | txDestroy c | destroyFailed c | timerSet c
  | destroyFailHandled c | receiveDestroy c | destroyAnswer c _ | accelCeasedStart c
  | accelerationEnds c | actionSeen c | accelMode c | timerExpire c | timerRemove
    c | timerDeref c => c

/-- What a call returns. -/
def Res : EcmOp → Type
  | ask _ _ | findAndRef _ | pendingSet _ | txCreate _ | receiveCreate _ | decelerateStart _
  | txDestroy _ | destroyFailed _ | receiveDestroy _ | destroyAnswer _ _ | accelCeasedStart _
  | timerRemove _ => Bool
  | createAnswer _ _ => Answered
  | defunctStart _ => Option Mode
  | accelMode _ => Mode
  | _ => Unit

/-- A call, and the state after it. `yes` answers what nothing here determines, and there is no
answer to receive where no command was sent. -/
def run (limits : Limits) (yes : Bool) : (op : EcmOp) → State → Option (op.Res × State)
  | ask _ _, state => some (yes, state)
  | findAndRef c, state => some (state.findAndRef c)
  | ref c, state => some ((), state.ref c)
  | deref c, state => some ((), state.deref c)
  | pendingSet c, state => some (state.lockedBoth c (accelPendingSet limits))
  | pendingClear c mode, state =>
      some ((), (state.lockedBoth c (accelPendingClear mode)).2)
  | txCreate c, state =>
      some (yes, if yes then state.modify c fun conn => { conn with creates := conn.creates + 1 }
        else state)
  | txSent c, state => some ((), state.modify c fun conn => { conn with driverFail := 0 })
  | createTxFailed c, state =>
      some (state.lockedBoth c fun counters conn => ((), Ecm.createTxFailed counters conn))
  | receiveCreate c, state =>
      if 0 < (state.conn c).creates then
        some ((state.modify c fun conn => { conn with creates := conn.creates - 1 }).findAndRef c)
      else none
  | createAnswer c ack, state => some (state.lockedBoth c (Ecm.createAnswer ack))
  | decelerateStart c, state => some (state.locked c Ecm.decelerateStart)
  | defunctStart c, state => some (state.locked c Ecm.defunctStart)
  | pendingDecelInc _, state =>
      some ((), { state with
        counters := { state.counters with pendingDecel := state.counters.pendingDecel + 1 } })
  | pendingDecelDec _, state =>
      some ((), { state with
        counters := { state.counters with pendingDecel := state.counters.pendingDecel - 1 } })
  | txDestroy c, state =>
      some (yes, if yes then state.modify c fun conn => { conn with destroys := conn.destroys + 1 }
        else state)
  | destroyFailed c, state => some (state.locked c Ecm.destroyFailed)
  | timerSet c, state => some ((), state.modify c fun conn => { conn with timer := true })
  | destroyFailHandled c, state =>
      some ((), state.modify c fun conn => { conn with destroyFailHandlePending := false })
  | receiveDestroy c, state =>
      if 0 < (state.conn c).destroys then
        some ((state.modify c fun conn => { conn with destroys := conn.destroys - 1 }).findAndRef c)
      else none
  | destroyAnswer c ack, state => some (state.locked c (Ecm.destroyAnswer ack))
  | accelCeasedStart c, state => some (state.locked c Ecm.accelCeasedStart)
  | accelerationEnds c, state =>
      some ((), { state with
        counters := Ecm.accelerationEnds (state.conn c).proto state.counters })
  | actionSeen c, state => some ((), state.modify c fun conn => { conn with noActionSeen := 0 })
  | accelMode c, state => some ((state.conn c).accelMode, state)
  | timerExpire c, state =>
      if (state.conn c).timer then some ((), state.modify c fun conn =>
        { conn with timer := false })
      else none
  | timerRemove c, state =>
      some (state.locked c fun conn => (conn.timer, { conn with timer := false }))
  | timerDeref c, state =>
      some ((), (state.modify c fun conn => { conn with timerRef := false }).deref c)

end EcmOp

/-! ### Handlers -/

/-- A program over the calls. -/
abbrev EcmProg (A : Type) := Prog EcmOp EcmOp.Res Empty A

/-- One call. -/
abbrev perform (op : EcmOp) : EcmProg op.Res := Prog.perform op

/-- `ecm_front_end_destroy_failure_handle`. -/
def destroyFailureHandle (c : Conn) : EcmProg Bool := do
  let limit : Bool ← perform (.destroyFailed c)
  if limit = true then return true
  perform (.timerSet c)
  perform (.destroyFailHandled c)
  return false

/-- `ecm_nss_ported_ipv4_connection_decelerate_msg_send`. -/
def decelerateMsgSend (c : Conn) : EcmProg Bool := do
  perform (.pendingDecelInc c)
  perform (.ref c)
  let sent : Bool ← perform (.txDestroy c)
  if sent = true then
    perform (.txSent c)
    return true
  let ret ← destroyFailureHandle c
  perform (.deref c)
  perform (.pendingDecelDec c)
  return ret

/-- `ecm_nss_ported_ipv4_connection_decelerate`. -/
def decelerate (c : Conn) : EcmProg Bool := do
  let allowed : Bool ← perform (.decelerateStart c)
  if allowed = false then return false
  decelerateMsgSend c

/-- `ecm_nss_ported_ipv4_connection_defunct_callback`. -/
def defunctCallback (c : Conn) : EcmProg (Bool × Mode) := do
  match ← perform (.defunctStart c) with
  | some mode => return (false, mode)
  | none =>
    let ret ← decelerateMsgSend c
    let mode ← perform (.accelMode c)
    return (ret, mode)

/-- `ecm_db_connection_make_defunct`. -/
def makeDefunct (c : Conn) : EcmProg Unit := do
  let (ret, mode) ← defunctCallback c
  if ret = true ∨ mode.failed = true then
    let removed : Bool ← perform (.timerRemove c)
    if removed = true then perform (.timerDeref c)

/-- `ecm_db_connection_defunct_callback`. -/
def defunctTimer (c : Conn) : EcmProg Unit := do
  perform (.timerExpire c)
  let (ret, mode) ← defunctCallback c
  if ret = true ∨ mode.failed = true then perform (.timerDeref c)

/-- `ecm_nss_ported_ipv4_connection_accelerate`. -/
def accelerate (c : Conn) : EcmProg Unit := do
  let regen : Bool ← perform (.ask c .regenerationRequired)
  if regen = true then return
  let permitted : Bool ← perform (.pendingSet c)
  if permitted = false then return
  let noMemory : Bool ← perform (.ask c .outOfMemory)
  if noMemory = true then
    perform (.pendingClear c .decel)
    return
  let badRule : Bool ← perform (.ask c .badRule)
  if badRule = true then
    perform (.pendingClear c .failRule)
    return
  let regenerated : Bool ← perform (.ask c .regenerated)
  if regenerated = true then
    perform (.pendingClear c .decel)
    return
  perform (.ref c)
  let sent : Bool ← perform (.txCreate c)
  if sent = true then perform (.txSent c)
  else
    perform (.deref c)
    perform (.createTxFailed c)

/-- `ecm_nss_ported_ipv4_connection_callback`. -/
def connectionCallback (c : Conn) (ack : Bool) : EcmProg Unit := do
  let found : Bool ← perform (.receiveCreate c)
  if found = false then return
  perform (.deref c)
  match ← perform (.createAnswer c ack) with
  | .release => perform (.deref c)
  | .decelerate isDefunct =>
    if isDefunct = true then makeDefunct c
    else
      let _ ← decelerate c
    perform (.deref c)

/-- `ecm_nss_ported_ipv4_connection_destroy_callback`. -/
def destroyCallback (c : Conn) (ack : Bool) : EcmProg Unit := do
  let found : Bool ← perform (.receiveDestroy c)
  if found = false then return
  perform (.deref c)
  perform (.pendingDecelDec c)
  let ends : Bool ← perform (.destroyAnswer c ack)
  if ends = true then perform (.accelerationEnds c)
  perform (.deref c)

/-- `ecm_nss_ported_ipv4_connection_accel_ceased`. -/
def accelCeased (c : Conn) : EcmProg Unit := do
  let ends : Bool ← perform (.accelCeasedStart c)
  if ends = true then perform (.accelerationEnds c)

/-- A caller has a reference to the connection while it calls. -/
def referenced (c : Conn) (program : EcmProg Unit) : EcmProg Unit := do
  let found : Bool ← perform (.findAndRef c)
  if found = true then
    program
    perform (.deref c)

/-- What may happen to a connection. -/
inductive Handler
  | accelerate (c : Conn)
  | decelerate (c : Conn)
  | makeDefunct (c : Conn)
  | defunctTimer (c : Conn)
  | connectionCallback (c : Conn) (ack : Bool)
  | destroyCallback (c : Conn) (ack : Bool)
  | accelCeased (c : Conn)
  | actionSeen (c : Conn)

/-- The program of a handler. The callbacks come from the timer and the accelerator, and find the
connection by themselves. -/
def Handler.program : Handler → EcmProg Unit
  | accelerate c => referenced c (Ecm.accelerate c)
  | decelerate c => referenced c do
      let _ ← Ecm.decelerate c
  | makeDefunct c => referenced c (Ecm.makeDefunct c)
  | defunctTimer c => Ecm.defunctTimer c
  | connectionCallback c ack => Ecm.connectionCallback c ack
  | destroyCallback c ack => Ecm.destroyCallback c ack
  | accelCeased c => referenced c (Ecm.accelCeased c)
  | actionSeen c => referenced c (perform (.actionSeen c))

/-- The front end: any number of handlers run at the same time. -/
def frontEnd (Tid : Type) (limits : Limits) : System Tid EcmOp EcmOp.Res Empty Unit State where
  init := State.Initial
  start := fun _ state program after => after = state ∧ ∃ handler : Handler,
    program = handler.program
  effect := fun op state res after => ∃ yes, op.run limits yes state = some (res, after)
  returns := fun _ => False
  env := fun _ _ => False

end Qsdk.Ecm
