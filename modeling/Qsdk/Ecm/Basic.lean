/-
**The acceleration modes of the NSS front end for ported IPv4 connections.**

Every connection has a mode, flags and failure counts under `feci->lock`, and the front end has
three counters under `ecm_nss_ipv4_lock`. What a handler does while it holds a lock is a function
here. The functions on a connection alone need `feci->lock`; those that also take the counters hold
both locks.

A connection lives as long as somebody holds a reference to it. One of them came with its defunct
timer, and the commands for the accelerator carry one each. How long a command takes, how many bytes
the sync messages report, how long a timer runs and how a rule is made up from a connection are no
part of the accounting and left out, and so are the totals that nothing reads.
-/

import Mathlib.Algebra.BigOperators.Group.Finset.Basic
import Mathlib.Algebra.Order.Group.Int

namespace Qsdk.Ecm

/-! ### Connections -/

/-- `ecm_front_end_acceleration_mode_t`. -/
inductive Mode
  | failDefunct
  | failDecel
  | failNoAction
  | failAccelEngine
  | failDriver
  | failRule
  | failDenied
  | decel
  | accelPending
  | accel
  | decelPending
deriving DecidableEq

/-- `ECM_FRONT_END_ACCELERATION_FAILED`. -/
def Mode.failed : Mode → Bool
  | .decel | .accelPending | .accel | .decelPending => false
  | _ => true

/-- The protocol that a connection is counted under. -/
inductive Proto
  | tcp
  | udp
deriving DecidableEq

/-- A connection with its front end instance. `timer` says that the defunct timer is in a timer
group, and `timerRef` that the reference that came with it was not released. `creates` and
`destroys` are the commands of both kinds that the accelerator has for it and did not answer. -/
structure Connection where
  proto : Proto
  accelMode : Mode
  isDefunct : Bool
  destroyFailHandlePending : Bool
  deceleratePending : Bool
  flushHappened : Bool
  noActionSeen : BitVec 32
  noActionSeenLimit : BitVec 32
  driverFail : BitVec 32
  driverFailLimit : BitVec 32
  aeNack : BitVec 32
  aeNackLimit : BitVec 32
  refs : Int
  timer : Bool
  timerRef : Bool
  creates : Nat
  destroys : Nat

/-- The number of an existing connection. -/
abbrev Conn := Nat

/-- The counters of the front end. -/
structure Counters where
  accelerated : Int
  ported : Proto → Int
  pendingAccel : Int
  pendingDecel : Int

/-- Whether the number of rules is limited, and to how many. -/
structure Limits where
  fixed : Bool
  maxConnCount : Nat

/-! ### Acceleration -/

/-- `ecm_nss_ipv4_accel_pending_set`, for a connection that needs no regeneration. -/
def accelPendingSet (limits : Limits) (counters : Counters) (conn : Connection) :
    Bool × Counters × Connection :=
  if conn.accelMode.failed then (false, counters, conn)
  else if conn.accelMode ≠ .decel then (false, counters, conn)
  else if limits.fixed ∧ limits.maxConnCount ≤ counters.pendingAccel + counters.accelerated then
    (false, counters, conn)
  else
    (true, { counters with pendingAccel := counters.pendingAccel + 1 },
      { conn with accelMode := .accelPending })

/-- `_ecm_nss_ipv4_accel_pending_clear`: whether a deceleration was asked for meanwhile. -/
def accelPendingClear (mode : Mode) (counters : Counters) (conn : Connection) :
    Bool × Counters × Connection :=
  (conn.deceleratePending, { counters with pendingAccel := counters.pendingAccel - 1 },
    { conn with accelMode := mode, deceleratePending := false })

/-- A create command could not be sent. -/
def createTxFailed (counters : Counters) (conn : Connection) : Counters × Connection :=
  let conn := { conn with driverFail := conn.driverFail + 1 }
  let mode := if conn.driverFailLimit ≤ conn.driverFail then .failDriver else .decel
  (accelPendingClear mode counters conn).2

/-- What is left to do after the answer to a create command. -/
inductive Answered
  | release
  | decelerate (isDefunct : Bool)
deriving DecidableEq

/-- The answer to a create command. An acceleration that was flushed already is cancelled. One that
somebody wanted to end meanwhile is ended now, for a defunct connection by making it defunct
again. -/
def createAnswer (ack : Bool) (counters : Counters) (conn : Connection) :
    Answered × Counters × Connection :=
  if !ack then
    let conn := { conn with aeNack := conn.aeNack + 1 }
    let mode : Mode := if conn.aeNackLimit ≤ conn.aeNack then .failAccelEngine else .decel
    let mode := if conn.isDefunct then .failDefunct else mode
    (.release, (accelPendingClear mode counters conn).2)
  else if conn.flushHappened then
    let conn := { conn with flushHappened := false, noActionSeen := conn.noActionSeen + 1 }
    (.release, (accelPendingClear .decel counters conn).2)
  else
    let conn := { conn with aeNack := 0 }
    let counters := { counters with
      accelerated := counters.accelerated + 1
      ported := Function.update counters.ported conn.proto (counters.ported conn.proto + 1) }
    let (decelPending, counters, conn) := accelPendingClear .accel counters conn
    if !decelPending then
      (.release, counters, { conn with noActionSeen := conn.noActionSeen + 1 })
    else (.decelerate conn.isDefunct, counters, { conn with isDefunct := false })

/-! ### Deceleration -/

/-- `ecm_front_end_common_connection_decelerate_accel_mode_check`. -/
def decelerateAccelModeCheck (conn : Connection) : Bool × Connection :=
  if conn.deceleratePending then (false, conn)
  else if conn.accelMode = .accelPending then (false, { conn with deceleratePending := true })
  else if conn.accelMode ≠ .accel then (false, conn)
  else (true, conn)

/-- The locked part of `ecm_nss_ported_ipv4_connection_decelerate`: whether to send a destroy
command. -/
def decelerateStart (conn : Connection) : Bool × Connection :=
  let (allowed, conn) := decelerateAccelModeCheck conn
  if !allowed then (false, conn) else (true, { conn with accelMode := .decelPending })

/-- `ecm_front_end_common_connection_defunct_check`. -/
def defunctCheck (conn : Connection) : Bool × Connection :=
  if conn.destroyFailHandlePending then (false, conn)
  else if conn.isDefunct then (false, conn)
  else
    let conn := { conn with isDefunct := true }
    if conn.accelMode.failed then (false, conn)
    else if conn.accelMode = .decel then (false, { conn with accelMode := .failDefunct })
    else if conn.accelMode = .decelPending then (false, conn)
    else (true, conn)

/-- The first locked part of `ecm_nss_ported_ipv4_connection_defunct_callback`: the mode that it
returns, or none if a destroy command is to be sent. -/
def defunctStart (conn : Connection) : Option Mode × Connection :=
  let (allowed, conn) := defunctCheck conn
  if !allowed then (some conn.accelMode, conn)
  else
    let (allowed, conn) := decelerateAccelModeCheck conn
    if !allowed then (some conn.accelMode, conn)
    else (none, { conn with accelMode := .decelPending })

/-- The locked part of `ecm_front_end_destroy_failure_handle`: whether the limit was reached. -/
def destroyFailed (conn : Connection) : Bool × Connection :=
  let conn := { conn with driverFail := conn.driverFail + 1 }
  if conn.driverFailLimit ≤ conn.driverFail then (true, { conn with accelMode := .failDriver })
  else (false,
    { conn with accelMode := .accel, isDefunct := false, destroyFailHandlePending := true })

/-- The answer to a destroy command: whether the acceleration ended with it. -/
def destroyAnswer (ack : Bool) (conn : Connection) : Bool × Connection :=
  if conn.accelMode ≠ .decelPending then (false, conn)
  else
    let mode : Mode := if !ack then .failDecel else .decel
    let mode := if conn.isDefunct then .failDefunct else mode
    (true, { conn with accelMode := mode })

/-- The locked part of `ecm_nss_ported_ipv4_connection_accel_ceased`: whether the acceleration ended
now. -/
def accelCeasedStart (conn : Connection) : Bool × Connection :=
  if conn.accelMode = .accelPending then (false, { conn with flushHappened := true })
  else if conn.accelMode ≠ .accel then (false, conn)
  else
    let mode : Mode :=
      if conn.noActionSeenLimit ≤ conn.noActionSeen then .failNoAction else .decel
    (true, { conn with accelMode := mode })

/-- An acceleration has ended: the counters of the accelerated connections drop. -/
def accelerationEnds (proto : Proto) (counters : Counters) : Counters :=
  { counters with
    accelerated := counters.accelerated - 1
    ported := Function.update counters.ported proto (counters.ported proto - 1) }

/-! ### The state -/

/-- The connections that exist, all connections by their numbers, and the counters. -/
structure State where
  conns : Finset Conn
  conn : Conn → Connection
  counters : Counters

/-- `ecm_nss_ported_ipv4_connection_instance_alloc` and `ecm_db_connection_add`: a new connection is
not accelerated, and the reference to it is that of its defunct timer. -/
def Connection.alloc (proto : Proto) (canAccel : Bool)
    (noActionSeenLimit driverFailLimit aeNackLimit : BitVec 32) : Connection where
  proto := proto
  accelMode := if canAccel then .decel else .failDenied
  isDefunct := false
  destroyFailHandlePending := false
  deceleratePending := false
  flushHappened := false
  noActionSeen := 0
  noActionSeenLimit := noActionSeenLimit
  driverFail := 0
  driverFailLimit := driverFailLimit
  aeNack := 0
  aeNackLimit := aeNackLimit
  refs := 1
  timer := true
  timerRef := true
  creates := 0
  destroys := 0

/-- What is at a number that no connection has. -/
def Connection.none : Connection :=
  { Connection.alloc .tcp false 0 0 0 with refs := 0, timer := false, timerRef := false }

/-- The front end has accelerated nothing, and its connections are all new. A connection that comes
up later is one that nobody has touched before. -/
structure State.Initial (state : State) : Prop where
  conn : ∀ c, if c ∈ state.conns then
      ∃ proto canAccel noActionSeenLimit driverFailLimit aeNackLimit,
        state.conn c = .alloc proto canAccel noActionSeenLimit driverFailLimit aeNackLimit
    else state.conn c = .none
  counters : state.counters = ⟨0, fun _ => 0, 0, 0⟩

namespace State

/-- What is done under a connection's lock. -/
def locked {R : Type} (state : State) (c : Conn) (act : Connection → R × Connection) : R × State :=
  let (result, conn) := act (state.conn c)
  (result, { state with conn := Function.update state.conn c conn })

/-- What is done under a connection's lock and that of the counters. -/
def lockedBoth {R : Type} (state : State) (c : Conn)
    (act : Counters → Connection → R × Counters × Connection) : R × State :=
  let (result, counters, conn) := act state.counters (state.conn c)
  (result, { state with counters := counters, conn := Function.update state.conn c conn })

/-- Change a connection. -/
def modify (state : State) (c : Conn) (change : Connection → Connection) : State :=
  (state.locked c fun conn => ((), change conn)).2

/-- `ecm_db_connection_ref`. -/
def ref (state : State) (c : Conn) : State :=
  state.modify c fun conn => { conn with refs := conn.refs + 1 }

/-- `ecm_db_connection_deref`: the last reference takes the connection with it. -/
def deref (state : State) (c : Conn) : State :=
  let state := state.modify c fun conn => { conn with refs := conn.refs - 1 }
  if 0 < (state.conn c).refs then state else { state with conns := state.conns.erase c }

/-- `ecm_db_connection_serial_find_and_ref`: whether the connection still exists. -/
def findAndRef (state : State) (c : Conn) : Bool × State :=
  if c ∈ state.conns then (true, state.ref c) else (false, state)

end State

end Qsdk.Ecm
