/-
**The engine at work: every operation on a table, in any order.**

The operations take the table's lock, work, and release it. `periodic_sync` is the exception: it
walks the list of all connections under the lock, releases the lock around every call of the sync
callback, and goes on from its cursor `wc_next`. So a step of the engine is one locked piece of an
operation, one step of the periodic walk, a packet that is counted, a flush, or the release of a
connection's memory after its grace period (`Engine.step`). A packet handler that holds a connection
it looked up may act on it until its memory is released. A step that writes through a pointer nobody
has set has no result.
-/

import Qsdk.Sfe.Create

namespace Qsdk.Sfe

variable {A M : Type}

/-- Where the periodic sync is: not running, walking under the lock, or in the sync callback. -/
inductive SyncPhase
  | idle
  | walking (c : Option Ptr) (quota : Nat)
  | callback (quota : Nat)

/-- The engine: the table, the periodic sync, the connections that were removed and not yet flushed,
and those that wait for their grace period. -/
structure Engine (A : Type) extends State A where
  phase : SyncPhase
  unflushed : List Ptr
  graceful : List Ptr

/-- What can happen. -/
inductive Act (A M : Type)
  /-- `create_rule`. -/
  | create (net : Net A) (alloc : Alloc A) (msg : M) (nowJiffies : BitVec 64)
  /-- `update_rule`. -/
  | update (msg : M)
  /-- `destroy_rule`, up to the flush. -/
  | destroy (tuple : Tuple A)
  /-- One round of `destroy_all_rules_for_dev`, up to the flush; no device stands for all. -/
  | destroyDev (dev : Option Dev)
  /-- The TCP or the ICMP handler removes the connection it found. -/
  | remove (c : Ptr)
  /-- `flush_connection` on a connection that was removed. -/
  | flush (c : Ptr) (reason : SyncReason) (nowJiffies : BitVec 64)
  /-- The grace period of a flushed connection ends. -/
  | free (c : Ptr)
  /-- A handler forwards a packet by the match it found. -/
  | forward (cm : Ptr) (len : BitVec 32)
  /-- The TCP handler records the windows it saw. -/
  | track (cm : Ptr) (tcp counterTcp : TcpState)
  /-- A handler that cannot forward syncs the connection it found. -/
  | syncStatus (c : Ptr) (nowJiffies : BitVec 64)
  /-- A read of the debug device gets to the next connection, in the read of number `seq`. -/
  | debugRead (seq : BitVec 32)
  /-- `periodic_sync` takes the lock. -/
  | syncStart
  /-- One iteration of its loop. -/
  | syncWalk (nowJiffies : BitVec 64)
  /-- The callback returns. -/
  | syncResume

namespace Table

variable (table : Table A)

/-- The first connection of the list that relates to a device. -/
def findForDev (dev : Option Dev) : Option Ptr :=
  table.allLinks.walk (fun c => match dev with
    | none => true
    | some dev => dev == (table.conns c).originalDev || dev == (table.conns c).replyDev)
    table.numConnections table.allConnectionsHead

/-- The first connection that a read of the debug device has not shown yet. -/
def findForDebug (seq : BitVec 32) : Option Ptr :=
  table.allLinks.walk (fun c => (table.conns c).debugReadSeq.ult seq) table.numConnections
    table.allConnectionsHead

/-- Move the counters of a connection's directions, for a reader who wants the totals. -/
def drain (c : Ptr) : Table A :=
  (table.modifyCm (table.conns c).originalMatch ConnectionMatch.updateSummaryStats).modifyCm
    (table.conns c).replyMatch ConnectionMatch.updateSummaryStats

/-- A read of the debug device: the counters move, and nobody is told. -/
def debugRead (stops : Bool) (seq : BitVec 32) : Table A :=
  match table.findForDebug seq with
  | none => table
  | some c =>
      let table := table.modifyConn c fun x => { x with debugReadSeq := seq }
      if stops && (table.conns c).removed then table else table.drain c

/-- Neither direction of a connection has counted a packet. -/
def quiet (c : Ptr) : Bool :=
  (table.cms (table.conns c).originalMatch).rxPacketCount == 0 &&
    (table.cms (table.conns c).replyMatch).rxPacketCount == 0

end Table

/-- The allocations return memory that is not in use. -/
def Alloc.Fresh (alloc : Alloc A) (state : State A) : Prop :=
  (∀ block ∈ alloc.conn, state.connLive block.1 = false) ∧
    (∀ block ∈ alloc.original, state.cmLive block.1 = false) ∧
    (∀ block ∈ alloc.reply, state.cmLive block.1 = false ∧
      ∀ other ∈ alloc.original, other.1 ≠ block.1)

instance (alloc : Alloc A) (state : State A) : Decidable (alloc.Fresh state) := by
  unfold Alloc.Fresh
  infer_instance

/-- A call reads nothing of the connection it allocated. What it would find there is what the memory
held before: it would take that for its matches and write through it, and nobody can say where
to. -/
def Outcome.Defined (outcome : Outcome A) (alloc : Alloc A) : Prop :=
  ∀ block ∈ alloc.conn, block.1 ∉ outcome.reads

instance (outcome : Outcome A) (alloc : Alloc A) : Decidable (outcome.Defined alloc) := by
  unfold Outcome.Defined
  infer_instance

namespace Engine

variable (engine : Engine A)

/-- Replace the table. -/
def withTable (table : Table A) : Engine A := { engine with table := table }

/-- Remove a connection under the lock; whoever removed it will flush it. -/
def removeLocked (hashes : Hashes A) (c : Ptr) : Engine A :=
  let (removed, table) := engine.table.removeConnection hashes c
  if removed then
    { engine.withTable table with unflushed := c :: engine.unflushed }
  else engine.withTable table

/-- Release the memory and the devices of a connection. -/
def release (c : Ptr) : Engine A :=
  let conn := engine.table.conns c
  let state := engine.toState
  let state := (state.devPut conn.originalDev).devPut conn.replyDev
  let state := ((state.kfreeCm conn.originalMatch).kfreeCm conn.replyMatch).kfreeConn c
  { engine with toState := state, graceful := engine.graceful.erase c }

/-- One iteration of the loop of `periodic_sync`. -/
def walkStep (nowJiffies : BitVec 64) (next : Option Ptr) (quota : Nat) : Engine A :=
  match next with
  | none =>
      { engine.withTable { engine.table with wcNext := none } with locked := false, phase := .idle }
  | some c =>
      if quota = 0 then
        { engine.withTable { engine.table with wcNext := some c } with
          locked := false, phase := .idle }
      else if engine.table.quiet c then
        { engine with phase := .walking (engine.table.conns c).allConnectionsNext quota }
      else
        let table := (engine.table.genSyncConnection c .stats nowJiffies).2
        { engine.withTable { table with wcNext := (table.conns c).allConnectionsNext } with
          locked := false, phase := .callback (quota - 1) }

/-- What an act does, if it can happen. -/
def step [DecidableEq A] (copy : Copy A M) : Act A M → Option (Engine A)
  | .create net alloc msg nowJiffies =>
      let outcome := createRule copy net msg nowJiffies alloc engine.toState
      -- a call that writes through the pointers of uninitialised memory has no result
      if engine.locked = false ∧ alloc.Fresh engine.toState ∧ outcome.Defined alloc then
        some { engine with toState := outcome.state }
      else none
  | .update msg =>
      if engine.locked = false then
        some (engine.withTable (engine.table.updateRule copy.hashes (copy.msg msg)))
      else none
  | .destroy tuple =>
      if engine.locked = false then
        match engine.table.findConnection copy.hashes tuple with
        | some c => some (engine.removeLocked copy.hashes c)
        | none => some engine
      else none
  | .destroyDev dev =>
      if engine.locked = false then
        match engine.table.findForDev dev with
        | some c => some (engine.removeLocked copy.hashes c)
        | none => some engine
      else none
  | .remove c =>
      if engine.locked = false ∧ engine.connLive c = true then
        some (engine.removeLocked copy.hashes c)
      else none
  | .flush c reason nowJiffies =>
      if c ∈ engine.unflushed then
        some { engine.withTable (engine.table.genSyncConnection c reason nowJiffies).2 with
          unflushed := engine.unflushed.erase c
          graceful := c :: engine.graceful }
      else none
  | .free c =>
      if c ∈ engine.graceful then some (engine.release c) else none
  | .forward cm len =>
      if engine.cmLive cm = true then
        some (engine.withTable (engine.table.modifyCm cm fun x => x.countForwarded len))
      else none
  | .track cm tcp counterTcp =>
      if engine.cmLive cm = true then
        let table := engine.table.modifyCm (engine.table.cms cm).counterMatch fun x =>
          { x with tcp := counterTcp }
        some (engine.withTable (table.modifyCm cm fun x => { x with tcp := tcp }))
      else none
  | .syncStatus c nowJiffies =>
      if engine.connLive c = true then
        some (engine.withTable (engine.table.genSyncConnection c .stats nowJiffies).2)
      else none
  | .debugRead seq =>
      if engine.locked = false then
        some (engine.withTable (engine.table.debugRead copy.debugStops seq))
      else none
  | .syncStart =>
      match engine.phase with
      | .idle =>
          if engine.locked = false then
            some { engine with
              locked := true
              phase := .walking (engine.table.wcNext.or engine.table.allConnectionsHead)
                ((engine.table.numConnections + 63) / 64) }
          else none
      | _ => none
  | .syncWalk nowJiffies =>
      match engine.phase with
      | .walking next quota => some (engine.walkStep nowJiffies next quota)
      | _ => none
  | .syncResume =>
      match engine.phase with
      | .callback quota =>
          if engine.locked = false then
            some { engine with locked := true, phase := .walking engine.table.wcNext quota }
          else none
      | _ => none

/-- The engine before its first rule: whatever its memory holds, nothing is in use. -/
def Initial : Prop :=
  engine.table.connHash = (fun _ => none) ∧ engine.table.connMatchHash = (fun _ => []) ∧
    engine.table.allConnectionsHead = none ∧ engine.table.allConnectionsTail = none ∧
    engine.table.numConnections = 0 ∧ engine.table.wcNext = none ∧ engine.locked = false ∧
    engine.connLive = (fun _ => false) ∧ engine.cmLive = (fun _ => false) ∧
    engine.phase = .idle ∧ engine.unflushed = [] ∧ engine.graceful = []

/-- The engines that some sequence of acts leads to. -/
inductive Reachable [DecidableEq A] (copy : Copy A M) : Engine A → Prop
  | initial {engine : Engine A} (initial : engine.Initial) : Reachable copy engine
  | step {engine next : Engine A} {act : Act A M} (reachable : Reachable copy engine)
      (step : engine.step copy act = some next) : Reachable copy next

/-- Several acts, one after the other. -/
def run [DecidableEq A] (copy : Copy A M) : Engine A → List (Act A M) → Option (Engine A)
  | engine, [] => some engine
  | engine, act :: acts => (engine.step copy act).bind fun next => run copy next acts

theorem Reachable.run [DecidableEq A] {copy : Copy A M} {engine next : Engine A}
    (reachable : Reachable copy engine) {acts : List (Act A M)}
    (runs : run copy engine acts = some next) : Reachable copy next := by
  induction acts generalizing engine with
  | nil =>
      cases runs
      exact reachable
  | cons act acts ih =>
      obtain ⟨middle, first, rest⟩ := Option.bind_eq_some_iff.mp runs
      exact ih (reachable.step first) rest

/-- An engine with blank memory and no rules. -/
def blank [Inhabited A] : Engine A where
  table :=
    { conns := fun _ => default
      cms := fun _ => default
      connHash := fun _ => none
      connMatchHash := fun _ => []
      allConnectionsHead := none
      allConnectionsTail := none
      numConnections := 0
      wcNext := none }
  locked := false
  connLive := fun _ => false
  cmLive := fun _ => false
  devRefs := fun _ => 0
  phase := .idle
  unflushed := []
  graceful := []

/-- The engine that some acts lead to, from the blank one. -/
def after [DecidableEq A] [Inhabited A] (copy : Copy A M) (acts : List (Act A M)) : Engine A :=
  (run copy blank acts).getD blank

theorem blank_initial [Inhabited A] : (blank : Engine A).Initial :=
  ⟨rfl, rfl, rfl, rfl, rfl, rfl, rfl, rfl, rfl, rfl, rfl, rfl⟩

theorem after_reachable [DecidableEq A] [Inhabited A] {copy : Copy A M} {acts : List (Act A M)}
    (runs : (run copy blank acts).isSome = true) : Reachable copy (after copy acts) := by
  obtain ⟨next, isNext⟩ := Option.isSome_iff_exists.mp runs
  have same : after copy acts = next := by rw [after, isNext, Option.getD_some]
  rw [same]
  exact (Reachable.initial blank_initial).run isNext

end Engine

/-! ### A small setting -/

/-- Two registered Ethernet devices, with the interface numbers 1 and 2. -/
def twoDevices (A : Type) : Net A where
  devGetByIndex := fun index =>
    if index = 1 then some 0x1000 else if index = 2 then some 0x2000 else none
  registered := fun _ => true
  isVxlan := fun _ => false
  hwCsum := fun _ => false
  noArp := fun _ => false
  ethHeader := fun _ => true
  devAddr := fun _ => 0
  udpLookup := fun _ _ _ _ _ _ => none

/-- Allocations at given addresses, with given contents of the matches. -/
def freshAt [Inhabited A] (c original reply : Ptr) (originalCm replyCm : ConnectionMatch A) :
    Alloc A where
  conn := some (c, default)
  original := some (original, originalCm)
  reply := some (reply, replyCm)

/-- A message with a tuple, from interface 1 to interface 2, and nothing else. -/
def plainRule (tuple : Tuple A) : CreateMsg A where
  validFlags := {}
  ruleFlags := {}
  tuple := tuple
  connRule := ⟨0, 0, 1, 2, 1, 2, 1500, 1500⟩
  tcpRule := ⟨0, 0, 0, 0, 0, 0, 0, 0⟩
  pppoeRule := ⟨0, 0, 0, 0⟩
  qosRule := ⟨0, 0⟩
  srcMacRule := ⟨false, false, 0, 0⟩
  markRule := ⟨0, 0⟩
  dscpRule := ⟨0, 0⟩

/-- The engine after one rule was created. -/
def Engine.withRule [DecidableEq A] [Inhabited A] (copy : Copy A M) (msg : M) : Engine A :=
  Engine.after copy [.create (twoDevices A) (freshAt 1 2 3 default default) msg 0]

/-- A rule for a tuple that is translated to another. -/
def Ipv4.ruleFor (tuple xlate : Tuple Ipv4Addr) : Ipv4CreateMsg where
  toCreateMsg := plainRule tuple
  xlate := ⟨xlate.flowIp, xlate.flowIdent, xlate.returnIp, xlate.returnIdent⟩

/-- A TCP connection of 10.0.0.1 to port 23 of 10.0.0.2. -/
def telnet : Tuple Ipv4Addr := ⟨ipprotoTcp, 0x0100000a, 0x3930, 0x0200000a, 0x1700⟩

end Qsdk.Sfe
