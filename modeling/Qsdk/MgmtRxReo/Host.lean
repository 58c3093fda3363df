/-
**Management Rx reorder: the host's threads.**

`wlan_mgmt_rx_reo_algo_entry` runs under `reo_algo_entry_lock`, the release loop under
`frame_release_lock`, and both take `list_lock` for single sections. Here each of the two outer
locks is a thread: its holder, if there is one. A section under `list_lock`, a snapshot read, a
reference or an allocation is one atomic call. A round of the release loop is a program of its own,
so that any thread may do the next round: this has more interleavings than the source, never fewer.
The lookups that leave the module (`wlan_get_pdev_from_mlo_link_id`, `qdf_mem_malloc`, the snapshot
read, `wlan_mgmt_txrx_process_rx_frame`) may succeed or fail at every call.

Which frames arrive and what the snapshots hold is a parameter, the `Environment`.
-/

import Qsdk.Lib.Schedule
import Qsdk.MgmtRxReo.Basic

namespace Qsdk.MgmtRxReo

/-! ### The shared state and its atomic operations -/

/-- What the threads of the host share. `heap` are the addresses of the list entries allocated and
not freed, `pdevRefs` the references on each pdev under `WLAN_MGMT_RX_REO_ID`, `sentUp` the entries
handed to `wlan_mgmt_txrx_process_rx_frame`, in order. -/
structure Host (Buf : Type) where
  reoList : ReoList Buf
  hostSnapshot : Link → SnapshotParams
  privObject : Link → Bool
  pdevRefs : Link → Int
  heap : List Nat
  sentUp : List (ListEntry Buf × ReleaseReason)

/-- The state after initialisation, with private objects on the given pdevs. -/
def Host.init (Buf : Type) (privObject : Link → Bool) : Host Buf where
  reoList := .init
  hostSnapshot := fun _ => ⟨false, 0, 0⟩
  privObject := privObject
  pdevRefs := fun _ => 0
  heap := []
  sentUp := []

/-- The host snapshot of a pdev is overwritten. -/
def Host.setHostSnapshot {Buf : Type} (host : Host Buf) (pdev : Link) (params : SnapshotParams) :
    Host Buf :=
  { host with hostSnapshot := Function.update host.hostSnapshot pdev params }

/-- `WLAN_MGMT_RX_REO_ID` references of a pdev are taken or given back. -/
def Host.addPdevRefs {Buf : Type} (host : Host Buf) (pdev : Link) (delta : Int) : Host Buf :=
  { host with pdevRefs := Function.update host.pdevRefs pdev (host.pdevRefs pdev + delta) }

/-- `wlan_mgmt_rx_reo_update_host_snapshot`: there should not be any holes in the packet counter. -/
def updateHostSnapshot {Buf : Type} (host : Host Buf) (pdev : Link) (params : ReoParams) :
    Except Stop (Host Buf) :=
  if !host.privObject pdev then .error (.status .eFailure)
  else if !params.valid then .error (.status .eFailure)
  else if (host.hostSnapshot pdev).valid &&
      decide (subtractPktCtrs params.mgmtPktCtr (host.hostSnapshot pdev).mgmtPktCtr ≠ 1) then
    .error .assertion
  else .ok (host.setHostSnapshot pdev ⟨true, params.mgmtPktCtr, params.globalTimestamp⟩)

/-- **A successful update** follows the host snapshot without a hole, and overwrites it. -/
theorem updateHostSnapshot_ok {Buf : Type} {host after : Host Buf} {pdev : Link}
    {params : ReoParams} (updated : updateHostSnapshot host pdev params = .ok after) :
    host.privObject pdev = true ∧
      ((host.hostSnapshot pdev).valid = true →
        subtractPktCtrs params.mgmtPktCtr (host.hostSnapshot pdev).mgmtPktCtr = 1) ∧
      after = host.setHostSnapshot pdev ⟨true, params.mgmtPktCtr, params.globalTimestamp⟩ := by
  unfold updateHostSnapshot at updated
  split at updated
  · exact absurd updated (by simp)
  · rename_i context
    split at updated
    · exact absurd updated (by simp)
    · split at updated
      · exact absurd updated (by simp)
      · rename_i noHole
        obtain rfl := Except.ok.inj updated
        exact ⟨by simpa using context, by simpa using noHole, rfl⟩

/-- A failed update with valid parameters: an assertion, or a pdev without a private object. -/
theorem updateHostSnapshot_error {Buf : Type} {host : Host Buf} {pdev : Link} {params : ReoParams}
    {stop : Stop} (failed : updateHostSnapshot host pdev params = .error stop)
    (valid : params.valid = true) : stop = .assertion ∨ host.privObject pdev = false := by
  unfold updateHostSnapshot at failed
  split at failed
  · rename_i noContext
    exact Or.inr (by simpa using noContext)
  · split at failed
    · rename_i invalid
      exact absurd valid (by simpa using invalid)
    · split at failed
      · exact Or.inl (Except.error.inj failed).symm
      · exact absurd failed (by simp)

/-- The atomic operations of the host's threads. -/
inductive HostOp (Buf : Type) where
  | updateHostSnapshot (pdev : Link) (params : ReoParams)
  | getPrivObject (pdev : Link)
  | getPdevFromLinkId (link : Link)
  | releasePdevRef (pdev : Link)
  | readSnapshot (pdev : Link) (id : SnapshotId)
  | malloc
  | free (address : Nat)
  | updateList (desc : FrameDescriptor Buf) (newEntry : Option (ListEntry Buf))
  | releaseFirst
  | processRxFrame (entry : ListEntry Buf) (reason : ReleaseReason)

/-- What an operation answers. -/
abbrev HostOp.Res {Buf : Type} : HostOp Buf → Type
  | .updateHostSnapshot _ _ => Except Stop Unit
  | .getPrivObject _ => Option SnapshotParams
  | .getPdevFromLinkId _ => Bool
  | .releasePdevRef _ => Unit
  | .readSnapshot _ _ => Except QdfStatus SnapshotParams
  | .malloc => Option Nat
  | .free _ => Unit
  | .updateList _ _ => FrameDescriptor Buf × Bool
  | .releaseFirst => Option (Option (ListEntry Buf))
  | .processRxFrame _ _ => QdfStatus

/-- A program of a host thread. -/
abbrev HostProg (Buf A : Type) := Prog (HostOp Buf) HostOp.Res Stop A

/-- The effect of an operation: the state before, the answer, the state after. -/
def Effect {Buf : Type} (numMloLinks : Nat) :
    (op : HostOp Buf) → Host Buf → op.Res → Host Buf → Prop
  | .updateHostSnapshot pdev params, host, res, after =>
    match updateHostSnapshot host pdev params with
    | .ok updated => res = .ok () ∧ after = updated
    | .error stop => res = .error stop ∧ after = host
  | .getPrivObject pdev, host, res, after =>
    res = (if host.privObject pdev then some (host.hostSnapshot pdev) else none) ∧ after = host
  | .getPdevFromLinkId link, host, res, after =>
    (res = true ∧ after = host.addPdevRefs link 1) ∨ (res = false ∧ after = host)
  | .releasePdevRef pdev, host, _, after =>
    after = host.addPdevRefs pdev (-1)
  | .readSnapshot _ _, host, _, after => after = host
  | .malloc, host, res, after =>
    (∃ address, address ∉ host.heap ∧ res = some address ∧
      after = { host with heap := address :: host.heap }) ∨
    (res = none ∧ after = host)
  | .free address, host, _, after => after = { host with heap := host.heap.erase address }
  | .updateList desc newEntry, host, res, after =>
    ∃ now, res = (updateList numMloLinks host.reoList desc newEntry now).2 ∧
      after = { host with reoList := (updateList numMloLinks host.reoList desc newEntry now).1 }
  | .releaseFirst, host, res, after =>
    match releaseFirst host.reoList with
    | some (reoList, first) => res = some first ∧ after = { host with reoList := reoList }
    | none => res = none ∧ after = host
  | .processRxFrame entry reason, host, _, after =>
    after = { host with sentUp := host.sentUp ++ [(entry, reason)] }

/-! ### The programs -/

section Programs

variable {Buf : Type}

/-- One operation, as a program. -/
abbrev perform (op : HostOp Buf) : HostProg Buf op.Res := Prog.perform op

/-- The body of the loop that reads the shared snapshots: a failed read gives the reference
back and returns the read's status. -/
def readSharedSnapshot (link : Link) (id : SnapshotId) : HostProg Buf SnapshotParams := do
  match ← perform (.readSnapshot link id) with
  | .ok params => pure params
  | .error status =>
    let _ ← perform (.releasePdevRef link)
    .stop (.status status)

/-- The body of the loop of `wlan_mgmt_rx_reo_algo_calculate_wait_count` for another link, once its
host snapshot is known. -/
def calculateAtLink (inFrameTs : BitVec 32) (count : WaitCount) (link : Link)
    (hostSs : SnapshotParams) : HostProg Buf WaitCount :=
  if hostSs.valid && compareGlobalTimestampsGte hostSs.globalTimestamp inFrameTs then do
    let _ ← perform (.releasePdevRef link)
    pure (count.record link 0)
  else do
    let macHwSs ← readSharedSnapshot link .macHw
    let fwConsumedSs ← readSharedSnapshot link .fwConsumed
    let fwForwardedSs ← readSharedSnapshot link .fwForwarded
    let _ ← perform (.releasePdevRef link)
    if !macHwSs.valid then pure (count.recordUintMax link)
    else
      match framesPending inFrameTs hostSs macHwSs fwConsumedSs fwForwardedSs with
      | none => .stop .assertion
      | some pending => pure (count.record link pending)

/-- The body of the loop of `wlan_mgmt_rx_reo_algo_calculate_wait_count`. -/
def calculateLinkWaitCount (inFrameLink : Link) (inFrameTs : BitVec 32) (count : WaitCount)
    (link : Link) : HostProg Buf WaitCount :=
  if link = inFrameLink then
    -- no need to wait for any frames on the same link
    pure (count.record link 0)
  else do
    match ← perform (.getPdevFromLinkId link) with
    | false => .stop (.status .eFailure)
    | true =>
      match ← perform (.getPrivObject link) with
      | none =>
        let _ ← perform (.releasePdevRef link)
        .stop (.status .eFailure)
      | some hostSs => calculateAtLink inFrameTs count link hostSs

/-- The loop of `wlan_mgmt_rx_reo_algo_calculate_wait_count` over the links. -/
def calculateWaitCountLoop (inFrameLink : Link) (inFrameTs : BitVec 32) :
    List Link → WaitCount → HostProg Buf WaitCount
  | [], count => pure count
  | link :: rest, count => do
    let count ← calculateLinkWaitCount inFrameLink inFrameTs count link
    calculateWaitCountLoop inFrameLink inFrameTs rest count

/-- `wlan_mgmt_rx_reo_algo_calculate_wait_count`. -/
def algoCalculateWaitCount (numMloLinks : Nat) (inFramePdev : Link) (inFrameParams : ReoParams)
    (waitCount : WaitCount) : HostProg Buf WaitCount :=
  calculateWaitCountLoop inFramePdev inFrameParams.globalTimestamp (mloLinks numMloLinks) waitCount

/-- `mgmt_rx_reo_prepare_list_entry`. -/
def prepareListEntry (desc : FrameDescriptor Buf) :
    HostProg Buf (Except QdfStatus (ListEntry Buf)) := do
  match ← perform (.getPdevFromLinkId desc.params.linkId) with
  | false => pure (.error .eNullValue)
  | true =>
    match ← perform .malloc with
    | none =>
      let _ ← perform (.releasePdevRef desc.params.linkId)
      pure (.error .eNomem)
    | some address =>
      pure (.ok {
        address := address
        nbuf := desc.nbuf
        params := desc.params
        pdev := desc.params.linkId
        waitCount := desc.waitCount
        insertionTs := 0
        status := ⟨decide (desc.waitCount.totalCount ≠ 0), false, false, false⟩ })

/-- `mgmt_rx_reo_update_list`: the entry of a host-consumed frame is prepared before `list_lock` is
taken. A frame that is found stale under the lock returns on the success path. -/
def updateListProg (desc : FrameDescriptor Buf) : HostProg Buf (FrameDescriptor Buf × Bool) := do
  if desc.type = .hostConsumed then
    match ← prepareListEntry desc with
    | .error _ => .stop (.status .eFailure)
    | .ok newEntry => perform (.updateList desc (some newEntry))
  else perform (.updateList desc none)

/-- `wlan_mgmt_rx_reo_algo_entry` while it holds `reo_algo_entry_lock`. The result says whether the
frame was queued. -/
def algoEntry (numMloLinks : Nat) (pdev : Link) (desc : FrameDescriptor Buf) :
    HostProg Buf Bool := do
  match ← perform (.updateHostSnapshot pdev desc.params) with
  | .error stop => .stop stop
  | .ok _ =>
    let waitCount ← algoCalculateWaitCount numMloLinks pdev desc.params desc.waitCount
    let (_, isQueued) ← updateListProg { desc with waitCount := waitCount }
    pure isQueued

/-- One round of the loop of `mgmt_rx_reo_list_release_entries`, with
`mgmt_rx_reo_list_entry_send_up`. The result says whether an entry was released. -/
def releaseEntries : HostProg Buf Bool := do
  match ← perform .releaseFirst with
  | none => .stop .assertion
  | some none => pure false
  | some (some entry) =>
    let reason := getReleaseReason entry.status
    if reason.isZero then .stop .assertion
    else
      let _ ← perform (.processRxFrame entry reason)
      let _ ← perform (.releasePdevRef entry.pdev)
      let _ ← perform (.free entry.address)
      pure true

end Programs

/-! ### The threads -/

/-- The two locks that a thread holds over several operations; a lock names the thread that holds
it. -/
inductive LockId where
  | algoEntry | frameRelease
  deriving DecidableEq, Repr

/-- What lies under the host, hardware and firmware: which frames arrive, and what the snapshots
hold. -/
structure Environment (Buf E : Type) where
  init : E → Prop
  /-- A frame of `pdev` is handed to the frame handler. -/
  arrive : E → Link → FrameType → Buf → ReoParams → E → Prop
  /-- What a read of a snapshot may return. -/
  snapshot : E → Link → SnapshotId → Except QdfStatus SnapshotParams → Prop
  tick : E → E → Prop

/-- The environment in which anything may arrive and any snapshot may be read. -/
def Environment.any (Buf : Type) : Environment Buf Unit where
  init := fun _ => True
  arrive := fun _ _ _ _ _ _ => True
  snapshot := fun _ _ _ _ => True
  tick := fun _ _ => True

/-- What the environment allows an operation to answer. -/
def Environment.Allows {Buf E : Type} (environment : Environment Buf E) (below : E) :
    (op : HostOp Buf) → op.Res → Prop
  | .readSnapshot pdev id, res => environment.snapshot below pdev id res
  | _, _ => True

/-- The host's shared state and what lies under it. -/
structure World (Buf E : Type) where
  host : Host Buf
  below : E

/-- The host over an environment. A thread that enters the algorithm takes a frame from the
environment; a round of the release loop and the ageout timer may come at any time. An assertion
never returns. -/
def system {Buf E : Type} (environment : Environment Buf E) (numMloLinks : Nat) :
    System LockId (HostOp Buf) HostOp.Res Stop Bool (World Buf E) where
  init := fun world => environment.init world.below ∧
    ∃ privObject, world.host = Host.init Buf privObject
  start := fun lock world program after => after.host = world.host ∧
    match lock with
    | .algoEntry => ∃ pdev type nbuf params,
        environment.arrive world.below pdev type nbuf params after.below ∧
        program = algoEntry numMloLinks pdev (.fresh type nbuf params)
    | .frameRelease => after.below = world.below ∧ program = releaseEntries
  effect := fun op world res after => after.below = world.below ∧
    Effect numMloLinks op world.host res after.host ∧ environment.Allows world.below op res
  returns := fun stop => ∃ status, stop = .status status
  env := fun world after =>
    (after.host = world.host ∧ environment.tick world.below after.below) ∨
    (∃ now, after.host = { world.host with reoList := ageout world.host.reoList now } ∧
      after.below = world.below)

/-- The steps of the host. -/
abbrev HostLabel (Buf : Type) := Label LockId (HostOp Buf) HostOp.Res Stop Bool

/-- The host with its threads. -/
abbrev Machine (Buf E : Type) := Config LockId (HostOp Buf) HostOp.Res Stop Bool (World Buf E)

/-! ### Runs that can be computed -/

/-- An answer to every operation in which all lookups succeed and the snapshots read as given. -/
def answer {Buf : Type} (numMloLinks : Nat) (snapshot : Link → SnapshotId → SnapshotParams) :
    (op : HostOp Buf) → Host Buf → Option (op.Res × Host Buf)
  | .updateHostSnapshot pdev params, host =>
    match updateHostSnapshot host pdev params with
    | .ok updated => some (.ok (), updated)
    | .error stop => some (.error stop, host)
  | .getPrivObject pdev, host =>
    some (if host.privObject pdev then some (host.hostSnapshot pdev) else none, host)
  | .getPdevFromLinkId link, host => some (true, host.addPdevRefs link 1)
  | .releasePdevRef pdev, host => some ((), host.addPdevRefs pdev (-1))
  | .readSnapshot pdev id, host => some (.ok (snapshot pdev id), host)
  | .malloc, host =>
    if host.heap.length ∈ host.heap then none
    else some (some host.heap.length, { host with heap := host.heap.length :: host.heap })
  | .free address, host => some ((), { host with heap := host.heap.erase address })
  | .updateList desc newEntry, host =>
    some ((updateList numMloLinks host.reoList desc newEntry 0).2,
      { host with reoList := (updateList numMloLinks host.reoList desc newEntry 0).1 })
  | .releaseFirst, host =>
    match releaseFirst host.reoList with
    | some (reoList, first) => some (some first, { host with reoList := reoList })
    | none => some (none, host)
  | .processRxFrame entry reason, host =>
    some (.success, { host with sentUp := host.sentUp ++ [(entry, reason)] })

theorem answer_effect {Buf : Type} {numMloLinks : Nat}
    {snapshot : Link → SnapshotId → SnapshotParams} {op : HostOp Buf} {host after : Host Buf}
    {res : op.Res} (answered : answer numMloLinks snapshot op host = some (res, after)) :
    Effect numMloLinks op host res after := by
  cases op with
  | updateHostSnapshot pdev params =>
    dsimp only [answer] at answered
    dsimp only [Effect]
    cases updated : updateHostSnapshot host pdev params with
    | ok result =>
      rw [updated] at answered
      obtain ⟨rfl, rfl⟩ := Prod.mk.inj (Option.some.inj answered)
      exact ⟨rfl, rfl⟩
    | error stop =>
      rw [updated] at answered
      obtain ⟨rfl, rfl⟩ := Prod.mk.inj (Option.some.inj answered)
      exact ⟨rfl, rfl⟩
  | getPrivObject pdev =>
    obtain ⟨rfl, rfl⟩ := Prod.mk.inj (Option.some.inj answered)
    exact ⟨rfl, rfl⟩
  | getPdevFromLinkId link =>
    obtain ⟨rfl, rfl⟩ := Prod.mk.inj (Option.some.inj answered)
    exact Or.inl ⟨rfl, rfl⟩
  | releasePdevRef pdev => exact (Prod.mk.inj (Option.some.inj answered)).2.symm
  | readSnapshot pdev id => exact (Prod.mk.inj (Option.some.inj answered)).2.symm
  | malloc =>
    dsimp only [answer] at answered
    split at answered
    · exact absurd answered (by simp)
    · rename_i fresh
      obtain ⟨rfl, rfl⟩ := Prod.mk.inj (Option.some.inj answered)
      exact Or.inl ⟨_, fresh, rfl, rfl⟩
  | free address => exact (Prod.mk.inj (Option.some.inj answered)).2.symm
  | updateList desc newEntry =>
    obtain ⟨rfl, rfl⟩ := Prod.mk.inj (Option.some.inj answered)
    exact ⟨0, rfl, rfl⟩
  | releaseFirst =>
    dsimp only [answer] at answered
    dsimp only [Effect]
    cases round : releaseFirst host.reoList with
    | none =>
      rw [round] at answered
      obtain ⟨rfl, rfl⟩ := Prod.mk.inj (Option.some.inj answered)
      exact ⟨rfl, rfl⟩
    | some outcome =>
      rw [round] at answered
      obtain ⟨rfl, rfl⟩ := Prod.mk.inj (Option.some.inj answered)
      exact ⟨rfl, rfl⟩
  | processRxFrame entry reason => exact (Prod.mk.inj (Option.some.inj answered)).2.symm

/-- The strategy of these answers, over an environment that allows the snapshots. -/
def hostStrategy {Buf E : Type} (environment : Environment Buf E) (numMloLinks : Nat)
    (snapshot : E → Link → SnapshotId → SnapshotParams)
    (readable : ∀ below pdev id, environment.snapshot below pdev id
        (.ok (snapshot below pdev id))) :
    Strategy (system environment numMloLinks) where
  answer := fun op world =>
    (answer numMloLinks (snapshot world.below) op world.host).map fun (res, after) =>
      (res, ⟨after, world.below⟩)
  returns := fun stop => decide (stop ≠ .assertion)
  allowed := fun {op world res after} answered => by
    obtain ⟨⟨res, host⟩, isAnswer, isAfter⟩ := Option.map_eq_some_iff.mp answered
    obtain ⟨rfl, rfl⟩ := Prod.mk.inj isAfter
    refine ⟨rfl, answer_effect isAnswer, ?_⟩
    cases op with
    | readSnapshot pdev id =>
      obtain ⟨rfl, -⟩ := Prod.mk.inj (Option.some.inj isAnswer)
      exact readable world.below pdev id
    | _ => trivial
  returns_ok := fun {stop} returns => by
    cases stop with
    | assertion => exact absurd returns (by decide)
    | status status => exact ⟨status, rfl⟩

end Qsdk.MgmtRxReo
