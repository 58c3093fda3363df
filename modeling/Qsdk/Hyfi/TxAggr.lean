/-
**The sender of a HyFi aggregated flow.**

The packets of a flow go out over up to three interfaces in turn, `packet_quota` of them over each;
`packet_count` is what is left of a turn. A new flow begins with a longer run on the interface that
it is on, and one that is stopped ends with a run on the interface that it was on.

An update clears all counts and fills in those of the ports that it lists. If the current interface
is not among them, its count stays zero and wraps at the next packet; the interface for a port that
is new is looked up by a device that is never set; and after a stop the current interface stays out
of the table. `Meets` is what an update has to meet so that none of this happens.
-/

import Qsdk.Lib.RoundRobin
import Qsdk.Hyfi.Tagging
import Mathlib.Data.List.Nodup
import Mathlib.Logic.Function.Basic

namespace Qsdk.TxAggr

open Tagging (ethPIp)

/-! ### Model -/

/-- `struct hyfi_iface_info`. The port is named by its `ifindex`, and both numbers have 8 bits. -/
structure IfaceInfo where
  dst : Option Nat
  packetQuota : Nat
  packetCount : Nat
deriving DecidableEq

/-- `struct net_hatbl_entry`, the sending part: `iface_info` with `HYFI_AGGR_MAX_IFACE` entries,
`aggr_seq_data`, the flag `HYFI_HACTIVE_TBL_AGGR_TX_ENTRY` and the default port. -/
structure Flow where
  ifaceInfo : Nat → IfaceInfo
  aggrCurIface : Nat
  aggrCurSeq : Nat
  numIfs : Nat
  txEntry : Bool
  dst : Nat

/-- `struct __hatbl_port_list`. -/
structure Listed where
  port : Nat
  quota : Nat
deriving DecidableEq

/-- `struct __hatbl_entry`. -/
structure HatblEntry where
  aggrEntry : Bool
  portList : List Listed

/-- `HYFI_AGGR_MAX_IFACE`, `HYFI_AGGR_MAX_PACKETS`, `HYFI_AGGR_HEAD_COUNT` and
`HYFI_AGGR_TAIL_COUNT`. -/
def maxIface : Nat := 3

def maxPackets : Nat := 255

def headCount : Nat := maxPackets

def tailCount : Nat := maxPackets

/-- The ports up to the first that is 0, with their quotas cut. -/
def HatblEntry.listed (hae : HatblEntry) : List Listed :=
  ((hae.portList.take maxIface).takeWhile fun entry => decide (entry.port ≠ 0)).map fun entry =>
    { entry with quota := min entry.quota maxPackets }

/-- A packet that is sent: over which port, and with which number if it is tagged. -/
structure Sent where
  dst : Option Nat
  tag : Option Nat
deriving DecidableEq

namespace Flow

/-- A change of one interface. -/
def setIface (flow : Flow) (i : Nat) (info : IfaceInfo) : Flow :=
  { flow with ifaceInfo := Function.update flow.ifaceInfo i info }

/-- `hyfi_aggr_tag_packet`, what it does to the flow: a packet of another protocol than IP is not
tagged, and uses no number. -/
def tagPacket (protocol : BitVec 16) (flow : Flow) : Flow :=
  { flow with aggrCurSeq := if protocol = ethPIp then (flow.aggrCurSeq + 1) % 2 ^ 14 else
    flow.aggrCurSeq }

/-- The number that a packet is tagged with. -/
def tagOf (protocol : BitVec 16) (flow : Flow) : Option Nat :=
    if protocol = ethPIp then some flow.aggrCurSeq else none

/-- The `while` over interfaces without a count, which goes around at most twice. -/
def skipEmpty : Nat → Bool → Flow → Flow
  | 0, _, flow => flow
  | fuel + 1, aggrEnd, flow =>
    if (flow.ifaceInfo flow.aggrCurIface).packetCount = 0 then
      if flow.aggrCurIface + 1 ≥ maxIface then
        if aggrEnd then { flow with aggrCurIface := 0, txEntry := false }
        else skipEmpty fuel true { flow with aggrCurIface := 0 }
      else skipEmpty fuel aggrEnd { flow with aggrCurIface := flow.aggrCurIface + 1 }
    else flow

/-- The end of a turn. -/
def endTurn (flow : Flow) : Flow :=
  let info := flow.ifaceInfo flow.aggrCurIface
  let flow := flow.setIface flow.aggrCurIface { info with packetCount := info.packetQuota }
  skipEmpty 6 false { flow with
    aggrCurIface := if flow.aggrCurIface + 1 ≥ maxIface then 0 else flow.aggrCurIface + 1 }

/-- `hyfi_aggr_handle_tx_path`. -/
def handleTxPath (protocol : BitVec 16) (flow : Flow) : Flow × Sent :=
  if flow.aggrCurIface = maxIface then
    let info := flow.ifaceInfo 0
    if info.packetCount ≠ 0 then
      ((flow.tagPacket protocol).setIface 0 { info with packetCount := info.packetCount - 1 },
        ⟨info.dst, flow.tagOf protocol⟩)
    else ({ flow with txEntry := false }, ⟨info.dst, none⟩)
  else
    let info := flow.ifaceInfo flow.aggrCurIface
    let count := (info.packetCount + 255) % 256
    let after := (flow.tagPacket protocol).setIface flow.aggrCurIface
      { info with packetCount := count }
    (if count = 0 then after.endTurn else after, ⟨info.dst, flow.tagOf protocol⟩)

/-- The clearing of the interfaces, up to the first that is free. -/
def clear (flow : Flow) : Flow :=
  { flow with
    ifaceInfo := fun i =>
      if i < maxIface ∧
          ((List.range (i + 1)).all fun j => (flow.ifaceInfo j).dst.isSome) = true then
        ⟨(flow.ifaceInfo i).dst, 0, 0⟩
      else flow.ifaceInfo i }

/-- The first interface with this port. -/
def find (flow : Flow) (port : Option Nat) : Option Nat :=
  (List.range maxIface).find? fun j => decide ((flow.ifaceInfo j).dst = port)

/-- The count of a port that the update lists: what is left of the turn of the current one is
carried over. -/
def countFor (old : IfaceInfo) (entry : Listed) : Nat :=
  if old.dst ≠ some entry.port then entry.quota
  else if entry.quota > old.packetQuota then
    (entry.quota + old.packetCount + 256 - old.packetQuota) % 256
  else entry.quota

/-- One entry of an update. The device for a new port is `NULL`, and so is its port. -/
def updateOne (old : IfaceInfo) (flow : Flow) (entry : Listed) : Flow :=
  match flow.find (some entry.port) with
  | some j =>
    { flow.setIface j ⟨some entry.port, entry.quota, countFor old entry⟩ with
      numIfs := flow.numIfs + 1 }
  | none =>
    match flow.find none with
    | some j => { flow.setIface j ⟨none, entry.quota, entry.quota⟩ with numIfs := flow.numIfs + 1 }
    | none => flow

/-- `hyfi_aggr_update_flow`. It has no result when it reads outside of the table or through
`NULL`. -/
def updateFlow (flow : Flow) (hae : HatblEntry) : Option Flow :=
  if hae.aggrEntry = false ∨ ∀ entry ∈ hae.listed, entry.quota = 0 then
    if flow.aggrCurIface < maxIface then
      let info := flow.clear.ifaceInfo 0
      some { flow.clear.setIface 0 { info with
          dst := (flow.ifaceInfo flow.aggrCurIface).dst
          packetCount := tailCount } with
        aggrCurIface := maxIface }
    else none
  else
    let old := flow.ifaceInfo (if flow.aggrCurIface < maxIface then flow.aggrCurIface else 0)
    if old.dst = none then none else
      some (hae.listed.foldl (updateOne old) { flow.clear with numIfs := 0 })

/-- An interface of a new flow; the one that the flow is on gets the longer run. -/
def newIface (dst : Nat) (entry : Listed) : IfaceInfo :=
  ⟨some entry.port, entry.quota, if entry.port = dst then max entry.quota headCount else
    entry.quota⟩

/-- The start of a new flow, on the interface of its port or else on the first one, which then gets
the longer run. -/
def startAt (flow : Flow) : Option Nat → Flow
  | some i => { flow with aggrCurIface := i }
  | none =>
    let info := flow.ifaceInfo 0
    { flow.setIface 0 { info with packetCount := max info.packetCount headCount }
      with aggrCurIface := 0 }

/-- `hyfi_aggr_new_flow`, where the lookups return the ports named. -/
def newFlow (flow : Flow) (hae : HatblEntry) : Flow :=
  let infos := hae.listed.map (newIface flow.dst)
  let flow := { flow with ifaceInfo := fun i => infos.getD i ⟨none, 0, 0⟩ }
  if hae.listed = [] then { flow with txEntry := false }
  else
    let flow := { flow with txEntry := true, aggrCurSeq := 0, numIfs := hae.listed.length }
    flow.startAt
      ((List.range hae.listed.length).reverse.find? fun i =>
        decide ((flow.ifaceInfo i).dst = some flow.dst))

end Flow

/-- What happens to a flow: `hyfi_hatbl_update`, and a packet in `hyfi_bridge_handle_ha`. -/
inductive Call
  | hatblUpdate (hae : HatblEntry)
  | packet (protocol : BitVec 16)

/-- A call. An entry that is not aggregated, before and after, gets its first port. -/
def Call.step (flow : Flow) : Call → Option (Flow × Option Sent)
  | .hatblUpdate hae =>
    if flow.txEntry then (flow.updateFlow hae).map fun flow => (flow, none)
    else if hae.aggrEntry then some (flow.newFlow hae, none)
    else some (match hae.listed with
      | [] => flow
      | entry :: _ => { flow with dst := entry.port }, none)
  | .packet protocol =>
    if flow.txEntry then some ((flow.handleTxPath protocol).1, some (flow.handleTxPath protocol).2)
    else some (flow, some ⟨some flow.dst, none⟩)

/-! ### What is promised -/

/-- A flow with the list installed last, and what is left of the announced run on a port. -/
structure Watched where
  flow : Flow
  portList : List Listed
  runPort : Option Nat
  runLeft : Nat

/-- What an update stops. -/
def HatblEntry.stops (hae : HatblEntry) : Bool := !hae.aggrEntry || hae.listed.all fun entry =>
    decide (entry.quota = 0)

/-- A call, and what it announces. -/
def Watched.step (watched : Watched) (call : Call) : Option Watched :=
  (call.step watched.flow).map fun (flow, _) =>
    match call with
    | .packet _ => { watched with flow := flow, runLeft := watched.runLeft - 1 }
    | .hatblUpdate hae =>
      if watched.flow.txEntry then
        if hae.stops then
          ⟨flow, [], (watched.flow.ifaceInfo watched.flow.aggrCurIface).dst, tailCount⟩
        else ⟨flow, hae.listed, none, 0⟩
      else if hae.aggrEntry then
        ⟨flow, hae.listed, (flow.ifaceInfo flow.aggrCurIface).dst, headCount⟩
      else { watched with flow := flow }

/-- Packets one after the other, each with its protocol, and their ports. -/
def packets (protocols : List (BitVec 16)) (flow : Flow) : List (Option Nat) × Flow :=
  RoundRobin.serving (fun protocol flow => (Flow.handleTxPath protocol flow).1)
    (fun protocol flow => (Flow.handleTxPath protocol flow).2.dst) protocols flow

/-- **The quotas are honoured** in the rounds after the current turn, whatever the protocols of the
packets. -/
def RoundsHonoured (flow : Flow) (portList : List Listed) : Prop :=
  ∀ rest full : List (BitVec 16), rest.length = (flow.ifaceInfo flow.aggrCurIface).packetCount →
    let turned := (packets rest flow).2
    let round := packets full turned
    (turned.txEntry = true ↔ ∃ entry ∈ portList, entry.quota ≠ 0) ∧
      (turned.txEntry = true →
        full.length = ((List.range maxIface).map fun j => (turned.ifaceInfo j).packetQuota).sum →
        (∀ entry ∈ portList, round.1.count (some entry.port) = entry.quota) ∧
          round.2.ifaceInfo = turned.ifaceInfo ∧ round.2.aggrCurIface = turned.aggrCurIface ∧
          round.2.txEntry = true)

/-- What an update has to meet: it lists no port twice and none that is new, and the current one
with a quota; and the count that is carried over does not come to zero in 8 bits. -/
structure Fits (flow : Flow) (hae : HatblEntry) : Prop where
  once : (hae.listed.map (·.port)).Nodup
  known : ∀ entry ∈ hae.listed, ∃ j < maxIface, (flow.ifaceInfo j).dst = some entry.port
  current : ∃ entry ∈ hae.listed, entry.quota ≠ 0 ∧ (flow.ifaceInfo flow.aggrCurIface).dst =
    some entry.port ∧
    ((flow.ifaceInfo flow.aggrCurIface).packetQuota < entry.quota →
      (entry.quota + (flow.ifaceInfo flow.aggrCurIface).packetCount + 256 -
        (flow.ifaceInfo flow.aggrCurIface).packetQuota) % 256 ≠ 0)

/-- What a call has to meet: no update comes after a stop until the flow has ended. -/
def Meets (flow : Flow) : Call → Prop
  | .packet _ => True
  | .hatblUpdate hae =>
    if flow.txEntry then flow.aggrCurIface < maxIface ∧ (hae.stops = false → Fits flow hae)
    else hae.aggrEntry = true → (hae.listed.map (·.port)).Nodup

/-! ### A turn -/

section Turns

/-- The interface whose turn is next. -/
def nextTurn (count : Nat → Nat) (cur : Nat) : Option Nat :=
  [(cur + 1) % 3, (cur + 2) % 3, cur].find? fun j => decide (count j ≠ 0)

/-- The interfaces with a count, in the order of their turns. -/
def order (count : Nat → Nat) (cur : Nat) : List Nat :=
  [cur, (cur + 1) % 3, (cur + 2) % 3].filter fun j => decide (count j ≠ 0)

variable {flow : Flow} {count : Nat → Nat} {cur : Nat}

theorem lt_three {cur : Nat} (inside : cur < 3) : cur = 0 ∨ cur = 1 ∨ cur = 2 := by omega

/-- **The loop** finds the interface whose turn is next, or ends the flow. -/
theorem skipEmpty_spec (inside : cur < 3)
    (isCount : ∀ j < 3, (flow.ifaceInfo j).packetCount = count j) :
    Flow.skipEmpty 6 false { flow with aggrCurIface := (cur + 1) % 3 } =
      match nextTurn count cur with
      | some j => { flow with aggrCurIface := j }
      | none => { flow with aggrCurIface := 0, txEntry := false } := by
  have zero := isCount 0 (by omega)
  have one := isCount 1 (by omega)
  have two := isCount 2 (by omega)
  rcases lt_three inside with rfl | rfl | rfl <;> by_cases none0 : count 0 = 0 <;> by_cases none1 :
      count 1 = 0 <;>
    by_cases none2 : count 2 = 0 <;>
      simp [Flow.skipEmpty, nextTurn, maxIface, zero, one, two, none0, none1, none2]

/-- The next turn is that of the second in the order. -/
theorem order_next (inside : cur < 3) (some' : count cur ≠ 0) :
    ∃ j, nextTurn count cur = some j ∧ j < 3 ∧ count j ≠ 0 ∧ order count j =
        (order count cur).tail ++ [cur] := by
  rcases lt_three inside with rfl | rfl | rfl <;> by_cases none0 : count 0 = 0 <;> by_cases none1 :
      count 1 = 0 <;>
    by_cases none2 : count 2 = 0 <;> simp_all [nextTurn, order]

end Turns

/-! ### Packets -/

namespace Flow

/-- The quotas of a flow. -/
def quota (flow : Flow) (j : Nat) : Nat := (flow.ifaceInfo j).packetQuota

/-- The current interface. -/
def here (flow : Flow) : IfaceInfo := flow.ifaceInfo flow.aggrCurIface

/-- **A flow in its turns:** only the current interface has used some of its quota. -/
structure Turning (flow : Flow) : Prop where
  tx : flow.txEntry = true
  cur : flow.aggrCurIface < 3
  full : ∀ j < 3, j ≠ flow.aggrCurIface → (flow.ifaceInfo j).packetCount = flow.quota j
  left : 0 < flow.here.packetCount
  small : flow.here.packetCount < 256

variable {flow : Flow} {protocol : BitVec 16}

/-- A packet in the middle of a turn. -/
def served (protocol : BitVec 16) (flow : Flow) : Flow :=
  (flow.tagPacket protocol).setIface flow.aggrCurIface
    { flow.here with packetCount := flow.here.packetCount - 1 }

/-- The interfaces at the end of a turn. -/
def refill (protocol : BitVec 16) (flow : Flow) : Flow :=
  (flow.tagPacket protocol).setIface flow.aggrCurIface
    { flow.here with packetCount := flow.here.packetQuota }

theorem Turning.sent (turning : flow.Turning) : (flow.handleTxPath protocol).2 =
    ⟨flow.here.dst, flow.tagOf protocol⟩ := by
  have cur := turning.cur
  unfold handleTxPath
  rw [if_neg (show ¬ flow.aggrCurIface = maxIface from Nat.ne_of_lt cur)]
  rfl

theorem Turning.packet_more (turning : flow.Turning) (more : flow.here.packetCount ≠ 1) :
    (flow.handleTxPath protocol).1 = (flow.served protocol) := by
  have cur := turning.cur
  have left := turning.left
  have small := turning.small
  unfold handleTxPath
  rw [if_neg (show ¬ flow.aggrCurIface = maxIface from Nat.ne_of_lt cur)]
  have count : (flow.here.packetCount + 255) % 256 = flow.here.packetCount - 1 := by omega
  show (if (flow.here.packetCount + 255) % 256 = 0 then _ else _) = _
  rw [if_neg (by omega)]
  show (flow.tagPacket protocol).setIface flow.aggrCurIface
    { flow.here with packetCount := (flow.here.packetCount + 255) % 256 } = _
  rw [count]
  rfl

theorem refill_count (full : ∀ j < 3, j ≠ flow.aggrCurIface →
    (flow.ifaceInfo j).packetCount = flow.quota j) :
    ∀ j < 3, ((flow.refill protocol).ifaceInfo j).packetCount = flow.quota j := by
  intro j inside
  show (Function.update flow.ifaceInfo flow.aggrCurIface _ j).packetCount = _
  by_cases isCur : j = flow.aggrCurIface
  · rw [isCur, Function.update_self]
    rfl
  · rw [Function.update_of_ne isCur]
    exact full j inside isCur

/-- The last packet of a turn, and the end of the turn. -/
theorem endTurn_eq (count : Nat) :
    ((flow.tagPacket protocol).setIface flow.aggrCurIface
      { flow.here with packetCount := count }).endTurn =
      skipEmpty 6 false { (flow.refill protocol) with
        aggrCurIface := if flow.aggrCurIface + 1 ≥ maxIface then 0 else
            flow.aggrCurIface + 1 } := by
  unfold endTurn refill setIface
  dsimp only
  rw [show (flow.tagPacket protocol).aggrCurIface = flow.aggrCurIface from rfl,
    Function.update_self, Function.update_idem]

theorem Turning.packet_last (turning : flow.Turning) (last : flow.here.packetCount = 1) :
    (flow.handleTxPath protocol).1 =
      match nextTurn flow.quota flow.aggrCurIface with
      | some j => { (flow.refill protocol) with aggrCurIface := j }
      | none => { (flow.refill protocol) with aggrCurIface := 0, txEntry := false } := by
  have cur := turning.cur
  have next : (if flow.aggrCurIface + 1 ≥ maxIface then 0 else flow.aggrCurIface + 1) =
      (flow.aggrCurIface + 1) % 3 := by
    unfold maxIface
    split <;> omega
  unfold handleTxPath
  rw [if_neg (show ¬ flow.aggrCurIface = maxIface from Nat.ne_of_lt cur)]
  show (if (flow.here.packetCount + 255) % 256 = 0 then _ else _) = _
  rw [if_pos (by rw [last]), ← skipEmpty_spec cur (refill_count turning.full), ← next]
  exact endTurn_eq _

/-- The quotas stay. -/
theorem served_quota : (flow.served protocol).quota = flow.quota ∧
    (flow.refill protocol).quota = flow.quota := by
  constructor
  all_goals
    funext j
    show (Function.update flow.ifaceInfo flow.aggrCurIface _ j).packetQuota = _
    by_cases isCur : j = flow.aggrCurIface
    · rw [isCur, Function.update_self]
      rfl
    · rw [Function.update_of_ne isCur]
      rfl

/-- The ports stay. -/
theorem served_dst (j : Nat) : ((flow.served protocol).ifaceInfo j).dst = (flow.ifaceInfo j).dst ∧
    ((flow.refill protocol).ifaceInfo j).dst = (flow.ifaceInfo j).dst := by
  constructor
  all_goals
    show (Function.update flow.ifaceInfo flow.aggrCurIface _ j).dst = _
    by_cases isCur : j = flow.aggrCurIface
    · rw [isCur, Function.update_self]
      rfl
    · rw [Function.update_of_ne isCur]

theorem Turning.served (turning : flow.Turning) (more : flow.here.packetCount ≠ 1) :
    (flow.served protocol).Turning := by
  have left := turning.left
  have small := turning.small
  have here : (flow.served protocol).here =
    { flow.here with packetCount := flow.here.packetCount - 1 } := Function.update_self ..
  refine ⟨turning.tx, turning.cur, fun j inside notCur => ?_, ?_, ?_⟩
  · rw [served_quota.1, ← turning.full j inside notCur]
    exact congrArg IfaceInfo.packetCount (Function.update_of_ne notCur ..)
  · rw [here]
    show 0 < flow.here.packetCount - 1
    omega
  · rw [here]
    show flow.here.packetCount - 1 < 256
    omega

/-- The beginning of the turn of an interface with a quota. -/
theorem Turning.refill (turning : flow.Turning) (bounded : ∀ j < 3, flow.quota j < 256) {j : Nat}
    (inside : j < 3) (some' : flow.quota j ≠ 0) :
    ({ (flow.refill protocol) with aggrCurIface := j } : Flow).Turning ∧
      ({ (flow.refill protocol) with aggrCurIface := j } : Flow).here.packetCount =
          flow.quota j := by
  have counts : ∀ j < 3, ((flow.refill protocol).ifaceInfo j).packetCount = flow.quota j :=
    refill_count turning.full
  have here : ({ (flow.refill protocol) with aggrCurIface := j } : Flow).here.packetCount =
    flow.quota j := counts j inside
  refine ⟨⟨turning.tx, inside, fun k inside' _ => ?_, ?_, ?_⟩, here⟩
  · exact (counts k inside').trans (congrFun served_quota.2 k).symm
  · rw [here]
    omega
  · rw [here]
    exact bounded j inside

end Flow

end Qsdk.TxAggr
