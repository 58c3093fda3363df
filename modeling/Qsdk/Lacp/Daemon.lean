/-
**An instance of the daemon.**

Devices join an instance and leave it, links go up and down, LACPDUs come in and timers expire, in
any order, and meanwhile anything may happen to the devices (`Event`). All of this schedules runs of
the machines of a port.
-/

import Qsdk.Lacp.Machines

namespace Qsdk.Lacpd

open Qsdk.Lacp (AdSelect)

variable {World : Type} (api : OutApi World)

/-! ### Keys -/

/-- `lacp_port_key_make`. -/
def keyMake (userKey speed duplex : BitVec 32) : BitVec 16 :=
    ((userKey <<< 6) ||| (speed <<< 1) ||| duplex).setWidth 16

/-- `lacp_port_key_get_user`. -/
def keyGetUser (key : BitVec 16) : BitVec 32 := (key.setWidth 32 >>> 6) &&& 0x3ff

/-- `lacpd_port_speed_to_key`. -/
def speedToKey (speed : BitVec 32) : BitVec 32 :=
  match [1, 10, 100, 1000, 10000].findIdx? (· == speed) with
  | some idx => 1 <<< idx
  | none => 0

/-! ### Ports -/

/-- `lacpd_port_initialize_manageable_variable`: `actor_admin_port_info`. -/
def adminPortInfo (lacp : Lacp World) (portNum userKey : BitVec 32) : PortInfo :=
  { systemPriority := lacp.actorSystemPriority
    system := lacp.actorSystem
    key := keyMake userKey 8 1
    portPriority := 0xff
    port := portNum.setWidth 16
    state :=
      { InfoState.none with activity := true, timeout := lacp.lacpRate, aggregation := true } }

/-- `lacpd_port_initialize_manageable_variable`: `partner_admin_port_info`. -/
def partnerAdminPortInfo : PortInfo :=
  { PortInfo.zero with
    systemPriority := 0xffff
    portPriority := 0xff
    state := { InfoState.none with activity := true } }

/-- The key and whether the port aggregates, from the speed and the duplex mode of its device. -/
def linkInfo (lacp : Lacp World) (dev : BitVec 32) (info : PortInfo) : PortInfo :=
  let duplex := api.getDevDuplex lacp.world dev
  { info with
    key := keyMake (keyGetUser info.key) (speedToKey (api.getDevSpeed lacp.world dev)) duplex
    state := { info.state with aggregation := duplex != 0 } }

/-- `lacpd_port_new`. -/
def portNew (lacp : Lacp World) (dev userKey : BitVec 32) : Port :=
  { devIfindex := dev
    partnerAdminPortInfo := partnerAdminPortInfo
    actorPortInfo := linkInfo api lacp dev (adminPortInfo lacp lacp.nextPortAggId userKey)
    partnerPortInfo := partnerAdminPortInfo
    actorPortAggregatorIdentifier := 0
    ntt := false
    portEnabled := api.getDevLinkStatus lacp.world dev
    lacpEnabled := true
    readyN := false
    selected := .unselected
    portMoved := false
    lacpduIndicate := false
    message := .zero
    initialized := false
    runnerPending := false
    receive := .initializing
    currentWhilePending := false
    periodic := .noPeriodic
    periodicPending := false
    selection := .unselected
    mux := .detached
    waitWhilePending := false
    transmit := .noTx
    rateLimitPending := true
    pktSent := 0 }

/-- `lacpd_aggregator_new`. -/
def aggregatorNew : Aggregator :=
  { ports := []
    individualAggregator := false
    actorOperAggregatorKey := 0
    partnerSystem := 0
    partnerSystemPriority := 0
    partnerOperAggregatorKey := 0
    isFree := true
    devIfindex := 0
    ready := false }

namespace Lacp

variable (lacp : Lacp World)

/-- `lacpd_port_fsm_schedule_run`. -/
def scheduleRun (id : PortId) : Lacp World := lacp.setPort id ({ · with runnerPending := true })

/-- `lacpd_port_lookup`. -/
def portLookup (dev : BitVec 32) : Option PortId :=
  if dev = 0 then none else lacp.ports.find? fun id => (lacp.port id).devIfindex == dev

/-- A port and an aggregator are added. -/
def join (port : Port) (isNext : lacp.nextPortAggId ≠ 0) : Lacp World :=
  { lacp with
    ports := lacp.ports ++ [lacp.nextPortAggId.toNat]
    port := Function.update lacp.port lacp.nextPortAggId.toNat port
    aggregators := lacp.aggregators ++ [lacp.nextPortAggId]
    aggregator := Function.update lacp.aggregator lacp.nextPortAggId aggregatorNew
    nextPortAggId := lacp.nextPortAggId + 1
    unique := by
      refine List.nodup_append.mpr ⟨lacp.unique, List.nodup_singleton _,
        fun id member other isNext' same => ?_⟩
      obtain rfl := List.mem_singleton.mp isNext'
      rcases (lacp.named id member).2 with wrapped | below
      · exact isNext wrapped
      · rw [same] at below
        exact Nat.lt_irrefl _ below
    named := by
      have later : lacp.nextPortAggId + 1 = 0 ∨
          lacp.nextPortAggId.toNat < (lacp.nextPortAggId + 1).toNat := by bv_omega
      intro id member
      rcases List.mem_append.mp member with isOld | isNew
      · obtain ⟨nonzero, bound⟩ := lacp.named id isOld
        refine ⟨nonzero, ?_⟩
        rcases bound with wrapped | below
        · exact absurd wrapped isNext
        · exact later.imp_right fun less => Nat.lt_trans below less
      · obtain rfl := List.mem_singleton.mp isNew
        exact ⟨isNext, later⟩ }

/-- `lacpd_add_device`. Whether the allocations for the port and for the aggregator succeed is
given. -/
def addDevice (dev userKey : BitVec 32) (portAllocated aggregatorAllocated : Bool) : Lacp World :=
  if (lacp.portLookup dev).isSome then lacp
  else if isNext : lacp.nextPortAggId = 0 then lacp
  else if dev = 0 ∨ portAllocated = false ∨ api.getDevMacAddr lacp.world dev = false ∨
      aggregatorAllocated = false then
    lacp
  else
    let joined := lacp.join (portNew api lacp dev userKey) isNext
    ({ joined with world := api.enableLacp joined.world dev } : Lacp World).scheduleRun
    lacp.nextPortAggId.toNat

/-- `lacpd_port_destroy`, but for the memory. -/
def portDestroy (id : PortId) : Lacp World :=
  match lacp.aggregatorLookup (byId (lacp.port id).actorPortAggregatorIdentifier) with
  | none => lacp
  | some agg => (lacp.detachPort api agg id).delPort agg id

/-- `lacpd_aggregator_destroy`, but for the memory. -/
def aggregatorDestroy (agg : AggregatorId) : Lacp World :=
  (lacp.aggregator agg).ports.foldl
    (fun lacp port => (lacp.detachPort api agg port).delPort agg port) lacp

/-- `list_del` of an aggregator. -/
def unlinkAggregator (agg : AggregatorId) : Lacp World :=
  { lacp with
    aggregators := lacp.aggregators.erase agg
    unique := lacp.unique.erase agg
    named := fun id member => lacp.named id (List.mem_of_mem_erase member) }

/-- `lacpd_del_device`. -/
def delDevice (dev : BitVec 32) : Lacp World :=
  match lacp.portLookup dev with
  | none => lacp
  | some id =>
    let disabled : Lacp World :=
      { lacp with world := api.disableLacp lacp.world dev, ports := lacp.ports.erase id }
    let left := disabled.portDestroy api id
    match left.aggregatorLookup left.byFree with
    | none => left
    | some agg => (left.unlinkAggregator agg).aggregatorDestroy api agg

/-- `lacpd_link_status_changed`. -/
def linkStatusChanged (dev : BitVec 32) (newStatus : Bool) : Lacp World :=
  match lacp.ports.find? fun id => (lacp.port id).devIfindex == dev with
  | none => lacp
  | some id =>
    (lacp.setPort id fun port =>
      { port with
        actorPortInfo := linkInfo api lacp port.devIfindex port.actorPortInfo
        portEnabled := newStatus
        initialized := false }).scheduleRun id

/-- `lacpd_receive_lacpdu`. -/
def receiveLacpdu (dev : BitVec 32) (pkt : Lacpdu) : Lacp World :=
  match lacp.ports.find? fun id => (lacp.port id).devIfindex == dev with
  | none => lacp
  | some id => (lacp.setPort id ({ · with message := pkt, lacpduIndicate := true })).scheduleRun id

/-- `lacpd_fsm_mux_wait_while_timer_cb`. -/
def waitWhileTimerCb (id : PortId) : Lacp World :=
  if (lacp.port id).mux ≠ .waiting then lacp
  else
    match lacp.aggregatorLookup (byId (lacp.port id).actorPortAggregatorIdentifier) with
    | none => lacp
    | some agg => ((lacp.setPort id ({ · with readyN := true })).updateReady agg).scheduleRun id

end Lacp

/-! ### Runs -/

/-- What happens to an instance. A timer is one of a port's. -/
inductive Event (World : Type)
  | addDevice (dev userKey : BitVec 32) (portAllocated aggregatorAllocated : Bool)
  | delDevice (dev : BitVec 32)
  | linkStatusChanged (dev : BitVec 32) (newStatus : Bool)
  | receiveLacpdu (dev : BitVec 32) (pkt : Lacpdu)
  | runner (fuel rounds : Nat) (id : PortId)
  | currentWhile (id : PortId)
  | periodic (id : PortId)
  | waitWhile (id : PortId)
  | rateLimit (id : PortId)
  | environment (world : World)

namespace Lacp

/-- A timer of a port expires: it is not pending any more when its callback runs. -/
def expire (lacp : Lacp World) (id : PortId) (pending : Port → Bool) (expired : Port → Port)
    (callback : Lacp World → Option (Lacp World)) : Option (Lacp World) :=
  if id ∈ lacp.ports ∧ pending (lacp.port id) = true then
    callback (lacp.setPort id expired) else none

/-- An event. A timer that is not pending does not expire. -/
def step (lacp : Lacp World) : Event World → Option (Lacp World)
  | .addDevice dev userKey portAllocated aggregatorAllocated =>
    some (lacp.addDevice api dev userKey portAllocated aggregatorAllocated)
  | .delDevice dev => some (lacp.delDevice api dev)
  | .linkStatusChanged dev newStatus => some (lacp.linkStatusChanged api dev newStatus)
  | .receiveLacpdu dev pkt => some (lacp.receiveLacpdu dev pkt)
  | .runner fuel rounds id =>
    lacp.expire id (·.runnerPending) ({ · with runnerPending := false })
      (runnerRun api fuel rounds id)
  | .currentWhile id =>
    lacp.expire id (·.currentWhilePending) ({ · with currentWhilePending := false }) fun lacp =>
      some (lacp.scheduleRun id)
  | .periodic id =>
    lacp.expire id (·.periodicPending) ({ · with periodicPending := false }) fun lacp =>
      some (lacp.scheduleRun id)
  | .waitWhile id =>
    lacp.expire id (·.waitWhilePending) ({ · with waitWhilePending := false }) fun lacp =>
      some (lacp.waitWhileTimerCb id)
  | .rateLimit id =>
    lacp.expire id (·.rateLimitPending) ({ · with pktSent := 0 }) fun lacp =>
      some (lacp.scheduleRun id)
  | .environment world => some { lacp with world }

/-- `lacp_new`. -/
def new (adSelect : AdSelect) (lacpRate : Bool) (actorSystem : BitVec 48)
    (actorSystemPriority : BitVec 16) (world : World) (port : Port) : Lacp World where
  adSelect := adSelect
  lacpRate := lacpRate
  actorSystem := actorSystem
  actorSystemPriority := actorSystemPriority
  ports := []
  port := fun _ => port
  aggregators := []
  aggregator := fun _ => aggregatorNew
  nextPortAggId := 1
  activeAggregator := 0
  world := world
  sent := []
  unique := List.nodup_nil
  named := fun _ member => absurd member List.not_mem_nil

/-- The states of an instance between its events. -/
inductive Reachable : Lacp World → Prop
  | new (adSelect : AdSelect) (lacpRate : Bool) (actorSystem : BitVec 48)
    (actorSystemPriority : BitVec 16)
      (world : World) (port : Port) :
      Reachable (new adSelect lacpRate actorSystem actorSystemPriority world port)
  | step {lacp next : Lacp World} (reachable : Reachable lacp) (event : Event World)
      (isNext : lacp.step api event = some next) : Reachable next

end Lacp

end Qsdk.Lacpd
