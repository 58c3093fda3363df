/-
**The state machines of a port.**

Each port of an LACP instance runs five machines: they receive LACPDUs, time the periodic ones,
select an aggregator, attach the port's device to the aggregator's, and transmit. The machines of a
port share the port and the aggregators of the instance, and what they do to the devices goes
through `out_api`, of which nothing is known here.
-/

import Qsdk.Lacp.Selection
import Qsdk.Lib.Runner
import Mathlib.Logic.Function.Basic

namespace Qsdk.Lacpd

open Qsdk.Lacp (AdSelect macAddrIsEmpty)
open Runner (Entry)

/-! ### Ports and aggregators -/

/-- `struct lacpd_port_info_state`. -/
structure InfoState where
  activity : Bool
  timeout : Bool
  aggregation : Bool
  synchronization : Bool
  collecting : Bool
  distributing : Bool
  defaulted : Bool
  expired : Bool
deriving DecidableEq, Inhabited

/-- `struct lacpd_port_info`. -/
structure PortInfo where
  systemPriority : BitVec 16
  system : BitVec 48
  key : BitVec 16
  portPriority : BitVec 16
  port : BitVec 16
  state : InfoState
deriving DecidableEq, Inhabited

def InfoState.none : InfoState := ⟨false, false, false, false, false, false, false, false⟩

/-- `port_info_equal`, with the masks of the fields of the state. The callers ignore no other
field. -/
def portInfoEqual (a b : PortInfo) (ignore : InfoState) : Bool :=
  a.systemPriority == b.systemPriority && a.system == b.system && a.key == b.key &&
    a.portPriority == b.portPriority && a.port == b.port &&
    (ignore.activity || a.state.activity == b.state.activity) &&
    (ignore.timeout || a.state.timeout == b.state.timeout) &&
    (ignore.aggregation || a.state.aggregation == b.state.aggregation) &&
    (ignore.synchronization || a.state.synchronization == b.state.synchronization) &&
    (ignore.collecting || a.state.collecting == b.state.collecting) &&
    (ignore.distributing || a.state.distributing == b.state.distributing) &&
    (ignore.defaulted || a.state.defaulted == b.state.defaulted) &&
    (ignore.expired || a.state.expired == b.state.expired)

/-- `ignore_all_states_except(aggregation)`. -/
def ignoreAllButAggregation : InfoState := ⟨true, true, false, true, true, true, true, true⟩

/-- `ignore_states(collecting, distributing, defaulted, expired)`. -/
def ignoreProgress : InfoState := ⟨false, false, false, false, true, true, true, true⟩

/-- `struct lacpdu`: the type and length of its two port informations, and these as
`lacpdu_get_port_info` reads them. -/
structure Lacpdu where
  subtype : BitVec 8
  versionNumber : BitVec 8
  actorType : BitVec 8
  actorLength : BitVec 8
  actor : PortInfo
  partnerType : BitVec 8
  partnerLength : BitVec 8
  partner : PortInfo
deriving DecidableEq, Inhabited

def PortInfo.zero : PortInfo := ⟨0, 0, 0, 0, 0, .none⟩

/-- After `memset`. -/
def Lacpdu.zero : Lacpdu := ⟨0, 0, 0, 0, .zero, 0, 0, .zero⟩

/-- `lacpdu_validate`. A port information has 20 bytes. -/
def lacpduValidate (pkt : Lacpdu) : Bool :=
  pkt.subtype == 1 && pkt.versionNumber == 1 && pkt.actorType == 1 && pkt.actorLength == 20 &&
    pkt.partnerType == 2 && pkt.partnerLength == 20

/-- `enum lacpd_port_selecte_state`. -/
inductive Selected
  | selected
  | unselected
  | standby
deriving DecidableEq, Inhabited

inductive ReceiveState
  | initializing
  | portDisabled
  | expired
  | lacpDisabled
  | defaulted
  | current
deriving DecidableEq, Inhabited

inductive PeriodicState
  | noPeriodic
  | fastPeriodic
  | slowPeriodic
  | periodicTx
deriving DecidableEq, Inhabited

inductive SelectionState
  | unselected
  | selected
deriving DecidableEq, Inhabited

inductive MuxState
  | detached
  | waiting
  | attached
  | collectingDistributing
deriving DecidableEq, Inhabited

inductive TransmitState
  | noTx
  | tx
  | disabled
deriving DecidableEq, Inhabited

/-- A pointer to a port. -/
abbrev PortId := Nat

/-- A pointer to an aggregator. The identifiers of the aggregators are unique. -/
abbrev AggregatorId := BitVec 32

/-- `struct lacpd_port`, with the states of its machines and whether their timers are pending. -/
structure Port where
  devIfindex : BitVec 32
  partnerAdminPortInfo : PortInfo
  actorPortInfo : PortInfo
  partnerPortInfo : PortInfo
  actorPortAggregatorIdentifier : AggregatorId
  ntt : Bool
  portEnabled : Bool
  lacpEnabled : Bool
  readyN : Bool
  selected : Selected
  portMoved : Bool
  lacpduIndicate : Bool
  message : Lacpdu
  /-- `runner.initialized`, and its timer. -/
  initialized : Bool
  runnerPending : Bool
  receive : ReceiveState
  currentWhilePending : Bool
  periodic : PeriodicState
  periodicPending : Bool
  selection : SelectionState
  mux : MuxState
  waitWhilePending : Bool
  transmit : TransmitState
  rateLimitPending : Bool
  pktSent : Nat
deriving Inhabited

/-- `struct lacpd_aggregator`. -/
structure Aggregator where
  ports : List PortId
  individualAggregator : Bool
  actorOperAggregatorKey : BitVec 16
  partnerSystem : BitVec 48
  partnerSystemPriority : BitVec 16
  partnerOperAggregatorKey : BitVec 16
  isFree : Bool
  devIfindex : BitVec 32
  ready : Bool

/-- `struct lacpd_lacp`. The identifiers of the aggregators are below the next one, until that has
wrapped to zero. -/
structure Lacp (World : Type) where
  adSelect : AdSelect
  lacpRate : Bool
  actorSystem : BitVec 48
  actorSystemPriority : BitVec 16
  ports : List PortId
  port : PortId → Port
  aggregators : List AggregatorId
  aggregator : AggregatorId → Aggregator
  nextPortAggId : BitVec 32
  activeAggregator : AggregatorId
  world : World
  /-- The LACPDUs that were sent, the last one first. -/
  sent : List (PortId × Lacpdu)
  unique : aggregators.Nodup
  named : ∀ id ∈ aggregators, id ≠ 0 ∧ (nextPortAggId = 0 ∨ id.toNat < nextPortAggId.toNat)

/-- `struct lacp_out_api`. -/
structure OutApi (World : Type) where
  getDevDuplex : World → BitVec 32 → BitVec 32
  getDevSpeed : World → BitVec 32 → BitVec 32
  getDevLinkStatus : World → BitVec 32 → Bool
  getDevMacAddr : World → BitVec 32 → Bool
  isSlave : World → BitVec 32 → BitVec 32 → Bool
  numberOfSlaves : World → BitVec 32 → Nat
  newAggregator : World → AggregatorId → BitVec 32 × World
  destroyAggregator : World → BitVec 32 → Bool × World
  attachSlave : World → BitVec 32 → BitVec 32 → Bool × World
  detachSlave : World → BitVec 32 → BitVec 32 → Bool × World
  enableDev : World → BitVec 32 → World
  disableDev : World → BitVec 32 → World
  enableLacp : World → BitVec 32 → World
  disableLacp : World → BitVec 32 → World
  sendLacpdu : World → BitVec 32 → Lacpdu → World

variable {World : Type} (api : OutApi World)

namespace Lacp

variable (lacp : Lacp World)

def setPort (id : PortId) (change : Port → Port) : Lacp World :=
  { lacp with port := Function.update lacp.port id (change (lacp.port id)) }

def setAggregator (id : AggregatorId) (change : Aggregator → Aggregator) : Lacp World :=
  { lacp with aggregator := Function.update lacp.aggregator id (change (lacp.aggregator id)) }

/-- `lacpd_aggregator_lookup`. -/
def aggregatorLookup (func : AggregatorId → Bool) : Option AggregatorId :=
    lacp.aggregators.find? func

/-- `lacpd_aggregator_selector_by_id`. -/
def byId (id : AggregatorId) (agg : AggregatorId) : Bool := agg != 0 && id != 0 && agg == id

/-- `lacpd_aggregator_selector_by_free`. -/
def byFree (agg : AggregatorId) : Bool := (lacp.aggregator agg).isFree

/-- `lacpd_fsm_select_aggregator_by_port`. -/
def byPort (port : Port) (agg : AggregatorId) : Bool :=
  !(lacp.aggregator agg).isFree && !(lacp.aggregator agg).individualAggregator &&
    port.actorPortInfo.key == (lacp.aggregator agg).actorOperAggregatorKey &&
    port.partnerPortInfo.systemPriority == (lacp.aggregator agg).partnerSystemPriority &&
    port.partnerPortInfo.system == (lacp.aggregator agg).partnerSystem &&
    port.partnerPortInfo.key == (lacp.aggregator agg).partnerOperAggregatorKey

/-- `lacpd_fsm_select_aggregator_by_slave_dev`. -/
def bySlaveDev (dev : BitVec 32) (agg : AggregatorId) : Bool :=
  if (lacp.aggregator agg).devIfindex = 0 ∨ dev = 0 then false
  else api.isSlave lacp.world dev (lacp.aggregator agg).devIfindex

/-! ### Members of an aggregator -/

/-- `lacpd_aggregator_clear`. -/
def clear (agg : Aggregator) : Aggregator :=
  { agg with
    individualAggregator := false
    actorOperAggregatorKey := 0
    partnerSystem := 0
    partnerSystemPriority := 0
    partnerOperAggregatorKey := 0
    isFree := true
    ready := false }

/-- `lacpd_aggregator_init_by_port`. -/
def initByPort (port : Port) (agg : Aggregator) : Aggregator :=
  { agg with
    individualAggregator := !port.actorPortInfo.state.aggregation ||
      macAddrIsEmpty port.partnerPortInfo.system ||
      !port.partnerPortInfo.state.aggregation
    actorOperAggregatorKey := port.actorPortInfo.key
    partnerSystem := port.partnerPortInfo.system
    partnerSystemPriority := port.partnerPortInfo.systemPriority
    partnerOperAggregatorKey := port.partnerPortInfo.key
    isFree := false
    ready := false }

/-- `lacpd_aggregator_update_ready`. -/
def updateReady (agg : AggregatorId) : Lacp World :=
  lacp.setAggregator agg fun it =>
    { it with ready := !it.ports.isEmpty && it.ports.all fun port => (lacp.port port).readyN }

/-- `lacpd_aggregator_add_port`. -/
def addPort (agg : AggregatorId) (port : PortId) : Bool × Lacp World :=
  if (lacp.aggregator agg).ports.contains port then (false, lacp)
  else
    let added := lacp.setAggregator agg fun it =>
      let it' := { it with ports := it.ports ++ [port] }
      if it.ports.isEmpty then initByPort (lacp.port port) it' else it'
    (true, added.updateReady agg)

/-- `lacpd_aggregator_del_port`. -/
def delPort (agg : AggregatorId) (port : PortId) : Lacp World :=
  if (lacp.aggregator agg).ports.contains port then
    let deleted := lacp.setAggregator agg fun it =>
      let it' := { it with ports := it.ports.erase port }
      if it'.ports.isEmpty then clear it' else it'
    deleted.updateReady agg
  else lacp

/-! ### Devices -/

/-- The aggregators as `lacpd_select_active_aggregator` sees them. -/
def view (agg : AggregatorId) : Lacp.Aggregator :=
  { aggregatorIdentifier := agg
    individualAggregator := (lacp.aggregator agg).individualAggregator
    actorOperAggregatorKey := (lacp.aggregator agg).actorOperAggregatorKey
    partnerSystem := (lacp.aggregator agg).partnerSystem
    isFree := (lacp.aggregator agg).isFree
    devIfindex := (lacp.aggregator agg).devIfindex
    ports := (lacp.aggregator agg).ports.map fun port => ⟨(lacp.port port).actorPortInfo.key⟩ }

theorem view_identifiers : (lacp.aggregators.map lacp.view).map (·.aggregatorIdentifier) =
    lacp.aggregators := by
  rw [List.map_map]
  exact List.map_id _

def selection : Qsdk.Lacp.Instance where
  adSelect := lacp.adSelect
  aggregators := lacp.aggregators.map lacp.view
  activeAggregator := lacp.activeAggregator
  unique := by
    rw [view_identifiers]
    exact lacp.unique
  initialized := by
    intro agg member
    obtain ⟨id, isIn, rfl⟩ := List.mem_map.mp member
    exact (lacp.named id isIn).1

/-- `lacpd_select_active_aggregator`, and its calls for the devices. -/
def selectActiveAggregator : Lacp World :=
  let selected := lacp.selection.selectActiveAggregator (api.getDevLinkStatus lacp.world)
  let world := selected.disabled.elim lacp.world (api.disableDev lacp.world)
  { lacp with
    activeAggregator := selected.activeAggregator
    world := selected.enabled.elim world (api.enableDev world) }

def setDevIfindex (agg : AggregatorId) (dev : BitVec 32) : Lacp World :=
  lacp.setAggregator agg fun it => { it with devIfindex := dev }

/-- `lacpd_aggregator_attach_port`, when the aggregator has a device. -/
def attachSlave (agg : AggregatorId) (port : PortId) : Lacp World :=
  if api.isSlave lacp.world (lacp.port port).devIfindex (lacp.aggregator agg).devIfindex then lacp
  else
    let attached := api.attachSlave lacp.world (lacp.aggregator agg).devIfindex
      (lacp.port port).devIfindex
    let lacp := { lacp with world := attached.2 }
    if attached.1 then lacp.selectActiveAggregator api else lacp

/-- `lacpd_aggregator_attach_port`. -/
def attachPort (agg : AggregatorId) (port : PortId) : Lacp World :=
  if (lacp.port port).devIfindex = 0 then lacp
  else if (lacp.aggregator agg).devIfindex = 0 then
    let created := api.newAggregator lacp.world agg
    let lacp := ({ lacp with world := created.2 } : Lacp World).setDevIfindex agg created.1
    if created.1 = 0 then lacp else lacp.attachSlave api agg port
  else lacp.attachSlave api agg port

/-- `lacpd_aggregator_detach_port`. -/
def detachPort (agg : AggregatorId) (port : PortId) : Lacp World :=
  if (lacp.aggregator agg).devIfindex = 0 ∨ (lacp.port port).devIfindex = 0 then lacp
  else if !api.isSlave lacp.world (lacp.port port).devIfindex (lacp.aggregator agg).devIfindex then
    lacp
  else
    let detached := api.detachSlave lacp.world (lacp.aggregator agg).devIfindex
      (lacp.port port).devIfindex
    let lacp := { lacp with world := detached.2 }
    if !detached.1 then lacp
    else
      let lacp := lacp.selectActiveAggregator api
      if 0 < api.numberOfSlaves lacp.world (lacp.aggregator agg).devIfindex then lacp
      else
        let destroyed := api.destroyAggregator lacp.world (lacp.aggregator agg).devIfindex
        let lacp := { lacp with world := destroyed.2 }
        if destroyed.1 then lacp.setDevIfindex agg 0 else lacp

end Lacp

/-! ### The machine that receives -/

/-- An entry that reads and writes only the port. -/
def onPort (id : PortId) (guard : Port → Bool) (enter : Port → Port) : Entry (Lacp World) :=
  .guarded (fun lacp => guard (lacp.port id)) fun lacp => lacp.setPort id enter

namespace Port

variable (port : Port)

/-- `port->selected = LACPD_SEL_STATE_UNSELECTED`. -/
def unselect : Port := { port with selected := .unselected }

def setActorState (change : InfoState → InfoState) : Port :=
  { port with
    actorPortInfo := { port.actorPortInfo with state := change port.actorPortInfo.state } }

def setPartnerState (change : InfoState → InfoState) : Port :=
  { port with
    partnerPortInfo := { port.partnerPortInfo with state := change port.partnerPortInfo.state } }

/-- `lacpd_fsm_receive_act_record_default`. -/
def recordDefault : Port :=
  ({ port with partnerPortInfo := port.partnerAdminPortInfo } : Port).setActorState
    ({ · with defaulted := true })

/-- The entry into `INITIALIZE`. -/
def enterInitialize : Port :=
  ({ port with receive := .initializing, portMoved := false }.unselect.setActorState
    ({ · with expired := false })
    ).recordDefault

/-- The entry into `PORT_DISABLED`. -/
def enterPortDisabled : Port :=
  ({ port with receive := .portDisabled } : Port).setPartnerState
    ({ · with synchronization := false })

/-- The entry into `EXPIRED`. -/
def enterExpired : Port :=
  (({ port with receive := .expired, currentWhilePending := true } : Port).setPartnerState
    ({ · with synchronization := false, timeout := true })).setActorState
    ({ · with expired := true })

/-- The entry into `LACP_DISABLED`. -/
def enterLacpDisabled : Port :=
  ((({ port with receive := .lacpDisabled } : Port).unselect.setPartnerState
    ({ · with aggregation := false })
    ).setActorState ({ · with expired := false })).recordDefault

/-- `lacpd_fsm_receive_act_update_default_selected`. -/
def updateDefaultSelected : Port :=
  if portInfoEqual port.partnerAdminPortInfo port.partnerPortInfo ignoreAllButAggregation then
    port else port.unselect

/-- The entry into `DEFAULTED`. -/
def enterDefaulted : Port :=
  ({ port with receive := .defaulted } : Port).updateDefaultSelected.recordDefault.setActorState
    ({ · with expired := false })

/-- `lacpd_fsm_receive_act_update_selected`. -/
def updateSelected : Port :=
  if portInfoEqual port.message.actor port.partnerPortInfo ignoreAllButAggregation then port else
    port.unselect

/-- `lacpd_fsm_receive_act_update_NTT`. -/
def updateNtt : Port :=
  if portInfoEqual port.message.partner port.actorPortInfo ignoreProgress then port else
    { port with ntt := true }

/-- The partner that `lacpd_fsm_receive_act_record_PDU` records is not in synchronization if the
link is not active, or if the partner aggregates and has other information about this port. -/
def mistaken : Bool :=
  !(port.message.actor.state.activity || port.actorPortInfo.state.activity &&
    port.message.partner.state.activity) ||
    (port.message.actor.state.aggregation &&
      !portInfoEqual port.message.partner port.actorPortInfo ignoreAllButAggregation)

/-- `lacpd_fsm_receive_act_record_PDU`. -/
def recordPdu : Port :=
  let recorded : Port :=
    ({ port with partnerPortInfo := port.message.actor } : Port).setActorState
      ({ · with defaulted := false })
  if recorded.partnerPortInfo.state.synchronization && recorded.mistaken then
    recorded.setPartnerState ({ · with synchronization := false })
  else recorded

/-- `lacpd_fsm_receive_act_CURRENT_set`. -/
def currentSet : Port :=
  ({ port with currentWhilePending := true, message := .zero, lacpduIndicate := false } :
    Port).setActorState
    ({ · with expired := false })

/-- The entry into `CURRENT`. -/
def enterCurrent : Port :=
  ({ port with receive := .current } : Port).updateSelected.updateNtt.recordPdu.currentSet

/-- What `lacpd_fsm_receive_cond_to_CURRENT` does to an LACPDU that is not valid. -/
def validated : Port :=
  if port.lacpduIndicate && !lacpduValidate port.message then
    { port with message := .zero, lacpduIndicate := false }
  else port

/-- `lacpd_fsm_receive_cond_to_CURRENT`. -/
def toCurrent : Bool :=
  port.validated.lacpduIndicate &&
    (port.receive = .expired || port.receive = .defaulted || port.receive = .current)

end Port

/-- `receive_machine_base`. -/
def receiveMachine (id : PortId) : List (Entry (Lacp World)) :=
  [onPort id (fun port => port.receive = .portDisabled && port.portMoved) Port.enterInitialize,
    onPort id (fun port => port.receive = .initializing ||
      (port.receive != .portDisabled && !port.portEnabled && !port.portMoved))
      Port.enterPortDisabled,
    onPort id (fun port => (port.receive = .portDisabled && port.portEnabled && port.lacpEnabled) ||
      (port.receive = .current && !port.currentWhilePending)) Port.enterExpired,
    onPort id (fun port => port.receive = .portDisabled && port.portEnabled && !port.lacpEnabled)
      Port.enterLacpDisabled,
    onPort id (fun port => port.receive = .expired && !port.currentWhilePending)
    Port.enterDefaulted,
    ⟨fun lacp => ((lacp.port id).toCurrent, lacp.setPort id Port.validated),
      fun lacp => lacp.setPort id Port.enterCurrent⟩]

/-! ### Periodic transmission -/

namespace Port

variable (port : Port)

/-- `to_enter_NO_PERIODIC`. -/
def idle : Bool :=
  !port.lacpEnabled || !port.portEnabled ||
    (!port.actorPortInfo.state.activity && !port.partnerPortInfo.state.activity)

end Port

/-- `periodic_transmit_machine_base`. -/
def periodicMachine (id : PortId) : List (Entry (Lacp World)) :=
  [onPort id (fun port => port.periodic != .noPeriodic && port.idle)
      fun port => { port with periodic := .noPeriodic, periodicPending := false },
    onPort id (fun port => (port.periodic = .noPeriodic && !port.idle) ||
        (port.periodic = .periodicTx && port.partnerPortInfo.state.timeout))
      fun port => { port with periodic := .fastPeriodic, periodicPending := true },
    onPort id (fun port => (port.periodic = .periodicTx && !port.partnerPortInfo.state.timeout) ||
        (port.periodic = .fastPeriodic && !port.partnerPortInfo.state.timeout))
      fun port => { port with periodic := .slowPeriodic, periodicPending := true },
    onPort id (fun port => (port.periodic = .fastPeriodic && !port.periodicPending) ||
        (port.periodic = .slowPeriodic &&
          (!port.periodicPending || port.partnerPortInfo.state.timeout)))
      fun port => { port with periodic := .periodicTx, ntt := true }]

/-! ### Selection -/

namespace Lacp

variable (lacp : Lacp World) (id : PortId)

/-- `lacpd_fsm_selection_logic_act_remove_from_aggregator`. -/
def removeFromAggregator : Lacp World :=
  if (lacp.port id).actorPortAggregatorIdentifier = 0 then lacp
  else
    let deleted := match lacp.aggregatorLookup (byId (lacp.port id).actorPortAggregatorIdentifier)
        with
      | some agg => lacp.delPort agg id
      | none => lacp
    deleted.setPort id ({ · with actorPortAggregatorIdentifier := 0 })

/-- The aggregator that `lacpd_fsm_selection_logic_act_add_to_aggregator` selects. -/
def selectedAggregator : Option AggregatorId :=
  let port := lacp.port id
  let fitting :=
    if port.actorPortInfo.state.aggregation && !macAddrIsEmpty port.partnerPortInfo.system &&
        port.partnerPortInfo.state.aggregation then lacp.aggregatorLookup (lacp.byPort port)
    else none
  fitting.or (lacp.aggregatorLookup lacp.byFree)

/-- `lacpd_fsm_selection_logic_act_add_to_aggregator`. -/
def addToAggregator : Lacp World :=
  match lacp.selectedAggregator id with
  | none => lacp
  | some agg =>
    let added := lacp.addPort agg id
    if added.1 then
      added.2.setPort id ({ · with actorPortAggregatorIdentifier := agg, selected := .selected })
    else added.2

end Lacp

/-- The entry into `UNSELECTED`. -/
def enterUnselected (id : PortId) (lacp : Lacp World) : Lacp World :=
  (lacp.setPort id ({ · with selection := .unselected })).removeFromAggregator id

/-- The entry into `SELECTED`. -/
def enterSelected (id : PortId) (lacp : Lacp World) : Lacp World :=
  (lacp.setPort id ({ · with selection := .selected })).addToAggregator id

/-- `selection_machine_base`. -/
def selectionMachine (id : PortId) : List (Entry (Lacp World)) :=
  [.guarded (fun lacp => (lacp.port id).selection = .selected &&
    (lacp.port id).selected != .selected)
      (enterUnselected id),
    .guarded (fun lacp => (lacp.port id).selection = .unselected && (lacp.port id).mux = .detached)
      (enterSelected id)]

/-! ### Attaching to the aggregator -/

namespace Lacp

variable (lacp : Lacp World) (id : PortId)

/-- `lacpd_fsm_mux_act_disable_collecting_distributing`. -/
def disableCollectingDistributing : Lacp World :=
  match lacp.aggregatorLookup (lacp.bySlaveDev api (lacp.port id).devIfindex) with
  | none => lacp
  | some agg => lacp.detachPort api agg id

/-- `lacpd_fsm_mux_act_enable_collecting_distributing`. -/
def enableCollectingDistributing : Lacp World :=
  match lacp.aggregatorLookup (byId (lacp.port id).actorPortAggregatorIdentifier) with
  | none => lacp
  | some agg => lacp.attachPort api agg id

/-- The selected aggregator of the port is ready. -/
def isReady : Bool :=
  (lacp.aggregatorLookup (byId (lacp.port id).actorPortAggregatorIdentifier)).any fun agg =>
    (lacp.aggregator agg).ready

end Lacp

/-- The entry into `DETACHED`. -/
def enterDetached (id : PortId) (lacp : Lacp World) : Lacp World :=
  ((lacp.setPort id ({ · with mux := .detached })).disableCollectingDistributing api id).setPort
      id fun port =>
    { port.setActorState
        ({ · with synchronization := false, collecting := false, distributing := false }) with
      ntt := true
      readyN := false
      waitWhilePending := false }

/-- The entry into `WAITING`. -/
def enterWaiting (id : PortId) (lacp : Lacp World) : Lacp World :=
  lacp.setPort id ({ · with mux := .waiting, waitWhilePending := true })

/-- The entry into `ATTACHED`. -/
def enterAttached (id : PortId) (lacp : Lacp World) : Lacp World :=
  ((lacp.setPort id ({ · with mux := .attached })).disableCollectingDistributing api id).setPort
      id fun port =>
    { port.setActorState
        ({ · with synchronization := true, collecting := false, distributing := false }) with
      ntt := true }

/-- The entry into `COLLECTING_DISTRIBUTING`. -/
def enterCollectingDistributing (id : PortId) (lacp : Lacp World) : Lacp World :=
  ((lacp.setPort id ({ · with mux := .collectingDistributing })).enableCollectingDistributing api
    id).setPort id
    fun port =>
    { port.setActorState ({ · with collecting := true, distributing := true }) with ntt := true }

/-- `mux_machine_base`. -/
def muxMachine (id : PortId) : List (Entry (Lacp World)) :=
  [.guarded (fun lacp => ((lacp.port id).mux = .waiting || (lacp.port id).mux = .attached) &&
        (lacp.port id).selected = .unselected) (enterDetached api id),
    .guarded (fun lacp => (lacp.port id).mux = .detached && (lacp.port id).selected = .selected)
    (enterWaiting id),
    .guarded (fun lacp =>
      ((lacp.port id).mux = .waiting && (lacp.port id).selected = .selected && lacp.isReady id) ||
        ((lacp.port id).mux = .collectingDistributing && ((lacp.port id).selected = .unselected ||
          !(lacp.port id).partnerPortInfo.state.synchronization))) (enterAttached api id),
    .guarded (fun lacp => (lacp.port id).mux = .attached && (lacp.port id).selected = .selected &&
        (lacp.port id).partnerPortInfo.state.synchronization) (enterCollectingDistributing api id)]

/-! ### Transmission -/

/-- The LACPDU of a port: `lacpdu_init` and `lacpdu_set_port_info`. -/
def Port.lacpdu (port : Port) : Lacpdu :=
    ⟨1, 1, 1, 20, port.actorPortInfo, 2, 20, port.partnerPortInfo⟩

/-- The entry into `TX`. -/
def enterTx (id : PortId) (lacp : Lacp World) : Lacp World :=
  ({ lacp with
    world := api.sendLacpdu lacp.world (lacp.port id).devIfindex (lacp.port id).lacpdu
    sent := (id, (lacp.port id).lacpdu) :: lacp.sent } : Lacp World).setPort id fun port =>
      { port with transmit := .tx, pktSent := port.pktSent + 1, ntt := false }

/-- `transmit_machine_base`. -/
def transmitMachine (id : PortId) : List (Entry (Lacp World)) :=
  [onPort id (fun port => port.transmit = .tx ||
        (port.transmit = .disabled && port.periodic != .noPeriodic && port.lacpEnabled))
      ({ · with transmit := .noTx }),
    .guarded (fun lacp => (lacp.port id).transmit = .noTx && (lacp.port id).ntt &&
        (lacp.port id).periodic != .noPeriodic && (lacp.port id).lacpEnabled &&
        !decide ((lacp.port id).pktSent ≥ 3))
      (enterTx api id),
    onPort id (fun port => port.transmit != .disabled &&
      (port.periodic = .noPeriodic || !port.lacpEnabled))
      ({ · with transmit := .disabled, ntt := false })]

/-- The machines of a port, in the order in which `lacpd_port_new` adds them. -/
def machines (id : PortId) : List (List (Entry (Lacp World))) :=
  [receiveMachine id, periodicMachine id, selectionMachine id, muxMachine api id,
    transmitMachine api id]

/-- `fsm_runner_initail_run`. -/
def initialRun (id : PortId) (lacp : Lacp World) : Lacp World :=
  let received := lacp.setPort id Port.enterInitialize
  let timed := received.setPort id ({ · with periodic := .noPeriodic, periodicPending := false })
  let detached := enterDetached api id (enterUnselected id timed)
  detached.setPort id ({ · with transmit := .noTx, initialized := true })

/-- `fsm_runner_run`. -/
def runnerRun (fuel rounds : Nat) (id : PortId) (lacp : Lacp World) : Option (Lacp World) :=
  if (lacp.port id).initialized then Runner.settle (machines api id) fuel rounds lacp
  else some (initialRun api id lacp)

end Qsdk.Lacpd
