/-
**Every entry of a port's machines comes nearer to the end of the run.**

Every entry of a port's machines keeps the invariant of the instance, leaves the other ports alone,
and lowers the rank of the port (`shrinks`).
-/

import Qsdk.Lacp.Members

namespace Qsdk.Lacpd

open Runner (Entry Still Calm)

variable {World : Type} {api : OutApi World} {base lacp after next : Lacp World} {id : PortId}

/-- What an LACPDU tells of its sender: it collects exactly if it distributes, and only in
synchronization. -/
structure Lacpdu.Told (pkt : Lacpdu) : Prop where
  valid : lacpduValidate pkt = true
  together : pkt.actor.state.collecting = pkt.actor.state.distributing
  synchronization : pkt.actor.state.collecting = true → pkt.actor.state.synchronization = true

theorem Port.Ok.told {port : Port} (ok : port.Ok) : port.lacpdu.Told where
  valid := rfl
  together := ok.collecting.trans ok.distributing.symm
  synchronization := by
    show port.actorPortInfo.state.collecting = true →
      port.actorPortInfo.state.synchronization = true
    rw [ok.collecting, ok.synchronization]
    exact fun isMux => decide_eq_true (.inr (of_decide_eq_true isMux))

namespace Lacp

/-- How many LACPDUs a port has sent. -/
def sentBy (lacp : Lacp World) (id : PortId) : Nat := lacp.sent.countP (·.1 == id)

/-- The invariant in a run of a port that began in a state: the other ports are left alone, and
`pktSent` counts what the port sends. -/
structure Runs (base : Lacp World) (id : PortId) (lacp : Lacp World) : Prop where
  kept : lacp.Kept
  isPort : id ∈ lacp.ports
  ports : lacp.ports = base.ports
  others : ∀ other, other ≠ id → lacp.port other = base.port other
  sent : lacp.sentBy id + (base.port id).pktSent = base.sentBy id + (lacp.port id).pktSent
  sentOthers : ∀ other, other ≠ id → lacp.sentBy other = base.sentBy other
  told : (∀ told ∈ base.sent, told.2.Told) → ∀ told ∈ lacp.sent, told.2.Told
  next : lacp.nextPortAggId = base.nextPortAggId

theorem Runs.begin (kept : lacp.Kept) (isPort : id ∈ lacp.ports) : Runs lacp id lacp :=
  ⟨kept, isPort, rfl, fun _ _ => rfl, rfl, fun _ _ => rfl, fun told => told, rfl⟩

/-- Nothing is sent. -/
theorem Runs.further (runs : Runs base id lacp) (kept : after.Kept)
    (ports : after.ports = lacp.ports) (others : ∀ other, other ≠ id →
      after.port other = lacp.port other) (sent : after.sent = lacp.sent)
    (next : after.nextPortAggId = lacp.nextPortAggId)
    (pktSent : (after.port id).pktSent = (lacp.port id).pktSent) :
    Runs base id after where
  kept := kept
  isPort := ports ▸ runs.isPort
  ports := ports.trans runs.ports
  others := fun other ne => (others other ne).trans (runs.others other ne)
  sent := by
    unfold sentBy
    rw [sent, pktSent]
    exact runs.sent
  sentOthers := by
    unfold sentBy
    rw [sent]
    exact runs.sentOthers
  told := by
    rw [sent]
    exact runs.told
  next := next.trans runs.next

/-! ### Selection -/

theorem Kept.enterUnselected (kept : lacp.Kept) (isPort : id ∈ lacp.ports)
    (unselected : (lacp.port id).selected ≠ .selected) :
    (enterUnselected id lacp).Kept ∧ (enterUnselected id lacp).ports = lacp.ports ∧
      (enterUnselected id lacp).sent = lacp.sent ∧ (enterUnselected id lacp).nextPortAggId =
      lacp.nextPortAggId ∧
      (enterUnselected id lacp).port id =
        { lacp.port id with selection := .unselected, actorPortAggregatorIdentifier := 0 } ∧
      ∀ other, other ≠ id → (enterUnselected id lacp).port other = lacp.port other := by
  obtain ⟨ports, aggregators, nextId, sent, isId, others⟩ :=
    (lacp.setPort id ({ · with selection := .unselected })).removeFromAggregator_frame id
  rw [setPort_self] at isId
  have same : ∀ other, other ≠ id → (Lacpd.enterUnselected id lacp).port other =
      lacp.port other := by
    intro other ne
    exact (others other ne).trans (setPort_of_ne ne _)
  have ok := kept.ok id isPort
  refine ⟨kept.of_port ?_ ports aggregators nextId same fun _ => ?_, ports, sent,
    nextId, isId, same⟩
  · exact (kept.among.setPort rfl).removeFromAggregator kept.nodup isPort
  · rw [show (Lacpd.enterUnselected id lacp).port id = _ from isId]
    exact ⟨ok.lacpEnabled, ok.portMoved, ok.standby, fun _ => rfl, fun isSelected =>
      absurd isSelected unselected,
      ok.synchronization, ok.collecting, ok.distributing, ok.pktSent, ok.receive⟩

theorem Kept.enterSelected (kept : lacp.Kept) (isPort : id ∈ lacp.ports)
    (isSelection : (lacp.port id).selection = .unselected) :
    (enterSelected id lacp).Kept ∧ (enterSelected id lacp).ports = lacp.ports ∧
      (enterSelected id lacp).sent = lacp.sent ∧ (enterSelected id lacp).nextPortAggId =
      lacp.nextPortAggId ∧
      (∃ agg, (enterSelected id lacp).port id =
        { lacp.port id with
          selection := .selected, actorPortAggregatorIdentifier := agg, selected := .selected }) ∧
      ∀ other, other ≠ id → (enterSelected id lacp).port other = lacp.port other := by
  have ok := kept.ok id isPort
  have none := ok.unselected isSelection
  obtain ⟨agg, isIn, isAgg⟩ := kept.selectedAggregator isPort none
  have among : (lacp.setPort id ({ · with selection := .selected })).Among lacp.ports :=
    kept.among.setPort rfl
  have isAgg' : (lacp.setPort id ({ · with selection := .selected })).selectedAggregator id =
      some agg := by
    rw [← isAgg]
    unfold Lacp.selectedAggregator
    rw [setPort_self]
    rfl
  have none' :
      ((lacp.setPort id ({ · with selection := .selected })).port
        id).actorPortAggregatorIdentifier = 0 := by
    rw [setPort_self]
    exact none
  have absent :
      id ∉ ((lacp.setPort id ({ · with selection := .selected })).aggregator agg).ports := by
    intro member
    exact (lacp.named agg isIn).1 (((among.member agg isIn id).mp member).2.symm.trans none')
  obtain ⟨added, -, -⟩ := addPort_self _ absent (among.free agg isIn)
  obtain ⟨ports, port, aggregators, nextId, sent⟩ :=
    (lacp.setPort id ({ · with selection := .selected })).addPort_frame agg id
  have isEntered : Lacpd.enterSelected id lacp =
      ((lacp.setPort id ({ · with selection := .selected })).addPort agg id).2.setPort id
        ({ · with actorPortAggregatorIdentifier := agg, selected := .selected }) := by
    unfold Lacpd.enterSelected addToAggregator
    rw [isAgg']
    exact if_pos added
  have isId : (Lacpd.enterSelected id lacp).port id =
      { lacp.port id with
        selection := .selected
        actorPortAggregatorIdentifier := agg
        selected := .selected } := by
    rw [isEntered, setPort_self, port, setPort_self]
  have same : ∀ other, other ≠ id → (Lacpd.enterSelected id lacp).port other = lacp.port other := by
    intro other ne
    rw [isEntered, setPort_of_ne ne, port, setPort_of_ne ne]
  have isPorts : (Lacpd.enterSelected id lacp).ports = lacp.ports := by rw [isEntered]; exact ports
  have isSent : (Lacpd.enterSelected id lacp).sent = lacp.sent := by rw [isEntered]; exact sent
  have isNext : (Lacpd.enterSelected id lacp).nextPortAggId = lacp.nextPortAggId := by
    rw [isEntered]; exact nextId
  refine ⟨kept.of_port ?_ isPorts ?_ isNext same fun _ => ?_, isPorts, isSent, isNext,
    ⟨agg, isId⟩, same⟩
  · rw [isEntered]
    exact among.addPort isPort isIn none' fun _ => rfl
  · rw [isEntered]
    exact aggregators
  · rw [isId]
    exact ⟨ok.lacpEnabled, ok.portMoved, nofun, nofun, fun _ => (lacp.named agg isIn).1,
      ok.synchronization,
      ok.collecting, ok.distributing, ok.pktSent, ok.receive⟩

/-! ### Attaching -/

/-- What an entry of the attaching writes to the port. -/
def muxSet (mux : MuxState) (port : Port) : Port :=
  match mux with
  | .detached =>
    { port.setActorState
        ({ · with synchronization := false, collecting := false, distributing := false }) with
      mux := .detached
      ntt := true
      readyN := false
      waitWhilePending := false }
  | .waiting => { port with mux := .waiting, waitWhilePending := true }
  | .attached =>
    { port.setActorState
        ({ · with synchronization := true, collecting := false, distributing := false }) with
      mux := .attached
      ntt := true }
  | .collectingDistributing =>
    { port.setActorState ({ · with collecting := true, distributing := true }) with
      mux := .collectingDistributing
      ntt := true }

theorem Ok.muxSet {port : Port} (ok : port.Ok) {mux : MuxState}
    (waits : mux = .waiting → port.mux = .detached) (collects : mux = .collectingDistributing →
        port.mux = .attached) : (muxSet mux port).Ok := by
  have synchronization := ok.synchronization
  cases mux with
  | detached =>
    exact ⟨ok.lacpEnabled, ok.portMoved, ok.standby, ok.unselected, ok.selected, rfl, rfl, rfl,
      ok.pktSent, ok.receive⟩
  | waiting =>
    have collecting := ok.collecting
    have distributing := ok.distributing
    rw [waits rfl] at synchronization collecting distributing
    exact ⟨ok.lacpEnabled, ok.portMoved, ok.standby, ok.unselected, ok.selected,
      synchronization, collecting,
      distributing, ok.pktSent, ok.receive⟩
  | attached =>
    exact ⟨ok.lacpEnabled, ok.portMoved, ok.standby, ok.unselected, ok.selected, rfl, rfl, rfl,
      ok.pktSent, ok.receive⟩
  | collectingDistributing =>
    rw [collects rfl] at synchronization
    exact ⟨ok.lacpEnabled, ok.portMoved, ok.standby, ok.unselected, ok.selected, synchronization,
      rfl, rfl, ok.pktSent,
      ok.receive⟩

/-- An entry of the attaching: calls for the devices, and what is written to the port. -/
structure Muxed (mux : MuxState) (id : PortId) (lacp after : Lacp World) : Prop where
  kept : after.Kept
  ports : after.ports = lacp.ports
  port : after.port id = muxSet mux (lacp.port id)
  others : ∀ other, other ≠ id → after.port other = lacp.port other
  sent : after.sent = lacp.sent
  next : after.nextPortAggId = lacp.nextPortAggId

theorem Kept.muxed (kept : lacp.Kept) {mux : MuxState} {middle : Lacp World} {second : Port → Port}
    (only : (lacp.setPort id ({ · with mux := mux })).DeviceOnly middle)
    (isSet : ∀ port : Port, second { port with mux := mux } = muxSet mux port)
    (waits : mux = .waiting → (lacp.port id).mux = .detached)
    (collects : mux = .collectingDistributing → (lacp.port id).mux = .attached) :
    Muxed mux id lacp (middle.setPort id second) := by
  have named : (second { lacp.port id with mux := mux }).actorPortAggregatorIdentifier =
      (lacp.port id).actorPortAggregatorIdentifier := by
    rw [isSet]
    cases mux <;> rfl
  obtain ⟨kept', isPort⟩ := kept.deviceOnly_setPort only named rfl fun ok => by
    rw [isSet]
    exact Ok.muxSet ok waits collects
  refine ⟨kept', only.ports, isPort.trans (isSet _), fun other ne => ?_, only.sent, only.next⟩
  rw [setPort_of_ne ne, only.port, setPort_of_ne ne]

theorem Kept.enterDetached (kept : lacp.Kept) (id : PortId) :
    Muxed .detached id lacp (enterDetached api id lacp) :=
  kept.muxed (deviceOnly_disableCollectingDistributing _ id) (fun _ => rfl) nofun nofun

theorem Kept.enterAttached (kept : lacp.Kept) (id : PortId) :
    Muxed .attached id lacp (enterAttached api id lacp) :=
  kept.muxed (deviceOnly_disableCollectingDistributing _ id) (fun _ => rfl) nofun nofun

theorem Kept.enterCollectingDistributing (kept : lacp.Kept)
    (isMux : (lacp.port id).mux = .attached) :
    Muxed .collectingDistributing id lacp (enterCollectingDistributing api id lacp) :=
  kept.muxed (deviceOnly_enableCollectingDistributing _ id) (fun _ => rfl) nofun fun _ => isMux

theorem Kept.enterWaiting (kept : lacp.Kept) (isMux : (lacp.port id).mux = .detached) :
    Muxed .waiting id lacp (enterWaiting id lacp) where
  kept := kept.setPort rfl fun ok => @Ok.muxSet _ ok .waiting (fun _ => isMux) nofun
  ports := rfl
  port := setPort_self ..
  others := fun _ ne => setPort_of_ne ne _
  sent := rfl
  next := rfl

/-! ### Every entry keeps the invariant and lowers the rank -/

/-- The rank of the port whose machines run. -/
def size (id : PortId) (lacp : Lacp World) : Nat := (lacp.port id).rank

theorem Muxed.rank_lt {mux : MuxState} {after : Lacp World} (muxed : Muxed mux id lacp after)
    (moves : (lacp.port id).MovesOn mux) : (after.port id).rank < (lacp.port id).rank := by
  have less := moves.rank_lt
  have same : (muxSet mux (lacp.port id)).receiveRank = (lacp.port id).receiveRank ∧
      (muxSet mux (lacp.port id)).periodicRank = (lacp.port id).periodicRank ∧
      (muxSet mux (lacp.port id)).transmitRank = (lacp.port id).transmitRank ∧
      (muxSet mux (lacp.port id)).selectionRank = (lacp.port id).selection.rank
      ((lacp.port id).selected = .selected)
        (lacp.port id).partnerPortInfo.state.synchronization mux := by
    cases mux <;> exact ⟨rfl, rfl, rfl, rfl⟩
  obtain ⟨receive, periodic, transmit, selection⟩ := same
  rw [muxed.port]
  refine Port.rank_lt receive periodic ?_
  rw [transmit, selection]
  omega

/-- An entry that reads and writes only the port. -/
theorem shrinks_onPort {guard : Port → Bool} {enter : Port → Port}
    (named : ∀ port : Port, (enter port).actorPortAggregatorIdentifier =
      port.actorPortAggregatorIdentifier)
    (pktSent : ∀ port : Port, (enter port).pktSent = port.pktSent)
    (entered : ∀ port : Port, port.Ok → guard port = true → (enter port).Ok ∧
        (enter port).rank < port.rank) :
    (onPort id guard enter : Entry (Lacp World)).Shrinks (Runs base id) (size id) := by
  refine .guarded fun lacp runs isGuard => ?_
  obtain ⟨-, less⟩ := entered _ (runs.kept.ok id runs.isPort) isGuard
  refine ⟨runs.further (runs.kept.setPort (named _) fun ok => (entered _ ok isGuard).1) rfl
    (fun _ ne => setPort_of_ne ne _) rfl rfl ?_, ?_⟩
  · rw [setPort_self, pktSent]
  · unfold size
    rw [setPort_self]
    exact less

theorem shrinks_receive :
    ∀ entry ∈ (receiveMachine id : List (Entry (Lacp World))),
        entry.Shrinks (Runs base id) (size id) := by
  refine List.forall_mem_cons.mpr ⟨?_, List.forall_mem_cons.mpr ⟨?_, List.forall_mem_cons.mpr ⟨?_,
    List.forall_mem_cons.mpr
    ⟨?_, List.forall_mem_cons.mpr ⟨?_, List.forall_mem_singleton.mpr ?_⟩⟩⟩⟩⟩
  · refine shrinks_onPort (fun port => port.received_enterInitialize.aggregator)
      (fun port => port.received_enterInitialize.pktSent) fun port ok guard => ?_
    rw [ok.portMoved, Bool.and_false] at guard
    cases guard
  · refine shrinks_onPort (fun port => port.received_enterPortDisabled.aggregator)
      (fun port => port.received_enterPortDisabled.pktSent) fun port ok guard => ?_
    exact ⟨port.received_enterPortDisabled.ok ok, Port.rank_lt_of_receive
      (Port.receiveRank_enterPortDisabled guard)
      port.received_enterPortDisabled.transmitRank⟩
  · refine shrinks_onPort (fun port => port.received_enterExpired.aggregator)
      (fun port => port.received_enterExpired.pktSent) fun port ok guard => ?_
    exact ⟨port.received_enterExpired.ok ok, Port.rank_lt_of_receive
      (Port.receiveRank_enterExpired guard)
      port.received_enterExpired.transmitRank⟩
  · refine shrinks_onPort (fun _ => rfl) (fun _ => rfl) fun port ok guard => ?_
    rw [ok.lacpEnabled, Bool.not_true, Bool.and_false] at guard
    cases guard
  · refine shrinks_onPort (fun port => port.received_enterDefaulted.aggregator)
      (fun port => port.received_enterDefaulted.pktSent) fun port ok guard => ?_
    exact ⟨port.received_enterDefaulted.ok ok, Port.rank_lt_of_receive
      (Port.receiveRank_enterDefaulted guard)
      port.received_enterDefaulted.transmitRank⟩
  · have received (lacp : Lacp World) (runs : Runs base id lacp) {change : Port → Port}
        (isReceived : ∀ port : Port, port.Received (change port)) :
            Runs base id (lacp.setPort id change) := by
      refine runs.further (runs.kept.setPort (isReceived _).aggregator fun ok =>
        (isReceived _).ok ok) rfl
        (fun _ ne => setPort_of_ne ne _) rfl rfl ?_
      rw [setPort_self, (isReceived _).pktSent]
    refine ⟨fun lacp runs => ⟨received lacp runs Port.received_validated, ?_⟩,
        fun lacp runs isCurrent =>
      ⟨received _ (received lacp runs Port.received_validated) Port.received_enterCurrent, ?_⟩⟩
    · unfold size Port.rank
      rw [setPort_self, Port.receiveRank_validated, (Port.received_validated _).transmitRank,
        Port.selectionRank_validated, Port.periodicRank_validated]
    · unfold size
      dsimp only
      rw [setPort_self, setPort_self]
      exact Port.rank_lt_of_receive (Port.receiveRank_enterCurrent isCurrent)
        ((Port.received_validated _).trans (Port.received_enterCurrent _)).transmitRank

theorem shrinks_periodic :
    ∀ entry ∈ (periodicMachine id : List (Entry (Lacp World))),
        entry.Shrinks (Runs base id) (size id) := by
  refine List.forall_mem_cons.mpr ⟨?_, List.forall_mem_cons.mpr ⟨?_, List.forall_mem_cons.mpr ⟨?_,
    List.forall_mem_singleton.mpr ?_⟩⟩⟩
  · exact shrinks_onPort (fun _ => rfl) (fun _ => rfl) fun port ok guard =>
      ⟨ok.frame rfl rfl rfl rfl rfl rfl rfl rfl ok.pktSent, Port.rank_lt_of_periodic rfl rfl
        (Port.periodicRank_noPeriodic guard) (Port.transmitRank_le_of_periodic rfl rfl)⟩
  · exact shrinks_onPort (fun _ => rfl) (fun _ => rfl) fun port ok guard =>
      ⟨ok.frame rfl rfl rfl rfl rfl rfl rfl rfl ok.pktSent, Port.rank_lt_of_periodic rfl rfl
        (Port.periodicRank_fastPeriodic guard) (Port.transmitRank_le_of_periodic rfl rfl)⟩
  · exact shrinks_onPort (fun _ => rfl) (fun _ => rfl) fun port ok guard =>
      ⟨ok.frame rfl rfl rfl rfl rfl rfl rfl rfl ok.pktSent, Port.rank_lt_of_periodic rfl rfl
        (Port.periodicRank_slowPeriodic guard) (Port.transmitRank_le_of_periodic rfl rfl)⟩
  · exact shrinks_onPort (fun _ => rfl) (fun _ => rfl) fun port ok guard =>
      ⟨ok.frame rfl rfl rfl rfl rfl rfl rfl rfl ok.pktSent, Port.rank_lt_of_periodic rfl rfl
        (Port.periodicRank_periodicTx guard) (Port.transmitRank_le_of_periodic rfl rfl)⟩

theorem shrinks_selection :
    ∀ entry ∈ (selectionMachine id : List (Entry (Lacp World))),
        entry.Shrinks (Runs base id) (size id) := by
  refine List.forall_mem_cons.mpr ⟨.guarded fun lacp runs guard => ?_, List.forall_mem_singleton.mpr
    (.guarded fun lacp runs guard => ?_)⟩
  · obtain ⟨isSelection, unselected⟩ := (Bool.and_eq_true _ _).mp guard
    obtain ⟨kept, ports, sent, next, isId, others⟩ :=
      runs.kept.enterUnselected runs.isPort (bne_iff_ne.mp unselected)
    refine ⟨runs.further kept ports others sent next (by rw [isId]), ?_⟩
    have less := Port.selectionRank_unselected (of_decide_eq_true isSelection)
      (bne_iff_ne.mp unselected)
    unfold size
    rw [isId]
    exact Port.rank_lt rfl rfl (Nat.add_lt_add_right less _)
  · obtain ⟨isSelection, isMux⟩ := (Bool.and_eq_true _ _).mp guard
    obtain ⟨kept, ports, sent, next, ⟨agg, isId⟩, others⟩ :=
      runs.kept.enterSelected runs.isPort (of_decide_eq_true isSelection)
    refine ⟨runs.further kept ports others sent next (by rw [isId]), ?_⟩
    have less := Port.selectionRank_selected (of_decide_eq_true isSelection)
      (of_decide_eq_true isMux)
    unfold size
    rw [isId]
    exact Port.rank_lt rfl rfl (Nat.add_lt_add_right less _)

theorem Muxed.shrinks {mux : MuxState} {after : Lacp World} (muxed : Muxed mux id lacp after)
    (runs : Runs base id lacp) (moves : (lacp.port id).MovesOn mux) : Runs base id after ∧
        size id after < size id lacp := by
  refine ⟨runs.further muxed.kept muxed.ports muxed.others muxed.sent muxed.next ?_,
    muxed.rank_lt moves⟩
  rw [muxed.port]
  cases mux <;> rfl

theorem shrinks_mux : ∀ entry ∈ muxMachine api id, entry.Shrinks (Runs base id) (size id) := by
  refine List.forall_mem_cons.mpr ⟨.guarded fun lacp runs guard => ?_, List.forall_mem_cons.mpr
    ⟨.guarded fun lacp runs guard => ?_, List.forall_mem_cons.mpr
      ⟨.guarded fun lacp runs guard => ?_,
      List.forall_mem_singleton.mpr (.guarded fun lacp runs guard => ?_)⟩⟩⟩
  · simp only [Bool.and_eq_true, Bool.or_eq_true, decide_eq_true_eq] at guard
    exact (runs.kept.enterDetached id).shrinks runs (.detached guard.1 guard.2)
  · simp only [Bool.and_eq_true, decide_eq_true_eq] at guard
    exact (runs.kept.enterWaiting guard.1).shrinks runs (.waiting guard.1 guard.2)
  · simp only [Bool.and_eq_true, Bool.or_eq_true, decide_eq_true_eq, Bool.not_eq_true'] at guard
    rcases guard with ⟨⟨isMux, isSelected⟩, -⟩ | ⟨isMux, reason⟩
    · exact (runs.kept.enterAttached id).shrinks runs (.attached isMux isSelected)
    · exact (runs.kept.enterAttached id).shrinks runs (.back isMux reason)
  · simp only [Bool.and_eq_true, decide_eq_true_eq] at guard
    obtain ⟨⟨isMux, isSelected⟩, synchronization⟩ := guard
    exact (runs.kept.enterCollectingDistributing isMux).shrinks runs
      (.collectingDistributing isMux isSelected synchronization)

theorem shrinks_transmit : ∀ entry ∈ transmitMachine api id, entry.Shrinks (Runs base id)
    (size id) := by
  refine List.forall_mem_cons.mpr ⟨?_, List.forall_mem_cons.mpr ⟨.guarded fun lacp runs guard => ?_,
    List.forall_mem_singleton.mpr ?_⟩⟩
  · exact shrinks_onPort (fun _ => rfl) (fun _ => rfl) fun port ok guard =>
      ⟨ok.frame rfl rfl rfl rfl rfl rfl rfl rfl ok.pktSent, Port.rank_lt rfl rfl
        (Nat.add_lt_add_left (Nat.add_lt_add_left (Port.transmitRank_noTx guard) _) _)⟩
  · obtain ⟨less, few⟩ := Port.transmitRank_tx guard
    have kept : (({ lacp with
        world := api.sendLacpdu lacp.world (lacp.port id).devIfindex (lacp.port id).lacpdu
        sent := (id, (lacp.port id).lacpdu) :: lacp.sent } : Lacp World)).Kept :=
      ⟨⟨runs.kept.among.free, runs.kept.among.member, runs.kept.among.once, runs.kept.among.listed⟩,
        runs.kept.nodup, runs.kept.below, runs.kept.count, runs.kept.ok⟩
    have isId : (enterTx api id lacp).port id =
        { lacp.port id with
          transmit := .tx
          pktSent := (lacp.port id).pktSent + 1
          ntt := false } := setPort_self ..
    have one : (enterTx api id lacp).sentBy id = lacp.sentBy id + 1 :=
      List.countP_cons_of_pos (beq_self_eq_true id)
    refine ⟨⟨kept.setPort rfl fun ok => ok.frame rfl rfl rfl rfl rfl rfl rfl rfl few,
      runs.isPort, runs.ports,
      fun other ne => ?_, ?_, fun other ne => ?_, fun told => ?_, runs.next⟩, ?_⟩
    · rw [show (enterTx api id lacp).port other = lacp.port other from setPort_of_ne ne _]
      exact runs.others other ne
    · have sent := runs.sent
      show (enterTx api id lacp).sentBy id + _ = _ + ((enterTx api id lacp).port id).pktSent
      rw [one, isId]
      dsimp only
      omega
    · have none : (enterTx api id lacp).sentBy other = lacp.sentBy other :=
        List.countP_cons_of_neg fun same => ne (beq_iff_eq.mp same).symm
      exact none.trans (runs.sentOthers other ne)
    · exact List.forall_mem_cons.mpr ⟨(runs.kept.ok id runs.isPort).told, runs.told told⟩
    · unfold size
      rw [isId]
      exact Port.rank_lt rfl rfl (Nat.add_lt_add_left less _)
  · exact shrinks_onPort (fun _ => rfl) (fun _ => rfl) fun port ok guard =>
      ⟨ok.frame rfl rfl rfl rfl rfl rfl rfl rfl ok.pktSent, Port.rank_lt rfl rfl
        (Nat.add_lt_add_left
          (Nat.add_lt_add_left (Port.transmitRank_disabled ok.lacpEnabled guard) _) _)⟩

theorem shrinks : ∀ machine ∈ machines api id, ∀ entry ∈ machine,
    entry.Shrinks (Runs base id) (size id) :=
  List.forall_mem_cons.mpr ⟨shrinks_receive, List.forall_mem_cons.mpr ⟨shrinks_periodic,
    List.forall_mem_cons.mpr ⟨shrinks_selection, List.forall_mem_cons.mpr ⟨shrinks_mux,
      List.forall_mem_singleton.mpr shrinks_transmit⟩⟩⟩⟩

end Lacp

end Qsdk.Lacpd
