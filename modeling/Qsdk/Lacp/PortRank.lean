/-
**What a port's machines are far from.**

Each machine of a port has a rank, which the entry into a state lowers. The machine that receives
can raise the ranks of the others, the periodic machine that of the transmission, and nothing else
raises one; so the weighted sum of the ranks (`Port.rank`) falls with every entry
(`Port.rank_lt_of_receive`, `Port.rank_lt_of_periodic`, `Port.rank_lt`).
-/

import Qsdk.Lacp.Daemon

namespace Qsdk.Lacpd

namespace Port

variable (port : Port)

/-- What holds of a port between the entries of its machines. -/
structure Ok : Prop where
  lacpEnabled : port.lacpEnabled = true
  portMoved : port.portMoved = false
  standby : port.selected ≠ .standby
  unselected : port.selection = .unselected → port.actorPortAggregatorIdentifier = 0
  selected : port.selected = .selected → port.actorPortAggregatorIdentifier ≠ 0
  synchronization : port.actorPortInfo.state.synchronization =
    decide (port.mux = .attached ∨ port.mux = .collectingDistributing)
  collecting : port.actorPortInfo.state.collecting = decide (port.mux = .collectingDistributing)
  distributing : port.actorPortInfo.state.distributing = decide (port.mux = .collectingDistributing)
  pktSent : port.pktSent ≤ 3
  receive : port.receive ≠ .lacpDisabled

/-! ### Ranks -/

end Port

def ReceiveState.rank (enabled pending : Bool) : ReceiveState → Nat
  | .initializing => 6
  | .portDisabled => if enabled then 5 else 0
  | .expired | .current => if pending then 1 else 3
  | .defaulted | .lacpDisabled => 1

/-- The selection and the attaching together: a port that is not selected is selected again when it
is detached. -/
def SelectionState.rank (isSelected synchronization : Bool) (mux : MuxState) : SelectionState → Nat
  | .unselected =>
    match isSelected, mux with
    | true, .detached => 4
    | true, .waiting => 3
    | true, .attached => if synchronization then 2 else 1
    | true, .collectingDistributing => if synchronization then 1 else 2
    | false, .detached => 4
    | false, .waiting | false, .attached => 5
    | false, .collectingDistributing => 6
  | .selected =>
    match isSelected, mux with
    | true, .detached => 3
    | true, .waiting => 2
    | true, .attached => if synchronization then 1 else 0
    | true, .collectingDistributing => if synchronization then 0 else 1
    | false, .detached => 5
    | false, .waiting | false, .attached => 6
    | false, .collectingDistributing => 7

def PeriodicState.rank (idle timeout pending : Bool) : PeriodicState → Nat
  | .noPeriodic => if idle then 0 else 4
  | .periodicTx => if idle then 2 else 1
  | .fastPeriodic => (if idle then 1 else 0) + if timeout && pending then 0 else 2
  | .slowPeriodic => (if idle then 1 else 0) + if !timeout && pending then 0 else 2

def TransmitState.rank (periodic : PeriodicState) : TransmitState → Nat
  | .tx => if periodic = .noPeriodic then 2 else 1
  | .noTx => if periodic = .noPeriodic then 1 else 0
  | .disabled => if periodic = .noPeriodic then 0 else 1

namespace Port

variable (port : Port)

/-- A valid LACPDU waits. -/
def indicates : Bool := port.lacpduIndicate && lacpduValidate port.message

def receiveRank : Nat :=
  (if port.indicates then 8 else 0) + port.receive.rank port.portEnabled port.currentWhilePending

def selectionRank : Nat :=
  port.selection.rank (port.selected = .selected) port.partnerPortInfo.state.synchronization
    port.mux

def periodicRank : Nat :=
    port.periodic.rank port.idle port.partnerPortInfo.state.timeout port.periodicPending

def transmitRank : Nat := 3 * (3 - port.pktSent) + port.transmit.rank port.periodic

def rank : Nat := 20 * port.receiveRank + port.selectionRank + 3 * port.periodicRank +
    port.transmitRank

theorem selectionRank_le : port.selectionRank ≤ 7 := by
  unfold selectionRank
  generalize decide (port.selected = .selected) = isSelected
  cases isSelected <;> cases port.selection <;> cases port.partnerPortInfo.state.synchronization <;>
    cases port.mux <;> decide

theorem periodicRank_le : port.periodicRank ≤ 4 := by
  unfold periodicRank
  cases port.periodic <;> cases port.idle <;> cases port.partnerPortInfo.state.timeout <;>
    cases port.periodicPending <;> decide

variable {port} {after : Port}

/-- The machine that receives may change the ranks of the selection and of the periodic machine. -/
theorem rank_lt_of_receive (less : after.receiveRank < port.receiveRank)
    (transmit : after.transmitRank = port.transmitRank) : after.rank < port.rank := by
  have selection := after.selectionRank_le
  have periodic := after.periodicRank_le
  unfold rank
  omega

/-- The transmission depends on whether there is a period, and on little else. -/
theorem transmitRank_le_of_periodic (transmit : after.transmit = port.transmit)
    (pktSent : after.pktSent = port.pktSent) : after.transmitRank ≤ port.transmitRank + 2 := by
  unfold transmitRank
  rw [transmit, pktSent]
  have le : port.transmit.rank after.periodic ≤ port.transmit.rank port.periodic + 2 := by
    cases port.transmit <;> cases after.periodic <;> cases port.periodic <;> decide
  omega

theorem rank_lt_of_periodic (receive : after.receiveRank = port.receiveRank)
    (selection : after.selectionRank = port.selectionRank)
    (less : after.periodicRank < port.periodicRank)
    (transmit : after.transmitRank ≤ port.transmitRank + 2) : after.rank < port.rank := by
  unfold rank
  omega

theorem rank_lt (receive : after.receiveRank = port.receiveRank)
    (periodic : after.periodicRank = port.periodicRank)
    (less : after.selectionRank + after.transmitRank < port.selectionRank + port.transmitRank) :
    after.rank < port.rank := by
  unfold rank
  omega

/-! ### The machine that receives -/

/-- What an entry of the machine that receives leaves alone. -/
structure Received (port after : Port) : Prop where
  lacpEnabled : after.lacpEnabled = port.lacpEnabled
  aggregator : after.actorPortAggregatorIdentifier = port.actorPortAggregatorIdentifier
  selected : after.selected = port.selected ∨ after.selected = .unselected
  portMoved : port.portMoved = false → after.portMoved = false
  selection : after.selection = port.selection
  mux : after.mux = port.mux
  synchronization : after.actorPortInfo.state.synchronization =
    port.actorPortInfo.state.synchronization
  collecting : after.actorPortInfo.state.collecting = port.actorPortInfo.state.collecting
  distributing : after.actorPortInfo.state.distributing = port.actorPortInfo.state.distributing
  transmit : after.transmit = port.transmit
  periodic : after.periodic = port.periodic
  pktSent : after.pktSent = port.pktSent
  receive : port.receive ≠ .lacpDisabled → after.receive ≠ .lacpDisabled

theorem Received.refl (port : Port) : port.Received port :=
  ⟨rfl, rfl, .inl rfl, id, rfl, rfl, rfl, rfl, rfl, rfl, rfl, rfl, id⟩

theorem Received.trans {middle : Port} (first : port.Received middle)
    (second : middle.Received after) :
    port.Received after where
  lacpEnabled := second.lacpEnabled.trans first.lacpEnabled
  aggregator := second.aggregator.trans first.aggregator
  selected := by
    rcases second.selected with same | unselected
    · rw [same]
      exact first.selected
    · exact .inr unselected
  portMoved := fun stays => second.portMoved (first.portMoved stays)
  selection := second.selection.trans first.selection
  mux := second.mux.trans first.mux
  synchronization := second.synchronization.trans first.synchronization
  collecting := second.collecting.trans first.collecting
  distributing := second.distributing.trans first.distributing
  transmit := second.transmit.trans first.transmit
  periodic := second.periodic.trans first.periodic
  pktSent := second.pktSent.trans first.pktSent
  receive := fun enabled => second.receive (first.receive enabled)

theorem Received.ok (received : port.Received after) (ok : port.Ok) : after.Ok where
  lacpEnabled := received.lacpEnabled.trans ok.lacpEnabled
  portMoved := received.portMoved ok.portMoved
  standby := by
    rcases received.selected with same | unselected
    · rw [same]
      exact ok.standby
    · rw [unselected]
      decide
  unselected := by
    rw [received.selection, received.aggregator]
    exact ok.unselected
  selected := by
    rw [received.aggregator]
    intro isSelected
    rcases received.selected with same | unselected
    · exact ok.selected (same.symm.trans isSelected)
    · rw [unselected] at isSelected
      cases isSelected
  synchronization := by rw [received.synchronization, received.mux, ok.synchronization]
  collecting := by rw [received.collecting, received.mux, ok.collecting]
  distributing := by rw [received.distributing, received.mux, ok.distributing]
  pktSent := by
    rw [received.pktSent]
    exact ok.pktSent
  receive := received.receive ok.receive

theorem Received.transmitRank (received : port.Received after) :
    after.transmitRank = port.transmitRank := by
  unfold Port.transmitRank
  rw [received.transmit, received.periodic, received.pktSent]

theorem received_unselect (port : Port) : port.Received port.unselect :=
  ⟨rfl, rfl, .inr rfl, id, rfl, rfl, rfl, rfl, rfl, rfl, rfl, rfl, id⟩

theorem received_enterInitialize (port : Port) : port.Received port.enterInitialize :=
  ⟨rfl, rfl, .inr rfl, fun _ => rfl, rfl, rfl, rfl, rfl, rfl, rfl, rfl, rfl, fun _ => nofun⟩

theorem received_enterPortDisabled (port : Port) : port.Received port.enterPortDisabled :=
  ⟨rfl, rfl, .inl rfl, id, rfl, rfl, rfl, rfl, rfl, rfl, rfl, rfl, fun _ => nofun⟩

theorem received_enterExpired (port : Port) : port.Received port.enterExpired :=
  ⟨rfl, rfl, .inl rfl, id, rfl, rfl, rfl, rfl, rfl, rfl, rfl, rfl, fun _ => nofun⟩

theorem received_enterDefaulted (port : Port) : port.Received port.enterDefaulted := by
  unfold enterDefaulted updateDefaultSelected
  split
  · exact ⟨rfl, rfl, .inl rfl, id, rfl, rfl, rfl, rfl, rfl, rfl, rfl, rfl, fun _ => nofun⟩
  · exact ⟨rfl, rfl, .inr rfl, id, rfl, rfl, rfl, rfl, rfl, rfl, rfl, rfl, fun _ => nofun⟩

theorem received_updateSelected (port : Port) : port.Received port.updateSelected := by
  unfold updateSelected
  split
  · exact .refl port
  · exact port.received_unselect

theorem received_updateNtt (port : Port) : port.Received port.updateNtt := by
  unfold updateNtt
  split
  · exact .refl port
  · exact ⟨rfl, rfl, .inl rfl, id, rfl, rfl, rfl, rfl, rfl, rfl, rfl, rfl, id⟩

theorem received_recordPdu (port : Port) : port.Received port.recordPdu := by
  unfold recordPdu
  dsimp only
  split
  · exact ⟨rfl, rfl, .inl rfl, id, rfl, rfl, rfl, rfl, rfl, rfl, rfl, rfl, id⟩
  · exact ⟨rfl, rfl, .inl rfl, id, rfl, rfl, rfl, rfl, rfl, rfl, rfl, rfl, id⟩

theorem received_currentSet (port : Port) : port.Received port.currentSet :=
  ⟨rfl, rfl, .inl rfl, id, rfl, rfl, rfl, rfl, rfl, rfl, rfl, rfl, id⟩

theorem received_enterCurrent (port : Port) : port.Received port.enterCurrent := by
  have entered : port.Received { port with receive := .current } :=
    ⟨rfl, rfl, .inl rfl, id, rfl, rfl, rfl, rfl, rfl, rfl, rfl, rfl, fun _ => nofun⟩
  exact (((entered.trans (received_updateSelected _)).trans (received_updateNtt _)).trans
    (received_recordPdu _)).trans (received_currentSet _)

theorem received_validated (port : Port) : port.Received port.validated := by
  unfold validated
  split
  · exact ⟨rfl, rfl, .inl rfl, id, rfl, rfl, rfl, rfl, rfl, rfl, rfl, rfl, id⟩
  · exact .refl port

theorem receiveRank_enterPortDisabled (guard : (port.receive = .initializing ||
    (port.receive != .portDisabled && !port.portEnabled && !port.portMoved)) = true) :
    port.enterPortDisabled.receiveRank < port.receiveRank := by
  have less : ReceiveState.rank port.portEnabled port.currentWhilePending .portDisabled <
      port.receive.rank port.portEnabled port.currentWhilePending := by
    cases isReceive : port.receive <;> cases isEnabled : port.portEnabled <;>
      cases port.currentWhilePending <;> simp [isReceive, isEnabled] at guard <;> decide
  exact Nat.add_lt_add_left less _

theorem receiveRank_enterExpired
    (guard : ((port.receive = .portDisabled && port.portEnabled && port.lacpEnabled) ||
    (port.receive = .current && !port.currentWhilePending)) = true) :
    port.enterExpired.receiveRank < port.receiveRank := by
  have less : ReceiveState.rank port.portEnabled true .expired <
      port.receive.rank port.portEnabled port.currentWhilePending := by
    cases isReceive : port.receive <;> cases isEnabled : port.portEnabled <;>
      cases isPending : port.currentWhilePending <;>
        simp [isReceive, isEnabled, isPending] at guard <;> decide
  exact Nat.add_lt_add_left less _

theorem receiveRank_enterDefaulted
    (guard : (port.receive = .expired && !port.currentWhilePending) = true) :
    port.enterDefaulted.receiveRank < port.receiveRank := by
  have after : port.enterDefaulted.receiveRank = (if port.indicates then 8 else 0) + 1 := by
    unfold enterDefaulted updateDefaultSelected
    split <;> rfl
  have less : 1 < port.receive.rank port.portEnabled port.currentWhilePending := by
    cases isReceive : port.receive <;> cases isPending : port.currentWhilePending <;>
        cases port.portEnabled <;>
      simp [isReceive, isPending] at guard <;> decide
  rw [after]
  exact Nat.add_lt_add_left less _

@[simp] theorem indicates_validated (port : Port) : port.validated.indicates = port.indicates := by
  unfold indicates validated
  split
  · next invalid =>
    obtain ⟨-, isInvalid⟩ := (Bool.and_eq_true _ _).mp invalid
    rw [(Bool.not_eq_true' _).mp isInvalid, Bool.and_false]
    rfl
  · rfl

theorem lacpduIndicate_validated (port : Port) : port.validated.lacpduIndicate =
    port.indicates := by
  unfold indicates validated
  cases isIndicated : port.lacpduIndicate <;> cases isValid : lacpduValidate port.message <;>
    simp [isIndicated]

theorem receive_validated (port : Port) : port.validated.receive = port.receive := by
  unfold validated
  split <;> rfl

@[simp] theorem receiveRank_validated (port : Port) : port.validated.receiveRank =
    port.receiveRank := by
  have enabled : port.validated.portEnabled = port.portEnabled := by
    unfold validated
    split <;> rfl
  have pending : port.validated.currentWhilePending = port.currentWhilePending := by
    unfold validated
    split <;> rfl
  unfold receiveRank
  rw [indicates_validated, receive_validated, enabled, pending]

@[simp] theorem selectionRank_validated (port : Port) : port.validated.selectionRank =
    port.selectionRank := by
  unfold validated
  split <;> rfl

@[simp] theorem periodicRank_validated (port : Port) : port.validated.periodicRank =
    port.periodicRank := by
  unfold validated
  split <;> rfl

/-- The state of the machine that an action leaves alone. -/
theorem receive_recordPdu (port : Port) : port.updateSelected.updateNtt.recordPdu.receive =
    port.receive := by
  have selected : port.updateSelected.receive = port.receive := by
    unfold updateSelected
    split <;> rfl
  have ntt (port : Port) : port.updateNtt.receive = port.receive := by
    unfold updateNtt
    split <;> rfl
  have recorded (port : Port) : port.recordPdu.receive = port.receive := by
    unfold recordPdu
    dsimp only
    split <;> rfl
  rw [recorded, ntt, selected]

theorem receiveRank_currentSet (isReceive : port.receive = .current) :
    port.currentSet.receiveRank = 1 := by
  have receive : port.currentSet.receive = .current := isReceive
  unfold receiveRank
  rw [receive]
  rfl

theorem receiveRank_enterCurrent (guard : port.toCurrent = true) :
    port.validated.enterCurrent.receiveRank < port.receiveRank := by
  obtain ⟨indicated, -⟩ := (Bool.and_eq_true _ _).mp guard
  rw [lacpduIndicate_validated] at indicated
  have after : port.validated.enterCurrent.receiveRank = 1 :=
    receiveRank_currentSet (receive_recordPdu { port.validated with receive := .current })
  rw [after, receiveRank, indicated, if_pos rfl]
  omega

/-! ### The periodic machine, and the transmission -/

/-- What an entry of the periodic machine or of the transmission leaves alone. -/
theorem Ok.frame (ok : port.Ok) (lacpEnabled : after.lacpEnabled = port.lacpEnabled)
    (portMoved : after.portMoved = port.portMoved) (selected : after.selected = port.selected)
    (selection : after.selection = port.selection)
    (aggregator : after.actorPortAggregatorIdentifier = port.actorPortAggregatorIdentifier)
    (mux : after.mux = port.mux) (actor : after.actorPortInfo.state = port.actorPortInfo.state)
    (receive : after.receive = port.receive) (pktSent : after.pktSent ≤ 3) : after.Ok where
  lacpEnabled := lacpEnabled.trans ok.lacpEnabled
  portMoved := portMoved.trans ok.portMoved
  standby := by
    rw [selected]
    exact ok.standby
  unselected := by
    rw [selection, aggregator]
    exact ok.unselected
  selected := by
    rw [selected, aggregator]
    exact ok.selected
  synchronization := by rw [actor, mux, ok.synchronization]
  collecting := by rw [actor, mux, ok.collecting]
  distributing := by rw [actor, mux, ok.distributing]
  pktSent := pktSent
  receive := by
    rw [receive]
    exact ok.receive

theorem periodicRank_noPeriodic (guard : (port.periodic != .noPeriodic && port.idle) = true) :
    PeriodicState.rank port.idle port.partnerPortInfo.state.timeout false .noPeriodic <
        port.periodicRank := by
  unfold periodicRank
  cases isPeriodic : port.periodic <;> cases isIdle : port.idle <;>
      cases port.partnerPortInfo.state.timeout <;>
    cases port.periodicPending <;> simp [isPeriodic, isIdle] at guard <;> decide

theorem periodicRank_fastPeriodic (guard : ((port.periodic = .noPeriodic && !port.idle) ||
    (port.periodic = .periodicTx && port.partnerPortInfo.state.timeout)) = true) :
    PeriodicState.rank port.idle port.partnerPortInfo.state.timeout true .fastPeriodic <
        port.periodicRank := by
  unfold periodicRank
  cases isPeriodic : port.periodic <;> cases isIdle : port.idle <;>
    cases isTimeout : port.partnerPortInfo.state.timeout <;> cases port.periodicPending <;>
    simp [isPeriodic, isIdle, isTimeout] at guard <;> decide

theorem periodicRank_slowPeriodic
    (guard : ((port.periodic = .periodicTx && !port.partnerPortInfo.state.timeout) ||
    (port.periodic = .fastPeriodic && !port.partnerPortInfo.state.timeout)) = true) :
    PeriodicState.rank port.idle port.partnerPortInfo.state.timeout true .slowPeriodic <
        port.periodicRank := by
  unfold periodicRank
  cases isPeriodic : port.periodic <;> cases port.idle <;> cases isTimeout :
      port.partnerPortInfo.state.timeout <;>
    cases port.periodicPending <;> simp [isPeriodic, isTimeout] at guard <;> decide

theorem periodicRank_periodicTx
    (guard : ((port.periodic = .fastPeriodic && !port.periodicPending) ||
    (port.periodic = .slowPeriodic &&
        (!port.periodicPending || port.partnerPortInfo.state.timeout))) = true) :
    PeriodicState.rank port.idle port.partnerPortInfo.state.timeout port.periodicPending
    .periodicTx <
      port.periodicRank := by
  unfold periodicRank
  cases isPeriodic : port.periodic <;> cases port.idle <;> cases isTimeout :
      port.partnerPortInfo.state.timeout <;>
    cases isPending : port.periodicPending <;> simp [isPeriodic, isTimeout, isPending] at guard <;>
      decide

theorem transmitRank_noTx (guard : (port.transmit = .tx ||
    (port.transmit = .disabled && port.periodic != .noPeriodic && port.lacpEnabled)) = true) :
    TransmitState.rank port.periodic .noTx < port.transmit.rank port.periodic := by
  cases isTransmit : port.transmit <;> cases isPeriodic : port.periodic <;>
    simp [isTransmit, isPeriodic] at guard <;> decide

theorem transmitRank_disabled (enabled : port.lacpEnabled = true)
    (guard : (port.transmit != .disabled &&
    (port.periodic = .noPeriodic || !port.lacpEnabled)) = true) :
    TransmitState.rank port.periodic .disabled < port.transmit.rank port.periodic := by
  cases isTransmit : port.transmit <;> cases isPeriodic : port.periodic <;>
    simp [isTransmit, isPeriodic, enabled] at guard <;> decide

/-- A transmission is one of the three that are allowed. -/
theorem transmitRank_tx
    (guard : (port.transmit = .noTx && port.ntt && port.periodic != .noPeriodic &&
    port.lacpEnabled && !decide (port.pktSent ≥ 3)) = true) :
    3 * (3 - (port.pktSent + 1)) + TransmitState.rank port.periodic .tx < port.transmitRank ∧
        port.pktSent < 3 := by
  simp only [Bool.and_eq_true, decide_eq_true_eq, bne_iff_ne, Bool.not_eq_true',
    decide_eq_false_iff_not,
    not_le] at guard
  obtain ⟨⟨⟨⟨isTransmit, -⟩, isPeriodic⟩, -⟩, few⟩ := guard
  refine ⟨?_, few⟩
  have one : TransmitState.rank port.periodic .tx = 1 := if_neg isPeriodic
  unfold transmitRank
  rw [isTransmit, one]
  omega

/-! ### Selection and attaching -/

theorem selectionRank_unselected (isSelection : port.selection = .selected)
    (unselected : port.selected ≠ .selected) :
    SelectionState.rank (port.selected = .selected) port.partnerPortInfo.state.synchronization
    port.mux .unselected <
      port.selectionRank := by
  unfold selectionRank
  rw [isSelection, decide_eq_false unselected]
  cases port.mux <;> cases port.partnerPortInfo.state.synchronization <;> decide

theorem selectionRank_selected (isSelection : port.selection = .unselected)
    (isMux : port.mux = .detached) :
    SelectionState.rank true port.partnerPortInfo.state.synchronization port.mux .selected <
        port.selectionRank := by
  unfold selectionRank
  rw [isSelection, isMux]
  generalize decide (port.selected = .selected) = isSelected
  cases isSelected <;> cases port.partnerPortInfo.state.synchronization <;> decide

/-- The machine moves on: to be detached while the port is not selected, and else towards collecting
and distributing, as far as the partner is in synchronization. -/
inductive MovesOn (port : Port) : MuxState → Prop
  | detached (mux : port.mux = .waiting ∨ port.mux = .attached)
      (selected : port.selected = .unselected) :
    MovesOn port .detached
  | waiting (mux : port.mux = .detached) (selected : port.selected = .selected) :
    MovesOn port .waiting
  | attached (mux : port.mux = .waiting) (selected : port.selected = .selected) :
    MovesOn port .attached
  | back (mux : port.mux = .collectingDistributing)
    (reason : port.selected = .unselected ∨ port.partnerPortInfo.state.synchronization = false) :
    MovesOn port .attached
  | collectingDistributing (mux : port.mux = .attached) (selected : port.selected = .selected)
    (synchronization : port.partnerPortInfo.state.synchronization = true) :
    MovesOn port .collectingDistributing

theorem MovesOn.rank_lt {mux : MuxState} (moves : port.MovesOn mux) :
    port.selection.rank (port.selected = .selected) port.partnerPortInfo.state.synchronization mux <
      port.selectionRank := by
  unfold selectionRank
  cases moves with
  | detached isMux selected =>
    rcases isMux with isMux | isMux <;> rw [isMux, selected] <;>
      cases port.selection <;> cases port.partnerPortInfo.state.synchronization <;> decide
  | waiting isMux selected =>
    rw [isMux, selected]
    cases port.selection <;> cases port.partnerPortInfo.state.synchronization <;> decide
  | attached isMux selected =>
    rw [isMux, selected]
    cases port.selection <;> cases port.partnerPortInfo.state.synchronization <;> decide
  | back isMux reason =>
    rw [isMux]
    rcases reason with selected | lost
    · rw [selected]
      cases port.selection <;> cases port.partnerPortInfo.state.synchronization <;> decide
    · rw [lost]
      generalize decide (port.selected = .selected) = isSelected
      cases port.selection <;> cases isSelected <;> decide
  | collectingDistributing isMux selected synchronization =>
    rw [isMux, selected, synchronization]
    cases port.selection <;> decide

end Port

end Qsdk.Lacpd
