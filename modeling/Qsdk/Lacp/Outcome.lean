/-
**What a run of a port's machines comes to.**

A run ends (`runnerRun_ends`), and when it has ended no machine of the port can move
(`runnerRun_sound`). The port is then selected, and how far it is attached depends on its aggregator
and on its partner only (`Port.Outcome`).
-/

import Qsdk.Lacp.Settled

namespace Qsdk.Lacpd

open Runner (Entry Still Calm)

variable {World : Type} {api : OutApi World} {base lacp after next : Lacp World} {id : PortId}

namespace Lacp

/-! ### The condition that writes -/

/-- An entry whose condition does not depend on an LACPDU that is not valid. -/
def Unaffected (id : PortId) (entry : Entry (Lacp World)) : Prop :=
  ∀ lacp : Lacp World, (entry.condition (lacp.setPort id Port.validated)).1 =
    (entry.condition lacp).1

theorem unaffected_onPort {guard : Port → Bool} {enter : Port → Port}
    (same : ∀ port : Port, guard port.validated = guard port) :
    Unaffected id (onPort id guard enter : Entry (Lacp World)) := by
  intro lacp
  show guard ((lacp.setPort id Port.validated).port id) = _
  rw [setPort_self, same]
  rfl

theorem unaffected_guarded {guard : Lacp World → Bool} {enter : Lacp World → Lacp World}
    (same : ∀ lacp : Lacp World, guard (lacp.setPort id Port.validated) = guard lacp) :
    Unaffected id (.guarded guard enter) := same

theorem toCurrent_validated (port : Port) : port.validated.toCurrent = port.toCurrent := by
  unfold Port.toCurrent
  rw [Port.lacpduIndicate_validated, Port.lacpduIndicate_validated, Port.indicates_validated,
    Port.receive_validated]

theorem isReady_validated (lacp : Lacp World) : (lacp.setPort id Port.validated).isReady id =
    lacp.isReady id := by
  have same : ((lacp.setPort id Port.validated).port id).actorPortAggregatorIdentifier =
      (lacp.port id).actorPortAggregatorIdentifier := by
    rw [setPort_self]
    exact (lacp.port id).received_validated.aggregator
  unfold isReady
  rw [same]
  rfl

/-- A guard that does not read the LACPDU. -/
theorem unaffected_port {guard : Port → Bool} {enter : Port → Port}
    (same : ∀ port : Port, guard { port with message := .zero, lacpduIndicate := false } =
        guard port) :
    Unaffected id (onPort id guard enter : Entry (Lacp World)) := by
  refine unaffected_onPort fun port => ?_
  unfold Port.validated
  split
  · exact same port
  · rfl

theorem attaching_validated (lacp : Lacp World) (id : PortId) :
    ((lacp.setPort id Port.validated).port id).mux = (lacp.port id).mux ∧
      ((lacp.setPort id Port.validated).port id).selected = (lacp.port id).selected ∧
      ((lacp.setPort id Port.validated).port id).selection = (lacp.port id).selection ∧
      ((lacp.setPort id Port.validated).port id).partnerPortInfo =
          (lacp.port id).partnerPortInfo := by
  rw [setPort_self]
  unfold Port.validated
  split <;> exact ⟨rfl, rfl, rfl, rfl⟩

theorem unaffected : ∀ machine ∈ machines api id, ∀ entry ∈ machine, Unaffected id entry := by
  have receive : ∀ entry ∈ (receiveMachine id : List (Entry (Lacp World))), Unaffected id entry :=
    List.forall_mem_cons.mpr ⟨unaffected_port fun _ => rfl,
      List.forall_mem_cons.mpr ⟨unaffected_port fun _ => rfl,
      List.forall_mem_cons.mpr ⟨unaffected_port fun _ => rfl,
        List.forall_mem_cons.mpr ⟨unaffected_port fun _ => rfl,
        List.forall_mem_cons.mpr ⟨unaffected_port fun _ => rfl,
            List.forall_mem_singleton.mpr fun lacp => by
          dsimp only
          rw [setPort_self, toCurrent_validated]⟩⟩⟩⟩⟩
  have periodic : ∀ entry ∈ (periodicMachine id : List (Entry (Lacp World))), Unaffected id entry :=
    List.forall_mem_cons.mpr ⟨unaffected_port fun _ => rfl,
      List.forall_mem_cons.mpr ⟨unaffected_port fun _ => rfl,
      List.forall_mem_cons.mpr ⟨unaffected_port fun _ => rfl, List.forall_mem_singleton.mpr
        (unaffected_port fun _ => rfl)⟩⟩⟩
  have selection : ∀ entry ∈ (selectionMachine id : List (Entry (Lacp World))),
      Unaffected id entry := by
    refine List.forall_mem_cons.mpr ⟨unaffected_guarded fun lacp => ?_,
      List.forall_mem_singleton.mpr
      (unaffected_guarded fun lacp => ?_)⟩ <;>
    · obtain ⟨mux, selected, selection, -⟩ := lacp.attaching_validated id
      simp only [mux, selected, selection]
  have mux : ∀ entry ∈ muxMachine api id, Unaffected id entry := by
    refine List.forall_mem_cons.mpr ⟨unaffected_guarded fun lacp => ?_, List.forall_mem_cons.mpr
      ⟨unaffected_guarded fun lacp => ?_, List.forall_mem_cons.mpr
        ⟨unaffected_guarded fun lacp => ?_,
        List.forall_mem_singleton.mpr (unaffected_guarded fun lacp => ?_)⟩⟩⟩ <;>
    · obtain ⟨mux, selected, -, partner⟩ := lacp.attaching_validated id
      simp only [mux, selected, partner, isReady_validated]
  have transmit : ∀ entry ∈ transmitMachine api id, Unaffected id entry := by
    refine List.forall_mem_cons.mpr ⟨unaffected_port fun _ => rfl, List.forall_mem_cons.mpr
      ⟨unaffected_guarded fun lacp => ?_, List.forall_mem_singleton.mpr
        (unaffected_port fun _ => rfl)⟩⟩
    rw [setPort_self]
    unfold Port.validated
    split <;> rfl
  exact List.forall_mem_cons.mpr
    ⟨receive, List.forall_mem_cons.mpr ⟨periodic, List.forall_mem_cons.mpr
    ⟨selection, List.forall_mem_cons.mpr ⟨mux, List.forall_mem_singleton.mpr transmit⟩⟩⟩⟩

/-- The other conditions only read. -/
theorem reads : ∀ machine ∈ machines api id, ∀ entry ∈ machine, ∀ lacp : Lacp World,
    (entry.condition lacp).2 = lacp ∨ (entry.condition lacp).2 =
        lacp.setPort id Port.validated := by
  have receive : ∀ entry ∈ (receiveMachine id : List (Entry (Lacp World))), ∀ lacp : Lacp World,
      (entry.condition lacp).2 = lacp ∨ (entry.condition lacp).2 = lacp.setPort id Port.validated :=
    List.forall_mem_cons.mpr ⟨fun _ => .inl rfl, List.forall_mem_cons.mpr ⟨fun _ => .inl rfl,
      List.forall_mem_cons.mpr ⟨fun _ => .inl rfl, List.forall_mem_cons.mpr ⟨fun _ => .inl rfl,
        List.forall_mem_cons.mpr ⟨fun _ => .inl rfl, List.forall_mem_singleton.mpr fun _ =>
          .inr rfl⟩⟩⟩⟩⟩
  simp only [machines, List.forall_mem_cons]
  refine ⟨receive, ?_, ?_, ?_, ?_, nofun⟩
  · exact List.forall_mem_cons.mpr ⟨fun _ => .inl rfl, List.forall_mem_cons.mpr ⟨fun _ => .inl rfl,
      List.forall_mem_cons.mpr ⟨fun _ => .inl rfl, List.forall_mem_singleton.mpr fun _ =>
        .inl rfl⟩⟩⟩
  · exact List.forall_mem_cons.mpr
      ⟨fun _ => .inl rfl, List.forall_mem_singleton.mpr fun _ => .inl rfl⟩
  · exact List.forall_mem_cons.mpr ⟨fun _ => .inl rfl, List.forall_mem_cons.mpr ⟨fun _ => .inl rfl,
      List.forall_mem_cons.mpr ⟨fun _ => .inl rfl, List.forall_mem_singleton.mpr fun _ =>
        .inl rfl⟩⟩⟩
  · exact List.forall_mem_cons.mpr ⟨fun _ => .inl rfl, List.forall_mem_cons.mpr ⟨fun _ => .inl rfl,
      List.forall_mem_singleton.mpr fun _ => .inl rfl⟩⟩

theorem calm (inv : Lacp World → Prop) : Calm inv (machines api id).flatten := by
  intro entry isEntry other isOther lacp _ _ unmet
  obtain ⟨machine, isMachine, isEntry⟩ := List.mem_flatten.mp isEntry
  obtain ⟨machine', isMachine', isOther⟩ := List.mem_flatten.mp isOther
  rcases reads machine isMachine entry isEntry lacp with same | validated
  · rw [same]
    exact unmet
  · rw [validated, unaffected machine' isMachine' other isOther]
    exact unmet

/-! ### A run ends -/

theorem Runs.setPort (runs : Runs base id lacp) (change : Port → Port)
    (same : (change (lacp.port id)).actorPortAggregatorIdentifier =
      (lacp.port id).actorPortAggregatorIdentifier)
    (pktSent : (change (lacp.port id)).pktSent = (lacp.port id).pktSent)
    (ok : (lacp.port id).Ok → (change (lacp.port id)).Ok) :
        Runs base id (lacp.setPort id change) := by
  refine runs.further (runs.kept.setPort same ok) rfl
    (fun _ ne => setPort_of_ne ne change) rfl rfl ?_
  rw [setPort_self, pktSent]

/-- The first run of a port. -/
theorem Runs.initialRun (runs : Runs base id lacp) : Runs base id (initialRun api id lacp) ∧
    ((initialRun api id lacp).port id).mux = .detached := by
  have received := runs.setPort _ (lacp.port id).received_enterInitialize.aggregator
    (lacp.port id).received_enterInitialize.pktSent (lacp.port id).received_enterInitialize.ok
  have timed :=
    received.setPort ({ · with periodic := .noPeriodic, periodicPending := false }) rfl rfl
    fun ok => ok.frame rfl rfl rfl rfl rfl rfl rfl rfl ok.pktSent
  have unselected : (((lacp.setPort id Port.enterInitialize).setPort id
      ({ · with periodic := .noPeriodic, periodicPending := false })).port id).selected ≠
          .selected := by
    rw [setPort_self, setPort_self]
    exact nofun
  obtain ⟨kept, ports, sent, next, isId, others⟩ :=
    timed.kept.enterUnselected timed.isPort unselected
  have removed := timed.further kept ports others sent next (by rw [isId])
  have muxed : Muxed .detached id _ (enterDetached api id _) := removed.kept.enterDetached id
  have detached := removed.further muxed.kept muxed.ports muxed.others muxed.sent muxed.next
    (by rw [muxed.port]; rfl)
  refine ⟨detached.setPort ({ · with transmit := .noTx, initialized := true }) rfl rfl fun ok =>
    ok.frame rfl rfl rfl rfl rfl rfl rfl rfl ok.pktSent, ?_⟩
  unfold Lacpd.initialRun
  dsimp only
  rw [setPort_self]
  exact congrArg Port.mux muxed.port

end Lacp

theorem Port.rank_le (port : Port) : port.rank ≤ 310 := by
  have selection := port.selectionRank_le
  have periodic := port.periodicRank_le
  have receive : port.receiveRank ≤ 14 := by
    unfold receiveRank
    have le : port.receive.rank port.portEnabled port.currentWhilePending ≤ 6 := by
      cases port.receive <;> cases port.portEnabled <;> cases port.currentWhilePending <;> decide
    split <;> omega
  have transmit : port.transmitRank ≤ 11 := by
    unfold transmitRank
    have le : port.transmit.rank port.periodic ≤ 2 := by
      cases port.transmit <;> cases port.periodic <;> decide
    omega
  unfold rank
  omega

namespace Lacp

theorem Runs.runnerRun_ends (runs : Runs base id lacp) {fuel rounds : Nat} (enough : 310 < fuel)
    (enoughRounds : 310 < rounds) : ∃ after, runnerRun api fuel rounds id lacp = some after := by
  have le : size id lacp ≤ 310 := Port.rank_le _
  unfold runnerRun
  split
  · exact Runner.settle_ends shrinks (calm _) runs (Nat.lt_of_le_of_lt le enough)
      (Nat.lt_of_le_of_lt le enoughRounds)
  · exact ⟨_, rfl⟩

theorem Runs.runnerRun_sound (runs : Runs base id lacp) {fuel rounds : Nat}
    (isAfter : runnerRun api fuel rounds id lacp = some after) : Runs base id after ∧
      ((lacp.port id).initialized = true → Still (machines api id).flatten after) ∧
      ((lacp.port id).initialized = false → (after.port id).mux = .detached) := by
  unfold runnerRun at isAfter
  split at isAfter
  · next initialized =>
    obtain ⟨runs, still⟩ := Runner.settle_sound shrinks (calm _) runs isAfter
    exact ⟨runs, fun _ => still, fun not => absurd (initialized.symm.trans not) nofun⟩
  · next fresh =>
    obtain rfl := Option.some.inj isAfter
    exact ⟨runs.initialRun.1, fun initialized => absurd initialized fresh, fun _ =>
      runs.initialRun.2⟩

end Lacp

/-! ### Where a run ends -/

namespace Port

/-- Where the machines of a port end, by the machine. -/
structure Outcome (ready : Bool) (port : Port) : Prop where
  received : port.receive = .portDisabled ∧ port.portEnabled = false ∨
    port.portEnabled = true ∧
    ((port.receive = .expired ∨ port.receive = .current) ∧ port.currentWhilePending = true ∨
      port.receive = .defaulted)
  indicated : port.indicates = true → port.receive = .portDisabled
  periodic : port.periodic =
    if port.idle then .noPeriodic else if port.partnerPortInfo.state.timeout then .fastPeriodic else
      .slowPeriodic
  timed : port.periodic ≠ .noPeriodic → port.periodicPending = true
  selected : port.selection = .selected ∧ port.selected = .selected ∧
    port.actorPortAggregatorIdentifier ≠ 0
  attaching : port.mux = .waiting ∧ ready = false ∨
    port.mux = .attached ∧ port.partnerPortInfo.state.synchronization = false ∨
    port.mux = .collectingDistributing ∧ port.partnerPortInfo.state.synchronization = true
  told : port.ntt = true → port.periodic = .noPeriodic ∨ port.pktSent = 3

end Port

namespace Lacp

theorem Kept.outcome (kept : lacp.Kept) (isPort : id ∈ lacp.ports)
    (still : Still (machines api id).flatten lacp) :
    (lacp.port id).Outcome (lacp.isReady id) := by
  have ok := kept.ok id isPort
  have entries {machine : List (Entry (Lacp World))} (isMachine : machine ∈ machines api id) :
      ∀ entry ∈ machine, (entry.condition lacp).1 = false := fun entry isEntry =>
    still entry (List.mem_flatten.mpr ⟨machine, isMachine, isEntry⟩)
  have receive : ∀ entry ∈ (receiveMachine id : List (Entry (Lacp World))),
      (entry.condition lacp).1 = false :=
    entries (by simp [machines])
  have periodic : ∀ entry ∈ (periodicMachine id : List (Entry (Lacp World))),
      (entry.condition lacp).1 = false :=
    entries (by simp [machines])
  have selection : ∀ entry ∈ (selectionMachine id : List (Entry (Lacp World))),
      (entry.condition lacp).1 = false :=
    entries (by simp [machines])
  have mux : ∀ entry ∈ muxMachine api id, (entry.condition lacp).1 = false :=
    entries (by simp [machines])
  have transmit : ∀ entry ∈ transmitMachine api id, (entry.condition lacp).1 = false :=
    entries (by simp [machines])
  simp only [receiveMachine, List.forall_mem_cons, onPort, Entry.guarded] at receive
  simp only [periodicMachine, List.forall_mem_cons, onPort, Entry.guarded] at periodic
  simp only [selectionMachine, List.forall_mem_cons, Entry.guarded] at selection
  simp only [muxMachine, List.forall_mem_cons, Entry.guarded] at mux
  simp only [transmitMachine, List.forall_mem_cons, onPort, Entry.guarded] at transmit
  obtain ⟨-, disabled, expired, -, defaulted, current, -⟩ := receive
  obtain ⟨noPeriodic, fastPeriodic, slowPeriodic, periodicTx, -⟩ := periodic
  obtain ⟨unselected, reselected, -⟩ := selection
  obtain ⟨detached, waiting, attached, collecting, -⟩ := mux
  obtain ⟨noTx, tx, -, -⟩ := transmit
  generalize lacp.isReady id = ready at *
  generalize lacp.port id = port at *
  have isSelected : port.selection = .selected ∧ port.selected = .selected := by
    have standby := ok.standby
    have named : port.selection = .unselected → port.selected ≠ .selected :=
        fun isUnselected isSelected =>
      ok.selected isSelected (ok.unselected isUnselected)
    clear * - unselected reselected detached waiting attached standby named
    cases isSelected : port.selected <;> cases isSelection : port.selection <;> cases isMux :
        port.mux <;>
      simp [isSelected, isSelection, isMux] at *
  refine ⟨?_, ?_, ?_, ?_, ⟨isSelected.1, isSelected.2, ok.selected isSelected.2⟩, ?_, ?_⟩
  · have lacpDisabled := ok.receive
    cases isReceive : port.receive <;> cases isEnabled : port.portEnabled <;>
      simp [isReceive, isEnabled, ok.lacpEnabled, ok.portMoved] at * <;> assumption
  · intro indicates
    rw [← Port.lacpduIndicate_validated] at indicates
    unfold Port.toCurrent at current
    have lacpDisabled := ok.receive
    cases isReceive : port.receive <;> simp [isReceive, indicates, ok.portMoved] at *
  · cases isPeriodic : port.periodic <;> cases isIdle : port.idle <;>
      cases isTimeout : port.partnerPortInfo.state.timeout <;>
        simp [isPeriodic, isIdle, isTimeout] at *
  · intro isPeriodic
    cases isPeriodic : port.periodic <;> simp [isPeriodic] at * <;> simp_all
  · cases isMux : port.mux <;> simp [isMux, isSelected] at * <;> assumption
  · intro ntt
    by_contra untold
    obtain ⟨isPeriodic, few⟩ := not_or.mp untold
    have pktSent := ok.pktSent
    cases isTransmit : port.transmit <;> simp [isTransmit, isPeriodic, ntt, ok.lacpEnabled] at *
    omega

end Lacp

end Qsdk.Lacpd
