/-
**What a port learns of its partner.**

An LACPDU that is valid and waits at a port that is enabled is recorded in the next run of the
port's machines: what the port knows of its partner is then what the LACPDU tells of its sender, but
for the synchronization if the sender is mistaken about the port (`Port.learnt`, `lacpdu_recorded`).
-/

import Qsdk.Lacp.Promises

namespace Qsdk.Lacpd

open Runner (Entry)

variable {World : Type} {api : OutApi World} {base lacp after next : Lacp World} {id : PortId}

/-- The parts of a port's information that its machines leave alone. -/
structure PortInfo.Alike (info other : PortInfo) : Prop where
  systemPriority : info.systemPriority = other.systemPriority
  system : info.system = other.system
  key : info.key = other.key
  portPriority : info.portPriority = other.portPriority
  port : info.port = other.port
  activity : info.state.activity = other.state.activity
  aggregation : info.state.aggregation = other.state.aggregation

namespace Port

/-- The information of the partner that an LACPDU leads to. -/
def learnt (port : Port) : PortInfo :=
  if port.message.actor.state.synchronization && port.mistaken then
    { port.message.actor with state := { port.message.actor.state with synchronization := false } }
  else port.message.actor

/-- The LACPDU waits, or it is recorded. -/
structure Learns (first port : Port) : Prop where
  enabled : port.portEnabled = true
  alike : port.actorPortInfo.Alike first.actorPortInfo
  recorded : port.lacpduIndicate = true ∧ port.message = first.message ∨
    port.lacpduIndicate = false ∧ port.receive = .current ∧ port.currentWhilePending = true ∧
      port.partnerPortInfo = first.learnt ∧ port.actorPortInfo.state.defaulted = false ∧
      port.actorPortInfo.state.expired = false

variable {first port after : Port}

theorem Learns.further (learns : first.Learns port) (enabled : after.portEnabled = port.portEnabled)
    (alike : after.actorPortInfo.Alike port.actorPortInfo)
    (indicate : after.lacpduIndicate = port.lacpduIndicate) (message : after.message = port.message)
    (recorded : port.receive = .current → port.currentWhilePending = true →
      after.receive = .current ∧
      after.currentWhilePending = true ∧ after.partnerPortInfo = port.partnerPortInfo ∧
      after.actorPortInfo.state.defaulted = port.actorPortInfo.state.defaulted ∧
      after.actorPortInfo.state.expired = port.actorPortInfo.state.expired) :
          first.Learns after where
  enabled := enabled.trans learns.enabled
  alike :=
    ⟨alike.systemPriority.trans learns.alike.systemPriority, alike.system.trans learns.alike.system,
      alike.key.trans learns.alike.key, alike.portPriority.trans learns.alike.portPriority,
      alike.port.trans learns.alike.port, alike.activity.trans learns.alike.activity,
      alike.aggregation.trans learns.alike.aggregation⟩
  recorded := by
    rcases learns.recorded with ⟨waits, isMessage⟩ | ⟨done, isReceive, pending, partner,
      defaulted, expired⟩
    · exact .inl ⟨indicate.trans waits, message.trans isMessage⟩
    · obtain ⟨isReceive', pending', partner', defaulted', expired'⟩ := recorded isReceive pending
      exact .inr ⟨indicate.trans done, isReceive', pending', partner'.trans partner,
        defaulted'.trans defaulted,
        expired'.trans expired⟩

/-- Other machines than the one that receives. -/
theorem Learns.frame (learns : first.Learns port) (enabled : after.portEnabled = port.portEnabled)
    (alike : after.actorPortInfo.Alike port.actorPortInfo)
    (indicate : after.lacpduIndicate = port.lacpduIndicate) (message : after.message = port.message)
    (receive : after.receive = port.receive)
    (pending : after.currentWhilePending = port.currentWhilePending)
    (partner : after.partnerPortInfo = port.partnerPortInfo)
    (defaulted : after.actorPortInfo.state.defaulted = port.actorPortInfo.state.defaulted)
    (expired : after.actorPortInfo.state.expired = port.actorPortInfo.state.expired) :
        first.Learns after :=
  learns.further enabled alike indicate message fun isReceive isPending =>
    ⟨receive.trans isReceive, pending.trans isPending, partner, defaulted, expired⟩

/-- The sender is mistaken or not, whatever the port does meanwhile. -/
theorem mistaken_congr (alike : after.actorPortInfo.Alike port.actorPortInfo)
    (message : after.message = port.message) :
    after.mistaken = port.mistaken := by
  unfold mistaken portInfoEqual
  rw [message, alike.systemPriority, alike.system, alike.key, alike.portPriority, alike.port,
    alike.activity,
    alike.aggregation]
  rfl

theorem learnt_recordPdu (port : Port) : port.recordPdu.partnerPortInfo = port.learnt ∧
    port.recordPdu.actorPortInfo.state.defaulted = false := by
  have mistaken : (({ port with partnerPortInfo := port.message.actor } : Port).setActorState
      ({ · with defaulted := false })).mistaken = port.mistaken :=
    mistaken_congr ⟨rfl, rfl, rfl, rfl, rfl, rfl, rfl⟩ rfl
  unfold recordPdu learnt
  dsimp only
  rw [mistaken]
  split
  · next lost => exact ⟨(if_pos lost).symm, rfl⟩
  · next kept => exact ⟨(if_neg kept).symm, rfl⟩

/-- What is updated before an LACPDU is recorded. -/
theorem updated_frame (port : Port) : port.updateSelected.updateNtt.actorPortInfo =
    port.actorPortInfo ∧
    port.updateSelected.updateNtt.message = port.message ∧
    port.updateSelected.updateNtt.portEnabled = port.portEnabled := by
  have ntt (port : Port) : port.updateNtt.actorPortInfo = port.actorPortInfo ∧
      port.updateNtt.message = port.message ∧ port.updateNtt.portEnabled = port.portEnabled := by
    unfold updateNtt
    split <;> exact ⟨rfl, rfl, rfl⟩
  obtain ⟨actor, message, enabled⟩ := ntt port.updateSelected
  rw [actor, message, enabled]
  unfold updateSelected
  split <;> exact ⟨rfl, rfl, rfl⟩

theorem recordPdu_frame (port : Port) : port.recordPdu.actorPortInfo.Alike port.actorPortInfo ∧
    port.recordPdu.portEnabled = port.portEnabled := by
  unfold recordPdu
  dsimp only
  split <;> exact ⟨⟨rfl, rfl, rfl, rfl, rfl, rfl, rfl⟩, rfl⟩

/-- **The LACPDU is recorded.** -/
theorem Learns.enterCurrent (learns : first.Learns port) (indicated : port.lacpduIndicate = true) :
    first.Learns port.enterCurrent := by
  have isMessage : port.message = first.message := by
    rcases learns.recorded with ⟨-, isMessage⟩ | ⟨done, -⟩
    · exact isMessage
    · exact absurd (indicated.symm.trans done) nofun
  obtain ⟨actor, message, enabled⟩ := updated_frame { port with receive := .current }
  have receive := receive_recordPdu { port with receive := .current }
  unfold Port.enterCurrent
  generalize ({ port with receive := .current } : Port).updateSelected.updateNtt = updated at *
  obtain ⟨alike, enabled'⟩ := updated.recordPdu_frame
  obtain ⟨partner, defaulted⟩ := updated.learnt_recordPdu
  have isMessage' : updated.message = first.message := message.trans isMessage
  have learnt : updated.learnt = first.learnt := by
    have mistaken : updated.mistaken = first.mistaken :=
      mistaken_congr (by rw [actor]; exact learns.alike) isMessage'
    unfold Port.learnt
    rw [isMessage', mistaken]
  refine ⟨enabled'.trans (enabled.trans learns.enabled), ?_,
    .inr ⟨rfl, receive, rfl, partner.trans learnt, defaulted,
    rfl⟩⟩
  rw [actor] at alike
  exact ⟨alike.systemPriority.trans learns.alike.systemPriority,
    alike.system.trans learns.alike.system,
    alike.key.trans learns.alike.key, alike.portPriority.trans learns.alike.portPriority,
    alike.port.trans learns.alike.port, alike.activity.trans learns.alike.activity,
    alike.aggregation.trans learns.alike.aggregation⟩

/-- An LACPDU that is valid is not thrown away. -/
theorem Learns.validated (learns : first.Learns port)
    (valid : lacpduValidate first.message = true) :
    port.validated = port := by
  refine if_neg fun invalid => ?_
  obtain ⟨indicated, isInvalid⟩ := (Bool.and_eq_true _ _).mp invalid
  rcases learns.recorded with ⟨-, isMessage⟩ | ⟨done, -⟩
  · rw [isMessage, valid] at isInvalid
    cases isInvalid
  · exact absurd (indicated.symm.trans done) nofun

end Port

namespace Lacp

/-- An entry that keeps what is learnt. -/
structure Teaches (base : Lacp World) (id : PortId) (first : Port) (entry : Entry (Lacp World)) :
    Prop where
  asked : ∀ lacp, Runs base id lacp → first.Learns (lacp.port id) →
    first.Learns ((entry.condition lacp).2.port id)
  entered : ∀ lacp, Runs base id lacp → first.Learns (lacp.port id) →
    (entry.condition lacp).1 = true →
    first.Learns ((entry.enter (entry.condition lacp).2).port id)

variable {first : Port}

theorem teaches_onPort {guard : Port → Bool} {enter : Port → Port}
    (keeps : ∀ port : Port, port.Ok → first.Learns port → guard port = true →
        first.Learns (enter port)) :
    Teaches base id first (onPort id guard enter : Entry (Lacp World)) where
  asked := fun _ _ learns => learns
  entered := by
    intro lacp runs learns isGuard
    show first.Learns ((lacp.setPort id enter).port id)
    rw [setPort_self]
    exact keeps _ (runs.kept.ok id runs.isPort) learns isGuard

theorem teaches_receive (valid : lacpduValidate first.message = true) :
    ∀ entry ∈ (receiveMachine id : List (Entry (Lacp World))), Teaches base id first entry := by
  refine List.forall_mem_cons.mpr ⟨?_, List.forall_mem_cons.mpr ⟨?_, List.forall_mem_cons.mpr ⟨?_,
    List.forall_mem_cons.mpr
    ⟨?_, List.forall_mem_cons.mpr ⟨?_, List.forall_mem_singleton.mpr ?_⟩⟩⟩⟩⟩
  · refine teaches_onPort fun port ok learns guard => ?_
    rw [ok.portMoved, Bool.and_false] at guard
    cases guard
  · refine teaches_onPort fun port ok learns guard => ?_
    refine learns.further rfl ⟨rfl, rfl, rfl, rfl, rfl, rfl, rfl⟩ rfl rfl fun isReceive _ => ?_
    rw [isReceive, learns.enabled] at guard
    cases guard
  · refine teaches_onPort fun port ok learns guard => ?_
    refine learns.further rfl ⟨rfl, rfl, rfl, rfl, rfl, rfl, rfl⟩ rfl rfl fun isReceive pending =>
      ?_
    rw [isReceive, pending] at guard
    cases guard
  · refine teaches_onPort fun port ok learns guard => ?_
    rw [ok.lacpEnabled, Bool.not_true, Bool.and_false] at guard
    cases guard
  · refine teaches_onPort fun port ok learns guard => ?_
    have frame : port.enterDefaulted.portEnabled = port.portEnabled ∧
        port.enterDefaulted.actorPortInfo.Alike port.actorPortInfo ∧
        port.enterDefaulted.lacpduIndicate = port.lacpduIndicate ∧
            port.enterDefaulted.message = port.message := by
      unfold Port.enterDefaulted Port.updateDefaultSelected
      split <;> exact ⟨rfl, ⟨rfl, rfl, rfl, rfl, rfl, rfl, rfl⟩, rfl, rfl⟩
    obtain ⟨enabled, alike, indicate, message⟩ := frame
    refine learns.further enabled alike indicate message fun isReceive pending => ?_
    rw [isReceive] at guard
    cases guard
  · have asked (lacp : Lacp World) (learns : first.Learns (lacp.port id)) :
        (lacp.setPort id Port.validated).port id = lacp.port id := by
      rw [setPort_self, learns.validated valid]
    refine ⟨fun lacp _ learns => ?_, fun lacp _ learns isCurrent => ?_⟩
    · dsimp only
      rw [asked lacp learns]
      exact learns
    · dsimp only
      rw [setPort_self, asked lacp learns]
      have indicated := ((Bool.and_eq_true _ _).mp isCurrent).1
      rw [learns.validated valid] at indicated
      exact learns.enterCurrent indicated

theorem teaches_of_frame {guard : Lacp World → Bool} {enter : Lacp World → Lacp World}
    (keeps : ∀ lacp, Runs base id lacp → guard lacp = true →
      first.Learns (lacp.port id) → first.Learns ((enter lacp).port id)) :
    Teaches base id first (.guarded guard enter) where
  asked := fun _ _ learns => learns
  entered := fun lacp runs learns isGuard => keeps lacp runs isGuard learns

theorem Muxed.learns {mux : MuxState} (muxed : Muxed mux id lacp after)
    (learns : first.Learns (lacp.port id)) :
    first.Learns (after.port id) := by
  rw [muxed.port]
  cases mux <;> exact learns.frame rfl ⟨rfl, rfl, rfl, rfl, rfl, rfl, rfl⟩ rfl rfl rfl
    rfl rfl rfl rfl

theorem teaches (valid : lacpduValidate first.message = true) :
    ∀ machine ∈ machines api id, ∀ entry ∈ machine, Teaches base id first entry := by
  have port {guard : Port → Bool} {enter : Port → Port}
      (keeps : ∀ port : Port, first.Learns port → first.Learns (enter port)) :
      Teaches base id first (onPort id guard enter : Entry (Lacp World)) :=
    teaches_onPort fun port _ learns _ => keeps port learns
  have alike (info : PortInfo) : info.Alike info := ⟨rfl, rfl, rfl, rfl, rfl, rfl, rfl⟩
  have periodic : ∀ entry ∈ (periodicMachine id : List (Entry (Lacp World))),
      Teaches base id first entry := by
    refine List.forall_mem_cons.mpr ⟨port fun port learns => ?_,
      List.forall_mem_cons.mpr ⟨port fun port learns => ?_,
      List.forall_mem_cons.mpr ⟨port fun port learns => ?_, List.forall_mem_singleton.mpr
        (port fun port learns => ?_)⟩⟩⟩ <;>
    exact learns.frame rfl (alike _) rfl rfl rfl rfl rfl rfl rfl
  have selection : ∀ entry ∈ (selectionMachine id : List (Entry (Lacp World))),
      Teaches base id first entry := by
    refine List.forall_mem_cons.mpr ⟨teaches_of_frame fun lacp runs guard learns => ?_,
      List.forall_mem_singleton.mpr
      (teaches_of_frame fun lacp runs guard learns => ?_)⟩
    · obtain ⟨-, unselected⟩ := (Bool.and_eq_true _ _).mp guard
      obtain ⟨-, -, -, -, isId, -⟩ := runs.kept.enterUnselected runs.isPort
        (bne_iff_ne.mp unselected)
      rw [isId]
      exact learns.frame rfl (alike _) rfl rfl rfl rfl rfl rfl rfl
    · obtain ⟨isSelection, -⟩ := (Bool.and_eq_true _ _).mp guard
      obtain ⟨-, -, -, -, ⟨agg, isId⟩, -⟩ :=
        runs.kept.enterSelected runs.isPort (of_decide_eq_true isSelection)
      rw [isId]
      exact learns.frame rfl (alike _) rfl rfl rfl rfl rfl rfl rfl
  have mux : ∀ entry ∈ muxMachine api id, Teaches base id first entry := by
    refine List.forall_mem_cons.mpr ⟨teaches_of_frame fun lacp runs _ learns => ?_,
      List.forall_mem_cons.mpr
      ⟨teaches_of_frame fun lacp runs guard learns => ?_, List.forall_mem_cons.mpr
        ⟨teaches_of_frame fun lacp runs _ learns => ?_, List.forall_mem_singleton.mpr
          (teaches_of_frame fun lacp runs guard learns => ?_)⟩⟩⟩
    · exact (runs.kept.enterDetached id).learns learns
    · simp only [Bool.and_eq_true, decide_eq_true_eq] at guard
      exact (runs.kept.enterWaiting guard.1).learns learns
    · exact (runs.kept.enterAttached id).learns learns
    · simp only [Bool.and_eq_true, decide_eq_true_eq] at guard
      exact (runs.kept.enterCollectingDistributing guard.1.1).learns learns
  have transmit : ∀ entry ∈ transmitMachine api id, Teaches base id first entry := by
    refine List.forall_mem_cons.mpr ⟨port fun port learns => ?_, List.forall_mem_cons.mpr
      ⟨teaches_of_frame fun lacp runs _ learns => ?_,
        List.forall_mem_singleton.mpr (port fun port learns => ?_)⟩⟩
    · exact learns.frame rfl (alike _) rfl rfl rfl rfl rfl rfl rfl
    · unfold enterTx
      rw [setPort_self]
      exact learns.frame rfl (alike _) rfl rfl rfl rfl rfl rfl rfl
    · exact learns.frame rfl (alike _) rfl rfl rfl rfl rfl rfl rfl
  exact List.forall_mem_cons.mpr
    ⟨teaches_receive valid, List.forall_mem_cons.mpr ⟨periodic, List.forall_mem_cons.mpr
    ⟨selection, List.forall_mem_cons.mpr ⟨mux, List.forall_mem_singleton.mpr transmit⟩⟩⟩⟩

/-- **An LACPDU that is valid and waits at a port that is enabled is recorded** in the next run of
its machines. -/
theorem lacpdu_recorded (reachable : Reachable api lacp)
    (initialized : (lacp.port id).initialized = true) (enabled : (lacp.port id).portEnabled = true)
    (indicates : (lacp.port id).indicates = true) {fuel rounds : Nat}
    (isAfter : lacp.step api (.runner fuel rounds id) = some after) :
    (after.port id).receive = .current ∧ (after.port id).currentWhilePending = true ∧
      (after.port id).lacpduIndicate = false ∧ (after.port id).partnerPortInfo =
      (lacp.port id).learnt ∧
      (after.port id).actorPortInfo.state.defaulted = false ∧
          (after.port id).actorPortInfo.state.expired = false := by
  obtain ⟨⟨isPort, -⟩, isAfter⟩ := step_runner.mp isAfter
  obtain ⟨waits, valid⟩ := (Bool.and_eq_true _ _).mp indicates
  have runs := Runs.begin (reachable.sound.scheduled id).kept isPort
  have learns :
      (lacp.port id).Learns ((lacp.setPort id ({ · with runnerPending := false })).port id) := by
    rw [setPort_self]
    exact ⟨enabled, ⟨rfl, rfl, rfl, rfl, rfl, rfl, rfl⟩, .inl ⟨waits, rfl⟩⟩
  have isSettled : Runner.settle (machines api id) fuel rounds
      (lacp.setPort id ({ · with runnerPending := false })) = some after := by
    rw [runnerRun, setPort_self] at isAfter
    rwa [if_pos initialized] at isAfter
  have shrinks' : ∀ machine ∈ machines api id, ∀ entry ∈ machine, entry.Shrinks (fun lacp' =>
      Runs (lacp.setPort id ({ · with runnerPending := false })) id lacp' ∧
        (lacp.port id).Learns (lacp'.port id)) (size id) := fun machine isMachine entry isEntry =>
    have teaches := teaches valid machine isMachine entry isEntry
    (shrinks machine isMachine entry isEntry).and teaches.asked teaches.entered
  obtain ⟨⟨runs, learns⟩, still⟩ := Runner.settle_sound shrinks' (calm _) ⟨runs, learns⟩ isSettled
  rcases learns.recorded with ⟨waits', isMessage⟩ | ⟨done, isReceive, pending, partner,
    defaulted, expired⟩
  · -- It would wait only at a port that is not enabled.
    have outcome := runs.kept.outcome runs.isPort still
    have indicates' : (after.port id).indicates = true := by
      unfold Port.indicates
      rw [waits', isMessage, valid]
      rfl
    have disabled := outcome.indicated indicates'
    have isEnabled := learns.enabled
    rcases outcome.received with ⟨-, not⟩ | ⟨-, ⟨isExpired | isCurrent, -⟩ | isDefaulted⟩
    · exact absurd (isEnabled.symm.trans not) (by decide)
    · exact absurd (disabled.symm.trans isExpired) (by decide)
    · exact absurd (disabled.symm.trans isCurrent) (by decide)
    · exact absurd (disabled.symm.trans isDefaulted) (by decide)
  · exact ⟨isReceive, pending, done, partner, defaulted, expired⟩

/-- An LACPDU from a partner that is in synchronization. -/
def partnerPdu : Lacpdu :=
  ⟨1, 1, 1, 20, ⟨1, 9, 3, 255, 2, ⟨true, false, true, true, false, false, false, false⟩⟩,
    2, 20, .zero⟩

/-- It waits at the first port of an instance. -/
def waiting : Lacp Unit :=
  (initialRun .idle 1 (joined.setPort 1 ({ · with runnerPending := false }))).receiveLacpdu
    7 partnerPdu

theorem lacpdu_recorded_waiting : ∃ after, waiting.step .idle (.runner 311 311 1) = some after ∧
    (after.port 1).receive = .current ∧ (after.port 1).partnerPortInfo =
        (waiting.port 1).learnt := by
  have reachable : Reachable .idle waiting :=
    .step (.step reachable_joined (.runner 1 1 1) rfl) (.receiveLacpdu 7 partnerPdu) rfl
  have runs : Runs _ 1 (waiting.setPort 1 ({ · with runnerPending := false })) :=
    Runs.begin (reachable.sound.scheduled 1).kept List.mem_cons_self
  obtain ⟨after, isAfter⟩ : ∃ after, runnerRun .idle 311 311 1 _ = some after :=
    runs.runnerRun_ends (by decide) (by decide)
  have isStep : waiting.step .idle (.runner 311 311 1) = some after :=
    step_runner.mpr ⟨⟨List.mem_cons_self, rfl⟩, isAfter⟩
  obtain ⟨isReceive, -, -, partner, -⟩ := lacpdu_recorded reachable rfl rfl rfl isStep
  exact ⟨after, isStep, isReceive, partner⟩

end Lacp

end Qsdk.Lacpd
