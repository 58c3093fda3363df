/-
**What an instance promises.**

In every state that an instance reaches, a run of a port's machines that is scheduled ends, and the
port is then as far attached as its aggregator and its partner allow. The members of the aggregators
are the ports that name them, a port that collects is a member of its aggregator and its partner is
in synchronization, and no port sends more than three LACPDUs while its rate limit is not lifted.
-/

import Qsdk.Lacp.Reached

namespace Qsdk.Lacpd

open Runner (Still)

variable {World : Type} {api : OutApi World} {lacp after next : Lacp World} {id : PortId}
    {agg : AggregatorId}

/-! ### Instances with one port and with two -/

/-- Devices that are up and of which nothing else is known. -/
def OutApi.idle : OutApi Unit where
  getDevDuplex := fun _ _ => 1
  getDevSpeed := fun _ _ => 1000
  getDevLinkStatus := fun _ _ => true
  getDevMacAddr := fun _ _ => true
  isSlave := fun _ _ _ => false
  numberOfSlaves := fun _ _ => 0
  newAggregator := fun _ _ => (0, ())
  destroyAggregator := fun _ _ => (true, ())
  attachSlave := fun _ _ _ => (true, ())
  detachSlave := fun _ _ _ => (true, ())
  enableDev := fun _ _ => ()
  disableDev := fun _ _ => ()
  enableLacp := fun _ _ => ()
  disableLacp := fun _ _ => ()
  sendLacpdu := fun _ _ _ => ()

namespace Lacp

/-- An instance whose first device has joined. -/
def joined : Lacp Unit := (new .stable true 5 1 () default).addDevice .idle 7 1 true true

theorem reachable_joined : Reachable .idle joined :=
  .step (.new .stable true 5 1 () default) (.addDevice 7 1 true true) rfl

/-- Its machines have run for the first time, and an LACPDU has come. -/
def indicated : Lacp Unit :=
  (initialRun .idle 1 (joined.setPort 1 ({ · with runnerPending := false }))).receiveLacpdu 7 .zero

theorem reachable_indicated : Reachable .idle indicated :=
  .step (.step reachable_joined (.runner 1 1 1) rfl) (.receiveLacpdu 7 .zero) rfl

/-- Events, one after another. -/
def runEvents (api : OutApi World) : List (Event World) → Lacp World → Option (Lacp World)
  | [], lacp => some lacp
  | event :: events, lacp => (lacp.step api event).bind (runEvents api events)

theorem Reachable.runEvents {events : List (Event World)} (reachable : Reachable api lacp)
    (isNext : runEvents api events lacp = some next) : Reachable api next := by
  induction events generalizing lacp with
  | nil =>
    cases isNext
    exact reachable
  | cons event events ih =>
    obtain ⟨middle, isMiddle, isNext⟩ := Option.bind_eq_some_iff.mp isNext
    exact ih (.step reachable event isMiddle) isNext

/-- The information of a partner that is in synchronization. -/
def peerInfo (port : BitVec 16) : PortInfo :=
    ⟨1, 9, 3, 255, port, ⟨true, false, true, true, false, false, false, false⟩⟩

/-- An LACPDU of this partner, which has heard of the port that it is for. -/
def peerPdu (port : BitVec 16) : Lacpdu :=
  ⟨1, 1, 1, 20, peerInfo port, 2, 20,
    ⟨1, 5, 81, 255, port, ⟨true, true, true, true, false, false, false, false⟩⟩⟩

/-- An instance whose second device has joined. -/
def bothJoined : Lacp Unit := joined.addDevice .idle 8 1 true true

theorem reachable_bothJoined : Reachable .idle bothJoined :=
  .step reachable_joined (.addDevice 8 1 true true) rfl

/-- Both ports hear of the partner and wait until their aggregator is ready; then their machines run
again, and those of the first one twice more. -/
def partnerEvents : List (Event Unit) :=
  [.runner 9 9 1, .runner 9 9 2, .receiveLacpdu 7 (peerPdu 1), .runner 9 9 1,
    .receiveLacpdu 8 (peerPdu 2),
    .runner 9 9 2, .waitWhile 1, .waitWhile 2, .runner 9 9 1, .runner 9 9 2, .periodic 1,
    .runner 9 9 1, .periodic 1,
    .runner 9 9 1]

/-- The instance then collects on both ports. -/
def collecting : Lacp Unit := (Lacp.runEvents .idle partnerEvents bothJoined).getD bothJoined

theorem runEvents_collecting : Lacp.runEvents .idle partnerEvents bothJoined = some collecting := by
  have isSome : (Lacp.runEvents .idle partnerEvents bothJoined).isSome = true := by decide +kernel
  obtain ⟨after, isAfter⟩ := Option.isSome_iff_exists.mp isSome
  rw [collecting, isAfter, Option.getD_some]

theorem reachable_collecting : Reachable .idle collecting :=
    reachable_bothJoined.runEvents runEvents_collecting

/-! ### Runs of the machines -/

theorem Sound.scheduled (sound : lacp.Sound) (id : PortId) :
    (lacp.setPort id ({ · with runnerPending := false })).Sound :=
  sound.write id fun _ => ⟨rfl, rfl, rfl, rfl, rfl, rfl, rfl, rfl, rfl, rfl, Nat.le_refl _, rfl⟩

theorem step_runner {fuel rounds : Nat} : lacp.step api (.runner fuel rounds id) = some after ↔
    (id ∈ lacp.ports ∧ (lacp.port id).runnerPending = true) ∧
      runnerRun api fuel rounds id (lacp.setPort id ({ · with runnerPending := false })) =
          some after := by
  rw [step, expire]
  split
  · next due => exact (and_iff_right due).symm
  · next early => exact ⟨fun none => absurd none (Option.some_ne_none after).symm, fun both =>
      absurd both.1 early⟩

/-- **A run that is scheduled ends**, leaves the other ports alone, and afterwards no machine of the
port can move. -/
theorem scheduled_run_ends (reachable : Reachable api lacp) (isPort : id ∈ lacp.ports)
    (pending : (lacp.port id).runnerPending = true) {fuel rounds : Nat} (enough : 310 < fuel)
    (enoughRounds : 310 < rounds) : ∃ after, lacp.step api (.runner fuel rounds id) = some after ∧
      (∀ other, other ≠ id → after.port other = lacp.port other) ∧
      ((lacp.port id).initialized = true → Still (machines api id).flatten after) := by
  have runs := Runs.begin (reachable.sound.scheduled id).kept isPort
  obtain ⟨after, isAfter⟩ : ∃ after, runnerRun api fuel rounds id _ = some after :=
    runs.runnerRun_ends enough enoughRounds
  obtain ⟨runs, still, -⟩ := runs.runnerRun_sound isAfter
  refine ⟨after, step_runner.mpr ⟨⟨isPort, pending⟩, isAfter⟩, fun other ne => ?_,
    fun initialized => still ?_⟩
  · rw [runs.others other ne, setPort_of_ne ne]
  · rw [setPort_self]
    exact initialized

theorem scheduled_run_ends_indicated : ∃ after, indicated.step .idle (.runner 311 311 1) =
    some after ∧
    (∀ other, other ≠ 1 → after.port other = indicated.port other) ∧
      ((indicated.port 1).initialized = true → Still (machines .idle 1).flatten after) :=
  scheduled_run_ends reachable_indicated List.mem_cons_self rfl (by decide) (by decide)

/-- **Where a run ends**: the port is selected, and attached as far as its aggregator and its
partner allow. -/
theorem run_outcome (reachable : Reachable api lacp) {fuel rounds : Nat}
    (isAfter : lacp.step api (.runner fuel rounds id) = some after)
    (initialized : (lacp.port id).initialized = true) :
        (after.port id).Outcome (after.isReady id) := by
  obtain ⟨⟨isPort, -⟩, isAfter⟩ := step_runner.mp isAfter
  obtain ⟨runs, still, -⟩ :=
    (Runs.begin (reachable.sound.scheduled id).kept isPort).runnerRun_sound isAfter
  refine runs.kept.outcome runs.isPort (still ?_)
  rw [setPort_self]
  exact initialized

theorem run_outcome_indicated : ∃ after, indicated.step .idle (.runner 311 311 1) = some after ∧
    (after.port 1).Outcome (after.isReady 1) := by
  have runs : Runs _ 1 (indicated.setPort 1 ({ · with runnerPending := false })) :=
    Runs.begin (reachable_indicated.sound.scheduled 1).kept List.mem_cons_self
  obtain ⟨after, isAfter⟩ : ∃ after, runnerRun .idle 311 311 1 _ = some after :=
    runs.runnerRun_ends (by decide) (by decide)
  have isStep : indicated.step .idle (.runner 311 311 1) = some after :=
    step_runner.mpr ⟨⟨List.mem_cons_self, rfl⟩, isAfter⟩
  exact ⟨after, isStep, run_outcome reachable_indicated isStep rfl⟩

/-! ### Members -/

/-- **The members of the aggregators are the ports that name them**, there are as many aggregators
as ports, and one without a member is free. -/
theorem members_name (reachable : Reachable api lacp) : lacp.aggregators.length =
    lacp.ports.length ∧
    (∀ agg ∈ lacp.aggregators, ((lacp.aggregator agg).isFree = true ↔
      (lacp.aggregator agg).ports = []) ∧
      (lacp.aggregator agg).ports.Nodup ∧ ∀ id, id ∈ (lacp.aggregator agg).ports ↔
        id ∈ lacp.ports ∧ (lacp.port id).actorPortAggregatorIdentifier = agg) ∧
    ∀ id ∈ lacp.ports, ((lacp.port id).actorPortAggregatorIdentifier ≠ 0 →
        (lacp.port id).actorPortAggregatorIdentifier ∈ lacp.aggregators) ∧
      ((lacp.port id).actorPortAggregatorIdentifier = 0 →
          ∃ agg, lacp.selectedAggregator id = some agg) := by
  have kept := reachable.sound.kept
  refine ⟨kept.count, fun agg isIn =>
    ⟨kept.among.free agg isIn, kept.among.once agg isIn, kept.among.member agg isIn⟩,
    fun id isPort => ⟨kept.among.listed id isPort, fun none => ?_⟩⟩
  obtain ⟨agg, -, isAgg⟩ := kept.selectedAggregator isPort none
  exact ⟨agg, isAgg⟩

theorem members_name_collecting : (collecting.aggregators.length = 2 ∧ collecting.ports = [1, 2]) ∧
    (∀ id, id ∈ (collecting.aggregator 1).ports ↔
      id ∈ collecting.ports ∧ (collecting.port id).actorPortAggregatorIdentifier = 1) ∧
    (collecting.aggregator 1).ports = [1, 2] ∧ (collecting.aggregator 2).isFree = true := by
  obtain ⟨-, aggregators, -⟩ := members_name reachable_collecting
  have members := (aggregators 1 (by decide +kernel)).2.2
  have free := (aggregators 2 (by decide +kernel)).1
  exact ⟨by decide +kernel, members, by decide +kernel, free.mpr (by decide +kernel)⟩

/-! ### What a port tells -/

/-- **A port that tells that it is in synchronization is selected and a member of its aggregator**,
and if it tells that it collects, it distributes, and its partner is in synchronization. So do the
LACPDUs that were sent. -/
theorem synchronization_told (reachable : Reachable api lacp) : (∀ told ∈ lacp.sent, told.2.Told) ∧
    ∀ id ∈ lacp.ports, (lacp.port id).lacpdu.Told ∧
      ((lacp.port id).actorPortInfo.state.synchronization = true →
        (lacp.port id).selected = .selected ∧
        id ∈ (lacp.aggregator (lacp.port id).actorPortAggregatorIdentifier).ports) ∧
      ((lacp.port id).actorPortInfo.state.collecting = true →
        (lacp.port id).partnerPortInfo.state.synchronization = true) := by
  have sound := reachable.sound
  refine ⟨sound.told, fun id isPort => ?_⟩
  have ok := sound.kept.ok id isPort
  have quiet := sound.quiet id isPort
  refine ⟨ok.told, fun synchronization => ?_, fun collecting => ?_⟩
  · rw [ok.synchronization] at synchronization
    have isSelected : (lacp.port id).selected = .selected := by
      refine quiet.attached fun isDetached => ?_
      rw [isDetached] at synchronization
      cases synchronization
    have isIn := sound.kept.among.listed id isPort (ok.selected isSelected)
    exact ⟨isSelected, (sound.kept.among.member _ isIn id).mpr ⟨isPort, rfl⟩⟩
  · rw [ok.collecting] at collecting
    exact quiet.collecting (of_decide_eq_true collecting)

theorem synchronization_told_collecting :
    (collecting.sent.length = 5 ∧ ∀ told ∈ collecting.sent, told.2.Told) ∧
    (collecting.port 1).actorPortInfo.state.collecting = true ∧
    (collecting.port 1).selected = .selected ∧
    1 ∈ (collecting.aggregator (collecting.port 1).actorPortAggregatorIdentifier).ports ∧
    (collecting.port 1).partnerPortInfo.state.synchronization = true := by
  obtain ⟨told, ports⟩ := synchronization_told reachable_collecting
  obtain ⟨-, synchronization, partner⟩ := ports 1 (by decide +kernel)
  have isCollecting : (collecting.port 1).actorPortInfo.state.collecting = true := by decide +kernel
  obtain ⟨selected, member⟩ := synchronization (by decide +kernel)
  exact ⟨⟨by decide +kernel, told⟩, isCollecting, selected, member, partner isCollecting⟩

/-! ### The rate limit -/

/-- A port sends what it counts. -/
structure Counts (id : PortId) (lacp next : Lacp World) : Prop where
  sent : next.sentBy id + (lacp.port id).pktSent = lacp.sentBy id + (next.port id).pktSent
  few : (lacp.port id).pktSent ≤ 3 → (next.port id).pktSent ≤ 3
  below : lacp.nextPortAggId = 0 ∨ id < lacp.nextPortAggId.toNat →
    next.nextPortAggId = 0 ∨ id < next.nextPortAggId.toNat

theorem Counts.of_same (sent : next.sent = lacp.sent)
    (pktSent : (next.port id).pktSent = (lacp.port id).pktSent)
        (isNext : next.nextPortAggId = lacp.nextPortAggId) : Counts id lacp next where
  sent := by
    unfold sentBy
    rw [sent, pktSent]
  few := fun few => pktSent ▸ few
  below := fun below => isNext ▸ below

theorem DeviceOnly.counts (only : lacp.DeviceOnly next) : Counts id lacp next :=
  .of_same only.sent (by rw [only.port]) only.next

theorem pktSent_setPort (lacp : Lacp World) (id other : PortId) {change : Port → Port}
    (same : ∀ port : Port, (change port).pktSent = port.pktSent) :
    ((lacp.setPort other change).port id).pktSent = (lacp.port id).pktSent := by
  by_cases isSame : id = other
  · rw [isSame, setPort_self, same]
  · rw [setPort_of_ne isSame]

theorem Counts.setPort (lacp : Lacp World) (id other : PortId) {change : Port → Port}
    (same : ∀ port : Port, (change port).pktSent = port.pktSent) :
        Counts id lacp (lacp.setPort other change) :=
  .of_same rfl (lacp.pktSent_setPort id other same) rfl

theorem Counts.trans {middle : Lacp World} (first : Counts id lacp middle)
    (second : Counts id middle next) :
    Counts id lacp next where
  sent := by
    have one := first.sent
    have two := second.sent
    omega
  few := fun few => second.few (first.few few)
  below := fun below => second.below (first.below below)

theorem Counts.schedule {middle : Lacp World} (first : Counts id lacp middle) (other : PortId) :
    Counts id lacp (middle.scheduleRun other) :=
  first.trans (.setPort middle id other fun _ => rfl)

theorem Counts.addDevice (isOld : id ≠ lacp.nextPortAggId.toNat) (dev userKey : BitVec 32)
    (portAllocated aggregatorAllocated : Bool) :
    Counts id lacp (lacp.addDevice api dev userKey portAllocated aggregatorAllocated) := by
  have same : Counts id lacp lacp := .of_same rfl rfl rfl
  unfold Lacp.addDevice
  split_ifs with _ isNext _
  · exact same
  · exact same
  · exact same
  · have isPort : (lacp.join (portNew api lacp dev userKey) isNext).port id = lacp.port id :=
      Function.update_of_ne isOld ..
    have joined : Counts id lacp (lacp.join (portNew api lacp dev userKey) isNext) := by
      refine ⟨?_, fun few => isPort ▸ few, fun below => ?_⟩
      · rw [isPort]
        rfl
      · exact (succ_toNat _).imp_right (Nat.lt_trans (below.resolve_left isNext))
    refine Counts.schedule ?_ _
    exact joined.trans (.of_same rfl rfl rfl)

theorem Counts.runnerRun (sound : lacp.Sound) {other : PortId} (isPort : other ∈ lacp.ports)
    {fuel rounds : Nat} (isAfter : runnerRun api fuel rounds other lacp = some after) :
        Counts id lacp after := by
  obtain ⟨runs, -, -⟩ := (Runs.begin sound.kept isPort).runnerRun_sound isAfter
  refine ⟨?_, fun few => ?_, fun below => runs.next ▸ below⟩ <;> by_cases isSame : id = other
  · rw [isSame]
    exact runs.sent
  · rw [runs.sentOthers id isSame, runs.others id isSame]
  · rw [isSame]
    exact (runs.kept.ok other runs.isPort).pktSent
  · rw [runs.others id isSame]
    exact few

theorem Counts.expire {other : PortId} {pending : Port → Bool} {expired : Port → Port}
    {callback : Lacp World → Option (Lacp World)}
    (first : Counts id lacp (lacp.setPort other expired))
    (called : other ∈ lacp.ports → callback (lacp.setPort other expired) = some next →
      Counts id (lacp.setPort other expired) next)
    (isNext : lacp.expire other pending expired callback = some next) : Counts id lacp next := by
  unfold Lacp.expire at isNext
  split at isNext
  · next due => exact first.trans (called due.1 isNext)
  · cases isNext

theorem Sound.step_counts (sound : lacp.Sound) {event : Event World}
    (below : lacp.nextPortAggId = 0 ∨ id < lacp.nextPortAggId.toNat)
    (limited : event ≠ .rateLimit id) (isNext : lacp.step api event = some next) :
        Counts id lacp next := by
  have same (lacp : Lacp World) : Counts id lacp lacp := .of_same rfl rfl rfl
  have scheduled (other : PortId) (lacp : Lacp World)
      (isNext : some (lacp.scheduleRun other) = some next) :
      Counts id lacp next := Option.some.inj isNext ▸ .schedule (same lacp) other
  cases event with
  | addDevice dev userKey portAllocated aggregatorAllocated =>
    obtain rfl := Option.some.inj isNext
    by_cases wrapped : lacp.nextPortAggId = 0
    · have unchanged : lacp.addDevice api dev userKey portAllocated aggregatorAllocated = lacp := by
        unfold Lacp.addDevice
        rw [dif_pos wrapped, ite_self]
      rw [unchanged]
      exact same lacp
    · exact .addDevice (Nat.ne_of_lt (below.resolve_left wrapped)) dev userKey portAllocated
        aggregatorAllocated
  | delDevice dev =>
    obtain rfl := Option.some.inj isNext
    have left : Left lacp (lacp.delDevice api dev) := sound.kept.delDevice dev
    exact .of_same left.sent (by rw [left.port]) left.next
  | linkStatusChanged dev newStatus =>
    obtain rfl := Option.some.inj isNext
    unfold Lacp.linkStatusChanged
    split
    · exact same lacp
    · refine .schedule (.setPort lacp id _ fun _ => ?_) _
      rfl
  | receiveLacpdu dev pkt =>
    obtain rfl := Option.some.inj isNext
    unfold Lacp.receiveLacpdu
    split
    · exact same lacp
    · refine .schedule (.setPort lacp id _ fun _ => ?_) _
      rfl
  | runner fuel rounds other =>
    rw [Lacp.step] at isNext
    refine Counts.expire ?_ (fun isPort isAfter => ?_) isNext
    · exact .setPort lacp id other fun _ => rfl
    · exact .runnerRun (sound.scheduled other) isPort isAfter
  | currentWhile other =>
    rw [Lacp.step] at isNext
    refine Counts.expire ?_ (fun _ => scheduled other _) isNext
    exact .setPort lacp id other fun _ => rfl
  | periodic other =>
    rw [Lacp.step] at isNext
    refine Counts.expire ?_ (fun _ => scheduled other _) isNext
    exact .setPort lacp id other fun _ => rfl
  | waitWhile other =>
    rw [Lacp.step] at isNext
    refine Counts.expire ?_ (fun _ isAfter => ?_) isNext
    · exact .setPort lacp id other fun _ => rfl
    · obtain rfl := Option.some.inj isAfter
      unfold Lacp.waitWhileTimerCb
      split
      · exact same _
      · split
        · exact same _
        · refine .schedule (.trans ?_ (deviceOnly_updateReady _ _).counts) other
          exact .setPort _ id other fun _ => rfl
  | rateLimit other =>
    have isOther : id ≠ other := fun same => limited (same ▸ rfl)
    rw [Lacp.step] at isNext
    refine Counts.expire ?_ (fun _ => scheduled other _) isNext
    refine .of_same rfl ?_ rfl
    rw [setPort_of_ne isOther]
  | environment world =>
    obtain rfl := Option.some.inj isNext
    exact .of_same rfl rfl rfl

theorem Sound.runEvents_counts (sound : lacp.Sound) {events : List (Event World)}
    (below : lacp.nextPortAggId = 0 ∨ id < lacp.nextPortAggId.toNat)
    (limited : Event.rateLimit id ∉ events) (isNext : runEvents api events lacp = some next) :
        Counts id lacp next := by
  induction events generalizing lacp with
  | nil =>
    obtain rfl := Option.some.inj isNext
    exact .of_same rfl rfl rfl
  | cons event events ih =>
    obtain ⟨middle, isMiddle, isNext⟩ := Option.bind_eq_some_iff.mp isNext
    obtain ⟨isEvent, limited⟩ := not_or.mp (mt List.mem_cons.mpr limited)
    have first := sound.step_counts below (Ne.symm isEvent) isMiddle
    exact first.trans (ih (sound.step isMiddle) (first.below below) limited isNext)

/-- **No port sends more than three LACPDUs while its rate limit is not lifted.** -/
theorem sent_at_most_three (reachable : Reachable api lacp) (isPort : id ∈ lacp.ports)
    {events : List (Event World)} (limited : Event.rateLimit id ∉ events)
    (isNext : runEvents api events lacp = some next) :
    next.sentBy id ≤ lacp.sentBy id + 3 := by
  have sound := reachable.sound
  have counts := sound.runEvents_counts (sound.kept.below id isPort) limited isNext
  have few := counts.few (sound.kept.ok id isPort).pktSent
  have sent := counts.sent
  omega

theorem sent_at_most_three_collecting : collecting.sentBy 1 ≤ bothJoined.sentBy 1 + 3 ∧
    collecting.sentBy 1 = 3 :=
  have limited : Event.rateLimit 1 ∉ partnerEvents := by simp [partnerEvents]
  ⟨sent_at_most_three reachable_bothJoined (by decide +kernel) limited runEvents_collecting, by
    decide +kernel⟩

end Lacp

end Qsdk.Lacpd
