/-
**What holds in every state of an instance.**

Whatever happens to an instance, in whatever order, the ports and the aggregators fit together,
every port that is attached is selected, and every LACPDU that was sent told how far its port was
attached (`Sound`, `Reachable.sound`).
-/

import Qsdk.Lacp.Outcome

namespace Qsdk.Lacpd

variable {World : Type} {api : OutApi World} {lacp after next : Lacp World} {id : PortId}
    {agg : AggregatorId}
  {ports : List PortId}

/-- What the last run of a port has left. -/
structure Port.Quiet (port : Port) : Prop where
  attached : port.mux ≠ .detached → port.selected = .selected
  collecting : port.mux = .collectingDistributing →
    port.partnerPortInfo.state.synchronization = true

theorem Port.Outcome.quiet {ready : Bool} {port : Port} (outcome : port.Outcome ready) :
    port.Quiet where
  attached := fun _ => outcome.selected.2.1
  collecting := by
    intro isMux
    rcases outcome.attaching with ⟨isWaiting, -⟩ | ⟨isAttached, -⟩ | ⟨-, synchronization⟩
    · exact absurd (isMux.symm.trans isWaiting) nofun
    · exact absurd (isMux.symm.trans isAttached) nofun
    · exact synchronization

/-- What only the machines write. -/
structure Port.Untouched (port after : Port) : Prop where
  lacpEnabled : after.lacpEnabled = port.lacpEnabled
  portMoved : after.portMoved = port.portMoved
  selected : after.selected = port.selected
  selection : after.selection = port.selection
  aggregator : after.actorPortAggregatorIdentifier = port.actorPortAggregatorIdentifier
  mux : after.mux = port.mux
  synchronization : after.actorPortInfo.state.synchronization =
    port.actorPortInfo.state.synchronization
  collecting : after.actorPortInfo.state.collecting = port.actorPortInfo.state.collecting
  distributing : after.actorPortInfo.state.distributing = port.actorPortInfo.state.distributing
  partner : after.partnerPortInfo = port.partnerPortInfo
  pktSent : after.pktSent ≤ port.pktSent
  receive : after.receive = port.receive

theorem Port.Untouched.ok {port after : Port} (untouched : port.Untouched after) (ok : port.Ok) :
    after.Ok where
  lacpEnabled := untouched.lacpEnabled.trans ok.lacpEnabled
  portMoved := untouched.portMoved.trans ok.portMoved
  standby := by
    rw [untouched.selected]
    exact ok.standby
  unselected := by
    rw [untouched.selection, untouched.aggregator]
    exact ok.unselected
  selected := by
    rw [untouched.selected, untouched.aggregator]
    exact ok.selected
  synchronization := by rw [untouched.synchronization, untouched.mux, ok.synchronization]
  collecting := by rw [untouched.collecting, untouched.mux, ok.collecting]
  distributing := by rw [untouched.distributing, untouched.mux, ok.distributing]
  pktSent := Nat.le_trans untouched.pktSent ok.pktSent
  receive := by
    rw [untouched.receive]
    exact ok.receive

theorem Port.Untouched.quiet {port after : Port} (untouched : port.Untouched after)
    (quiet : port.Quiet) :
    after.Quiet where
  attached := by
    rw [untouched.mux, untouched.selected]
    exact quiet.attached
  collecting := by
    rw [untouched.mux, untouched.partner]
    exact quiet.collecting

namespace Lacp

structure Sound (lacp : Lacp World) : Prop where
  kept : lacp.Kept
  quiet : ∀ id ∈ lacp.ports, (lacp.port id).Quiet
  told : ∀ told ∈ lacp.sent, told.2.Told

/-! ### Ports -/

theorem Sound.setPort (sound : lacp.Sound) (id : PortId) (change : Port → Port)
    (same : ∀ port : Port, (change port).actorPortAggregatorIdentifier =
      port.actorPortAggregatorIdentifier)
    (ok : ∀ port : Port, port.Ok → (change port).Ok) (quiet : ∀ port : Port, port.Quiet →
        (change port).Quiet) :
    (lacp.setPort id change).Sound where
  kept := sound.kept.setPort (same _) (ok _)
  quiet := by
    intro other member
    by_cases isSame : other = id
    · rw [isSame, setPort_self]
      exact quiet _ (sound.quiet id (isSame ▸ member))
    · rw [setPort_of_ne isSame]
      exact sound.quiet other member
  told := sound.told

/-- A timer, a pending LACPDU or the readiness of a port is written. -/
theorem Sound.write (sound : lacp.Sound) (id : PortId) {change : Port → Port}
    (untouched : ∀ port : Port, port.Untouched (change port)) : (lacp.setPort id change).Sound :=
  sound.setPort id change (fun port => (untouched port).aggregator)
    (fun port ok => (untouched port).ok ok)
    fun port quiet => (untouched port).quiet quiet

theorem Sound.scheduleRun (sound : lacp.Sound) (id : PortId) : (lacp.scheduleRun id).Sound :=
  sound.write id fun _ => ⟨rfl, rfl, rfl, rfl, rfl, rfl, rfl, rfl, rfl, rfl, Nat.le_refl _, rfl⟩

theorem DeviceOnly.sound (only : lacp.DeviceOnly after) (sound : lacp.Sound) : after.Sound where
  kept :=
    ⟨only.ports ▸ only.among sound.kept.among, only.ports ▸ sound.kept.nodup, by
      rw [only.ports, only.next]
      exact sound.kept.below, by
      rw [only.ports, only.aggregators]
      exact sound.kept.count, by
      rw [only.ports, only.port]
      exact sound.kept.ok⟩
  quiet := by
    rw [only.ports, only.port]
    exact sound.quiet
  told := by
    rw [only.sent]
    exact sound.told

theorem deviceOnly_updateReady (lacp : Lacp World) (agg : AggregatorId) :
    lacp.DeviceOnly (lacp.updateReady agg) :=
  ⟨rfl, rfl, rfl, rfl, rfl, fun other => (lacp.updateReady_members agg other).1,
    fun other => (lacp.updateReady_members agg other).2⟩

/-! ### A device joins -/

theorem new_not_mem (kept : lacp.Kept) (isNext : lacp.nextPortAggId ≠ 0) :
    lacp.nextPortAggId.toNat ∉ lacp.ports := by
  intro member
  rcases kept.below _ member with wrapped | less
  · exact isNext wrapped
  · exact Nat.lt_irrefl _ less

theorem new_not_aggregator (isNext : lacp.nextPortAggId ≠ 0) :
    lacp.nextPortAggId ∉ lacp.aggregators := by
  intro member
  rcases (lacp.named _ member).2 with wrapped | less
  · exact isNext wrapped
  · exact Nat.lt_irrefl _ less

theorem succ_toNat (next : BitVec 32) : next + 1 = 0 ∨ next.toNat < (next + 1).toNat := by bv_omega

theorem join_port_of_mem (kept : lacp.Kept) {port : Port} (isNext : lacp.nextPortAggId ≠ 0)
    (isPort : id ∈ lacp.ports) :
    (lacp.join port isNext).port id = lacp.port id := by
  refine Function.update_of_ne (fun same => ?_) ..
  exact new_not_mem kept isNext (same ▸ isPort)

theorem join_port_self {port : Port} (isNext : lacp.nextPortAggId ≠ 0) :
    (lacp.join port isNext).port lacp.nextPortAggId.toNat = port := Function.update_self ..

theorem join_aggregator_of_mem {port : Port} (isNext : lacp.nextPortAggId ≠ 0)
    (isIn : agg ∈ lacp.aggregators) :
    (lacp.join port isNext).aggregator agg = lacp.aggregator agg := by
  refine Function.update_of_ne (fun same => ?_) ..
  exact new_not_aggregator isNext (same ▸ isIn)

theorem join_aggregator_self {port : Port} (isNext : lacp.nextPortAggId ≠ 0) :
    (lacp.join port isNext).aggregator lacp.nextPortAggId = aggregatorNew := Function.update_self ..

theorem Kept.join (kept : lacp.Kept) {port : Port} (isNext : lacp.nextPortAggId ≠ 0) (ok : port.Ok)
    (none : port.actorPortAggregatorIdentifier = 0) : (lacp.join port isNext).Kept := by
  have cases {motive : AggregatorId → Prop} (old : ∀ agg ∈ lacp.aggregators, motive agg)
      (new : motive lacp.nextPortAggId) : ∀ agg ∈ (lacp.join port isNext).aggregators,
          motive agg := by
    intro agg isIn
    rcases List.mem_append.mp isIn with isOld | isNew
    · exact old agg isOld
    · rw [List.mem_singleton.mp isNew]
      exact new
  have casesPort {motive : PortId → Prop} (old : ∀ id ∈ lacp.ports, motive id)
      (new : motive lacp.nextPortAggId.toNat) : ∀ id ∈ (lacp.join port isNext).ports,
          motive id := by
    intro id isPort
    rcases List.mem_append.mp isPort with isOld | isNew
    · exact old id isOld
    · rw [List.mem_singleton.mp isNew]
      exact new
  have isOldPort {id : PortId} (ne : id ≠ lacp.nextPortAggId.toNat) :
      id ∈ (lacp.join port isNext).ports ↔ id ∈ lacp.ports := by
    show id ∈ lacp.ports ++ _ ↔ _
    rw [List.mem_append, List.mem_singleton, or_iff_left ne]
  refine ⟨⟨?_, ?_, ?_, ?_⟩, ?_, ?_, ?_, ?_⟩
  · refine cases (fun agg isIn => ?_) ?_
    · rw [join_aggregator_of_mem isNext isIn]
      exact kept.among.free agg isIn
    · rw [join_aggregator_self]
      exact ⟨fun _ => rfl, fun _ => rfl⟩
  · refine cases (fun agg isIn id => ?_) fun id => ?_
    · rw [join_aggregator_of_mem isNext isIn, kept.among.member agg isIn]
      by_cases same : id = lacp.nextPortAggId.toNat
      · rw [same, join_port_self, none]
        exact ⟨fun ⟨member, _⟩ => absurd member (new_not_mem kept isNext),
          fun ⟨_, names⟩ => absurd names.symm (lacp.named agg isIn).1⟩
      · rw [isOldPort same]
        refine and_congr_right fun member => ?_
        rw [join_port_of_mem kept isNext member]
    · rw [join_aggregator_self]
      refine ⟨nofun, fun ⟨member, names⟩ => ?_⟩
      by_cases same : id = lacp.nextPortAggId.toNat
      · rw [same, join_port_self, none] at names
        exact absurd names.symm isNext
      · have isOld := (isOldPort same).mp member
        rw [join_port_of_mem kept isNext isOld] at names
        have listed := kept.among.listed id isOld
        rw [names] at listed
        exact absurd (listed isNext) (new_not_aggregator isNext)
  · refine cases (fun agg isIn => ?_) ?_
    · rw [join_aggregator_of_mem isNext isIn]
      exact kept.among.once agg isIn
    · rw [join_aggregator_self]
      exact List.nodup_nil
  · refine casesPort (fun id isPort nonzero => ?_) fun nonzero => ?_
    · rw [join_port_of_mem kept isNext isPort] at nonzero ⊢
      exact List.mem_append_left _ (kept.among.listed id isPort nonzero)
    · rw [join_port_self] at nonzero
      exact absurd none nonzero
  · refine List.nodup_append.mpr ⟨kept.nodup, List.nodup_singleton _,
      fun old isOld new isNew same => ?_⟩
    rw [same, List.mem_singleton.mp isNew] at isOld
    exact new_not_mem kept isNext isOld
  · refine casesPort (fun id isPort => ?_) (succ_toNat _)
    exact (succ_toNat _).imp_right (Nat.lt_trans ((kept.below id isPort).resolve_left isNext))
  · show (lacp.aggregators ++ [_]).length = (lacp.ports ++ [_]).length
    rw [List.length_append, List.length_append, kept.count]
    rfl
  · refine casesPort (fun id isPort => ?_) ?_
    · rw [join_port_of_mem kept isNext isPort]
      exact kept.ok id isPort
    · rw [join_port_self]
      exact ok

theorem ok_portNew (lacp : Lacp World) (dev userKey : BitVec 32) :
    (portNew api lacp dev userKey).Ok :=
  ⟨rfl, rfl, nofun, fun _ => rfl, nofun, rfl, rfl, rfl, Nat.zero_le _, nofun⟩

theorem Sound.addDevice (sound : lacp.Sound) (dev userKey : BitVec 32)
    (portAllocated aggregatorAllocated : Bool) :
    (lacp.addDevice api dev userKey portAllocated aggregatorAllocated).Sound := by
  unfold Lacp.addDevice
  split_ifs with _ isNext _
  · exact sound
  · exact sound
  · exact sound
  · have joined : (lacp.join (portNew api lacp dev userKey) isNext).Sound := by
      refine ⟨sound.kept.join isNext (ok_portNew lacp dev userKey) rfl, fun id isPort =>
        ?_, sound.told⟩
      rcases List.mem_append.mp isPort with isOld | isNew
      · rw [join_port_of_mem sound.kept isNext isOld]
        exact sound.quiet id isOld
      · rw [List.mem_singleton.mp isNew, join_port_self]
        exact ⟨fun attached => absurd rfl attached, fun collecting => by cases collecting⟩
    exact ((deviceOnly_world _ _).sound joined).scheduleRun _

/-! ### A device leaves -/

/-- A port that names no aggregator leaves the list. -/
theorem Among.erase (among : lacp.Among ports) (nodup : ports.Nodup)
    (none : (lacp.port id).actorPortAggregatorIdentifier = 0) : lacp.Among (ports.erase id) := by
  refine ⟨among.free, fun agg isIn other => ?_, among.once, fun other member =>
    among.listed other (List.mem_of_mem_erase member)⟩
  rw [among.member agg isIn, nodup.mem_erase_iff]
  refine ⟨fun ⟨member, names⟩ => ⟨⟨?_, member⟩, names⟩, fun ⟨⟨_, member⟩, names⟩ => ⟨member, names⟩⟩
  rintro rfl
  exact (lacp.named agg isIn).1 (names.symm.trans none)

/-- What is left of an instance when a port has left its aggregator. -/
structure Leaves (id : PortId) (lacp after : Lacp World) : Prop where
  among : after.Among (lacp.ports.erase id)
  ports : after.ports = lacp.ports.erase id
  port : after.port = lacp.port
  aggregators : after.aggregators = lacp.aggregators
  next : after.nextPortAggId = lacp.nextPortAggId
  sent : after.sent = lacp.sent

theorem Kept.portDestroy (kept : lacp.Kept) (isPort : id ∈ lacp.ports) (world : World) :
    Leaves id lacp
        (({ lacp with world, ports := lacp.ports.erase id } : Lacp World).portDestroy api id) := by
  by_cases none : (lacp.port id).actorPortAggregatorIdentifier = 0
  · have isNone : ({ lacp with world, ports := lacp.ports.erase id } : Lacp World).aggregatorLookup
        (byId (lacp.port id).actorPortAggregatorIdentifier) = Option.none := by
      rw [none]
      exact lacp.lookup_zero
    unfold Lacp.portDestroy
    rw [isNone]
    obtain ⟨free, member, once, listed⟩ := kept.among.erase kept.nodup none
    exact ⟨⟨free, member, once, listed⟩, rfl, rfl, rfl, rfl, rfl⟩
  · have isIn := kept.among.listed id isPort none
    have isSome : ({ lacp with world, ports := lacp.ports.erase id } : Lacp World).aggregatorLookup
        (byId (lacp.port id).actorPortAggregatorIdentifier) =
            some (lacp.port id).actorPortAggregatorIdentifier :=
      lookup_byId isIn
    unfold Lacp.portDestroy
    rw [isSome]
    dsimp only
    generalize isAgg : (lacp.port id).actorPortAggregatorIdentifier = agg at *
    have only :
        DeviceOnly _ (({ lacp with world, ports := lacp.ports.erase id } : Lacp World).detachPort
          api agg id) :=
      deviceOnly_detachPort _ agg id
    have among : Among _ lacp.ports :=
      only.among ⟨kept.among.free, kept.among.member, kept.among.once, kept.among.listed⟩
    obtain ⟨ports, port, aggregators, next, sent⟩ := delPort_frame
      (({ lacp with world, ports := lacp.ports.erase id } : Lacp World).detachPort api agg id) agg
      id
    refine ⟨among.delPort kept.nodup ?_ ?_, ports.trans only.ports, port.trans only.port,
      aggregators.trans only.aggregators, next.trans only.next, sent.trans only.sent⟩
    · rw [only.aggregators]
      exact isIn
    · rw [only.members]
      exact (kept.among.member agg isIn id).mpr ⟨isPort, isAgg⟩

/-- A free aggregator is given back. -/
theorem Among.unlinkAggregator (among : lacp.Among ports) (isIn : agg ∈ lacp.aggregators)
    (isFree : (lacp.aggregator agg).isFree = true) : (lacp.unlinkAggregator agg).Among ports := by
  refine ⟨fun other member => among.free other (List.mem_of_mem_erase member), fun other member =>
    among.member other (List.mem_of_mem_erase member), fun other member =>
    among.once other (List.mem_of_mem_erase member), fun id isPort nonzero => ?_⟩
  refine lacp.unique.mem_erase_iff.mpr ⟨fun same => ?_, among.listed id isPort nonzero⟩
  have isMember := (among.member agg isIn id).mpr ⟨isPort, same⟩
  rw [(among.free agg isIn).mp isFree] at isMember
  exact List.not_mem_nil isMember

/-- What is left of an instance when a device has left it. -/
structure Left (lacp after : Lacp World) : Prop where
  kept : after.Kept
  ports : ∀ id ∈ after.ports, id ∈ lacp.ports
  port : after.port = lacp.port
  next : after.nextPortAggId = lacp.nextPortAggId
  sent : after.sent = lacp.sent

theorem Kept.delDevice (kept : lacp.Kept) (dev : BitVec 32) :
    Left lacp (lacp.delDevice api dev) := by
  unfold Lacp.delDevice
  cases isFound : lacp.portLookup dev with
  | none => exact ⟨kept, fun _ member => member, rfl, rfl, rfl⟩
  | some id =>
    have isPort : id ∈ lacp.ports := by
      unfold portLookup at isFound
      split at isFound
      · cases isFound
      · exact List.mem_of_find?_eq_some isFound
    dsimp only
    have leaves : Leaves id lacp (({ lacp with
        world := api.disableLacp lacp.world dev
        ports := lacp.ports.erase id } : Lacp World).portDestroy api id) :=
          kept.portDestroy isPort _
    generalize ({ lacp with
      world := api.disableLacp lacp.world dev
      ports := lacp.ports.erase id } : Lacp World).portDestroy api id = left at leaves ⊢
    have fewer : (lacp.ports.erase id).length + 1 = lacp.ports.length := by
      have pos := List.length_pos_of_mem isPort
      rw [List.length_erase_of_mem isPort]
      omega
    -- There is one aggregator more than there are ports, so one is free.
    obtain ⟨free, isFreeIn, isFree⟩ := leaves.among.exists_free (fun _ member _ => member) (by
      rw [leaves.aggregators, kept.count]
      omega)
    cases isAgg : left.aggregatorLookup left.byFree with
    | none => exact absurd isFree (List.find?_eq_none.mp isAgg free isFreeIn)
    | some agg =>
      have isIn := List.mem_of_find?_eq_some isAgg
      have isFreeAgg : left.byFree agg = true := List.find?_some isAgg
      have destroyed : (left.unlinkAggregator agg).aggregatorDestroy api agg =
          left.unlinkAggregator agg := by
        have empty : ((left.unlinkAggregator agg).aggregator agg).ports = [] :=
          (leaves.among.free agg isIn).mp isFreeAgg
        unfold Lacp.aggregatorDestroy
        rw [empty]
        rfl
      have isPorts : (left.unlinkAggregator agg).ports = lacp.ports.erase id := leaves.ports
      have isPortOf : (left.unlinkAggregator agg).port = lacp.port := leaves.port
      have isNext : (left.unlinkAggregator agg).nextPortAggId = lacp.nextPortAggId := leaves.next
      dsimp only
      rw [destroyed]
      refine ⟨⟨?_, ?_, ?_, ?_, ?_⟩, ?_, isPortOf, isNext, leaves.sent⟩
      · rw [isPorts]
        exact leaves.among.unlinkAggregator isIn isFreeAgg
      · rw [isPorts]
        exact kept.nodup.erase id
      · rw [isPorts, isNext]
        exact fun other member => kept.below other (List.mem_of_mem_erase member)
      · rw [isPorts]
        show (left.aggregators.erase agg).length = _
        rw [List.length_erase_of_mem isIn, leaves.aggregators, kept.count]
        omega
      · rw [isPorts, isPortOf]
        exact fun other member => kept.ok other (List.mem_of_mem_erase member)
      · rw [isPorts]
        exact fun other member => List.mem_of_mem_erase member

theorem Sound.delDevice (sound : lacp.Sound) (dev : BitVec 32) :
    (lacp.delDevice api dev).Sound := by
  have left : Left lacp (lacp.delDevice api dev) := sound.kept.delDevice dev
  refine ⟨left.kept, ?_, ?_⟩
  · rw [left.port]
    exact fun id member => sound.quiet id (left.ports id member)
  · rw [left.sent]
    exact sound.told

/-! ### Every event -/

theorem Sound.runnerRun (sound : lacp.Sound) (isPort : id ∈ lacp.ports) {fuel rounds : Nat}
    (isAfter : runnerRun api fuel rounds id lacp = some after) : after.Sound := by
  obtain ⟨runs, still, fresh⟩ := (Runs.begin sound.kept isPort).runnerRun_sound isAfter
  refine ⟨runs.kept, fun other member => ?_, runs.told sound.told⟩
  rw [runs.ports] at member
  by_cases same : other = id
  · rw [same]
    cases isInitialized : (lacp.port id).initialized with
    | true => exact (runs.kept.outcome runs.isPort (still isInitialized)).quiet
    | false =>
      have isMux := fresh isInitialized
      exact ⟨fun attached => absurd isMux attached, fun collecting =>
        absurd (isMux.symm.trans collecting) nofun⟩
  · rw [runs.others other same]
    exact sound.quiet other member

theorem Sound.linkStatusChanged (sound : lacp.Sound) (dev : BitVec 32) (newStatus : Bool) :
    (lacp.linkStatusChanged api dev newStatus).Sound := by
  unfold Lacp.linkStatusChanged
  split
  · exact sound
  · refine Sound.scheduleRun (sound.write _ fun _ => ?_) _
    exact ⟨rfl, rfl, rfl, rfl, rfl, rfl, rfl, rfl, rfl, rfl, Nat.le_refl _, rfl⟩

theorem Sound.receiveLacpdu (sound : lacp.Sound) (dev : BitVec 32) (pkt : Lacpdu) :
    (lacp.receiveLacpdu dev pkt).Sound := by
  unfold Lacp.receiveLacpdu
  split
  · exact sound
  · refine Sound.scheduleRun (sound.write _ fun _ => ?_) _
    exact ⟨rfl, rfl, rfl, rfl, rfl, rfl, rfl, rfl, rfl, rfl, Nat.le_refl _, rfl⟩

theorem Sound.waitWhileTimerCb (sound : lacp.Sound) (id : PortId) :
    (lacp.waitWhileTimerCb id).Sound := by
  unfold Lacp.waitWhileTimerCb
  split
  · exact sound
  · split
    · exact sound
    · refine Sound.scheduleRun ((deviceOnly_updateReady _ _).sound (sound.write _ fun _ => ?_)) _
      exact ⟨rfl, rfl, rfl, rfl, rfl, rfl, rfl, rfl, rfl, rfl, Nat.le_refl _, rfl⟩

/-- A timer that expires. -/
theorem Sound.expire (sound : lacp.Sound) {pending : Port → Bool} {expired : Port → Port}
    {callback : Lacp World → Option (Lacp World)}
    (untouched : ∀ port : Port, port.Untouched (expired port))
    (called : ∀ lacp : Lacp World, lacp.Sound → id ∈ lacp.ports →
      callback lacp = some next → next.Sound)
    (isNext : lacp.expire id pending expired callback = some next) : next.Sound := by
  unfold Lacp.expire at isNext
  split at isNext
  · next due => exact called _ (sound.write id untouched) due.1 isNext
  · cases isNext

theorem Sound.step (sound : lacp.Sound) {event : Event World}
    (isNext : lacp.step api event = some next) :
    next.Sound := by
  have scheduled (id : PortId) (lacp : Lacp World) (sound : lacp.Sound) (_ : id ∈ lacp.ports)
      (isNext : some (lacp.scheduleRun id) = some next) : next.Sound :=
    Option.some.inj isNext ▸ sound.scheduleRun id
  cases event with
  | addDevice dev userKey portAllocated aggregatorAllocated =>
    obtain rfl := Option.some.inj isNext
    exact sound.addDevice dev userKey portAllocated aggregatorAllocated
  | delDevice dev =>
    obtain rfl := Option.some.inj isNext
    exact sound.delDevice dev
  | linkStatusChanged dev newStatus =>
    obtain rfl := Option.some.inj isNext
    exact sound.linkStatusChanged dev newStatus
  | receiveLacpdu dev pkt =>
    obtain rfl := Option.some.inj isNext
    exact sound.receiveLacpdu dev pkt
  | runner fuel rounds id =>
    refine sound.expire (fun _ => ?_) (fun _ sound isPort isAfter =>
      sound.runnerRun isPort isAfter) isNext
    exact ⟨rfl, rfl, rfl, rfl, rfl, rfl, rfl, rfl, rfl, rfl, Nat.le_refl _, rfl⟩
  | currentWhile id =>
    refine sound.expire (fun _ => ?_) (scheduled id) isNext
    exact ⟨rfl, rfl, rfl, rfl, rfl, rfl, rfl, rfl, rfl, rfl, Nat.le_refl _, rfl⟩
  | periodic id =>
    refine sound.expire (fun _ => ?_) (scheduled id) isNext
    exact ⟨rfl, rfl, rfl, rfl, rfl, rfl, rfl, rfl, rfl, rfl, Nat.le_refl _, rfl⟩
  | waitWhile id =>
    rw [Lacp.step] at isNext
    refine sound.expire (fun _ => ?_) (fun lacp sound _ isAfter => ?_) isNext
    · exact ⟨rfl, rfl, rfl, rfl, rfl, rfl, rfl, rfl, rfl, rfl, Nat.le_refl _, rfl⟩
    · obtain rfl := Option.some.inj isAfter
      exact sound.waitWhileTimerCb id
  | rateLimit id =>
    refine sound.expire (fun _ => ?_) (scheduled id) isNext
    exact ⟨rfl, rfl, rfl, rfl, rfl, rfl, rfl, rfl, rfl, rfl, Nat.zero_le _, rfl⟩
  | environment world =>
    obtain rfl := Option.some.inj isNext
    exact (lacp.deviceOnly_world world).sound sound

theorem Reachable.sound (reachable : Reachable api lacp) : lacp.Sound := by
  induction reachable with
  | new adSelect lacpRate actorSystem actorSystemPriority world port =>
    have none {α : Type} {motive : α → Prop} : ∀ element ∈ ([] : List α), motive element :=
      fun _ member => absurd member List.not_mem_nil
    exact ⟨⟨⟨none, none, none, none⟩, List.nodup_nil, none, rfl, none⟩, none, none⟩
  | step _ event isNext ih => exact ih.step isNext

end Lacp

end Qsdk.Lacpd
