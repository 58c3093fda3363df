/-
**The members of the aggregators.**

An instance has as many aggregators as ports, an aggregator is free exactly if it has no member, and
the members of an aggregator are the ports that name it (`Kept`). So a port that names no aggregator
leaves one free (`exists_free`), and a selection always succeeds. What is done to the devices leaves
all of this alone (`DeviceOnly`).
-/

import Qsdk.Lacp.PortRank
import Mathlib.Data.List.Perm.Subperm

namespace Qsdk.Lacpd

variable {World : Type} {api : OutApi World} {lacp after : Lacp World} {id : PortId}
    {agg : AggregatorId}
  {ports : List PortId}

namespace Lacp

/-! ### What is written -/

@[simp] theorem setPort_self (lacp : Lacp World) (id : PortId) (change : Port → Port) :
    (lacp.setPort id change).port id = change (lacp.port id) := Function.update_self ..

theorem setPort_of_ne {other : PortId} (ne : other ≠ id) (change : Port → Port) :
    (lacp.setPort id change).port other = lacp.port other := Function.update_of_ne ne ..

@[simp] theorem setAggregator_self (lacp : Lacp World) (agg : AggregatorId)
    (change : Aggregator → Aggregator) :
    (lacp.setAggregator agg change).aggregator agg = change (lacp.aggregator agg) :=
    Function.update_self ..

theorem setAggregator_of_ne {other : AggregatorId} (ne : other ≠ agg)
    (change : Aggregator → Aggregator) :
    (lacp.setAggregator agg change).aggregator other = lacp.aggregator other :=
    Function.update_of_ne ne ..

/-! ### The invariant -/

/-- The members of the aggregators are the ports of a list, each in the aggregator that it names. -/
structure Among (lacp : Lacp World) (ports : List PortId) : Prop where
  free : ∀ agg ∈ lacp.aggregators, (lacp.aggregator agg).isFree = true ↔
    (lacp.aggregator agg).ports = []
  member : ∀ agg ∈ lacp.aggregators, ∀ id, id ∈ (lacp.aggregator agg).ports ↔
    id ∈ ports ∧ (lacp.port id).actorPortAggregatorIdentifier = agg
  once : ∀ agg ∈ lacp.aggregators, (lacp.aggregator agg).ports.Nodup
  listed : ∀ id ∈ ports, (lacp.port id).actorPortAggregatorIdentifier ≠ 0 →
    (lacp.port id).actorPortAggregatorIdentifier ∈ lacp.aggregators

structure Kept (lacp : Lacp World) : Prop where
  among : lacp.Among lacp.ports
  nodup : lacp.ports.Nodup
  below : ∀ id ∈ lacp.ports, lacp.nextPortAggId = 0 ∨ id < lacp.nextPortAggId.toNat
  count : lacp.aggregators.length = lacp.ports.length
  ok : ∀ id ∈ lacp.ports, (lacp.port id).Ok

/-- Only the devices differ, and which aggregators are ready. -/
structure DeviceOnly (lacp after : Lacp World) : Prop where
  ports : after.ports = lacp.ports
  port : after.port = lacp.port
  aggregators : after.aggregators = lacp.aggregators
  next : after.nextPortAggId = lacp.nextPortAggId
  sent : after.sent = lacp.sent
  members : ∀ agg, (after.aggregator agg).ports = (lacp.aggregator agg).ports
  free : ∀ agg, (after.aggregator agg).isFree = (lacp.aggregator agg).isFree

theorem DeviceOnly.refl (lacp : Lacp World) : lacp.DeviceOnly lacp :=
  ⟨rfl, rfl, rfl, rfl, rfl, fun _ => rfl, fun _ => rfl⟩

theorem DeviceOnly.trans {middle : Lacp World} (first : lacp.DeviceOnly middle)
    (second : middle.DeviceOnly after) :
    lacp.DeviceOnly after where
  ports := second.ports.trans first.ports
  port := second.port.trans first.port
  aggregators := second.aggregators.trans first.aggregators
  next := second.next.trans first.next
  sent := second.sent.trans first.sent
  members := fun agg => (second.members agg).trans (first.members agg)
  free := fun agg => (second.free agg).trans (first.free agg)

theorem DeviceOnly.among (only : lacp.DeviceOnly after) (among : lacp.Among ports) :
    after.Among ports where
  free := by
    rw [only.aggregators]
    intro agg isIn
    rw [only.free, only.members]
    exact among.free agg isIn
  member := by
    rw [only.aggregators, only.port]
    intro agg isIn
    rw [only.members]
    exact among.member agg isIn
  once := by
    rw [only.aggregators]
    intro agg isIn
    rw [only.members]
    exact among.once agg isIn
  listed := by
    rw [only.aggregators, only.port]
    exact among.listed

/-! ### Devices -/

theorem deviceOnly_setDevIfindex (lacp : Lacp World) (agg : AggregatorId) (dev : BitVec 32) :
    lacp.DeviceOnly (lacp.setDevIfindex agg dev) := by
  refine ⟨rfl, rfl, rfl, rfl, rfl, fun other => ?_, fun other => ?_⟩ <;>
  · unfold setDevIfindex
    by_cases same : other = agg
    · rw [same, setAggregator_self]
    · rw [setAggregator_of_ne same]

theorem deviceOnly_world (lacp : Lacp World) (world : World) :
    lacp.DeviceOnly { lacp with world } :=
  ⟨rfl, rfl, rfl, rfl, rfl, fun _ => rfl, fun _ => rfl⟩

theorem deviceOnly_selectActiveAggregator (lacp : Lacp World) :
    lacp.DeviceOnly (lacp.selectActiveAggregator api) :=
  ⟨rfl, rfl, rfl, rfl, rfl, fun _ => rfl, fun _ => rfl⟩

theorem deviceOnly_attachSlave (lacp : Lacp World) (agg : AggregatorId) (id : PortId) :
    lacp.DeviceOnly (lacp.attachSlave api agg id) := by
  unfold attachSlave
  dsimp only
  split_ifs
  · exact .refl lacp
  · exact (lacp.deviceOnly_world _).trans (deviceOnly_selectActiveAggregator _)
  · exact lacp.deviceOnly_world _

theorem deviceOnly_attachPort (lacp : Lacp World) (agg : AggregatorId) (id : PortId) :
    lacp.DeviceOnly (lacp.attachPort api agg id) := by
  have created (world : World) (dev : BitVec 32) :
      lacp.DeviceOnly (({ lacp with world } : Lacp World).setDevIfindex agg dev) :=
    (lacp.deviceOnly_world world).trans (deviceOnly_setDevIfindex _ agg dev)
  unfold attachPort
  dsimp only
  split_ifs
  · exact .refl lacp
  · exact created _ _
  · exact (created _ _).trans (deviceOnly_attachSlave _ agg id)
  · exact lacp.deviceOnly_attachSlave agg id

theorem deviceOnly_detachPort (lacp : Lacp World) (agg : AggregatorId) (id : PortId) :
    lacp.DeviceOnly (lacp.detachPort api agg id) := by
  have detached (world : World) :
      lacp.DeviceOnly (({ lacp with world } : Lacp World).selectActiveAggregator api) :=
    (lacp.deviceOnly_world world).trans (deviceOnly_selectActiveAggregator _)
  unfold detachPort
  dsimp only
  split_ifs
  · exact .refl lacp
  · exact .refl lacp
  · exact lacp.deviceOnly_world _
  · exact detached _
  · exact ((detached _).trans (deviceOnly_world _ _)).trans (deviceOnly_setDevIfindex _ agg 0)
  · exact (detached _).trans (deviceOnly_world _ _)

theorem deviceOnly_disableCollectingDistributing (lacp : Lacp World) (id : PortId) :
    lacp.DeviceOnly (lacp.disableCollectingDistributing api id) := by
  unfold disableCollectingDistributing
  split
  · exact .refl lacp
  · exact lacp.deviceOnly_detachPort _ id

theorem deviceOnly_enableCollectingDistributing (lacp : Lacp World) (id : PortId) :
    lacp.DeviceOnly (lacp.enableCollectingDistributing api id) := by
  unfold enableCollectingDistributing
  split
  · exact .refl lacp
  · exact lacp.deviceOnly_attachPort _ id

/-! ### Ports -/

/-- A port that names the same aggregator as before is written. -/
theorem Among.setPort (among : lacp.Among ports) {change : Port → Port}
    (same : (change (lacp.port id)).actorPortAggregatorIdentifier =
        (lacp.port id).actorPortAggregatorIdentifier) :
    (lacp.setPort id change).Among ports := by
  have named (other : PortId) :
    ((lacp.setPort id change).port other).actorPortAggregatorIdentifier =
      (lacp.port other).actorPortAggregatorIdentifier := by
    by_cases isSame : other = id
    · rw [isSame, setPort_self, same]
    · rw [setPort_of_ne isSame]
  refine ⟨among.free, fun agg isIn other => ?_, among.once, fun other member => ?_⟩
  · rw [named]
    exact among.member agg isIn other
  · rw [named]
    exact among.listed other member

/-- The ports of an instance in which one port may differ. -/
theorem Kept.of_port (kept : lacp.Kept) (among : after.Among lacp.ports)
    (ports : after.ports = lacp.ports) (aggregators : after.aggregators = lacp.aggregators)
    (next : after.nextPortAggId = lacp.nextPortAggId) (others : ∀ other, other ≠ id →
        after.port other = lacp.port other) (ok : id ∈ lacp.ports → (after.port id).Ok) :
    after.Kept where
  among := by
    rw [ports]
    exact among
  nodup := by
    rw [ports]
    exact kept.nodup
  below := by
    rw [ports, next]
    exact kept.below
  count := by rw [ports, aggregators, kept.count]
  ok := by
    rw [ports]
    intro other member
    by_cases isSame : other = id
    · rw [isSame] at member ⊢
      exact ok member
    · rw [others other isSame]
      exact kept.ok other member

theorem Kept.setPort (kept : lacp.Kept) {change : Port → Port}
    (same : (change (lacp.port id)).actorPortAggregatorIdentifier =
      (lacp.port id).actorPortAggregatorIdentifier)
    (ok : (lacp.port id).Ok → (change (lacp.port id)).Ok) : (lacp.setPort id change).Kept :=
  kept.of_port (kept.among.setPort same) rfl rfl rfl
      (fun _ ne => setPort_of_ne ne change) fun member => by
    rw [setPort_self]
    exact ok (kept.ok id member)

/-- After calls for the devices, a port is written. -/
theorem Kept.deviceOnly_setPort {middle : Lacp World} (kept : lacp.Kept)
    {first second : Port → Port} (only : (lacp.setPort id first).DeviceOnly middle)
    (same : (second (first (lacp.port id))).actorPortAggregatorIdentifier =
      (lacp.port id).actorPortAggregatorIdentifier)
    (sameFirst : (first (lacp.port id)).actorPortAggregatorIdentifier =
      (lacp.port id).actorPortAggregatorIdentifier)
    (ok : (lacp.port id).Ok → (second (first (lacp.port id))).Ok) :
    (middle.setPort id second).Kept ∧ (middle.setPort id second).port id =
        second (first (lacp.port id)) := by
  have isPort : (middle.setPort id second).port id = second (first (lacp.port id)) := by
    rw [setPort_self, only.port, setPort_self]
  have named : (second (middle.port id)).actorPortAggregatorIdentifier =
      (middle.port id).actorPortAggregatorIdentifier := by
    rw [only.port, setPort_self, same, sameFirst]
  have others : ∀ other, other ≠ id → (middle.setPort id second).port other = lacp.port other := by
    intro other ne
    rw [setPort_of_ne ne, only.port, setPort_of_ne ne]
  refine ⟨kept.of_port ((only.among (kept.among.setPort sameFirst)).setPort named) only.ports
    only.aggregators only.next
    others fun member => ?_, isPort⟩
  rw [isPort]
  exact ok (kept.ok id member)

/-! ### Members come and go -/

theorem updateReady_members (lacp : Lacp World) (agg other : AggregatorId) :
    ((lacp.updateReady agg).aggregator other).ports = (lacp.aggregator other).ports ∧
      ((lacp.updateReady agg).aggregator other).isFree = (lacp.aggregator other).isFree := by
  unfold updateReady
  by_cases same : other = agg
  · rw [same, setAggregator_self]
    exact ⟨rfl, rfl⟩
  · rw [setAggregator_of_ne same]
    exact ⟨rfl, rfl⟩

/-- What is left of an aggregator without a member. -/
theorem delPort_self (lacp : Lacp World) (agg : AggregatorId) (id : PortId)
    (free : (lacp.aggregator agg).isFree = true ↔ (lacp.aggregator agg).ports = []) :
    ((lacp.delPort agg id).aggregator agg).ports = (lacp.aggregator agg).ports.erase id ∧
      (((lacp.delPort agg id).aggregator agg).isFree = true ↔
          (lacp.aggregator agg).ports.erase id = []) := by
  unfold delPort
  split
  · next contained =>
    have nonempty : (lacp.aggregator agg).ports ≠ [] := by
      intro empty
      rw [empty] at contained
      cases contained
    obtain ⟨members, isFree⟩ := updateReady_members (lacp.setAggregator agg fun it =>
      let it' := { it with ports := it.ports.erase id }
      if it'.ports.isEmpty then clear it' else it') agg agg
    dsimp only at members isFree ⊢
    rw [members, isFree, setAggregator_self]
    split
    · next empty => exact ⟨rfl, fun _ => List.isEmpty_iff.mp empty, fun _ => rfl⟩
    · next left => exact ⟨rfl, fun isFree' => absurd (free.mp isFree') nonempty,
        fun empty => absurd (List.isEmpty_iff.mpr empty) left⟩
  · next absent =>
    have absent' : id ∉ (lacp.aggregator agg).ports := fun member =>
      absent (List.contains_iff_mem.mpr member)
    rw [List.erase_of_not_mem absent']
    exact ⟨rfl, free⟩

theorem delPort_other {other : AggregatorId} (ne : other ≠ agg) (id : PortId) :
    ((lacp.delPort agg id).aggregator other).ports = (lacp.aggregator other).ports ∧
      ((lacp.delPort agg id).aggregator other).isFree = (lacp.aggregator other).isFree := by
  unfold delPort
  split
  · obtain ⟨members, isFree⟩ := updateReady_members (lacp.setAggregator agg fun it =>
      let it' := { it with ports := it.ports.erase id }
      if it'.ports.isEmpty then clear it' else it') agg other
    dsimp only at members isFree ⊢
    rw [members, isFree, setAggregator_of_ne ne]
    exact ⟨rfl, rfl⟩
  · exact ⟨rfl, rfl⟩

theorem delPort_frame (lacp : Lacp World) (agg : AggregatorId) (id : PortId) :
    (lacp.delPort agg id).ports = lacp.ports ∧ (lacp.delPort agg id).port = lacp.port ∧
      (lacp.delPort agg id).aggregators = lacp.aggregators ∧
      (lacp.delPort agg id).nextPortAggId = lacp.nextPortAggId ∧
          (lacp.delPort agg id).sent = lacp.sent := by
  unfold delPort
  split <;> exact ⟨rfl, rfl, rfl, rfl, rfl⟩

/-- A port leaves its aggregator. -/
theorem Among.delPort (among : lacp.Among ports) (nodup : ports.Nodup)
    (isIn : agg ∈ lacp.aggregators) (isMember : id ∈ (lacp.aggregator agg).ports) :
        (lacp.delPort agg id).Among (ports.erase id) := by
  obtain ⟨-, port, aggregators, -, -⟩ := lacp.delPort_frame agg id
  obtain ⟨members, isFree⟩ := lacp.delPort_self agg id (among.free agg isIn)
  obtain ⟨isPort, names⟩ := (among.member agg isIn id).mp isMember
  refine ⟨?_, ?_, ?_, ?_⟩
  · rw [aggregators]
    intro other isOther
    by_cases same : other = agg
    · rw [same, isFree, members]
    · rw [(delPort_other same id).1, (delPort_other same id).2]
      exact among.free other isOther
  · rw [aggregators, port]
    intro other isOther port'
    rw [nodup.mem_erase_iff]
    by_cases same : other = agg
    · rw [same, members, (among.once agg isIn).mem_erase_iff, among.member agg isIn]
      exact (and_assoc).symm
    · rw [(delPort_other same id).1, among.member other isOther]
      refine ⟨fun ⟨member, names'⟩ => ⟨⟨?_, member⟩, names'⟩, fun ⟨⟨_, member⟩, names'⟩ =>
        ⟨member, names'⟩⟩
      intro isSame
      rw [isSame, names] at names'
      exact same names'.symm
  · rw [aggregators]
    intro other isOther
    by_cases same : other = agg
    · rw [same, members]
      exact (among.once agg isIn).erase id
    · rw [(delPort_other same id).1]
      exact among.once other isOther
  · rw [aggregators, port]
    exact fun other member => among.listed other (List.mem_of_mem_erase member)

/-- A port that is a member of no aggregator. -/
theorem Among.of_erase (among : lacp.Among (ports.erase id)) (nodup : ports.Nodup)
    (none : (lacp.port id).actorPortAggregatorIdentifier = 0) : lacp.Among ports := by
  refine ⟨among.free, fun agg isIn other => ?_, among.once, fun other member nonzero => ?_⟩
  · rw [among.member agg isIn, nodup.mem_erase_iff]
    refine ⟨fun ⟨⟨_, member⟩, names⟩ => ⟨member, names⟩, fun ⟨member, names⟩ =>
      ⟨⟨?_, member⟩, names⟩⟩
    rintro rfl
    exact (lacp.named agg isIn).1 (names.symm.trans none)
  · refine among.listed other (nodup.mem_erase_iff.mpr ⟨?_, member⟩) nonzero
    rintro rfl
    exact nonzero none

theorem lookup_byId (isIn : agg ∈ lacp.aggregators) : lacp.aggregatorLookup (byId agg) =
    some agg := by
  have nonzero := (lacp.named agg isIn).1
  have found : (byId agg agg) = true := by
    unfold byId
    rw [beq_self_eq_true, Bool.and_true, Bool.and_self]
    exact bne_iff_ne.mpr nonzero
  unfold aggregatorLookup
  cases isFound : lacp.aggregators.find? (byId agg) with
  | none => exact absurd found (List.find?_eq_none.mp isFound agg isIn)
  | some other =>
    have isSame := List.find?_some isFound
    unfold byId at isSame
    simp only [Bool.and_eq_true, bne_iff_ne, beq_iff_eq] at isSame
    rw [isSame.2]

theorem lookup_zero (lacp : Lacp World) : lacp.aggregatorLookup (byId 0) = none := by
  refine List.find?_eq_none.mpr fun agg _ => ?_
  unfold byId
  simp

/-- A port that is not in the list is written. -/
theorem Among.setPort_absent (among : lacp.Among ports) (absent : id ∉ ports)
    (change : Port → Port) :
    (lacp.setPort id change).Among ports := by
  have ne {other : PortId} (member : other ∈ ports) : other ≠ id :=
    fun same => absent (same ▸ member)
  refine ⟨among.free, fun agg isIn other => ?_, among.once, fun other member => ?_⟩
  · refine (among.member agg isIn other).trans (and_congr_right fun member => ?_)
    rw [setPort_of_ne (ne member)]
  · rw [setPort_of_ne (ne member)]
    exact among.listed other member

/-- **A port leaves the aggregator that it names**, and names none. -/
theorem Among.removeFromAggregator (among : lacp.Among ports) (nodup : ports.Nodup)
    (isPort : id ∈ ports) :
    (lacp.removeFromAggregator id).Among ports := by
  unfold Lacp.removeFromAggregator
  split
  · exact among
  · next nonzero =>
    have isIn := among.listed id isPort nonzero
    rw [lookup_byId isIn]
    dsimp only
    obtain ⟨-, port, aggregators, -, -⟩ :=
      lacp.delPort_frame (lacp.port id).actorPortAggregatorIdentifier id
    have left := among.delPort nodup isIn ((among.member _ isIn id).mpr ⟨isPort, rfl⟩)
    exact Among.of_erase (left.setPort_absent nodup.not_mem_erase _) nodup (by rw [setPort_self])

theorem removeFromAggregator_frame (lacp : Lacp World) (id : PortId) :
    (lacp.removeFromAggregator id).ports = lacp.ports ∧
      (lacp.removeFromAggregator id).aggregators = lacp.aggregators ∧
      (lacp.removeFromAggregator id).nextPortAggId = lacp.nextPortAggId ∧
      (lacp.removeFromAggregator id).sent = lacp.sent ∧
      (lacp.removeFromAggregator id).port id =
      { lacp.port id with actorPortAggregatorIdentifier := 0 } ∧
      ∀ other, other ≠ id → (lacp.removeFromAggregator id).port other = lacp.port other := by
  unfold removeFromAggregator
  split
  · next zero =>
    refine ⟨rfl, rfl, rfl, rfl, ?_, fun _ _ => rfl⟩
    generalize lacp.port id = port at zero
    cases port
    dsimp only at zero
    rw [zero]
  · split
    · next agg _ =>
      obtain ⟨ports, port, aggregators, next, sent⟩ := lacp.delPort_frame agg id
      refine ⟨ports, aggregators, next, sent, ?_, fun other ne => ?_⟩
      · rw [setPort_self, port]
      · rw [setPort_of_ne ne, port]
    · exact ⟨rfl, rfl, rfl, rfl, by rw [setPort_self], fun other ne => setPort_of_ne ne _⟩

theorem addPort_self (lacp : Lacp World) (absent : id ∉ (lacp.aggregator agg).ports)
    (free : (lacp.aggregator agg).isFree = true ↔ (lacp.aggregator agg).ports = []) :
    (lacp.addPort agg id).1 = true ∧
      ((lacp.addPort agg id).2.aggregator agg).ports = (lacp.aggregator agg).ports ++ [id] ∧
      ((lacp.addPort agg id).2.aggregator agg).isFree = false := by
  have isAbsent : ¬(lacp.aggregator agg).ports.contains id = true := fun contained =>
    absent (List.contains_iff_mem.mp contained)
  unfold addPort
  rw [if_neg isAbsent]
  obtain ⟨members, isFree⟩ := updateReady_members (lacp.setAggregator agg fun it =>
    let it' := { it with ports := it.ports ++ [id] }
    if it.ports.isEmpty then initByPort (lacp.port id) it' else it') agg agg
  dsimp only at members isFree ⊢
  rw [members, isFree, setAggregator_self]
  refine ⟨rfl, ?_⟩
  split
  · exact ⟨rfl, rfl⟩
  · next taken =>
    refine ⟨rfl, ?_⟩
    cases isFree' : (lacp.aggregator agg).isFree with
    | false => rfl
    | true => exact absurd (List.isEmpty_iff.mpr (free.mp isFree')) taken

theorem addPort_other {other : AggregatorId} (ne : other ≠ agg) (id : PortId) :
    ((lacp.addPort agg id).2.aggregator other).ports = (lacp.aggregator other).ports ∧
      ((lacp.addPort agg id).2.aggregator other).isFree = (lacp.aggregator other).isFree := by
  unfold addPort
  split
  · exact ⟨rfl, rfl⟩
  · obtain ⟨members, isFree⟩ := updateReady_members (lacp.setAggregator agg fun it =>
      let it' := { it with ports := it.ports ++ [id] }
      if it.ports.isEmpty then initByPort (lacp.port id) it' else it') agg other
    dsimp only at members isFree ⊢
    rw [members, isFree, setAggregator_of_ne ne]
    exact ⟨rfl, rfl⟩

theorem addPort_frame (lacp : Lacp World) (agg : AggregatorId) (id : PortId) :
    (lacp.addPort agg id).2.ports = lacp.ports ∧ (lacp.addPort agg id).2.port = lacp.port ∧
      (lacp.addPort agg id).2.aggregators = lacp.aggregators ∧
      (lacp.addPort agg id).2.nextPortAggId = lacp.nextPortAggId ∧
          (lacp.addPort agg id).2.sent = lacp.sent := by
  unfold addPort
  split <;> exact ⟨rfl, rfl, rfl, rfl, rfl⟩

/-- **A port that names no aggregator joins one.** -/
theorem Among.addPort (among : lacp.Among ports) (isPort : id ∈ ports)
    (isIn : agg ∈ lacp.aggregators) (none : (lacp.port id).actorPortAggregatorIdentifier = 0)
    {change : Port → Port} (names : ∀ port, (change port).actorPortAggregatorIdentifier = agg) :
    ((lacp.addPort agg id).2.setPort id change).Among ports := by
  have absent {other : AggregatorId} (isOther : other ∈ lacp.aggregators) :
      id ∉ (lacp.aggregator other).ports := by
    intro member
    have named := ((among.member other isOther id).mp member).2
    exact (lacp.named other isOther).1 (named.symm.trans none)
  obtain ⟨-, port, aggregators, -, -⟩ := lacp.addPort_frame agg id
  obtain ⟨-, members, isFree⟩ := lacp.addPort_self (absent isIn) (among.free agg isIn)
  refine ⟨?_, ?_, ?_, ?_⟩
  · intro other isOther
    replace isOther : other ∈ lacp.aggregators := aggregators ▸ isOther
    show ((lacp.addPort agg id).2.aggregator other).isFree = true ↔
      ((lacp.addPort agg id).2.aggregator other).ports = []
    by_cases same : other = agg
    · rw [same, members, isFree]
      simp
    · rw [(addPort_other same id).1, (addPort_other same id).2]
      exact among.free other isOther
  · intro other isOther port'
    replace isOther : other ∈ lacp.aggregators := aggregators ▸ isOther
    show port' ∈ ((lacp.addPort agg id).2.aggregator other).ports ↔ _
    by_cases isSame : port' = id
    · rw [isSame, setPort_self, names]
      by_cases same : other = agg
      · rw [same, members]
        exact ⟨fun _ => ⟨isPort, rfl⟩, fun _ => List.mem_append_right _ List.mem_cons_self⟩
      · rw [(addPort_other same id).1]
        exact ⟨fun member => absurd member (absent isOther), fun ⟨_, isOther'⟩ =>
          absurd isOther'.symm same⟩
    · rw [setPort_of_ne isSame, port]
      by_cases same : other = agg
      · rw [same, members, List.mem_append, List.mem_singleton, or_iff_left isSame]
        exact among.member agg isIn port'
      · rw [(addPort_other same id).1]
        exact among.member other isOther port'
  · intro other isOther
    replace isOther : other ∈ lacp.aggregators := aggregators ▸ isOther
    show ((lacp.addPort agg id).2.aggregator other).ports.Nodup
    by_cases same : other = agg
    · rw [same, members]
      refine List.nodup_append.mpr ⟨among.once agg isIn, List.nodup_singleton _,
        fun one isOne two isTwo isSame => ?_⟩
      rw [isSame, List.mem_singleton.mp isTwo] at isOne
      exact absent isIn isOne
    · rw [(addPort_other same id).1]
      exact among.once other isOther
  · intro other member nonzero
    show _ ∈ (lacp.addPort agg id).2.aggregators
    rw [aggregators]
    by_cases isSame : other = id
    · rw [isSame, setPort_self, names]
      exact isIn
    · rw [setPort_of_ne isSame, port] at nonzero ⊢
      exact among.listed other member nonzero

/-- **There is a free aggregator** if fewer ports than there are aggregators name one. -/
theorem Among.exists_free (among : lacp.Among ports) {busy : List PortId}
    (isBusy : ∀ id ∈ ports, (lacp.port id).actorPortAggregatorIdentifier ≠ 0 → id ∈ busy)
    (few : busy.length < lacp.aggregators.length) : ∃ agg ∈ lacp.aggregators,
        (lacp.aggregator agg).isFree = true := by
  by_contra noneFree
  have first (agg : AggregatorId) (isIn : agg ∈ lacp.aggregators) :
      (lacp.aggregator agg).ports.headD 0 ∈ (lacp.aggregator agg).ports := by
    cases isPorts : (lacp.aggregator agg).ports with
    | nil => exact absurd ⟨agg, isIn, (among.free agg isIn).mpr isPorts⟩ noneFree
    | cons head rest => exact List.mem_cons_self
  have distinct : (lacp.aggregators.map fun agg => (lacp.aggregator agg).ports.headD 0).Nodup := by
    refine lacp.unique.map_on fun one isOne two isTwo same => ?_
    have names := ((among.member one isOne _).mp (first one isOne)).2
    rw [same, ((among.member two isTwo _).mp (first two isTwo)).2] at names
    exact names.symm
  have within : (lacp.aggregators.map fun agg => (lacp.aggregator agg).ports.headD 0) ⊆ busy := by
    intro id member
    obtain ⟨agg, isIn, rfl⟩ := List.mem_map.mp member
    obtain ⟨isPort, names⟩ := (among.member agg isIn _).mp (first agg isIn)
    refine isBusy _ isPort ?_
    rw [names]
    exact (lacp.named agg isIn).1
  have le := (List.subperm_of_subset distinct within).length_le
  rw [List.length_map] at le
  exact absurd few (Nat.not_lt.mpr le)

/-- A port that names no aggregator finds one. -/
theorem Kept.selectedAggregator (kept : lacp.Kept) (isPort : id ∈ lacp.ports)
    (none : (lacp.port id).actorPortAggregatorIdentifier = 0) :
    ∃ agg ∈ lacp.aggregators, lacp.selectedAggregator id = some agg := by
  have few : (lacp.ports.erase id).length < lacp.aggregators.length := by
    have pos := List.length_pos_of_mem isPort
    rw [kept.count, List.length_erase_of_mem isPort]
    omega
  obtain ⟨free, isFreeIn, isFree⟩ := kept.among.exists_free (fun other member nonzero =>
    kept.nodup.mem_erase_iff.mpr ⟨fun same => nonzero (same ▸ none), member⟩) few
  have found : ∃ agg, lacp.selectedAggregator id = some agg := by
    cases isFound : lacp.aggregatorLookup lacp.byFree with
    | none => exact absurd isFree (List.find?_eq_none.mp isFound free isFreeIn)
    | some agg =>
      unfold Lacp.selectedAggregator
      rw [isFound]
      dsimp only
      split
      · cases lacp.aggregatorLookup (lacp.byPort (lacp.port id)) with
        | none => exact ⟨agg, rfl⟩
        | some other => exact ⟨other, rfl⟩
      · exact ⟨agg, rfl⟩
  obtain ⟨agg, isAgg⟩ := found
  refine ⟨agg, ?_, isAgg⟩
  unfold Lacp.selectedAggregator at isAgg
  dsimp only at isAgg
  rcases Option.or_eq_some_iff.mp isAgg with fitting | ⟨-, isFree'⟩
  · split at fitting
    · exact List.mem_of_find?_eq_some fitting
    · cases fitting
  · exact List.mem_of_find?_eq_some isFree'

end Lacp

end Qsdk.Lacpd
