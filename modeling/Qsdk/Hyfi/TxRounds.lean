/-
**The rounds of a HyFi aggregated flow.**

A flow in its turns follows a wheel of its interfaces, so it serves each of them its quota in a full
round, and the round brings it back to where it was.
-/

import Qsdk.Hyfi.TxAggr

namespace Qsdk.TxAggr

open Tagging (ethPIp)

/-! ### The wheel of a flow -/

section Orders

variable {count : Nat → Nat} {cur : Nat}

/-- The interfaces in their order, with their quotas. -/
def turnsOf (count : Nat → Nat) (cur : Nat) : List (Nat × Nat) :=
    (order count cur).map fun j => (j, count j)

theorem turnsOf_cons (own : count cur ≠ 0) :
    turnsOf count cur = (cur, count cur) :: ((order count cur).tail.map fun j => (j, count j)) := by
  unfold turnsOf order
  rw [List.filter_cons, if_pos (decide_eq_true own)]
  rfl

theorem turnsOf_positive : ∀ turn ∈ turnsOf count cur, 0 < turn.2 := by
  intro turn member
  obtain ⟨j, inOrder, rfl⟩ := List.mem_map.mp member
  exact Nat.pos_of_ne_zero (of_decide_eq_true (List.mem_filter.mp inOrder).2)

/-- The quotas of some of the interfaces, summed up. -/
theorem turnsOf_sum (inside : cur < 3) (picks : Nat → Bool) :
    (((turnsOf count cur).filter fun turn => picks turn.1).map Prod.snd).sum =
      (if picks 0 then count 0 else 0) + (if picks 1 then count 1 else 0) +
          (if picks 2 then count 2 else 0) := by
  rcases lt_three inside with rfl | rfl | rfl <;> by_cases none0 : count 0 = 0 <;> by_cases none1 :
      count 1 = 0 <;>
    by_cases none2 : count 2 = 0 <;> cases pick0 : picks 0 <;> cases pick1 :
        picks 1 <;> cases pick2 : picks 2 <;>
      simp [turnsOf, order, none0, none1, none2, pick0, pick1, pick2] <;> omega

end Orders

namespace Flow

variable {base flow : Flow} {protocol : BitVec 16} {wheel : RoundRobin.Wheel Nat}

/-- The same interfaces, but for the counts. -/
structure Like (flow base : Flow) : Prop where
  dst : ∀ j, (flow.ifaceInfo j).dst = (base.ifaceInfo j).dst
  quota : ∀ j, flow.quota j = base.quota j
  outside : ∀ j, 3 ≤ j → flow.ifaceInfo j = base.ifaceInfo j

/-- **A flow follows a wheel** of its interfaces. -/
structure Follows (base flow : Flow) (wheel : RoundRobin.Wheel Nat) : Prop where
  turning : flow.Turning
  like : flow.Like base
  own : base.quota flow.aggrCurIface ≠ 0
  turns : wheel.turns = turnsOf base.quota flow.aggrCurIface
  left : wheel.left = flow.here.packetCount

theorem Like.served (like : flow.Like base) (cur : flow.aggrCurIface < 3) :
    (flow.served protocol).Like base where
  dst j := (served_dst j).1.trans (like.dst j)
  quota j := (congrFun served_quota.1 j).trans (like.quota j)
  outside j out := (Function.update_of_ne (by omega) ..).trans (like.outside j out)

theorem Like.refill (like : flow.Like base) (cur : flow.aggrCurIface < 3) :
    (flow.refill protocol).Like base where
  dst j := (served_dst j).2.trans (like.dst j)
  quota j := (congrFun served_quota.2 j).trans (like.quota j)
  outside j out := (Function.update_of_ne (by omega) ..).trans (like.outside j out)

theorem Follows.serves (follows : Follows base flow wheel) : some flow.aggrCurIface =
    wheel.serves := by
  unfold RoundRobin.Wheel.serves
  rw [follows.turns, turnsOf_cons follows.own]
  rfl

/-- **A packet** is a step of the wheel. -/
theorem Follows.step (bounded : ∀ j < 3, base.quota j < 256) (follows : Follows base flow wheel) :
    Follows base (flow.handleTxPath protocol).1 wheel.step := by
  have cur := follows.turning.cur
  have positive := follows.turning.left
  have sameQuota : flow.quota = base.quota := funext follows.like.quota
  unfold RoundRobin.Wheel.step
  rw [follows.turns, turnsOf_cons follows.own, follows.left]
  dsimp only
  by_cases last : flow.here.packetCount = 1
  · obtain ⟨j, isNext, inside, some', turns⟩ := order_next cur follows.own
    obtain ⟨turning, count⟩ := follows.turning.refill (sameQuota ▸ bounded) inside
      (sameQuota ▸ some')
    rw [if_pos (by omega), follows.turning.packet_last last, sameQuota, isNext]
    have wheelTurns : ((order base.quota flow.aggrCurIface).tail.map fun j => (j, base.quota j)) ++
        [(flow.aggrCurIface, base.quota flow.aggrCurIface)] = turnsOf base.quota j := by
      unfold turnsOf
      rw [turns, List.map_append]
      rfl
    have like : (flow.refill protocol).Like base := follows.like.refill cur
    show Follows base { (flow.refill protocol) with aggrCurIface := j } _
    refine ⟨turning, ⟨like.dst, like.quota, like.outside⟩, some', wheelTurns, ?_⟩
    show RoundRobin.firstQuota _ = _
    rw [wheelTurns, turnsOf_cons some']
    exact (congrFun sameQuota j).symm.trans count.symm
  · rw [if_neg (by omega), follows.turning.packet_more last]
    refine ⟨follows.turning.served last, follows.like.served cur, follows.own,
      (turnsOf_cons follows.own).symm, ?_⟩
    show flow.here.packetCount - 1 =
      (Function.update flow.ifaceInfo flow.aggrCurIface _ flow.aggrCurIface).packetCount
    rw [Function.update_self]

/-- The port of an interface. -/
def portOf (base : Flow) (slot : Option Nat) : Option Nat := slot.bind fun j =>
    (base.ifaceInfo j).dst

theorem Follows.dst (follows : Follows base flow wheel) : (flow.handleTxPath protocol).2.dst =
    base.portOf wheel.serves := by
  rw [follows.turning.sent, ← follows.serves]
  exact follows.like.dst flow.aggrCurIface

/-- The packets of a flow that follows a wheel. -/
theorem Follows.packets (bounded : ∀ j < 3, base.quota j < 256) (follows : Follows base flow wheel)
    (protocols : List (BitVec 16)) :
    (packets protocols flow).1 = (wheel.runs protocols.length).1.map base.portOf ∧
      Follows base (TxAggr.packets protocols flow).2 (wheel.runs protocols.length).2 :=
  RoundRobin.runs_eq (fun _ _ _ follows => follows.dst)
    (fun _ _ _ follows => follows.step bounded) follows protocols

/-- At the beginning of a turn. -/
theorem Turning.follows (turning : flow.Turning) (own : flow.quota flow.aggrCurIface ≠ 0)
    (whole : flow.here.packetCount = flow.quota flow.aggrCurIface) :
    Follows flow flow (RoundRobin.atTurn (turnsOf flow.quota flow.aggrCurIface)) := by
  refine ⟨turning, ⟨fun _ => rfl, fun _ => rfl, fun _ _ => rfl⟩, own, rfl, ?_⟩
  show RoundRobin.firstQuota _ = _
  rw [turnsOf_cons own]
  exact whole.symm

/-- A flow that has come back to the beginning of the same turn is as it was, but for the
numbers. -/
theorem Turning.back {other : Flow} (turning : flow.Turning)
    (own : flow.quota flow.aggrCurIface ≠ 0)
    (whole : flow.here.packetCount = flow.quota flow.aggrCurIface)
    (follows : Follows flow other (RoundRobin.atTurn (turnsOf flow.quota flow.aggrCurIface))) :
    other.ifaceInfo = flow.ifaceInfo ∧ other.aggrCurIface = flow.aggrCurIface ∧
        other.txEntry = true := by
  have turns : turnsOf flow.quota flow.aggrCurIface = turnsOf flow.quota other.aggrCurIface :=
    follows.turns
  have left : RoundRobin.firstQuota (turnsOf flow.quota flow.aggrCurIface) =
    other.here.packetCount := follows.left
  rw [turnsOf_cons own] at left
  rw [turnsOf_cons own, turnsOf_cons follows.own] at turns
  have sameCur : other.aggrCurIface = flow.aggrCurIface :=
    (congrArg Prod.fst (List.cons.inj turns).1).symm
  refine ⟨funext fun j => ?_, sameCur, follows.turning.tx⟩
  by_cases inside : j < 3
  · have dst := follows.like.dst j
    have quota : (other.ifaceInfo j).packetQuota = (flow.ifaceInfo j).packetQuota :=
      follows.like.quota j
    have count : (other.ifaceInfo j).packetCount = (flow.ifaceInfo j).packetCount := by
      by_cases isCur : j = flow.aggrCurIface
      · have here : other.here = other.ifaceInfo j :=
          congrArg other.ifaceInfo (sameCur.trans isCur.symm)
        rw [← here, ← left, isCur]
        exact whole.symm
      · rw [turning.full j inside isCur, follows.turning.full j inside (sameCur ▸ isCur)]
        exact follows.like.quota j
    cases isOther : other.ifaceInfo j
    cases isFlow : flow.ifaceInfo j
    rw [isOther, isFlow] at dst quota count
    exact (congr (congr (congrArg IfaceInfo.mk dst) quota) count)
  · exact follows.like.outside j (by omega)

/-- **A full round** from the beginning of a turn: each interface is served its quota, and the flow
is as it was. -/
theorem Turning.round (turning : flow.Turning) (bounded : ∀ j < 3, flow.quota j < 256)
    (own : flow.quota flow.aggrCurIface ≠ 0)
    (whole : flow.here.packetCount = flow.quota flow.aggrCurIface) {full : List (BitVec 16)}
    (isRound : full.length = flow.quota 0 + flow.quota 1 + flow.quota 2) :
    (∀ port, (TxAggr.packets full flow).1.count (some port) =
      (if (flow.ifaceInfo 0).dst = some port then flow.quota 0 else 0) +
        (if (flow.ifaceInfo 1).dst = some port then flow.quota 1 else 0) +
          (if (flow.ifaceInfo 2).dst = some port then flow.quota 2 else 0)) ∧
      (TxAggr.packets full flow).2.ifaceInfo = flow.ifaceInfo ∧
        (TxAggr.packets full flow).2.aggrCurIface = flow.aggrCurIface ∧
            (TxAggr.packets full flow).2.txEntry = true := by
  have total : RoundRobin.total (turnsOf flow.quota flow.aggrCurIface) = full.length := by
    have sum := @turnsOf_sum flow.quota _ turning.cur fun _ => true
    rw [List.filter_true] at sum
    exact sum.trans isRound.symm
  obtain ⟨sent, follows⟩ := (turning.follows own whole).packets bounded full
  rw [← total, RoundRobin.round_spec turnsOf_positive] at sent follows
  refine ⟨fun port => ?_, turning.back own whole follows⟩
  dsimp only at sent
  rw [sent, RoundRobin.count_served]
  have sum := @turnsOf_sum flow.quota _ turning.cur fun j => (flow.ifaceInfo j).dst == some port
  simp only [beq_iff_eq] at sum
  exact sum

/-- Only the interfaces, the current one and the flag matter. -/
theorem Turning.congr {other : Flow} (turning : flow.Turning)
    (infos : other.ifaceInfo = flow.ifaceInfo) (cur : other.aggrCurIface = flow.aggrCurIface)
    (tx : other.txEntry = flow.txEntry) : other.Turning := by
  have quota : other.quota = flow.quota := funext fun j =>
    congrArg (fun infos => (infos j).packetQuota) infos
  have here : other.here = flow.here := by
    unfold here
    rw [infos, cur]
  refine ⟨tx.trans turning.tx, cur ▸ turning.cur, fun j inside notCur => ?_, here ▸ turning.left,
    here ▸ turning.small⟩
  rw [infos, quota]
  exact turning.full j inside (cur ▸ notCur)

/-- **The current turn** to its end: the interface gets its quota back, and the next one has its
turn. -/
theorem Turning.turned (turning : flow.Turning) {protocols : List (BitVec 16)}
    (isCount : flow.here.packetCount = protocols.length) :
    (TxAggr.packets protocols flow).2.ifaceInfo = (flow.refill ethPIp).ifaceInfo ∧
      match nextTurn flow.quota flow.aggrCurIface with
      | some j => (TxAggr.packets protocols flow).2.aggrCurIface = j ∧
        (TxAggr.packets protocols flow).2.txEntry = true
      | none => (TxAggr.packets protocols flow).2.txEntry = false := by
  induction protocols generalizing flow with
  | nil => exact absurd isCount (Nat.ne_of_gt turning.left)
  | cons protocol protocols ih =>
    have rest : TxAggr.packets (protocol :: protocols) flow =
        ((flow.handleTxPath protocol).2.dst ::
          (TxAggr.packets protocols (flow.handleTxPath protocol).1).1,
          (TxAggr.packets protocols (flow.handleTxPath protocol).1).2) := rfl
    rw [rest]
    rw [List.length_cons] at isCount
    by_cases last : flow.here.packetCount = 1
    · obtain rfl : protocols = [] := List.eq_nil_of_length_eq_zero (by omega)
      rw [turning.packet_last last]
      cases nextTurn flow.quota flow.aggrCurIface with
      | none => exact ⟨rfl, rfl⟩
      | some j => exact ⟨rfl, rfl, turning.tx⟩
    · rw [turning.packet_more last]
      have here : (flow.served protocol).here.packetCount = protocols.length := by
        have updated : (flow.served protocol).here =
            { flow.here with packetCount := flow.here.packetCount - 1 } :=
          Function.update_self ..
        rw [updated]
        show flow.here.packetCount - 1 = protocols.length
        omega
      obtain ⟨infos, next⟩ := ih (turning.served last) here
      have refill : ((flow.served protocol).refill ethPIp).ifaceInfo =
          (flow.refill ethPIp).ifaceInfo := by
        show Function.update (Function.update flow.ifaceInfo flow.aggrCurIface _) flow.aggrCurIface
          { (flow.served protocol).here with
            packetCount := (flow.served protocol).here.packetQuota } = Function.update _ _ _
        rw [Function.update_idem]
        have updated : (flow.served protocol).here =
            { flow.here with packetCount := flow.here.packetCount - 1 } :=
          Function.update_self ..
        rw [updated]
        rfl
      rw [served_quota.1] at next
      exact ⟨infos.trans refill, next⟩

theorem nextTurn_none {count : Nat → Nat} {cur : Nat} (inside : cur < 3) :
    nextTurn count cur = none ↔ ∀ j < 3, count j = 0 := by
  unfold nextTurn
  rw [List.find?_eq_none]
  rcases lt_three inside with rfl | rfl | rfl
  all_goals
    simp only [List.forall_mem_cons, List.not_mem_nil, false_implies, implies_true, and_true,
      decide_eq_true_eq,
      not_not]
    constructor
    · intro all j less
      rcases lt_three less with rfl | rfl | rfl <;> simp_all
    · intro all
      simp [all]

theorem nextTurn_some {count : Nat → Nat} {cur j : Nat} (inside : cur < 3)
    (isNext : nextTurn count cur = some j) :
    j < 3 ∧ count j ≠ 0 := by
  have member := List.mem_of_find?_eq_some isNext
  refine ⟨?_, by simpa using List.find?_some isNext⟩
  simp only [List.mem_cons, List.not_mem_nil, or_false] at member
  omega

end Flow

/-! ### Flows with a list -/

/-- **A flow in its turns on the list installed last.** -/
structure Running (flow : Flow) (portList : List Listed) : Prop where
  turning : flow.Turning
  bounded : ∀ j < 3, flow.quota j < 256
  known : ∀ entry ∈ portList, ∃ j < 3, (flow.ifaceInfo j).dst = some entry.port
  quota : ∀ j < 3, ∀ entry ∈ portList, (flow.ifaceInfo j).dst = some entry.port →
    flow.quota j = entry.quota
  listed : ∀ j < 3, flow.quota j ≠ 0 → ∃ entry ∈ portList, (flow.ifaceInfo j).dst = some entry.port
  apart : ∀ j < 3, ∀ k < 3, (flow.ifaceInfo j).dst = (flow.ifaceInfo k).dst →
    (flow.ifaceInfo j).dst ≠ none → j = k
  filled : ∀ j < 3, ∀ k < j, (flow.ifaceInfo j).dst ≠ none → (flow.ifaceInfo k).dst ≠ none
  here : flow.here.dst ≠ none

variable {flow : Flow} {portList : List Listed}

/-- What does not depend on the counts stays. -/
theorem Running.like {other : Flow} (running : Running flow portList) (like : other.Like flow)
    (turning : other.Turning) (here : other.here.dst ≠ none) : Running other portList where
  turning := turning
  bounded j inside := (like.quota j).symm ▸ running.bounded j inside
  known entry member := by
    obtain ⟨j, inside, isPort⟩ := running.known entry member
    exact ⟨j, inside, (like.dst j).trans isPort⟩
  quota j inside entry member isPort :=
    (like.quota j).trans (running.quota j inside entry member ((like.dst j).symm.trans isPort))
  listed j inside some' := by
    obtain ⟨entry, member, isPort⟩ := running.listed j inside ((like.quota j) ▸ some')
    exact ⟨entry, member, (like.dst j).trans isPort⟩
  apart j inside k inside' same notNone := by
    rw [like.dst j] at same notNone
    exact running.apart j inside k inside' (same.trans (like.dst k)) notNone
  filled j inside k before notNone := by
    rw [like.dst j] at notNone
    rw [like.dst k]
    exact running.filled j inside k before notNone
  here := here

/-- The quotas of the interfaces of one port, summed up. -/
theorem Running.sum_eq (running : Running flow portList) {entry : Listed}
    (member : entry ∈ portList) :
    (if (flow.ifaceInfo 0).dst = some entry.port then flow.quota 0 else 0) +
      (if (flow.ifaceInfo 1).dst = some entry.port then flow.quota 1 else 0) +
        (if (flow.ifaceInfo 2).dst = some entry.port then flow.quota 2 else 0) = entry.quota := by
  obtain ⟨j, inside, isPort⟩ := running.known entry member
  have quota := running.quota j inside entry member isPort
  have others : ∀ k < 3, k ≠ j → (flow.ifaceInfo k).dst ≠ some entry.port := by
    intro k inside' differs same
    exact differs (running.apart k inside' j inside (same.trans isPort.symm)
      (same ▸ Option.some_ne_none _))
  rcases lt_three inside with rfl | rfl | rfl
  · rw [if_pos isPort, if_neg (others 1 (by omega) (by omega)),
      if_neg (others 2 (by omega) (by omega)), quota,
      Nat.add_zero]
  · rw [if_neg (others 0 (by omega) (by omega)), if_pos isPort,
      if_neg (others 2 (by omega) (by omega)), quota,
      Nat.zero_add, Nat.add_zero]
  · rw [if_neg (others 0 (by omega) (by omega)), if_neg (others 1 (by omega) (by omega)),
      if_pos isPort, quota,
      Nat.zero_add]

/-- **The rounds** of a flow in its turns. -/
theorem Running.rounds (running : Running flow portList) : RoundsHonoured flow portList := by
  intro rest full isRest
  have cur := running.turning.cur
  have turned := running.turning.turned isRest.symm
  dsimp only
  generalize (packets rest flow).2 = after at turned ⊢
  obtain ⟨infos, next⟩ := turned
  have dst : ∀ j, (after.ifaceInfo j).dst = (flow.ifaceInfo j).dst := fun j =>
    (congrArg (fun infos : Nat → IfaceInfo => (infos j).dst) infos).trans (Flow.served_dst j).2
  have quotas : after.quota = flow.quota :=
    (funext fun j => congrArg (fun infos : Nat → IfaceInfo => (infos j).packetQuota) infos).trans
      Flow.served_quota.2
  cases isNext : nextTurn flow.quota flow.aggrCurIface with
  | none =>
    rw [isNext] at next
    have stopped : after.txEntry = false := next
    rw [stopped]
    refine ⟨iff_of_false Bool.false_ne_true ?_, fun wrong _ => absurd wrong Bool.false_ne_true⟩
    rintro ⟨entry, member, some'⟩
    obtain ⟨j, inside, isPort⟩ := running.known entry member
    exact some' ((running.quota j inside entry member isPort).symm.trans
      ((Flow.nextTurn_none cur).mp isNext j inside))
  | some j =>
    rw [isNext] at next
    obtain ⟨isCur, tx⟩ : after.aggrCurIface = j ∧ after.txEntry = true := next
    obtain ⟨inside, some'⟩ := Flow.nextTurn_some cur isNext
    obtain ⟨turning, count⟩ := running.turning.refill running.bounded inside some'
    have turning' : after.Turning := turning.congr infos isCur (tx.trans running.turning.tx.symm)
    have here : after.here.packetCount = after.quota after.aggrCurIface := by
      rw [quotas, isCur, ← count]
      unfold Flow.here
      rw [infos, isCur]
    refine ⟨iff_of_true tx ?_, fun _ isFull => ?_⟩
    · obtain ⟨entry, member, isPort⟩ := running.listed j inside some'
      exact ⟨entry, member, running.quota j inside entry member isPort ▸ some'⟩
    · have isRound : full.length = after.quota 0 + after.quota 1 + after.quota 2 := by
        rw [isFull]
        show after.quota 0 + (after.quota 1 + (after.quota 2 + 0)) = _
        omega
      obtain ⟨round, back⟩ := turning'.round (quotas ▸ running.bounded)
        (by rw [quotas, isCur]; exact some') here isRound
      refine ⟨fun entry member => ?_, back⟩
      rw [round entry.port, quotas, dst 0, dst 1, dst 2]
      exact running.sum_eq member

end Qsdk.TxAggr
