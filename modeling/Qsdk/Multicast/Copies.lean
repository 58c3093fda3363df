/-
**One copy for each.**

Without failing allocations, the loops of `mc_convert` add one fate for each place that is to have a
copy, in order. The counts of these lists are those of the tables: of the flood list, of the
queriers on other ports, and of the devices that admit the source.
-/

import Mathlib.Data.List.Count
import Qsdk.Multicast.FanOut

namespace Qsdk.FanOut

variable {world : World} {skb : Nat} {net : Net} {packet : Skb}

/-! ### The copies -/

theorem World.count_consume (world : World) (skb : Nat) (fate other : Fate) :
    (world.consume skb fate).count other = world.count other + if fate = other then 1 else 0 := by
  unfold World.count World.consume
  rw [List.map_cons, List.count_cons]
  simp only [beq_iff_eq]

/-- A loop in which no allocation fails adds these fates, beside packets that are freed. -/
structure Adds (before after : World) (fates : List Fate) : Prop where
  alloc : ∀ n, after.alloc n = true
  count : ∀ fate, fate ≠ .freed → after.count fate = before.count fate + fates.count fate

theorem World.clone_full (full : ∀ n, world.alloc n = true) :
    world.clone =
        (some world.made, { world with asked := world.asked + 1, made := world.made + 1 }) :=
  if_pos (full _)

theorem Adds.consume (full : ∀ n, world.alloc n = true) (skb : Nat) (fate : Fate) :
    Adds world (world.consume skb fate) [fate] where
  alloc := full
  count other _ := by
    rw [world.count_consume, List.count_cons, List.count_nil, Nat.zero_add]
    simp only [beq_iff_eq]

theorem Adds.freed (full : ∀ n, world.alloc n = true) (skb : Nat) :
    Adds world (world.consume skb .freed) [] where
  alloc := full
  count other notFreed := by
    rw [world.count_consume, if_neg notFreed.symm, List.count_nil]

variable {first second third : World} {fates more : List Fate}

theorem Adds.trans (one : Adds first second fates) (two : Adds second third more) :
    Adds first third (fates ++ more) where
  alloc := two.alloc
  count fate notFreed := by
    rw [two.count fate notFreed, one.count fate notFreed, List.count_append, Nat.add_assoc]

/-- Before a copy. -/
theorem Adds.cloned {asked made : Nat}
    (adds : Adds { first with asked := asked, made := made } second fates) :
    Adds first second fates := ⟨adds.alloc, adds.count⟩

/-- Before a copy that is handed over at once. -/
theorem Adds.sent {asked made : Nat} {fate : Fate}
    (adds : Adds ({ first with asked := asked, made := made }.consume skb fate) second fates) :
    Adds first second (fate :: fates) where
  alloc := adds.alloc
  count other notFreed := by
    have counts := adds.count other notFreed
    rw [World.count_consume] at counts
    rw [counts, List.count_cons]
    simp only [beq_iff_eq]
    exact (Nat.add_right_comm ..).trans (Nat.add_assoc ..)

theorem floodLoop_adds (full : ∀ n, world.alloc n = true) (prev : Nat) (rest : List Nat) :
    (floodLoop net skb prev rest world).2 = true ∧ Adds world (floodLoop net skb prev rest world).1
      (((prev :: rest).filter fun ifindex => decide (ifindex ≠ 0)).map net.floodFate) := by
  induction rest generalizing prev world with
  | nil =>
    refine ⟨rfl, ?_⟩
    unfold floodLoop
    by_cases none : prev = 0
    · rw [if_neg (not_not.mpr none), none]
      exact Adds.freed full skb
    · rw [if_pos none, List.filter_cons_of_pos (by simpa using none)]
      exact Adds.consume full skb _
  | cons ifindex rest ih =>
    unfold floodLoop
    by_cases none : prev = 0
    · rw [if_neg (not_not.mpr none), none]
      exact ih full ifindex
    · rw [if_pos none, World.clone_full full, List.filter_cons_of_pos (by simpa using none)]
      dsimp only
      obtain ⟨done, adds⟩ := @ih ({ world with
        asked := world.asked + 1, made := world.made + 1 }.consume world.made (net.floodFate prev))
          full ifindex
      exact ⟨done, adds.sent⟩

/-- The devices that are not filtered, by their places. -/
def passing (saddr : Nat) : Nat → List EncapDev → List Nat
  | _, [] => []
  | i, dev :: rest => if dev.filterSource saddr then passing saddr (i + 1) rest else i ::
    passing saddr (i + 1) rest

theorem encapLoop_adds (saddr : Nat) (full : ∀ n, world.alloc n = true)
    (prev : Option Nat) (i : Nat) (rest : List EncapDev) :
    Adds world (encapLoop net saddr skb prev i rest world)
      ((prev.toList ++ passing saddr i rest).map net.encapFate) := by
  induction rest generalizing prev i world with
  | nil =>
    cases prev with
    | none => exact Adds.freed full skb
    | some prev =>
      unfold encapLoop
      rw [World.clone_full full]
      dsimp only
      have freed := @Adds.freed
        { world with asked := world.asked + 1, made := world.made + 1 } full skb
      exact (freed.trans (Adds.consume freed.alloc world.made (net.encapFate prev))).cloned
  | cons dev rest ih =>
    cases prev with
    | none =>
      unfold encapLoop passing
      dsimp only
      split
      case isTrue => exact ih full none (i + 1)
      case isFalse => exact ih full (some i) (i + 1)
    | some prev =>
      unfold encapLoop passing
      dsimp only
      split
      case isTrue => exact ih full (some prev) (i + 1)
      case isFalse =>
        rw [World.clone_full full]
        dsimp only
        have adds := @ih ({ world with
          asked := world.asked + 1, made := world.made + 1 }.consume world.made
            (net.encapFate prev)) full (some i)
          (i + 1)
        exact adds.sent

theorem mcDoRouterFlood_adds (full : ∀ n, world.alloc n = true) (flooded rlist : List Nat) :
    Adds world (mcDoRouterFlood flooded rlist world)
      ((rlist.filter fun port => decide (port ∉ flooded)).map .routed) := by
  induction rlist generalizing world with
  | nil => exact ⟨full, fun _ _ => rfl⟩
  | cons port rest ih =>
    unfold mcDoRouterFlood
    by_cases has : port ∈ flooded
    · rw [if_pos has, List.filter_cons_of_neg (by simpa using has)]
      exact ih full
    · rw [if_neg has, World.clone_full full, List.filter_cons_of_pos (by simpa using has)]
      dsimp only
      have adds := @ih ({ world with
        asked := world.asked + 1, made := world.made + 1 }.consume world.made (.routed port)) full
      exact adds.sent

/-- **All copies** of a packet. -/
theorem deliver_adds (mc : Mc) (mdb : Mdb) (saddr : Nat) (full : ∀ n, world.alloc n = true) :
    ∃ last, (∀ fate ∈ last, fate = .passedUp) ∧ Adds world (deliver net mc mdb saddr true world)
      ((mdb.floodIfindex.filter fun ifindex => decide (ifindex ≠ 0)).map net.floodFate ++
        ((passing saddr 0 mdb.encapDev).map net.encapFate ++
          ((mc.rlist.filter fun port => decide (port ∉ mdb.floodIfindex)).map .routed ++ last))) :=
              by
  have finished : ∃ last, (∀ fate ∈ last, fate = .passedUp) ∧ ∀ world : World,
    (∀ n, world.alloc n = true) →
      Adds world (finish mc mdb.floodIfindex true world)
        ((mc.rlist.filter fun port => decide (port ∉ mdb.floodIfindex)).map .routed ++ last) := by
    cases router : mc.isRouter with
    | true =>
      refine ⟨[.passedUp], fun fate member => List.mem_singleton.mp member, fun world full => ?_⟩
      have routed := mcDoRouterFlood_adds full mdb.floodIfindex mc.rlist
      unfold finish
      rw [router]
      exact routed.trans (Adds.consume routed.alloc 0 .passedUp)
    | false =>
      refine ⟨[], fun fate member => absurd member List.not_mem_nil, fun world full => ?_⟩
      have routed := mcDoRouterFlood_adds full mdb.floodIfindex mc.rlist
      unfold finish
      rw [router]
      exact routed.trans (Adds.freed routed.alloc 0)
  obtain ⟨last, isLast, finished⟩ := finished
  have encapped : ∀ world : World, (∀ n, world.alloc n = true) →
      Adds world (encapAndFinish net mc mdb saddr true world)
      ((passing saddr 0 mdb.encapDev).map net.encapFate ++
        ((mc.rlist.filter fun port => decide (port ∉ mdb.floodIfindex)).map .routed ++ last)) := by
    intro world full
    unfold encapAndFinish
    by_cases empty : mdb.encapDev = []
    · rw [if_pos empty, empty]
      exact finished world full
    · rw [if_neg empty, World.clone_full full]
      dsimp only
      have adds := @encapLoop_adds
        { world with asked := world.asked + 1, made := world.made + 1 } world.made net saddr
        full none 0 mdb.encapDev
      exact (adds.trans (finished _ adds.alloc)).cloned
  refine ⟨last, isLast, ?_⟩
  unfold deliver
  dsimp only
  have same : ∀ fate, World.count { world with retagged := world.retagged || mc.enableRetag } fate =
      world.count fate :=
    fun _ => rfl
  have full' : ∀ n, World.alloc { world with retagged := world.retagged || mc.enableRetag } n =
    true := full
  generalize { world with retagged := world.retagged || mc.enableRetag } = tagged at same full'
  by_cases empty : mdb.floodIfindex = []
  · rw [if_pos empty, empty]
    have adds := encapped tagged full'
    rw [empty] at adds
    exact ⟨adds.alloc, fun fate notFreed => same fate ▸ adds.count fate notFreed⟩
  · rw [if_neg empty, World.clone_full full']
    dsimp only
    obtain ⟨done, adds⟩ :=
      @floodLoop_adds { tagged with asked := tagged.asked + 1, made := tagged.made + 1 }
      tagged.made net full' 0 mdb.floodIfindex
    unfold mcDoFlood
    generalize floodLoop net tagged.made 0 mdb.floodIfindex
      { tagged with asked := tagged.asked + 1, made := tagged.made + 1 } = result at done adds
    obtain ⟨after, isDone⟩ := result
    obtain rfl : isDone = true := done
    have all := (adds.trans (encapped after adds.alloc)).cloned
    exact ⟨all.alloc, fun fate notFreed => same fate ▸ all.count fate notFreed⟩

/-! ### How many -/

variable {α β : Type} [DecidableEq β] {f : α → β} {b : β}

theorem count_map_same [DecidableEq α] {a : α} (l : List α) (same : ∀ x ∈ l, f x = b ↔ x = a) :
    (l.map f).count b = l.count a := by
  rw [List.count_eq_countP, List.countP_map, List.count_eq_countP]
  refine List.countP_congr fun x member => ?_
  simp only [Function.comp_apply, beq_iff_eq]
  exact same x member

theorem count_map_other (l : List α) (other : ∀ x ∈ l, f x ≠ b) : (l.map f).count b = 0 := by
  refine List.count_eq_zero.mpr fun member => ?_
  obtain ⟨x, member, isB⟩ := List.mem_map.mp member
  exact other x member isB

theorem Net.floodFate_ne {fate : Fate} (notFreed : fate ≠ .freed) (x : Nat)
    (other : fate ≠ .flooded x) :
    net.floodFate x ≠ fate := by
  unfold Net.floodFate
  split
  · exact other.symm
  · exact notFreed.symm

theorem Net.encapFate_ne {fate : Fate} (notFreed : fate ≠ .freed) (i : Nat)
    (other : fate ≠ .encapped i) :
    net.encapFate i ≠ fate := by
  unfold Net.encapFate
  split
  · exact other.symm
  · exact notFreed.symm

theorem Net.eq_of_flooded {x ifindex : Nat} (same : net.floodFate x = .flooded ifindex) :
    x = ifindex := by
  unfold Net.floodFate at same
  split at same
  · exact Fate.flooded.inj same
  · exact Fate.noConfusion same

theorem Net.eq_of_encapped {x i : Nat} (same : net.encapFate x = .encapped i) : x = i := by
  unfold Net.encapFate at same
  split at same
  · exact Fate.encapped.inj same
  · exact Fate.noConfusion same

theorem passing_le (saddr k : Nat) (devs : List EncapDev) : ∀ n ∈ passing saddr k devs, k ≤ n := by
  induction devs generalizing k with
  | nil => exact fun n member => absurd member List.not_mem_nil
  | cons dev rest ih =>
    intro n member
    unfold passing at member
    split at member
    · exact Nat.le_of_succ_le (ih (k + 1) n member)
    · rcases List.mem_cons.mp member with rfl | member
      · exact Nat.le_refl _
      · exact Nat.le_of_succ_le (ih (k + 1) n member)

theorem count_passing_lt (saddr k : Nat) (devs : List EncapDev) :
    (passing saddr (k + 1) devs).count k = 0 :=
  List.count_eq_zero.mpr fun member => Nat.lt_irrefl k (passing_le saddr (k + 1) devs k member)

/-- A device is in its place once, or not at all. -/
theorem count_passing (saddr k i : Nat) (devs : List EncapDev) :
    (passing saddr k devs).count (k + i) = if devs[i]?.any fun dev =>
        !dev.filterSource saddr then 1 else 0 := by
  induction devs generalizing k i with
  | nil => rfl
  | cons dev rest ih =>
    unfold passing
    cases i with
    | zero =>
      rw [List.getElem?_cons_zero, Option.any_some]
      cases dev.filterSource saddr with
      | true => exact count_passing_lt saddr k rest
      | false => exact (List.count_cons_self ..).trans (congrArg Nat.succ
        (count_passing_lt saddr k rest))
    | succ i =>
      rw [List.getElem?_cons_succ, ← ih (k + 1) i, Nat.add_right_comm k 1 i, Nat.add_assoc k i 1]
      split
      · rfl
      · exact List.count_cons_of_ne (by omega)

theorem findsSource_iff {srcs : List Nat} (room : srcs.length ≤ 16) (saddr : Nat) :
    findsSource srcs saddr = true ↔ saddr ∈ srcs := by
  have inRoom : ∀ n < srcs.length, checkSource srcs n saddr = true ↔ srcs[n]? = some saddr := by
    intro n lt
    unfold checkSource
    rw [if_neg (by omega), decide_eq_true_iff]
  unfold findsSource
  rw [List.any_eq_true]
  constructor
  · rintro ⟨n, member, found⟩
    exact List.mem_of_getElem? ((inRoom n (List.mem_range.mp member)).mp found)
  · intro member
    obtain ⟨n, lt, isAt⟩ := List.mem_iff_getElem.mp member
    exact ⟨n, List.mem_range.mpr lt, (inRoom n lt).mpr (isAt ▸ List.getElem?_eq_getElem lt)⟩

theorem EncapDev.admits_iff (dev : EncapDev) (saddr : Nat) : dev.filterSource saddr = false ↔
    dev.Admits saddr := by
  have included := findsSource_iff dev.inRoom saddr
  have excluded := fun srcs has => findsSource_iff (dev.exRoom srcs has) saddr
  unfold EncapDev.filterSource EncapDev.Admits
  by_cases open' : dev.inSrcs = [] ∧ dev.exSrcs = some []
  · rw [if_pos open']
    exact iff_of_true rfl (.inr ⟨[], open'.2, List.not_mem_nil⟩)
  · rw [if_neg open']
    by_cases found : findsSource dev.inSrcs saddr = true
    · rw [if_pos found]
      exact iff_of_true rfl (.inl (included.mp found))
    · rw [if_neg found]
      have notIn : saddr ∉ dev.inSrcs := fun member => found (included.mpr member)
      cases list : dev.exSrcs with
      | none =>
        refine iff_of_false Bool.noConfusion ?_
        rintro (member | ⟨_, has, _⟩)
        · exact notIn member
        · exact absurd has (Option.some_ne_none _).symm
      | some srcs =>
        have finds := excluded srcs list
        constructor
        · exact fun missing => .inr ⟨srcs, rfl, fun member => by simp [finds.mpr member] at missing⟩
        · rintro (member | ⟨_, has, missing⟩)
          · exact absurd member notIn
          · obtain rfl := Option.some.inj has
            exact Bool.eq_false_iff.mpr fun found => missing (finds.mp found)

theorem mcConvert_reaches {mc : Mc} {mdb : Mdb} (reaches : Reaches mc mdb packet) (world : World) :
    mcConvert net mc (some mdb) packet true world =
        (deliver net mc mdb packet.saddr true world, true) := by
  obtain ⟨users, snooped, ip, converted⟩ := reaches
  have isConverted : (!mc.convertAll && !packet.isUdp) = false := by
    rw [← Bool.not_or, converted]
    rfl
  unfold mcConvert
  rw [Bool.true_and, snooped, ip, isConverted, Option.filter_some, if_pos (decide_eq_true users)]
  rfl

theorem count_arrives (alloc : Nat → Bool) (fate : Fate) : (arrives alloc).count fate = 0 := rfl

/-- **Copies** of every packet that reaches a group. -/
theorem mcConvert_copies (net : Net) {mc : Mc} {mdb : Mdb} (reaches : Reaches mc mdb packet)
    {alloc : Nat → Bool} (full : ∀ n, alloc n = true) :
    Copies net mc mdb packet.saddr (mcConvert net mc (some mdb) packet true (arrives alloc)).1 := by
  obtain ⟨last, isLast, adds⟩ := @deliver_adds (arrives alloc) net mc mdb packet.saddr full
  rw [mcConvert_reaches reaches]
  have counts : ∀ fate, fate ≠ .freed → fate ≠ .passedUp →
      (deliver net mc mdb packet.saddr true (arrives alloc)).count fate =
        ((mdb.floodIfindex.filter fun ifindex => decide (ifindex ≠ 0)).map net.floodFate).count
        fate +
          (((passing packet.saddr 0 mdb.encapDev).map net.encapFate).count fate +
            ((mc.rlist.filter fun port => decide (port ∉ mdb.floodIfindex)).map Fate.routed).count
                fate) := by
    intro fate notFreed notUp
    have noLast : last.count fate = 0 := List.count_eq_zero.mpr fun member =>
      notUp (isLast fate member)
    rw [adds.count fate notFreed, count_arrives, List.count_append, List.count_append,
      List.count_append, noLast]
    omega
  have flooded : ∀ fate, fate ≠ .freed → (∀ x, fate ≠ .flooded x) →
      ((mdb.floodIfindex.filter fun ifindex => decide (ifindex ≠ 0)).map net.floodFate).count fate =
          0 :=
    fun fate notFreed other => count_map_other _ fun x _ => Net.floodFate_ne notFreed x (other x)
  have encapped : ∀ fate, fate ≠ .freed → (∀ i, fate ≠ .encapped i) →
      ((passing packet.saddr 0 mdb.encapDev).map net.encapFate).count fate = 0 :=
    fun fate notFreed other => count_map_other _ fun i _ => Net.encapFate_ne notFreed i (other i)
  have routed : ∀ fate, (∀ port, fate ≠ .routed port) →
      ((mc.rlist.filter fun port => decide (port ∉ mdb.floodIfindex)).map Fate.routed).count fate =
          0 :=
    fun fate other => count_map_other _ fun port _ => (other port).symm
  have toPort : ∀ port, (deliver net mc mdb packet.saddr true (arrives alloc)).count
    (.routed port) =
      (mc.rlist.filter fun port => decide (port ∉ mdb.floodIfindex)).count port := by
    intro port
    rw [counts (.routed port) nofun nofun, flooded (.routed port) nofun nofun,
      encapped (.routed port) nofun nofun,
      Nat.zero_add, Nat.zero_add]
    exact count_map_same _ fun x _ => ⟨fun same => Fate.routed.inj same, congrArg Fate.routed⟩
  have toDev : ∀ i, (deliver net mc mdb packet.saddr true (arrives alloc)).count (.encapped i) =
      ((passing packet.saddr 0 mdb.encapDev).map net.encapFate).count (.encapped i) := by
    intro i
    rw [counts (.encapped i) nofun nofun, flooded (.encapped i) nofun nofun,
      routed (.encapped i) nofun, Nat.zero_add,
      Nat.add_zero]
  constructor
  case flooded =>
    intro ifindex nonzero isPort
    have kept : (mdb.floodIfindex.filter fun ifindex => decide (ifindex ≠ 0)).count ifindex =
        mdb.floodIfindex.count ifindex := List.count_filter (decide_eq_true nonzero)
    have toIt : net.floodFate ifindex = .flooded ifindex := if_pos isPort
    rw [counts (.flooded ifindex) nofun nofun, encapped (.flooded ifindex) nofun nofun,
      routed (.flooded ifindex) nofun, Nat.add_zero]
    exact (count_map_same _ fun x _ => ⟨Net.eq_of_flooded, fun same => same ▸ toIt⟩).trans kept
  case routed =>
    intro port missing
    rw [toPort]
    exact List.count_filter (decide_eq_true missing)
  case notRouted =>
    intro port member
    rw [toPort]
    exact List.count_eq_zero.mpr fun has => of_decide_eq_true (List.mem_filter.mp has).2 member
  case admitted =>
    intro i dev isAt admits leads
    have passes := count_passing packet.saddr 0 i mdb.encapDev
    rw [isAt, Option.any_some, (dev.admits_iff packet.saddr).mpr admits, Nat.zero_add] at passes
    rw [toDev]
    have toIt : net.encapFate i = .encapped i := if_pos leads
    exact (count_map_same _ fun x _ => ⟨Net.eq_of_encapped, fun same => same ▸ toIt⟩).trans passes
  case notAdmitted =>
    intro i none
    have passes := count_passing packet.saddr 0 i mdb.encapDev
    have isOut : ¬ (mdb.encapDev[i]?.any fun dev => !dev.filterSource packet.saddr) = true := by
      intro isIn
      cases isAt : mdb.encapDev[i]? with
      | none =>
        rw [isAt] at isIn
        exact Bool.false_ne_true isIn
      | some dev =>
        rw [isAt, Option.any_some, Bool.not_eq_true'] at isIn
        exact none dev isAt ((dev.admits_iff packet.saddr).mp isIn)
    rw [if_neg isOut, Nat.zero_add] at passes
    rw [toDev]
    refine count_map_other _ fun x member same => ?_
    obtain rfl := Net.eq_of_encapped same
    exact List.count_eq_zero.mp passes member

/-- **One copy each, and every packet consumed.** -/
theorem copies_and_consumption (net : Net) (mc : Mc) (packet : Skb) (alloc : Nat → Bool) :
    (∀ mdb, Reaches mc mdb packet → (∀ n, alloc n = true) →
      Copies net mc mdb packet.saddr (mcConvert net mc (some mdb) packet true (arrives alloc)).1) ∧
    ∀ mdb forward, Consumed packet (mcConvert net mc mdb packet forward (arrives alloc)) :=
  ⟨fun _ reaches full => mcConvert_copies net reaches full,
    fun mdb forward => mcConvert_consumed net mc mdb packet forward alloc⟩

/-! ### Copies for some -/

/-- Interfaces 1 and 2 are ports, and the first device is behind one. -/
def smallNet : Net := ⟨fun ifindex => decide (ifindex = 1 ∨ ifindex = 2), fun i => decide (i = 0)⟩

/-- A bridge that has heard queries on its ports 2 and 3. -/
def smallMc : Mc := ⟨true, false, false, false, [2, 3]⟩

/-- A UDP packet from the source 7. -/
def fromSeven : Skb := ⟨true, false, true, 7, false, false, false, false, false, 0⟩

/-- A device that wants the source 7 only. -/
def wantsSeven : EncapDev := ⟨[7], none, by decide, nofun⟩

theorem two_interfaces : Copies smallNet smallMc ⟨1, [1, 2], [wantsSeven]⟩ 7
    (mcConvert smallNet smallMc (some ⟨1, [1, 2], [wantsSeven]⟩) fromSeven true
        (arrives fun _ => true)).1 :=
  (copies_and_consumption smallNet smallMc fromSeven fun _ => true).1 ⟨1, [1, 2], [wantsSeven]⟩
    ⟨Nat.one_ne_zero, rfl, rfl, rfl⟩ fun _ => rfl

/-- One copy for every interface, querier and device, whatever the bridge knows of them. -/
structure OneEach (mc : Mc) (mdb : Mdb) (saddr : Nat) (world : World) : Prop where
  flooded : ∀ ifindex ∈ mdb.floodIfindex, world.count (.flooded ifindex) = 1
  routed : ∀ port ∈ mc.rlist, port ∉ mdb.floodIfindex → world.count (.routed port) = 1
  admitted : ∀ i dev, mdb.encapDev[i]? = some dev → dev.Admits saddr → world.count (.encapped i) = 1

/-- An entry for an interface that has left the bridge, an interface with two entries, a device
behind no known port, and a packet of IEEE 1905 that is returned with another interface in it. -/
theorem not_one_each :
    ¬ OneEach smallMc ⟨1, [4], []⟩ 7
        (mcConvert smallNet smallMc (some ⟨1, [4], []⟩) fromSeven true (arrives fun _ => true)).1 ∧
      ¬ OneEach smallMc ⟨1, [1, 1], []⟩ 7
        (mcConvert smallNet smallMc (some ⟨1, [1, 1], []⟩) fromSeven true
          (arrives fun _ => true)).1 ∧
      ¬ OneEach smallMc ⟨1, [], [wantsSeven, wantsSeven]⟩ 7
        (mcConvert smallNet smallMc (some ⟨1, [], [wantsSeven, wantsSeven]⟩) fromSeven true
          (arrives fun _ => true)).1 ∧
      (mcConvert smallNet smallMc none ⟨false, false, false, 0, false, false, false, false,
        true, 1⟩ true
        (arrives fun _ => true)).2 = false ∧
      (mcConvert smallNet smallMc none ⟨false, false, false, 0, false, false, false, false,
        true, 1⟩ true
        (arrives fun _ => true)).1.stamped = true := by
  refine ⟨fun one => ?_, fun one => ?_, fun one => ?_, rfl, rfl⟩
  · exact absurd (one.flooded 4 (by decide)) (by decide)
  · exact absurd (one.flooded 1 (by decide)) (by decide)
  · exact absurd (one.admitted 1 wantsSeven rfl (.inl (by decide))) (by decide)

end Qsdk.FanOut
