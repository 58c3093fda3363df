/-
**The copies of a multicast packet.**

`mc_convert` sends a packet to the interfaces of a group, to encapsulation devices and to the ports
with a querier. Each of the loops is one behind: a copy goes to the place before, and the loop's own
packet to the last one. Copies can fail at any point. Every packet has a number, and its fate is
noted down.
-/

import Mathlib.Data.List.Perm.Basic

namespace Qsdk.FanOut

/-! ### Model -/

/-- What becomes of a packet. -/
inductive Fate
  | freed
  | flooded (ifindex : Nat)
  | routed (ifindex : Nat)
  | encapped (i : Nat)
  | passedUp
  | received
deriving DecidableEq

/-- The packets so far, with their fates, and which of the allocations succeed. `mc_retag` and
`hyfi_ieee1905_frame_filter` write to the packet. -/
structure World where
  alloc : Nat → Bool
  asked : Nat
  made : Nat
  fates : List (Nat × Fate)
  retagged : Bool
  stamped : Bool

/-- `skb_clone` and `skb_copy`. -/
def World.clone (world : World) : Option Nat × World :=
  if world.alloc world.asked then
    (some world.made, { world with asked := world.asked + 1, made := world.made + 1 })
  else (none, { world with asked := world.asked + 1 })

/-- A packet is handed over, or freed. -/
def World.consume (world : World) (skb : Nat) (fate : Fate) : World :=
  { world with fates := (skb, fate) :: world.fates }

/-- `struct __mc_encaptbl_dev`. The marker `HYFI_MC_EX_SRCS_INVAL` stands for no list, and the
arrays have room for 16 addresses. -/
structure EncapDev where
  inSrcs : List Nat
  exSrcs : Option (List Nat)
  inRoom : inSrcs.length ≤ 16
  exRoom : ∀ srcs ∈ exSrcs, srcs.length ≤ 16

/-- `struct mc_mdb_entry`, as far as packets go. -/
structure Mdb where
  users : Nat
  floodIfindex : List Nat
  encapDev : List EncapDev

/-- Which interfaces are ports of the bridge, and which devices have a port that leads to them. -/
structure Net where
  isPort : Nat → Bool
  leads : Nat → Bool

/-- `mc_encap_check_source`, with its answer for offsets that are too large. -/
def checkSource (srcs : List Nat) (offset saddr : Nat) : Bool :=
  if offset > 16 then true else decide (srcs[offset]? = some saddr)

/-- Whether one of the loops of `mc_encap_filter_source` finds the source. -/
def findsSource (srcs : List Nat) (saddr : Nat) : Bool :=
  (List.range srcs.length).any fun n => checkSource srcs n saddr

/-- `mc_encap_filter_source`. -/
def EncapDev.filterSource (dev : EncapDev) (saddr : Nat) : Bool :=
  if dev.inSrcs = [] ∧ dev.exSrcs = some [] then false
  else if findsSource dev.inSrcs saddr then false
  else
    match dev.exSrcs with
    | none => true
    | some srcs => findsSource srcs saddr

/-- `mc_flood_hook`. -/
def Net.floodFate (net : Net) (ifindex : Nat) : Fate :=
    if net.isPort ifindex then .flooded ifindex else .freed

/-- `mc_encap_hook`. -/
def Net.encapFate (net : Net) (i : Nat) : Fate := if net.leads i then .encapped i else .freed

/-- The loop of `mc_do_flood`. -/
def floodLoop (net : Net) (skb : Nat) : Nat → List Nat → World → World × Bool
  | prev, [], world => (world.consume skb (if prev ≠ 0 then net.floodFate prev else .freed), true)
  | prev, ifindex :: rest, world =>
    if prev ≠ 0 then
      match world.clone with
      | (none, world) => (world.consume skb .freed, false)
      | (some skb2, world) => floodLoop net skb ifindex rest
        (world.consume skb2 (net.floodFate prev))
    else floodLoop net skb ifindex rest world

/-- `mc_do_flood`. -/
def mcDoFlood (net : Net) (mdb : Mdb) (skb : Nat) (world : World) : World × Bool :=
  floodLoop net skb 0 mdb.floodIfindex world

/-- The loop of `mc_do_encap`, with `skb_unshare` at its end. -/
def encapLoop (net : Net) (saddr skb : Nat) : Option Nat → Nat → List EncapDev → World → World
  | none, _, [], world => world.consume skb .freed
  | some prev, _, [], world =>
    match world.clone with
    | (none, world) => world.consume skb .freed
    | (some skb2, world) => (world.consume skb .freed).consume skb2 (net.encapFate prev)
  | prev, i, dev :: rest, world =>
    if dev.filterSource saddr then encapLoop net saddr skb prev (i + 1) rest world
    else
      match prev with
      | none => encapLoop net saddr skb (some i) (i + 1) rest world
      | some prev =>
        match world.clone with
        | (none, world) => world.consume skb .freed
        | (some skb2, world) => encapLoop net saddr skb (some i) (i + 1) rest
          (world.consume skb2 (net.encapFate prev))

/-- `mc_do_encap`. -/
def mcDoEncap (net : Net) (mdb : Mdb) (saddr skb : Nat) (world : World) : World :=
  encapLoop net saddr skb none 0 mdb.encapDev world

/-- `mc_do_router_flood`, beside the interfaces that have a copy already. -/
def mcDoRouterFlood (flooded : List Nat) : List Nat → World → World
  | [], world => world
  | port :: rest, world =>
    if port ∈ flooded then mcDoRouterFlood flooded rest world
    else
      match world.clone with
      | (none, world) => world
      | (some skb2, world) => mcDoRouterFlood flooded rest (world.consume skb2 (.routed port))

/-- The packet, with what the access lists say of it. `loops1905` is an IEEE 1905 packet from this
bridge itself. -/
structure Skb where
  isIp : Bool
  isControl : Bool
  isUdp : Bool
  saddr : Nat
  igmp : Bool
  nonSnoop : Bool
  isNonSnooping : Bool
  isManagement : Bool
  loops1905 : Bool
  msgType : Nat

/-- `struct mc_struct`, and whether the bridge is a multicast router. -/
structure Mc where
  convertAll : Bool
  floods : Bool
  enableRetag : Bool
  isRouter : Bool
  rlist : List Nat

/-- The end of `mc_convert`: the ports with a querier, and then the packet itself, which has the
number 0. -/
def finish (mc : Mc) (flooded : List Nat) (forward : Bool) (world : World) : World :=
  (if forward then mcDoRouterFlood flooded mc.rlist world else world).consume 0
    (if forward && mc.isRouter then .passedUp else .freed)

/-- The encapsulation in `mc_convert`, and its end. -/
def encapAndFinish (net : Net) (mc : Mc) (mdb : Mdb) (saddr : Nat) (forward : Bool)
    (world : World) : World :=
  if mdb.encapDev = [] then finish mc mdb.floodIfindex forward world
  else
    match world.clone with
    | (none, world) => world.consume 0 .freed
    | (some skb2, world) => finish mc mdb.floodIfindex forward (mcDoEncap net mdb saddr skb2 world)

/-- `mc_convert` for a group with users. -/
def deliver (net : Net) (mc : Mc) (mdb : Mdb) (saddr : Nat) (forward : Bool) (world : World) :
    World :=
  let world := { world with retagged := world.retagged || mc.enableRetag }
  if mdb.floodIfindex = [] then encapAndFinish net mc mdb saddr forward world
  else
    match world.clone with
    | (none, world) => world.consume 0 .freed
    | (some skb2, world) =>
      match mcDoFlood net mdb skb2 world with
      | (world, false) => world.consume 0 .freed
      | (world, true) => encapAndFinish net mc mdb saddr forward world

/-- The part of `mc_convert` for a packet of IEEE 1905. The result says whether 0 is returned. -/
def convert1905 (skb : Skb) (world : World) : World × Bool :=
  if skb.loops1905 then
    match { world with stamped := true }.clone with
    | (none, world) => (world, false)
    | (some skb2, world) =>
      let world := world.consume skb2 .received
      if skb.msgType = 0 then (world.consume 0 .freed, true) else (world, false)
  else (world, false)

/-- **`mc_convert`.** The result says whether 0 is returned. -/
def mcConvert (net : Net) (mc : Mc) (mdb : Option Mdb) (skb : Skb) (forward : Bool)
    (world : World) : World × Bool :=
  if forward && (skb.igmp || skb.nonSnoop) then (world, false)
  else if !skb.isIp then convert1905 skb world
  else if !forward && (skb.isControl || skb.isNonSnooping) then (world, false)
  else if !mc.convertAll && !skb.isUdp then (world, false)
  else
    match mdb.filter fun mdb => decide (mdb.users ≠ 0) with
    | none =>
      if mc.floods || skb.isManagement then (world, false) else (finish mc [] forward world, true)
    | some mdb => (deliver net mc mdb skb.saddr forward world, true)

/-! ### What is promised -/

/-- The packet comes, with this pattern of allocations. -/
def arrives (alloc : Nat → Bool) : World := ⟨alloc, 0, 1, [], false, false⟩

/-- A device admits a source. -/
def EncapDev.Admits (dev : EncapDev) (saddr : Nat) : Prop :=
  saddr ∈ dev.inSrcs ∨ ∃ srcs, dev.exSrcs = some srcs ∧ saddr ∉ srcs

/-- How many packets have this fate. -/
def World.count (world : World) (fate : Fate) : Nat := (world.fates.map Prod.snd).count fate

/-- The caller's own packet is as before, but for the interface in a packet of IEEE 1905 from this
bridge. -/
def Untouched (skb : Skb) (world : World) : Prop :=
  world.retagged = false ∧ (world.stamped = true → skb.isIp = false ∧ skb.loops1905 = true)

/-- **What is consumed:** every packet once, but for the caller's own if an error is returned. -/
def Consumed (skb : Skb) (result : World × Bool) : Prop :=
  if result.2 then (result.1.fates.map Prod.fst).Perm (List.range result.1.made)
  else (0 :: result.1.fates.map Prod.fst).Perm (List.range result.1.made) ∧ Untouched skb result.1

/-- A forwarded packet gets to a group with users. -/
structure Reaches (mc : Mc) (mdb : Mdb) (skb : Skb) : Prop where
  users : mdb.users ≠ 0
  snooped : (skb.igmp || skb.nonSnoop) = false
  ip : skb.isIp = true
  converted : (mc.convertAll || skb.isUdp) = true

/-- **The copies:** one for each entry of the flood list, one for each querier on a port without
such an entry, and one for each device that admits the source. -/
structure Copies (net : Net) (mc : Mc) (mdb : Mdb) (saddr : Nat) (world : World) : Prop where
  flooded : ∀ ifindex, ifindex ≠ 0 → net.isPort ifindex = true →
    world.count (.flooded ifindex) = mdb.floodIfindex.count ifindex
  routed : ∀ port, port ∉ mdb.floodIfindex → world.count (.routed port) = mc.rlist.count port
  notRouted : ∀ port ∈ mdb.floodIfindex, world.count (.routed port) = 0
  admitted : ∀ i dev, mdb.encapDev[i]? = some dev → dev.Admits saddr → net.leads i = true →
    world.count (.encapped i) = 1
  notAdmitted : ∀ i, (∀ dev, mdb.encapDev[i]? = some dev → ¬ dev.Admits saddr) →
    world.count (.encapped i) = 0

/-! ### What is consumed -/

/-- Each packet is one of these, or has one fate. -/
def World.Live (world : World) (live : List Nat) : Prop :=
  (live ++ world.fates.map Prod.fst).Perm (List.range world.made)

variable {world : World} {live : List Nat} {skb : Nat} {net : Net}

theorem World.Live.consume (has : world.Live (skb :: live)) (fate : Fate) :
    (world.consume skb fate).Live live :=
  List.perm_middle.trans has

theorem World.Live.clone (has : world.Live live) :
    (∃ skb2, world.clone.1 = some skb2 ∧ world.clone.2.Live (skb2 :: live)) ∨
      (world.clone.1 = none ∧ world.clone.2.Live live) := by
  unfold World.clone
  split
  case isTrue =>
    refine .inl ⟨world.made, rfl, ?_⟩
    unfold World.Live
    rw [List.range_succ]
    exact (List.Perm.cons _ has).trans (List.perm_append_singleton _ _).symm
  case isFalse => exact .inr ⟨rfl, has⟩

/-- **Any pattern of allocations** leaves nothing of a loop behind. -/
theorem floodLoop_live (has : world.Live (skb :: live)) (prev : Nat) (rest : List Nat) :
    (floodLoop net skb prev rest world).1.Live live := by
  induction rest generalizing prev world with
  | nil => exact has.consume _
  | cons ifindex rest ih =>
    unfold floodLoop
    split
    case isFalse => exact ih has ifindex
    case isTrue =>
      have cloned := has.clone
      generalize world.clone = result at cloned
      obtain ⟨copy, after⟩ := result
      rcases cloned with ⟨skb2, made, has2⟩ | ⟨made, has2⟩
      · dsimp only at made
        rw [made]
        exact ih (has2.consume _) ifindex
      · dsimp only at made
        rw [made]
        exact has2.consume _

theorem encapLoop_live (saddr : Nat) (has : world.Live (skb :: live)) (prev : Option Nat) (i : Nat)
    (rest : List EncapDev) : (encapLoop net saddr skb prev i rest world).Live live := by
  induction rest generalizing prev i world with
  | nil =>
    cases prev with
    | none => exact has.consume _
    | some prev =>
      unfold encapLoop
      have cloned := has.clone
      generalize world.clone = result at cloned
      obtain ⟨copy, after⟩ := result
      rcases cloned with ⟨skb2, made, has2⟩ | ⟨made, has2⟩
      · dsimp only at made
        rw [made]
        have swapped : after.Live (skb :: skb2 :: live) :=
          ((List.Perm.swap ..).append_right _).trans has2
        exact (swapped.consume _).consume _
      · dsimp only at made
        rw [made]
        exact has2.consume _
  | cons dev rest ih =>
    cases prev with
    | none =>
      unfold encapLoop
      dsimp only
      split
      case isTrue => exact ih has none (i + 1)
      case isFalse => exact ih has (some i) (i + 1)
    | some prev =>
      unfold encapLoop
      dsimp only
      split
      case isTrue => exact ih has (some prev) (i + 1)
      case isFalse =>
        have cloned := has.clone
        generalize world.clone = result at cloned
        obtain ⟨copy, after⟩ := result
        rcases cloned with ⟨skb2, made, has2⟩ | ⟨made, has2⟩
        · dsimp only at made
          rw [made]
          exact ih (has2.consume _) (some i) (i + 1)
        · dsimp only at made
          rw [made]
          exact has2.consume _

theorem mcDoRouterFlood_live (has : world.Live live) (flooded rlist : List Nat) :
    (mcDoRouterFlood flooded rlist world).Live live := by
  induction rlist generalizing world with
  | nil => exact has
  | cons port rest ih =>
    unfold mcDoRouterFlood
    split
    case isTrue => exact ih has
    case isFalse =>
      have cloned := has.clone
      generalize world.clone = result at cloned
      obtain ⟨copy, after⟩ := result
      rcases cloned with ⟨skb2, made, has2⟩ | ⟨made, has2⟩
      · dsimp only at made
        rw [made]
        exact ih (has2.consume _)
      · dsimp only at made
        rw [made]
        exact has2

theorem finish_live (mc : Mc) (flooded : List Nat) (forward : Bool) (has : world.Live [0]) :
    (finish mc flooded forward world).Live [] := by
  unfold finish
  split
  · exact (mcDoRouterFlood_live has flooded mc.rlist).consume _
  · exact has.consume _

theorem encapAndFinish_live (mc : Mc) (mdb : Mdb) (saddr : Nat) (forward : Bool)
    (has : world.Live [0]) :
    (encapAndFinish net mc mdb saddr forward world).Live [] := by
  unfold encapAndFinish
  split
  case isTrue => exact finish_live mc _ forward has
  case isFalse =>
    have cloned := has.clone
    generalize world.clone = result at cloned
    obtain ⟨copy, after⟩ := result
    rcases cloned with ⟨skb2, made, has2⟩ | ⟨made, has2⟩
    · dsimp only at made
      rw [made]
      exact finish_live mc _ forward (encapLoop_live saddr has2 none 0 mdb.encapDev)
    · dsimp only at made
      rw [made]
      exact has2.consume _

theorem deliver_live (mc : Mc) (mdb : Mdb) (saddr : Nat) (forward : Bool) (has : world.Live [0]) :
    (deliver net mc mdb saddr forward world).Live [] := by
  have has' : ({ world with retagged := world.retagged || mc.enableRetag } : World).Live [0] := has
  unfold deliver
  dsimp only
  generalize ({ world with retagged := world.retagged || mc.enableRetag } : World) = world at has'
  split
  case isTrue => exact encapAndFinish_live mc mdb saddr forward has'
  case isFalse =>
    have cloned := has'.clone
    generalize world.clone = result at cloned
    obtain ⟨copy, after⟩ := result
    rcases cloned with ⟨skb2, made, has2⟩ | ⟨made, has2⟩
    · dsimp only at made
      rw [made]
      dsimp only
      unfold mcDoFlood
      have flooded := @floodLoop_live after [0] skb2 net has2 0 mdb.floodIfindex
      generalize floodLoop net skb2 0 mdb.floodIfindex after = result at flooded
      obtain ⟨world, done⟩ := result
      cases done with
      | true => exact encapAndFinish_live mc mdb saddr forward flooded
      | false => exact flooded.consume _
    · dsimp only at made
      rw [made]
      exact has2.consume _

variable {packet : Skb}

theorem consumed_of_live (has : world.Live []) : Consumed packet (world, true) := has

theorem left_of_live (has : world.Live [0]) (untouched : Untouched packet world) :
    Consumed packet (world, false) :=
  ⟨has, untouched⟩

theorem arrives_live (alloc : Nat → Bool) : (arrives alloc).Live [0] := List.Perm.refl _

theorem arrives_untouched (packet : Skb) (alloc : Nat → Bool) : Untouched packet (arrives alloc) :=
  ⟨rfl, fun stamped => absurd stamped Bool.false_ne_true⟩

theorem convert1905_consumed (alloc : Nat → Bool) (other : packet.isIp = false) :
    Consumed packet (convert1905 packet (arrives alloc)) := by
  unfold convert1905
  cases loops : packet.loops1905 with
  | false => exact left_of_live (arrives_live alloc) (arrives_untouched packet alloc)
  | true =>
    have has : ({ arrives alloc with stamped := true } : World).Live [0] := arrives_live alloc
    have cloned := has.clone
    have kept : ({ arrives alloc with stamped := true } : World).clone.2.retagged = false := by
      unfold World.clone
      split <;> rfl
    generalize ({ arrives alloc with stamped := true } : World).clone = result at cloned kept
    obtain ⟨copy, after⟩ := result
    have untouched : ∀ skb fate, Untouched packet (after.consume skb fate) ∧
        Untouched packet after :=
      fun _ _ => ⟨⟨kept, fun _ => ⟨other, loops⟩⟩, kept, fun _ => ⟨other, loops⟩⟩
    rw [if_pos rfl]
    rcases cloned with ⟨skb2, made, has2⟩ | ⟨made, has2⟩
    · dsimp only at made
      rw [made]
      dsimp only
      split
      · exact consumed_of_live ((has2.consume _).consume _)
      · exact left_of_live (has2.consume _) (untouched skb2 .received).1
    · dsimp only at made
      rw [made]
      exact left_of_live has2 (untouched 0 .freed).2

/-- **What `mc_convert` consumes.** -/
theorem mcConvert_consumed (net : Net) (mc : Mc) (mdb : Option Mdb) (packet : Skb) (forward : Bool)
    (alloc : Nat → Bool) :
        Consumed packet (mcConvert net mc mdb packet forward (arrives alloc)) := by
  have has := arrives_live alloc
  have out := left_of_live has (arrives_untouched packet alloc)
  unfold mcConvert
  split
  · exact out
  · cases ip : packet.isIp with
    | false => exact convert1905_consumed alloc ip
    | true =>
      rw [if_neg (show ¬(!true) = true from Bool.false_ne_true)]
      split
      · exact out
      · split
        · exact out
        · split
          · split
            · exact out
            · exact consumed_of_live (finish_live mc [] forward has)
          · exact consumed_of_live (deliver_live mc _ packet.saddr forward has)

end Qsdk.FanOut
