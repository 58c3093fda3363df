/-
**The election of the querier.**

For each port from which queries come the router list holds one entry, and the root is the entry
with the lowest address. `mc_querier_entry_create` takes the address of the querier and does not
store it: the entry is from `kzalloc`, so its address is zero, no later one is lower, and all
entries are equal in the election. The election is right along a run exactly if no entry is made for
a querier with another address than zero (`elected_iff`). What does not depend on the address is
right in every run (`Kept`): the root is in the list, and each port has one entry.
-/

import Qsdk.Lib.Best
import Qsdk.Multicast.Table
import Mathlib.Data.List.Nodup
import Mathlib.Order.OrderDual

namespace Qsdk.Queriers

open Qsdk.Multicast (timeBeforeEq)

/-! ### Model -/

/-- `struct mc_ip`, with the address as a number of the CPU. -/
structure McIp (w : Nat) where
  addr : BitVec w
  pro : Nat
deriving DecidableEq

/-- `struct mc_querier_entry`. Entries are numbered as they are allocated. -/
structure QuerierEntry (w : Nat) where
  id : Nat
  ageingTimer : BitVec 64
  port : Nat
  sip : McIp w
  maxRespTime : BitVec 64
  qqic : BitVec 64
  qrv : BitVec 64
deriving DecidableEq

/-- `struct mc_router_port`, its list and root for one protocol. -/
structure RouterPort (w : Nat) where
  rlist : List (QuerierEntry w)
  rootQe : Option Nat
  nextId : Nat

/-- The protocol: `ETH_P_IP` or `ETH_P_IPV6`, and that queries from the unspecified address are
dropped. -/
structure Protocol where
  pro : Nat
  positive : pro ≠ 0
  dropsAny : Bool

def igmp : Protocol := ⟨0x0800, by decide, false⟩

def mld : Protocol := ⟨0x86DD, by decide, true⟩

variable {w : Nat}

namespace RouterPort

/-- The loop of `mc_ipv4_rp_reset` and `mc_ipv6_rp_reset`. -/
def lower (root : Option (QuerierEntry w)) (qe : QuerierEntry w) : Option (QuerierEntry w) :=
  match root with
  | none => some qe
  | some best => if best.sip.addr > qe.sip.addr then some qe else some best

/-- `mc_ipv4_rp_reset` and `mc_ipv6_rp_reset`. -/
def reset (rp : RouterPort w) : RouterPort w :=
    { rp with rootQe := (rp.rlist.foldl lower none).map (·.id) }

/-- `mc_querier_entry_find`. -/
def find (rp : RouterPort w) (port : Nat) : Option (QuerierEntry w) :=
  rp.rlist.find? fun qe => decide (port = qe.port)

/-- `mc_querier_entry_destroy`. -/
def destroy (rp : RouterPort w) (id : Nat) : RouterPort w :=
  { rp with rlist := rp.rlist.filter fun qe => decide (qe.id ≠ id) }

/-- `mc_querier_entry_create`. The address is an argument that is not used. -/
def create (rp : RouterPort w) (port : Nat) (_sip : McIp w) (jiffies : BitVec 64) : RouterPort w :=
  { rp with
    rlist := ⟨rp.nextId, jiffies, port, ⟨0, 0⟩, 0, 0, 0⟩ :: rp.rlist
    nextId := rp.nextId + 1 }

end RouterPort

/-- The fields of a query that an entry keeps. -/
structure Query (w : Nat) where
  port : Nat
  saddr : BitVec w
  maxRespTime : BitVec 64
  qqic : BitVec 64
  qrv : BitVec 64

/-- The entry after a query on its port. -/
def QuerierEntry.refresh (qe : QuerierEntry w) (query : Query w) (jiffies : BitVec 64) :
    QuerierEntry w :=
  { qe with
    maxRespTime := query.maxRespTime, qqic := query.qqic, qrv := query.qrv, ageingTimer := jiffies }

namespace RouterPort

/-- `update:` in the query functions. -/
def update (rp : RouterPort w) (id : Nat) (query : Query w) (jiffies : BitVec 64) : RouterPort w :=
  { rp with rlist := rp.rlist.map fun qe => if qe.id = id then qe.refresh query jiffies else qe }

/-- The new entry, the election and the update, or nothing without memory. -/
def createAndReset (rp : RouterPort w) (query : Query w) (sip : McIp w) (jiffies : BitVec 64)
    (memory : Bool) :
    RouterPort w :=
  if memory then (rp.create query.port sip jiffies).reset.update rp.nextId query jiffies else rp

/-- `mc_ipv4_query` and `mc_ipv6_query`, what they do to the router list. -/
def query (protocol : Protocol) (rp : RouterPort w) (query : Query w) (jiffies : BitVec 64)
    (memory : Bool) :
    RouterPort w :=
  let sip : McIp w := ⟨query.saddr, protocol.pro⟩
  if protocol.dropsAny = true ∧ query.saddr = 0 then rp
  else
    match rp.find query.port with
    | none => rp.createAndReset query sip jiffies memory
    | some qe =>
      if sip = qe.sip then rp.update qe.id query jiffies
      else if query.saddr < qe.sip.addr then
        (rp.destroy qe.id).createAndReset query sip jiffies memory
      else rp.update qe.id query jiffies

/-- A loop that destroys entries, and the election if it has destroyed one or one was destroyed
before. -/
def cleanup (rp : RouterPort w) (gone : QuerierEntry w → Bool) (before : Bool) : RouterPort w :=
  let left := { rp with rlist := rp.rlist.filter fun qe => !gone qe }
  if before || rp.rlist.any gone then left.reset else left

end RouterPort

/-- What happens to a router list. -/
inductive Event (w : Nat)
  | query (query : Query w) (jiffies : BitVec 64) (memory : Bool)
  | delPort (port : Nat) (before : Bool)
  | expire (jiffies : BitVec 64)

/-- `mc_nbp_change`, where `delay_reset` is not cleared between the protocols, and
`mc_router_cleanup`. -/
def RouterPort.step (protocol : Protocol) (rp : RouterPort w) : Event w → RouterPort w
  | .query query jiffies memory => rp.query protocol query jiffies memory
  | .delPort port before => rp.cleanup (fun qe => decide (qe.port = port)) before
  | .expire jiffies => rp.cleanup
      (fun qe => timeBeforeEq (qe.ageingTimer + qe.qqic * qe.qrv + qe.maxRespTime / 2) jiffies)
      false

/-! ### What an election is -/

/-- The router list, and for each port with an entry the lowest address heard since the entry was
first made. -/
structure Heard (w : Nat) where
  rp : RouterPort w
  lowest : Nat → Option (BitVec w)

/-- The lowest address of two, if one was heard before. -/
def lowestOf (old : Option (BitVec w)) (saddr : BitVec w) : BitVec w :=
  match old with
  | none => saddr
  | some old => if saddr < old then saddr else old

/-- The query that is heard on a port. -/
def Event.heard (protocol : Protocol) (port : Nat) : Event w → Option (BitVec w)
  | .query asked _ _ =>
    if asked.port = port ∧ ¬ (protocol.dropsAny = true ∧ asked.saddr = 0) then
      some asked.saddr else none
  | _ => none

/-- The lowest address on a port after an event, by the entry that is there and the query that is
heard. -/
def lowestAfter (old : Option (BitVec w)) : Option (QuerierEntry w) → Option (BitVec w) →
    Option (BitVec w)
  | none, _ => none
  | some _, none => old
  | some _, some saddr => some (lowestOf old saddr)

/-- An event, and what is heard. -/
def Heard.step (protocol : Protocol) (heard : Heard w) (event : Event w) : Heard w where
  rp := heard.rp.step protocol event
  lowest port :=
    lowestAfter (heard.lowest port) ((heard.rp.step protocol event).find port)
      (event.heard protocol port)

/-- **The election is right.** -/
structure Elected (heard : Heard w) : Prop where
  none_iff : heard.rp.rootQe = none ↔ heard.rp.rlist = []
  inList : ∀ id, heard.rp.rootQe = some id → ∃ qe ∈ heard.rp.rlist, qe.id = id
  onePerPort : (heard.rp.rlist.map (·.port)).Nodup
  standsFor : ∀ qe ∈ heard.rp.rlist, heard.lowest qe.port = some qe.sip.addr
  isLowest : ∀ root ∈ heard.rp.rlist, heard.rp.rootQe = some root.id → ∀ qe ∈ heard.rp.rlist,
    root.sip.addr ≤ qe.sip.addr

/-- What holds in every state of a run. -/
def Always (protocol : Protocol) (holds : Heard w → Prop) (heard : Heard w) : List (Event w) → Prop
  | [] => holds heard
  | event :: events => holds heard ∧ Always protocol holds (heard.step protocol event) events

/-- An entry that this event makes is of the unspecified address. -/
def MakesZero (protocol : Protocol) (rp : RouterPort w) (event : Event w) : Prop :=
  ∀ query jiffies, event = .query query jiffies true →
    ¬ (protocol.dropsAny = true ∧ query.saddr = 0) →
    rp.find query.port = none → query.saddr = 0

/-- Every entry that a run makes is of the unspecified address. -/
def OnlyZero (protocol : Protocol) (heard : Heard w) : List (Event w) → Prop
  | [] => True
  | event :: events =>
    MakesZero protocol heard.rp event ∧ OnlyZero protocol (heard.step protocol event) events

/-! ### The root -/

section Root

variable {rp : RouterPort w} {qe : QuerierEntry w} {entries : List (QuerierEntry w)}

/-- The lower the address, the better. -/
def rank (qe : QuerierEntry w) : Natᵒᵈ := OrderDual.toDual qe.sip.addr.toNat

theorem foldl_lower (entries : List (QuerierEntry w)) (best : QuerierEntry w) :
    entries.foldl RouterPort.lower (some best) =
        some (entries.foldl (Best.keepBetter rank) best) := by
  induction entries generalizing best with
  | nil => rfl
  | cons qe entries ih =>
    have one : RouterPort.lower (some best) qe = some (Best.keepBetter rank best qe) := by
      show (if best.sip.addr > qe.sip.addr then _ else _) =
        some (if rank best < rank qe then _ else _)
      by_cases lower : best.sip.addr > qe.sip.addr
      · have better : rank best < rank qe := OrderDual.toDual_lt_toDual.mpr lower
        rw [if_pos lower, if_pos better]
      · have notBetter : ¬ rank best < rank qe := fun better =>
          lower (OrderDual.toDual_lt_toDual.mp better)
        rw [if_neg lower, if_neg notBetter]
    rw [List.foldl_cons, List.foldl_cons, one, ih]

/-- The winner of an election. -/
theorem winner_spec :
    (entries.foldl RouterPort.lower none = none ↔ entries = []) ∧
      ∀ qe, entries.foldl RouterPort.lower none = some qe →
        qe ∈ entries ∧ ∀ other ∈ entries, qe.sip.addr ≤ other.sip.addr := by
  cases entries with
  | nil => exact ⟨iff_of_true rfl rfl, fun qe isRoot => nomatch isRoot⟩
  | cons first entries =>
    have eq : (first :: entries).foldl RouterPort.lower none =
        some (entries.foldl (Best.keepBetter rank) first) :=
      foldl_lower entries first
    refine ⟨iff_of_false (by rw [eq]; exact Option.some_ne_none _) (List.cons_ne_nil _ _),
      fun qe isRoot => ?_⟩
    obtain rfl := Option.some.inj (eq.symm.trans isRoot)
    refine ⟨List.mem_cons.mpr (Best.foldl_mem rank entries first), fun other member => ?_⟩
    rcases List.mem_cons.mp member with rfl | member
    · exact OrderDual.toDual_le_toDual.mp (@Best.rank_seed_le _ _ _ rank entries other)
    · exact OrderDual.toDual_le_toDual.mp
        (@Best.rank_le_foldl _ _ _ rank entries first other member)

/-- A change of the entries that leaves their addresses alone changes nothing in the election. -/
theorem winner_map {change : QuerierEntry w → QuerierEntry w}
    (same : ∀ qe, (change qe).sip = qe.sip) (start : Option (QuerierEntry w)) :
    (entries.map change).foldl RouterPort.lower (start.map change) =
      (entries.foldl RouterPort.lower start).map change := by
  induction entries generalizing start with
  | nil => rfl
  | cons qe entries ih =>
    have one : RouterPort.lower (start.map change) (change qe) =
        (RouterPort.lower start qe).map change := by
      cases start with
      | none => rfl
      | some best =>
        unfold RouterPort.lower
        rw [Option.map_some]
        dsimp only
        rw [same, same]
        split <;> rfl
    rw [List.map_cons, List.foldl_cons, List.foldl_cons, one, ih]

end Root

/-! ### What every run keeps -/

namespace RouterPort

/-- The entries of a list, whatever the root is. -/
structure Listed (rp : RouterPort w) : Prop where
  ports : (rp.rlist.map (·.port)).Nodup
  ids : (rp.rlist.map (·.id)).Nodup
  fresh : ∀ qe ∈ rp.rlist, qe.id < rp.nextId
  sip : ∀ qe ∈ rp.rlist, qe.sip = ⟨0, 0⟩

/-- **The invariant of the router list:** no entry has an address, and the root is the winner of the
election. -/
structure Kept (rp : RouterPort w) : Prop extends rp.Listed where
  root : rp.rootQe = (rp.rlist.foldl lower none).map (·.id)

variable {rp : RouterPort w} {query : Query w} {jiffies : BitVec 64} {protocol : Protocol}
    {port : Nat}

theorem Listed.reset (listed : rp.Listed) : rp.reset.Kept :=
  ⟨⟨listed.ports, listed.ids, listed.fresh, listed.sip⟩, rfl⟩

theorem Listed.filter (listed : rp.Listed) (keep : QuerierEntry w → Bool) :
    ({ rp with rlist := rp.rlist.filter keep } : RouterPort w).Listed :=
  ⟨listed.ports.sublist (List.filter_sublist.map _), listed.ids.sublist (List.filter_sublist.map _),
    fun qe member => listed.fresh qe (List.mem_of_mem_filter member),
    fun qe member => listed.sip qe (List.mem_of_mem_filter member)⟩

theorem find_eq_none : rp.find port = none ↔ port ∉ rp.rlist.map (·.port) := by
  unfold find
  rw [List.find?_eq_none, List.mem_map]
  constructor
  · rintro none ⟨qe, member, rfl⟩
    exact none qe member (decide_eq_true rfl)
  · intro notIn qe member same
    exact notIn ⟨qe, member, (of_decide_eq_true same).symm⟩

theorem Listed.create (listed : rp.Listed) (absent : rp.find port = none) (sip : McIp w) :
    (rp.create port sip jiffies).Listed where
  ports := List.nodup_cons.mpr ⟨find_eq_none.mp absent, listed.ports⟩
  ids := by
    refine List.nodup_cons.mpr ⟨fun member => ?_, listed.ids⟩
    obtain ⟨qe, isEntry, same⟩ := List.mem_map.mp member
    exact Nat.ne_of_lt (listed.fresh qe isEntry) same
  fresh := List.forall_mem_cons.mpr
    ⟨Nat.lt_succ_self _, fun qe member => Nat.lt_succ_of_lt (listed.fresh qe member)⟩
  sip := List.forall_mem_cons.mpr ⟨rfl, listed.sip⟩

/-- The entry that a query refreshes. -/
def refreshed (id : Nat) (query : Query w) (jiffies : BitVec 64) (qe : QuerierEntry w) :
    QuerierEntry w :=
  if qe.id = id then qe.refresh query jiffies else qe

theorem refreshed_same (id : Nat) (qe : QuerierEntry w) :
    (refreshed id query jiffies qe).id = qe.id ∧ (refreshed id query jiffies qe).port = qe.port ∧
      (refreshed id query jiffies qe).sip = qe.sip := by
  unfold refreshed
  split <;> exact ⟨rfl, rfl, rfl⟩

theorem update_ports (id : Nat) : (rp.update id query jiffies).rlist.map (·.port) =
    rp.rlist.map (·.port) := by
  show (rp.rlist.map (refreshed id query jiffies)).map _ = _
  rw [List.map_map]
  exact List.map_congr_left fun qe _ => (refreshed_same id qe).2.1

theorem Kept.update (kept : rp.Kept) (id : Nat) : (rp.update id query jiffies).Kept := by
  have same := fun qe : QuerierEntry w => @refreshed_same w query jiffies id qe
  have ids : (rp.rlist.map (refreshed id query jiffies)).map (·.id) = rp.rlist.map (·.id) := by
    rw [List.map_map]
    exact List.map_congr_left fun qe _ => (same qe).1
  refine ⟨⟨?_, ids ▸ kept.ids, fun qe member => ?_, fun qe member => ?_⟩, ?_⟩
  · rw [update_ports]
    exact kept.ports
  · obtain ⟨old, isOld, rfl⟩ := List.mem_map.mp member
    exact (same old).1.symm ▸ kept.fresh old isOld
  · obtain ⟨old, isOld, rfl⟩ := List.mem_map.mp member
    exact (same old).2.2.trans (kept.sip old isOld)
  · have winner := @winner_map w rp.rlist _ (fun qe => (same qe).2.2) none
    show rp.rootQe = ((rp.rlist.map (refreshed id query jiffies)).foldl lower none).map _
    rw [kept.root, show (none : Option (QuerierEntry w)) =
      none.map (refreshed id query jiffies) from rfl, winner,
      Option.map_map]
    exact congrArg (fun id => Option.map id _) (funext fun qe => (same qe).1.symm)

/-- An entry has no address, so that none is lower and none is the same. -/
theorem Kept.query_eq (kept : rp.Kept) (heard : ¬ (protocol.dropsAny = true ∧ query.saddr = 0))
    (memory : Bool) :
    rp.query protocol query jiffies memory =
      match rp.find query.port with
      | none => rp.createAndReset query ⟨query.saddr, protocol.pro⟩ jiffies memory
      | some qe => rp.update qe.id query jiffies := by
  unfold RouterPort.query
  rw [if_neg heard]
  cases found : rp.find query.port with
  | none => rfl
  | some qe =>
    have sip := kept.sip qe (List.mem_of_find?_eq_some found)
    have notSame : (⟨query.saddr, protocol.pro⟩ : McIp w) ≠ qe.sip := fun same =>
      protocol.positive (congrArg McIp.pro (same.trans sip))
    have notLower : ¬ query.saddr < qe.sip.addr := by
      rw [sip]
      exact BitVec.not_lt_zero
    dsimp only
    rw [if_neg notSame, if_neg notLower]

theorem Kept.cleanup (kept : rp.Kept) (gone : QuerierEntry w → Bool) (before : Bool) :
    (rp.cleanup gone before).Kept := by
  have listed := kept.toListed.filter fun qe => !gone qe
  unfold RouterPort.cleanup
  dsimp only
  split
  · exact listed.reset
  · rename_i nothing
    have all : rp.rlist.filter (fun qe => !gone qe) = rp.rlist := by
      refine List.filter_eq_self.mpr fun qe member => ?_
      have none :=
        List.any_eq_false.mp (Bool.or_eq_false_iff.mp (Bool.eq_false_iff.mpr nothing)).2 qe member
      rw [Bool.not_eq_true] at none
      rw [none, Bool.not_false]
    exact ⟨listed, by rw [all]; exact kept.root⟩

theorem Kept.step (kept : rp.Kept) (event : Event w) : (rp.step protocol event).Kept := by
  cases event with
  | query query jiffies memory =>
    show (rp.query protocol query jiffies memory).Kept
    by_cases dropped : protocol.dropsAny = true ∧ query.saddr = 0
    · unfold RouterPort.query
      rw [if_pos dropped]
      exact kept
    · rw [kept.query_eq dropped]
      cases found : rp.find query.port with
      | none =>
        show (rp.createAndReset query _ jiffies memory).Kept
        cases memory with
        | true => exact (kept.toListed.create found _).reset.update _
        | false => exact kept
      | some qe => exact kept.update qe.id
  | delPort port before => exact kept.cleanup _ before
  | expire jiffies => exact kept.cleanup _ false

end RouterPort

variable {protocol : Protocol} {heard : Heard w} {event : Event w}

/-- **What every run keeps**, with what is heard. -/
structure Heard.Kept (heard : Heard w) : Prop where
  rp : heard.rp.Kept
  unheard : ∀ port, heard.rp.find port = none → heard.lowest port = none

theorem Heard.Kept.step (kept : heard.Kept) (event : Event w) :
    (heard.step protocol event).Kept := by
  refine ⟨kept.rp.step event, fun port absent => ?_⟩
  have absent : (heard.rp.step protocol event).find port = none := absent
  show lowestAfter _ ((heard.rp.step protocol event).find port) _ = none
  rw [absent]
  rfl

/-- The lowest address heard on each port with an entry is the one that its entry has, which is
zero. -/
def Heard.Zero (heard : Heard w) : Prop := ∀ port ∈ heard.rp.rlist.map (·.port),
    heard.lowest port = some 0

/-- All but what the entries stand for is right in every run. -/
theorem Heard.Kept.elected_iff_zero (kept : heard.Kept) : Elected heard ↔ heard.Zero := by
  obtain ⟨isNone, isSome⟩ := @winner_spec w heard.rp.rlist
  have sip := kept.rp.sip
  have root := kept.rp.root
  constructor
  · intro elected port isPort
    obtain ⟨qe, member, rfl⟩ := List.mem_map.mp isPort
    rw [elected.standsFor qe member, sip qe member]
  · intro zero
    refine ⟨?_, fun id isRoot => ?_, kept.rp.ports, fun qe member => ?_,
      fun first isFirst _ qe member => ?_⟩
    · rw [root, Option.map_eq_none_iff]
      exact isNone
    · rw [root] at isRoot
      obtain ⟨qe, won, same⟩ := Option.map_eq_some_iff.mp isRoot
      exact ⟨qe, (isSome qe won).1, same⟩
    · rw [zero qe.port (List.mem_map_of_mem member), sip qe member]
    · rw [sip first isFirst, sip qe member]
      exact BitVec.le_refl _

/-- The lowest address on a port with an entry. -/
theorem Heard.lowest_step {port : Nat}
    (isPort : port ∈ (heard.rp.step protocol event).rlist.map (·.port)) :
    (heard.step protocol event).lowest port =
      match event.heard protocol port with
      | none => heard.lowest port
      | some saddr => some (lowestOf (heard.lowest port) saddr) := by
  show lowestAfter _ ((heard.rp.step protocol event).find port) _ = _
  cases found : (heard.rp.step protocol event).find port with
  | none => exact absurd isPort (RouterPort.find_eq_none.mp found)
  | some qe => cases event.heard protocol port <;> rfl

theorem lowestOf_zero (saddr : BitVec w) : lowestOf (some 0) saddr = 0 := by
  have notLower : ¬ saddr < (0 : BitVec w) := BitVec.not_lt_zero
  show (if saddr < 0 then saddr else 0) = 0
  rw [if_neg notLower]

/-- On a port with an entry that stands for zero, it goes on doing so. -/
theorem Heard.Zero.old (zero : heard.Zero) {port : Nat}
    (isPort : port ∈ heard.rp.rlist.map (·.port))
    (stays : port ∈ (heard.rp.step protocol event).rlist.map (·.port)) :
    (heard.step protocol event).lowest port = some 0 := by
  rw [Heard.lowest_step stays, zero port isPort]
  cases event.heard protocol port with
  | none => rfl
  | some saddr => exact congrArg some (lowestOf_zero saddr)

/-- Without a new entry everything stays. -/
theorem Heard.Zero.step_of_subset (zero : heard.Zero)
    (fewer : (heard.rp.step protocol event).rlist.map (·.port) ⊆ heard.rp.rlist.map (·.port)) :
    (heard.step protocol event).Zero :=
  fun _ isPort => zero.old (fewer isPort) isPort

/-- **An event** leaves what the entries stand for right exactly if it makes none for another
address than zero. -/
theorem Heard.Kept.zero_step_iff (kept : heard.Kept) (zero : heard.Zero) :
    (heard.step protocol event).Zero ↔ MakesZero protocol heard.rp event := by
  have cleaned : ∀ (gone : QuerierEntry w → Bool) (before : Bool),
      (heard.rp.cleanup gone before).rlist.map (·.port) ⊆ heard.rp.rlist.map (·.port) := by
    intro gone before
    unfold RouterPort.cleanup
    dsimp only
    split <;> exact (List.filter_sublist.map _).subset
  cases event with
  | delPort port before =>
    exact iff_of_true (zero.step_of_subset (cleaned _ before)) fun _ _ same => nomatch same
  | expire jiffies => exact iff_of_true (zero.step_of_subset (cleaned _ false)) fun _ _ same =>
    nomatch same
  | query asked jiffies memory =>
    by_cases dropped : protocol.dropsAny = true ∧ asked.saddr = 0
    · have same : heard.rp.step protocol (.query asked jiffies memory) = heard.rp := if_pos dropped
      refine iff_of_true (zero.step_of_subset (by rw [same]; exact List.Subset.refl _)) ?_
      rintro query jiffies' same' notDropped
      obtain ⟨rfl, _, _⟩ := Event.query.inj same'
      exact absurd dropped notDropped
    have eq := @RouterPort.Kept.query_eq w heard.rp asked jiffies protocol kept.rp dropped memory
    cases found : heard.rp.find asked.port with
    | some qe =>
      rw [found] at eq
      have ports : (heard.rp.step protocol (.query asked jiffies memory)).rlist.map (·.port) =
          heard.rp.rlist.map (·.port) := (congrArg (fun rp => rp.rlist.map (·.port)) eq).trans
          (RouterPort.update_ports _)
      refine iff_of_true (zero.step_of_subset (by rw [ports]; exact List.Subset.refl _)) ?_
      rintro query jiffies' same' _ absent
      obtain ⟨rfl, _, _⟩ := Event.query.inj same'
      exact absurd (absent.symm.trans found) (Option.some_ne_none _).symm
    | none =>
      rw [found] at eq
      cases memory with
      | false =>
        have same : heard.rp.step protocol (.query asked jiffies false) = heard.rp := eq
        refine iff_of_true (zero.step_of_subset (by rw [same]; exact List.Subset.refl _)) ?_
        rintro query jiffies' same'
        exact absurd (Event.query.inj same').2.2 (by decide)
      | true =>
        have ports : (heard.rp.step protocol (.query asked jiffies true)).rlist.map (·.port) =
            asked.port :: heard.rp.rlist.map (·.port) :=
          (congrArg (fun rp => rp.rlist.map (·.port)) eq).trans (RouterPort.update_ports _)
        have isPort : asked.port ∈ (heard.rp.step protocol (.query asked jiffies true)).rlist.map
            (·.port) :=
          ports ▸ List.mem_cons_self
        have made : (heard.step protocol (.query asked jiffies true)).lowest asked.port =
            some asked.saddr := by
          have said : (Event.query asked jiffies true).heard protocol asked.port =
              some asked.saddr :=
            if_pos ⟨rfl, dropped⟩
          rw [Heard.lowest_step isPort, said, kept.unheard asked.port found]
          rfl
        constructor
        · intro zero' query jiffies' same _ _
          obtain ⟨rfl, _, _⟩ := Event.query.inj same
          exact Option.some.inj (made.symm.trans (zero' asked.port isPort))
        · intro makesZero port inList
          rcases List.mem_cons.mp (ports ▸ inList) with rfl | old
          · rw [made, makesZero asked jiffies rfl dropped found]
          · exact zero.old old inList

/-! ### Runs -/

/-- Along a run from an election that is right. -/
theorem Heard.Kept.always_iff (kept : heard.Kept) (zero : heard.Zero) (events : List (Event w)) :
    Always protocol Elected heard events ↔ OnlyZero protocol heard events := by
  induction events generalizing heard with
  | nil => exact iff_of_true (kept.elected_iff_zero.mpr zero) trivial
  | cons event events ih =>
    have one : (heard.step protocol event).Zero ↔ MakesZero protocol heard.rp event :=
      kept.zero_step_iff zero
    have next : (heard.step protocol event).Kept := kept.step event
    constructor
    · rintro ⟨_, rest⟩
      have elected : Elected (heard.step protocol event) := by
        cases events with
        | nil => exact rest
        | cons => exact rest.1
      have zero' := next.elected_iff_zero.mp elected
      exact ⟨one.mp zero', (ih next zero').mp rest⟩
    · rintro ⟨makesZero, rest⟩
      exact ⟨kept.elected_iff_zero.mpr zero, (ih next (one.mpr makesZero)).mpr rest⟩

/-- No querier has been heard yet. -/
def Heard.init (w : Nat) : Heard w := ⟨⟨[], none, 0⟩, fun _ => none⟩

theorem Heard.init_kept : (Heard.init w).Kept where
  rp :=
    { ports := List.nodup_nil
      ids := List.nodup_nil
      fresh := fun _ member => absurd member List.not_mem_nil
      sip := fun _ member => absurd member List.not_mem_nil
      root := rfl }
  unheard _ _ := rfl

/-- **The election is right in every state of a run exactly if every entry that the run makes is for
address zero.** -/
theorem elected_iff (protocol : Protocol) (events : List (Event w)) :
    Always protocol Elected (Heard.init w) events ↔ OnlyZero protocol (Heard.init w) events :=
  Heard.init_kept.always_iff (fun _ isPort => absurd isPort List.not_mem_nil) events

/-- A query of this address, on a port. -/
def queryFrom (port : Nat) (saddr : BitVec w) : Event w :=
    .query ⟨port, saddr, 1000, 12500, 2⟩ 0 true

/-- Queriers 192.168.1.2 on port 1 and 192.168.1.1 on port 2: none of the entries has an address. -/
theorem not_elected_two : ¬ Always igmp Elected (Heard.init 32)
    [queryFrom 1 0xC0A80102, queryFrom 2 0xC0A80101] := by
  rintro ⟨_, elected, _⟩
  have standsFor := elected.standsFor ⟨0, 0, 1, ⟨0, 0⟩, 1000, 12500, 2⟩ (by decide)
  exact absurd standsFor (by decide)

end Qsdk.Queriers
