/-
**Walks over the members of a group.**

No two port groups of a group share a port, and no two members a MAC (`MdbEntry.Distinct`). A walk
then does at every port just what its visit says (`walkPorts_eq`), and `users` and
`active_group_count` are counted down once for each member that is destroyed. So a group that is
counted right stays so (`Account.Counted.walkPorts`).
-/

import Qsdk.Multicast.Table
import Mathlib.Algebra.BigOperators.Group.List.Basic
import Mathlib.Algebra.GroupWithZero.Nat

set_option linter.unusedSectionVars false

namespace Qsdk.Multicast

variable {Mac Port Group Addr : Type} [DecidableEq Mac] [DecidableEq Port] [DecidableEq Group]
  {mdb : MdbEntry Mac Port Group Addr} {account : Account Mac Port Group Addr}
  {port : Port} {mac : Mac}
  {front back done todo : List (PortGroup Mac Port Addr)} {pg : PortGroup Mac Port Addr}

/-! ### Counting down -/

/-- `users` and `active_group_count` counted down by `n` members. -/
def countDown : Nat → Int × Int → Int × Int
  | 0, counts => counts
  | n + 1, counts => countDown n (counts.1 - 1, if counts.1 - 1 = 0 then counts.2 - 1 else counts.2)

theorem countDown_add (m n : Nat) (counts : Int × Int) : countDown (m + n) counts =
    countDown n (countDown m counts) := by
  induction m generalizing counts with
  | zero => rw [Nat.zero_add]; rfl
  | succ m ih => rw [Nat.succ_add]; exact ih _

/-- Whether the group counts as active. -/
def isActive (users : Int) : Int := if 0 < users then 1 else 0

theorem countDown_eq {n : Nat} {users : Int} (enough : (n : Int) ≤ users) (others : Int) :
    countDown n (users, others + isActive users) = (users - n, others + isActive (users - n)) := by
  induction n generalizing users with
  | zero => simp [countDown]
  | succ n ih =>
    have step : (if users - 1 = 0 then others + isActive users - 1 else others + isActive users) =
        others + isActive (users - 1) := by
      unfold isActive
      split <;> split <;> split <;> omega
    rw [countDown]
    dsimp only
    rw [step, ih (by omega)]
    have same : users - 1 - (n : Int) = users - ((n + 1 : Nat) : Int) := by omega
    rw [same]

/-! ### Distinct entries -/

/-- The MACs of the members, over all ports. -/
def MdbEntry.macs (mdb : MdbEntry Mac Port Group Addr) : List Mac :=
    mdb.pslist.flatMap fun pg => pg.fslist.map (·.mac)

/-- The members, over all ports. -/
def MdbEntry.members (mdb : MdbEntry Mac Port Group Addr) : Nat :=
    (mdb.pslist.map fun pg => pg.fslist.length).sum

/-- No port and no MAC occurs twice in a group. -/
structure MdbEntry.Distinct (mdb : MdbEntry Mac Port Group Addr) : Prop where
  ports : (mdb.pslist.map (·.port)).Nodup
  macs : mdb.macs.Nodup

theorem MdbEntry.Distinct.of_pslist {other : MdbEntry Mac Port Group Addr} (distinct : mdb.Distinct)
    (same : other.pslist = mdb.pslist) : other.Distinct := by
  refine ⟨by rw [same]; exact distinct.ports, ?_⟩
  unfold MdbEntry.macs
  rw [same]
  exact distinct.macs

theorem MdbEntry.Distinct.fslist (distinct : mdb.Distinct) (member : pg ∈ mdb.pslist) :
    (pg.fslist.map (·.mac)).Nodup :=
  (List.nodup_flatMap.mp distinct.macs).1 pg member

/-- Before a port group in the list there is none of its port. -/
theorem other_ports (ports : ((front ++ pg :: back).map (·.port)).Nodup) :
    ∀ other ∈ front, ¬ decide (other.port = pg.port) = true := by
  intro other member same
  rw [List.map_append, List.map_cons] at ports
  have apart := (List.nodup_append.mp ports).2.2
  exact apart other.port (List.mem_map_of_mem member) pg.port List.mem_cons_self
    (of_decide_eq_true same)

/-! ### One round of a walk -/

/-- What a visit leaves of a port group. -/
def Visit.left (visit : Visit Mac Addr) (pg : PortGroup Mac Port Addr) :
    List (PortGroup Mac Port Addr) :=
  if visit.unlinks then [] else [{ pg with fslist := pg.fslist.filter fun fg => !visit.dies fg }]

/-- The members that a visit destroys. -/
def Visit.victims (visit : Visit Mac Addr) (pg : PortGroup Mac Port Addr) : Nat :=
    (pg.fslist.filter visit.dies).length

theorem foldl_fdbGroupDestroy (victims : List (FdbGroup Mac Addr))
    (isList : account.1.pslist = front ++ pg :: back)
    (others : ∀ other ∈ front, ¬ decide (other.port = pg.port) = true) :
    victims.foldl (fun account fg => fdbGroupDestroy pg.port fg.mac account) account =
      ({ account.1 with
          pslist := front ++ { pg with
            fslist :=
              victims.foldl (fun l v => l.eraseP fun fg => decide (fg.mac = v.mac)) pg.fslist } ::
              back
          users := (countDown victims.length (account.1.users, account.2)).1 },
        (countDown victims.length (account.1.users, account.2)).2) := by
  induction victims generalizing account pg with
  | nil =>
    obtain ⟨mdb, active⟩ := account
    simp only at isList
    simp only [List.foldl_nil, List.length_nil, countDown, ← isList]
  | cons v victims ih =>
    have destroyed : (fdbGroupDestroy pg.port v.mac account).1.pslist =
        front ++ { pg with fslist := pg.fslist.eraseP fun fg => decide (fg.mac = v.mac) } ::
            back := by
      unfold fdbGroupDestroy
      dsimp only
      rw [isList, First.modify_append others (by simp)]
    rw [List.foldl_cons, ih destroyed others]
    rfl

theorem visitPort_eq (visit : Visit Mac Addr) (isList : account.1.pslist = front ++ pg :: back)
    (ports : ((front ++ pg :: back).map (·.port)).Nodup) (macs : (pg.fslist.map (·.mac)).Nodup) :
    visitPort visit account pg =
      ({ account.1 with
          pslist := front ++ visit.left pg ++ back
          users := (countDown (visit.victims pg) (account.1.users, account.2)).1 },
        (countDown (visit.victims pg) (account.1.users, account.2)).2) := by
  have others := other_ports ports
  unfold visitPort
  rw [foldl_fdbGroupDestroy _ isList others, First.foldl_eraseP_filter _ macs]
  unfold Visit.left Visit.victims
  cases visit.unlinks with
  | false => simp
  | true =>
    rw [if_pos rfl, if_pos rfl]
    unfold portGroupUnlink
    dsimp only
    rw [First.eraseP_append others (by simp), List.append_nil]

/-! ### A whole walk -/

theorem Visit.left_sublist (visit : Visit Mac Addr) (pg : PortGroup Mac Port Addr) :
    ((visit.left pg).map (·.port)).Sublist [pg.port] := by
  unfold Visit.left
  split
  · exact List.nil_sublist _
  · exact List.Sublist.refl _

/-- The rounds of a walk that are still to come. The induction is on the ports to visit. -/
theorem foldl_visitPort (visit : PortGroup Mac Port Addr → Visit Mac Addr)
    (isList : account.1.pslist = done ++ todo) (ports : ((done ++ todo).map (·.port)).Nodup)
    (macs : ∀ pg ∈ todo, (pg.fslist.map (·.mac)).Nodup) :
    todo.foldl (fun account pg => visitPort (visit pg) account pg) account =
      ({ account.1 with
          pslist := done ++ todo.flatMap fun pg => (visit pg).left pg
          users := (countDown (todo.map fun pg => (visit pg).victims pg).sum
            (account.1.users, account.2)).1 },
        (countDown (todo.map fun pg => (visit pg).victims pg).sum
            (account.1.users, account.2)).2) := by
  induction todo generalizing account done with
  | nil =>
    obtain ⟨mdb, active⟩ := account
    simp only [List.append_nil] at isList
    simp only [List.foldl_nil, List.flatMap_nil, List.map_nil, List.sum_nil, countDown,
      List.append_nil, ← isList]
  | cons pg todo ih =>
    have here := visitPort_eq (visit pg) isList ports (macs pg List.mem_cons_self)
    have ports' : ((done ++ (visit pg).left pg ++ todo).map (·.port)).Nodup := by
      refine ports.sublist ?_
      rw [List.append_assoc, List.map_append, List.map_append, List.map_append, List.map_cons]
      exact (List.Sublist.refl _).append (((visit pg).left_sublist pg).append (List.Sublist.refl _))
    rw [List.foldl_cons, here]
    rw [ih rfl ports' fun other member => macs other (List.mem_cons_of_mem _ member)]
    simp only [List.flatMap_cons, List.map_cons, List.sum_cons, countDown_add, List.append_assoc]

/-- **A walk** does at every port what its visit says. -/
theorem walkPorts_eq (visit : PortGroup Mac Port Addr → Visit Mac Addr)
    (distinct : account.1.Distinct) :
    walkPorts visit account =
      ({ account.1 with
          pslist := account.1.pslist.flatMap fun pg => (visit pg).left pg
          users := (countDown (account.1.pslist.map fun pg => (visit pg).victims pg).sum
            (account.1.users, account.2)).1 },
        (countDown (account.1.pslist.map fun pg => (visit pg).victims pg).sum
            (account.1.users, account.2)).2) :=
  @foldl_visitPort _ _ _ _ _ _ _ _ [] _ visit rfl distinct.ports fun _ member =>
    distinct.fslist member

theorem flatMap_left_macs (visit : PortGroup Mac Port Addr → Visit Mac Addr)
    (pslist : List (PortGroup Mac Port Addr)) :
    ((pslist.flatMap fun pg => (visit pg).left pg).flatMap fun pg => pg.fslist.map (·.mac)).Sublist
      (pslist.flatMap fun pg => pg.fslist.map (·.mac)) := by
  induction pslist with
  | nil => exact List.Sublist.refl _
  | cons pg pslist ih =>
    rw [List.flatMap_cons, List.flatMap_append, List.flatMap_cons]
    refine List.Sublist.append ?_ ih
    unfold Visit.left
    split
    · exact List.nil_sublist _
    · simp only [List.flatMap_cons, List.flatMap_nil, List.append_nil]
      exact List.filter_sublist.map _

theorem MdbEntry.Distinct.walkPorts (visit : PortGroup Mac Port Addr → Visit Mac Addr)
    (distinct : account.1.Distinct) :
    (walkPorts visit account).1.Distinct := by
  rw [walkPorts_eq visit distinct]
  refine ⟨?_, distinct.macs.sublist (flatMap_left_macs visit _)⟩
  have shorter : ∀ pslist : List (PortGroup Mac Port Addr),
      ((pslist.flatMap fun pg => (visit pg).left pg).map (·.port)).Sublist
          (pslist.map (·.port)) := by
    intro pslist
    induction pslist with
    | nil => exact List.Sublist.refl _
    | cons pg pslist ih =>
      rw [List.flatMap_cons, List.map_append, List.map_cons]
      exact ((visit pg).left_sublist pg).append ih
  exact distinct.ports.sublist (shorter _)

/-! ### Counting right -/

/-- The group is counted right: its members, and itself among the active groups, of which there are
`others` more. -/
structure Counted (others : Int) (account : Account Mac Port Group Addr) : Prop where
  users : account.1.users = account.1.members
  active : account.2 = others + isActive account.1.users

/-- The visit unlinks no port group with members left. -/
def Visit.Clears (visit : Visit Mac Addr) (pg : PortGroup Mac Port Addr) : Prop :=
  visit.unlinks = true → ∀ fg ∈ pg.fslist, visit.dies fg = true

theorem length_filter_add {α : Type} (test : α → Bool) (l : List α) :
    (l.filter test).length + (l.filter fun x => !test x).length = l.length := by
  induction l with
  | nil => rfl
  | cons x l ih => cases picked : test x <;> simp [picked] <;> omega

theorem Visit.Clears.members {visit : Visit Mac Addr} (clears : visit.Clears pg) :
    visit.victims pg + ((visit.left pg).map fun pg => pg.fslist.length).sum = pg.fslist.length := by
  have split := length_filter_add visit.dies pg.fslist
  unfold Visit.victims Visit.left
  cases unlinks : visit.unlinks with
  | false => simpa using split
  | true =>
    rw [List.filter_eq_self.mpr (clears unlinks)]
    simp

theorem members_walk {visit : PortGroup Mac Port Addr → Visit Mac Addr}
    (pslist : List (PortGroup Mac Port Addr)) (clears : ∀ pg ∈ pslist, (visit pg).Clears pg) :
    (pslist.map fun pg => (visit pg).victims pg).sum +
        ((pslist.flatMap fun pg => (visit pg).left pg).map fun pg => pg.fslist.length).sum =
      (pslist.map fun pg => pg.fslist.length).sum := by
  induction pslist with
  | nil => rfl
  | cons pg pslist ih =>
    have here := (clears pg List.mem_cons_self).members
    have rest := ih fun other member => clears other (List.mem_cons_of_mem _ member)
    simp only [List.map_cons, List.sum_cons, List.flatMap_cons, List.map_append, List.sum_append]
    omega

/-- **A walk counts right.** -/
theorem Counted.walkPorts {others : Int} {visit : PortGroup Mac Port Addr → Visit Mac Addr}
    (counted : Counted others account) (distinct : account.1.Distinct)
    (clears : ∀ pg ∈ account.1.pslist, (visit pg).Clears pg) :
        Counted others (walkPorts visit account) := by
  have total := members_walk account.1.pslist clears
  have users := counted.users
  unfold MdbEntry.members at users
  rw [walkPorts_eq visit distinct, counted.active, countDown_eq (by omega)]
  refine ⟨?_, rfl⟩
  unfold MdbEntry.members
  dsimp only
  omega

theorem destroy_clears (pg : PortGroup Mac Port Addr) :
    (Visit.destroy : Visit Mac Addr).Clears pg :=
  fun _ _ _ => rfl

theorem expiredVisit_clears (timerBase : Jiffies) (pg : PortGroup Mac Port Addr) :
    (expiredVisit timerBase pg).Clears pg := by
  intro unlinks
  cases unlinks

theorem cleanupVisit_clears (now expireTime : Jiffies) (pg : PortGroup Mac Port Addr) :
    (cleanupVisit now expireTime pg).Clears pg := by
  unfold cleanupVisit
  split
  · rename_i isNil
    exact fun _ fg member => absurd (isNil ▸ member) List.not_mem_nil
  · intro unlinks
    cases unlinks

theorem nbpVisit_clears (pg : PortGroup Mac Port Addr) : (nbpVisit pg).Clears pg := by
  unfold nbpVisit
  split
  · intro unlinks
    cases unlinks
  · exact destroy_clears pg

end Qsdk.Multicast
