/-
**One group is counted right.**

What each operation on the entry of a group keeps (`Keeps`): no port or MAC occurs twice, `users` is
the number of the members, `active_group_count` counts the group when it has users, and the limit on
active groups is kept.
-/

import Qsdk.Multicast.Walks
import Qsdk.Multicast.Snooping

set_option linter.unusedSectionVars false

namespace Qsdk.Multicast

variable {Mac Port Group Addr : Type} [DecidableEq Mac] [DecidableEq Port] [DecidableEq Group]
    [DecidableEq Addr]
  {mdb : MdbEntry Mac Port Group Addr} {account : Account Mac Port Group Addr} {port : Port}
  {mac : Mac} {group : Group}
  {front back : List (PortGroup Mac Port Addr)} {pg : PortGroup Mac Port Addr}
  {mc : Mc Mac Port Group Addr}
  {others : Int}

/-! ### One member -/

theorem find_port_split (ports : (mdb.pslist.map (·.port)).Nodup) (member : pg ∈ mdb.pslist) :
    ∃ front back, mdb.pslist = front ++ pg :: back ∧ ∀ other ∈ front,
        ¬ decide (other.port = pg.port) = true := by
  obtain ⟨front, back, isList⟩ := List.append_of_mem member
  exact ⟨front, back, isList, other_ports (isList ▸ ports)⟩

theorem fdbGroupDestroy_eq (isList : account.1.pslist = front ++ pg :: back)
    (before : ∀ other ∈ front, ¬ decide (other.port = pg.port) = true) (mac : Mac) :
    (fdbGroupDestroy pg.port mac account).1.pslist =
      front ++ { pg with fslist := pg.fslist.eraseP fun fg => decide (fg.mac = mac) } :: back := by
  unfold fdbGroupDestroy
  dsimp only
  rw [isList, First.modify_append before (by simp)]

theorem map_mac_eraseP (fslist : List (FdbGroup Mac Addr)) :
    (fslist.eraseP fun fg => decide (fg.mac = mac)).map (·.mac) =
        (fslist.map (·.mac)).erase mac := by
  induction fslist with
  | nil => rfl
  | cons fg fslist ih =>
    by_cases same : fg.mac = mac
    · rw [List.eraseP_cons_of_pos (by simp [same]), List.map_cons, same, List.erase_cons_head]
    · rw [List.eraseP_cons_of_neg (by simp [same]), List.map_cons, List.map_cons, ih,
        List.erase_cons_tail (by simp [same])]

theorem macs_append (isList : mdb.pslist = front ++ pg :: back) :
    mdb.macs = (front.flatMap fun pg => pg.fslist.map (·.mac)) ++
      (pg.fslist.map (·.mac) ++ back.flatMap fun pg => pg.fslist.map (·.mac)) := by
  unfold MdbEntry.macs
  rw [isList, List.flatMap_append, List.flatMap_cons]

theorem members_append (isList : mdb.pslist = front ++ pg :: back) :
    mdb.members = (front.map fun pg => pg.fslist.length).sum +
      (pg.fslist.length + (back.map fun pg => pg.fslist.length).sum) := by
  unfold MdbEntry.members
  rw [isList, List.map_append, List.map_cons, List.sum_append, List.sum_cons]

/-- A port group in place of another of the same port. -/
theorem MdbEntry.Distinct.replaced {other : MdbEntry Mac Port Group Addr}
    {pg' : PortGroup Mac Port Addr} (distinct : mdb.Distinct)
    (isList : mdb.pslist = front ++ pg :: back) (isOther : other.pslist = front ++ pg' :: back)
    (samePort : pg'.port = pg.port)
    (fewer : (pg'.fslist.map (·.mac)).Sublist (pg.fslist.map (·.mac))) :
    other.Distinct := by
  refine ⟨?_, ?_⟩
  · have ports := distinct.ports
    rw [isList, List.map_append, List.map_cons] at ports
    rw [isOther, List.map_append, List.map_cons, samePort]
    exact ports
  · have macs := distinct.macs
    rw [macs_append isList] at macs
    rw [macs_append isOther]
    exact macs.sublist ((List.Sublist.refl _).append (fewer.append (List.Sublist.refl _)))

theorem MdbEntry.Distinct.fdbGroupDestroy (distinct : account.1.Distinct) (port : Port)
    (mac : Mac) :
    (fdbGroupDestroy port mac account).1.Distinct := by
  by_cases listed : ∃ pg ∈ account.1.pslist, pg.port = port
  · obtain ⟨pg, member, rfl⟩ := listed
    obtain ⟨front, back, isList, before⟩ := find_port_split distinct.ports member
    refine distinct.replaced isList (fdbGroupDestroy_eq isList before mac) rfl ?_
    exact List.eraseP_sublist.map _
  · refine distinct.of_pslist (First.modify_of_none fun pg member same => listed ⟨pg, member, ?_⟩)
    exact of_decide_eq_true same

/-- **A member that is there is counted down.** -/
theorem Counted.fdbGroupDestroy (counted : Counted others account)
    (isList : account.1.pslist = front ++ pg :: back)
        (before : ∀ other ∈ front, ¬ decide (other.port = pg.port) = true)
        (member : mac ∈ pg.fslist.map (·.mac)) :
    Counted others (fdbGroupDestroy pg.port mac account) := by
  obtain ⟨fg, listed, isMac⟩ := List.mem_map.mp member
  have shorter : (pg.fslist.eraseP fun fg => decide (fg.mac = mac)).length = pg.fslist.length - 1 :=
    List.length_eraseP_of_mem listed (by simp [isMac])
  have positive : 0 < pg.fslist.length := List.length_pos_of_mem listed
  have users := counted.users
  rw [members_append isList] at users
  have down := @countDown_eq 1 account.1.users (by omega) others
  rw [← counted.active] at down
  have isUsers : (Qsdk.Multicast.fdbGroupDestroy pg.port mac account).1.users =
    account.1.users - 1 := rfl
  refine ⟨?_, ?_⟩
  · rw [isUsers, members_append (fdbGroupDestroy_eq isList before mac)]
    dsimp only
    omega
  · rw [isUsers]
    exact congrArg Prod.snd down

/-! ### Reports -/

/-- A member of a group. -/
theorem mem_macs : mac ∈ mdb.macs ↔ ∃ pg ∈ mdb.pslist, mac ∈ pg.fslist.map (·.mac) :=
    List.mem_flatMap

theorem any_mac {fslist : List (FdbGroup Mac Addr)} :
    (fslist.any fun fg => decide (fg.mac = mac)) = true ↔ mac ∈ fslist.map (·.mac) := by
  simp [List.mem_map]

theorem refresh_eq (isList : account.1.pslist = front ++ pg :: back)
    (before : ∀ other ∈ front, ¬ decide (other.port = pg.port) = true)
    (change : PortGroup Mac Port Addr → PortGroup Mac Port Addr) :
    First.modify (fun other => decide (other.port = pg.port)) change account.1.pslist = front ++
        change pg :: back := by
  rw [isList, First.modify_append before (by simp)]

/-- A group whose members and users do not change is counted as before. -/
theorem Counted.of_same {other : Account Mac Port Group Addr} (counted : Counted others account)
    (users : other.1.users = account.1.users) (members : other.1.members = account.1.members)
    (active : other.2 = account.2) : Counted others other :=
  ⟨by rw [users, members, counted.users], by rw [active, users, counted.active]⟩

/-- What `mc_update_hybrid_fdb_group` and the refreshing of a member keep: the MACs of every
port. -/
def SamePlaces (first second : MdbEntry Mac Port Group Addr) : Prop :=
  first.pslist.map (fun pg => (pg.port, pg.fslist.map (·.mac))) =
    second.pslist.map (fun pg => (pg.port, pg.fslist.map (·.mac)))

theorem SamePlaces.ports {first second : MdbEntry Mac Port Group Addr}
    (same : SamePlaces first second) :
    first.pslist.map (·.port) = second.pslist.map (·.port) := by
  have ports := congrArg (List.map Prod.fst) same
  simpa [List.map_map, Function.comp_def] using ports

theorem SamePlaces.macs {first second : MdbEntry Mac Port Group Addr}
    (same : SamePlaces first second) :
    first.macs = second.macs := by
  have macs := congrArg (List.flatMap Prod.snd) same
  simpa [List.flatMap_map, MdbEntry.macs] using macs

theorem SamePlaces.members {first second : MdbEntry Mac Port Group Addr}
    (same : SamePlaces first second) :
    first.members = second.members := by
  have members := congrArg (fun places => (places.map fun place => place.2.length).sum) same
  simpa [List.map_map, Function.comp_def, MdbEntry.members] using members

theorem SamePlaces.distinct {first second : MdbEntry Mac Port Group Addr}
    (same : SamePlaces first second) (distinct : second.Distinct) : first.Distinct :=
  ⟨by rw [same.ports]; exact distinct.ports, by rw [same.macs]; exact distinct.macs⟩

/-- A change of a port group that leaves its port and its MACs alone. -/
theorem samePlaces_modify {test : PortGroup Mac Port Addr → Bool}
    {change : PortGroup Mac Port Addr → PortGroup Mac Port Addr}
    {other : MdbEntry Mac Port Group Addr}
    (isOther : other.pslist = First.modify test change mdb.pslist)
        (keeps : ∀ pg, ((change pg).port, (change pg).fslist.map (·.mac)) =
          (pg.port, pg.fslist.map (·.mac))) :
    SamePlaces other mdb := by
  unfold SamePlaces
  rw [isOther]
  exact First.map_modify keeps

/-- What an operation on a group entry is to keep. -/
structure Keeps (maxGroupCnt : Int) (before after : Account Mac Port Group Addr) : Prop where
  group : after.1.group = before.1.group
  distinct : after.1.Distinct
  counted : ∀ others, Counted others before → Counted others after
  limit : before.2 ≤ maxGroupCnt → after.2 ≤ maxGroupCnt

theorem Keeps.refl {maxGroupCnt : Int} (distinct : account.1.Distinct) :
    Keeps maxGroupCnt account account :=
  ⟨rfl, distinct, fun _ => id, id⟩

theorem Keeps.trans {maxGroupCnt : Int} {first second third : Account Mac Port Group Addr}
    (one : Keeps maxGroupCnt first second) (two : Keeps maxGroupCnt second third) :
        Keeps maxGroupCnt first third :=
  ⟨two.group.trans one.group, two.distinct, fun others counted =>
    two.counted others (one.counted others counted),
    fun limit => two.limit (one.limit limit)⟩

theorem Keeps.of_samePlaces {maxGroupCnt : Int} {other : Account Mac Port Group Addr}
    (distinct : account.1.Distinct) (group : other.1.group = account.1.group)
    (same : SamePlaces other.1 account.1) (users : other.1.users = account.1.users)
    (active : other.2 = account.2) : Keeps maxGroupCnt account other :=
  ⟨group, same.distinct distinct, fun _ counted => counted.of_same users same.members active,
    fun limit => active ▸ limit⟩

theorem fdbGroupDestroy_limit (port : Port) (mac : Mac) (account : Account Mac Port Group Addr) :
    (fdbGroupDestroy port mac account).2 ≤ account.2 := by
  unfold fdbGroupDestroy
  dsimp only
  split <;> omega

theorem Keeps.fdbGroupDestroy (maxGroupCnt : Int) (distinct : account.1.Distinct)
    (member : pg ∈ account.1.pslist) (isMac : mac ∈ pg.fslist.map (·.mac)) :
        Keeps maxGroupCnt account (fdbGroupDestroy pg.port mac account) := by
  obtain ⟨front, back, isList, before⟩ := find_port_split distinct.ports member
  exact ⟨rfl, distinct.fdbGroupDestroy _ _, fun _ counted =>
    counted.fdbGroupDestroy isList before isMac,
    fun limit => Int.le_trans (fdbGroupDestroy_limit _ _ _) limit⟩

/-- The member that is destroyed is gone. -/
theorem not_mem_macs_destroyed (distinct : account.1.Distinct) (member : pg ∈ account.1.pslist)
    (isMac : mac ∈ pg.fslist.map (·.mac)) : mac ∉ (fdbGroupDestroy pg.port mac account).1.macs := by
  obtain ⟨front, back, isList, before⟩ := find_port_split distinct.ports member
  have macs := distinct.macs
  rw [macs_append isList, List.nodup_append, List.nodup_append] at macs
  obtain ⟨_, ⟨own, _, apart⟩, fromFront⟩ := macs
  rw [macs_append (fdbGroupDestroy_eq isList before mac), List.mem_append, List.mem_append]
  rintro (inFront | here | inBack)
  · exact fromFront mac inFront mac (List.mem_append_left _ isMac) rfl
  · rw [map_mac_eraseP] at here
    exact own.not_mem_erase here
  · exact apart mac isMac mac inBack rfl

theorem hybridFdbGroup_keeps (maxGroupCnt : Int) (mac : Mac) (now : Jiffies) (port : Port)
    (distinct : account.1.Distinct) :
    Keeps maxGroupCnt account (Mc.hybridFdbGroup mac now port account).1 ∧
      ((Mc.hybridFdbGroup mac now port account).2 = false →
          mac ∉ (Mc.hybridFdbGroup mac now port account).1.1.macs) := by
  unfold Mc.hybridFdbGroup
  split
  · rename_i notFound
    refine ⟨.refl distinct, fun _ member => ?_⟩
    obtain ⟨pg, listed, isMac⟩ := mem_macs.mp member
    exact List.find?_eq_none.mp notFound pg listed (any_mac.mpr isMac)
  · rename_i pg found
    have listed := List.mem_of_find?_eq_some found
    have matched := (First.split_of_find found).1
    have isMac : mac ∈ pg.fslist.map (·.mac) := any_mac.mp matched
    split
    · exact ⟨.fdbGroupDestroy maxGroupCnt distinct listed isMac, fun _ =>
        not_mem_macs_destroyed distinct listed isMac⟩
    · refine ⟨.of_samePlaces distinct rfl (samePlaces_modify rfl fun pg => ?_) rfl rfl,
        fun wrong => by cases wrong⟩
      exact congrArg (Prod.mk pg.port) (First.map_modify fun _ => rfl)

theorem fdbGroupCreate_keeps {maxGroupCnt : Int} (now : Jiffies) (distinct : account.1.Distinct)
    (absent : mac ∉ account.1.macs) (member : pg ∈ account.1.pslist)
    (room : ¬ (account.1.users = 0 ∧ account.2 ≥ maxGroupCnt)) :
    Keeps maxGroupCnt account (Mc.fdbGroupCreate mac pg.port now account) := by
  obtain ⟨front, back, isList, before⟩ := find_port_split distinct.ports member
  have isAfter : (Mc.fdbGroupCreate mac pg.port now account).1.pslist =
      front ++ { pg with ageingTimer := now, fslist := ⟨mac, now, ⟨none, []⟩, false⟩ ::
          pg.fslist } :: back :=
    refresh_eq isList before _
  refine ⟨rfl, ⟨?_, ?_⟩, ?_, ?_⟩
  · have ports := distinct.ports
    rw [isList, List.map_append, List.map_cons] at ports
    rw [isAfter, List.map_append, List.map_cons]
    exact ports
  · have macs := distinct.macs
    rw [macs_append isList] at macs absent
    rw [macs_append isAfter, List.map_cons, List.cons_append]
    exact (List.perm_middle.nodup_iff).mpr (List.nodup_cons.mpr ⟨absent, macs⟩)
  · intro others counted
    have users := counted.users
    have active := counted.active
    rw [members_append isList] at users
    refine ⟨?_, ?_⟩
    · rw [members_append isAfter]
      show account.1.users + 1 = _
      rw [List.length_cons]
      omega
    · show (if account.1.users + 1 = 1 then account.2 + 1 else account.2) =
        others + isActive (account.1.users + 1)
      unfold isActive at active ⊢
      split <;> split at active <;> split <;> omega
  · intro limit
    show (if account.1.users + 1 = 1 then account.2 + 1 else account.2) ≤ maxGroupCnt
    split <;> omega

theorem portGroupCreate_keeps {maxGroupCnt : Int} (now : Jiffies) (distinct : account.1.Distinct)
    (isNew : ∀ pg ∈ account.1.pslist, pg.port ≠ port) :
    Keeps maxGroupCnt account (Mc.portGroupCreate port now account) ∧
      (Mc.portGroupCreate port now account).1.macs = account.1.macs := by
  have macs : (Mc.portGroupCreate port now account).1.macs = account.1.macs := rfl
  refine ⟨⟨rfl, ⟨?_, macs ▸ distinct.macs⟩, fun others counted => counted.of_same rfl ?_ rfl, id⟩,
    macs⟩
  · refine List.nodup_cons.mpr ⟨fun listed => ?_, distinct.ports⟩
    obtain ⟨pg, member, same⟩ := List.mem_map.mp listed
    exact isNew pg member same
  · show ((⟨port, now, []⟩ :: account.1.pslist).map fun pg => pg.fslist.length).sum =
      account.1.members
    rw [List.map_cons, List.sum_cons, List.length_nil, Nat.zero_add]
    rfl

theorem updatePort_keeps (maxGroupCnt : Int) (memory : Mc.Memory) (port : Port) (now : Jiffies)
    (distinct : account.1.Distinct) (absent : mac ∉ account.1.macs) :
    Keeps maxGroupCnt account (Mc.updatePort maxGroupCnt memory mac port now account).1 := by
  unfold Mc.updatePort
  split
  · rename_i pg found
    have listed := List.mem_of_find?_eq_some found
    have matched := (First.split_of_find found).1
    have isPort : pg.port = port := of_decide_eq_true matched
    split
    · rename_i present
      exact absurd (mem_macs.mpr ⟨pg, listed, any_mac.mp present⟩) absent
    · split
      · exact .refl distinct
      · rename_i room
        split
        · exact isPort ▸ fdbGroupCreate_keeps now distinct absent listed room
        · exact .refl distinct
  · rename_i notFound
    have isNew : ∀ pg ∈ account.1.pslist, pg.port ≠ port := fun pg member => by
      simpa using List.find?_eq_none.mp notFound pg member
    obtain ⟨created, macs⟩ := portGroupCreate_keeps now distinct isNew
    split
    · dsimp only
      split
      · exact created
      · rename_i room
        split
        · exact created.trans
            (fdbGroupCreate_keeps now created.distinct (macs ▸ absent) List.mem_cons_self room)
        · exact created
    · exact .refl distinct

theorem updateGroup_keeps (maxGroupCnt : Int) (memory : Mc.Memory) (mac : Mac) (port : Port)
    (now : Jiffies) (distinct : account.1.Distinct) :
    Keeps maxGroupCnt account (Mc.updateGroup maxGroupCnt memory mac port now account).1 := by
  obtain ⟨keeps, absent⟩ := hybridFdbGroup_keeps maxGroupCnt mac now port distinct
  unfold Mc.updateGroup
  split
  · rename_i after isAfter
    rw [isAfter] at keeps
    exact keeps
  · rename_i after isAfter
    rw [isAfter] at keeps absent
    exact keeps.trans (updatePort_keeps maxGroupCnt memory port now keeps.distinct (absent rfl))

/-! ### Walks -/

theorem countDown_le (n : Nat) (counts : Int × Int) : (countDown n counts).2 ≤ counts.2 := by
  induction n generalizing counts with
  | zero => exact Int.le_refl _
  | succ n ih =>
    refine Int.le_trans (ih _) ?_
    dsimp only
    split <;> omega

theorem walkPorts_keeps (maxGroupCnt : Int) {visit : PortGroup Mac Port Addr → Visit Mac Addr}
    (distinct : account.1.Distinct) (clears : ∀ pg, (visit pg).Clears pg) :
    Keeps maxGroupCnt account (walkPorts visit account) := by
  refine ⟨?_, distinct.walkPorts visit, fun others counted => counted.walkPorts distinct fun pg _ =>
    clears pg, ?_⟩
  · rw [walkPorts_eq visit distinct]
  · intro limit
    rw [walkPorts_eq visit distinct]
    exact Int.le_trans (countDown_le _ _) limit

end Qsdk.Multicast
