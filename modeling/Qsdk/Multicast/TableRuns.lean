/-
**Operations on the table.**

The invariants of a single group carry over to the table: no group occurs twice (`Mc.Distinct`), and
every group is counted right (`Mc.Counted`). What each operation keeps of them is `KeepsTable`.
-/

import Qsdk.Multicast.Counts
import Mathlib.Algebra.Ring.Int.Defs

set_option linter.unusedSectionVars false

namespace Qsdk.Multicast

variable {Mac Port Group Addr : Type} [DecidableEq Mac] [DecidableEq Port] [DecidableEq Group]
    [DecidableEq Addr]
  {mdb : MdbEntry Mac Port Group Addr} {account : Account Mac Port Group Addr} {port : Port}
  {mac : Mac} {group : Group}
  {mc after : Mc Mac Port Group Addr} {snoop next : Snoop Mac Port Group Addr} {maxGroupCnt : Int}

/-! ### Groups of the table -/

/-- No group occurs twice, and no port or MAC in a group. -/
structure Mc.Distinct (mc : Mc Mac Port Group Addr) : Prop where
  groups : (mc.hash.map (·.group)).Nodup
  entries : ∀ mdb ∈ mc.hash, mdb.Distinct

/-- The active groups of a list of entries. -/
def activeGroups (hash : List (MdbEntry Mac Port Group Addr)) : Int :=
    (hash.map fun mdb => isActive mdb.users).sum

/-- Every group's users are its members, and the active groups are counted. -/
structure Mc.Counted (mc : Mc Mac Port Group Addr) : Prop where
  users : ∀ mdb ∈ mc.hash, mdb.users = mdb.members
  active : mc.activeGroupCount = activeGroups mc.hash

/-- The entry of a group that is found, and the table around it. -/
theorem Mc.find_split (found : mc.find group = some mdb) :
    mdb.group = group ∧ mdb ∈ mc.hash ∧ ∃ front back, mc.hash = front ++ mdb :: back ∧
      ∀ other ∈ front, ¬ decide (other.group = group) = true := by
  obtain ⟨matched, front, back, isHash, before⟩ := First.split_of_find found
  exact ⟨of_decide_eq_true matched, isHash ▸ List.mem_append_right _ List.mem_cons_self, front,
    back, isHash, before⟩

/-- What an operation on the entry of a group leads to. -/
theorem Mc.onGroup_eq (found : mc.find group = some mdb)
    {front back : List (MdbEntry Mac Port Group Addr)} (isHash : mc.hash = front ++ mdb :: back)
    (before : ∀ other ∈ front, ¬ decide (other.group = group) = true)
    (op : Account Mac Port Group Addr → Account Mac Port Group Addr) :
    mc.onGroup group op = { mc with
      hash := front ++ (op (mdb, mc.activeGroupCount)).1 :: back
      activeGroupCount := (op (mdb, mc.activeGroupCount)).2 } := by
  have isGroup : decide (mdb.group = group) = true := decide_eq_true (Mc.find_split found).1
  unfold Mc.onGroup
  rw [found]
  dsimp only
  rw [isHash, First.modify_append before isGroup]

theorem Mc.onGroup_none (notFound : mc.find group = none)
    (op : Account Mac Port Group Addr → Account Mac Port Group Addr) :
        mc.onGroup group op = mc := by
  unfold Mc.onGroup
  rw [notFound]

/-- What an operation on the table is to keep. -/
structure KeepsTable (before after : Mc Mac Port Group Addr) : Prop where
  distinct : after.Distinct
  counted : before.Counted → after.Counted
  limit : before.activeGroupCount ≤ before.maxGroupCnt → after.activeGroupCount ≤ before.maxGroupCnt
  maxGroupCnt : after.maxGroupCnt = before.maxGroupCnt

theorem KeepsTable.refl (distinct : mc.Distinct) : KeepsTable mc mc := ⟨distinct, id, id, rfl⟩

theorem KeepsTable.trans {third : Mc Mac Port Group Addr} (one : KeepsTable mc after)
    (two : KeepsTable after third) :
    KeepsTable mc third :=
  ⟨two.distinct, fun counted => two.counted (one.counted counted), fun limit =>
    one.maxGroupCnt ▸ two.limit (one.maxGroupCnt.symm ▸ one.limit limit),
      two.maxGroupCnt.trans one.maxGroupCnt⟩

theorem activeGroups_append (front back : List (MdbEntry Mac Port Group Addr))
    (mdb : MdbEntry Mac Port Group Addr) :
    activeGroups (front ++ mdb :: back) = activeGroups front + activeGroups back +
        isActive mdb.users := by
  unfold activeGroups
  rw [List.map_append, List.map_cons, List.sum_append, List.sum_cons]
  omega

/-- An operation that leaves the group what it is. -/
theorem Mc.Distinct.onGroup_distinct (distinct : mc.Distinct)
    {op : Account Mac Port Group Addr → Account Mac Port Group Addr}
    (keeps : ∀ mdb, mc.find group = some mdb → mdb.Distinct →
      (op (mdb, mc.activeGroupCount)).1.group = mdb.group ∧
          (op (mdb, mc.activeGroupCount)).1.Distinct) :
    (mc.onGroup group op).Distinct := by
  cases found : mc.find group with
  | none =>
    rw [Mc.onGroup_none found]
    exact distinct
  | some mdb =>
    obtain ⟨_, member, front, back, isHash, before⟩ := Mc.find_split found
    have kept := keeps mdb found (distinct.entries mdb member)
    rw [Mc.onGroup_eq found isHash before]
    refine ⟨?_, ?_⟩
    · have groups := distinct.groups
      rw [isHash, List.map_append, List.map_cons] at groups
      rw [List.map_append, List.map_cons, kept.1]
      exact groups
    · intro other listed
      rcases List.mem_append.mp listed with inFront | listed
      · exact distinct.entries other (isHash ▸ List.mem_append_left _ inFront)
      · rcases List.mem_cons.mp listed with rfl | inBack
        · exact kept.2
        · exact distinct.entries other
            (isHash ▸ List.mem_append_right _ (List.mem_cons_of_mem _ inBack))

/-- **An operation that keeps a group's invariant keeps the table's.** -/
theorem Mc.Distinct.onGroup (distinct : mc.Distinct)
    (op : Account Mac Port Group Addr → Account Mac Port Group Addr)
    (keeps : ∀ mdb, mc.find group = some mdb → mdb.Distinct →
      Keeps mc.maxGroupCnt (mdb, mc.activeGroupCount) (op (mdb, mc.activeGroupCount))) :
    KeepsTable mc (mc.onGroup group op) := by
  have stillDistinct : (mc.onGroup group op).Distinct :=
      distinct.onGroup_distinct fun mdb found distinct =>
    ⟨(keeps mdb found distinct).group, (keeps mdb found distinct).distinct⟩
  cases found : mc.find group with
  | none =>
    rw [Mc.onGroup_none found]
    exact .refl distinct
  | some mdb =>
    obtain ⟨_, member, front, back, isHash, before⟩ := Mc.find_split found
    have kept := keeps mdb found (distinct.entries mdb member)
    rw [Mc.onGroup_eq found isHash before] at stillDistinct ⊢
    generalize op (mdb, mc.activeGroupCount) = changed at kept stillDistinct
    refine ⟨stillDistinct, ?_, kept.limit, rfl⟩
    · intro counted
      have active := counted.active
      rw [isHash, activeGroups_append] at active
      have here := kept.counted (activeGroups front + activeGroups back)
        ⟨counted.users mdb member, active⟩
      refine ⟨fun other listed => ?_, ?_⟩
      · rcases List.mem_append.mp listed with inFront | listed
        · exact counted.users other (isHash ▸ List.mem_append_left _ inFront)
        · rcases List.mem_cons.mp listed with rfl | inBack
          · exact here.users
          · exact counted.users other
              (isHash ▸ List.mem_append_right _ (List.mem_cons_of_mem _ inBack))
      · rw [activeGroups_append]
        exact here.active

theorem Mc.Distinct.mdbUnlink_distinct (distinct : mc.Distinct) (group : Group) :
    (mc.mdbUnlink group).Distinct := by
  have fewer : (mc.hash.eraseP fun mdb => decide (mdb.group = group)).Sublist mc.hash :=
    List.eraseP_sublist
  exact ⟨distinct.groups.sublist (fewer.map _), fun mdb member =>
    distinct.entries mdb (fewer.subset member)⟩

/-- A group without members is unlinked. -/
theorem Mc.Distinct.mdbUnlink (distinct : mc.Distinct)
    (empty : ∀ mdb, mc.find group = some mdb → mdb.pslist = []) :
        KeepsTable mc (mc.mdbUnlink group) := by
  have fewer : (mc.hash.eraseP fun mdb => decide (mdb.group = group)).Sublist mc.hash :=
    List.eraseP_sublist
  refine ⟨distinct.mdbUnlink_distinct group, ?_, id, rfl⟩
  intro counted
  refine ⟨fun mdb member => counted.users mdb (fewer.subset member), ?_⟩
  cases found : mc.find group with
  | none =>
    have none := List.find?_eq_none.mp found
    have same : (mc.hash.eraseP fun mdb => decide (mdb.group = group)) = mc.hash :=
      List.eraseP_of_forall_not none
    exact counted.active.trans (congrArg activeGroups same.symm)
  | some mdb =>
    obtain ⟨isGroup, member, front, back, isHash, before⟩ := Mc.find_split found
    have active := counted.active
    have users := counted.users mdb member
    rw [MdbEntry.members, empty mdb found] at users
    have inactive : isActive mdb.users = 0 := by
      rw [users]
      rfl
    rw [isHash, activeGroups_append, inactive] at active
    show mc.activeGroupCount = activeGroups (mc.hash.eraseP _)
    rw [isHash, First.eraseP_append before (decide_eq_true isGroup), active]
    unfold activeGroups
    rw [List.map_append, List.sum_append]
    omega

theorem Mc.Distinct.walk (distinct : mc.Distinct)
    {visit : MdbEntry Mac Port Group Addr → PortGroup Mac Port Addr → Visit Mac Addr}
    (clears : ∀ mdb pg, (visit mdb pg).Clears pg) :
    KeepsTable mc (mc.onGroup group fun account => walkPorts (visit account.1) account) :=
  distinct.onGroup _ fun mdb _ distinct => walkPorts_keeps _ distinct (clears mdb)

/-- A group whose members have all been destroyed with their ports. -/
theorem Mc.find_destroyed (distinct : mc.Distinct)
    (found : (mc.onGroup group (walkPorts fun _ => Visit.destroy)).find group = some mdb) :
        mdb.pslist = [] := by
  cases old : mc.find group with
  | none =>
    rw [Mc.onGroup_none old, old] at found
    cases found
  | some before =>
    obtain ⟨isGroup, member, front, back, isHash, apart⟩ := Mc.find_split old
    have walked := @walkPorts_eq _ _ _ _ _ _ _ (before, mc.activeGroupCount)
      (fun _ => Visit.destroy) (distinct.entries before member)
    rw [Mc.onGroup_eq old isHash apart, walked] at found
    unfold Mc.find at found
    rw [First.find_append apart (by simpa using isGroup)] at found
    obtain rfl := Option.some.inj found
    simp [Visit.left, Visit.destroy]

theorem Mc.Distinct.mdbDestroy (distinct : mc.Distinct) (group : Group) :
    KeepsTable mc (mc.mdbDestroy group) := by
  have walked := @Mc.Distinct.walk _ _ _ _ _ _ _ _ group _ distinct
    (fun _ _ => Visit.destroy) fun _ pg => destroy_clears pg
  exact walked.trans (walked.distinct.mdbUnlink fun mdb found => Mc.find_destroyed distinct found)

/-- Operations on one group after the other. -/
theorem Mc.Distinct.foldl (distinct : mc.Distinct)
    {op : Mc Mac Port Group Addr → MdbEntry Mac Port Group Addr → Mc Mac Port Group Addr}
    (keeps : ∀ {mc : Mc Mac Port Group Addr}, mc.Distinct → ∀ mdb, KeepsTable mc (op mc mdb))
    (hash : List (MdbEntry Mac Port Group Addr)) : KeepsTable mc (hash.foldl op mc) := by
  induction hash generalizing mc with
  | nil => exact .refl distinct
  | cons mdb hash ih =>
    have here := keeps distinct mdb
    exact here.trans (ih here.distinct)

theorem Mc.Distinct.mdbCleanup (distinct : mc.Distinct) (timeoutGmiEnable : Bool) (now : Jiffies)
    (expireTime : Group → Jiffies) :
        KeepsTable mc (mc.mdbCleanup timeoutGmiEnable now expireTime) := by
  unfold Mc.mdbCleanup
  split
  · refine distinct.foldl (fun distinct mdb => ?_) _
    unfold Mc.cleanupGroup
    split
    · exact distinct.mdbDestroy _
    · exact distinct.walk fun _ pg => cleanupVisit_clears now _ pg
  · exact .refl distinct

theorem Mc.Distinct.nbpChange (distinct : mc.Distinct) (port : Port) :
    KeepsTable mc (mc.nbpChange port) := by
  have queriers : KeepsTable mc { mc with
      igmpRlist := mc.igmpRlist.filter fun qe => decide (qe.port ≠ port)
      mldRlist := mc.mldRlist.filter fun qe => decide (qe.port ≠ port) } :=
    ⟨⟨distinct.groups, distinct.entries⟩, fun counted => ⟨counted.users, counted.active⟩, id, rfl⟩
  exact queriers.trans
    (queriers.distinct.foldl (fun distinct mdb => distinct.walk fun _ pg => nbpVisit_clears pg) _)

theorem mdbNew_distinct (group : Group) :
    (Mc.mdbNew group : MdbEntry Mac Port Group Addr).Distinct :=
  ⟨List.nodup_nil, List.nodup_nil⟩

/-- A new group without members. -/
theorem Mc.Distinct.mdbCreate (distinct : mc.Distinct) (isNew : mc.find group = none) :
    KeepsTable mc { mc with hash := Mc.mdbNew group :: mc.hash } := by
  refine ⟨⟨List.nodup_cons.mpr ⟨fun listed => ?_, distinct.groups⟩, fun mdb member => ?_⟩,
    fun counted => ⟨fun mdb member => ?_, ?_⟩,
    id, rfl⟩
  · obtain ⟨mdb, member, same⟩ := List.mem_map.mp listed
    exact List.find?_eq_none.mp isNew mdb member (decide_eq_true same)
  · rcases List.mem_cons.mp member with rfl | member
    · exact mdbNew_distinct group
    · exact distinct.entries mdb member
  · rcases List.mem_cons.mp member with rfl | member
    · rfl
    · exact counted.users mdb member
  · exact counted.active.trans (Int.zero_add _).symm

theorem Mc.Distinct.updateMdb (distinct : mc.Distinct) (memory : Mc.Memory) (group : Group)
    (mac : Mac) (port : Port) (now : Jiffies) :
        KeepsTable mc (mc.updateMdb memory group mac port now).1 := by
  unfold Mc.updateMdb
  split
  · dsimp only
    exact distinct.onGroup _ fun mdb _ distinct => updateGroup_keeps _ memory mac port now distinct
  · rename_i isNew
    split
    · have created := distinct.mdbCreate isNew
      have found : ({ mc with hash := Mc.mdbNew group :: mc.hash } :
        Mc Mac Port Group Addr).find group =
          some (Mc.mdbNew group) := List.find?_cons_of_pos (by simp [Mc.mdbNew])
      dsimp only
      refine created.trans (created.distinct.onGroup _ ?_)
      intro mdb found' distinct
      obtain rfl := Option.some.inj (found.symm.trans found')
      exact updatePort_keeps _ memory port now distinct List.not_mem_nil
    · exact .refl distinct

/-! ### Steps that leave the members alone -/

/-- The group, its users, its ports and the MACs on each. -/
def MdbEntry.skeleton (mdb : MdbEntry Mac Port Group Addr) : Group × Int × List (Port × List Mac) :=
  (mdb.group, mdb.users, mdb.pslist.map fun pg => (pg.port, pg.fslist.map (·.mac)))

/-- The two tables have the same groups with the same members, and the same counts. -/
def SameTable (first second : Mc Mac Port Group Addr) : Prop :=
  first.activeGroupCount = second.activeGroupCount ∧
    first.hash.map MdbEntry.skeleton = second.hash.map MdbEntry.skeleton

theorem SameTable.refl (mc : Mc Mac Port Group Addr) : SameTable mc mc := ⟨rfl, rfl⟩

theorem SameTable.entry (same : SameTable after mc) (member : mdb ∈ after.hash) :
    ∃ old ∈ mc.hash, old.group = mdb.group ∧ old.users = mdb.users ∧ SamePlaces mdb old := by
  have listed := List.mem_map_of_mem (f := MdbEntry.skeleton) member
  rw [same.2] at listed
  obtain ⟨old, isOld, skeleton⟩ := List.mem_map.mp listed
  have users := congrArg Prod.snd skeleton
  exact ⟨old, isOld, congrArg Prod.fst skeleton, congrArg Prod.fst users,
    (congrArg Prod.snd users).symm⟩

theorem SameTable.distinct (same : SameTable after mc) (distinct : mc.Distinct) :
    after.Distinct := by
  refine ⟨?_, fun mdb member => ?_⟩
  · have groups := congrArg (List.map Prod.fst) same.2
    rw [List.map_map, List.map_map] at groups
    have old := distinct.groups
    have unfolded : after.hash.map (·.group) = mc.hash.map (·.group) := groups
    rw [unfolded]
    exact old
  · obtain ⟨old, isOld, _, _, places⟩ := same.entry member
    exact places.distinct (distinct.entries old isOld)

theorem SameTable.counted (same : SameTable after mc) (counted : mc.Counted) : after.Counted := by
  refine ⟨fun mdb member => ?_, ?_⟩
  · obtain ⟨old, isOld, _, users, places⟩ := same.entry member
    rw [← users, counted.users old isOld, places.members]
  · have users :=
      congrArg (List.map fun skeleton : Group × Int × List (Port × List Mac) =>
        isActive skeleton.2.1) same.2
    rw [List.map_map, List.map_map] at users
    rw [same.1, counted.active]
    exact congrArg List.sum users.symm

theorem sameTable_onState (change : MdbEntry Mac Port Group Addr → MdbEntry Mac Port Group Addr)
    (keeps : ∀ mdb, (change mdb).skeleton = mdb.skeleton) (group : Group) :
        SameTable (mc.onState group change) mc :=
  ⟨rfl, First.map_modify keeps⟩

theorem sameTable_onMember (change : FdbGroup Mac Addr → FdbGroup Mac Addr)
    (keeps : ∀ fg, (change fg).mac = fg.mac) (group : Group) (port : Port) (mac : Mac) :
        SameTable (mc.onMember group port mac change) mc := by
  refine ⟨rfl, First.map_modify fun mdb => ?_⟩
  refine congrArg (fun places => (mdb.group, mdb.users, places)) (First.map_modify fun pg => ?_)
  exact congrArg (Prod.mk pg.port) (First.map_modify keeps)

theorem sameTable_fdbChange (mac : Mac) : SameTable (mc.fdbChange mac) mc := by
  unfold Mc.fdbChange
  split
  · refine ⟨rfl, ?_⟩
    dsimp only
    rw [List.map_map]
    refine List.map_congr_left fun mdb _ =>
      congrArg (fun places => (mdb.group, mdb.users, places)) ?_
    dsimp only
    rw [List.map_map]
    refine List.map_congr_left fun pg _ => congrArg (Prod.mk pg.port) ?_
    dsimp only
    rw [List.map_map]
    refine List.map_congr_left fun fg _ => ?_
    dsimp only [Function.comp]
    split <;> rfl
  · exact .refl mc

/-- The step is not about the members of the table. -/
def Event.isQuiet : Event Mac Port Group Addr → Bool
  | .update .. | .expired .. | .cleanup .. | .nbpChange .. | .flushGroup .. | .flushStep => false
  | _ => true

/-- **A quiet step leaves the members and their counts alone.** -/
theorem Snoop.sameTable {event : Event Mac Port Group Addr} (isQuiet : event.isQuiet = true)
    (stepped : snoop.step event = some next) : SameTable next.mc snoop.mc := by
  cases event with
  | update | expired | cleanup | nbpChange | flushGroup | flushStep => cases isQuiet
  | enter | stop | flushEnd =>
    simp only [Snoop.step] at stepped
    split at stepped
    · obtain rfl := Option.some.inj stepped
      exact ⟨rfl, rfl⟩
    · cases stepped
  | sources | leave =>
    obtain rfl := Option.some.inj stepped
    refine sameTable_onMember _ ?_ _ _ _
    exact fun _ => rfl
  | router | query =>
    obtain rfl := Option.some.inj stepped
    refine sameTable_onState _ ?_ _
    exact fun _ => rfl
  | queriers | setMaxGroup =>
    obtain rfl := Option.some.inj stepped
    exact ⟨rfl, rfl⟩
  | fdbChange mac =>
    obtain rfl := Option.some.inj stepped
    exact sameTable_fdbChange mac
  | start =>
    obtain rfl := Option.some.inj stepped
    show SameTable snoop.mc.start snoop.mc
    unfold Mc.start
    split
    · exact .refl _
    · exact ⟨rfl, rfl⟩

end Qsdk.Multicast
