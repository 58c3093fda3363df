/-
**The table is counted right.**

No group, port or MAC occurs twice, in any run (`run_distinct`). As long as no section under the
lock changes the group that the flush is inside, every group's `users` is the number of its members,
`active_group_count` is the number of groups with users, and the limit on active groups is kept
while it is not lowered (`table_counted`). A report that adds a member to a port whose members the
flush has just destroyed is unlinked with the port, and stays counted (`miscounted_after_flush`).
-/

import Qsdk.Multicast.TableRuns
import Mathlib.Data.List.Flatten

set_option linter.unusedSectionVars false

namespace Qsdk.Multicast

variable {Mac Port Group Addr : Type} [DecidableEq Mac] [DecidableEq Port] [DecidableEq Group]
    [DecidableEq Addr]
  {mdb : MdbEntry Mac Port Group Addr} {port : Port} {group : Group}
  {mc after : Mc Mac Port Group Addr}
  {snoop next : Snoop Mac Port Group Addr} {event : Event Mac Port Group Addr}
  {events : List (Event Mac Port Group Addr)}

/-! ### Around the flush -/

/-- The group that the flush is inside. -/
def Flush.inside : Flush Mac Port Group → Option Group
  | .idle | .groups => none
  | .ports group _ | .hosts group _ _ _ => some group

/-- The section under the lock may add members to the group, or destroy them. -/
def Event.touches : Event Mac Port Group Addr → Group → Prop
  | .update _ other _ _ _, group => other = group
  | .expired other, group => other = group
  | .cleanup timeoutGmiEnable _ _, _ => timeoutGmiEnable = true
  | .nbpChange _, _ => True
  | _, _ => False

/-- The section under the lock leaves the group alone that the flush is inside. -/
def Snoop.Undisturbed (snoop : Snoop Mac Port Group Addr) (event : Event Mac Port Group Addr) :
    Prop :=
  ∀ group, snoop.flush.inside = some group → ¬ event.touches group

/-- The limit on active groups is not lowered, or not below their number. -/
def Snoop.Unlowered (snoop : Snoop Mac Port Group Addr) (event : Event Mac Port Group Addr) :
    Prop :=
  ∀ next, snoop.step event = some next →
    snoop.mc.maxGroupCnt ≤ next.mc.maxGroupCnt ∨ snoop.mc.activeGroupCount ≤ next.mc.maxGroupCnt

/-- The group that the flush is inside has only the ports and members that it has not destroyed
yet. -/
def Snoop.FlushKept (snoop : Snoop Mac Port Group Addr) : Prop :=
  match snoop.flush with
  | .idle | .groups => True
  | .ports group todo => ∀ mdb ∈ snoop.mc.hash, mdb.group = group → mdb.pslist.map (·.port) = todo
  | .hosts group port macs todo => ∀ mdb ∈ snoop.mc.hash, mdb.group = group →
      ∃ pg back, mdb.pslist = pg :: back ∧ pg.port = port ∧ pg.fslist.map (·.mac) = macs ∧
      back.map (·.port) = todo

theorem Snoop.FlushKept.of_outside (outside : snoop.flush.inside = none) : snoop.FlushKept := by
  unfold Snoop.FlushKept
  split
  · trivial
  · trivial
  · rename_i isPorts
    rw [isPorts] at outside
    cases outside
  · rename_i isHosts
    rw [isHosts] at outside
    cases outside

/-- The group that the flush is inside is what it was. -/
theorem Snoop.FlushKept.of_skeleton (kept : snoop.FlushKept) (flush : next.flush = snoop.flush)
    (same : ∀ mdb ∈ next.mc.hash, snoop.flush.inside = some mdb.group →
      ∃ old ∈ snoop.mc.hash, old.group = mdb.group ∧ SamePlaces mdb old) : next.FlushKept := by
  unfold Snoop.FlushKept at kept ⊢
  rw [flush]
  split
  · trivial
  · trivial
  · rename_i group todo isPorts
    rw [isPorts] at kept same
    intro mdb member isGroup
    obtain ⟨old, isOld, sameGroup, places⟩ := same mdb member (congrArg some isGroup.symm)
    rw [places.ports]
    exact kept old isOld (sameGroup.trans isGroup)
  · rename_i group port macs todo isHosts
    rw [isHosts] at kept same
    intro mdb member isGroup
    obtain ⟨old, isOld, sameGroup, places⟩ := same mdb member (congrArg some isGroup.symm)
    obtain ⟨pg, back, isList, isPort, isMacs, isTodo⟩ := kept old isOld (sameGroup.trans isGroup)
    unfold SamePlaces at places
    rw [isList, List.map_cons] at places
    obtain ⟨pg', back', isList', here, rest⟩ := List.map_eq_cons_iff.mp places
    refine ⟨pg', back', isList', (congrArg Prod.fst here).trans isPort,
      (congrArg Prod.snd here).trans isMacs, ?_⟩
    have ports := congrArg (List.map Prod.fst) rest
    rw [List.map_map, List.map_map] at ports
    exact Eq.trans ports isTodo

/-- The invariant of a run. -/
structure Snoop.Kept (snoop : Snoop Mac Port Group Addr) : Prop where
  distinct : snoop.mc.Distinct
  counted : snoop.mc.Counted
  flush : snoop.FlushKept

/-! ### Other groups -/

theorem Mc.mem_onGroup {op : Account Mac Port Group Addr → Account Mac Port Group Addr}
    (keepsGroup : ∀ mdb, mc.find group = some mdb →
      (op (mdb, mc.activeGroupCount)).1.group = mdb.group)
    (member : mdb ∈ (mc.onGroup group op).hash) (other : mdb.group ≠ group) : mdb ∈ mc.hash := by
  cases found : mc.find group with
  | none => rwa [Mc.onGroup_none found] at member
  | some entry =>
    have isGroup := (keepsGroup entry found).trans (Mc.find_split found).1
    unfold Mc.onGroup at member
    rw [found] at member
    rcases First.mem_modify member with old | ⟨_, _, _, rfl⟩
    · exact old
    · exact absurd isGroup other

/-- A report changes the entry of its group only. -/
theorem Mc.Distinct.mem_updateMdb (distinct : mc.Distinct) {memory : Mc.Memory} {mac : Mac}
    {now : Jiffies} (member : mdb ∈ (mc.updateMdb memory group mac port now).1.hash)
    (other : mdb.group ≠ group) : mdb ∈ mc.hash := by
  unfold Mc.updateMdb at member
  split at member
  · refine Mc.mem_onGroup (fun entry found => ?_) member other
    exact (updateGroup_keeps _ memory mac port now
      (distinct.entries entry (Mc.find_split found).2.1)).group
  · split at member
    · rename_i isNew _
      have created := (distinct.mdbCreate isNew).distinct
      have found : ({ mc with hash := Mc.mdbNew group :: mc.hash } :
        Mc Mac Port Group Addr).find group =
          some (Mc.mdbNew group) := List.find?_cons_of_pos (by simp [Mc.mdbNew])
      have member := Mc.mem_onGroup (fun entry found' => ?_) member other
      · rcases List.mem_cons.mp member with rfl | member
        · exact absurd rfl other
        · exact member
      · obtain rfl := Option.some.inj (found.symm.trans found')
        exact (updatePort_keeps _ memory port now (created.entries _ List.mem_cons_self)
          List.not_mem_nil).group
    · exact member

/-- The entry of a group after an operation on it. -/
theorem Mc.Distinct.mem_onGroup_same (distinct : mc.Distinct)
    {op : Account Mac Port Group Addr → Account Mac Port Group Addr}
    (keeps : ∀ mdb, mc.find group = some mdb → mdb.Distinct →
      Keeps mc.maxGroupCnt (mdb, mc.activeGroupCount) (op (mdb, mc.activeGroupCount)))
    (member : mdb ∈ (mc.onGroup group op).hash) (isGroup : mdb.group = group) :
    ∃ old, mc.find group = some old ∧ mdb = (op (old, mc.activeGroupCount)).1 := by
  cases found : mc.find group with
  | none =>
    rw [Mc.onGroup_none found] at member
    exact absurd (decide_eq_true isGroup) (List.find?_eq_none.mp found mdb member)
  | some old =>
    obtain ⟨oldGroup, isOld, front, back, isHash, before⟩ := Mc.find_split found
    have after := (distinct.onGroup op keeps).distinct.groups
    have kept := keeps old found (distinct.entries old isOld)
    have changed : (op (old, mc.activeGroupCount)).1 ∈ (mc.onGroup group op).hash := by
      rw [Mc.onGroup_eq found isHash before]
      exact List.mem_append_right _ List.mem_cons_self
    have sameGroup : mdb.group = (op (old, mc.activeGroupCount)).1.group :=
      isGroup.trans (kept.group.trans oldGroup).symm
    exact ⟨old, rfl, List.inj_on_of_nodup_map after member changed sameGroup⟩

theorem Mc.Distinct.find (distinct : mc.Distinct) (member : mdb ∈ mc.hash) :
    mc.find mdb.group = some mdb := by
  cases found : mc.find mdb.group with
  | none => exact absurd (decide_eq_true rfl) (List.find?_eq_none.mp found mdb member)
  | some other =>
    obtain ⟨sameGroup, isOther, _⟩ := Mc.find_split found
    rw [List.inj_on_of_nodup_map distinct.groups isOther member sameGroup]

/-! ### Steps of the flush -/

theorem portGroupUnlink_distinct {account : Account Mac Port Group Addr}
    (distinct : account.1.Distinct) (port : Port) :
    (portGroupUnlink port account).1.Distinct := by
  have fewer : (account.1.pslist.eraseP fun pg => decide (pg.port = port)).Sublist
      account.1.pslist :=
    List.eraseP_sublist
  exact ⟨distinct.ports.sublist (fewer.map _), distinct.macs.sublist (fewer.flatMap _)⟩

/-- A port group without members is unlinked. -/
theorem portGroupUnlink_keeps {account : Account Mac Port Group Addr} {pg : PortGroup Mac Port Addr}
    {back : List (PortGroup Mac Port Addr)} (maxGroupCnt : Int) (distinct : account.1.Distinct)
    (isList : account.1.pslist = pg :: back) (empty : pg.fslist = []) :
    Keeps maxGroupCnt account (portGroupUnlink pg.port account) ∧
      (portGroupUnlink pg.port account).1.pslist = back := by
  have isBack : (portGroupUnlink pg.port account).1.pslist = back := by
    unfold portGroupUnlink
    dsimp only
    rw [isList, List.eraseP_cons_of_pos (by simp)]
  refine ⟨⟨rfl, portGroupUnlink_distinct distinct _, fun others counted =>
    counted.of_same rfl ?_ rfl, id⟩, isBack⟩
  unfold MdbEntry.members
  rw [isBack, isList, List.map_cons, List.sum_cons, empty, List.length_nil, Nat.zero_add]

/-- **A step of the flush destroys a member that is there, or unlinks what is empty.** -/
theorem Snoop.Kept.flushStep (kept : snoop.Kept) (stepped : snoop.flushStep = some next) :
    KeepsTable snoop.mc next.mc ∧ next.FlushKept := by
  have entries := kept.flush
  unfold Snoop.FlushKept at entries
  unfold Snoop.flushStep at stepped
  split at stepped
  · cases stepped
  · cases stepped
  · rename_i group port todo isPorts
    obtain rfl := Option.some.inj stepped
    rw [isPorts] at entries
    refine ⟨.refl kept.distinct, fun mdb member isGroup => ?_⟩
    have ports := entries mdb member isGroup
    obtain ⟨pg, back, isList, isPort, isTodo⟩ := List.map_eq_cons_iff.mp ports
    refine ⟨pg, back, isList, isPort, ?_, isTodo⟩
    have found := kept.distinct.find member
    rw [isGroup] at found
    unfold Mc.macsOf
    rw [found]
    dsimp only
    rw [isList, List.find?_cons_of_pos (by simp [isPort])]
  · rename_i group isPorts
    obtain rfl := Option.some.inj stepped
    rw [isPorts] at entries
    refine ⟨kept.distinct.mdbUnlink fun mdb found => ?_, trivial⟩
    obtain ⟨isGroup, member, _⟩ := Mc.find_split found
    exact List.map_eq_nil_iff.mp (entries mdb member isGroup)
  · rename_i group port mac macs todo isHosts
    obtain rfl := Option.some.inj stepped
    rw [isHosts] at entries
    have keeps : ∀ mdb, snoop.mc.find group = some mdb → mdb.Distinct →
        Keeps snoop.mc.maxGroupCnt (mdb, snoop.mc.activeGroupCount)
          (fdbGroupDestroy port mac (mdb, snoop.mc.activeGroupCount)) := by
      intro mdb found distinct
      obtain ⟨isGroup, member, _⟩ := Mc.find_split found
      obtain ⟨pg, back, isList, rfl, isMacs, _⟩ := entries mdb member isGroup
      exact .fdbGroupDestroy _ distinct (isList ▸ List.mem_cons_self) (isMacs ▸ List.mem_cons_self)
    refine ⟨kept.distinct.onGroup _ keeps, fun mdb member isGroup => ?_⟩
    obtain ⟨old, found, rfl⟩ := kept.distinct.mem_onGroup_same keeps member isGroup
    obtain ⟨oldGroup, isOld, _⟩ := Mc.find_split found
    obtain ⟨pg, back, isList, rfl, isMacs, isTodo⟩ := entries old isOld oldGroup
    have destroyed := @fdbGroupDestroy_eq _ _ _ _ _ _ _ _ (old, snoop.mc.activeGroupCount)
      [] _ _ isList
      (fun _ wrong => absurd wrong List.not_mem_nil) mac
    refine ⟨_, back, destroyed, rfl, ?_, isTodo⟩
    dsimp only
    rw [map_mac_eraseP, isMacs, List.erase_cons_head]
  · rename_i group port todo isHosts
    obtain rfl := Option.some.inj stepped
    rw [isHosts] at entries
    have unlinked : ∀ mdb, snoop.mc.find group = some mdb → mdb.Distinct →
        Keeps snoop.mc.maxGroupCnt (mdb, snoop.mc.activeGroupCount)
          (portGroupUnlink port (mdb, snoop.mc.activeGroupCount)) ∧
        (portGroupUnlink port (mdb, snoop.mc.activeGroupCount)).1.pslist.map (·.port) = todo := by
      intro mdb found distinct
      obtain ⟨isGroup, member, _⟩ := Mc.find_split found
      obtain ⟨pg, back, isList, rfl, isMacs, isTodo⟩ := entries mdb member isGroup
      have unlinked :=
        @portGroupUnlink_keeps _ _ _ _ _ _ _ _ (mdb, snoop.mc.activeGroupCount)
        _ _ snoop.mc.maxGroupCnt
        distinct isList (List.map_eq_nil_iff.mp isMacs)
      exact ⟨unlinked.1, unlinked.2 ▸ isTodo⟩
    have keeps := fun mdb found distinct => (unlinked mdb found distinct).1
    refine ⟨kept.distinct.onGroup _ keeps, fun mdb member isGroup => ?_⟩
    obtain ⟨old, found, rfl⟩ := kept.distinct.mem_onGroup_same keeps member isGroup
    exact (unlinked old found (kept.distinct.entries old (Mc.find_split found).2.1)).2

/-! ### Steps -/

/-- **No group, port or MAC occurs twice after a step.** -/
theorem Snoop.step_distinct (distinct : snoop.mc.Distinct)
    (stepped : snoop.step event = some next) :
    next.mc.Distinct := by
  cases quiet : event.isQuiet with
  | true => exact (Snoop.sameTable quiet stepped).distinct distinct
  | false =>
    cases event with
    | enter | sources | router | leave | query | queriers | fdbChange | setMaxGroup | start | stop
        | flushEnd =>
      cases quiet
    | update memory group mac port now =>
      simp only [Snoop.step] at stepped
      split at stepped
      · cases stepped
      · obtain rfl := Option.some.inj stepped
        exact (distinct.updateMdb memory group mac port now).distinct
    | expired group =>
      obtain rfl := Option.some.inj stepped
      exact (distinct.walk fun mdb pg => expiredVisit_clears mdb.timerBase pg).distinct
    | cleanup timeoutGmiEnable now expireTime =>
      obtain rfl := Option.some.inj stepped
      exact (distinct.mdbCleanup timeoutGmiEnable now expireTime).distinct
    | nbpChange port =>
      obtain rfl := Option.some.inj stepped
      exact (distinct.nbpChange port).distinct
    | flushGroup group =>
      simp only [Snoop.step] at stepped
      split at stepped
      · obtain rfl := Option.some.inj stepped
        exact distinct
      · cases stepped
    | flushStep =>
      simp only [Snoop.step, Snoop.flushStep] at stepped
      split at stepped
      · cases stepped
      · cases stepped
      · obtain rfl := Option.some.inj stepped
        exact distinct
      · obtain rfl := Option.some.inj stepped
        exact distinct.mdbUnlink_distinct _
      · obtain rfl := Option.some.inj stepped
        exact distinct.onGroup_distinct fun mdb _ entry =>
          ⟨rfl, @MdbEntry.Distinct.fdbGroupDestroy _ _ _ _ _ _ _ _ (mdb, _) entry _ _⟩
      · obtain rfl := Option.some.inj stepped
        exact distinct.onGroup_distinct fun mdb _ entry =>
          ⟨rfl, @portGroupUnlink_distinct _ _ _ _ _ _ _ _ (mdb, _) entry _⟩

/-- A quiet step lets the flush end, begin, or stay where it is. -/
theorem Snoop.quiet_flush (isQuiet : event.isQuiet = true)
    (stepped : snoop.step event = some next) :
    next.flush = snoop.flush ∨ next.flush.inside = none := by
  cases event with
  | update | expired | cleanup | nbpChange | flushGroup | flushStep => cases isQuiet
  | sources | router | leave | query | queriers | fdbChange | setMaxGroup | start =>
    obtain rfl := Option.some.inj stepped
    exact .inl rfl
  | enter =>
    simp only [Snoop.step] at stepped
    split at stepped
    · obtain rfl := Option.some.inj stepped
      exact .inl rfl
    · cases stepped
  | stop | flushEnd =>
    simp only [Snoop.step] at stepped
    split at stepped
    · obtain rfl := Option.some.inj stepped
      exact .inr rfl
    · cases stepped

/-- The limit on active groups is kept by what keeps the table. -/
theorem KeepsTable.active_le (keeps : KeepsTable mc after)
    (limit : mc.activeGroupCount ≤ mc.maxGroupCnt) :
    after.activeGroupCount ≤ after.maxGroupCnt :=
  keeps.maxGroupCnt ▸ keeps.limit limit

/-- **A step that leaves the flush undisturbed keeps the counts right.** -/
theorem Snoop.Kept.step (kept : snoop.Kept) (undisturbed : snoop.Undisturbed event)
    (stepped : snoop.step event = some next) :
    next.Kept ∧ (snoop.Unlowered event → snoop.mc.activeGroupCount ≤ snoop.mc.maxGroupCnt →
      next.mc.activeGroupCount ≤ next.mc.maxGroupCnt) := by
  have whole : KeepsTable snoop.mc next.mc → next.FlushKept → next.Kept ∧ (snoop.Unlowered event →
      snoop.mc.activeGroupCount ≤ snoop.mc.maxGroupCnt →
          next.mc.activeGroupCount ≤ next.mc.maxGroupCnt) :=
    fun keeps flush => ⟨⟨keeps.distinct, keeps.counted kept.counted, flush⟩, fun _ =>
      keeps.active_le⟩
  cases quiet : event.isQuiet with
  | true =>
    have same := Snoop.sameTable quiet stepped
    refine ⟨⟨same.distinct kept.distinct, same.counted kept.counted, ?_⟩, fun unlowered limit => ?_⟩
    · rcases Snoop.quiet_flush quiet stepped with flush | outside
      · refine kept.flush.of_skeleton flush fun mdb member _ => ?_
        obtain ⟨old, isOld, sameGroup, _, places⟩ := same.entry member
        exact ⟨old, isOld, sameGroup, places⟩
      · exact .of_outside outside
    · have lowered := unlowered next stepped
      have active := same.1
      omega
  | false =>
    cases event with
    | enter | sources | router | leave | query | queriers | fdbChange | setMaxGroup | start | stop
        | flushEnd =>
      cases quiet
    | update memory group mac port now =>
      simp only [Snoop.step] at stepped
      split at stepped
      · cases stepped
      · obtain rfl := Option.some.inj stepped
        refine whole (kept.distinct.updateMdb memory group mac port now)
          (kept.flush.of_skeleton rfl ?_)
        intro mdb member inside
        have other : mdb.group ≠ group := fun same => undisturbed _ inside same.symm
        exact ⟨mdb, kept.distinct.mem_updateMdb member other, rfl, rfl⟩
    | expired group =>
      obtain rfl := Option.some.inj stepped
      have walked := @Mc.Distinct.walk _ _ _ _ _ _ _ _ group _ kept.distinct _ fun mdb pg =>
        expiredVisit_clears mdb.timerBase pg
      refine whole walked (kept.flush.of_skeleton rfl fun mdb member inside => ?_)
      have other : mdb.group ≠ group := fun same => undisturbed _ inside same.symm
      refine ⟨mdb, Mc.mem_onGroup (fun entry found => ?_) member other, rfl, rfl⟩
      rw [walkPorts_eq _ (kept.distinct.entries entry (Mc.find_split found).2.1)]
    | cleanup timeoutGmiEnable now expireTime =>
      obtain rfl := Option.some.inj stepped
      refine whole (kept.distinct.mdbCleanup timeoutGmiEnable now expireTime) ?_
      refine kept.flush.of_skeleton rfl fun mdb member inside => ⟨mdb, ?_, rfl, rfl⟩
      have disabled : ¬ timeoutGmiEnable = true := undisturbed _ inside
      dsimp only [Mc.mdbCleanup] at member
      rwa [if_neg disabled] at member
    | nbpChange port =>
      obtain rfl := Option.some.inj stepped
      refine whole (kept.distinct.nbpChange port)
        (kept.flush.of_skeleton rfl fun mdb _ inside => ?_)
      exact absurd trivial (undisturbed _ inside)
    | flushGroup group =>
      simp only [Snoop.step] at stepped
      split at stepped
      · obtain rfl := Option.some.inj stepped
        refine whole (.refl kept.distinct) fun mdb member isGroup => ?_
        have found := kept.distinct.find member
        rw [isGroup] at found
        unfold Mc.portsOf
        rw [found]
      · cases stepped
    | flushStep =>
      obtain ⟨keeps, flush⟩ := kept.flushStep stepped
      exact whole keeps flush

/-! ### Runs -/

theorem Snoop.init_distinct : (Snoop.init : Snoop Mac Port Group Addr).mc.Distinct :=
  ⟨List.nodup_nil, fun _ member => absurd member List.not_mem_nil⟩

theorem Snoop.init_kept : (Snoop.init : Snoop Mac Port Group Addr).Kept :=
  ⟨Snoop.init_distinct, ⟨fun _ member => absurd member List.not_mem_nil, rfl⟩, trivial⟩

/-- **In every run no group, port or MAC occurs twice.** -/
theorem run_distinct (distinct : snoop.mc.Distinct) (ran : snoop.run events = some next) :
    next.mc.Distinct := by
  induction events generalizing snoop with
  | nil =>
    obtain rfl := Option.some.inj ran
    exact distinct
  | cons event events ih =>
    obtain ⟨between, stepped, ran⟩ := Option.bind_eq_some_iff.mp ran
    exact ih (Snoop.step_distinct distinct stepped) ran

/-- The induction is on the run. -/
theorem Snoop.Kept.run (kept : snoop.Kept) (undisturbed : snoop.Along Snoop.Undisturbed events)
    (ran : snoop.run events = some next) :
    next.Kept ∧ (snoop.Along Snoop.Unlowered events → snoop.mc.activeGroupCount ≤
      snoop.mc.maxGroupCnt →
      next.mc.activeGroupCount ≤ next.mc.maxGroupCnt) := by
  induction events generalizing snoop with
  | nil =>
    obtain rfl := Option.some.inj ran
    exact ⟨kept, fun _ limit => limit⟩
  | cons event events ih =>
    obtain ⟨between, stepped, ran⟩ := Option.bind_eq_some_iff.mp ran
    obtain ⟨keptNext, limitNext⟩ := kept.step undisturbed.1 stepped
    obtain ⟨keptLast, limitLast⟩ := ih keptNext (undisturbed.2 between stepped) ran
    exact ⟨keptLast, fun unlowered limit =>
      limitLast (unlowered.2 between stepped) (limitNext unlowered.1 limit)⟩

/-- The table is accounted for: members, active groups, MACs and groups. -/
structure Mc.Accounted (mc : Mc Mac Port Group Addr) : Prop where
  users : ∀ mdb ∈ mc.hash, mdb.users = ((mdb.pslist.map fun pg => pg.fslist.length).sum : Nat)
  active : mc.activeGroupCount = (mc.hash.countP fun mdb => decide (0 < mdb.users) : Nat)
  macs : ∀ mdb ∈ mc.hash, (mdb.pslist.flatMap fun pg => pg.fslist.map (·.mac)).Nodup
  groups : (mc.hash.map (·.group)).Nodup

theorem activeGroups_eq_countP (hash : List (MdbEntry Mac Port Group Addr)) :
    activeGroups hash = (hash.countP fun mdb => decide (0 < mdb.users) : Nat) := by
  induction hash with
  | nil => rfl
  | cons mdb hash ih =>
    have cons : activeGroups (mdb :: hash) = isActive mdb.users + activeGroups hash := by
      simp [activeGroups]
    rw [cons, ih, List.countP_cons]
    unfold isActive
    split
    · rename_i active
      rw [decide_eq_true active]
      simp only [if_true]
      omega
    · rename_i inactive
      rw [decide_eq_false inactive]
      simp

theorem Snoop.Kept.accounted (kept : snoop.Kept) : snoop.mc.Accounted :=
  ⟨kept.counted.users, kept.counted.active.trans (activeGroups_eq_countP _), fun mdb member =>
    (kept.distinct.entries mdb member).macs, kept.distinct.groups⟩

/-- **Table accounting.** In every run that leaves the group alone that the flush is inside, the
table is accounted for, and while the limit on active groups is not lowered it is kept. -/
theorem table_counted (ran : Snoop.init.run events = some snoop)
    (undisturbed : Snoop.init.Along Snoop.Undisturbed events) :
    snoop.mc.Accounted ∧
      (Snoop.init.Along Snoop.Unlowered events → snoop.mc.activeGroupCount ≤
          snoop.mc.maxGroupCnt) := by
  obtain ⟨kept, limit⟩ := Snoop.init_kept.run undisturbed ran
  exact ⟨kept.accounted, fun unlowered => limit unlowered (Int.le_refl _)⟩

instance : (event : Event Mac Port Group Addr) → (group : Group) → Decidable (event.touches group)
  | .update _ other _ _ _, group => inferInstanceAs (Decidable (other = group))
  | .expired other, group => inferInstanceAs (Decidable (other = group))
  | .cleanup timeoutGmiEnable _ _, _ => inferInstanceAs (Decidable (timeoutGmiEnable = true))
  | .nbpChange _, _ => .isTrue trivial
  | .enter, _ | .sources _ _ _ _ _, _ | .router _ _, _ | .leave _ _ _ _, _ | .query _ _,
    _ | .queriers _ _, _
  | .fdbChange _, _ | .setMaxGroup _, _ | .start, _ | .stop, _ | .flushGroup _, _ | .flushStep,
      _ | .flushEnd, _ =>
    .isFalse id

instance (snoop : Snoop Mac Port Group Addr) (event : Event Mac Port Group Addr) :
    Decidable (snoop.Undisturbed event) :=
  match inside : snoop.flush.inside with
  | none => .isTrue fun group isGroup => absurd (inside.symm.trans isGroup) (by simp)
  | some group => decidable_of_iff (¬ event.touches group)
      ⟨fun apart _ isGroup => Option.some.inj (inside.symm.trans isGroup) ▸ apart,
        fun undisturbed => undisturbed _ inside⟩

instance decidableAlong (meets : Snoop Mac Port Group Addr → Event Mac Port Group Addr → Prop)
    [∀ snoop event, Decidable (meets snoop event)] (snoop : Snoop Mac Port Group Addr) :
    (events : List (Event Mac Port Group Addr)) → Decidable (snoop.Along meets events)
  | [] => .isTrue trivial
  | event :: events =>
    match stepped : snoop.step event with
    | none => decidable_of_iff (meets snoop event)
        ⟨fun met => ⟨met, fun _ isNext => absurd (stepped.symm.trans isNext) (by simp)⟩, And.left⟩
    | some next =>
      have := decidableAlong meets next events
      decidable_of_iff (meets snoop event ∧ next.Along meets events)
        ⟨fun both => ⟨both.1, fun _ isNext => Option.some.inj (stepped.symm.trans isNext) ▸ both.2⟩,
          fun along => ⟨along.1, along.2 next stepped⟩⟩

/-- Three hosts join two groups, one leaves and expires; snooping stops, and while the flush is
inside the group 7 a host joins the group 8 that was late to get the lock. -/
def stoppedWithReport : List (Event Nat Nat Nat Nat) :=
  [.start, .enter, .update ⟨true, true, true⟩ 7 1 2 0, .enter,
    .update ⟨true, true, true⟩ 7 3 2 9, .enter,
    .update ⟨true, true, true⟩ 8 4 5 9, .leave 7 1 2 0, .query 7 5, .expired 7, .enter, .stop,
    .flushGroup 7,
    .flushStep, .update ⟨true, true, true⟩ 8 3 2 9, .flushStep, .flushStep, .flushStep, .flushEnd]

theorem table_counted_stopped :
    ∃ snoop, Snoop.init.run stoppedWithReport = some snoop ∧
      snoop.mc.hash.map (fun mdb => (mdb.group, mdb.users)) = [(8, 2)] ∧ snoop.mc.Accounted ∧
      (Snoop.init.Along Snoop.Unlowered stoppedWithReport →
          snoop.mc.activeGroupCount ≤ snoop.mc.maxGroupCnt) := by
  have undisturbed : Snoop.init.Along Snoop.Undisturbed stoppedWithReport := by decide
  obtain ⟨snoop, ran, groups⟩ : ∃ snoop, Snoop.init.run stoppedWithReport = some snoop ∧
      snoop.mc.hash.map (fun mdb => (mdb.group, mdb.users)) = [(8, 2)] := by
    refine ⟨_, rfl, ?_⟩
    decide
  exact ⟨snoop, ran, groups, table_counted ran undisturbed⟩

/-- A report finds snooping started, the flush destroys the members of its port, and the report adds
its own member before the flush unlinks the port. -/
def flushedWithReport : List (Event Nat Nat Nat Nat) :=
  [.start, .enter, .update ⟨true, true, true⟩ 7 1 2 0, .enter, .stop, .flushGroup 7,
    .flushStep, .flushStep,
    .update ⟨true, true, true⟩ 7 3 2 0, .flushStep, .flushStep, .flushEnd]

/-- No group is left, and one is counted as active. -/
theorem miscounted_after_flush :
    ∃ snoop, (Snoop.init : Snoop Nat Nat Nat Nat).run flushedWithReport = some snoop ∧
      snoop.mc.hash = [] ∧ snoop.mc.activeGroupCount = 1 ∧ ¬ snoop.mc.Accounted := by
  refine ⟨_, rfl, rfl, rfl, fun accounted => ?_⟩
  have active := accounted.active
  exact absurd active (by decide)

end Qsdk.Multicast
