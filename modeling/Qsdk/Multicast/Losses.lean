/-
**Members are lost for a reason.**

`Event.Reason` names the events that may destroy a member: its own expiry, a report of the same host
from another port, the deletion of its port, and a flush. Every operation but one keeps to it.
`mc_nbp_change` destroys every port group that has members, whatever its port, and passes over the
empty ones of the port that is deleted. So it does what it is for exactly when the port groups of
that port are those with members (`lost_for_reason_iff`).
-/

import Qsdk.Multicast.Accounting

set_option linter.unusedSectionVars false

namespace Qsdk.Multicast

variable {Mac Port Group Addr : Type} [DecidableEq Mac] [DecidableEq Port] [DecidableEq Group]
    [DecidableEq Addr]
  {mdb other : MdbEntry Mac Port Group Addr} {port : Port} {mac : Mac} {group : Group}
  {mc after : Mc Mac Port Group Addr}
  {snoop next : Snoop Mac Port Group Addr} {event : Event Mac Port Group Addr}
  {fg : FdbGroup Mac Addr}
  {events : List (Event Mac Port Group Addr)}

/-! ### Members -/

/-- The host is a member of the group on the port. -/
def MdbEntry.Listed (mdb : MdbEntry Mac Port Group Addr) (port : Port) (mac : Mac) : Prop :=
  ∃ pg ∈ mdb.pslist, pg.port = port ∧ mac ∈ pg.fslist.map (·.mac)

def Mc.Listed (mc : Mc Mac Port Group Addr) (group : Group) (port : Port) (mac : Mac) : Prop :=
  ∃ mdb ∈ mc.hash, mdb.group = group ∧ mdb.Listed port mac

/-- The member, with its timer. -/
def MdbEntry.Has (mdb : MdbEntry Mac Port Group Addr) (port : Port) (fg : FdbGroup Mac Addr) :
    Prop :=
  ∃ pg ∈ mdb.pslist, pg.port = port ∧ fg ∈ pg.fslist

def Mc.Has (mc : Mc Mac Port Group Addr) (group : Group) (port : Port) (fg : FdbGroup Mac Addr) :
    Prop :=
  ∃ mdb ∈ mc.hash, mdb.group = group ∧ mdb.Has port fg

theorem MdbEntry.Has.listed (has : mdb.Has port fg) : mdb.Listed port fg.mac := by
  obtain ⟨pg, member, isPort, isFg⟩ := has
  exact ⟨pg, member, isPort, List.mem_map_of_mem isFg⟩

theorem Mc.Has.listed (has : mc.Has group port fg) : mc.Listed group port fg.mac := by
  obtain ⟨mdb, member, isGroup, entry⟩ := has
  exact ⟨mdb, member, isGroup, entry.listed⟩

/-- Why a member may be destroyed. -/
def Event.Reason (mc : Mc Mac Port Group Addr) (group : Group) (port : Port)
    (fg : FdbGroup Mac Addr) :
    Event Mac Port Group Addr → Prop
  | .update _ other mac heardOn _ => other = group ∧ mac = fg.mac ∧ heardOn ≠ port
  | .expired other =>
    other = group ∧ ∃ mdb ∈ mc.hash, mdb.group = group ∧
      timeBefore fg.ageingTimer mdb.timerBase = true
  | .cleanup timeoutGmiEnable now expireTime =>
    timeoutGmiEnable = true ∧ timeBeforeEq (fg.ageingTimer + expireTime group) now = true
  | .nbpChange deleted => deleted = port
  | .flushStep => True
  | _ => False

/-- The port is gone from every group and from the queriers, and nothing else has changed. -/
structure PortGone (port : Port) (before after : Mc Mac Port Group Addr) : Prop where
  groups : after.hash.map (fun mdb => (mdb.group, mdb.pslist)) =
    before.hash.map fun mdb => (mdb.group, mdb.pslist.filter fun pg => decide (pg.port ≠ port))
  igmpRlist : after.igmpRlist = before.igmpRlist.filter fun qe => decide (qe.port ≠ port)
  mldRlist : after.mldRlist = before.mldRlist.filter fun qe => decide (qe.port ≠ port)

/-- Members are lost for a reason, and the deletion of a port is about that port. -/
structure Snoop.LosesForReason (snoop : Snoop Mac Port Group Addr)
    (event : Event Mac Port Group Addr) : Prop where
  lost : ∀ next, snoop.step event = some next → ∀ group port fg, snoop.mc.Has group port fg →
    ¬ next.mc.Listed group port fg.mac → event.Reason snoop.mc group port fg
  portGone : ∀ next, snoop.step event = some next → ∀ port, event = .nbpChange port →
    PortGone port snoop.mc next.mc

/-- When a port is deleted, its port groups are those with members. -/
def Snoop.OnlyPort (snoop : Snoop Mac Port Group Addr) (event : Event Mac Port Group Addr) : Prop :=
  ∀ port, event = .nbpChange port → ∀ mdb ∈ snoop.mc.hash, ∀ pg ∈ mdb.pslist, pg.fslist ≠ [] ↔
    pg.port = port

/-! ### One group -/

theorem MdbEntry.Listed.of_samePlaces (listed : mdb.Listed port mac) (same : SamePlaces mdb other) :
    other.Listed port mac := by
  obtain ⟨pg, member, isPort, isMac⟩ := listed
  have place := List.mem_map_of_mem (f := fun pg : PortGroup Mac Port Addr =>
    (pg.port, pg.fslist.map (·.mac))) member
  unfold SamePlaces at same
  rw [same] at place
  obtain ⟨pg', member', samePlace⟩ := List.mem_map.mp place
  have macs : pg'.fslist.map (·.mac) = pg.fslist.map (·.mac) := congrArg Prod.snd samePlace
  exact ⟨pg', member', (congrArg Prod.fst samePlace).trans isPort, macs ▸ isMac⟩

/-- A change of a port group that keeps the host. -/
theorem MdbEntry.Listed.modify (listed : mdb.Listed port mac)
    {test : PortGroup Mac Port Addr → Bool} {change : PortGroup Mac Port Addr →
      PortGroup Mac Port Addr} (isOther : other.pslist = First.modify test change mdb.pslist)
    (keeps : ∀ pg, test pg = true → pg.port = port → mac ∈ pg.fslist.map (·.mac) →
      (change pg).port = port ∧ mac ∈ (change pg).fslist.map (·.mac)) : other.Listed port mac := by
  obtain ⟨pg, member, isPort, isMac⟩ := listed
  rcases First.mem_modify_of_mem (p := test) change member with same | ⟨tested, changed⟩
  · exact ⟨pg, isOther ▸ same, isPort, isMac⟩
  · exact ⟨change pg, isOther ▸ changed, keeps pg tested isPort isMac⟩

/-- A member is destroyed, and no other. -/
theorem MdbEntry.Listed.fdbGroupDestroy {account : Account Mac Port Group Addr} {port' : Port}
    {mac' : Mac} (listed : account.1.Listed port' mac') (apart : port' ≠ port ∨ mac' ≠ mac) :
    (fdbGroupDestroy port mac account).1.Listed port' mac' := by
  refine listed.modify rfl fun pg tested isPort isMac => ⟨isPort, ?_⟩
  have samePort : pg.port = port := of_decide_eq_true tested
  rcases apart with otherPort | otherMac
  · exact absurd (isPort.symm.trans samePort) otherPort
  · dsimp only
    rw [map_mac_eraseP]
    exact (List.mem_erase_of_ne otherMac).mpr isMac

theorem MdbEntry.Listed.updatePort {maxGroupCnt : Int} {memory : Mc.Memory} {port' : Port}
    {mac' : Mac} {now : Jiffies} {account : Account Mac Port Group Addr}
    (listed : account.1.Listed port' mac') :
    (Mc.updatePort maxGroupCnt memory mac port now account).1.1.Listed port' mac' := by
  have created : ∀ account : Account Mac Port Group Addr, account.1.Listed port' mac' →
      (Mc.fdbGroupCreate mac port now account).1.Listed port' mac' := fun account listed =>
    listed.modify rfl fun pg _ isPort isMac => ⟨isPort, List.mem_cons_of_mem _ isMac⟩
  have opened : (Mc.portGroupCreate port now account).1.Listed port' mac' := by
    obtain ⟨pg, member, place⟩ := listed
    exact ⟨pg, List.mem_cons_of_mem _ member, place⟩
  unfold Mc.updatePort
  split
  · split
    · refine listed.modify rfl fun pg _ isPort isMac => ⟨isPort, ?_⟩
      have sameMacs := First.map_modify (p := fun fg : FdbGroup Mac Addr => decide (fg.mac = mac))
        (f := fun fg => { fg with ageingTimer := now, fdbAgeOut := false }) (g := (·.mac))
        (l := pg.fslist) fun _ => rfl
      exact sameMacs ▸ isMac
    · split
      · exact listed
      · split
        · exact created account listed
        · exact listed
  · split
    · dsimp only
      split
      · exact opened
      · split
        · exact created _ opened
        · exact opened
    · exact listed

/-- A report loses the member of the same host on another port only. -/
theorem MdbEntry.Listed.updateGroup {maxGroupCnt : Int} {memory : Mc.Memory} {port' : Port}
    {mac' : Mac} {now : Jiffies} {account : Account Mac Port Group Addr}
    (listed : account.1.Listed port' mac') (apart : mac = mac' → port = port') :
    (Mc.updateGroup maxGroupCnt memory mac port now account).1.1.Listed port' mac' := by
  have hybrid : (Mc.hybridFdbGroup mac now port account).1.1.Listed port' mac' := by
    unfold Mc.hybridFdbGroup
    split
    · exact listed
    · rename_i pg found
      split
      · rename_i otherPort
        refine listed.fdbGroupDestroy ?_
        by_cases sameMac : mac = mac'
        · exact .inl fun same => otherPort (same.symm.trans (apart sameMac).symm)
        · exact .inr fun same => sameMac same.symm
      · refine listed.of_samePlaces ?_
        exact Eq.symm (@samePlaces_modify _ _ _ _ _ _ _ _ account.1 _ _ _ rfl fun pg =>
          congrArg (Prod.mk pg.port) (First.map_modify fun _ => rfl))
  unfold Mc.updateGroup
  split
  · rename_i isAfter
    rw [isAfter] at hybrid
    exact hybrid
  · rename_i isAfter
    rw [isAfter] at hybrid
    exact hybrid.updatePort

/-- A walk keeps a member that its visit lets live. -/
theorem MdbEntry.Has.walkPorts {account : Account Mac Port Group Addr} (has : account.1.Has port fg)
    (distinct : account.1.Distinct) {visit : PortGroup Mac Port Addr → Visit Mac Addr}
    (clears : ∀ pg, (visit pg).Clears pg)
    (lives : ∀ pg ∈ account.1.pslist, pg.port = port → fg ∈ pg.fslist →
        (visit pg).dies fg = false) :
    (walkPorts visit account).1.Has port fg := by
  obtain ⟨pg, member, isPort, isFg⟩ := has
  have live := lives pg member isPort isFg
  have stays : (visit pg).unlinks = false := by
    cases unlinks : (visit pg).unlinks with
    | false => rfl
    | true => exact absurd (clears pg unlinks fg isFg) (by simp [live])
  rw [walkPorts_eq visit distinct]
  refine ⟨{ pg with fslist := pg.fslist.filter fun fg => !(visit pg).dies fg },
    List.mem_flatMap.mpr ⟨pg, member, ?_⟩, isPort, ?_⟩
  · unfold Visit.left
    rw [stays]
    exact List.mem_cons_self
  · exact List.mem_filter.mpr ⟨isFg, by simp [live]⟩

/-! ### The table -/

/-- What holds of an entry of a group holds of one after an operation that keeps it. -/
theorem Mc.Distinct.exists_onGroup (distinct : mc.Distinct)
    {place : MdbEntry Mac Port Group Addr → Prop} {within : Group}
    {op : Account Mac Port Group Addr → Account Mac Port Group Addr}
    (listed : ∃ mdb ∈ mc.hash, mdb.group = within ∧ place mdb)
    (keeps : ∀ mdb, mc.find group = some mdb → group = within → place mdb →
      (op (mdb, mc.activeGroupCount)).1.group = mdb.group ∧
          place (op (mdb, mc.activeGroupCount)).1) :
    ∃ mdb ∈ (mc.onGroup group op).hash, mdb.group = within ∧ place mdb := by
  obtain ⟨mdb, member, isGroup, placed⟩ := listed
  by_cases here : mdb.group = group
  · have found := distinct.find member
    rw [here] at found
    obtain ⟨_, _, front, back, isHash, before⟩ := Mc.find_split found
    obtain ⟨sameGroup, stillPlaced⟩ := keeps mdb found (here.symm.trans isGroup) placed
    refine ⟨_, ?_, sameGroup.trans isGroup, stillPlaced⟩
    rw [Mc.onGroup_eq found isHash before]
    exact List.mem_append_right _ List.mem_cons_self
  · refine ⟨mdb, ?_, isGroup, placed⟩
    unfold Mc.onGroup
    split
    · exact member
    · exact First.mem_modify_of_not _ member (by simpa using here)

theorem Mc.Has.walk (has : mc.Has group port fg) (distinct : mc.Distinct) {within : Group}
    {visit : MdbEntry Mac Port Group Addr → PortGroup Mac Port Addr → Visit Mac Addr}
    (clears : ∀ mdb pg, (visit mdb pg).Clears pg)
    (lives : ∀ mdb ∈ mc.hash, mdb.group = group → within = group →
      ∀ pg ∈ mdb.pslist, pg.port = port → fg ∈ pg.fslist →
      (visit mdb pg).dies fg = false) :
    (mc.onGroup within fun account => walkPorts (visit account.1) account).Has group port fg := by
  refine distinct.exists_onGroup has fun mdb found sameGroup here => ?_
  obtain ⟨isGroup, member, _⟩ := Mc.find_split found
  have entry := distinct.entries mdb member
  refine ⟨?_, here.walkPorts entry (clears mdb)
    (lives mdb member (isGroup.trans sameGroup) sameGroup)⟩
  rw [walkPorts_eq _ entry]

/-- A report loses the member of the same host on another port only. -/
theorem Mc.Listed.updateMdb (listed : mc.Listed group port mac) (distinct : mc.Distinct)
    {memory : Mc.Memory} {within : Group} {mac' : Mac} {port' : Port} {now : Jiffies}
    (apart : within = group → mac' = mac → port' = port) :
    (mc.updateMdb memory within mac' port' now).1.Listed group port mac := by
  unfold Mc.updateMdb
  split
  · refine distinct.exists_onGroup listed fun mdb found sameGroup here =>
      ⟨?_, here.updateGroup (apart sameGroup)⟩
    exact (updateGroup_keeps _ memory mac' port' now
      (distinct.entries mdb (Mc.find_split found).2.1)).group
  · rename_i isNew
    split
    · have created := distinct.mdbCreate isNew
      have listed : ({ mc with hash := Mc.mdbNew within :: mc.hash } :
          Mc Mac Port Group Addr).Listed group port mac := by
        obtain ⟨mdb, member, place⟩ := listed
        exact ⟨mdb, List.mem_cons_of_mem _ member, place⟩
      refine created.distinct.exists_onGroup listed fun mdb found _ here => ⟨?_, here.updatePort⟩
      have isFirst : ({ mc with hash := Mc.mdbNew within :: mc.hash } :
        Mc Mac Port Group Addr).find within =
          some (Mc.mdbNew within) := List.find?_cons_of_pos (by simp [Mc.mdbNew])
      obtain rfl := Option.some.inj (isFirst.symm.trans found)
      exact (updatePort_keeps _ memory port' now (created.distinct.entries _ List.mem_cons_self)
        List.not_mem_nil).group
    · exact listed

theorem Mc.Listed.of_sameTable (listed : mc.Listed group port mac) (same : SameTable after mc) :
    after.Listed group port mac := by
  obtain ⟨mdb, member, isGroup, entry⟩ := listed
  obtain ⟨old, isOld, sameGroup, _, places⟩ :=
    @SameTable.entry _ _ _ _ _ _ _ _ _ after mc ⟨same.1.symm, same.2.symm⟩ member
  exact ⟨old, isOld, sameGroup.trans isGroup, entry.of_samePlaces places⟩

/-! ### The ageing timer -/

/-- Before an entry of the table there is none of its group. -/
theorem Mc.Distinct.before (distinct : mc.Distinct)
    {front todo : List (MdbEntry Mac Port Group Addr)} (isHash : mc.hash = front ++ mdb :: todo) :
        ∀ other ∈ front, ¬ decide (other.group = mdb.group) = true := by
  intro other listed same
  have groups := distinct.groups
  rw [isHash, List.map_append, List.map_cons] at groups
  exact (List.nodup_append.mp groups).2.2 _ (List.mem_map_of_mem listed) _ List.mem_cons_self
    (of_decide_eq_true same)

/-- Groups that are not visited yet are as they were. The induction is on the groups to visit. -/
theorem Mc.Has.cleanup {now : Jiffies} {expireTime : Group → Jiffies}
    {front todo : List (MdbEntry Mac Port Group Addr)} (has : mc.Has group port fg)
    (distinct : mc.Distinct) (isHash : mc.hash = front ++ todo)
    (young : timeBeforeEq (fg.ageingTimer + expireTime group) now = false) :
    (todo.foldl (Mc.cleanupGroup now expireTime) mc).Has group port fg := by
  induction todo generalizing mc front with
  | nil => exact has
  | cons mdb todo ih =>
    have member : mdb ∈ mc.hash := isHash ▸ List.mem_append_right _ List.mem_cons_self
    have found := distinct.find member
    have before := distinct.before isHash
    rw [List.foldl_cons]
    unfold Mc.cleanupGroup
    split
    · rename_i empty
      have destroyed := distinct.mdbDestroy mdb.group
      have hash : (mc.mdbDestroy mdb.group).hash = front ++ todo := by
        unfold Mc.mdbDestroy Mc.mdbUnlink
        rw [Mc.onGroup_eq found isHash before]
        refine First.eraseP_append before ?_
        rw [walkPorts_eq _ (distinct.entries mdb member)]
        exact decide_eq_true rfl
      refine ih ?_ destroyed.distinct hash
      obtain ⟨entry, isEntry, isGroup, here⟩ := has
      refine ⟨entry, ?_, isGroup, here⟩
      rw [isHash] at isEntry
      rw [hash]
      rcases List.mem_append.mp isEntry with inFront | rest
      · exact List.mem_append_left _ inFront
      · rcases List.mem_cons.mp rest with rfl | inTodo
        · obtain ⟨pg, listed, _⟩ := here
          exact absurd (empty ▸ listed) List.not_mem_nil
        · exact List.mem_append_right _ inTodo
    · have walked := @Mc.Distinct.walk _ _ _ _ _ _ _ _ mdb.group _ distinct
        (fun _ => cleanupVisit now (expireTime mdb.group))
        fun _ pg => cleanupVisit_clears now _ pg
      refine @ih _ (front ++
        [(walkPorts (cleanupVisit now (expireTime mdb.group)) (mdb, mc.activeGroupCount)).1])
        ?_ walked.distinct ?_
      · refine @Mc.Has.walk _ _ _ _ _ _ _ _ port group mc fg has distinct
          _ (fun _ => cleanupVisit now (expireTime mdb.group))
          (fun _ pg => cleanupVisit_clears now _ pg) fun _ _ _ sameGroup pg _ _ isFg => ?_
        unfold cleanupVisit
        split
        · rfl
        · rw [sameGroup]
          exact young
      · rw [Mc.onGroup_eq found isHash before, List.append_assoc]
        rfl

/-! ### The deletion of a port -/

/-- What `mc_nbp_change` leaves of the ports of a group: those without members. -/
theorem walkPorts_nbpVisit {account : Account Mac Port Group Addr} (distinct : account.1.Distinct) :
    (walkPorts nbpVisit account).1.group = account.1.group ∧
      (walkPorts nbpVisit account).1.pslist = account.1.pslist.filter fun pg =>
          decide (pg.fslist = []) := by
  rw [walkPorts_eq nbpVisit distinct]
  refine ⟨rfl, ?_⟩
  dsimp only
  induction account.1.pslist with
  | nil => rfl
  | cons pg pslist ih =>
    rw [List.flatMap_cons, ih]
    by_cases empty : pg.fslist = []
    · rw [List.filter_cons_of_pos (by simpa using empty)]
      obtain ⟨port, ageingTimer, fslist⟩ := pg
      obtain rfl : fslist = [] := empty
      rfl
    · rw [List.filter_cons_of_neg (by simpa using empty)]
      simp [nbpVisit, Visit.left, Visit.destroy, empty]

/-- The induction is on the groups to visit. -/
theorem foldl_nbpVisit {front todo : List (MdbEntry Mac Port Group Addr)} (distinct : mc.Distinct)
    (isHash : mc.hash = front ++ todo) :
    ((todo.foldl (fun mc mdb => mc.onGroup mdb.group (walkPorts nbpVisit)) mc).hash.map fun mdb =>
      (mdb.group, mdb.pslist)) =
      front.map (fun mdb => (mdb.group, mdb.pslist)) ++
        todo.map fun mdb => (mdb.group, mdb.pslist.filter fun pg => decide (pg.fslist = [])) := by
  induction todo generalizing mc front with
  | nil =>
    rw [List.foldl_nil, isHash, List.append_nil, List.map_nil, List.append_nil]
  | cons mdb todo ih =>
    have member : mdb ∈ mc.hash := isHash ▸ List.mem_append_right _ List.mem_cons_self
    have before := distinct.before isHash
    have walked := @Mc.Distinct.walk _ _ _ _ _ _ _ _ mdb.group _ distinct
      (fun _ => nbpVisit) fun _ pg => nbpVisit_clears pg
    have hash : (mc.onGroup mdb.group (walkPorts nbpVisit)).hash =
        (front ++ [(walkPorts nbpVisit (mdb, mc.activeGroupCount)).1]) ++ todo := by
      rw [Mc.onGroup_eq (distinct.find member) isHash before, List.append_assoc]
      rfl
    obtain ⟨isGroup, isList⟩ := @walkPorts_nbpVisit _ _ _ _ _ _ _ _ (mdb, mc.activeGroupCount)
      (distinct.entries mdb member)
    rw [List.foldl_cons, ih walked.distinct hash, List.map_append, List.append_assoc, List.map_cons,
      List.map_cons,
      List.map_nil, isGroup, isList]
    rfl

/-- The groups after a port is deleted. -/
theorem Mc.Distinct.nbpChange_groups (distinct : mc.Distinct) (port : Port) :
    ((mc.nbpChange port).hash.map fun mdb => (mdb.group, mdb.pslist)) =
      mc.hash.map fun mdb => (mdb.group, mdb.pslist.filter fun pg => decide (pg.fslist = [])) := by
  have queriers : ({ mc with
      igmpRlist := mc.igmpRlist.filter fun qe => decide (qe.port ≠ port)
      mldRlist := mc.mldRlist.filter fun qe => decide (qe.port ≠ port) } :
          Mc Mac Port Group Addr).Distinct :=
    ⟨distinct.groups, distinct.entries⟩
  exact @foldl_nbpVisit _ _ _ _ _ _ _ _ _ [] _ queriers rfl

theorem foldl_onGroup_queriers (todo : List (MdbEntry Mac Port Group Addr))
    (mc : Mc Mac Port Group Addr) :
    (todo.foldl (fun mc mdb => mc.onGroup mdb.group (walkPorts nbpVisit)) mc).igmpRlist =
    mc.igmpRlist ∧
      (todo.foldl (fun mc mdb => mc.onGroup mdb.group (walkPorts nbpVisit)) mc).mldRlist =
          mc.mldRlist := by
  induction todo generalizing mc with
  | nil => exact ⟨rfl, rfl⟩
  | cons mdb todo ih =>
    have here : (mc.onGroup mdb.group (walkPorts nbpVisit)).igmpRlist = mc.igmpRlist ∧
        (mc.onGroup mdb.group (walkPorts nbpVisit)).mldRlist = mc.mldRlist := by
      unfold Mc.onGroup
      split <;> exact ⟨rfl, rfl⟩
    obtain ⟨igmp, mld⟩ := ih (mc.onGroup mdb.group (walkPorts nbpVisit))
    exact ⟨igmp.trans here.1, mld.trans here.2⟩

theorem filter_eq_filter_iff {α : Type} {p q : α → Bool} {l : List α} :
    l.filter p = l.filter q ↔ ∀ x ∈ l, (p x = true ↔ q x = true) := by
  refine ⟨fun same x member => ⟨fun passes => ?_, fun passes => ?_⟩, fun same => ?_⟩
  · exact (List.mem_filter.mp (same ▸ List.mem_filter.mpr ⟨member, passes⟩)).2
  · exact (List.mem_filter.mp (same ▸ List.mem_filter.mpr ⟨member, passes⟩)).2
  · exact List.filter_congr fun x member => Bool.eq_iff_iff.mpr (same x member)

/-- **The deletion of a port is about that port exactly when its port groups are those with
members.** -/
theorem portGone_iff (distinct : mc.Distinct) :
    PortGone port mc (mc.nbpChange port) ↔ ∀ mdb ∈ mc.hash, ∀ pg ∈ mdb.pslist, pg.fslist ≠ [] ↔
        pg.port = port := by
  have groups := distinct.nbpChange_groups port
  have entry : ∀ mdb : MdbEntry Mac Port Group Addr,
      (mdb.group, mdb.pslist.filter fun pg => decide (pg.fslist = [])) =
        (mdb.group, mdb.pslist.filter fun pg => decide (pg.port ≠ port)) ↔
      ∀ pg ∈ mdb.pslist, pg.fslist ≠ [] ↔ pg.port = port := by
    intro mdb
    rw [Prod.mk.injEq, filter_eq_filter_iff]
    simp only [true_and, decide_eq_true_eq]
    exact forall_congr' fun pg => imp_congr_right fun _ => iff_not_comm.trans iff_comm
  constructor
  · intro gone mdb member
    have same := groups.symm.trans gone.groups
    exact (entry mdb).mp (List.map_inj_left.mp same mdb member)
  · intro only
    obtain ⟨igmp, mld⟩ := foldl_onGroup_queriers mc.hash { mc with
      igmpRlist := mc.igmpRlist.filter fun qe => decide (qe.port ≠ port)
      mldRlist := mc.mldRlist.filter fun qe => decide (qe.port ≠ port) }
    exact ⟨groups.trans (List.map_congr_left fun mdb member => (entry mdb).mpr (only mdb member)),
      igmp, mld⟩

/-! ### Steps and runs -/

/-- Every event but the deletion of a port keeps to its reasons. -/
theorem Snoop.lost_for_reason (distinct : snoop.mc.Distinct) (only : snoop.OnlyPort event)
    (stepped : snoop.step event = some next) (has : snoop.mc.Has group port fg)
    (lost : ¬ next.mc.Listed group port fg.mac) : event.Reason snoop.mc group port fg := by
  cases quiet : event.isQuiet with
  | true => exact absurd (has.listed.of_sameTable (Snoop.sameTable quiet stepped)) lost
  | false =>
    cases event with
    | enter | sources | router | leave | query | queriers | fdbChange | setMaxGroup | start | stop
        | flushEnd =>
      cases quiet
    | update memory within mac' port' now =>
      simp only [Snoop.step] at stepped
      split at stepped
      · cases stepped
      · obtain rfl := Option.some.inj stepped
        by_contra noReason
        refine lost (has.listed.updateMdb distinct fun sameGroup sameMac => ?_)
        by_contra otherPort
        exact noReason ⟨sameGroup, sameMac, otherPort⟩
    | expired within =>
      obtain rfl := Option.some.inj stepped
      by_contra noReason
      refine lost
        (Mc.Has.listed
          (@Mc.Has.walk _ _ _ _ _ _ _ _ _ _ _ _ has distinct _ (fun mdb =>
            expiredVisit mdb.timerBase)
        (fun mdb pg => expiredVisit_clears mdb.timerBase pg)
        fun mdb member isGroup sameGroup pg _ _ _ => ?_))
      by_contra dies
      exact noReason ⟨sameGroup, mdb, member, isGroup, by simpa [expiredVisit] using dies⟩
    | cleanup timeoutGmiEnable now expireTime =>
      obtain rfl := Option.some.inj stepped
      by_contra noReason
      refine lost (Mc.Has.listed ?_)
      dsimp only [Mc.mdbCleanup]
      split
      · rename_i enabled
        refine @Mc.Has.cleanup _ _ _ _ _ _ _ _ _ _ _ _ _ _ [] _ has distinct rfl ?_
        by_contra due
        exact noReason ⟨enabled, by simpa using due⟩
      · exact has
    | nbpChange deleted =>
      obtain ⟨mdb, member, _, pg, listed, isPort, isFg⟩ := has
      exact ((only deleted rfl mdb member pg listed).mp (List.ne_nil_of_mem isFg)).symm.trans isPort
    | flushGroup within =>
      simp only [Snoop.step] at stepped
      split at stepped
      · obtain rfl := Option.some.inj stepped
        exact absurd has.listed lost
      · cases stepped
    | flushStep => exact trivial

theorem Snoop.losesForReason_iff (distinct : snoop.mc.Distinct) : snoop.LosesForReason event ↔
    snoop.OnlyPort event := by
  constructor
  · rintro reason port rfl
    exact (portGone_iff distinct).mp (reason.portGone _ rfl port rfl)
  · intro only
    refine ⟨fun next stepped group port fg has lost =>
      snoop.lost_for_reason distinct only stepped has lost, ?_⟩
    rintro next stepped port rfl
    obtain rfl := Option.some.inj stepped
    exact (portGone_iff distinct).mpr (only port rfl)

/-- Conditions that agree on tables without doubles agree along a run. -/
theorem Snoop.along_iff {meets meets' : Snoop Mac Port Group Addr →
    Event Mac Port Group Addr → Prop}
    (agree : ∀ (snoop : Snoop Mac Port Group Addr) (event : Event Mac Port Group Addr),
      snoop.mc.Distinct →
      (meets snoop event ↔ meets' snoop event)) (distinct : snoop.mc.Distinct) :
    snoop.Along meets events ↔ snoop.Along meets' events := by
  induction events generalizing snoop with
  | nil => exact Iff.rfl
  | cons event events ih =>
    refine and_congr (agree snoop event distinct) (forall_congr' fun next => ?_)
    exact ⟨fun along stepped => (ih (Snoop.step_distinct distinct stepped)).mp (along stepped),
      fun along stepped => (ih (Snoop.step_distinct distinct stepped)).mpr (along stepped)⟩

/-- **Membership is lost for a reason** along a run exactly when every port that is deleted in it is
the only one with members. -/
theorem lost_for_reason_iff (events : List (Event Mac Port Group Addr)) :
    Snoop.init.Along Snoop.LosesForReason events ↔ Snoop.init.Along Snoop.OnlyPort events :=
  Snoop.along_iff (fun _ _ distinct => Snoop.losesForReason_iff distinct) Snoop.init_distinct

/-- A host on port 2, and port 4 is deleted. -/
def otherPortDeleted : List (Event Nat Nat Nat Nat) :=
  [.start, .enter, .update ⟨true, true, true⟩ 7 1 2 0, .nbpChange 4]

/-- The host on port 2 loses its membership. -/
theorem lost_with_other_port :
    ¬ (Snoop.init : Snoop Nat Nat Nat Nat).Along Snoop.LosesForReason otherPortDeleted := by
  rintro ⟨_, along⟩
  obtain ⟨_, along⟩ := along _ rfl
  obtain ⟨_, along⟩ := along _ rfl
  obtain ⟨reasons, _⟩ := along _ rfl
  have groups := (reasons.portGone _ rfl 4 rfl).groups
  exact absurd groups (by decide)

end Qsdk.Multicast
