/-
**The leave filter.**

With `m2i3_filter_enable` set, `mc_ipv4_igmp3_report` and `mc_ipv6_mld2_report` take off a report
what some other member of the group still wants. A leave record goes off when the group has users,
and the host that leaves is one of them until the leave delay has passed; a source goes off when
some list lets it through, that of the reporting host included, and a list that a `BLOCK` has
emptied lets everything through. So the filter hides a last leave (`last_leave_hidden`), and it
hides none exactly under `RecordAllowed` (`never_hides_iff`).
-/

import Qsdk.Multicast.Snooping

set_option linter.unusedSectionVars false

namespace Qsdk.Multicast

variable {Mac Port Group Addr : Type} [DecidableEq Mac] [DecidableEq Port] [DecidableEq Group]
    [DecidableEq Addr]

/-! ### Reports -/

/-- The members of a group. -/
def MdbEntry.hosts (mdb : MdbEntry Mac Port Group Addr) : List (FdbGroup Mac Addr) :=
    mdb.pslist.flatMap (·.fslist)

/-- Some member's list lets the source through. -/
def MdbEntry.letsThrough (mdb : MdbEntry Mac Port Group Addr) (s : Addr) : Bool :=
  mdb.hosts.any fun fg => fg.list.filterSource s

/-- `mc_ipv4_source_list_filter`, `mc_ipv6_source_list_filter`: the sources that stay. Only the
first looks at their number. -/
def sourceListFilter (version : Version) (mdb : MdbEntry Mac Port Group Addr)
    (srcs checkSrcs : List Addr) : List Addr :=
  if version = .igmp3 ∧ rtSrcMax < srcs.length then srcs
  else srcs.filter fun s => !(decide (s ∈ checkSrcs) && mdb.letsThrough s)

/-- A group record, and what the processing of it meets. -/
structure GroupRecord (Group Addr : Type) where
  type : Nat
  group : Group
  srcs : List Addr
  memory : Mc.Memory
  now : Jiffies
  leaveTimer : Jiffies

/-- The member of a group on a port. -/
def Mc.member (mc : Mc Mac Port Group Addr) (group : Group) (port : Port) (mac : Mac) :
    Option (MdbEntry Mac Port Group Addr × FdbGroup Mac Addr) := do
  let mdb ← mc.find group
  let pg ← mdb.pslist.find? fun pg => decide (pg.port = port)
  let fg ← pg.fslist.find? fun fg => decide (fg.mac = mac)
  pure (mdb, fg)

/-- Who reports: the protocol, the host, its port, and the groups that are snooped (not those of
local scope, nor those with a rule of the access list against it). -/
structure Reporter (Mac Port Group : Type) where
  version : Version
  mac : Mac
  port : Port
  snooped : Group → Bool

/-- The table after a record, what the leave filter is asked, and whether the host leaves. -/
structure Processed (Mac Port Group Addr : Type) where
  mc : Mc Mac Port Group Addr
  check : Check Addr
  leaves : Bool

/-- The record, as far as the table is concerned. -/
def Mc.process (mc : Mc Mac Port Group Addr) (host : Reporter Mac Port Group)
    (grec : GroupRecord Group Addr) :
    Processed Mac Port Group Addr :=
  if !host.snooped grec.group then ⟨mc, .keep, false⟩
  else
    let updated := mc.updateMdb grec.memory grec.group host.mac host.port grec.now
    match updated.2, updated.1.member grec.group host.port host.mac,
        RecordType.ofCode grec.type with
    | true, some (mdb, fg), some type =>
      let outcome := record host.version true type grec.srcs fg.list mdb.state
      let mc := updated.1.onMember grec.group host.port host.mac fun fg =>
        { fg with list := outcome.fg }
      let mc := mc.onState grec.group fun mdb => { mdb with state := outcome.mdb }
      ⟨if outcome.leaves then mc.leaveGroup grec.group host.mac host.port grec.leaveTimer else mc,
        outcome.check,
        outcome.leaves⟩
    | _, _, _ => ⟨updated.1, .keep, false⟩

/-- What is left of a record of the group: `none` when it goes off whole. -/
def Mc.leaveFilter (mc : Mc Mac Port Group Addr) (version : Version) (group : Group)
    (srcs : List Addr) (check : Check Addr) : Option (List Addr) :=
  match mc.find group, check with
  | none, _ => some srcs
  | _, .keep => some srcs
  | some mdb, .whole => if mdb.users = 0 then some srcs else none
  | some mdb, .sources checkSrcs =>
    let left := sourceListFilter version mdb srcs checkSrcs
    if left.length = srcs.length then some srcs else if left = [] then none else some left

/-- What is left of each record of a report, and the table after it. -/
def Mc.report (mc : Mc Mac Port Group Addr) (host : Reporter Mac Port Group) :
    List (GroupRecord Group Addr) → Mc Mac Port Group Addr × List
    (GroupRecord Group Addr × Option (List Addr))
  | [] => (mc, [])
  | grec :: grecs =>
    let processed := mc.process host grec
    let rest := processed.mc.report host grecs
    (rest.1, (grec, processed.mc.leaveFilter host.version grec.group grec.srcs processed.check) ::
      rest.2)

/-- The report that is forwarded. A report that has lost every record is dropped
(`mc_ipv4_skb_rebuild`). -/
def forwarded (records : List (GroupRecord Group Addr × Option (List Addr))) :
    Option (List (GroupRecord Group Addr)) :=
  let left := records.filterMap fun place => place.2.map fun srcs => { place.1 with srcs := srcs }
  if records ≠ [] ∧ left = [] then none else some left

/-! ### What the members want -/

/-- The sources that a member wants. A host of an older version has no list, and wants them all. -/
def HostList.WantsSource (list : HostList Addr) (s : Addr) : Prop :=
  match list.filterMode with
  | none => True
  | some .isInclude => s ∈ list.a
  | some .isExclude => s ∉ list.a

/-- A member wants the group unless it includes nothing. -/
def HostList.WantsGroup (list : HostList Addr) : Prop :=
    ¬ (list.filterMode = some .isInclude ∧ list.a = [])

/-- Another member than the host, one that has not left itself, wants something. -/
def MdbEntry.OtherWants (mdb : MdbEntry Mac Port Group Addr) (leaving : Mac → Prop) (mac : Mac)
    (wants : HostList Addr → Prop) : Prop :=
  ∃ fg ∈ mdb.hosts, fg.mac ≠ mac ∧ ¬ leaving fg.mac ∧ wants fg.list

/-- Another member of the group of the table. -/
def Mc.OtherWants (mc : Mc Mac Port Group Addr) (group : Group) (leaving : Mac → Prop) (mac : Mac)
    (wants : HostList Addr → Prop) : Prop :=
  ∃ mdb, mc.find group = some mdb ∧ mdb.OtherWants leaving mac wants

/-- A leave record goes off only if another member wants the group, a source only if another member
wants the source. -/
structure Mc.RecordSafe (mc : Mc Mac Port Group Addr) (group : Group)
    (leaving : Mac → Prop) (mac : Mac) (srcs : List Addr) (left : Option (List Addr)) : Prop where
  leave : srcs = [] → left = none → mc.OtherWants group leaving mac HostList.WantsGroup
  sources : ∀ s ∈ srcs, (∀ stay, left = some stay → s ∉ stay) →
    mc.OtherWants group leaving mac fun list => list.WantsSource s

/-- Neither the host's own list, nor that of a member that has left, nor an empty include list lets
the source through. -/
def MdbEntry.NoneLets (mdb : MdbEntry Mac Port Group Addr) (leaving : Mac → Prop) (mac : Mac)
    (s : Addr) : Prop :=
  ∀ fg ∈ mdb.hosts, (fg.mac = mac ∨ leaving fg.mac → fg.list.filterSource s = false) ∧
    (fg.mac ≠ mac → fg.list.WantsGroup)

/-- The condition under which the filter hides nothing of a record. -/
def MdbEntry.RecordAllowed (mdb : MdbEntry Mac Port Group Addr) (version : Version)
    (leaving : Mac → Prop) (mac : Mac) (srcs : List Addr) : Check Addr → Prop
  | .keep => True
  | .whole => mdb.users = 0 ∨ mdb.OtherWants leaving mac HostList.WantsGroup
  | .sources checkSrcs => version = .igmp3 ∧ rtSrcMax < srcs.length ∨ ∀ s ∈ srcs, s ∈ checkSrcs →
      (mdb.OtherWants leaving mac fun list => list.WantsSource s) ∨ mdb.NoneLets leaving mac s

/-- Who has left a group, and is kept for the leave delay, after a record. -/
def leavingAfter (host : Reporter Mac Port Group) (grec : GroupRecord Group Addr) (leaves : Bool)
    (leaving : Group → Mac → Prop) : Group → Mac → Prop :=
  fun group mac => if group = grec.group ∧ mac = host.mac ∧
    host.snooped group = true then leaves = true
    else leaving group mac

/-- Nothing of the report is hidden that another member does not want. -/
def Mc.ReportSafe (mc : Mc Mac Port Group Addr) (host : Reporter Mac Port Group)
    (leaving : Group → Mac → Prop) :
    List (GroupRecord Group Addr) → Prop
  | [] => True
  | grec :: grecs =>
    let processed := mc.process host grec
    let after := leavingAfter host grec processed.leaves leaving
    processed.mc.RecordSafe grec.group (after grec.group) host.mac grec.srcs
        (processed.mc.leaveFilter host.version grec.group grec.srcs processed.check) ∧
      processed.mc.ReportSafe host after grecs

/-- The condition at every record of a report, in the table that the filter finds. -/
def Mc.ReportAllowed (mc : Mc Mac Port Group Addr) (host : Reporter Mac Port Group)
    (leaving : Group → Mac → Prop) :
    List (GroupRecord Group Addr) → Prop
  | [] => True
  | grec :: grecs =>
    let processed := mc.process host grec
    let after := leavingAfter host grec processed.leaves leaving
    (∀ mdb, processed.mc.find grec.group = some mdb →
        mdb.RecordAllowed host.version (after grec.group) host.mac grec.srcs processed.check) ∧
      processed.mc.ReportAllowed host after grecs

/-! ### What the filter takes off -/

variable {mc : Mc Mac Port Group Addr} {mdb : MdbEntry Mac Port Group Addr} {group : Group}
    {leaving : Mac → Prop}
  {mac : Mac} {srcs checkSrcs : List Addr} {version : Version} {s : Addr}

theorem Mc.otherWants_iff (found : mc.find group = some mdb) {wants : HostList Addr → Prop} :
    mc.OtherWants group leaving mac wants ↔ mdb.OtherWants leaving mac wants := by
  unfold Mc.OtherWants
  rw [found]
  exact ⟨fun ⟨_, same, other⟩ => Option.some.inj same ▸ other, fun other => ⟨mdb, rfl, other⟩⟩

theorem HostList.wantsSource_of_filterSource {list : HostList Addr} (wantsGroup : list.WantsGroup)
    (lets : list.filterSource s = true) : list.WantsSource s := by
  obtain ⟨filterMode, a⟩ := list
  unfold HostList.filterSource at lets
  unfold HostList.WantsSource
  unfold HostList.WantsGroup at wantsGroup
  cases filterMode with
  | none => trivial
  | some mode =>
    cases mode with
    | isInclude =>
      split at lets
      · rename_i empty
        exact absurd ⟨rfl, empty⟩ wantsGroup
      · exact of_decide_eq_true lets
    | isExclude =>
      split at lets
      · rename_i empty
        dsimp only at empty ⊢
        rw [empty]
        exact List.not_mem_nil
      · exact of_decide_eq_true lets

theorem HostList.filterSource_of_not_wantsGroup {list : HostList Addr} (empty : ¬ list.WantsGroup)
    (s : Addr) :
    list.filterSource s = true := by
  unfold HostList.filterSource
  rw [if_pos (not_not.mp empty).2]

/-- **A source that is let through is wanted by another member** exactly under the condition. -/
theorem lets_iff :
    (mdb.letsThrough s = true → mdb.OtherWants leaving mac fun list => list.WantsSource s) ↔
      (mdb.OtherWants leaving mac fun list => list.WantsSource s) ∨ mdb.NoneLets leaving mac s := by
  constructor
  · intro wanted
    by_cases lets : mdb.letsThrough s = true
    · exact .inl (wanted lets)
    · refine .inr fun fg member => ?_
      have blocked : ¬ fg.list.filterSource s = true := fun passes =>
        lets (List.any_eq_true.mpr ⟨fg, member, passes⟩)
      refine ⟨fun _ => Bool.eq_false_iff.mpr blocked, fun _ => ?_⟩
      by_contra empty
      exact blocked (HostList.filterSource_of_not_wantsGroup empty s)
  · rintro (wanted | noneLets) lets
    · exact wanted
    · obtain ⟨fg, member, passes⟩ := List.any_eq_true.mp lets
      obtain ⟨blocked, wantsGroup⟩ := noneLets fg member
      have open' : ¬ (fg.mac = mac ∨ leaving fg.mac) := fun either => by
        simp [blocked either] at passes
      obtain ⟨isOther, stays⟩ := not_or.mp open'
      exact ⟨fg, member, isOther, stays, HostList.wantsSource_of_filterSource
        (wantsGroup isOther) passes⟩

/-- What the filter is asked about is let through by nobody, or stays off. -/
theorem not_mem_sourceListFilter (member : s ∈ srcs) :
    s ∉ sourceListFilter version mdb srcs checkSrcs ↔
      ¬ (version = .igmp3 ∧ rtSrcMax < srcs.length) ∧ s ∈ checkSrcs ∧ mdb.letsThrough s = true := by
  unfold sourceListFilter
  split
  · rename_i long
    exact ⟨fun gone => absurd member gone, fun ⟨short, _⟩ => absurd long short⟩
  · rename_i short
    simp [List.mem_filter, member, short]

theorem sourceListFilter_sublist (version : Version) (mdb : MdbEntry Mac Port Group Addr)
    (srcs checkSrcs : List Addr) :
    (sourceListFilter version mdb srcs checkSrcs).Sublist srcs := by
  unfold sourceListFilter
  split
  · exact List.Sublist.refl _
  · exact List.filter_sublist

/-- Whichever way a record goes, the sources that are gone are those that do not stay. -/
theorem gone_iff {left : List Addr} (fewer : left.Sublist srcs) :
    (∀ stay, (if left.length = srcs.length then some srcs else if left =
      [] then none else some left) = some stay →
      s ∉ stay) ↔ s ∉ left := by
  split
  · rename_i same
    rw [fewer.eq_of_length same]
    exact ⟨fun gone => gone srcs rfl, fun gone stay isStay => Option.some.inj isStay ▸ gone⟩
  · split
    · rename_i empty
      rw [empty]
      exact ⟨fun _ => List.not_mem_nil, fun _ stay isStay => (nomatch isStay)⟩
    · exact ⟨fun gone => gone left rfl, fun gone stay isStay => Option.some.inj isStay ▸ gone⟩

/-- **One record**, as the filter finds its group. -/
theorem recordSafe_iff (found : mc.find group = some mdb) {check : Check Addr}
    (isLeave : check = .whole → srcs = []) :
    mc.RecordSafe group leaving mac srcs (mc.leaveFilter version group srcs check) ↔
      mdb.RecordAllowed version leaving mac srcs check := by
  have kept : mc.RecordSafe group leaving mac srcs (some srcs) :=
    ⟨fun _ gone => (nomatch gone), fun s member gone => absurd member (gone srcs rfl)⟩
  unfold Mc.leaveFilter
  rw [found]
  cases check with
  | keep => exact ⟨fun _ => trivial, fun _ => kept⟩
  | whole =>
    obtain rfl := isLeave rfl
    dsimp only [MdbEntry.RecordAllowed]
    split
    · rename_i noUsers
      exact ⟨fun _ => .inl noUsers, fun _ => kept⟩
    · rename_i hasUsers
      rw [or_iff_right hasUsers, ← Mc.otherWants_iff found]
      exact ⟨fun safe => safe.leave rfl rfl, fun wanted =>
        ⟨fun _ _ => wanted, fun s member => absurd member List.not_mem_nil⟩⟩
  | sources checkSrcs =>
    dsimp only [MdbEntry.RecordAllowed]
    have fewer := sourceListFilter_sublist version mdb srcs checkSrcs
    have gone : ∀ s ∈ srcs, _ := fun s member => (gone_iff fewer (s := s)).trans
      (not_mem_sourceListFilter member)
    constructor
    · intro safe
      refine or_iff_not_imp_left.mpr fun short s member asked => lets_iff.mp fun lets => ?_
      exact (Mc.otherWants_iff found).mp
        (safe.sources s member ((gone s member).mpr ⟨short, asked, lets⟩))
    · intro allowed
      refine ⟨fun isNil left => ?_, fun s member left => (Mc.otherWants_iff found).mpr ?_⟩
      · rw [isNil] at fewer left
        rw [List.sublist_nil.mp fewer, if_pos rfl] at left
        cases left
      · obtain ⟨short, asked, lets⟩ := (gone s member).mp left
        exact lets_iff.mpr ((or_iff_right short).mp allowed s member asked) lets

/-- Only a leave record is to go off whole. -/
theorem record_whole {filterEnable : Bool} {type : RecordType} {fg : HostList Addr}
    {state : RouterState Addr} (whole : (record version filterEnable type srcs fg state).check =
        .whole) : srcs = [] := by
  have asked : ∀ (unasked : Bool) (checkSrcs : List Addr),
      (if unasked then Check.keep else .sources checkSrcs) ≠ .whole := by
    intro unasked checkSrcs whole
    split at whole <;> cases whole
  have included : ∀ changes, (includeRecord version filterEnable changes srcs fg state).check =
      .whole → srcs = [] := by
    intro changes whole
    unfold includeRecord at whole
    split at whole
    · assumption
    · exact absurd whole (asked _ _)
  have excluded : ∀ changes, (excludeRecord filterEnable changes srcs fg state).check ≠ .whole :=
    fun _ => asked _ _
  cases type with
  | modeIsInclude => exact included false whole
  | changeToInclude => exact included true whole
  | modeIsExclude => exact absurd whole (excluded false)
  | changeToExclude => exact absurd whole (excluded true)
  | allowNewSources => cases whole
  | blockOldSources =>
    simp only [record, blockRecord] at whole
    split at whole <;> cases whole

theorem process_whole (host : Reporter Mac Port Group) (grec : GroupRecord Group Addr)
    (whole : (mc.process host grec).check = .whole) : grec.srcs = [] := by
  unfold Mc.process at whole
  split at whole
  · cases whole
  · dsimp only at whole
    split at whole
    · exact record_whole whole
    · cases whole

/-- A record of a group that the table does not have stays. -/
theorem recordSafe_of_none (notFound : mc.find group = none) (check : Check Addr) :
    mc.RecordSafe group leaving mac srcs (mc.leaveFilter version group srcs check) := by
  unfold Mc.leaveFilter
  rw [notFound]
  exact ⟨fun _ gone => (nomatch gone), fun s member gone => absurd member (gone srcs rfl)⟩

/-- **The filter hides nothing of a report** exactly under the condition. The induction is on the
records, the table is that before each. -/
theorem never_hides_iff (mc : Mc Mac Port Group Addr) (host : Reporter Mac Port Group)
    (leaving : Group → Mac → Prop) (grecs : List (GroupRecord Group Addr)) :
        mc.ReportSafe host leaving grecs ↔ mc.ReportAllowed host leaving grecs := by
  induction grecs generalizing mc leaving with
  | nil => exact Iff.rfl
  | cons grec grecs ih =>
    refine and_congr ?_ (ih _ _)
    cases found : (mc.process host grec).mc.find grec.group with
    | none =>
      exact ⟨fun _ _ wrong => (nomatch wrong), fun _ => recordSafe_of_none found _⟩
    | some mdb =>
      rw [recordSafe_iff found (process_whole host grec)]
      exact ⟨fun allowed _ same => Option.some.inj same ▸ allowed, fun allowed => allowed mdb rfl⟩

/-- Host 1 on port 2, the only member of group 7. -/
def onlyMember : List (Event Nat Nat Nat Nat) :=
    [.start, .enter, .update ⟨true, true, true⟩ 7 1 2 0]

/-- It reports that it includes no source of the group any more. -/
def lastLeave : GroupRecord Nat Nat := ⟨3, 7, [], ⟨true, true, true⟩, 0, 0⟩

/-- **A hidden last leave.** The record of the only member is taken off, and with it the report. -/
theorem last_leave_hidden :
    ∃ snoop, Snoop.init.run onlyMember = some snoop ∧
      forwarded (snoop.mc.report ⟨.igmp3, 1, 2, fun _ => true⟩ [lastLeave]).2 = none ∧
      ¬ snoop.mc.ReportSafe ⟨.igmp3, 1, 2, fun _ => true⟩ (fun _ _ => False) [lastLeave] := by
  refine ⟨_, rfl, rfl, fun safe => ?_⟩
  obtain ⟨_, found, fg, member, isOther, _⟩ := safe.1.leave rfl rfl
  obtain rfl := Option.some.inj found
  exact isOther (by rw [List.mem_singleton.mp member])

end Qsdk.Multicast
