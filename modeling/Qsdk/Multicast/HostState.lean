/-
**What a host wants.**

`HostTable` is the reception state of a host after the column 'Host State' of the table above
`mc_ipv4_igmp3_report`. `mc_ipv4_filter_source` lets through what the host wants as long as three
things are avoided (`HostList.Matches`): a `BLOCK` before the host has a mode, a `BLOCK` that
empties an include list (an empty list lets everything through), and a list that names a source more
often than a record takes it away.
-/

import Qsdk.Multicast.Record
import Mathlib.Data.Set.Basic

namespace Qsdk.Multicast

variable {Addr : Type} [DecidableEq Addr]

/-- A host's reception state. -/
inductive HostTable (Addr : Type)
  | include (s : Set Addr)
  | exclude (s : Set Addr)

/-- The host wants the source. -/
def HostTable.Wants (host : HostTable Addr) (s : Addr) : Prop :=
  match host with
  | .include set => s ∈ set
  | .exclude set => s ∉ set

/-- The column 'Host State'. -/
def newHostState (host : HostTable Addr) (type : RecordType) (b : Set Addr) : HostTable Addr :=
  match type, host with
  | .modeIsInclude, _ | .changeToInclude, _ => .include b
  | .modeIsExclude, _ | .changeToExclude, _ => .exclude b
  | .allowNewSources, .include a => .include (a ∪ b)
  | .allowNewSources, .exclude x => .exclude (x \ b)
  | .blockOldSources, .include a => .include (a \ b)
  | .blockOldSources, .exclude x => .exclude (x ∪ b)

/-- There is room in the list for what the record adds to it. A record that sets the mode replaces
the list, an `ALLOW` in exclude mode and a `BLOCK` in include mode only take sources off it. -/
def HostList.Room (type : RecordType) (srcs : List Addr) (fg : HostList Addr) : Prop :=
  match type with
  | .modeIsInclude | .changeToInclude | .modeIsExclude | .changeToExclude => True
  | .allowNewSources => fg.filterMode ≠ some .isExclude →
    (unionSource fg.a srcs).length ≤ srcGroupMax
  | .blockOldSources => fg.filterMode = some .isExclude →
    (unionSource fg.a srcs).length ≤ srcGroupMax

/-- The record names sources, and no list is cut off by it. -/
def HostList.Fits (type : RecordType) (srcs : List Addr) (fg : HostList Addr) : Prop :=
  srcs ≠ [] ∧ srcs.length ≤ srcGroupMax ∧ fg.Room type srcs

/-- The condition under which the host's list stays right. -/
def HostList.Matches (type : RecordType) (srcs : List Addr) (fg : HostList Addr) : Prop :=
  match type, fg.filterMode with
  | .blockOldSources, none => False
  | .blockOldSources, some .isInclude => TakenAway fg.a srcs ∧ ∃ s ∈ fg.a, s ∉ srcs
  | .allowNewSources, some .isExclude => TakenAway fg.a srcs
  | _, _ => True

/-- The list lets through exactly what the host wants. -/
def HostList.Exact (fg : HostList Addr) (host : HostTable Addr) : Prop :=
  ∀ s, fg.filterSource s = true ↔ host.Wants s

/-- The list is the host's state: before the first record the host wants nothing. -/
inductive HostList.Tracks : HostList Addr → HostTable Addr → Prop
  | new : Tracks ⟨none, []⟩ (.include ∅)
  | include {a : List Addr} {set : Set Addr} : a ≠ [] → (∀ s, s ∈ a ↔ s ∈ set) →
      Tracks ⟨some .isInclude, a⟩ (.include set)
  | exclude {a : List Addr} {set : Set Addr} : (∀ s, s ∈ a ↔ s ∈ set) →
    Tracks ⟨some .isExclude, a⟩ (.exclude set)

variable {fg : HostList Addr} {host : HostTable Addr} {srcs a b : List Addr} {set : Set Addr}
    {type : RecordType}

/-! ### What a list lets through -/

theorem filterSource_include (hasSources : a ≠ []) (s : Addr) :
    HostList.filterSource ⟨some .isInclude, a⟩ s = true ↔ s ∈ a := by
  simp [HostList.filterSource, hasSources]

theorem filterSource_exclude (s : Addr) : HostList.filterSource ⟨some .isExclude, a⟩ s = true ↔
    s ∉ a := by
  by_cases isNil : a = [] <;> simp [HostList.filterSource, isNil]

theorem exact_include (hasSources : a ≠ []) :
    HostList.Exact ⟨some .isInclude, a⟩ (.include set) ↔ ∀ s, s ∈ a ↔ s ∈ set :=
  forall_congr' fun s => by rw [filterSource_include hasSources]; rfl

theorem exact_exclude : HostList.Exact ⟨some .isExclude, a⟩ (.exclude set) ↔ ∀ s, s ∈ a ↔ s ∈ set :=
  forall_congr' fun s => by
    rw [filterSource_exclude]
    exact not_iff_not

/-- **An empty list lets everything through**, whatever its mode. -/
theorem not_exact_of_nil {mode : Option FilterMode} {s : Addr} (unwanted : ¬ host.Wants s) :
    ¬ HostList.Exact ⟨mode, []⟩ host :=
  fun exact => unwanted ((exact s).mp (by simp [HostList.filterSource]))

theorem grecSources_of_fits (fits : fg.Fits type srcs) : grecSources srcs = srcs :=
    List.take_of_length_le fits.2.1

/-! ### One record -/

/-- A record that sets the mode. -/
theorem replaced_exact (fits : fg.Fits type srcs) (mode : FilterMode) :
    sourceListUpdate fg srcs (.mode mode) = ⟨some mode, srcs⟩ := by
  unfold sourceListUpdate
  rw [List.take_of_length_le fits.2.1]

/-- Sources taken off a list, against the same sources taken off the host's state. -/
theorem sub_iff (same : ∀ s, s ∈ a ↔ s ∈ set) :
    (∀ s, s ∈ subSource a srcs ↔ s ∈ set \ { t | t ∈ srcs }) ↔ TakenAway a srcs := by
  rw [← subSource_right_iff]
  exact forall_congr' fun s => iff_congr Iff.rfl (and_congr_left' (same s).symm)

/-- Sources added to a list, against the same sources added to the host's state. -/
theorem add_iff (fits : (unionSource a srcs).length ≤ srcGroupMax) (same : ∀ s, s ∈ a ↔ s ∈ set)
    (s : Addr) :
    s ∈ addSource srcGroupMax a srcs ↔ s ∈ set ∪ { t | t ∈ srcs } := by
  rw [mem_addSource fits, same]
  rfl

theorem addSource_ne_nil (hasSources : srcs ≠ [])
    (fits : (unionSource a srcs).length ≤ srcGroupMax) :
    addSource srcGroupMax a srcs ≠ [] := by
  obtain ⟨s, member⟩ := List.exists_mem_of_ne_nil srcs hasSources
  exact List.ne_nil_of_mem ((mem_addSource fits).mpr (.inr member))

/-- `mc_source_list_update` is called so for a record of the host. -/
theorem record_fg {version : Version} {filterEnable : Bool} (fits : fg.Fits type srcs)
    (mdb : RouterState Addr) :
    (record version filterEnable type srcs fg mdb).fg =
      match type with
      | .modeIsInclude | .changeToInclude => sourceListUpdate fg srcs (.mode .isInclude)
      | .modeIsExclude | .changeToExclude => sourceListUpdate fg srcs (.mode .isExclude)
      | .allowNewSources => sourceListUpdate fg srcs .allow
      | .blockOldSources => if fg.filterMode = none then fg else
          sourceListUpdate fg srcs .block := by
  have grec := grecSources_of_fits fits
  cases type <;> simp [record, includeRecord, excludeRecord, allowRecord, blockRecord, grec, fits.1]

/-- **One record**: the list lets through what the host wants afterwards exactly under the
condition, and then it is the host's state again. -/
theorem HostList.Tracks.record {version : Version} {filterEnable : Bool} (tracks : fg.Tracks host)
    (fits : fg.Fits type srcs) (mdb : RouterState Addr) :
    ((record version filterEnable type srcs fg mdb).fg.Exact
      (newHostState host type { s | s ∈ srcs }) ↔
      fg.Matches type srcs) ∧
    (fg.Matches type srcs →
      (record version filterEnable type srcs fg mdb).fg.Tracks
          (newHostState host type { s | s ∈ srcs })) := by
  obtain ⟨t, isSource⟩ := List.exists_mem_of_ne_nil srcs fits.1
  rw [record_fg fits]
  -- a record that sets the mode says all there is to say
  have including : (sourceListUpdate fg srcs (.mode .isInclude)).Tracks
      (.include { s | s ∈ srcs }) := by
    rw [replaced_exact fits]
    exact .include fits.1 fun _ => Iff.rfl
  have excluding : (sourceListUpdate fg srcs (.mode .isExclude)).Tracks
      (.exclude { s | s ∈ srcs }) := by
    rw [replaced_exact fits]
    exact .exclude fun _ => Iff.rfl
  have exact : ∀ {fg : HostList Addr} {host : HostTable Addr}, fg.filterMode ≠ none →
    fg.Tracks host →
      fg.Exact host := by
    rintro _ _ hasMode (_ | ⟨hasSources, same⟩ | ⟨same⟩)
    · exact absurd rfl hasMode
    · exact (exact_include hasSources).mpr same
    · exact exact_exclude.mpr same
  cases type with
  | modeIsInclude | changeToInclude =>
    exact ⟨iff_of_true (exact (by simp [sourceListUpdate]) including) (by cases tracks <;> trivial),
      fun _ => including⟩
  | modeIsExclude | changeToExclude =>
    exact ⟨iff_of_true (exact (by simp [sourceListUpdate]) excluding) (by cases tracks <;> trivial),
      fun _ => excluding⟩
  | allowNewSources =>
    cases tracks with
    | new =>
      have added : (sourceListUpdate ⟨none, []⟩ srcs .allow).Tracks
          (.include (∅ ∪ { s | s ∈ srcs })) :=
        have room := fits.2.2 (by simp)
        .include (addSource_ne_nil fits.1 room) (add_iff room fun s => by simp)
      exact ⟨iff_of_true (exact (by simp [sourceListUpdate]) added) trivial, fun _ => added⟩
    | «include» hasSources same =>
      have room := fits.2.2 (by simp)
      have added := HostList.Tracks.include (addSource_ne_nil fits.1 room) (add_iff room same)
      exact ⟨iff_of_true (exact (by simp [sourceListUpdate]) added) trivial, fun _ => added⟩
    | exclude same =>
      refine ⟨exact_exclude.trans (sub_iff same), fun taken => .exclude ((sub_iff same).mpr taken)⟩
  | blockOldSources =>
    cases tracks with
    | new =>
      have unwanted : ¬ (newHostState (.include ∅) .blockOldSources { s | s ∈ srcs }).Wants t := by
        simp [newHostState, HostTable.Wants]
      exact ⟨iff_of_false (not_exact_of_nil unwanted) id, False.elim⟩
    | @«include» a set hasSources same =>
      have left : subSource a srcs ≠ [] → TakenAway a srcs → ∃ s ∈ a, s ∉ srcs := by
        intro notNil taken
        obtain ⟨s, member⟩ := List.exists_mem_of_ne_nil _ notNil
        exact ⟨s, (subSource_right_iff.mpr taken s).mp member⟩
      by_cases emptied : subSource a srcs = []
      · -- the list is empty now, and lets the blocked source through
        have unwanted :
            ¬ (newHostState (.include set) .blockOldSources { s | s ∈ srcs }).Wants t := by
          simp [newHostState, HostTable.Wants, isSource]
        have none : ¬ ∃ s ∈ a, s ∉ srcs := by
          rintro ⟨s, member, absent⟩
          exact List.not_mem_nil (emptied ▸ mem_subSource_of_not_mem member absent)
        refine ⟨iff_of_false ?_ fun both => none both.2, fun both => absurd both.2 none⟩
        show ¬ HostList.Exact ⟨some .isInclude, subSource a srcs⟩ _
        rw [emptied]
        exact not_exact_of_nil unwanted
      · have taken := (@exact_include _ _ _ (set \ { s | s ∈ srcs }) emptied).trans (sub_iff same)
        exact ⟨⟨fun exact => ⟨taken.mp exact, left emptied (taken.mp exact)⟩, fun both =>
          taken.mpr both.1⟩,
          fun both => .include emptied ((sub_iff same).mpr both.1)⟩
    | exclude same =>
      have added := HostList.Tracks.exclude (add_iff (fits.2.2 rfl) same)
      exact ⟨iff_of_true (exact (by simp [sourceListUpdate]) added) trivial, fun _ => added⟩

/-! ### Sequences of records -/

/-- A record of the host, and the router's state it arrives in. -/
structure HostRecord (Addr : Type) where
  type : RecordType
  srcs : List Addr
  mdb : RouterState Addr

section Sequences

variable (version : Version) (filterEnable : Bool)

/-- The host's list after a record. -/
def HostList.after (fg : HostList Addr) (arrival : HostRecord Addr) : HostList Addr :=
  (record version filterEnable arrival.type arrival.srcs fg arrival.mdb).fg

/-- A statement about each record of a host, the list it arrives in, and the host's state before. -/
def HostList.Along (meets : HostList Addr → HostTable Addr → HostRecord Addr → Prop)
    (fg : HostList Addr) (host : HostTable Addr) : List (HostRecord Addr) → Prop
  | [] => True
  | arrival :: arrivals => meets fg host arrival ∧
      HostList.Along meets (fg.after version filterEnable arrival)
        (newHostState host arrival.type { s | s ∈ arrival.srcs }) arrivals

/-- After the record the list lets through exactly what the host wants. -/
def HostList.ExactAfter (fg : HostList Addr) (host : HostTable Addr) (arrival : HostRecord Addr) :
    Prop :=
  (fg.after version filterEnable arrival).Exact
    (newHostState host arrival.type { s | s ∈ arrival.srcs })

theorem HostList.Tracks.along_iff {arrivals : List (HostRecord Addr)} (tracks : fg.Tracks host)
    (fits : fg.Along version filterEnable (fun fg _ arrival => fg.Fits arrival.type arrival.srcs)
        host arrivals) :
    fg.Along version filterEnable (ExactAfter version filterEnable) host arrivals ↔
      fg.Along version filterEnable (fun fg _ arrival => fg.Matches arrival.type arrival.srcs) host
          arrivals := by
  induction arrivals generalizing fg host with
  | nil => exact Iff.rfl
  | cons arrival arrivals ih =>
    obtain ⟨exact, further⟩ :=
      @HostList.Tracks.record _ _ _ _ _ arrival.type version filterEnable tracks fits.1 arrival.mdb
    constructor
    · rintro ⟨here, rest⟩
      have meets := exact.mp here
      exact ⟨meets, (ih (further meets) fits.2).mp rest⟩
    · rintro ⟨meets, rest⟩
      exact ⟨exact.mpr meets, (ih (further meets) fits.2).mpr rest⟩

/-- **The snooping table lets through what a host wants, after every record of any sequence, exactly
when every record meets the condition.** -/
theorem host_exact_iff {arrivals : List (HostRecord Addr)}
    (fits : HostList.Along version filterEnable
      (fun fg _ arrival => fg.Fits arrival.type arrival.srcs) ⟨none, []⟩ (.include ∅)
      arrivals) :
    HostList.Along version filterEnable (HostList.ExactAfter version filterEnable) ⟨none, []⟩
    (.include ∅) arrivals ↔
      HostList.Along version filterEnable (fun fg _ arrival => fg.Matches arrival.type arrival.srcs)
      ⟨none, []⟩
        (.include ∅) arrivals :=
  HostList.Tracks.along_iff version filterEnable .new fits

end Sequences

/-- A host asks for source 1 and then takes it back. -/
def takenBack : List (HostRecord Nat) :=
  [⟨.allowNewSources, [1], .new⟩, ⟨.blockOldSources, [1], ⟨some .isInclude, [1], []⟩⟩]

/-- **An emptied include list lets everything through.** -/
theorem host_not_exact :
    HostList.Along .igmp3 false (fun fg _ arrival => fg.Fits arrival.type arrival.srcs) ⟨none, []⟩
    (.include ∅) takenBack ∧
      ¬ HostList.Along .igmp3 false (HostList.ExactAfter .igmp3 false) ⟨none, []⟩
          (.include ∅) takenBack := by
  refine ⟨⟨⟨by decide, by decide, fun _ => by decide⟩,
    ⟨by decide, by decide, fun excluding => by cases excluding⟩,
    trivial⟩, ?_⟩
  rintro ⟨_, exact, _⟩
  have wanted := (exact 1).mp (by decide)
  simp [newHostState, HostTable.Wants] at wanted

/-- The host asks for two sources and takes one back. -/
theorem host_exact_iff_two :
    HostList.Along .mld2 true (HostList.ExactAfter .mld2 true) ⟨none, []⟩ (.include ∅)
      [⟨.allowNewSources, [(1 : Nat), 2], .new⟩, ⟨.blockOldSources, [1], .new⟩] := by
  have fits : HostList.Along .mld2 true (fun fg _ arrival => fg.Fits arrival.type arrival.srcs)
    ⟨none, []⟩ (.include ∅)
      [⟨.allowNewSources, [(1 : Nat), 2], .new⟩, ⟨.blockOldSources, [1], .new⟩] :=
    ⟨⟨by decide, by decide, fun _ => by decide⟩,
      ⟨by decide, by decide, fun excluding => by cases excluding⟩, trivial⟩
  refine (host_exact_iff .mld2 true fits).mpr ⟨trivial, ⟨?_, 2, ?_, ?_⟩, trivial⟩
  · exact fun s member => by
      rw [List.mem_singleton.mp member]
      decide
  · decide
  · decide

end Qsdk.Multicast
