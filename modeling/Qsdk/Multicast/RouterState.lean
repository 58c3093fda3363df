/-
**The router state against its table.**

`RouterTable` is the state of the router-state table in the comment above `mc_ipv4_igmp3_report`, on
sets, and `newRouterState` its column 'New Router State'. The code follows a row exactly where the
condition `Follows` holds of the lists and the record (`router_follows_iff`): where its intersection
and its difference on arrays are right. In `mc_ipv6_mld2_report` an `IS_IN` or `TO_IN` record in
exclude mode is followed only when it names no source of `y`.
-/

import Qsdk.Multicast.Record
import Mathlib.Data.Set.Basic

namespace Qsdk.Multicast

variable {Addr : Type} [DecidableEq Addr]

/-- A router state of the table. -/
inductive RouterTable (Addr : Type)
  | include (a : Set Addr)
  | exclude (x y : Set Addr)

/-- The column 'New Router State'. -/
def newRouterState : RouterTable Addr → RecordType → Set Addr → RouterTable Addr
  | .include a, .modeIsInclude, b => .include (a ∪ b)
  | .include a, .modeIsExclude, b => .exclude (a ∩ b) (b \ a)
  | .exclude x y, .modeIsInclude, a => .exclude (x ∪ a) (y \ a)
  | .exclude _ y, .modeIsExclude, a => .exclude (a \ y) (y ∩ a)
  | .include a, .allowNewSources, b => .include (a ∪ b)
  | .include a, .blockOldSources, _ => .include a
  | .include a, .changeToExclude, b => .exclude (a ∩ b) (b \ a)
  | .include a, .changeToInclude, b => .include (a ∪ b)
  | .exclude x y, .allowNewSources, a => .exclude (x ∪ a) (y \ a)
  | .exclude x y, .blockOldSources, a => .exclude (x ∪ (a \ y)) y
  | .exclude _ y, .changeToExclude, a => .exclude (a \ y) (y ∩ a)
  | .exclude x y, .changeToInclude, a => .exclude (x ∪ a) (y \ a)

/-- The sources of a list. -/
def sourceSet (a : List Addr) : Set Addr := { s | s ∈ a }

/-- The router state as a state of the table; mode 0 is include of the empty set. -/
def RouterState.view (mdb : RouterState Addr) : RouterTable Addr :=
  match mdb.filterMode with
  | none => .include ∅
  | some .isInclude => .include (sourceSet mdb.x)
  | some .isExclude => .exclude (sourceSet mdb.x) (sourceSet mdb.y)

/-- Before the first record that sets a mode no source is listed. -/
def RouterState.Fresh (mdb : RouterState Addr) : Prop := mdb.filterMode = none → mdb.x = []

/-- There is room in `x` for what the record adds to it. Records that set exclude mode add nothing,
nor does a `BLOCK` in include mode. -/
def RouterState.Room (type : RecordType) (srcs : List Addr) (mdb : RouterState Addr) : Prop :=
  match type with
  | .modeIsExclude | .changeToExclude => True
  | .blockOldSources =>
    mdb.filterMode = some .isExclude → (unionSource mdb.x (subSource srcs mdb.y)).length ≤ rtSrcMax
  | .modeIsInclude | .changeToInclude | .allowNewSources =>
    (unionSource mdb.x srcs).length ≤ rtSrcMax

/-- No list reaches its maximum with the record: none of its sources is cut off, and there is room
for what it adds. -/
def RouterState.Fits (type : RecordType) (srcs : List Addr) (mdb : RouterState Addr) : Prop :=
  srcs.length ≤ srcGroupMax ∧ mdb.Room type srcs

/-- The condition under which the code follows the table. -/
def RouterState.Follows (version : Version) (type : RecordType) (srcs : List Addr)
    (mdb : RouterState Addr) : Prop :=
  match mdb.filterMode, type with
  | some .isExclude, .modeIsInclude | some .isExclude, .changeToInclude =>
    match version with
    | .igmp3 => TakenAway mdb.y srcs
    | .mld2 => ∀ s ∈ srcs, s ∉ mdb.y
  | some .isExclude, .allowNewSources => TakenAway mdb.y srcs
  | some .isExclude, .modeIsExclude | some .isExclude, .changeToExclude =>
    TakenAway srcs mdb.y ∧ Aligned mdb.y srcs
  | some .isExclude, .blockOldSources => ∀ s ∈ mdb.y, srcs.count s ≤ mdb.y.count s ∨ s ∈ mdb.x
  | _, .modeIsExclude | _, .changeToExclude =>
    Aligned mdb.x srcs ∧ TakenAway srcs (keptSources mdb.x srcs)
  | _, _ => True

/-! ### Rows of the table -/

section Rows

variable {mdb : RouterState Addr} {srcs a b x y : List Addr}

omit [DecidableEq Addr] in
theorem sourceSet_eq_iff {set : Set Addr} : sourceSet a = set ↔ ∀ s, s ∈ a ↔ s ∈ set := Set.ext_iff

omit [DecidableEq Addr] in
theorem grecSources_eq (short : srcs.length ≤ srcGroupMax) : grecSources srcs = srcs :=
    List.take_of_length_le short

theorem sourceSet_addSource {srcMax : Nat} (fits : (unionSource a b).length ≤ srcMax) :
    sourceSet (addSource srcMax a b) = sourceSet a ∪ sourceSet b :=
  sourceSet_eq_iff.mpr fun _ => mem_addSource fits

theorem sourceSet_subSource_iff : sourceSet (subSource a b) = sourceSet a \ sourceSet b ↔
    TakenAway a b :=
  sourceSet_eq_iff.trans subSource_right_iff

theorem sourceSet_mixSource_iff : sourceSet (mixSource a b) = sourceSet a ∩ sourceSet b ↔
    Aligned a b :=
  sourceSet_eq_iff.trans mixSource_right_iff

omit [DecidableEq Addr] in
theorem exclude_eq_iff {x y x' y' : Set Addr} :
    RouterTable.exclude x y = RouterTable.exclude x' y' ↔ x = x' ∧ y = y' := by
  simp

/-- What the record takes from the intersection is what it takes from the list. -/
theorem sourceSet_subSource_mix (aligned : Aligned x srcs) :
    sourceSet (subSource srcs (mixSource x srcs)) = sourceSet srcs \ sourceSet x ↔
      TakenAway srcs (keptSources x srcs) := by
  have common : ∀ s ∈ srcs, s ∈ mixSource x srcs ↔ s ∈ x := fun s member => by
    rw [mixSource_right_iff.mpr aligned s]
    exact and_iff_left member
  rw [← mixSource_eq_of_aligned aligned, ← sourceSet_subSource_iff, sourceSet_eq_iff,
    sourceSet_eq_iff]
  refine forall_congr' fun s => iff_congr Iff.rfl ?_
  exact and_congr_right fun member => not_congr (common s member).symm

/-- Sources that are listed already may be added again. -/
theorem sourceSet_block_iff (fits : (unionSource x (subSource srcs y)).length ≤ rtSrcMax) :
    sourceSet (addSource rtSrcMax x (subSource srcs y)) = sourceSet x ∪
    (sourceSet srcs \ sourceSet y) ↔
      ∀ s ∈ y, srcs.count s ≤ y.count s ∨ s ∈ x := by
  rw [sourceSet_addSource fits, Set.ext_iff]
  constructor
  · intro right s member
    by_contra neither
    push Not at neither
    have left : s ∈ subSource srcs y := mem_subSource_iff.mpr neither.1
    rcases (right s).mp (.inr left) with listed | ⟨_, absent⟩
    · exact neither.2 listed
    · exact absent member
  · intro follows s
    constructor
    · rintro (listed | left)
      · exact .inl listed
      · by_cases member : s ∈ y
        · rcases follows s member with taken | listed
          · have := mem_subSource_iff.mp left
            omega
          · exact .inl listed
        · exact .inr ⟨mem_of_mem_subSource left, member⟩
    · rintro (listed | ⟨member, absent⟩)
      · exact .inl listed
      · exact .inr (mem_subSource_of_not_mem member absent)

omit [DecidableEq Addr] in
theorem sourceSet_sub_self : sourceSet y = sourceSet y \ sourceSet srcs ↔ ∀ s ∈ srcs, s ∉ y := by
  rw [sourceSet_eq_iff]
  constructor
  · exact fun right s member listed => ((right s).mp listed).2 member
  · exact fun apart s => ⟨fun listed => ⟨listed, fun member => apart s member listed⟩, And.left⟩

end Rows

/-! ### One record -/

section Record

variable {mdb : RouterState Addr} {srcs : List Addr} {fg : HostList Addr} {version : Version}
    {type : RecordType}
  {filterEnable : Bool}

omit [DecidableEq Addr] in
theorem sourceSet_nil : sourceSet ([] : List Addr) = ∅ := by
  ext s
  simp [sourceSet]

omit [DecidableEq Addr] in
/-- In include mode, or before any mode is set, the view is the sources of `x`. -/
theorem RouterState.Fresh.view (fresh : mdb.Fresh) (including : mdb.filterMode ≠ some .isExclude) :
    mdb.view = .include (sourceSet mdb.x) := by
  unfold RouterState.view
  match isMode : mdb.filterMode with
  | none =>
    rw [fresh isMode, sourceSet_nil]
  | some .isInclude => rfl
  | some .isExclude => exact absurd isMode including

omit [DecidableEq Addr] in
theorem view_exclude (excluding : mdb.filterMode = some .isExclude) :
    mdb.view = .exclude (sourceSet mdb.x) (sourceSet mdb.y) := by
  unfold RouterState.view
  rw [excluding]

theorem Follows.of_including (including : mdb.filterMode ≠ some .isExclude) :
    mdb.Follows version type srcs ↔
      ((type = .modeIsExclude ∨ type = .changeToExclude) →
        Aligned mdb.x srcs ∧ TakenAway srcs (keptSources mdb.x srcs)) := by
  unfold RouterState.Follows
  match isMode : mdb.filterMode with
  | none => cases type <;> simp
  | some .isInclude => cases type <;> simp
  | some .isExclude => exact absurd isMode including

/-- The records that add sources, in include mode. -/
theorem include_row (room : (unionSource mdb.x srcs).length ≤ rtSrcMax)
    (including : mdb.filterMode ≠ some .isExclude) (y : List Addr) :
    RouterState.view ⟨mdb.filterMode.or (some .isInclude), addSource rtSrcMax mdb.x srcs, y⟩ =
      .include (sourceSet mdb.x ∪ sourceSet srcs) := by
  have isMode : mdb.filterMode.or (some .isInclude) = some .isInclude := by
    match isMode : mdb.filterMode with
    | none => rfl
    | some .isInclude => rfl
    | some .isExclude => exact absurd isMode including
  unfold RouterState.view
  rw [isMode]
  exact congrArg RouterTable.include (sourceSet_addSource room)

/-- The records that add sources, in exclude mode. -/
theorem exclude_row (room : (unionSource mdb.x srcs).length ≤ rtSrcMax)
    (excluding : mdb.filterMode = some .isExclude) (y : List Addr) :
    RouterState.view ⟨mdb.filterMode.or (some .isInclude), addSource rtSrcMax mdb.x srcs, y⟩ =
      .exclude (sourceSet mdb.x ∪ sourceSet srcs) (sourceSet y) := by
  unfold RouterState.view
  rw [excluding]
  exact congrArg (RouterTable.exclude · _) (sourceSet_addSource room)

/-- `IS_IN` and `TO_IN`. -/
theorem includeRecord_follows_iff (changes : Bool) (fresh : mdb.Fresh)
    (short : srcs.length ≤ srcGroupMax) (room : (unionSource mdb.x srcs).length ≤ rtSrcMax)
    (isInclude : type = .modeIsInclude ∨ type = .changeToInclude) :
    (includeRecord version filterEnable changes srcs fg mdb).mdb.view =
    newRouterState mdb.view type (sourceSet srcs) ↔
      mdb.Follows version type srcs := by
  have grec := grecSources_eq short
  by_cases excluding : mdb.filterMode = some .isExclude
  · have row : newRouterState mdb.view type (sourceSet srcs) =
        .exclude (sourceSet mdb.x ∪ sourceSet srcs) (sourceSet mdb.y \ sourceSet srcs) := by
      rw [view_exclude excluding]
      rcases isInclude with rfl | rfl <;> rfl
    have follows : mdb.Follows version type srcs ↔
        match version with
        | .igmp3 => TakenAway mdb.y srcs
        | .mld2 => ∀ s ∈ srcs, s ∉ mdb.y := by
      unfold RouterState.Follows
      rw [excluding]
      rcases isInclude with rfl | rfl <;> rfl
    rw [row, follows]
    unfold includeRecord
    by_cases isNil : srcs = []
    · rw [if_pos isNil, view_exclude excluding, exclude_eq_iff, isNil, sourceSet_nil]
      cases version <;> simp [TakenAway]
    · rw [if_neg isNil]
      dsimp only
      rw [grec, exclude_row room excluding, exclude_eq_iff]
      cases version with
      | igmp3 =>
        dsimp only
        rw [if_pos excluding, and_iff_right rfl]
        exact sourceSet_subSource_iff
      | mld2 =>
        dsimp only
        rw [if_neg (by simp [excluding]), and_iff_right rfl]
        exact sourceSet_sub_self
  · have row : newRouterState mdb.view type (sourceSet srcs) =
        .include (sourceSet mdb.x ∪ sourceSet srcs) := by
      rw [fresh.view excluding]
      rcases isInclude with rfl | rfl <;> rfl
    refine iff_of_true ?_ ((Follows.of_including excluding).mpr ?_)
    · rw [row]
      unfold includeRecord
      by_cases isNil : srcs = []
      · rw [if_pos isNil, isNil, sourceSet_nil, Set.union_empty]
        exact fresh.view excluding
      · rw [if_neg isNil]
        dsimp only
        rw [grec]
        exact include_row room excluding _
    · rcases isInclude with rfl | rfl <;> simp

/-- `IS_EX` and `TO_EX`. -/
theorem excludeRecord_follows_iff (changes : Bool) (fresh : mdb.Fresh)
    (short : srcs.length ≤ srcGroupMax) (isExclude : type = .modeIsExclude ∨
        type = .changeToExclude) :
    (excludeRecord filterEnable changes srcs fg mdb).mdb.view =
    newRouterState mdb.view type (sourceSet srcs) ↔
      mdb.Follows version type srcs := by
  have grec := grecSources_eq short
  unfold excludeRecord
  dsimp only
  rw [grec]
  by_cases excluding : mdb.filterMode = some .isExclude
  · have row : newRouterState mdb.view type (sourceSet srcs) =
        .exclude (sourceSet srcs \ sourceSet mdb.y) (sourceSet mdb.y ∩ sourceSet srcs) := by
      rw [view_exclude excluding]
      rcases isExclude with rfl | rfl <;> rfl
    have follows : mdb.Follows version type srcs ↔ TakenAway srcs mdb.y ∧ Aligned mdb.y srcs := by
      unfold RouterState.Follows
      rw [excluding]
      rcases isExclude with rfl | rfl <;> rfl
    rw [row, follows, if_pos excluding]
    exact exclude_eq_iff.trans (and_congr sourceSet_subSource_iff sourceSet_mixSource_iff)
  · have row : newRouterState mdb.view type (sourceSet srcs) =
        .exclude (sourceSet mdb.x ∩ sourceSet srcs) (sourceSet srcs \ sourceSet mdb.x) := by
      rw [fresh.view excluding]
      rcases isExclude with rfl | rfl <;> rfl
    rw [row, Follows.of_including excluding, if_neg excluding]
    refine exclude_eq_iff.trans (Iff.trans ?_ (forall_prop_of_true isExclude).symm)
    rw [sourceSet_mixSource_iff]
    exact and_congr_right fun aligned => sourceSet_subSource_mix aligned

/-- `ALLOW`. -/
theorem allowRecord_follows_iff (fresh : mdb.Fresh) (short : srcs.length ≤ srcGroupMax)
    (room : (unionSource mdb.x srcs).length ≤ rtSrcMax) :
    (allowRecord srcs fg mdb).mdb.view = newRouterState mdb.view .allowNewSources (sourceSet srcs) ↔
      mdb.Follows version .allowNewSources srcs := by
  have grec := grecSources_eq short
  unfold allowRecord
  dsimp only
  rw [grec]
  by_cases excluding : mdb.filterMode = some .isExclude
  · have follows : mdb.Follows version .allowNewSources srcs ↔ TakenAway mdb.y srcs := by
      unfold RouterState.Follows
      rw [excluding]
    rw [view_exclude excluding, follows, exclude_row room excluding, if_pos excluding]
    exact exclude_eq_iff.trans ((and_iff_right rfl).trans sourceSet_subSource_iff)
  · rw [fresh.view excluding, include_row room excluding]
    exact iff_of_true rfl ((Follows.of_including excluding).mpr (by simp))

/-- `BLOCK`. -/
theorem blockRecord_follows_iff (fresh : mdb.Fresh) (short : srcs.length ≤ srcGroupMax)
    (room : mdb.filterMode = some .isExclude →
        (unionSource mdb.x (subSource srcs mdb.y)).length ≤ rtSrcMax) :
    (blockRecord filterEnable srcs fg mdb).mdb.view = newRouterState mdb.view .blockOldSources
    (sourceSet srcs) ↔
      mdb.Follows version .blockOldSources srcs := by
  have grec := grecSources_eq short
  unfold blockRecord
  dsimp only
  rw [grec]
  by_cases excluding : mdb.filterMode = some .isExclude
  · have follows : mdb.Follows version .blockOldSources srcs ↔
        ∀ s ∈ mdb.y, srcs.count s ≤ mdb.y.count s ∨ s ∈ mdb.x := by
      unfold RouterState.Follows
      rw [excluding]
    rw [follows, if_pos excluding, if_pos excluding, view_exclude excluding]
    rw [@view_exclude _ { mdb with x := addSource rtSrcMax mdb.x (subSource srcs mdb.y) } excluding]
    exact exclude_eq_iff.trans ((and_iff_left rfl).trans (sourceSet_block_iff (room excluding)))
  · rw [if_neg excluding, fresh.view excluding]
    exact iff_of_true rfl ((Follows.of_including excluding).mpr (by simp))

/-- **One record is processed as the table says exactly under the condition.** -/
theorem record_follows_iff (fresh : mdb.Fresh) (fits : mdb.Fits type srcs) :
    (record version filterEnable type srcs fg mdb).mdb.view =
    newRouterState mdb.view type (sourceSet srcs) ↔
      mdb.Follows version type srcs := by
  obtain ⟨short, room⟩ := fits
  cases type with
  | modeIsInclude => exact includeRecord_follows_iff false fresh short room (.inl rfl)
  | changeToInclude => exact includeRecord_follows_iff true fresh short room (.inr rfl)
  | modeIsExclude => exact excludeRecord_follows_iff false fresh short (.inl rfl)
  | changeToExclude => exact excludeRecord_follows_iff true fresh short (.inr rfl)
  | allowNewSources => exact allowRecord_follows_iff fresh short room
  | blockOldSources => exact blockRecord_follows_iff fresh short room

theorem record_fresh (fresh : mdb.Fresh) :
    (record version filterEnable type srcs fg mdb).mdb.Fresh := by
  have set : ∀ mode : Option FilterMode, mode.or (some .isInclude) ≠ none := by simp
  cases type with
  | modeIsInclude | changeToInclude =>
    simp only [record, includeRecord]
    split
    · exact fresh
    · exact fun isNone => absurd isNone (set _)
  | modeIsExclude | changeToExclude => exact fun isNone => by cases isNone
  | allowNewSources => exact fun isNone => absurd isNone (set _)
  | blockOldSources =>
    simp only [record, blockRecord]
    split
    · rename_i excluding
      exact fun isNone => by simp [excluding] at isNone
    · exact fun isNone => by cases isNone

end Record

/-! ### Sequences of records -/

/-- A record as it arrives: its type, its sources, and the list of the host it comes from. -/
structure Arrival (Addr : Type) where
  type : RecordType
  srcs : List Addr
  fg : HostList Addr

/-- The router's state after a record. -/
def RouterState.after (version : Version) (filterEnable : Bool) (mdb : RouterState Addr)
    (arrival : Arrival Addr) :
    RouterState Addr :=
  (record version filterEnable arrival.type arrival.srcs arrival.fg mdb).mdb

/-- A statement about each record of a sequence and the state it arrives in. -/
def RouterState.Along (version : Version) (filterEnable : Bool)
    (meets : RouterState Addr → Arrival Addr → Prop) (mdb : RouterState Addr) :
    List (Arrival Addr) → Prop
  | [] => True
  | arrival :: arrivals => meets mdb arrival ∧
      (mdb.after version filterEnable arrival).Along version filterEnable meets arrivals

/-- The state after the record is the table's. -/
def RouterState.TableRow (version : Version) (filterEnable : Bool) (mdb : RouterState Addr)
    (arrival : Arrival Addr) :
    Prop :=
  (mdb.after version filterEnable arrival).view = newRouterState mdb.view arrival.type
    (sourceSet arrival.srcs)

theorem RouterState.Fresh.along_iff {version : Version} {filterEnable : Bool}
    {mdb : RouterState Addr} {arrivals : List (Arrival Addr)} (fresh : mdb.Fresh)
    (fits : mdb.Along version filterEnable
        (fun mdb arrival => mdb.Fits arrival.type arrival.srcs) arrivals) :
    mdb.Along version filterEnable (TableRow version filterEnable) arrivals ↔
      mdb.Along version filterEnable
          (fun mdb arrival => mdb.Follows version arrival.type arrival.srcs) arrivals := by
  induction arrivals generalizing mdb with
  | nil => exact Iff.rfl
  | cons arrival arrivals ih =>
    exact and_congr (record_follows_iff fresh fits.1) (ih (record_fresh fresh) fits.2)

/-- **The router state follows the table through a sequence of records, from any hosts, exactly when
every record meets the condition in the state it arrives in.** -/
theorem router_follows_iff (version : Version) (filterEnable : Bool)
    {arrivals : List (Arrival Addr)}
        (fits : RouterState.new.Along version filterEnable
          (fun mdb arrival => mdb.Fits arrival.type arrival.srcs) arrivals) :
    RouterState.new.Along version filterEnable
    (RouterState.TableRow version filterEnable) arrivals ↔
      RouterState.new.Along version filterEnable
        (fun mdb arrival => mdb.Follows version arrival.type arrival.srcs) arrivals :=
  RouterState.Fresh.along_iff (fun _ => rfl) fits

/-- Two hosts: one asks for source 1, the other for all but source 1 and 2. -/
def twoHosts : List (Arrival Nat) :=
    [⟨.allowNewSources, [1], ⟨none, []⟩⟩, ⟨.changeToExclude, [1, 2], ⟨none, []⟩⟩]

/-- **The intersection is not one**: source 2, which is not listed, takes the listed source 1
away. -/
theorem router_not_table :
    RouterState.new.Along .igmp3 false
    (fun mdb arrival => mdb.Fits arrival.type arrival.srcs) twoHosts ∧
      ¬ RouterState.new.Along .igmp3 false (RouterState.TableRow .igmp3 false) twoHosts := by
  refine ⟨⟨⟨by decide, by show _ ≤ _; decide⟩, ⟨by decide, trivial⟩, trivial⟩, ?_⟩
  rintro ⟨_, row, _⟩
  have same := (exclude_eq_iff.mp row).1
  have common : (1 : Nat) ∈ (sourceSet [1] ∩ sourceSet [1, 2] : Set Nat) :=
    ⟨by simp [sourceSet], by simp [sourceSet]⟩
  have empty : (1 : Nat) ∉ sourceSet ([] : List Nat) := by simp [sourceSet]
  exact empty (same ▸ common)

/-- The same hosts, where the second names source 1 only. -/
theorem router_follows_iff_two :
    RouterState.new.Along .mld2 true (RouterState.TableRow .mld2 true)
      [⟨.allowNewSources, [1], ⟨none, []⟩⟩, ⟨.changeToExclude, [1], ⟨none, []⟩⟩] := by
  have fits : RouterState.new.Along .mld2 true
    (fun mdb arrival => mdb.Fits arrival.type arrival.srcs)
      [⟨.allowNewSources, [(1 : Nat)], ⟨none, []⟩⟩, ⟨.changeToExclude, [1], ⟨none, []⟩⟩] :=
    ⟨⟨by decide, by show _ ≤ _; decide⟩, ⟨by decide, trivial⟩, trivial⟩
  refine (router_follows_iff .mld2 true fits).mpr ⟨trivial, ⟨?_, ?_⟩, trivial⟩
  · exact fun s => ⟨fun member => ⟨member, member⟩, And.left⟩
  · exact fun s member => Nat.le_of_eq rfl

end Qsdk.Multicast
