/-
**One group record.**

What `mc_ipv4_igmp3_report` and `mc_ipv6_mld2_report` do with one record of a report, once the
reporting host's `struct mc_fdb_group` is found or created: the host's list changes
(`mc_source_list_update`), then the router's state of the group, and then the leave filter may be
asked to take sources off the record. The two functions are copies of each other but for one
comparison.
-/

import Qsdk.Multicast.Sources

namespace Qsdk.Multicast

/-- The two copies: `mc_ipv4_igmp3_report` and `mc_ipv6_mld2_report`. -/
inductive Version
  | igmp3
  | mld2
deriving DecidableEq

/-- The types of a group record. -/
inductive RecordType
  | modeIsInclude
  | modeIsExclude
  | changeToInclude
  | changeToExclude
  | allowNewSources
  | blockOldSources
deriving DecidableEq

/-- The type of a record by its number, the same for both protocols; records of another type are
passed over. -/
def RecordType.ofCode : Nat → Option RecordType
  | 1 => some .modeIsInclude
  | 2 => some .modeIsExclude
  | 3 => some .changeToInclude
  | 4 => some .changeToExclude
  | 5 => some .allowNewSources
  | 6 => some .blockOldSources
  | _ => none

/-- The state of a `struct mc_mdb_entry`: the sources `x` to be forwarded and the sources `y` not to
forward. -/
structure RouterState (Addr : Type) where
  filterMode : Option FilterMode
  x : List Addr
  y : List Addr
deriving DecidableEq

/-- The state of a new `struct mc_mdb_entry`. -/
def RouterState.new {Addr : Type} : RouterState Addr := ⟨none, [], []⟩

/-- What is asked of the leave filter (`filter_num`). -/
inductive Check (Addr : Type)
  /-- 0: nothing is taken off. -/
  | keep
  /-- All bits set: the whole record is taken off, if the group has users. -/
  | whole
  /-- The filter is to look at the sources of the record that are among these. -/
  | sources (checkSrcs : List Addr)
deriving DecidableEq

/-- What a record leads to: the host's list, the router's state, whether the host leaves, and the
leave filter. -/
structure Outcome (Addr : Type) where
  fg : HostList Addr
  mdb : RouterState Addr
  leaves : Bool
  check : Check Addr
deriving DecidableEq

variable {Addr : Type} [DecidableEq Addr]

/-- How `mc_source_list_update` is called. -/
inductive ListUpdate
  | mode (filterMode : FilterMode)
  | allow
  | block

/-- `mc_source_list_update`, less its event. -/
def sourceListUpdate (fg : HostList Addr) (grec : List Addr) : ListUpdate → HostList Addr
  | .mode filterMode => ⟨some filterMode, grec.take srcGroupMax⟩
  | .allow =>
    if fg.filterMode = some .isExclude then { fg with a := subSource fg.a grec }
    else ⟨some .isInclude, addSource srcGroupMax fg.a grec⟩
  | .block =>
    if fg.filterMode = some .isInclude then { fg with a := subSource fg.a grec }
    else ⟨some .isExclude, addSource srcGroupMax fg.a grec⟩

/-- The records `IS_IN` and `TO_IN`. The copy for IPv6 takes the sources off `y` in the wrong
mode. -/
def includeRecord (version : Version) (filterEnable changes : Bool) (srcs : List Addr)
    (fg : HostList Addr) (mdb : RouterState Addr) : Outcome Addr :=
  if srcs = [] then ⟨fg, mdb, true, if filterEnable then .whole else .keep⟩
  else
    let grec := grecSources srcs
    let tmp := subSource mdb.x grec
    let y := match version with
      | .igmp3 => if mdb.filterMode = some .isExclude then subSource mdb.y srcs else mdb.y
      | .mld2 => if mdb.filterMode = some .isInclude then subSource mdb.y grec else mdb.y
    { fg := sourceListUpdate fg grec (.mode .isInclude)
      mdb := ⟨mdb.filterMode.or (some .isInclude), addSource rtSrcMax mdb.x grec, y⟩
      leaves := false
      check := if !filterEnable || mdb.filterMode.isNone || !changes || decide (tmp = []) then
        .keep else .sources tmp }

/-- The records `IS_EX` and `TO_EX`. -/
def excludeRecord (filterEnable changes : Bool) (srcs : List Addr) (fg : HostList Addr)
    (mdb : RouterState Addr) :
    Outcome Addr :=
  let grec := grecSources srcs
  let xy :=
    if mdb.filterMode = some .isExclude then
      let x := subSource grec mdb.y
      (x, mixSource mdb.y grec)
    else
      let x := mixSource mdb.x grec
      (x, subSource grec x)
  { fg := sourceListUpdate fg grec (.mode .isExclude)
    mdb := ⟨some .isExclude, xy.1, xy.2⟩
    leaves := false
    check := if !filterEnable || !changes || decide (xy.1 = []) then .keep else .sources xy.1 }

/-- The record `ALLOW`. -/
def allowRecord (srcs : List Addr) (fg : HostList Addr) (mdb : RouterState Addr) : Outcome Addr :=
  let grec := grecSources srcs
  { fg := sourceListUpdate fg grec .allow
    mdb := ⟨mdb.filterMode.or (some .isInclude), addSource rtSrcMax mdb.x grec,
      if mdb.filterMode = some .isExclude then subSource mdb.y grec else mdb.y⟩
    leaves := false
    check := .keep }

/-- The record `BLOCK`. -/
def blockRecord (filterEnable : Bool) (srcs : List Addr) (fg : HostList Addr)
    (mdb : RouterState Addr) :
    Outcome Addr :=
  let grec := grecSources srcs
  let blocked := if fg.filterMode = none then fg else sourceListUpdate fg grec .block
  let tmp := if mdb.filterMode = some .isExclude then subSource grec mdb.y else mixSource mdb.x grec
  { fg := blocked
    mdb := if mdb.filterMode = some .isExclude then { mdb with x := addSource rtSrcMax mdb.x tmp }
      else { mdb with filterMode := some .isInclude }
    leaves := decide (fg.filterMode = none ∨ blocked.a = [])
    check := if filterEnable then .sources tmp else .keep }

/-- One record. `filterEnable` is `m2i3_filter_enable`. -/
def record (version : Version) (filterEnable : Bool) (type : RecordType) (srcs : List Addr)
    (fg : HostList Addr) (mdb : RouterState Addr) : Outcome Addr :=
  match type with
  | .modeIsInclude => includeRecord version filterEnable false srcs fg mdb
  | .changeToInclude => includeRecord version filterEnable true srcs fg mdb
  | .modeIsExclude => excludeRecord filterEnable false srcs fg mdb
  | .changeToExclude => excludeRecord filterEnable true srcs fg mdb
  | .allowNewSources => allowRecord srcs fg mdb
  | .blockOldSources => blockRecord filterEnable srcs fg mdb

end Qsdk.Multicast
