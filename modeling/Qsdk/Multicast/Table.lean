/-
**The snooping table.**

The table holds an entry for each group (`struct mc_mdb_entry`), with a port group for each port
that has or had members (`struct mc_port_group`), with an fdb group for each member
(`struct mc_fdb_group`). `users` counts the members of a group, `active_group_count` the groups with
members. Both are counted down member by member (`mc_fdb_group_destroy`), by every walk that
destroys members. A walk visits the ports of a group in turn (`walkPorts`); what it does there
depends on the port group only.

The hash buckets are one list: a group is always in the same bucket.
-/

import Qsdk.Multicast.Record
import Qsdk.Lib.First

namespace Qsdk.Multicast

/-- A reading of `jiffies`. -/
abbrev Jiffies := BitVec 64

/-- `time_before`. -/
def timeBefore (a b : Jiffies) : Bool := (a - b).msb

/-- `time_before_eq`. -/
def timeBeforeEq (a b : Jiffies) : Bool := !(b - a).msb

/-- `struct mc_fdb_group`. -/
structure FdbGroup (Mac Addr : Type) where
  mac : Mac
  ageingTimer : Jiffies
  list : HostList Addr
  fdbAgeOut : Bool
deriving DecidableEq

/-- `struct mc_port_group`. -/
structure PortGroup (Mac Port Addr : Type) where
  port : Port
  ageingTimer : Jiffies
  fslist : List (FdbGroup Mac Addr)
deriving DecidableEq

/-- `struct mc_mdb_entry`, as far as the table needs it. -/
structure MdbEntry (Mac Port Group Addr : Type) where
  group : Group
  users : Int
  pslist : List (PortGroup Mac Port Addr)
  timerBase : Jiffies
  state : RouterState Addr
deriving DecidableEq

/-- `struct mc_querier_entry`: the port it was heard on. -/
structure QuerierEntry (Port : Type) where
  port : Port
deriving DecidableEq

/-- `struct mc_struct`, as far as the table needs it. -/
structure Mc (Mac Port Group Addr : Type) where
  hash : List (MdbEntry Mac Port Group Addr)
  activeGroupCount : Int
  maxGroupCnt : Int
  started : Bool
  igmpRlist : List (QuerierEntry Port)
  mldRlist : List (QuerierEntry Port)
deriving DecidableEq

variable {Mac Port Group Addr : Type} [DecidableEq Mac] [DecidableEq Port] [DecidableEq Group]

/-- A group entry, and `active_group_count` beside it. -/
abbrev Account (Mac Port Group Addr : Type) := MdbEntry Mac Port Group Addr × Int

/-! ### Members -/

/-- `mc_fdb_group_destroy`. -/
def fdbGroupDestroy (port : Port) (mac : Mac) (account : Account Mac Port Group Addr) :
    Account Mac Port Group Addr :=
  let mdb := account.1
  let users := mdb.users - 1
  ({ mdb with
      pslist := First.modify (fun pg => decide (pg.port = port))
        (fun pg => { pg with fslist := pg.fslist.eraseP fun fg => decide (fg.mac = mac) })
        mdb.pslist
      users := users },
    if users = 0 then account.2 - 1 else account.2)

/-- The port group is unlinked. -/
def portGroupUnlink (port : Port) (account : Account Mac Port Group Addr) :
    Account Mac Port Group Addr :=
  ({ account.1 with pslist := account.1.pslist.eraseP fun pg => decide (pg.port = port) },
    account.2)

/-- What a walk does at a port: it destroys the members that are to die, and may unlink the port
group. -/
structure Visit (Mac Addr : Type) where
  dies : FdbGroup Mac Addr → Bool
  unlinks : Bool

/-- One round of a walk. -/
def visitPort (visit : Visit Mac Addr) (account : Account Mac Port Group Addr)
    (pg : PortGroup Mac Port Addr) :
    Account Mac Port Group Addr :=
  let account := (pg.fslist.filter visit.dies).foldl
    (fun account fg => fdbGroupDestroy pg.port fg.mac account) account
  if visit.unlinks then portGroupUnlink pg.port account else account

/-- A walk over the ports of a group. -/
def walkPorts (visit : PortGroup Mac Port Addr → Visit Mac Addr)
    (account : Account Mac Port Group Addr) :
    Account Mac Port Group Addr :=
  account.1.pslist.foldl (fun account pg => visitPort (visit pg) account pg) account

/-- `mc_port_group_destroy`. -/
def Visit.destroy : Visit Mac Addr := ⟨fun _ => true, true⟩

/-- The loop body of `mc_mdb_expired`. -/
def expiredVisit (timerBase : Jiffies) (_ : PortGroup Mac Port Addr) : Visit Mac Addr :=
  ⟨fun fg => timeBefore fg.ageingTimer timerBase, false⟩

/-- The loop body of `mc_mdb_cleanup`: an empty port group is kept for twice the time. -/
def cleanupVisit (now expireTime : Jiffies) (pg : PortGroup Mac Port Addr) : Visit Mac Addr :=
  if pg.fslist = [] then ⟨fun _ => false, timeBeforeEq (pg.ageingTimer + expireTime * 2) now⟩
  else ⟨fun fg => timeBeforeEq (fg.ageingTimer + expireTime) now, false⟩

/-- The loop body of `mc_nbp_change`: a port group with members is destroyed, whatever its port. -/
def nbpVisit (pg : PortGroup Mac Port Addr) : Visit Mac Addr :=
  if pg.fslist = [] then ⟨fun _ => false, false⟩ else .destroy

/-! ### Groups -/

namespace Mc

/-- `mc_mdb_find`. -/
def find (mc : Mc Mac Port Group Addr) (group : Group) : Option (MdbEntry Mac Port Group Addr) :=
  mc.hash.find? fun mdb => decide (mdb.group = group)

/-- An operation on the entry of a group. -/
def onGroup (mc : Mc Mac Port Group Addr) (group : Group)
    (op : Account Mac Port Group Addr → Account Mac Port Group Addr) : Mc Mac Port Group Addr :=
  match mc.find group with
  | none => mc
  | some mdb =>
    let account := op (mdb, mc.activeGroupCount)
    { mc with
      hash := First.modify (fun mdb => decide (mdb.group = group)) (fun _ => account.1) mc.hash
      activeGroupCount := account.2 }

/-- The group entry is unlinked. -/
def mdbUnlink (mc : Mc Mac Port Group Addr) (group : Group) : Mc Mac Port Group Addr :=
  { mc with hash := mc.hash.eraseP fun mdb => decide (mdb.group = group) }

/-- `mc_mdb_destroy`. -/
def mdbDestroy (mc : Mc Mac Port Group Addr) (group : Group) : Mc Mac Port Group Addr :=
  (mc.onGroup group (walkPorts fun _ => .destroy)).mdbUnlink group

/-- `mc_mdb_expired`. -/
def mdbExpired (mc : Mc Mac Port Group Addr) (group : Group) : Mc Mac Port Group Addr :=
  mc.onGroup group fun account => walkPorts (expiredVisit account.1.timerBase) account

/-- `mc_mdb_cleanup` at one group. -/
def cleanupGroup (now : Jiffies) (expireTime : Group → Jiffies) (mc : Mc Mac Port Group Addr)
    (mdb : MdbEntry Mac Port Group Addr) : Mc Mac Port Group Addr :=
  if mdb.pslist = [] then mc.mdbDestroy mdb.group
  else mc.onGroup mdb.group (walkPorts (cleanupVisit now (expireTime mdb.group)))

/-- `mc_mdb_cleanup`. The time to keep a member is that of the root querier of its protocol. -/
def mdbCleanup (mc : Mc Mac Port Group Addr) (timeoutGmiEnable : Bool) (now : Jiffies)
    (expireTime : Group → Jiffies) :
    Mc Mac Port Group Addr :=
  if timeoutGmiEnable then mc.hash.foldl (cleanupGroup now expireTime) mc else mc

/-- `mc_nbp_change`, for a port that is deleted. -/
def nbpChange (mc : Mc Mac Port Group Addr) (port : Port) : Mc Mac Port Group Addr :=
  let mc := { mc with
    igmpRlist := mc.igmpRlist.filter fun qe => decide (qe.port ≠ port)
    mldRlist := mc.mldRlist.filter fun qe => decide (qe.port ≠ port) }
  mc.hash.foldl (fun mc mdb => mc.onGroup mdb.group (walkPorts nbpVisit)) mc

/-! ### Reports -/

/-- Which allocations succeed. -/
structure Memory where
  mdb : Bool
  pg : Bool
  fg : Bool

/-- `mc_update_hybrid_fdb_group`: a member on another port is destroyed, on this port it is
refreshed. Says whether it is on this port. -/
def hybridFdbGroup (mac : Mac) (now : Jiffies) (port : Port)
    (account : Account Mac Port Group Addr) :
    Account Mac Port Group Addr × Bool :=
  match account.1.pslist.find? fun pg => pg.fslist.any fun fg => decide (fg.mac = mac) with
  | none => (account, false)
  | some pg =>
    if pg.port ≠ port then (fdbGroupDestroy pg.port mac account, false)
    else
      (({ account.1 with
          pslist := First.modify (fun pg => decide (pg.port = port))
            (fun pg => { pg with
              ageingTimer := now
              fslist := First.modify (fun fg => decide (fg.mac = mac))
                (fun fg => { fg with ageingTimer := now, fdbAgeOut := false }) pg.fslist })
                account.1.pslist },
        account.2), true)

/-- `mc_port_group_create`. -/
def portGroupCreate (port : Port) (now : Jiffies) (account : Account Mac Port Group Addr) :
    Account Mac Port Group Addr :=
  ({ account.1 with pslist := ⟨port, now, []⟩ :: account.1.pslist }, account.2)

/-- `mc_fdb_group_create`, and the counting behind it. -/
def fdbGroupCreate (mac : Mac) (port : Port) (now : Jiffies)
    (account : Account Mac Port Group Addr) :
    Account Mac Port Group Addr :=
  let users := account.1.users + 1
  ({ account.1 with
      pslist := First.modify (fun pg => decide (pg.port = port))
        (fun pg => { pg with
                     ageingTimer := now,
                     fslist := ⟨mac, now, ⟨none, []⟩, false⟩ :: pg.fslist }) account.1.pslist
      users := users },
    if users = 1 then account.2 + 1 else account.2)

/-- `mc_update_mdb` from the search for the port group on. -/
def updatePort (maxGroupCnt : Int) (memory : Memory) (mac : Mac) (port : Port) (now : Jiffies)
    (account : Account Mac Port Group Addr) : Account Mac Port Group Addr × Bool :=
  match account.1.pslist.find? fun pg => decide (pg.port = port) with
  | some pg =>
    if pg.fslist.any fun fg => decide (fg.mac = mac) then
      (({ account.1 with
          pslist := First.modify (fun pg => decide (pg.port = port))
            (fun pg => { pg with
              ageingTimer := now
              fslist := First.modify (fun fg => decide (fg.mac = mac))
                (fun fg => { fg with ageingTimer := now, fdbAgeOut := false }) pg.fslist })
                account.1.pslist },
        account.2), true)
    else if account.1.users = 0 ∧ account.2 ≥ maxGroupCnt then (account, false)
    else if memory.fg then (fdbGroupCreate mac port now account, true)
    else (account, false)
  | none =>
    if memory.pg then
      let account := portGroupCreate port now account
      if account.1.users = 0 ∧ account.2 ≥ maxGroupCnt then (account, false)
      else if memory.fg then (fdbGroupCreate mac port now account, true)
      else (account, false)
    else (account, false)

/-- `mc_update_mdb` on the entry of the group. -/
def updateGroup (maxGroupCnt : Int) (memory : Memory) (mac : Mac) (port : Port) (now : Jiffies)
    (account : Account Mac Port Group Addr) : Account Mac Port Group Addr × Bool :=
  match hybridFdbGroup mac now port account with
  | (account, true) => (account, true)
  | (account, false) => updatePort maxGroupCnt memory mac port now account

/-- A new group entry. -/
def mdbNew (group : Group) : MdbEntry Mac Port Group Addr := ⟨group, 0, [], 0, .new⟩

/-- The locked section of `mc_update_mdb`. Says whether a member is returned. -/
def updateMdb (mc : Mc Mac Port Group Addr) (memory : Memory) (group : Group) (mac : Mac)
    (port : Port) (now : Jiffies) : Mc Mac Port Group Addr × Bool :=
  match mc.find group with
  | some mdb =>
    (mc.onGroup group fun account => (updateGroup mc.maxGroupCnt memory mac port now account).1,
      (updateGroup mc.maxGroupCnt memory mac port now (mdb, mc.activeGroupCount)).2)
  | none =>
    if mc.activeGroupCount < mc.maxGroupCnt ∧ memory.mdb = true then
      let mc := { mc with hash := mdbNew group :: mc.hash }
      (mc.onGroup group fun account => (updatePort mc.maxGroupCnt memory mac port now account).1,
        (updatePort mc.maxGroupCnt memory mac port now
          ((mdbNew group : MdbEntry Mac Port Group Addr), mc.activeGroupCount)).2)
    else (mc, false)

end Mc

end Qsdk.Multicast
