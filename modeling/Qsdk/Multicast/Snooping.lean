/-
**Runs of multicast snooping.**

Every operation on the table runs under the lock `mc->lock` and is one step, except `mc_mdb_flush`,
which `mc_stop` calls without it: the flush destroys the groups member by member, port by port, and
anything may happen in between (`Flush`). A report looks at `started` before it waits for the lock,
so it may get the lock after `mc_stop` has cleared `started` (`Event.enter`, `Event.update`).
-/

import Qsdk.Multicast.Table

namespace Qsdk.Multicast

/-- Where `mc_mdb_flush` is. -/
inductive Flush (Mac Port Group : Type)
  /-- Not running. -/
  | idle
  /-- Between two groups. -/
  | groups
  /-- In `mc_mdb_destroy(group)`, with these ports still to visit. -/
  | ports (group : Group) (todo : List Port)
  /-- In `mc_port_group_destroy` of the port, with these members still to destroy. -/
  | hosts (group : Group) (port : Port) (macs : List Mac) (todo : List Port)
deriving DecidableEq

/-- The table, the flush, and the reports that wait for the lock. -/
structure Snoop (Mac Port Group Addr : Type) where
  mc : Mc Mac Port Group Addr
  flush : Flush Mac Port Group
  waiting : Nat
deriving DecidableEq

/-- What may happen. -/
inductive Event (Mac Port Group Addr : Type)
  /-- A report finds snooping started. -/
  | enter
  /-- It gets the lock: `mc_update_mdb`. -/
  | update (memory : Mc.Memory) (group : Group) (mac : Mac) (port : Port) (now : Jiffies)
  /-- The sources of a member change: `mc_source_list_update`. -/
  | sources (group : Group) (port : Port) (mac : Mac) (srcs : List Addr) (update : ListUpdate)
  /-- The router's state of a group changes. -/
  | router (group : Group) (state : RouterState Addr)
  /-- `mc_leave_group`: the member is to expire after the leave delay. -/
  | leave (group : Group) (mac : Mac) (port : Port) (ageingTimer : Jiffies)
  /-- `mc_query_cycle_start` at a group. -/
  | query (group : Group) (timerBase : Jiffies)
  /-- Querier entries are added and removed, by queries and by `mc_router_cleanup`. -/
  | queriers (igmpRlist mldRlist : List (QuerierEntry Port))
  /-- The timer of a group: `mc_mdb_expired`. -/
  | expired (group : Group)
  /-- The ageing timer: `mc_mdb_cleanup`. -/
  | cleanup (timeoutGmiEnable : Bool) (now : Jiffies) (expireTime : Group → Jiffies)
  /-- `mc_fdb_change`, for a forwarding entry that is deleted. -/
  | fdbChange (mac : Mac)
  /-- `mc_nbp_change`, for a port that is deleted. -/
  | nbpChange (port : Port)
  /-- `HYFI_SET_MC_MAX_GROUP`. -/
  | setMaxGroup (count : Int)
  /-- `mc_open`. -/
  | start
  /-- `mc_stop`, up to the flush. -/
  | stop
  /-- The flush goes on to a group. It may miss a group that is added behind it. -/
  | flushGroup (group : Group)
  /-- The flush takes its next step inside a group. -/
  | flushStep
  /-- The flush ends. -/
  | flushEnd

variable {Mac Port Group Addr : Type} [DecidableEq Mac] [DecidableEq Port] [DecidableEq Group]
    [DecidableEq Addr]

/-- `MC_GROUP_MIN` and `MC_GROUP_MAX`. -/
def groupMin : Int := 16

def groupMax : Int := 256

namespace Mc

/-- A change of the member of a group with this MAC on this port. -/
def onMember (mc : Mc Mac Port Group Addr) (group : Group) (port : Port) (mac : Mac)
    (change : FdbGroup Mac Addr → FdbGroup Mac Addr) : Mc Mac Port Group Addr :=
  { mc with
    hash := First.modify (fun mdb => decide (mdb.group = group)) (fun mdb => { mdb with
      pslist := First.modify (fun pg => decide (pg.port = port)) (fun pg => { pg with
        fslist := First.modify (fun fg => decide (fg.mac = mac)) change pg.fslist }) mdb.pslist })
          mc.hash }

/-- `mc_leave_group`, with the time it sets. -/
def leaveGroup (mc : Mc Mac Port Group Addr) (group : Group) (mac : Mac) (port : Port)
    (ageingTimer : Jiffies) :
    Mc Mac Port Group Addr :=
  mc.onMember group port mac fun fg => { fg with ageingTimer := ageingTimer }

/-- A change of a group entry that leaves its members alone. -/
def onState (mc : Mc Mac Port Group Addr) (group : Group)
    (change : MdbEntry Mac Port Group Addr → MdbEntry Mac Port Group Addr) :
        Mc Mac Port Group Addr :=
  { mc with hash := First.modify (fun mdb => decide (mdb.group = group)) change mc.hash }

/-- `mc_fdb_change`, for a forwarding entry that is deleted. -/
def fdbChange (mc : Mc Mac Port Group Addr) (mac : Mac) : Mc Mac Port Group Addr :=
  if mc.started then
    { mc with
      hash := mc.hash.map fun mdb => { mdb with
        pslist := mdb.pslist.map fun pg => { pg with
          fslist := pg.fslist.map fun fg => if fg.mac = mac then
            { fg with fdbAgeOut := true } else fg } } }
  else mc

/-- `HYFI_SET_MC_MAX_GROUP`. -/
def setMaxGroup (mc : Mc Mac Port Group Addr) (count : Int) : Mc Mac Port Group Addr :=
  { mc with maxGroupCnt := if groupMin ≤ count ∧ count ≤ groupMax then count else groupMin }

/-- `mc_open`. -/
def start (mc : Mc Mac Port Group Addr) : Mc Mac Port Group Addr :=
  if mc.started then mc else { mc with maxGroupCnt := groupMin, started := true }

/-- The ports of a group. -/
def portsOf (mc : Mc Mac Port Group Addr) (group : Group) : List Port :=
  match mc.find group with
  | none => []
  | some mdb => mdb.pslist.map (·.port)

/-- The members of a group on a port. -/
def macsOf (mc : Mc Mac Port Group Addr) (group : Group) (port : Port) : List Mac :=
  match mc.find group with
  | none => []
  | some mdb =>
    match mdb.pslist.find? fun pg => decide (pg.port = port) with
    | none => []
    | some pg => pg.fslist.map (·.mac)

end Mc

/-- The next step of the flush inside a group. -/
def Snoop.flushStep (snoop : Snoop Mac Port Group Addr) : Option (Snoop Mac Port Group Addr) :=
  match snoop.flush with
  | .idle | .groups => none
  | .ports group (port :: todo) =>
    some { snoop with flush := .hosts group port (snoop.mc.macsOf group port) todo }
  | .ports group [] => some { snoop with mc := snoop.mc.mdbUnlink group, flush := .groups }
  | .hosts group port (mac :: macs) todo =>
    some { snoop with
      mc := snoop.mc.onGroup group (fdbGroupDestroy port mac)
      flush := .hosts group port macs todo }
  | .hosts group port [] todo =>
    some { snoop with
      mc := snoop.mc.onGroup group (portGroupUnlink port)
      flush := .ports group todo }

/-- One step; an event that cannot happen now has no result. -/
def Snoop.step (snoop : Snoop Mac Port Group Addr) : Event Mac Port Group Addr →
    Option (Snoop Mac Port Group Addr)
  | .enter => if snoop.mc.started then some { snoop with waiting := snoop.waiting + 1 } else none
  | .update memory group mac port now =>
    if snoop.waiting = 0 then none
    else some { snoop with
      mc := (snoop.mc.updateMdb memory group mac port now).1
      waiting := snoop.waiting - 1 }
  | .sources group port mac srcs update =>
    some { snoop with
      mc := snoop.mc.onMember group port mac fun fg =>
        { fg with list := sourceListUpdate fg.list srcs update } }
  | .router group state =>
    some { snoop with mc := snoop.mc.onState group fun mdb => { mdb with state := state } }
  | .leave group mac port ageingTimer =>
    some { snoop with mc := snoop.mc.leaveGroup group mac port ageingTimer }
  | .query group timerBase =>
    some { snoop with mc := snoop.mc.onState group fun mdb => { mdb with timerBase := timerBase } }
  | .queriers igmpRlist mldRlist =>
    some { snoop with mc := { snoop.mc with igmpRlist := igmpRlist, mldRlist := mldRlist } }
  | .expired group => some { snoop with mc := snoop.mc.mdbExpired group }
  | .cleanup timeoutGmiEnable now expireTime =>
    some { snoop with mc := snoop.mc.mdbCleanup timeoutGmiEnable now expireTime }
  | .fdbChange mac => some { snoop with mc := snoop.mc.fdbChange mac }
  | .nbpChange port => some { snoop with mc := snoop.mc.nbpChange port }
  | .setMaxGroup count => some { snoop with mc := snoop.mc.setMaxGroup count }
  | .start => some { snoop with mc := snoop.mc.start }
  | .stop =>
    if snoop.mc.started ∧ snoop.flush = .idle then
      some { snoop with mc := { snoop.mc with started := false }, flush := .groups }
    else none
  | .flushGroup group =>
    if snoop.flush = .groups ∧ (snoop.mc.find group).isSome then
      some { snoop with flush := .ports group (snoop.mc.portsOf group) }
    else none
  | .flushStep => snoop.flushStep
  | .flushEnd => if snoop.flush = .groups then some { snoop with flush := .idle } else none

def Snoop.run (snoop : Snoop Mac Port Group Addr) : List (Event Mac Port Group Addr) →
    Option (Snoop Mac Port Group Addr)
  | [] => some snoop
  | event :: events => do
    let next ← snoop.step event
    next.run events

/-- Before snooping is started for the first time. -/
def Snoop.init : Snoop Mac Port Group Addr := ⟨⟨[], 0, 0, false, [], []⟩, .idle, 0⟩

/-- What every step of a run meets, in the state it is made in. -/
def Snoop.Along (meets : Snoop Mac Port Group Addr → Event Mac Port Group Addr → Prop)
    (snoop : Snoop Mac Port Group Addr) : List (Event Mac Port Group Addr) → Prop
  | [] => True
  | event :: events => meets snoop event ∧ ∀ next, snoop.step event = some next →
    next.Along meets events

end Qsdk.Multicast
