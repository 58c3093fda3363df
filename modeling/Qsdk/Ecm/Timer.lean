/-
**The timer groups of the ECM database.**

A timer group is a list of the entries that run, linked both ways, with the entry that was armed
last in front. Nothing compares expiry times when an entry is linked in: that the list is sorted
rests on the fixed duration of the group and on the clock, which must not come round.

Every function runs under `ecm_db_lock`. The tick drops the lock around each callback and between
two groups, so it is cut there (`State.check`), and whatever a callback or another thread calls in
between are calls of its own.
-/

import Qsdk.Lib.Linked
import Mathlib.Data.List.Basic
import Mathlib.Algebra.Group.Nat.Defs

set_option linter.unusedSectionVars false

namespace Qsdk.Ecm.Timer

/-! ### Groups -/

/-- `ecm_db_timer_group_t`. -/
inductive Group
  | classifierDetermineGenericTimeout
  | connectionGenericTimeout
  | connectionUdpGenericTimeout
  | connectionUdpWkpTimeout
  | connectionIcmpTimeout
  | connectionTcpShortTimeout
  | connectionTcpResetTimeout
  | connectionTcpClosedTimeout
  | connectionTcpLongTimeout
  | connectionPptpDataTimeout
  | connectionRtcpTimeout
  | connectionRtspTimeout
  | connectionRtspFastTimeout
  | connectionRtspSlowTimeout
  | connectionDnsTimeout
  | connectionFtpTimeout
  | connectionH323Timeout
  | connectionIkeTimeout
  | connectionEspTimeout
  | connectionEspPendingTimeout
  | connectionSdpTimeout
  | connectionSipTimeout
  | connectionIgmpTimeout
  | connectionBittorrentTimeout
  | connectionDefunctRetryTimeout
deriving DecidableEq

/-- The groups in the order in which a tick examines them. -/
def Group.all : List Group :=
  [.classifierDetermineGenericTimeout, .connectionGenericTimeout, .connectionUdpGenericTimeout,
    .connectionUdpWkpTimeout, .connectionIcmpTimeout, .connectionTcpShortTimeout,
    .connectionTcpResetTimeout,
    .connectionTcpClosedTimeout, .connectionTcpLongTimeout, .connectionPptpDataTimeout,
    .connectionRtcpTimeout,
    .connectionRtspTimeout, .connectionRtspFastTimeout, .connectionRtspSlowTimeout,
    .connectionDnsTimeout,
    .connectionFtpTimeout, .connectionH323Timeout, .connectionIkeTimeout, .connectionEspTimeout,
    .connectionEspPendingTimeout, .connectionSdpTimeout, .connectionSipTimeout,
    .connectionIgmpTimeout,
    .connectionBittorrentTimeout, .connectionDefunctRetryTimeout]

/-- How long an entry of the group has to live when it is touched, as `ecm_db_timer_init` sets
it. -/
def Group.time : Group → Nat
  | .classifierDetermineGenericTimeout => 5
  | .connectionGenericTimeout => 240
  | .connectionUdpGenericTimeout => 300
  | .connectionUdpWkpTimeout => 300
  | .connectionIcmpTimeout => 60
  | .connectionTcpShortTimeout => 240
  | .connectionTcpResetTimeout => 240
  | .connectionTcpClosedTimeout => 10
  | .connectionTcpLongTimeout => 3600
  | .connectionPptpDataTimeout => 300
  | .connectionRtcpTimeout => 1800
  | .connectionRtspTimeout => 3600
  | .connectionRtspFastTimeout => 5
  | .connectionRtspSlowTimeout => 120
  | .connectionDnsTimeout => 30
  | .connectionFtpTimeout => 60
  | .connectionH323Timeout => 28800
  | .connectionIkeTimeout => 54000
  | .connectionEspTimeout => 7800
  | .connectionEspPendingTimeout => 3
  | .connectionSdpTimeout => 120
  | .connectionSipTimeout => 28800
  | .connectionIgmpTimeout => 240
  | .connectionBittorrentTimeout => 120
  | .connectionDefunctRetryTimeout => 5

/-- No group lets its entries expire at once. -/
theorem Group.time_pos (g : Group) : 0 < g.time := by cases g <;> decide

theorem Group.mem_all (g : Group) : g ∈ Group.all := by cases g <;> decide

/-! ### The functions -/

/-- The entries and the groups. `group` is none for `ECM_DB_TIMER_GROUPS_MAX`, and `check` is where
a tick has got to: the time that it examines the groups for, and the groups that it has not
finished. -/
structure State (Entry : Type) where
  links : Links Entry
  group : Entry → Option Group
  timeout : Entry → Nat
  head : Group → Option Entry
  tail : Group → Option Entry
  time : Nat
  checking : Option (Nat × List Group)

variable {Entry : Type} [DecidableEq Entry]

/-- The expiry time of an entry that is armed in the group now, in 32 bits. -/
def State.deadline (state : State Entry) (g : Group) : Nat := (g.time + state.time) % 2 ^ 32

/-- `ecm_db_timer_group_entry_init`, of an entry in no list. -/
def State.init (state : State Entry) (tge : Entry) : State Entry :=
  { state with
    links := ⟨Function.update state.links.next tge none, Function.update state.links.prev tge none⟩
    timeout := Function.update state.timeout tge 0
    group := Function.update state.group tge none }

/-- `_ecm_db_timer_group_entry_remove`. -/
def State.remove (state : State Entry) (tge : Entry) : Bool × State Entry :=
  match state.group tge with
  | none => (false, state)
  | some g =>
    (true, { state with
      links := state.links.unlink tge
      head := if state.links.prev tge = none then Function.update state.head g
        (state.links.next tge)
        else state.head
      tail := if state.links.next tge = none then Function.update state.tail g
        (state.links.prev tge)
        else state.tail
      group := Function.update state.group tge none })

/-- `_ecm_db_timer_group_entry_set`. -/
def State.set (state : State Entry) (tge : Entry) (tg : Group) : State Entry :=
  { state with
    group := Function.update state.group tge (some tg)
    timeout := Function.update state.timeout tge (state.deadline tg)
    links := state.links.pushFront (state.head tg) tge
    tail := if state.head tg = none then Function.update state.tail tg (some tge) else state.tail
    head := Function.update state.head tg (some tge) }

/-- `ecm_db_timer_group_entry_reset`. -/
def State.reset (state : State Entry) (tge : Entry) (tg : Group) : Bool × State Entry :=
  let (removed, after) := state.remove tge
  if removed then (true, after.set tge tg) else (false, state)

/-- `ecm_db_timer_group_entry_touch`. -/
def State.touch (state : State Entry) (tge : Entry) : Bool × State Entry :=
  match state.group tge with
  | none => (false, state)
  | some g =>
    if state.links.prev tge = none then
      (true, { state with timeout := Function.update state.timeout tge (state.deadline g) })
    else
      (true, { state with
        links := (state.links.unlink tge).pushFront (state.head g) tge
        tail := if state.links.next tge = none then Function.update state.tail g
          (state.links.prev tge)
          else state.tail
        timeout := Function.update state.timeout tge (state.deadline g)
        head := Function.update state.head g (some tge) })

/-- `ecm_db_connection_defunct_timer_remove_and_set`. -/
def State.removeAndSet (state : State Entry) (tge : Entry) (tg : Group) : State Entry :=
  if state.group tge = some tg then state
  else if state.group tge ≠ none then (state.remove tge).2.set tge tg
  else state.set tge tg

/-- `ecm_db_timer_callback`, up to where it begins to examine the groups. -/
def State.tick (state : State Entry) : State Entry :=
  let timer := (state.time + 1) % 2 ^ 32
  { state with time := timer, checking := some (timer, Group.all) }

/-- The entry at the tail of the group expires. -/
def State.expire (state : State Entry) (g : Group) (tge : Entry) : State Entry :=
  { state with
    links := match state.links.prev tge with
      | some before => ⟨Function.update state.links.next before none, state.links.prev⟩
      | none => state.links
    head := if state.links.prev tge = none then Function.update state.head g none else state.head
    tail := Function.update state.tail g (state.links.prev tge)
    group := Function.update state.group tge none }

/-- What `ecm_db_timer_groups_check` does from where it takes the lock to where it drops it: an
entry that has expired is called back, or the group is done. -/
def State.check (state : State Entry) : Option Entry × State Entry :=
  match state.checking with
  | none => (none, state)
  | some (_, []) => (none, { state with checking := none })
  | some (timeNow, g :: rest) =>
    match state.tail g with
    | none => (none, { state with checking := some (timeNow, rest) })
    | some tge =>
      if state.timeout tge > timeNow then (none, { state with checking := some (timeNow, rest) })
      else (some tge, state.expire g tge)

/-! ### Calls -/

inductive Call (Entry : Type)
  | init (tge : Entry)
  | set (tge : Entry) (tg : Group)
  | reset (tge : Entry) (tg : Group)
  | touch (tge : Entry)
  | remove (tge : Entry)
  | removeAndSet (tge : Entry) (tg : Group)
  | tick
  | check

/-- What a call answers, or whom it calls back. -/
inductive Answer (Entry : Type)
  | done
  | result (value : Bool)
  | expired (tge : Entry)
deriving DecidableEq

def State.call (state : State Entry) : Call Entry → Answer Entry × State Entry
  | .init tge => (.done, state.init tge)
  | .set tge tg => (.done, state.set tge tg)
  | .reset tge tg => let (value, after) := state.reset tge tg; (.result value, after)
  | .touch tge => let (value, after) := state.touch tge; (.result value, after)
  | .remove tge => let (value, after) := state.remove tge; (.result value, after)
  | .removeAndSet tge tg => (.done, state.removeAndSet tge tg)
  | .tick => (.done, state.tick)
  | .check => let (called, after) := state.check; (called.elim .done .expired, after)

/-- What the functions rely on: an entry is initialised while it is in no list, and set while it is
in no group, as the assertion there says, and one tick is over before the next. -/
def State.Allowed (state : State Entry) : Call Entry → Prop
  | .init tge | .set tge _ => state.group tge = none
  | .tick => state.checking = none
  | .reset _ _ | .touch _ | .remove _ | .removeAndSet _ _ | .check => True

/-- Neither the clock nor a deadline comes round. -/
def State.InTime (state : State Entry) : Call Entry → Prop
  | .set _ tg | .reset _ tg | .removeAndSet _ tg => tg.time + state.time < 2 ^ 32
  | .touch tge => ∀ g ∈ state.group tge, g.time + state.time < 2 ^ 32
  | .tick => state.time + 1 < 2 ^ 32
  | .init _ | .remove _ | .check => True

def State.run (state : State Entry) (calls : List (Call Entry)) : State Entry :=
  calls.foldl (fun state call => (state.call call).2) state

/-- Every call of the run follows the rule. -/
def State.Along (rule : State Entry → Call Entry → Prop) (state : State Entry) :
    List (Call Entry) → Prop
  | [] => True
  | call :: calls => rule state call ∧ State.Along rule (state.call call).2 calls

/-- Every call of the run is allowed and in time. -/
def State.Legal (state : State Entry) (calls : List (Call Entry)) : Prop :=
  state.Along (fun state call => state.Allowed call ∧ state.InTime call) calls

/-- No entry was ever armed. -/
structure State.Fresh (state : State Entry) : Prop where
  group : ∀ tge, state.group tge = none
  head : ∀ g, state.head g = none
  tail : ∀ g, state.tail g = none
  time : state.time = 0
  checking : state.checking = none

/-! ### The queues -/

/-- The groups that the tick under way has not finished. -/
def State.unchecked (state : State Entry) : List Group := state.checking.elim [] Prod.snd

/-- **The timer groups are queues.** `lists` are the entries of each group, the one that was armed
last in front. -/
structure State.Queues (state : State Entry) (lists : Group → List Entry) : Prop where
  chained : ∀ g, state.links.Chained none (lists g) none
  nodup : ∀ g, (lists g).Nodup
  head : ∀ g, state.head g = (lists g).head?
  tail : ∀ g, state.tail g = (lists g).getLast?
  group : ∀ g tge, tge ∈ lists g ↔ state.group tge = some g
  sorted : ∀ g, (lists g).Pairwise fun later earlier => state.timeout earlier ≤ state.timeout later
  bound : ∀ g, ∀ tge ∈ lists g, state.timeout tge ≤ g.time + state.time
  waiting : ∀ g, g ∉ state.unchecked → ∀ tge ∈ lists g, state.time < state.timeout tge
  now : ∀ timeNow rest, state.checking = some (timeNow, rest) → timeNow = state.time

variable {state : State Entry} {lists : Group → List Entry}

theorem State.Fresh.queues (fresh : state.Fresh) : state.Queues fun _ => [] := by
  obtain ⟨group, head, tail, time, checking⟩ := fresh
  constructor <;> simp [Links.Chained, group, head, tail, checking]

/-- Entries of two groups are different. -/
theorem State.Queues.apart (queues : state.Queues lists) {g g' : Group} (different : g' ≠ g) :
    ∀ tge ∈ lists g', tge ∉ lists g := by
  intro tge member other
  rw [queues.group] at member other
  rw [member] at other
  exact different (Option.some.inj other)

/-! ### One call -/

/-- What `remove` leaves of an entry that is in a group. -/
theorem State.remove_some {tge : Entry} {g : Group} (armed : state.group tge = some g) :
    state.remove tge = (true, { state with
      links := state.links.unlink tge
      head := if state.links.prev tge = none then Function.update state.head g
        (state.links.next tge)
        else state.head
      tail := if state.links.next tge = none then Function.update state.tail g
        (state.links.prev tge)
        else state.tail
      group := Function.update state.group tge none }) := by
  unfold State.remove
  rw [armed]

/-- The pointers of the list that an entry is taken from. -/
theorem State.Queues.ends (queues : state.Queues lists) {tge : Entry} {g : Group}
    (member : tge ∈ lists g) :
    (if state.links.prev tge = none then state.links.next tge else state.head g) =
    ((lists g).erase tge).head? ∧
      (if state.links.next tge = none then state.links.prev tge else state.tail g) =
        ((lists g).erase tge).getLast? := by
  have chained := queues.chained g
  have head := queues.head g
  have tail := queues.tail g
  have nodup := queues.nodup g
  obtain ⟨front, back, split⟩ := List.append_of_mem member
  rw [split] at chained head tail nodup ⊢
  obtain ⟨prev, next⟩ := chained.fields
  obtain ⟨-, -, apart⟩ := List.nodup_append.mp nodup
  have notInFront : tge ∉ front := fun inFront => apart tge inFront tge List.mem_cons_self rfl
  rw [List.erase_append_right _ notInFront, List.erase_cons_head, prev, next, head, tail]
  constructor
  · cases front with
    | nil => simp
    | cons first front => simp [List.getLast?_cons]
  · cases back with
    | nil => simp
    | cons first back => simp [List.getLast?_append, List.getLast?_cons]

/-- **An entry that is removed is taken from the list of its group, and from no other.** -/
theorem State.Queues.remove (queues : state.Queues lists) {tge : Entry} {g : Group}
    (armed : state.group tge = some g) :
    (state.remove tge).2.Queues (Function.update lists g ((lists g).erase tge)) := by
  have member : tge ∈ lists g := (queues.group g tge).mpr armed
  obtain ⟨headEnd, tailEnd⟩ := queues.ends member
  have sub : ∀ g', ∀ other ∈ Function.update lists g ((lists g).erase tge) g',
      other ∈ lists g' := by
    intro g' other inList
    by_cases same : g' = g
    · subst same
      rw [Function.update_self] at inList
      exact List.mem_of_mem_erase inList
    · rwa [Function.update_of_ne same] at inList
  rw [State.remove_some armed]
  constructor
  · intro g'
    by_cases same : g' = g
    · subst same
      rw [Function.update_self]
      exact (queues.chained g').unlink (queues.nodup g') member
    · rw [Function.update_of_ne same]
      exact (queues.chained g).unlink_frame member (queues.nodup g) (queues.chained g')
        (queues.apart same)
  · intro g'
    by_cases same : g' = g
    · subst same
      rw [Function.update_self]
      exact (queues.nodup g').erase tge
    · rw [Function.update_of_ne same]
      exact queues.nodup g'
  · intro g'
    by_cases same : g' = g
    · subst same
      rw [Function.update_self, ← headEnd]
      show (if state.links.prev tge = none then _ else state.head) g' = _
      split_ifs
      · exact Function.update_self _ _ _
      · rfl
    · rw [Function.update_of_ne same, ← queues.head g']
      show (if state.links.prev tge = none then _ else state.head) g' = _
      split_ifs
      · exact Function.update_of_ne same _ _
      · rfl
  · intro g'
    by_cases same : g' = g
    · subst same
      rw [Function.update_self, ← tailEnd]
      show (if state.links.next tge = none then _ else state.tail) g' = _
      split_ifs
      · exact Function.update_self _ _ _
      · rfl
    · rw [Function.update_of_ne same, ← queues.tail g']
      show (if state.links.next tge = none then _ else state.tail) g' = _
      split_ifs
      · exact Function.update_of_ne same _ _
      · rfl
  · intro g' other
    show other ∈ _ ↔ Function.update state.group tge none other = some g'
    by_cases self : other = tge
    · subst self
      rw [Function.update_self]
      refine ⟨fun inList => ?_, fun impossible => by cases impossible⟩
      by_cases same : g' = g
      · subst same
        rw [Function.update_self, (queues.nodup g').mem_erase_iff] at inList
        exact absurd rfl inList.1
      · rw [Function.update_of_ne same] at inList
        exact absurd member (queues.apart same other inList)
    · rw [Function.update_of_ne self, ← queues.group]
      by_cases same : g' = g
      · subst same
        rw [Function.update_self, List.mem_erase_of_ne self]
      · rw [Function.update_of_ne same]
  · intro g'
    by_cases same : g' = g
    · subst same
      rw [Function.update_self]
      exact (queues.sorted g').sublist List.erase_sublist
    · rw [Function.update_of_ne same]
      exact queues.sorted g'
  · exact fun g' other inList => queues.bound g' other (sub g' other inList)
  · exact fun g' done other inList => queues.waiting g' done other (sub g' other inList)
  · exact queues.now

/-- **An entry that is set is in front of its group.** -/
theorem State.Queues.set (queues : state.Queues lists) {tge : Entry} {tg : Group}
    (out : state.group tge = none) (clock : tg.time + state.time < 2 ^ 32) :
    (state.set tge tg).Queues (Function.update lists tg (tge :: lists tg)) := by
  have nowhere : ∀ g, tge ∉ lists g := by
    intro g member
    rw [queues.group, out] at member
    cases member
  have deadline : state.deadline tg = tg.time + state.time := Nat.mod_eq_of_lt clock
  have others : ∀ other, other ≠ tge → (state.set tge tg).timeout other = state.timeout other :=
    fun other different => Function.update_of_ne different _ _
  have own : (state.set tge tg).timeout tge = tg.time + state.time := by
    show Function.update _ _ _ _ = _
    rw [Function.update_self, deadline]
  have differs : ∀ g, ∀ other ∈ lists g, other ≠ tge := by
    rintro g other member rfl
    exact nowhere g member
  constructor
  · intro g
    show (state.links.pushFront (state.head tg) tge).Chained none _ none
    rw [queues.head tg]
    by_cases same : g = tg
    · subst same
      rw [Function.update_self]
      exact (queues.chained g).pushFront (queues.nodup g) (nowhere g)
    · rw [Function.update_of_ne same]
      exact (queues.chained g).pushFront_frame (nowhere g) (queues.apart same)
  · intro g
    by_cases same : g = tg
    · subst same
      rw [Function.update_self]
      exact List.nodup_cons.mpr ⟨nowhere g, queues.nodup g⟩
    · rw [Function.update_of_ne same]
      exact queues.nodup g
  · intro g
    show Function.update state.head tg (some tge) g = _
    by_cases same : g = tg
    · subst same
      rw [Function.update_self, Function.update_self]
      rfl
    · rw [Function.update_of_ne same, Function.update_of_ne same]
      exact queues.head g
  · intro g
    show (if state.head tg = none then Function.update state.tail tg (some tge) else state.tail) g =
      _
    have head := queues.head tg
    have tail := queues.tail tg
    by_cases same : g = tg
    · subst same
      rw [Function.update_self]
      cases whole : lists g with
      | nil =>
        rw [whole] at head
        rw [if_pos (by simpa using head), Function.update_self]
        rfl
      | cons first rest =>
        rw [whole] at head tail
        rw [if_neg (by simp [head]), tail, List.getLast?_cons_cons]
    · rw [Function.update_of_ne same, ← queues.tail g]
      split_ifs
      · exact Function.update_of_ne same _ _
      · rfl
  · intro g other
    show other ∈ _ ↔ Function.update state.group tge (some tg) other = some g
    by_cases self : other = tge
    · subst self
      rw [Function.update_self]
      by_cases same : g = tg
      · subst same
        simp
      · rw [Function.update_of_ne same]
        refine ⟨fun member => absurd member (nowhere g), fun equal => ?_⟩
        exact absurd (Option.some.inj equal).symm same
    · rw [Function.update_of_ne self, ← queues.group]
      by_cases same : g = tg
      · subst same
        rw [Function.update_self, List.mem_cons, or_iff_right self]
      · rw [Function.update_of_ne same]
  · intro g
    by_cases same : g = tg
    · subst same
      rw [Function.update_self, List.pairwise_cons]
      refine ⟨?_, ?_⟩
      · intro other member
        rw [own, others other (differs g other member)]
        exact queues.bound g other member
      · refine (queues.sorted g).imp_of_mem ?_
        intro later earlier laterMember earlierMember order
        rwa [others _ (differs g _ laterMember), others _ (differs g _ earlierMember)]
    · rw [Function.update_of_ne same]
      refine (queues.sorted g).imp_of_mem ?_
      intro later earlier laterMember earlierMember order
      rwa [others _ (differs g _ laterMember), others _ (differs g _ earlierMember)]
  · intro g other member
    show _ ≤ g.time + state.time
    by_cases self : other = tge
    · subst self
      rw [own]
      by_cases same : g = tg
      · exact Nat.le_of_eq (by rw [same])
      · rw [Function.update_of_ne same] at member
        exact absurd member (nowhere g)
    · rw [others other self]
      refine queues.bound g other ?_
      by_cases same : g = tg
      · subst same
        rw [Function.update_self, List.mem_cons] at member
        exact member.resolve_left self
      · rwa [Function.update_of_ne same] at member
  · intro g done other member
    show state.time < _
    by_cases self : other = tge
    · subst self
      have pos := tg.time_pos
      rw [own]
      omega
    · rw [others other self]
      refine queues.waiting g done other ?_
      by_cases same : g = tg
      · subst same
        rw [Function.update_self, List.mem_cons] at member
        exact member.resolve_left self
      · rwa [Function.update_of_ne same] at member
  · exact queues.now

/-- The entry at the head of its list has none before it. -/
theorem State.Queues.first (queues : state.Queues lists) {tge : Entry} {g : Group}
    (armed : state.group tge = some g) (first : state.links.prev tge = none) :
        ∃ rest, lists g = tge :: rest := by
  obtain ⟨front, back, split⟩ := List.append_of_mem ((queues.group g tge).mpr armed)
  have chained := queues.chained g
  rw [split] at chained
  rw [chained.fields.1, List.getLast?_eq_none_iff] at first
  exact ⟨back, by rw [split, first]; rfl⟩

/-- A touch of an entry that is not the first is a removal and a new start. -/
theorem State.Queues.touch_eq (queues : state.Queues lists) {tge : Entry} {g : Group}
    (armed : state.group tge = some g) (notFirst : state.links.prev tge ≠ none) :
    state.touch tge = (true, (state.remove tge).2.set tge g) := by
  have some : state.head g ≠ none := by
    rw [queues.head g]
    intro empty
    have member := (queues.group g tge).mpr armed
    rw [List.head?_eq_none_iff.mp empty] at member
    cases member
  have back : Function.update (Function.update state.group tge none) tge (.some g) =
      state.group := by
    rw [Function.update_idem, ← armed, Function.update_eq_self]
  unfold State.touch State.set
  rw [State.remove_some armed, armed]
  simp only [notFirst, if_false, some, back]
  rfl

/-- **A touched entry is in front of its group.** -/
theorem State.Queues.touch (queues : state.Queues lists) {tge : Entry} {g : Group}
    (armed : state.group tge = some g) (clock : g.time + state.time < 2 ^ 32) :
    ∃ lists, (state.touch tge).2.Queues lists := by
  by_cases first : state.links.prev tge = none
  · obtain ⟨rest, whole⟩ := queues.first armed first
    have deadline : state.deadline g = g.time + state.time := Nat.mod_eq_of_lt clock
    have touched : (state.touch tge).2 =
        { state with timeout := Function.update state.timeout tge (state.deadline g) } := by
      unfold State.touch
      rw [armed]
      exact congrArg Prod.snd (if_pos first)
    have others : ∀ other, other ≠ tge → (state.touch tge).2.timeout other =
        state.timeout other := by
      intro other different
      rw [touched]
      exact Function.update_of_ne different _ _
    have own : (state.touch tge).2.timeout tge = g.time + state.time := by
      rw [touched, ← deadline]
      exact Function.update_self _ _ _
    have time : (state.touch tge).2.time = state.time := by rw [touched]
    have outside : ∀ g', g' ≠ g → ∀ other ∈ lists g', other ≠ tge := by
      rintro g' different other member rfl
      rw [queues.group, armed] at member
      exact different (Option.some.inj member).symm
    refine ⟨lists, ?_, queues.nodup, ?_, ?_, ?_, ?_, ?_, ?_, ?_⟩
    · rw [touched]; exact queues.chained
    · rw [touched]; exact queues.head
    · rw [touched]; exact queues.tail
    · rw [touched]; exact queues.group
    · intro g'
      have sorted := queues.sorted g'
      by_cases same : g' = g
      · subst same
        have nodup := queues.nodup g'
        have bound := queues.bound g'
        rw [whole] at sorted nodup bound ⊢
        obtain ⟨-, sorted⟩ := List.pairwise_cons.mp sorted
        obtain ⟨notIn, -⟩ := List.nodup_cons.mp nodup
        have different : ∀ other ∈ rest, other ≠ tge := by
          rintro other member rfl
          exact notIn member
        refine List.pairwise_cons.mpr ⟨?_, ?_⟩
        · intro other member
          rw [own, others other (different other member)]
          exact bound other (List.mem_cons_of_mem _ member)
        · refine sorted.imp_of_mem ?_
          intro later earlier laterMember earlierMember order
          rwa [others _ (different _ laterMember), others _ (different _ earlierMember)]
      · refine sorted.imp_of_mem ?_
        intro later earlier laterMember earlierMember order
        rwa [others _ (outside g' same _ laterMember), others _ (outside g' same _ earlierMember)]
    · intro g' other member
      rw [time]
      by_cases self : other = tge
      · subst self
        rw [queues.group, armed] at member
        rw [own]
        exact Nat.le_of_eq (by rw [Option.some.inj member])
      · rw [others other self]
        exact queues.bound g' other member
    · intro g' done other member
      rw [time]
      by_cases self : other = tge
      · subst self
        have pos := g.time_pos
        rw [own]
        omega
      · rw [others other self]
        refine queues.waiting g' ?_ other member
        rwa [touched] at done
    · rw [touched]; exact queues.now
  · rw [queues.touch_eq armed first]
    refine ⟨_, (queues.remove armed).set ?_ ?_⟩
    · rw [State.remove_some armed]
      exact Function.update_self _ _ _
    · rwa [State.remove_some armed]

/-- What expires at the tail of a list is removed from it. -/
theorem State.Queues.expire_eq (queues : state.Queues lists) {tge : Entry} {g : Group}
    (tail : state.tail g = some tge) : state.group tge = some g ∧
        state.expire g tge = (state.remove tge).2 := by
  have last : (lists g).getLast? = some tge := by rw [← queues.tail g, tail]
  have member : tge ∈ lists g := List.mem_of_getLast? last
  have armed := (queues.group g tge).mp member
  have chained := queues.chained g
  obtain ⟨front, split⟩ := List.getLast?_eq_some_iff.mp last
  rw [split] at chained
  have next : state.links.next tge = none := chained.fields.2
  refine ⟨armed, ?_⟩
  rw [State.remove_some armed]
  unfold State.expire Links.unlink
  simp only [next]
  cases prev : state.links.prev tge with
  | none => simp [next]
  | some before =>
    have other : before ≠ tge := by
      rintro rfl
      rw [chained.fields.1] at prev
      have inFront : before ∈ front := List.mem_of_getLast? prev
      have nodup := queues.nodup g
      rw [split] at nodup
      exact (List.nodup_append.mp nodup).2.2 before inFront before List.mem_cons_self rfl
    simp [next, Function.update_of_ne other.symm]

/-- **A tick takes the entries of a group from the tail of its list until the one there has time
left.** -/
theorem State.Queues.check (queues : state.Queues lists) : ∃ lists, state.check.2.Queues lists := by
  unfold State.check
  split
  · exact ⟨lists, queues⟩
  · rename_i timeNow checking
    refine ⟨lists,
      { queues with
        waiting := fun g _ => queues.waiting g ?_, now := fun _ _ other => by cases other }⟩
    rw [State.unchecked, checking]
    exact List.not_mem_nil
  · rename_i timeNow g rest checking
    have now := queues.now _ _ checking
    have unchecked : state.unchecked = g :: rest := by rw [State.unchecked, checking]; rfl
    -- a group is done when its tail has time left, as the other entries have more
    have done (left : ∀ tge ∈ lists g, state.time < state.timeout tge) :
        ({ state with checking := some (timeNow, rest) } : State Entry).Queues lists := by
      refine { queues with waiting := ?_, now := ?_ }
      · intro g' finished other member
        by_cases same : g' = g
        · subst same
          exact left other member
        · refine queues.waiting g' ?_ other member
          rw [unchecked, List.mem_cons, not_or]
          exact ⟨same, finished⟩
      · rintro _ _ ⟨⟩
        exact now
    split
    · rename_i tail
      rw [queues.tail, List.getLast?_eq_none_iff] at tail
      refine ⟨lists, done ?_⟩
      rw [tail]
      intro tge member
      cases member
    · rename_i tge tail
      split_ifs with late
      · refine ⟨lists, done ?_⟩
        intro other member
        have last : (lists g).getLast? = some tge := by rw [← queues.tail g, tail]
        obtain ⟨front, split⟩ := List.getLast?_eq_some_iff.mp last
        have sorted := queues.sorted g
        rw [split] at sorted member
        rcases List.mem_append.mp member with inFront | isLast
        · have order := (List.pairwise_append.mp sorted).2.2 other inFront tge List.mem_cons_self
          omega
        · rw [List.mem_singleton.mp isLast]
          omega
      · obtain ⟨armed, same⟩ := queues.expire_eq tail
        exact ⟨_, same ▸ queues.remove armed⟩

end Qsdk.Ecm.Timer
