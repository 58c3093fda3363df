/-
**The callers of the scan cache.**

What a caller does between two sections under `scan_db_lock` is its own: the loop it is in, and the
nodes it holds references on (`Task.held`). Any number of callers take their sections in any order
(`Cache`). What a node's entry is tested for (its age, whether it is connected, whether it matches)
is left open: a caller may go either way.

In every run no section touches a freed node, the accounting of the cache is exact, and an entry is
active from the section that adds it to the one that deletes it (`refcount_exact`).
-/

import Qsdk.Umac.ScanEntries

set_option linter.unusedSectionVars false

namespace Qsdk.ScanCache

/-- `SCAN_HASH_SIZE`. -/
def hashSize : Nat := 64

/-- A loop over the buckets from `bucket` up to `last`, each walked with `scm_get_next_node`. -/
structure Loop where
  bucket : Nat
  last : Nat
  cur : Option Nat
deriving DecidableEq

/-- A loop over all buckets, and over one. -/
def Loop.all : Loop := ⟨0, hashSize, none⟩

def Loop.one (bucket : Nat) : Loop := ⟨bucket, bucket + 1, none⟩

/-- Where a caller is. -/
inductive Task (Entry : Type)
  | idle
  /-- A loop that looks at nodes, and may delete them: `scm_get_results`,
  `scm_iterate_db_and_call_func`, `scm_flush_scan_entries`, `scm_filter_valid_channel`,
  `scm_update_scan_mlme_info`. -/
  | visit (loop : Loop)
  /-- `scm_get_conn_node`. -/
  | conn (loop : Loop)
  /-- `scm_age_out_entries`, with the connected node. -/
  | age (connNode : Option Nat) (loop : Loop)
  /-- `scm_find_duplicate`. -/
  | find (entry : Entry) (loop : Loop)
  /-- `scm_add_update_entry`, with what `scm_find_duplicate` has found. -/
  | found (entry : Entry) (dup : Option Nat)
  /-- `scm_flush_oldest_entry`. -/
  | oldest (entry : Entry) (dup : Option Nat) (loop : Loop) (oldestNode : Option Nat)
  /-- There, between giving back the node that was the oldest and taking the current one. -/
  | taking (entry : Entry) (dup : Option Nat) (loop : Loop)
  /-- Before the node is allocated. -/
  | add (entry : Entry) (dup : Option Nat)
deriving DecidableEq

/-- What a caller does next. -/
inductive Act (Entry : Type)
  | startVisit (loop : Loop)
  | startAge
  | startAdd (entry : Entry)
  /-- `scm_get_next_node`. -/
  | next
  /-- `scm_scan_entry_del` of the current node. -/
  | delete
  /-- The loop is left, and the current node given back. -/
  | drop
  /-- The loop is left with the current node: it is connected, or matches. -/
  | keep
  /-- The current node is older than the oldest so far. -/
  | older
  /-- The current node is taken as the oldest. -/
  | take
  /-- No memory for the node. -/
  | noMemory
  /-- The loop has ended, or the rest is done in one go. -/
  | finish
deriving DecidableEq

/-- What comes of it. -/
inductive Outcome (State : Type)
  /-- It is not up to this now. -/
  | impossible
  /-- It touches a node that is freed. -/
  | touchesFreed
  | ok (state : State)

/-- A section, and where the caller is behind it. -/
def Outcome.of {State : Type} : Option State → Outcome State
  | none => .touchesFreed
  | some state => .ok state

variable {Entry : Type}

section Steps

variable (hash : Entry → Nat) (maxScanCacheSize : Nat)

/-- The nodes that a caller holds references on. -/
def Task.held : Task Entry → List Nat
  | .idle => []
  | .visit loop | .conn loop | .find _ loop => loop.cur.toList
  | .age connNode loop => loop.cur.toList ++ connNode.toList
  | .found _ dup | .add _ dup => dup.toList
  | .oldest _ dup loop oldestNode => loop.cur.toList ++ (oldestNode.toList ++ dup.toList)
  | .taking _ dup loop => loop.cur.toList ++ dup.toList

/-- The loop that a caller is in. -/
def Task.loop? : Task Entry → Option Loop
  | .visit loop | .conn loop | .age _ loop | .find _ loop | .oldest _ _ loop _ => some loop
  | _ => none

def Task.withLoop (loop : Loop) : Task Entry → Task Entry
  | .visit _ => .visit loop
  | .conn _ => .conn loop
  | .age connNode _ => .age connNode loop
  | .find entry _ => .find entry loop
  | .oldest entry dup _ oldestNode => .oldest entry dup loop oldestNode
  | task => task

/-- The loop with the node that `scm_get_next_node` has returned; without one it goes on to the next
bucket. -/
def Loop.advance (loop : Loop) : Option Nat → Loop
  | some id => { loop with cur := some id }
  | none => { loop with bucket := loop.bucket + 1, cur := none }

/-- `scm_get_next_node` in a loop. -/
def Task.next (db : ScanDb Entry) (task : Task Entry) : Outcome (ScanDb Entry × Task Entry) :=
  match task.loop? with
  | none => .impossible
  | some loop =>
    if loop.bucket = loop.last then .impossible
    else .of ((db.getNextNode hash loop.bucket loop.cur).map fun found =>
      (found.1, task.withLoop (loop.advance found.2)))

/-- The loop has ended. -/
abbrev Loop.Ended (loop : Loop) : Prop := loop.bucket = loop.last ∧ loop.cur = none

/-- The end of a loop, or of a call. -/
def Task.finish (db : ScanDb Entry) : Task Entry → Outcome (ScanDb Entry × Task Entry)
  | .visit loop => if loop.Ended then .ok (db, .idle) else .impossible
  | .conn loop => if loop.Ended then .ok (db, .age none .all) else .impossible
  | .age connNode loop =>
    if loop.Ended then .of ((db.putRefIf connNode).map fun db => (db, .idle)) else .impossible
  | .find entry loop => if loop.Ended then .ok (db, .found entry none) else .impossible
  | .found entry dup =>
    .ok (db, if db.numEntries ≥ maxScanCacheSize then .oldest entry dup .all none else
      .add entry dup)
  | .oldest entry dup loop oldestNode =>
    if loop.Ended then
      match oldestNode with
      | none => .ok (db, .add entry dup)
      | some id => .of (((db.entryDel id).bind fun db => db.putRef id).map fun db =>
        (db, .add entry dup))
    else .impossible
  | .add entry dup =>
    match dup with
    | none => .of ((db.addScanNode entry none).map fun db => (db, .idle))
    | some id =>
      .of (((db.addScanNode entry (some id)).bind fun db => (db.entryDel id).bind fun db =>
        db.putRef id).map
        fun db => (db, .idle))
  | _ => .impossible

/-- A section of a caller. -/
def Task.step (db : ScanDb Entry) (task : Task Entry) : Act Entry →
    Outcome (ScanDb Entry × Task Entry)
  | .startVisit loop =>
    match task with
    | .idle => .ok (db, .visit { loop with cur := none })
    | _ => .impossible
  | .startAge =>
    match task with
    | .idle => .ok (db, .conn .all)
    | _ => .impossible
  | .startAdd entry =>
    match task with
    | .idle => .ok (db, .find entry (.one (hash entry)))
    | _ => .impossible
  | .next => task.next hash db
  | .delete =>
    match task with
    | .visit ⟨_, _, some id⟩ | .age _ ⟨_, _, some id⟩ =>
      .of ((db.entryDel id).map fun db => (db, task))
    | _ => .impossible
  | .drop =>
    match task with
    | .visit ⟨_, _, some id⟩ => .of ((db.putRef id).map fun db => (db, .idle))
    | _ => .impossible
  | .keep =>
    match task with
    | .conn ⟨_, _, some id⟩ => .ok (db, .age (some id) .all)
    | .find entry ⟨_, _, some id⟩ => .ok (db, .found entry (some id))
    | _ => .impossible
  | .older =>
    match task with
    | .oldest entry dup ⟨bucket, last, some id⟩ oldestNode =>
      .of ((db.putRefIf oldestNode).map fun db => (db, .taking entry dup ⟨bucket, last, some id⟩))
    | _ => .impossible
  | .take =>
    match task with
    | .taking entry dup ⟨bucket, last, some id⟩ =>
      .of ((db.getRef id).map fun db => (db, .oldest entry dup ⟨bucket, last, some id⟩ (some id)))
    | _ => .impossible
  | .noMemory =>
    match task with
    | .add _ dup => .of ((db.putRefIf dup).map fun db => (db, .idle))
    | _ => .impossible
  | .finish => task.finish maxScanCacheSize db

/-- The node that a section deletes: the current one of a loop, the oldest, or the one that a new
entry replaces. -/
def Task.deletes (task : Task Entry) : Act Entry → Option Nat
  | .delete =>
    match task with
    | .visit loop | .age _ loop => loop.cur
    | _ => none
  | .finish =>
    match task with
    | .oldest _ _ _ oldestNode => oldestNode
    | .add _ dup => dup
    | _ => none
  | _ => none

/-- The entry that a section adds, with the node that it gets. -/
def Task.adds (db : ScanDb Entry) (task : Task Entry) : Act Entry → List (Nat × Entry)
  | .finish =>
    match task with
    | .add entry _ => [(db.nextId, entry)]
    | _ => []
  | _ => []

/-- The cache and its callers. -/
structure Cache (Entry : Type) where
  db : ScanDb Entry
  tasks : List (Task Entry)

/-- One caller takes its next section. -/
def Cache.step (cache : Cache Entry) (caller : Nat) (act : Act Entry) : Outcome (Cache Entry) :=
  match cache.tasks[caller]? with
  | none => .impossible
  | some task =>
    match task.step hash maxScanCacheSize cache.db act with
    | .impossible => .impossible
    | .touchesFreed => .touchesFreed
    | .ok (db, task) => .ok ⟨db, cache.tasks.set caller task⟩

/-- The node that the next section of a caller deletes, and the entry that it adds. -/
def Cache.deletes (cache : Cache Entry) (caller : Nat) (act : Act Entry) : Option Nat :=
  cache.tasks[caller]?.bind fun task => task.deletes act

def Cache.adds (cache : Cache Entry) (caller : Nat) (act : Act Entry) : List (Nat × Entry) :=
  cache.tasks[caller]?.elim [] fun task => task.adds cache.db act

/-- An empty cache, and callers that have not started. -/
def Cache.init (callers : Nat) : Cache Entry := ⟨⟨[], 0, [], 0⟩, List.replicate callers .idle⟩

/-- What any number of callers can make of an empty cache. -/
inductive Reachable : Cache Entry → Prop
  | init (callers : Nat) : Reachable (Cache.init callers)
  | step {cache next : Cache Entry} (caller : Nat) (act : Act Entry) (reached : Reachable cache)
      (stepped : cache.step hash maxScanCacheSize caller act = .ok next) : Reachable next

end Steps

/-! ### One caller -/

variable {hash : Entry → Nat} {maxScanCacheSize : Nat} {db : ScanDb Entry}
    {refs rest : List Nat} {id : Nat}
  {task : Task Entry}

/-- The active entries change by those that are added and the one that is deleted, and no others
come or go. -/
def ScanDb.Changes (db : ScanDb Entry) (deleted : Option Nat) (added : List (Nat × Entry))
    (db' : ScanDb Entry) : Prop :=
  db'.entries.Perm (added ++ db.entries.filter fun x => decide (some x.1 ≠ deleted))

/-- The active entries are as they were. -/
theorem ScanDb.Changes.of_eq {db' : ScanDb Entry} (same : db'.entries = db.entries) :
    db.Changes none [] db' := by
  unfold ScanDb.Changes
  rw [same, List.nil_append, List.filter_eq_self.mpr fun x _ =>
    decide_eq_true (Option.some_ne_none x.1)]

/-- A section that touches no freed node, leaves the accounting exact with what the caller then
holds, and changes the active entries by what it deletes and adds. -/
def Outcome.Keeps (db : ScanDb Entry) (deleted : Option Nat) (added : List (Nat × Entry))
    (rest : List Nat) :
    Outcome (ScanDb Entry × Task Entry) → Prop
  | .impossible => True
  | .touchesFreed => False
  | .ok (db', task) => db'.Exact (task.held ++ rest) ∧ db.Changes deleted added db'

theorem Outcome.keeps_of_map {deleted : Option Nat} {added : List (Nat × Entry)}
    {section' : Option (ScanDb Entry)} {place : Task Entry}
    (kept : ∃ db', section' = some db' ∧ db'.Exact (place.held ++ rest) ∧
        db.Changes deleted added db') :
    (Outcome.of (section'.map fun db => (db, place))).Keeps db deleted added rest := by
  obtain ⟨db', isSome, exact⟩ := kept
  rw [isSome]
  exact exact

theorem Loop.advance_cur (loop : Loop) (next : Option Nat) : (loop.advance next).cur = next := by
  cases next <;> rfl

/-- The references of a caller, those of the loop first. -/
theorem Task.held_withLoop {loop : Loop} (isLoop : task.loop? = some loop) :
    ∃ others, ∀ loop' : Loop, (task.withLoop loop').held = loop'.cur.toList ++ others := by
  cases task with
  | idle | found | taking | add => cases isLoop
  | visit | conn | find =>
    refine ⟨[], fun loop' => ?_⟩
    rw [List.append_nil]
    rfl
  | age connNode => exact ⟨connNode.toList, fun _ => rfl⟩
  | oldest _ dup _ oldestNode => exact ⟨oldestNode.toList ++ dup.toList, fun _ => rfl⟩

theorem Task.withLoop_self {loop : Loop} (isLoop : task.loop? = some loop) :
    task.withLoop loop = task := by
  cases task with
  | idle | found | taking | add => cases isLoop
  | visit | conn | find | age | oldest =>
    obtain rfl := Option.some.inj isLoop
    rfl

/-- **The next node of a loop.** -/
theorem Task.next_keeps (exact : db.Exact (task.held ++ rest)) :
    (task.next hash db).Keeps db none [] rest := by
  unfold Task.next
  split
  · trivial
  · rename_i loop isLoop
    split
    · trivial
    · obtain ⟨others, held⟩ := Task.held_withLoop isLoop
      have here := held loop
      rw [Task.withLoop_self isLoop] at here
      rw [here, List.append_assoc] at exact
      obtain ⟨db', next, got, kept, _⟩ := @ScanDb.Exact.getNextNode _ _ _ hash loop.bucket _ exact
      have entries := ScanDb.Exact.getNextNode_entries exact got
      rw [got]
      refine ⟨?_, .of_eq entries⟩
      show db'.Exact ((task.withLoop (loop.advance next)).held ++ rest)
      rw [held, Loop.advance_cur, List.append_assoc]
      exact kept

theorem ScanDb.Exact.linked (exact : db.Exact (id :: refs)) : id ∈ db.nodes.map (·.id) :=
    exact.held id List.mem_cons_self

/-- A reference that may be there is given back. -/
theorem ScanDb.Exact.putRefIf_changes {cur : Option Nat} (exact : db.Exact (cur.toList ++ refs)) :
    ∃ db', db.putRefIf cur = some db' ∧ db'.Exact refs ∧ db.Changes none [] db' := by
  obtain ⟨db', given, kept, _⟩ := exact.putRefIf
  exact ⟨db', given, kept, .of_eq (exact.putRefIf_entries given).1⟩

/-- A linked node is deleted. -/
theorem ScanDb.Exact.entryDel_changes (exact : db.Exact refs) (linked : id ∈ db.nodes.map (·.id)) :
    ∃ db', db.entryDel id = some db' ∧ db'.Exact refs ∧ db.Changes (some id) [] db' := by
  obtain ⟨db', deleted, kept⟩ := exact.entryDel linked
  refine ⟨db', deleted, kept, ?_⟩
  unfold ScanDb.Changes
  rw [(exact.entryDel_entries linked deleted).1, List.nil_append]
  simp only [ne_eq, Option.some.injEq]
  exact List.Perm.refl _

/-- A node that the caller holds is deleted, and given back. -/
theorem ScanDb.Exact.entryDel_putRef (exact : db.Exact (id :: refs)) :
    ∃ db', ((db.entryDel id).bind fun db => db.putRef id) = some db' ∧ db'.Exact refs ∧
      db.Changes (some id) [] db' := by
  obtain ⟨between, deleted, exactBetween, changes⟩ := exact.entryDel_changes exact.linked
  obtain ⟨db', given, kept, _⟩ := exactBetween.putRef
  rw [deleted]
  refine ⟨db', given, kept, ?_⟩
  unfold ScanDb.Changes at changes ⊢
  rw [(exactBetween.putRef_entries given).1]
  exact changes

/-- **The entry is added**, and the one that it replaces deleted and given back. -/
theorem ScanDb.Exact.replace (exact : db.Exact (id :: refs)) (entry : Entry) :
    ∃ db', ((db.addScanNode entry (some id)).bind fun db => (db.entryDel id).bind fun db =>
      db.putRef id) = some db' ∧
      db'.Exact refs ∧ db.Changes (some id) [(db.nextId, entry)] db' := by
  have linked : ∀ other, some id = some other → other ∈ db.nodes.map (·.id) := fun _ same =>
    Option.some.inj same ▸ exact.linked
  obtain ⟨between, added, exactBetween⟩ := exact.addScanNode entry linked
  have more := exact.addScanNode_entries entry linked added
  obtain ⟨db', deleted, kept, changes⟩ := exactBetween.entryDel_putRef
  rw [added]
  refine ⟨db', deleted, kept, changes.trans ?_⟩
  have apart : db.nextId ≠ id := fun same => by
    have small := exact.once.mem_iff.mp (List.mem_append_left _ exact.linked)
    rw [List.mem_range, same] at small
    exact absurd small (lt_irrefl id)
  refine (more.filter _).trans ?_
  rw [List.filter_cons_of_pos (by simpa using apart)]
  exact List.Perm.refl _

/-- **The end of a loop or a call.** -/
theorem Task.finish_keeps (exact : db.Exact (task.held ++ rest)) :
    (task.finish maxScanCacheSize db).Keeps db (task.deletes .finish)
        (task.adds db .finish) rest := by
  unfold Task.finish
  split
  · split
    · rename_i loop ended
      dsimp only [Task.held] at exact
      rw [ended.2] at exact
      exact ⟨exact, .of_eq rfl⟩
    · trivial
  · split
    · rename_i loop ended
      dsimp only [Task.held] at exact
      rw [ended.2] at exact
      exact ⟨exact, .of_eq rfl⟩
    · trivial
  · rename_i connNode loop
    split
    · rename_i ended
      dsimp only [Task.held] at exact
      rw [ended.2] at exact
      exact Outcome.keeps_of_map
        (ScanDb.Exact.putRefIf_changes (show db.Exact (connNode.toList ++ rest) from exact))
    · trivial
  · split
    · rename_i entry loop ended
      dsimp only [Task.held] at exact
      rw [ended.2] at exact
      exact ⟨exact, .of_eq rfl⟩
    · trivial
  · refine ⟨?_, .of_eq rfl⟩
    show db.Exact (Task.held (if _ then _ else _) ++ rest)
    split <;> exact exact
  · rename_i entry dup loop oldestNode
    split
    · rename_i ended
      dsimp only [Task.held] at exact
      rw [ended.2] at exact
      cases oldestNode with
      | none => exact ⟨exact, .of_eq rfl⟩
      | some id => exact Outcome.keeps_of_map (ScanDb.Exact.entryDel_putRef exact)
    · trivial
  · rename_i entry dup
    cases dup with
    | none =>
      have linked : ∀ id, none = some id → id ∈ db.nodes.map (·.id) :=
        fun _ wrong => (nomatch wrong)
      obtain ⟨db', added, kept⟩ := ScanDb.Exact.addScanNode exact entry linked
      refine Outcome.keeps_of_map ⟨db', added, kept, ?_⟩
      refine (ScanDb.Exact.addScanNode_entries exact entry linked added).trans ?_
      show List.Perm _ ([(db.nextId, entry)] ++ db.entries.filter fun x => decide (some x.1 ≠ none))
      rw [List.filter_eq_self.mpr fun x _ => decide_eq_true (Option.some_ne_none x.1)]
      exact List.Perm.refl _
    | some id => exact Outcome.keeps_of_map (ScanDb.Exact.replace exact entry)
  · trivial

/-- **A section of a caller** touches no freed node, leaves the accounting exact, and changes the
active entries by what it deletes and adds. -/
theorem Task.step_keeps (exact : db.Exact (task.held ++ rest)) (act : Act Entry) :
    (task.step hash maxScanCacheSize db act).Keeps db (task.deletes act)
        (task.adds db act) rest := by
  unfold Task.step
  split
  · split
    · exact ⟨exact, .of_eq rfl⟩
    · trivial
  · split
    · exact ⟨exact, .of_eq rfl⟩
    · trivial
  · split
    · exact ⟨exact, .of_eq rfl⟩
    · trivial
  · exact Task.next_keeps exact
  · split
    · exact Outcome.keeps_of_map (ScanDb.Exact.entryDel_changes exact (ScanDb.Exact.linked exact))
    · exact Outcome.keeps_of_map (ScanDb.Exact.entryDel_changes exact (ScanDb.Exact.linked exact))
    · trivial
  · split
    · rename_i bucket last id
      exact Outcome.keeps_of_map
        (ScanDb.Exact.putRefIf_changes (show db.Exact ((some id).toList ++ rest) from exact))
    · trivial
  · split
    · exact ⟨exact, .of_eq rfl⟩
    · exact ⟨exact, .of_eq rfl⟩
    · trivial
  · split
    · rename_i entry dup bucket last id oldestNode
      have same : db.Exact (oldestNode.toList ++ (id :: (dup.toList ++ rest))) := by
        refine exact.perm ?_
        dsimp only [Task.held]
        rw [List.append_assoc, List.append_assoc]
        exact List.perm_append_comm_assoc [id] oldestNode.toList (dup.toList ++ rest)
      exact Outcome.keeps_of_map same.putRefIf_changes
    · trivial
  · split
    · obtain ⟨db', got, kept, _⟩ := exact.getRef (ScanDb.Exact.linked exact)
      exact Outcome.keeps_of_map
        ⟨db', got, kept, .of_eq (exact.getRef_entries (ScanDb.Exact.linked exact) got).1⟩
    · trivial
  · split
    · rename_i entry dup
      exact Outcome.keeps_of_map
        (ScanDb.Exact.putRefIf_changes (show db.Exact (dup.toList ++ rest) from exact))
    · trivial
  · exact Task.finish_keeps exact

/-- A node that a loop goes on to is active. -/
theorem Task.next_isActive {db' : ScanDb Entry} {task' : Task Entry} {loop : Loop}
    (exact : db.Exact (task.held ++ rest)) (stepped : task.next hash db = .ok (db', task'))
    (isLoop : task'.loop? = some loop) (isCur : loop.cur = some id) :
    db'.IsActive id := by
  unfold Task.next at stepped
  split at stepped
  · cases stepped
  · rename_i old isOld
    split at stepped
    · cases stepped
    · obtain ⟨others, held⟩ := Task.held_withLoop isOld
      have here := held old
      rw [Task.withLoop_self isOld] at here
      rw [here, List.append_assoc] at exact
      obtain ⟨db'', next, got, _, isActive⟩ :=
        @ScanDb.Exact.getNextNode _ _ _ hash old.bucket _ exact
      rw [got] at stepped
      obtain ⟨rfl, rfl⟩ := Prod.mk.inj (Outcome.ok.inj stepped)
      refine isActive id ?_
      have sameLoop : (task.withLoop (old.advance next)).loop? = some (old.advance next) := by
        cases task with
        | idle | found | taking | add => cases isOld
        | visit | conn | find | age | oldest => rfl
      obtain rfl := Option.some.inj (sameLoop.symm.trans isLoop)
      rw [← Loop.advance_cur old next]
      exact isCur

/-! ### All callers -/

/-- The references that all callers hold. -/
def Cache.allHeld (cache : Cache Entry) : List Nat := cache.tasks.flatMap Task.held

/-- The node that the loop of a caller is at. -/
def Cache.current (cache : Cache Entry) (caller : Nat) : Option Nat :=
  (cache.tasks[caller]?.bind Task.loop?).bind Loop.cur

variable {cache next : Cache Entry} {caller : Nat} {act : Act Entry}

/-- A caller among the others. -/
theorem Cache.split {task : Task Entry} (isCaller : cache.tasks[caller]? = some task) :
    ∃ rest, cache.allHeld.Perm (task.held ++ rest) ∧
      ∀ db task', (Cache.mk db (cache.tasks.set caller task')).allHeld.Perm
          (task'.held ++ rest) := by
  obtain ⟨inRange, isTask⟩ := List.getElem?_eq_some_iff.mp isCaller
  have around : ∀ front back (task : Task Entry), ((front ++ task :: back).flatMap Task.held).Perm
      (task.held ++ (front.flatMap Task.held ++ back.flatMap Task.held)) := by
    intro front back task
    rw [List.flatMap_append, List.flatMap_cons]
    exact List.perm_append_comm_assoc _ _ _
  refine ⟨(cache.tasks.take caller).flatMap Task.held ++
    (cache.tasks.drop (caller + 1)).flatMap Task.held, ?_, fun db task' => ?_⟩
  · unfold Cache.allHeld
    have here : cache.tasks = cache.tasks.take caller ++ task :: cache.tasks.drop (caller + 1) := by
      rw [← isTask, ← List.drop_eq_getElem_cons inRange, List.take_append_drop]
    rw [here]
    refine (around _ _ task).trans ?_
    rw [← here]
  · unfold Cache.allHeld
    dsimp only
    rw [List.set_eq_take_append_cons_drop, if_pos inRange]
    exact around _ _ task'

/-- **A section of any caller.** -/
theorem Cache.step_keeps (exact : cache.db.Exact cache.allHeld) (caller : Nat) (act : Act Entry) :
    cache.step hash maxScanCacheSize caller act ≠ .touchesFreed ∧
      ∀ next, cache.step hash maxScanCacheSize caller act = .ok next → next.db.Exact next.allHeld ∧
        (act = .next → ∀ id, next.current caller = some id → next.db.IsActive id) ∧
        cache.db.Changes (cache.deletes caller act) (cache.adds caller act) next.db := by
  unfold Cache.step
  split
  · exact ⟨fun wrong => (nomatch wrong), fun _ wrong => (nomatch wrong)⟩
  · rename_i task isCaller
    obtain ⟨rest, before, after⟩ := Cache.split isCaller
    have here := exact.perm before
    have kept := @Task.step_keeps _ hash maxScanCacheSize _ _ _ here act
    split
    · exact ⟨fun wrong => (nomatch wrong), fun _ wrong => (nomatch wrong)⟩
    · rename_i touches
      rw [touches] at kept
      exact kept.elim
    · rename_i db' task' stepped
      rw [stepped] at kept
      refine ⟨fun wrong => (nomatch wrong), fun next isNext => ?_⟩
      obtain rfl := Outcome.ok.inj isNext
      refine ⟨ScanDb.Exact.perm kept.1 (after db' task').symm, ?_, ?_⟩
      rotate_left
      · unfold Cache.deletes Cache.adds
        rw [isCaller]
        exact kept.2
      rintro rfl id isCurrent
      obtain ⟨inRange, _⟩ := List.getElem?_eq_some_iff.mp isCaller
      unfold Cache.current at isCurrent
      dsimp only at isCurrent
      rw [List.getElem?_set_self inRange] at isCurrent
      obtain ⟨loop, isLoop, isCur⟩ := Option.bind_eq_some_iff.mp isCurrent
      exact Task.next_isActive here stepped isLoop isCur

theorem Cache.init_exact (callers : Nat) : (Cache.init callers : Cache Entry).db.Exact
    (Cache.init callers : Cache Entry).allHeld := by
  have none : (Cache.init callers : Cache Entry).allHeld = [] := by
    unfold Cache.allHeld Cache.init
    refine List.flatMap_eq_nil_iff.mpr fun task member => ?_
    rw [List.eq_of_mem_replicate member]
    rfl
  rw [none]
  exact ⟨rfl, fun _ member => absurd member List.not_mem_nil, fun _ member =>
    absurd member List.not_mem_nil,
    fun _ member => absurd member List.not_mem_nil, List.Perm.refl _⟩

/-- The induction is on the run. -/
theorem Reachable.exact (reached : Reachable hash maxScanCacheSize cache) :
    cache.db.Exact cache.allHeld := by
  induction reached with
  | init callers => exact Cache.init_exact callers
  | step caller act _ stepped ih => exact ((Cache.step_keeps ih caller act).2 _ stepped).1

/-- The accounting of the cache with all its callers. -/
structure Cache.Accounted (cache : Cache Entry) : Prop where
  numEntries : cache.db.numEntries = cache.db.nodes.length
  refCnt : ∀ node ∈ cache.db.nodes, node.refCnt = cache.allHeld.count node.id +
    if node.active then 1 else 0
  /-- Every node that was ever allocated is linked or freed, and once. -/
  once : (cache.db.nodes.map (·.id) ++ cache.db.freed).Nodup
  every : ∀ id < cache.db.nextId, id ∈ cache.db.nodes.map (·.id) ∨ id ∈ cache.db.freed
  unheld : ∀ id ∈ cache.db.freed, id ∉ cache.allHeld
  done : cache.allHeld = [] → ∀ node ∈ cache.db.nodes, node.active = true

theorem ScanDb.Exact.accounted (exact : cache.db.Exact cache.allHeld) : cache.Accounted := by
  refine ⟨exact.numEntries, exact.refCnt, exact.nodup, fun id small => ?_, fun id gone held => ?_,
    fun noRefs node member => ?_⟩
  · exact List.mem_append.mp (exact.once.mem_iff.mpr (List.mem_range.mpr small))
  · exact (List.nodup_append.mp exact.nodup).2.2 id (exact.held id held) id gone rfl
  · have refCnt := exact.refCnt node member
    have positive := exact.positive node member
    rw [noRefs, List.count_nil] at refCnt
    cases active : node.active with
    | true => rfl
    | false =>
      rw [active, if_neg (by simp)] at refCnt
      omega

/-- **Reference counting is exact.** Whatever the callers have done, the accounting is right; and
whatever any of them does next, it touches no freed node, the accounting stays right, a loop goes on
to an active node, and the active entries are those that were active, less the one that the section
deletes, and with the one that it adds. -/
theorem refcount_exact (reached : Reachable hash maxScanCacheSize cache) :
    cache.Accounted ∧ ∀ caller act, cache.step hash maxScanCacheSize caller act ≠ .touchesFreed ∧
      ∀ next, cache.step hash maxScanCacheSize caller act = .ok next →
        next.Accounted ∧ (act = .next → ∀ id, next.current caller = some id → next.db.IsActive id) ∧
        next.db.entries.Perm (cache.adds caller act ++
          cache.db.entries.filter fun x => decide (some x.1 ≠ cache.deletes caller act)) := by
  refine ⟨reached.exact.accounted, fun caller act => ?_⟩
  obtain ⟨safe, kept⟩ := Cache.step_keeps reached.exact caller act
  exact ⟨safe, fun next stepped => ⟨(kept next stepped).1.accounted, (kept next stepped).2⟩⟩

/-- A caller adds an entry, both walk to it, and the second one deletes it: it stays linked as long
as the first one is at it, and is freed when that goes on. -/
theorem refcount_exact_added :
    ∃ cache : Cache Nat, Reachable (· % hashSize) 1024 cache ∧ cache.allHeld = [0] ∧
    cache.Accounted ∧
      cache.db.entries = [] ∧ ∃ next, cache.step (· % hashSize) 1024 0 .next = .ok next ∧
      next.Accounted ∧
        next.db.freed = [0] ∧ next.db.nodes = [] := by
  have added : Reachable (· % hashSize) 1024 (⟨⟨[⟨0, 5, 1, true⟩], 1, [], 1⟩, [.idle, .idle]⟩ :
      Cache Nat) :=
    .step 0 .finish
      (.step 0 .finish
        (.step 0 .finish (.step 0 .next (.step 0 (.startAdd 5) (.init 2) rfl) rfl) rfl) rfl) rfl
  have walked : Reachable (· % hashSize) 1024
      (⟨⟨[⟨0, 5, 3, true⟩], 1, [], 1⟩, [.visit ⟨5, 6, some 0⟩, .visit ⟨5, 6, some 0⟩]⟩ :
          Cache Nat) :=
    .step 1 .next (.step 1 (.startVisit (.one 5))
      (.step 0 .next (.step 0 (.startVisit (.one 5)) added rfl) rfl) rfl) rfl
  have deleted : Reachable (· % hashSize) 1024
      (⟨⟨[⟨0, 5, 1, false⟩], 1, [], 1⟩, [.visit ⟨5, 6, some 0⟩, .visit ⟨6, 6, none⟩]⟩ :
          Cache Nat) :=
    .step 1 .next (.step 1 .delete walked rfl) rfl
  obtain ⟨accounted, steps⟩ := refcount_exact deleted
  exact ⟨_, deleted, rfl, accounted, rfl, _, rfl, ((steps 0 .next).2 _ rfl).1, rfl, rfl⟩

end Qsdk.ScanCache
