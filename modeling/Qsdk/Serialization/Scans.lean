/-
**Serialization: the scans of a pdev.**

A scan is activated at once if fewer scans than allowed are active, on all pdevs together, and none
is pending on its pdev; else it is pending. Who takes an active scan off the queue looks at the
first pending one, once, and in a section of its own (`wlan_serialization_scan.c`, and the branches
for scans in `_internal.c`, `_queue.c` and `_utils.c`).

As long as every cancellation finds its place in the list again after it has released the lock for
the callbacks, no command node is lost or in two lists (`scans_kept`). With a single pdev, and as
long as no active scan is cancelled, a scan is pending only while as many as allowed are active or a
thread is about to look (`scans_conserved`). A cancellation does not look: if it takes the last
active scan, the pending ones stay where they are, and what is requested after them does not become
active either (`stuck_run`).
-/

import Mathlib.Data.List.Perm.Basic
import Mathlib.Data.List.Range
import Qsdk.Serialization.Cancellation
import Qsdk.Serialization.Sections

namespace Qsdk.Serialization

variable {limits : Limits}

/-- `WLAN_SER_MAX_ACTIVE_SCAN_CMDS` and `WLAN_SER_MAX_PENDING_SCAN_CMDS`. -/
def scanMaxSize (isActive : Bool) : Nat := if isActive then 8 else 24

namespace ScanQueue

variable (queue : ScanQueue limits)

def setList (isActive : Bool) (list : List NodeId) : ScanQueue limits :=
  { queue with pdevList := Function.update queue.pdevList isActive list }

def updateInUse (node : NodeId) (change : InUse → InUse) : ScanQueue limits :=
  { queue with cmdInUse := Function.update queue.cmdInUse node (change (queue.cmdInUse node)) }

/-- A node is zeroed and goes back to the pool. -/
def release (node : NodeId) : ScanQueue limits where
  pdevList := queue.pdevList
  cmdPoolList := queue.cmdPoolList ++ [node]
  cmd := Function.update queue.cmd node none
  cmdInUse := Function.update queue.cmdInUse node .zero

/-- A node of the pool gets a command. -/
def fill (node : NodeId) (pool : List NodeId) (cmd : ScanCommand limits) : ScanQueue limits :=
  { queue with cmdPoolList := pool, cmd := Function.update queue.cmd node (some cmd) }

/-- `wlan_serialization_find_cmd` for `WLAN_SER_MATCH_CMD_ID_VDEV`. -/
def findCmd (isActive : Bool) (cmd : ScanCommand limits) : Option NodeId :=
  (queue.pdevList isActive).find? fun node => queue.cmd node = some cmd

/-- `wlan_ser_remove_scan_cmd`. A node that is about to be activated is marked for removal
instead. -/
def removeScanCmd (cmd : ScanCommand limits) (isActive : Bool) :
    Except QdfStatus NodeId × ScanQueue limits :=
  match queue.findCmd isActive cmd with
  | none => (.error .eFailure, queue)
  | some node =>
    if (queue.cmdInUse node).markedForActivation then
      (.error .ePending, queue.updateInUse node fun inUse =>
        { inUse with activeMarkedForRemoval := true })
    else (.ok node, queue.setList isActive ((queue.pdevList isActive).erase node))

/-- `wlan_ser_add_scan_cmd`: the list with the node, unless it is full. -/
def addScanCmd (node : NodeId) (isHighPriority isActive : Bool) : Option (ScanQueue limits) :=
  if (queue.pdevList isActive).length = scanMaxSize isActive then none
  else if isHighPriority then some (queue.setList isActive (node :: queue.pdevList isActive))
  else some (queue.setList isActive (queue.pdevList isActive ++ [node]))

/-- A node in the active list is marked for activation. -/
def markForActivation (node : NodeId) : ScanQueue limits :=
  queue.updateInUse node fun inUse => { inUse with markedForActivation := true }

end ScanQueue

/-- The scan queue of a pdev, with the priority of each command, and the number of threads that have
taken an active scan off the queue and have yet to look at the pending ones. -/
structure Scans (limits : Limits) where
  queue : ScanQueue limits
  isHighPriority : NodeId → Bool
  moves : Nat

/-- What a thread does to the scans in one section under the lock. -/
inductive ScanOp (limits : Limits)
  /-- `wlan_serialization_enqueue_cmd`. -/
  | enqueue (cmd : ScanCommand limits) (cmdCb isHighPriority : Bool)
  /-- `wlan_serialization_dequeue_cmd`, for a request, a timeout or after an activation. -/
  | dequeue (cmd : ScanCommand limits) (activeCmd : Bool)
  /-- `wlan_ser_move_scan_pending_to_active`. -/
  | move
  /-- The section of `wlan_serialization_activate_cmd`. -/
  | activated (node : NodeId)
  /-- `wlan_ser_cancel_scan_cmd` comes to a node that is marked for activation, and marks it. -/
  | cancelMark (node : NodeId)
  /-- `wlan_ser_cancel_scan_cmd` takes a node off a list. -/
  | cancel (node : NodeId) (isActive : Bool)

namespace Scans

/-- `wlan_serialization_pdev_create_handler`. -/
def init (limits : Limits) : Scans limits where
  queue := ⟨fun _ => [], List.range (scanMaxSize true + scanMaxSize false), fun _ => none,
    fun _ => .zero⟩
  isHighPriority := fun _ => false
  moves := 0

variable (maxActiveScans others : Nat) (scans : Scans limits)

/-- `active_list`. -/
abbrev active : List NodeId := scans.queue.pdevList true

/-- `pending_list`. -/
abbrev pending : List NodeId := scans.queue.pdevList false

/-- `wlan_serialization_is_active_scan_cmd_allowed`. On the other pdevs `others` scans are
active. -/
def isActiveScanCmdAllowed : Bool := decide (scans.active.length + others < maxActiveScans)

/-- `wlan_serialization_is_active_cmd_allowed`: the list that a scan is for. -/
def activeQueue : Bool := scans.isActiveScanCmdAllowed maxActiveScans others &&
    scans.pending.isEmpty

/-- The part of `wlan_serialization_enqueue_cmd` with a node from the pool. -/
def enqueueNode (node : NodeId) (pool : List NodeId) (cmd : ScanCommand limits)
    (isHighPriority isActive : Bool) :
    Scans limits :=
  match (scans.queue.fill node pool cmd).addScanCmd node isHighPriority isActive with
  | none => { scans with queue := (scans.queue.fill node pool cmd).release node }
  | some queue =>
    { scans with
      queue := if isActive then queue.markForActivation node else queue
      isHighPriority := Function.update scans.isHighPriority node isHighPriority }

/-- The section of `wlan_serialization_enqueue_cmd`: a command is looked for in the list that it is
for. -/
def enqueue (cmd : ScanCommand limits) (cmdCb isHighPriority : Bool) : Scans limits :=
  if !cmdCb || (scans.queue.findCmd (scans.activeQueue maxActiveScans others) cmd).isSome then scans
  else
    match scans.queue.cmdPoolList with
    | [] => scans
    | node :: pool => scans.enqueueNode node pool cmd isHighPriority
      (scans.activeQueue maxActiveScans others)

/-- The section of `wlan_serialization_dequeue_cmd`. -/
def dequeue (cmd : ScanCommand limits) (activeCmd : Bool) : Scans limits :=
  match scans.queue.removeScanCmd cmd activeCmd with
  | (.error _, queue) => { scans with queue }
  | (.ok node, queue) =>
    { scans with queue := queue.release node, moves := scans.moves + if activeCmd then 1 else 0 }

/-- `wlan_ser_move_scan_pending_to_active`: only the first pending command is looked at. A node that
cannot be added is not zeroed. -/
def move : Scans limits :=
  match scans.pending with
  | [] => scans
  | node :: _ =>
    match scans.queue.cmd node with
    | none => scans
    | some cmd =>
      if !scans.isActiveScanCmdAllowed maxActiveScans others then scans
      else
        match scans.queue.removeScanCmd cmd false with
        | (.error _, queue) => { scans with queue }
        | (.ok node, queue) =>
          match queue.addScanCmd node (scans.isHighPriority node) true with
          | none =>
            { scans with queue := { queue with cmdPoolList := queue.cmdPoolList ++ [node] } }
          | some queue => { scans with queue := queue.markForActivation node }

/-- The step can be taken: there is a thread that does it next, and a cancellation stands at a node
of its list. The source does not look whether it does: from a node that was promoted or removed
while the lock was released, `qdf_list_peek_next` goes on in the list where the node is now, and
`qdf_list_remove_node` takes a node off that list and off the count of this one. Such a step is not
described. -/
def Enabled : ScanOp limits → Prop
  | .move => 0 < scans.moves
  | .activated node => (scans.queue.cmdInUse node).markedForActivation = true
  | .cancelMark node => node ∈ scans.active ∧ (scans.queue.cmdInUse node).markedForActivation = true
  | .cancel node isActive =>
    node ∈ scans.queue.pdevList isActive ∧
      (isActive = true → (scans.queue.cmdInUse node).markedForActivation = false)
  | _ => True

instance : (op : ScanOp limits) → Decidable (scans.Enabled op)
  | .enqueue .. => .isTrue trivial
  | .dequeue .. => .isTrue trivial
  | .move => inferInstanceAs (Decidable (0 < scans.moves))
  | .activated node =>
    inferInstanceAs (Decidable ((scans.queue.cmdInUse node).markedForActivation = true))
  | .cancelMark _ => inferInstanceAs (Decidable (_ ∧ _))
  | .cancel _ _ => inferInstanceAs (Decidable (_ ∧ _))

/-- A section. -/
def step : ScanOp limits → Scans limits
  | .enqueue cmd cmdCb isHighPriority =>
    scans.enqueue maxActiveScans others cmd cmdCb isHighPriority
  | .dequeue cmd activeCmd => scans.dequeue cmd activeCmd
  | .move => { scans.move maxActiveScans others with moves := scans.moves - 1 }
  | .activated node =>
    { scans with queue := scans.queue.updateInUse node fun inUse =>
        { inUse with markedForActivation := false, isActive := true } }
  | .cancelMark node => { scans with queue := scans.queue.markForCancel node }
  | .cancel node isActive => { scans with queue := scans.queue.cancelNode node isActive }

/-- A run of sections that can be taken and fit, each with the number of scans that are active on
the other pdevs. -/
inductive Run (maxActiveScans : Nat) (fit : Scans limits → ScanOp limits → Nat → Prop) :
    Scans limits → List (ScanOp limits × Nat) → Scans limits → Prop
  | nil (scans : Scans limits) : Run maxActiveScans fit scans [] scans
  | cons {scans after : Scans limits} {op : ScanOp limits} {others : Nat}
      {ops : List (ScanOp limits × Nat)} :
      scans.Enabled op → fit scans op others →
      Run maxActiveScans fit (scans.step maxActiveScans others op) ops after →
      Run maxActiveScans fit scans ((op, others) :: ops) after

/-- What every section that fits keeps, a run keeps. -/
theorem Run.keeps {maxActiveScans : Nat} {fit : Scans limits → ScanOp limits → Nat → Prop}
    {inv : Scans limits → Prop} {scans after : Scans limits} {ops : List (ScanOp limits × Nat)}
    (run : Run maxActiveScans fit scans ops after) (keeps : ∀ scans op others, scans.Enabled op →
      fit scans op others → inv scans →
      inv (scans.step maxActiveScans others op)) (holds : inv scans) : inv after := by
  induction run with
  | nil => exact holds
  | cons enabled fits _ ih => exact ih (keeps _ _ _ enabled fits holds)

/-- A pdev with one vdev. -/
def oneVdev : Limits := ⟨1, 4, fun _ => 4, by decide⟩

def scanOf (cmdId : BitVec 32) : ScanCommand oneVdev := ⟨cmdId, ⟨0, Nat.one_pos⟩⟩

/-- Two scans are requested where one may be active. -/
def twoScans : Scans oneVdev :=
  ((init oneVdev).step 1 0 (.enqueue (scanOf 1) true false)).step 1 0
    (.enqueue (scanOf 2) true false)

/-- Of four scans the first is done, the second is promoted, and the third is cancelled. -/
def fourScans : Scans oneVdev :=
  (((((twoScans.step 1 0 (.enqueue (scanOf 3) true false)).step 1 0
    (.enqueue (scanOf 4) true false)).step 1 0 (.activated 0)).step 1 0
      (.dequeue (scanOf 1) true)).step 1 0 .move).step 1 0 (.cancel 2 false)

theorem fourScans_run {fit : Scans oneVdev → ScanOp oneVdev → Nat → Prop}
    (fits : ∀ scans op, (∀ node, op ≠ .cancel node true) → fit scans op 0) :
    Run 1 fit (init oneVdev)
      [(.enqueue (scanOf 1) true false, 0), (.enqueue (scanOf 2) true false, 0),
        (.enqueue (scanOf 3) true false, 0), (.enqueue (scanOf 4) true false, 0),
        (.activated 0, 0), (.dequeue (scanOf 1) true, 0), (.move, 0), (.cancel 2 false, 0)]
      fourScans := by
  refine .cons trivial (fits _ _ fun _ => nofun) (.cons trivial (fits _ _ fun _ => nofun) ?_)
  refine .cons trivial (fits _ _ fun _ => nofun) (.cons trivial (fits _ _ fun _ => nofun) ?_)
  refine .cons ?_ (fits _ _ fun _ => nofun) (.cons trivial (fits _ _ fun _ => nofun) ?_)
  · decide +kernel
  refine .cons ?_ (fits _ _ fun _ => nofun) (.cons ?_ (fits _ _ fun _ => nofun) (.nil _))
  · decide +kernel
  · decide +kernel

/-! ### What is kept -/

/-- No node is lost or in two lists; what is marked for activation is active; no more scans are
active than allowed; the lists do not overflow, and each of their nodes holds a command; no command
is pending twice. -/
structure Kept (maxActiveScans : Nat) (scans : Scans limits) : Prop where
  nodes : (scans.queue.cmdPoolList ++ (scans.active ++ scans.pending)).Perm
    (List.range (scanMaxSize true + scanMaxSize false))
  marked : ∀ node, (scans.queue.cmdInUse node).markedForActivation = true → node ∈ scans.active
  allowed : scans.active.length ≤ maxActiveScans
  fits : ∀ isActive, (scans.queue.pdevList isActive).length ≤ scanMaxSize isActive
  filled : ∀ isActive, ∀ node ∈ scans.queue.pdevList isActive, (scans.queue.cmd node).isSome = true
  distinct : (scans.pending.map scans.queue.cmd).Nodup

section Kept

variable {maxActiveScans others : Nat} {scans : Scans limits} {node : NodeId} {isActive : Bool}

/-- The commands of other nodes. -/
theorem map_update {α : Type} {list : List NodeId} {f : NodeId → α} {value : α}
    (apart : ∀ other ∈ list, other ≠ node) :
    list.map (Function.update f node value) = list.map f :=
  List.map_congr_left fun other inside => Function.update_of_ne (apart other inside) value f

theorem Kept.init : Kept maxActiveScans (Scans.init limits) where
  nodes := List.Perm.refl _
  marked _ isMarked := by cases isMarked
  allowed := Nat.zero_le _
  fits _ := Nat.zero_le _
  filled _ _ none := by cases none
  distinct := List.nodup_nil

theorem Kept.nodup (kept : Kept maxActiveScans scans) :
    (scans.queue.cmdPoolList ++ (scans.active ++ scans.pending)).Nodup :=
  kept.nodes.nodup_iff.mpr List.nodup_range

theorem Kept.pool_not_mem (kept : Kept maxActiveScans scans)
    (pooled : node ∈ scans.queue.cmdPoolList) :
    node ∉ scans.queue.pdevList isActive := by
  have apart := (List.nodup_append.mp kept.nodup).2.2
  intro listed
  refine apart node pooled node ?_ rfl
  cases isActive with
  | true => exact List.mem_append_left _ listed
  | false => exact List.mem_append_right _ listed

theorem Kept.pending_not_active (kept : Kept maxActiveScans scans)
    (pending : node ∈ scans.pending) :
    node ∉ scans.active := by
  have apart := (List.nodup_append.mp (List.nodup_append.mp kept.nodup).2.1).2.2
  exact fun active => apart node active node pending rfl

theorem Kept.list_nodup (kept : Kept maxActiveScans scans) :
    (scans.queue.pdevList isActive).Nodup := by
  have lists := List.nodup_append.mp (List.nodup_append.mp kept.nodup).2.1
  cases isActive with
  | true => exact lists.1
  | false => exact lists.2.1

/-- The bits of a node are changed, and none is marked for activation by it. -/
theorem Kept.updateInUse (kept : Kept maxActiveScans scans) {change : InUse → InUse}
    (clears : ∀ inUse, (change inUse).markedForActivation = true →
        inUse.markedForActivation = true) :
    Kept maxActiveScans { scans with queue := scans.queue.updateInUse node change } := by
  refine ⟨kept.nodes, fun other isMarked => kept.marked other ?_, kept.allowed, kept.fits,
    kept.filled, kept.distinct⟩
  change (Function.update scans.queue.cmdInUse node _ other).markedForActivation = true at isMarked
  by_cases same : other = node
  · rw [same, Function.update_self] at isMarked
    rw [same]
    exact clears _ isMarked
  · rwa [Function.update_of_ne same] at isMarked

/-- A node that is not about to be activated is taken off a list. -/
theorem Kept.cancelNode (kept : Kept maxActiveScans scans)
    (listed : node ∈ scans.queue.pdevList isActive) :
    Kept maxActiveScans { scans with queue := scans.queue.cancelNode node isActive } := by
  have less (other : Bool) : ((scans.queue.cancelNode node isActive).pdevList other).Sublist
      (scans.queue.pdevList other) := by
    change (Function.update scans.queue.pdevList isActive _ other).Sublist _
    by_cases same : other = isActive
    · rw [same, Function.update_self]
      exact List.erase_sublist
    · rw [Function.update_of_ne same]
  have other_ne {other : Bool} {listed' : NodeId}
      (inside : listed' ∈ (scans.queue.cancelNode node isActive).pdevList other) :
          listed' ≠ node := by
    rintro rfl
    change listed' ∈ Function.update scans.queue.pdevList isActive _ other at inside
    by_cases same : other = isActive
    · rw [same, Function.update_self] at inside
      exact kept.list_nodup.not_mem_erase inside
    · rw [Function.update_of_ne same] at inside
      cases isActive with
      | true =>
        rw [Bool.not_eq_true] at same
        rw [same] at inside
        exact kept.pending_not_active inside listed
      | false =>
        rw [Bool.not_eq_false] at same
        rw [same] at inside
        exact kept.pending_not_active listed inside
  constructor
  · refine List.Perm.trans (List.perm_iff_count.mpr fun other => ?_) kept.nodes
    cases isActive with
    | true =>
      have taken : scans.active.count other = (node :: scans.active.erase node).count other :=
        (List.perm_cons_erase listed).count_eq other
      change ((scans.queue.cmdPoolList ++ [node]) ++
        (scans.active.erase node ++ scans.pending)).count other = _
      simp only [List.count_append, List.count_cons, List.count_nil] at taken ⊢
      omega
    | false =>
      have taken : scans.pending.count other = (node :: scans.pending.erase node).count other :=
        (List.perm_cons_erase listed).count_eq other
      change ((scans.queue.cmdPoolList ++ [node]) ++
        (scans.active ++ scans.pending.erase node)).count other = _
      simp only [List.count_append, List.count_cons, List.count_nil] at taken ⊢
      omega
  · intro other isMarked
    change (Function.update scans.queue.cmdInUse node .zero other).markedForActivation = true
      at isMarked
    by_cases same : other = node
    · rw [same, Function.update_self] at isMarked
      cases isMarked
    · rw [Function.update_of_ne same] at isMarked
      have active := kept.marked other isMarked
      cases isActive with
      | true => exact (List.mem_erase_of_ne same).mpr active
      | false => exact active
  · exact (less true).length_le.trans kept.allowed
  · exact fun other => (less other).length_le.trans (kept.fits other)
  · intro other listed' inside
    change (Function.update scans.queue.cmd node none listed').isSome = true
    rw [Function.update_of_ne (other_ne inside)]
    exact kept.filled other listed' ((less other).subset inside)
  · change (((scans.queue.cancelNode node isActive).pdevList false).map
      (Function.update scans.queue.cmd node none)).Nodup
    rw [map_update fun listed' inside => other_ne inside]
    exact ((less false).map _).nodup kept.distinct

/-- What `removeScanCmd` does. -/
theorem removeScanCmd_cases (queue : ScanQueue limits) (cmd : ScanCommand limits)
    (isActive : Bool) :
    queue.removeScanCmd cmd isActive = (.error .eFailure, queue) ∨
    (∃ node, queue.removeScanCmd cmd isActive =
      (.error .ePending, queue.updateInUse node fun inUse =>
        { inUse with activeMarkedForRemoval := true })) ∨
    ∃ node ∈ queue.pdevList isActive, queue.cmd node = some cmd ∧
      queue.removeScanCmd cmd isActive =
          (.ok node, queue.setList isActive ((queue.pdevList isActive).erase node)) := by
  unfold ScanQueue.removeScanCmd
  cases found : queue.findCmd isActive cmd with
  | none => exact .inl rfl
  | some node =>
    by_cases isMarked : (queue.cmdInUse node).markedForActivation = true
    · exact .inr (.inl ⟨node, if_pos isMarked⟩)
    · refine .inr (.inr ⟨node, List.mem_of_find?_eq_some found, ?_, if_neg isMarked⟩)
      simpa using List.find?_some found

theorem Kept.dequeue (kept : Kept maxActiveScans scans) (cmd : ScanCommand limits)
    (activeCmd : Bool) :
    Kept maxActiveScans (scans.dequeue cmd activeCmd) := by
  unfold Scans.dequeue
  obtain same | ⟨node, same⟩ | ⟨node, listed, -, same⟩ :=
    removeScanCmd_cases scans.queue cmd activeCmd
  · rw [same]
    exact kept
  · rw [same]
    exact kept.updateInUse fun _ => id
  · rw [same]
    have removed := kept.cancelNode listed
    exact ⟨removed.nodes, removed.marked, removed.allowed, removed.fits, removed.filled,
      removed.distinct⟩

theorem addScanCmd_eq_some {queue after : ScanQueue limits} {isHighPriority : Bool}
    (added : queue.addScanCmd node isHighPriority isActive = some after) :
    (queue.pdevList isActive).length ≠ scanMaxSize isActive ∧
      ∃ list : List NodeId, list.Perm (node :: queue.pdevList isActive) ∧
          after = queue.setList isActive list := by
  unfold ScanQueue.addScanCmd at added
  split at added
  · cases added
  · rename_i room
    refine ⟨room, ?_⟩
    split at added
    · cases added
      exact ⟨_, List.Perm.refl _, rfl⟩
    · cases added
      exact ⟨_, List.perm_append_singleton _ _, rfl⟩

/-- A queue whose other nodes are all in their places, with a node that is in none of the lists. -/
structure Spare (maxActiveScans : Nat) (queue : ScanQueue limits) (node : NodeId) : Prop where
  nodes : (node :: (queue.cmdPoolList ++ (queue.pdevList true ++ queue.pdevList false))).Perm
    (List.range (scanMaxSize true + scanMaxSize false))
  marked : ∀ other, (queue.cmdInUse other).markedForActivation = true → other ∈ queue.pdevList true
  allowed : (queue.pdevList true).length ≤ maxActiveScans
  fits : ∀ isActive, (queue.pdevList isActive).length ≤ scanMaxSize isActive
  filled : ∀ isActive, ∀ other ∈ queue.pdevList isActive, (queue.cmd other).isSome = true
  distinct : ((queue.pdevList false).map queue.cmd).Nodup

/-- The node becomes pending. -/
theorem Spare.pend {queue after : ScanQueue limits} {isHighPriority : Bool}
    (spare : Spare maxActiveScans queue node) (holds : (queue.cmd node).isSome = true)
    (isNew : queue.cmd node ∉ (queue.pdevList false).map queue.cmd)
        (added : queue.addScanCmd node isHighPriority false = some after)
        (priorities : NodeId → Bool) (moves : Nat) :
    Kept maxActiveScans ⟨after, priorities, moves⟩ := by
  obtain ⟨room, list, same, rfl⟩ := addScanCmd_eq_some added
  have roomy := lt_of_le_of_ne (spare.fits false) room
  refine ⟨?_, spare.marked, spare.allowed, fun isActive => ?_, fun isActive => ?_, ?_⟩
  · refine List.Perm.trans (List.perm_iff_count.mpr fun other => ?_) spare.nodes
    change (queue.cmdPoolList ++ (queue.pdevList true ++ list)).count other = _
    simp only [List.count_append, List.count_cons, same.count_eq other]
    omega
  · cases isActive with
    | true => exact spare.fits true
    | false =>
      change list.length ≤ _
      rw [same.length_eq]
      exact roomy
  · cases isActive with
    | true => exact spare.filled true
    | false =>
      intro other inside
      obtain rfl | before := List.mem_cons.mp (same.subset inside)
      · exact holds
      · exact spare.filled false other before
  · change (list.map queue.cmd).Nodup
    rw [(same.map queue.cmd).nodup_iff, List.map_cons, List.nodup_cons]
    exact ⟨isNew, spare.distinct⟩

/-- The node becomes active. -/
theorem Spare.activate {queue after : ScanQueue limits} {isHighPriority : Bool}
    (spare : Spare maxActiveScans queue node) (holds : (queue.cmd node).isSome = true)
    (allowed : (queue.pdevList true).length < maxActiveScans)
    (added : queue.addScanCmd node isHighPriority true = some after) (priorities : NodeId → Bool)
    (moves : Nat) :
    Kept maxActiveScans ⟨after.markForActivation node, priorities, moves⟩ := by
  obtain ⟨room, list, same, rfl⟩ := addScanCmd_eq_some added
  have roomy := lt_of_le_of_ne (spare.fits true) room
  refine ⟨?_, fun other isMarked => ?_, ?_, fun isActive => ?_, fun isActive => ?_, spare.distinct⟩
  · refine List.Perm.trans (List.perm_iff_count.mpr fun other => ?_) spare.nodes
    change (queue.cmdPoolList ++ (list ++ queue.pdevList false)).count other = _
    simp only [List.count_append, List.count_cons, same.count_eq other]
    omega
  · change other ∈ list
    rw [same.mem_iff]
    by_cases isNode : other = node
    · rw [isNode]
      exact .head _
    · change (Function.update queue.cmdInUse node _ other).markedForActivation = true at isMarked
      rw [Function.update_of_ne isNode] at isMarked
      exact .tail _ (spare.marked other isMarked)
  · change list.length ≤ _
    rw [same.length_eq]
    exact allowed
  · cases isActive with
    | true =>
      change list.length ≤ _
      rw [same.length_eq]
      exact roomy
    | false => exact spare.fits false
  · cases isActive with
    | true =>
      intro other inside
      obtain rfl | before := List.mem_cons.mp (same.subset inside)
      · exact holds
      · exact spare.filled true other before
    | false => exact spare.filled false

/-- The first node of the pool, with a command. -/
theorem Kept.spare (kept : Kept maxActiveScans scans) {pool : List NodeId}
    (cmd : ScanCommand limits) (isPool : scans.queue.cmdPoolList = node :: pool) :
    Spare maxActiveScans (scans.queue.fill node pool cmd) node := by
  have other_ne {isActive : Bool} {other : NodeId}
      (inside : other ∈ scans.queue.pdevList isActive) : other ≠ node := by
    rintro rfl
    exact kept.pool_not_mem (isPool ▸ List.mem_cons_self) inside
  have nodes := kept.nodes
  rw [isPool] at nodes
  refine ⟨nodes, kept.marked, kept.allowed, kept.fits, fun isActive other inside => ?_, ?_⟩
  · change (Function.update scans.queue.cmd node (some cmd) other).isSome = true
    rw [Function.update_of_ne (other_ne inside)]
    exact kept.filled isActive other inside
  · change (scans.pending.map (Function.update scans.queue.cmd node (some cmd))).Nodup
    rw [map_update fun other inside => other_ne inside]
    exact kept.distinct

/-- The node that was not added goes back to the pool. -/
theorem Spare.release {queue : ScanQueue limits} (spare : Spare maxActiveScans queue node)
    (unlisted : ∀ isActive, node ∉ queue.pdevList isActive) (priorities : NodeId → Bool)
    (moves : Nat) :
    Kept maxActiveScans ⟨queue.release node, priorities, moves⟩ := by
  have other_ne {isActive : Bool} {other : NodeId} (inside : other ∈ queue.pdevList isActive) :
      other ≠ node := by
    rintro rfl
    exact unlisted isActive inside
  refine ⟨?_, fun other isMarked => ?_, spare.allowed, spare.fits,
    fun isActive other inside => ?_, ?_⟩
  · refine List.Perm.trans (List.perm_iff_count.mpr fun other => ?_) spare.nodes
    change ((queue.cmdPoolList ++ [node]) ++ (queue.pdevList true ++ queue.pdevList false)).count
      other = _
    simp only [List.count_append, List.count_cons, List.count_nil]
    omega
  · change (Function.update queue.cmdInUse node .zero other).markedForActivation = true at isMarked
    by_cases same : other = node
    · rw [same, Function.update_self] at isMarked
      cases isMarked
    · rw [Function.update_of_ne same] at isMarked
      exact spare.marked other isMarked
  · change (Function.update queue.cmd node none other).isSome = true
    rw [Function.update_of_ne (other_ne inside)]
    exact spare.filled isActive other inside
  · change ((queue.pdevList false).map (Function.update queue.cmd node none)).Nodup
    rw [map_update fun other inside => other_ne inside]
    exact spare.distinct

/-- What a request does: nothing, or it takes a node of the pool. -/
theorem enqueue_cases (maxActiveScans others : Nat) (scans : Scans limits)
    (cmd : ScanCommand limits) (cmdCb isHighPriority : Bool) :
    scans.enqueue maxActiveScans others cmd cmdCb isHighPriority = scans ∨
    ∃ node pool, scans.queue.cmdPoolList = node :: pool ∧
      scans.queue.findCmd (scans.activeQueue maxActiveScans others) cmd = none ∧
      scans.enqueue maxActiveScans others cmd cmdCb isHighPriority =
        scans.enqueueNode node pool cmd isHighPriority
            (scans.activeQueue maxActiveScans others) := by
  unfold Scans.enqueue
  split
  · exact .inl rfl
  · rename_i admitted
    simp only [Bool.or_eq_true, not_or, Bool.not_eq_true] at admitted
    split
    · exact .inl rfl
    · rename_i node pool isPool
      exact .inr ⟨node, pool, isPool, Option.isSome_eq_false_iff.mp admitted.2 |>
        Option.isNone_iff_eq_none.mp, rfl⟩

theorem Kept.enqueue (kept : Kept maxActiveScans scans) (cmd : ScanCommand limits)
    (cmdCb isHighPriority : Bool) :
    Kept maxActiveScans (scans.enqueue maxActiveScans others cmd cmdCb isHighPriority) := by
  obtain same | ⟨node, pool, isPool, isNew, same⟩ :=
    enqueue_cases maxActiveScans others scans cmd cmdCb isHighPriority
  · rw [same]
    exact kept
  rw [same, enqueueNode]
  have spare := kept.spare cmd isPool
  have unlisted (isActive : Bool) : node ∉ scans.queue.pdevList isActive :=
    kept.pool_not_mem (isPool ▸ List.mem_cons_self)
  have holds : (scans.queue.fill node pool cmd).cmd node = some cmd := Function.update_self _ _ _
  split
  · exact spare.release unlisted _ _
  rename_i after added
  cases forActive : scans.activeQueue maxActiveScans others with
  | true =>
    rw [forActive] at added
    have room : scans.active.length + others < maxActiveScans :=
      of_decide_eq_true (Bool.and_eq_true_iff.mp forActive).1
    exact spare.activate (holds ▸ rfl) (show scans.active.length < maxActiveScans by
      omega) added _ _
  | false =>
    rw [forActive] at added isNew
    refine spare.pend (holds ▸ rfl) ?_ added _ _
    rw [holds]
    intro pending
    obtain ⟨other, inside, same⟩ := List.mem_map.mp pending
    have different : other ≠ node := by
      rintro rfl
      exact unlisted false inside
    change Function.update scans.queue.cmd node (some cmd) other = some cmd at same
    rw [Function.update_of_ne different] at same
    exact List.find?_eq_none.mp isNew other inside (decide_eq_true same)

/-- What a look at the pending scans does: nothing, or the first one is taken off its list, while an
active one is allowed. -/
theorem move_cases (others : Nat) (kept : Kept maxActiveScans scans) :
    scans.move maxActiveScans others = scans ∧
        (scans.pending = [] ∨ ¬ scans.active.length + others < maxActiveScans) ∨
    ∃ node rest, scans.pending = node :: rest ∧ scans.active.length + others < maxActiveScans ∧
      (scans.queue.setList false rest).cmd node ≠ none ∧
      scans.move maxActiveScans others =
        match (scans.queue.setList false rest).addScanCmd node (scans.isHighPriority node) true with
        | none =>
          { scans with queue :=
            { scans.queue.setList false rest with
              cmdPoolList := scans.queue.cmdPoolList ++ [node] } }
        | some queue => { scans with queue := queue.markForActivation node } := by
  unfold Scans.move
  split
  · rename_i empty
    exact .inl ⟨rfl, .inl empty⟩
  rename_i node rest isPending
  have listed : node ∈ scans.pending := isPending ▸ List.mem_cons_self
  obtain ⟨cmd, isCmd⟩ := Option.isSome_iff_exists.mp (kept.filled false node listed)
  simp only [isCmd]
  by_cases room : scans.active.length + others < maxActiveScans
  · right
    refine ⟨node, rest, isPending, room, ?_, ?_⟩
    · change scans.queue.cmd node ≠ none
      simp [isCmd]
    · have unmarked : ¬ (scans.queue.cmdInUse node).markedForActivation = true :=
        fun isMarked => kept.pending_not_active listed (kept.marked node isMarked)
      have found : scans.queue.findCmd false cmd = some node := by
        change scans.pending.find? _ = some node
        rw [isPending, List.find?_cons_of_pos (by simp [isCmd])]
      have removed : scans.queue.removeScanCmd cmd false =
          (.ok node, scans.queue.setList false rest) := by
        rw [ScanQueue.removeScanCmd, found]
        change (if _ then _ else
          (Except.ok node, scans.queue.setList false (scans.pending.erase node))) = _
        rw [if_neg unmarked, isPending, List.erase_cons_head]
      rw [isActiveScanCmdAllowed, decide_eq_true room, removed]
      rfl
  · left
    rw [isActiveScanCmdAllowed, decide_eq_false room]
    exact ⟨rfl, .inr room⟩

theorem Kept.move (kept : Kept maxActiveScans scans) (others : Nat) :
    Kept maxActiveScans (scans.move maxActiveScans others) := by
  obtain ⟨same, -⟩ | ⟨node, rest, isPending, room, isCmd, same⟩ := move_cases others kept
  · rw [same]
    exact kept
  rw [same]
  have spare : Spare maxActiveScans (scans.queue.setList false rest) node := by
    have sub : rest.Sublist scans.pending := isPending ▸ List.sublist_cons_self node rest
    refine ⟨?_, kept.marked, kept.allowed, fun isActive => ?_, fun isActive => ?_, ?_⟩
    · refine List.Perm.trans (List.perm_iff_count.mpr fun other => ?_) kept.nodes
      change (node :: (scans.queue.cmdPoolList ++ (scans.active ++ rest))).count other = _
      rw [isPending]
      simp only [List.count_append, List.count_cons]
      omega
    · cases isActive with
      | true => exact kept.fits true
      | false => exact sub.length_le.trans (kept.fits false)
    · cases isActive with
      | true => exact kept.filled true
      | false => exact fun other inside => kept.filled false other (sub.subset inside)
    · exact (sub.map scans.queue.cmd).nodup kept.distinct
  split
  · refine ⟨?_, spare.marked, spare.allowed, spare.fits, spare.filled, spare.distinct⟩
    refine List.Perm.trans (List.perm_iff_count.mpr fun other => ?_) spare.nodes
    change ((scans.queue.cmdPoolList ++ [node]) ++ (scans.active ++ rest)).count other =
      (node :: (scans.queue.cmdPoolList ++ (scans.active ++ rest))).count other
    simp only [List.count_append, List.count_cons, List.count_nil]
    omega
  · rename_i after added
    exact spare.activate (Option.isSome_iff_ne_none.mpr isCmd)
      (show scans.active.length < maxActiveScans by omega)
      added _ _

/-- **Every section keeps the queue**, whatever it is and whatever the other pdevs do. -/
theorem Kept.step (kept : Kept maxActiveScans scans) {op : ScanOp limits}
    (enabled : scans.Enabled op) :
    Kept maxActiveScans (scans.step maxActiveScans others op) := by
  cases op with
  | enqueue cmd cmdCb isHighPriority => exact kept.enqueue cmd cmdCb isHighPriority
  | dequeue cmd activeCmd => exact kept.dequeue cmd activeCmd
  | move =>
    have moved := kept.move others
    exact ⟨moved.nodes, moved.marked, moved.allowed, moved.fits, moved.filled, moved.distinct⟩
  | activated node =>
    refine kept.updateInUse fun inUse isMarked => ?_
    cases isMarked
  | cancelMark node =>
    show Kept maxActiveScans { scans with
      queue := scans.queue.updateInUse node fun inUse =>
        { inUse with activeMarkedForCancel := true } }
    exact kept.updateInUse fun _ => id
  | cancel node isActive => exact kept.cancelNode enabled.1

end Kept

/-- **No scan is lost and none too many is active**, in any order of the sections, as long as no
cancellation has lost its place in its list, and whatever is active on the other pdevs. -/
theorem scans_kept {maxActiveScans : Nat} {scans : Scans limits} {ops : List (ScanOp limits × Nat)}
    (run : Run maxActiveScans (fun _ _ _ => True) (init limits) ops scans) :
        Kept maxActiveScans scans :=
  run.keeps (fun _ _ _ enabled _ kept => kept.step enabled) Kept.init

/-- The second scan is active and the fourth is pending, and the queue is kept. -/
theorem fourScans_kept : fourScans.active = [1] ∧ fourScans.pending = [3] ∧ Kept 1 fourScans :=
  ⟨by decide +kernel, by decide +kernel, scans_kept (fourScans_run fun _ _ _ => trivial)⟩

/-! ### A whole cancellation -/

/-- A cancellation marks nodes and takes nodes off its list, and does nothing else. -/
def Cancels (isActive : Bool) (_ : Scans limits) (op : ScanOp limits) (_ : Nat) : Prop :=
  (∃ node, op = .cancelMark node) ∨ ∃ node, op = .cancel node isActive

/-- The loop of a cancellation is a run of its sections. -/
theorem cancelLoop_run {request : ScanCancelRequest limits} {isActive timerFound : Bool}
    {maxActiveScans : Nat} {priorities : NodeId → Bool} {moves qsize : Nat}
    {nnode pnode : Option NodeId} {status result : CmdStatus} {queue after : ScanQueue limits}
    (ran : ScanQueue.cancelLoop request isActive timerFound qsize nnode pnode status queue =
        some (result, after)) :
    ∃ ops, Run maxActiveScans (Cancels isActive) ⟨queue, priorities, moves⟩ ops
        ⟨after, priorities, moves⟩ := by
  induction qsize generalizing nnode pnode status queue with
  | zero =>
    cases ran
    exact ⟨[], .nil _⟩
  | succ qsize ih =>
    rw [ScanQueue.cancelLoop] at ran
    split at ran
    · cases ran
      exact ⟨[], .nil _⟩
    split at ran
    · cases ran
    · cases ran
      exact ⟨[], .nil _⟩
    · rename_i node next
      have listed := Queue.mem_of_nextNode next
      split at ran
      · cases ran
      · rename_i cmd isCmd
        split at ran
        · exact ih ran
        split at ran
        · rename_i marked
          rw [Bool.and_eq_true] at marked
          obtain ⟨ops, run⟩ := ih ran
          refine ⟨(.cancelMark node, 0) :: ops, .cons ⟨?_, marked.2⟩ (.inl ⟨node, rfl⟩) run⟩
          rw [marked.1] at listed
          exact listed
        split at ran
        · cases ran
          exact ⟨[], .nil _⟩
        · rename_i unmarked _
          obtain ⟨ops, run⟩ := ih ran
          refine ⟨(.cancel node isActive, 0) :: ops,
            .cons ⟨listed, fun active => ?_⟩ (.inr ⟨node, rfl⟩) run⟩
          simpa [active] using unmarked

/-- The cancellation of scans keeps the queue. -/
theorem Kept.cancelScanCmd {maxActiveScans : Nat} {scans : Scans limits}
    (kept : Kept maxActiveScans scans) {request : ScanCancelRequest limits}
    {isActive timerFound : Bool} {status : CmdStatus} {after : ScanQueue limits}
    (ran : scans.queue.cancelScanCmd request isActive timerFound = some (status, after)) :
    Kept maxActiveScans { scans with queue := after } := by
  obtain ⟨ops, run⟩ := cancelLoop_run ran
  exact run.keeps (fun _ _ _ enabled _ kept => kept.step enabled) kept

/-! ### Whether a pending scan becomes active -/

/-- No scans are active on other pdevs, and no active scan is cancelled. -/
def Alone (_ : Scans limits) (op : ScanOp limits) (others : Nat) : Prop :=
  others = 0 ∧ ∀ node, op ≠ .cancel node true

/-- If a scan is pending, as many as allowed are active or will be looked for. -/
def Conserving (maxActiveScans : Nat) (scans : Scans limits) : Prop :=
  scans.pending ≠ [] → maxActiveScans ≤ scans.active.length + scans.moves

section Conserving

variable {maxActiveScans others : Nat} {scans : Scans limits}

theorem Conserving.enqueue (conserving : Conserving maxActiveScans scans) (cmd : ScanCommand limits)
    (cmdCb isHighPriority : Bool) :
    Conserving maxActiveScans (scans.enqueue maxActiveScans 0 cmd cmdCb isHighPriority) := by
  obtain same | ⟨node, pool, -, -, same⟩ :=
    enqueue_cases maxActiveScans 0 scans cmd cmdCb isHighPriority
  · rw [same]
    exact conserving
  rw [same, enqueueNode]
  split
  · exact conserving
  rename_i after added
  obtain ⟨-, list, -, rfl⟩ := addScanCmd_eq_some added
  intro waits
  cases forActive : scans.activeQueue maxActiveScans 0 with
  | true =>
    rw [forActive] at waits
    have empty : scans.pending = [] := List.isEmpty_iff.mp (Bool.and_eq_true_iff.mp forActive).2
    exact absurd empty waits
  | false =>
    change maxActiveScans ≤ scans.active.length + scans.moves
    obtain notAllowed | others := Bool.and_eq_false_iff.mp forActive
    · have full := of_decide_eq_false notAllowed
      omega
    · exact conserving fun empty => by simp [empty] at others

theorem Conserving.dequeue (conserving : Conserving maxActiveScans scans) (cmd : ScanCommand limits)
    (activeCmd : Bool) : Conserving maxActiveScans (scans.dequeue cmd activeCmd) := by
  unfold Scans.dequeue
  obtain same | ⟨node, same⟩ | ⟨node, listed, -, same⟩ :=
    removeScanCmd_cases scans.queue cmd activeCmd
  · rw [same]
    exact conserving
  · rw [same]
    exact conserving
  · rw [same]
    intro waits
    cases activeCmd with
    | true =>
      change maxActiveScans ≤ (scans.active.erase node).length + (scans.moves + 1)
      have before : maxActiveScans ≤ scans.active.length + scans.moves := conserving waits
      have less : (scans.active.erase node).length = scans.active.length - 1 :=
        List.length_erase_of_mem listed
      omega
    | false =>
      change scans.pending.erase node ≠ [] at waits
      exact conserving fun empty => waits (by rw [empty]; rfl)

theorem Conserving.move (conserving : Conserving maxActiveScans scans)
    (kept : Kept maxActiveScans scans) (few : maxActiveScans ≤ scanMaxSize true) :
    Conserving maxActiveScans { scans.move maxActiveScans 0 with moves := scans.moves - 1 } := by
  obtain ⟨same, idle⟩ | ⟨node, rest, isPending, room, -, same⟩ := move_cases 0 kept
  · rw [same]
    intro waits
    obtain empty | full := idle
    · exact absurd empty waits
    · change maxActiveScans ≤ scans.active.length + (scans.moves - 1)
      omega
  · have before := conserving (isPending ▸ List.cons_ne_nil node rest)
    rw [same]
    intro _
    split
    · rename_i noRoom
      have short : scans.active.length ≠ scanMaxSize true := by omega
      have there : (scans.queue.setList false rest).addScanCmd node
          (scans.isHighPriority node) true ≠ none := by
        rw [ScanQueue.addScanCmd]
        change (if scans.active.length = scanMaxSize true then _ else _) ≠ none
        rw [if_neg short]
        split
        · exact Option.some_ne_none _
        · exact Option.some_ne_none _
      exact absurd noRoom there
    · rename_i after added
      obtain ⟨-, list, more, rfl⟩ := addScanCmd_eq_some added
      change maxActiveScans ≤ list.length + (scans.moves - 1)
      rw [more.length_eq]
      change maxActiveScans ≤ scans.active.length + 1 + (scans.moves - 1)
      omega

theorem Conserving.step (conserving : Conserving maxActiveScans scans)
    (kept : Kept maxActiveScans scans) (few : maxActiveScans ≤ scanMaxSize true)
    {op : ScanOp limits} (alone : Alone scans op others) :
    Conserving maxActiveScans (scans.step maxActiveScans others op) := by
  obtain ⟨rfl, noCancel⟩ := alone
  cases op with
  | enqueue cmd cmdCb isHighPriority => exact conserving.enqueue cmd cmdCb isHighPriority
  | dequeue cmd activeCmd => exact conserving.dequeue cmd activeCmd
  | move => exact conserving.move kept few
  | activated node => exact conserving
  | cancelMark node => exact conserving
  | cancel node isActive =>
    cases isActive with
    | true => exact absurd rfl (noCancel node)
    | false =>
      intro waits
      change scans.pending.erase node ≠ [] at waits
      exact conserving fun empty => waits (by rw [empty]; rfl)

end Conserving

/-- **Scans wait only for scans.** With a single pdev, as long as no active scan is cancelled, a
scan is pending only while as many as allowed are active, once nobody is about to look at the
pending ones. -/
theorem scans_conserved {maxActiveScans : Nat} (few : maxActiveScans ≤ scanMaxSize true)
    {scans : Scans limits} {ops : List (ScanOp limits × Nat)}
    (run : Run maxActiveScans Alone (init limits) ops scans) (quiet : scans.moves = 0)
    (waits : scans.pending ≠ []) : scans.active.length = maxActiveScans := by
  have keeps (scans : Scans limits) (op : ScanOp limits) (others : Nat) (enabled : scans.Enabled op)
      (alone : Alone scans op others) (both : Kept maxActiveScans scans ∧
          Conserving maxActiveScans scans) :
      Kept maxActiveScans (scans.step maxActiveScans others op) ∧
        Conserving maxActiveScans (scans.step maxActiveScans others op) :=
    ⟨both.1.step enabled, both.2.step both.1 few alone⟩
  have holds : Kept maxActiveScans scans ∧ Conserving maxActiveScans scans :=
    run.keeps keeps ⟨Kept.init, fun waits => absurd rfl waits⟩
  have enough := holds.2 waits
  rw [quiet] at enough
  exact le_antisymm holds.1.allowed enough

theorem fourScans_conserved : fourScans.active.length = 1 :=
  scans_conserved (by decide) (fourScans_run fun _ _ noCancel => ⟨rfl, noCancel⟩)
    (by decide +kernel) (by decide +kernel)

/-- No scan is active, nobody is about to look, and a scan is pending. -/
structure Stuck (scans : Scans limits) : Prop where
  inactive : scans.active = []
  quiet : scans.moves = 0
  waits : scans.pending ≠ []

theorem Stuck.step {maxActiveScans others : Nat} {scans : Scans limits} {op : ScanOp limits}
    (stuck : Stuck scans) (enabled : scans.Enabled op)
    (waits : (scans.step maxActiveScans others op).pending ≠ []) :
    Stuck (scans.step maxActiveScans others op) := by
  obtain ⟨inactive, quiet, before⟩ := stuck
  cases op with
  | enqueue cmd cmdCb isHighPriority =>
    have notEmpty : scans.pending.isEmpty = false := List.isEmpty_eq_false_iff.mpr before
    have forPending : scans.activeQueue maxActiveScans others = false := by
      rw [activeQueue, notEmpty, Bool.and_false]
    refine ⟨?_, ?_, waits⟩
    · change (scans.enqueue maxActiveScans others cmd cmdCb isHighPriority).active = []
      obtain same | ⟨node, pool, -, -, same⟩ :=
        enqueue_cases maxActiveScans others scans cmd cmdCb isHighPriority
      · rw [same]
        exact inactive
      rw [same, enqueueNode, forPending]
      split
      · exact inactive
      · rename_i after added
        obtain ⟨-, list, -, rfl⟩ := addScanCmd_eq_some added
        exact inactive
    · change (scans.enqueue maxActiveScans others cmd cmdCb isHighPriority).moves = 0
      obtain same | ⟨node, pool, -, -, same⟩ :=
        enqueue_cases maxActiveScans others scans cmd cmdCb isHighPriority
      · rw [same]
        exact quiet
      rw [same, enqueueNode]
      split
      · exact quiet
      · exact quiet
  | dequeue cmd activeCmd =>
    suffices done : (scans.dequeue cmd activeCmd).active = [] ∧
        (scans.dequeue cmd activeCmd).moves = 0 from
      ⟨done.1, done.2, waits⟩
    unfold Scans.dequeue
    obtain same | ⟨node, same⟩ | ⟨node, listed, -, same⟩ :=
      removeScanCmd_cases scans.queue cmd activeCmd
    · rw [same]
      exact ⟨inactive, quiet⟩
    · rw [same]
      exact ⟨inactive, quiet⟩
    · rw [same]
      cases activeCmd with
      | true =>
        change node ∈ scans.active at listed
        rw [inactive] at listed
        cases listed
      | false => exact ⟨inactive, quiet⟩
  | move =>
    have due : 0 < scans.moves := enabled
    omega
  | activated node => exact ⟨inactive, quiet, waits⟩
  | cancelMark node => exact ⟨inactive, quiet, waits⟩
  | cancel node isActive =>
    cases isActive with
    | true =>
      have listed : node ∈ scans.active := enabled.1
      rw [inactive] at listed
      cases listed
    | false => exact ⟨inactive, quiet, waits⟩

/-- **A cancelled scan is not followed by the next one.** Where no scan is active and nobody is
about to look at the pending ones, nothing that any thread or pdev does makes a scan of this pdev
active, until no scan is pending. -/
theorem stuck_run {maxActiveScans : Nat} {scans after : Scans limits}
    {ops : List (ScanOp limits × Nat)}
    (run : Run maxActiveScans
      (fun scans op others => (scans.step maxActiveScans others op).pending ≠ []) scans ops
      after) (stuck : Stuck scans) : after.active = [] :=
  (run.keeps (fun _ _ _ enabled waits stuck => stuck.step enabled waits) stuck).inactive

/-- The active one is cancelled. -/
def oneCancelled : Scans oneVdev := (twoScans.step 1 0 (.activated 0)).step 1 0 (.cancel 0 true)

theorem oneCancelled_stuck : (oneCancelled.step 1 0 (.enqueue (scanOf 3) true false)).active =
    [] := by
  have run : Run 1 (fun scans op others => (scans.step 1 others op).pending ≠ []) oneCancelled
      [(.enqueue (scanOf 3) true false, 0)]
          (oneCancelled.step 1 0 (.enqueue (scanOf 3) true false)) :=
    .cons trivial (by decide) (.nil _)
  exact stuck_run run ⟨by decide, by decide, by decide⟩

end Scans

end Qsdk.Serialization
