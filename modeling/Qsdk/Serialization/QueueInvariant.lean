/-
**The queue invariant, and what the sections under the lock do.**

`Wf` says that every command node is in exactly one list, that the lists of the vdevs are the pdev's
lists seen from the vdevs, that the pool is blank and no command is pending twice. It is kept while
nodes are on their way between lists (`hand`).

The three ways in which commands move are `take` (off the lists), `put` (onto the lists) and
`Queue.release` (to the pool); each has one lemma for `Wf` and one for the number of commands of a
kind in a list (`count`). Removing and adding a command are then described in these terms
(`removeNonScanCmd_eq`, `addNonScanCmd_of_room`, `addNonScanCmd_of_full`).
-/

import Qsdk.Serialization.Basic
import Mathlib.Data.Multiset.Range
import Mathlib.Algebra.Order.Group.Multiset
import Mathlib.Tactic.Abel

namespace Qsdk.Serialization

/-- The node is neither about to be activated nor about to be moved. -/
def InUse.Unmarked (inUse : InUse) : Prop :=
  inUse.markedForActivation = false ∧ inUse.markedForMovement = false

namespace Queue

variable {limits : Limits}

theorem sameKey_comm (one two : Command limits) : sameKey one two = sameKey two one := by
  simp only [sameKey, eq_comm]

/-! ### The invariant -/

/-- Every node is in the pool, in a list of the pdev, or in hand. -/
structure Wf (hand : Multiset NodeId) (queue : Queue limits) : Prop where
  nodes : hand + (queue.cmdPoolList + (queue.activeList + queue.pendingList)) =
    Multiset.range (limits.maxVdevs + limits.maxPendingCmds)
  blank : ∀ node ∈ queue.cmdPoolList, queue.cmd node = none ∧ (queue.cmdInUse node).Unmarked
  idle : ∀ node ∈ queue.pendingList, (queue.cmdInUse node).markedForActivation = false
  filled : ∀ isActive, ∀ node ∈ queue.pdevList isActive, ∃ cmd, queue.cmd node = some cmd
  vdevLists : ∀ isActive vdev,
    queue.vdevList isActive vdev = (queue.pdevList isActive).filter (queue.onVdev vdev)
  distinct : queue.pendingList.Pairwise fun one two => ∀ cmd other,
    queue.cmd one = some cmd → queue.cmd two = some other → sameKey cmd other = false

theorem wf_init (limits : Limits) : Wf 0 (init limits) where
  nodes := by
    show (0 : Multiset NodeId) + ((List.range _ : List NodeId) + ((0 : Multiset NodeId) + 0)) = _
    rw [add_zero, add_zero, zero_add]
    rfl
  blank := fun _ _ => ⟨rfl, rfl, rfl⟩
  idle := fun _ member => absurd member List.not_mem_nil
  filled := fun _ _ member => absurd member List.not_mem_nil
  vdevLists := fun _ _ => rfl
  distinct := List.Pairwise.nil

section Wf

variable {hand : Multiset NodeId} {queue : Queue limits}

theorem Wf.count_le (wf : Wf hand queue) (node : NodeId) :
    hand.count node + (queue.cmdPoolList.count node +
      ((queue.pdevList true).count node + (queue.pdevList false).count node)) ≤ 1 := by
  have atMost := Multiset.nodup_iff_count_le_one.mp
    (Multiset.nodup_range (limits.maxVdevs + limits.maxPendingCmds)) node
  rw [← wf.nodes] at atMost
  simpa only [Multiset.count_add, Multiset.coe_count] using atMost

/-- A node in hand is in no list of the pdev. -/
theorem Wf.not_listed (wf : Wf hand queue) {node : NodeId} (inHand : node ∈ hand)
    (isActive : Bool) : node ∉ queue.pdevList isActive := by
  intro listed
  have once := wf.count_le node
  have first := Multiset.count_pos.mpr inHand
  have second := List.count_pos_iff.mpr listed
  cases isActive <;> omega

theorem Wf.not_pooled (wf : Wf hand queue) {node : NodeId} (inHand : node ∈ hand) :
    node ∉ queue.cmdPoolList := by
  intro pooled
  have once := wf.count_le node
  have first := Multiset.count_pos.mpr inHand
  have second := List.count_pos_iff.mpr pooled
  omega

theorem Wf.pool_not_listed (wf : Wf hand queue) {node : NodeId} (pooled : node ∈ queue.cmdPoolList)
    (isActive : Bool) : node ∉ queue.pdevList isActive := by
  intro listed
  have once := wf.count_le node
  have first := List.count_pos_iff.mpr pooled
  have second := List.count_pos_iff.mpr listed
  cases isActive <;> omega

theorem Wf.nodup (wf : Wf hand queue) (isActive : Bool) : (queue.pdevList isActive).Nodup := by
  refine List.nodup_iff_count_le_one.mpr fun node => ?_
  have once := wf.count_le node
  cases isActive <;> omega

theorem Wf.vdevList_nodup (wf : Wf hand queue) (isActive : Bool) (vdev : limits.Vdev) :
    (queue.vdevList isActive vdev).Nodup := by
  rw [wf.vdevLists]
  exact (wf.nodup isActive).filter _

/-- The vdev's list holds the nodes of the pdev's list with a command of the vdev. -/
theorem Wf.mem_vdevList (wf : Wf hand queue) {isActive : Bool} {vdev : limits.Vdev}
    {node : NodeId} : node ∈ queue.vdevList isActive vdev ↔
      node ∈ queue.pdevList isActive ∧ ∃ cmd, queue.cmd node = some cmd ∧ cmd.vdev = vdev := by
  rw [wf.vdevLists, List.mem_filter]
  refine and_congr_right fun _ => ?_
  simp [onVdev, Option.any_eq_true]

end Wf

/-! ### Counting the commands of a list -/

/-- How many commands of a kind are in a list. -/
def count (queue : Queue limits) (isActive : Bool) (kind : Command limits → Bool) : Nat :=
  (queue.pdevList isActive).countP fun node => (queue.cmd node).any kind

/-- The counts depend on the list, and on the commands of its nodes. -/
theorem count_congr {queue other : Queue limits} {isActive : Bool} (kind : Command limits → Bool)
    (sameList : other.pdevList isActive = queue.pdevList isActive)
    (sameCmd : ∀ node ∈ queue.pdevList isActive, other.cmd node = queue.cmd node) :
    other.count isActive kind = queue.count isActive kind := by
  unfold count
  rw [sameList]
  refine List.countP_congr fun node member => ?_
  rw [sameCmd node member]

theorem count_pos {queue : Queue limits} {isActive : Bool} {kind : Command limits → Bool} :
    0 < queue.count isActive kind ↔
      ∃ node ∈ queue.pdevList isActive, ∃ cmd, queue.cmd node = some cmd ∧ kind cmd = true := by
  unfold count
  rw [List.countP_pos_iff]
  simp [Option.any_eq_true]

/-! ### Moving a command -/

/-- A node is taken off the lists of its vdev and of the pdev. -/
def take (queue : Queue limits) (isActive : Bool) (node : NodeId) (vdev : limits.Vdev) :
    Queue limits :=
  (queue.setVdevList isActive vdev ((queue.vdevList isActive vdev).erase node)).setPdevList isActive
    ((queue.pdevList isActive).erase node)

/-- Where a command is put into a list. -/
def place (list : List NodeId) (node : NodeId) (cmd : Command limits) : List NodeId :=
  if cmd.isHighPriority then node :: list else list ++ [node]

/-- A node is put onto the lists of its vdev and of the pdev. -/
def put (queue : Queue limits) (isActive : Bool) (node : NodeId) (cmd : Command limits) :
    Queue limits :=
  (queue.setVdevList isActive cmd.vdev
    (place (queue.vdevList isActive cmd.vdev) node cmd)).setPdevList isActive
      (place (queue.pdevList isActive) node cmd)

section Place

variable {list : List NodeId} {node other : NodeId} {cmd : Command limits}

theorem mem_place : other ∈ place list node cmd ↔ other = node ∨ other ∈ list := by
  unfold place
  split
  · exact List.mem_cons
  · rw [List.mem_append, List.mem_singleton, or_comm]

theorem coe_place : (place list node cmd : Multiset NodeId) =
    node ::ₘ (list : Multiset NodeId) := by
  unfold place
  split
  · rfl
  · rw [← Multiset.coe_add, Multiset.coe_singleton, ← Multiset.singleton_add, add_comm]

theorem countP_place (kind : NodeId → Bool) :
    (place list node cmd).countP kind = list.countP kind + if kind node then 1 else 0 := by
  unfold place
  split
  · exact List.countP_cons
  · rw [List.countP_append, List.countP_singleton]

theorem filter_place (kind : NodeId → Bool) :
    (place list node cmd).filter kind =
      if kind node then place (list.filter kind) node cmd else list.filter kind := by
  unfold place
  by_cases isKind : kind node = true <;> by_cases high : cmd.isHighPriority = true <;>
    simp [isKind, high]

theorem erase_place (absent : node ∉ list) : (place list node cmd).erase node = list := by
  unfold place
  split
  · exact List.erase_cons_head ..
  · rw [List.erase_append_right _ absent, List.erase_cons_head, List.append_nil]

end Place

section Fields

variable (queue : Queue limits) (isActive : Bool) (node : NodeId) (vdev : limits.Vdev)
  (cmd : Command limits)

theorem take_pdevList (other : Bool) : (queue.take isActive node vdev).pdevList other =
    if other = isActive then (queue.pdevList isActive).erase node else queue.pdevList other := by
  show Function.update queue.pdevList isActive _ other = _
  rw [Function.update_apply]

theorem take_vdevList (other : Bool) (third : limits.Vdev) :
    (queue.take isActive node vdev).vdevList other third =
      if other = isActive ∧ third = vdev then (queue.vdevList isActive vdev).erase node
      else queue.vdevList other third := by
  show Function.update queue.vdevList isActive _ other third = _
  by_cases sameList : other = isActive
  · subst sameList
    rw [Function.update_self, Function.update_apply]
    simp
  · rw [Function.update_of_ne sameList, if_neg fun both => sameList both.1]

theorem put_pdevList (other : Bool) : (queue.put isActive node cmd).pdevList other =
    if other = isActive then place (queue.pdevList isActive) node cmd
    else queue.pdevList other := by
  show Function.update queue.pdevList isActive _ other = _
  rw [Function.update_apply]

theorem put_vdevList (other : Bool) (third : limits.Vdev) :
    (queue.put isActive node cmd).vdevList other third =
      if other = isActive ∧ third = cmd.vdev then
        place (queue.vdevList isActive cmd.vdev) node cmd
      else queue.vdevList other third := by
  show Function.update queue.vdevList isActive _ other third = _
  by_cases sameList : other = isActive
  · subst sameList
    rw [Function.update_self, Function.update_apply]
    simp
  · rw [Function.update_of_ne sameList, if_neg fun both => sameList both.1]

end Fields

section Moves

variable {hand : Multiset NodeId} {queue : Queue limits} {isActive : Bool} {node : NodeId}
  {cmd : Command limits}

/-- **A command taken off the lists** is in hand. -/
theorem Wf.take (wf : Wf hand queue) (listed : node ∈ queue.pdevList isActive)
    (isCmd : queue.cmd node = some cmd) :
    Wf (node ::ₘ hand) (queue.take isActive node cmd.vdev) where
  nodes := by
    rw [← wf.nodes]
    have split : (queue.pdevList isActive : Multiset NodeId) =
        node ::ₘ ((queue.pdevList isActive).erase node : List NodeId) := by
      rw [← Multiset.coe_erase, Multiset.cons_erase (Multiset.mem_coe.mpr listed)]
    cases isActive with
    | true =>
      show node ::ₘ hand + (queue.cmdPoolList +
        (((queue.pdevList true).erase node : List NodeId) + queue.pendingList)) = _
      rw [split]
      simp only [← Multiset.singleton_add]
      abel
    | false =>
      show node ::ₘ hand + (queue.cmdPoolList +
        (queue.activeList + ((queue.pdevList false).erase node : List NodeId))) = _
      rw [split]
      simp only [← Multiset.singleton_add]
      abel
  blank := wf.blank
  idle := fun other member => by
    have member : other ∈ (queue.take isActive node cmd.vdev).pdevList false := member
    rw [take_pdevList] at member
    split at member
    · rename_i same
      subst same
      exact wf.idle other (List.mem_of_mem_erase member)
    · exact wf.idle other member
  filled := fun other third member => by
    rw [take_pdevList] at member
    split at member
    · rename_i same
      subst same
      exact wf.filled _ third (List.mem_of_mem_erase member)
    · exact wf.filled _ third member
  vdevLists := fun other vdev => by
    rw [take_vdevList, take_pdevList]
    show _ = List.filter (queue.onVdev vdev) _
    by_cases same : other = isActive
    · subst same
      rw [if_pos rfl, (wf.nodup _).erase_eq_filter, List.filter_filter]
      by_cases sameVdev : vdev = cmd.vdev
      · subst sameVdev
        rw [if_pos ⟨rfl, rfl⟩, (wf.vdevList_nodup _ _).erase_eq_filter, wf.vdevLists,
          List.filter_filter]
        exact List.filter_congr fun _ _ => Bool.and_comm _ _
      · rw [if_neg fun both => sameVdev both.2, wf.vdevLists]
        refine List.filter_congr fun third _ => ?_
        by_cases isNode : third = node
        · subst isNode
          simp [onVdev, isCmd, Ne.symm sameVdev]
        · simp [isNode]
    · rw [if_neg fun both => same both.1, if_neg same, wf.vdevLists]
  distinct := by
    show List.Pairwise _ ((queue.take isActive node cmd.vdev).pdevList false)
    rw [take_pdevList]
    split
    · rename_i same
      subst same
      exact wf.distinct.sublist (List.erase_sublist ..)
    · exact wf.distinct

/-- **A command put onto the lists** leaves the hand. -/
theorem Wf.put (wf : Wf (node ::ₘ hand) queue) (isCmd : queue.cmd node = some cmd)
    (isIdle : isActive = false → (queue.cmdInUse node).markedForActivation = false)
    (isNew : isActive = false → ∀ other ∈ queue.pendingList, ∀ third,
      queue.cmd other = some third → sameKey third cmd = false) :
    Wf hand (queue.put isActive node cmd) where
  nodes := by
    rw [← wf.nodes]
    cases isActive with
    | true =>
      show hand + (queue.cmdPoolList +
        ((place (queue.pdevList true) node cmd : List NodeId) + queue.pendingList)) = _
      rw [coe_place]
      simp only [← Multiset.singleton_add]
      abel
    | false =>
      show hand + (queue.cmdPoolList +
        (queue.activeList + (place (queue.pdevList false) node cmd : List NodeId))) = _
      rw [coe_place]
      simp only [← Multiset.singleton_add]
      abel
  blank := wf.blank
  idle := fun other member => by
    have member : other ∈ (queue.put isActive node cmd).pdevList false := member
    rw [put_pdevList] at member
    split at member
    · rename_i same
      subst same
      rcases mem_place.mp member with rfl | before
      · exact isIdle rfl
      · exact wf.idle other before
    · exact wf.idle other member
  filled := fun other third member => by
    rw [put_pdevList] at member
    split at member
    · rename_i same
      subst same
      rcases mem_place.mp member with rfl | before
      · exact ⟨cmd, isCmd⟩
      · exact wf.filled _ third before
    · exact wf.filled _ third member
  vdevLists := fun other vdev => by
    rw [put_vdevList, put_pdevList]
    show _ = List.filter (queue.onVdev vdev) _
    have onVdev : queue.onVdev vdev node = decide (cmd.vdev = vdev) := by
      simp [Queue.onVdev, isCmd]
    by_cases same : other = isActive
    · subst same
      rw [if_pos rfl, filter_place, onVdev]
      by_cases sameVdev : vdev = cmd.vdev
      · subst sameVdev
        simp [wf.vdevLists]
      · rw [if_neg fun both => sameVdev both.2, wf.vdevLists, if_neg]
        simpa using Ne.symm sameVdev
    · rw [if_neg fun both => same both.1, if_neg same, wf.vdevLists]
  distinct := by
    show List.Pairwise _ ((queue.put isActive node cmd).pdevList false)
    rw [put_pdevList]
    split
    · rename_i same
      subst same
      have isNew := isNew rfl
      unfold place
      split
      · refine List.pairwise_cons.mpr ⟨fun other member first second isFirst isSecond => ?_,
          wf.distinct⟩
        obtain rfl := Option.some.inj (isCmd.symm.trans isFirst)
        rw [sameKey_comm]
        exact isNew other member second isSecond
      · refine List.pairwise_append.mpr ⟨wf.distinct, List.pairwise_singleton _ _, ?_⟩
        intro other member last isLast first second isFirst isSecond
        obtain rfl := List.mem_singleton.mp isLast
        obtain rfl := Option.some.inj (isCmd.symm.trans isSecond)
        exact isNew other member first isFirst
    · exact wf.distinct

/-- **A command's node goes back to the pool**, blank. -/
theorem Wf.release (wf : Wf (node ::ₘ hand) queue) : Wf hand (queue.release node) := by
  have inHand : node ∈ node ::ₘ hand := Multiset.mem_cons_self _ _
  have others : ∀ {other}, other ≠ node → (queue.release node).cmd other = queue.cmd other :=
    fun different => Function.update_of_ne different _ _
  have marks : ∀ {other}, other ≠ node →
      (queue.release node).cmdInUse other = queue.cmdInUse other :=
    fun different => Function.update_of_ne different _ _
  have listed : ∀ {list other}, other ∈ queue.pdevList list → other ≠ node := by
    rintro list other member rfl
    exact wf.not_listed inHand list member
  refine ⟨?_, fun other pooled => ?_, fun other member => ?_, fun list other member => ?_,
    fun list vdev => ?_, ?_⟩
  · rw [← wf.nodes]
    show hand + ((queue.cmdPoolList ++ [node] : List NodeId) + _) = _
    rw [← Multiset.coe_add, Multiset.coe_singleton]
    simp only [← Multiset.singleton_add]
    abel
  · rcases List.mem_append.mp pooled with before | isNode
    · have different : other ≠ node := by
        rintro rfl
        exact wf.not_pooled inHand before
      refine ⟨(others different).trans (wf.blank other before).1, ?_⟩
      rw [marks different]
      exact (wf.blank other before).2
    · obtain rfl := List.mem_singleton.mp isNode
      refine ⟨Function.update_self .., ?_⟩
      have isZero : (queue.release other).cmdInUse other = .zero := Function.update_self ..
      rw [isZero]
      exact ⟨rfl, rfl⟩
  · rw [marks (listed member)]
    exact wf.idle other member
  · rw [others (listed member)]
    exact wf.filled list other member
  · refine (wf.vdevLists list vdev).trans (List.filter_congr fun other member => ?_)
    unfold onVdev
    rw [others (listed member)]
  · refine wf.distinct.imp_of_mem fun first second differ one two isOne isTwo => ?_
    rw [others (listed first)] at isOne
    rw [others (listed second)] at isTwo
    exact differ one two isOne isTwo

/-- A node is taken from the pool and given a command. -/
theorem Wf.allocate {pool : List NodeId} (wf : Wf hand queue)
    (isPool : queue.cmdPoolList = node :: pool) (cmd : Command limits) :
        Wf (node ::ₘ hand) ((queue.setPool pool).setCmd node (some cmd)) := by
  have pooled : node ∈ queue.cmdPoolList := by
    rw [isPool]
    exact List.mem_cons_self
  have others : ∀ {other}, other ≠ node →
      ((queue.setPool pool).setCmd node (some cmd)).cmd other = queue.cmd other :=
    fun different => Function.update_of_ne different _ _
  have listed : ∀ {list other}, other ∈ queue.pdevList list → other ≠ node := by
    rintro list other member rfl
    exact wf.pool_not_listed pooled list member
  refine ⟨?_, fun other inPool => ?_, wf.idle, fun list other member => ?_, fun list vdev => ?_,
    ?_⟩
  · rw [← wf.nodes, isPool]
    show node ::ₘ hand + ((pool : Multiset NodeId) + _) =
      hand + (node ::ₘ (pool : Multiset NodeId) + _)
    simp only [← Multiset.singleton_add]
    abel
  · have different : other ≠ node := by
      rintro rfl
      have once := wf.count_le other
      have inPool := List.count_pos_iff.mpr inPool
      rw [isPool, List.count_cons_self] at once
      have inPool : 0 < pool.count other := inPool
      omega
    rw [others different]
    exact wf.blank other (by rw [isPool]; exact List.mem_cons_of_mem _ inPool)
  · rw [others (listed member)]
    exact wf.filled list other member
  · refine (wf.vdevLists list vdev).trans (List.filter_congr fun other member => ?_)
    unfold onVdev
    rw [others (listed member)]
  · refine wf.distinct.imp_of_mem fun first second differ one two isOne isTwo => ?_
    rw [others (listed first)] at isOne
    rw [others (listed second)] at isTwo
    exact differ one two isOne isTwo

/-- Nothing moves: counters and flags may change. -/
theorem Wf.congr {other : Queue limits} (wf : Wf hand queue)
    (samePdev : other.pdevList = queue.pdevList) (sameVdev : other.vdevList = queue.vdevList)
    (samePool : other.cmdPoolList = queue.cmdPoolList) (sameCmd : other.cmd = queue.cmd)
    (sameInUse : other.cmdInUse = queue.cmdInUse) : Wf hand other := by
  obtain ⟨pdevList, vdevList, cmdPoolList, cmd, cmdInUse, _, _, _, _⟩ := other
  dsimp only at samePdev sameVdev samePool sameCmd sameInUse
  subst samePdev sameVdev samePool sameCmd sameInUse
  exact ⟨wf.nodes, wf.blank, wf.idle, wf.filled, wf.vdevLists, wf.distinct⟩

/-- Marks may change, but for the nodes of the pool and the activation of pending commands. -/
theorem Wf.updateInUse (wf : Wf hand queue) (change : InUse → InUse)
    (pooled : node ∈ queue.cmdPoolList → (queue.cmdInUse node).Unmarked →
      (change (queue.cmdInUse node)).Unmarked)
    (pending : node ∈ queue.pendingList → (queue.cmdInUse node).markedForActivation = false →
      (change (queue.cmdInUse node)).markedForActivation = false) :
    Wf hand (queue.updateInUse node change) where
  nodes := wf.nodes
  blank := fun other inPool => by
    refine ⟨(wf.blank other inPool).1, ?_⟩
    show InUse.Unmarked (Function.update queue.cmdInUse node _ other)
    by_cases same : other = node
    · subst same
      rw [Function.update_self]
      exact pooled inPool (wf.blank other inPool).2
    · rw [Function.update_of_ne same]
      exact (wf.blank other inPool).2
  idle := fun other member => by
    show (Function.update queue.cmdInUse node _ other).markedForActivation = false
    by_cases same : other = node
    · subst same
      rw [Function.update_self]
      exact pending member (wf.idle other member)
    · rw [Function.update_of_ne same]
      exact wf.idle other member
  filled := wf.filled
  vdevLists := wf.vdevLists
  distinct := wf.distinct

theorem count_take (listed : node ∈ queue.pdevList isActive) (isCmd : queue.cmd node = some cmd)
    (kind : Command limits → Bool) (other : Bool) :
    (queue.take isActive node cmd.vdev).count other kind +
      (if other = isActive ∧ kind cmd = true then 1 else 0) = queue.count other kind := by
  unfold count
  rw [take_pdevList]
  show List.countP (fun third => (queue.cmd third).any kind) _ + _ = _
  by_cases same : other = isActive
  · subst same
    rw [if_pos rfl, List.countP_erase]
    have isKind : ((queue.cmd node).any kind) = kind cmd := by simp [isCmd]
    by_cases isOne : kind cmd = true
    · have positive : 0 < (queue.pdevList other).countP fun third => (queue.cmd third).any kind :=
        List.countP_pos_iff.mpr ⟨node, listed, by rw [isKind]; exact isOne⟩
      simp only [isKind, isOne, listed, and_self, if_true]
      omega
    · simp [isKind, isOne]
  · rw [if_neg same, if_neg fun both => same both.1]
    rfl

theorem count_put (isCmd : queue.cmd node = some cmd) (kind : Command limits → Bool)
    (other : Bool) : (queue.put isActive node cmd).count other kind =
      queue.count other kind + if other = isActive ∧ kind cmd = true then 1 else 0 := by
  unfold count
  rw [put_pdevList]
  show List.countP (fun third => (queue.cmd third).any kind) _ = _
  have isKind : ((queue.cmd node).any kind) = kind cmd := by simp [isCmd]
  by_cases same : other = isActive
  · subst same
    rw [if_pos rfl, countP_place, isKind]
    simp
  · rw [if_neg same, if_neg fun both => same both.1]
    rfl

end Moves

/-! ### Finding and removing a command -/

section Remove

variable {hand : Multiset NodeId} {queue : Queue limits} {isActive : Bool} {node : NodeId}
  {cmd : Command limits}

/-- What is found is in the list, and has the key of the command. -/
theorem findCmd_some {list : List NodeId} (found : queue.findCmd list cmd = some node) :
    node ∈ list ∧ ∃ other, queue.cmd node = some other ∧ sameKey other cmd = true := by
  refine ⟨List.mem_of_find?_eq_some found, ?_⟩
  have holds := List.find?_some found
  obtain ⟨other, isOther, same⟩ := Option.any_eq_true _ _ |>.mp holds
  exact ⟨other, isOther, same⟩

theorem vdev_of_sameKey {one two : Command limits} (same : sameKey one two = true) :
    one.vdev = two.vdev := by
  simp only [sameKey, Bool.and_eq_true, decide_eq_true_iff] at same
  exact same.2

/-- The vdev's list and the pdev's list find the same node. -/
theorem Wf.findCmd_vdevList (wf : Wf hand queue) (isActive : Bool) (cmd : Command limits) :
    queue.findCmd (queue.vdevList isActive cmd.vdev) cmd =
      queue.findCmd (queue.pdevList isActive) cmd := by
  unfold findCmd
  rw [wf.vdevLists, List.find?_filter]
  congr 1
  funext node
  unfold onVdev
  cases queue.cmd node with
  | none => rfl
  | some other =>
    simp only [Option.any_some, Bool.decide_and]
    by_cases same : other.vdev = cmd.vdev
    · simp [same]
    · simp [same, sameKey]

/-- A command is taken off the lists, and an active one is no longer accounted for. -/
def removed (queue : Queue limits) (isActive : Bool) (node : NodeId) (vdev : limits.Vdev) :
    Queue limits :=
  if isActive then (queue.take isActive node vdev).clearActive vdev (queue.isBlocking node)
  else queue.take isActive node vdev

/-- **`wlan_ser_remove_non_scan_cmd`** takes the command that is found off both lists. -/
theorem removeNonScanCmd_eq (wf : Wf hand queue) (cmd : Command limits) (isActive : Bool) :
    queue.removeNonScanCmd cmd isActive =
      match queue.findCmd (queue.pdevList isActive) cmd with
      | none => (.error .eFailure, queue)
      | some node =>
        if (queue.cmdInUse node).markedForActivation then
          (.error .ePending,
            queue.updateInUse node fun inUse => { inUse with activeMarkedForRemoval := true })
        else (.ok node, queue.removed isActive node cmd.vdev) := by
  unfold removeNonScanCmd removeCmdFromVdevQueue removeCmdFromQueue
  rw [wf.findCmd_vdevList]
  cases found : queue.findCmd (queue.pdevList isActive) cmd with
  | none => rfl
  | some node =>
    dsimp only
    by_cases marked : (queue.cmdInUse node).markedForActivation = true
    · rw [if_pos marked, if_pos marked]
    · rw [if_neg marked, if_neg marked]
      dsimp only
      unfold removeCmdFromPdevQueue removeCmdFromQueue
      have again : (queue.setVdevList isActive cmd.vdev
          ((queue.vdevList isActive cmd.vdev).erase node)).findCmd
            ((queue.setVdevList isActive cmd.vdev
              ((queue.vdevList isActive cmd.vdev).erase node)).pdevList isActive) cmd = some node :=
        found
      rw [again]
      dsimp only
      have unmarked : ((queue.setVdevList isActive cmd.vdev
          ((queue.vdevList isActive cmd.vdev).erase node)).cmdInUse node).markedForActivation ≠
              true :=
        marked
      rw [if_neg unmarked]
      rfl

theorem removed_cmd (queue : Queue limits) (isActive : Bool) (node : NodeId) (vdev : limits.Vdev) :
    (queue.removed isActive node vdev).cmd = queue.cmd := by
  unfold removed
  split <;> rfl

theorem Wf.removed (wf : Wf hand queue) (listed : node ∈ queue.pdevList isActive)
    (isCmd : queue.cmd node = some cmd) :
    Wf (node ::ₘ hand) (queue.removed isActive node cmd.vdev) := by
  unfold Queue.removed
  split
  · exact (wf.take listed isCmd).congr rfl rfl rfl rfl rfl
  · exact wf.take listed isCmd

theorem removed_count (queue : Queue limits) (isActive : Bool) (node : NodeId)
    (vdev : limits.Vdev) (other : Bool) (kind : Command limits → Bool) :
    (queue.removed isActive node vdev).count other kind =
      (queue.take isActive node vdev).count other kind := by
  unfold removed
  split <;> rfl

/-- The node of a command in hand does not count. -/
theorem release_count (wf : Wf (node ::ₘ hand) queue) (other : Bool)
    (kind : Command limits → Bool) : (queue.release node).count other kind =
      queue.count other kind := by
  refine count_congr kind rfl fun third member => Function.update_of_ne ?_ _ _
  rintro rfl
  exact wf.not_listed (Multiset.mem_cons_self _ _) other member

end Remove

/-! ### Adding a command -/

section Add

variable {hand : Multiset NodeId} {queue : Queue limits} {isActive : Bool} {node : NodeId}
  {cmd : Command limits}

/-- One of the lists for the command is full. -/
def Full (queue : Queue limits) (cmd : Command limits) (isActive : Bool) : Prop :=
  (queue.vdevList isActive cmd.vdev).length = vdevMaxSize limits isActive cmd.vdev ∨
    (queue.pdevList isActive).length = pdevMaxSize limits isActive

instance (queue : Queue limits) (cmd : Command limits) (isActive : Bool) :
    Decidable (queue.Full cmd isActive) := inferInstanceAs (Decidable (_ ∨ _))

/-- A command is put onto the lists, and an active one is accounted for. -/
def added (queue : Queue limits) (isActive : Bool) (node : NodeId) (cmd : Command limits) :
    Queue limits :=
  if isActive then ((queue.put isActive node cmd).disableQueue cmd).recordActive cmd
  else (queue.put isActive node cmd).disableQueue cmd

/-- **`wlan_ser_add_non_scan_cmd` with room** in both lists. -/
theorem addNonScanCmd_of_room (room : ¬queue.Full cmd isActive) :
    queue.addNonScanCmd node cmd isActive =
      (addedStatus isActive, queue.added isActive node cmd) := by
  obtain ⟨vdevRoom, pdevRoom⟩ := not_or.mp room
  have swap : ∀ list, ((queue.setVdevList isActive cmd.vdev list).disableQueue cmd).pdevList =
      queue.pdevList := by
    intro list
    unfold disableQueue
    split <;> rfl
  have order : ∀ list other,
      ((queue.setVdevList isActive cmd.vdev list).disableQueue cmd).setPdevList isActive other =
        ((queue.setVdevList isActive cmd.vdev list).setPdevList isActive other).disableQueue
            cmd := by
    intro list other
    unfold disableQueue
    split <;> rfl
  have place_eq : ∀ list : List NodeId, (if cmd.isHighPriority = true then some (node :: list)
      else some (list ++ [node])) = some (place list node cmd) := by
    intro list
    unfold place
    split <;> rfl
  unfold addNonScanCmd addCmdToVdevQueue addCmdToQueue
  rw [if_neg vdevRoom, place_eq]
  have notFull : addedStatus isActive ≠ .deniedListFull := by cases isActive <;> decide
  dsimp only
  split
  · rename_i isFull
    exact absurd (congrArg Prod.fst isFull) notFull
  · rename_i status after _ isAdded
    obtain ⟨rfl, rfl⟩ := Prod.mk.inj isAdded
    unfold addCmdToPdevQueue addCmdToQueue
    rw [swap, if_neg pdevRoom, place_eq]
    dsimp only
    rw [if_neg (by simp), order]
    rfl

/-- A vdev's list is overwritten twice. -/
theorem setVdevList_twice (queue : Queue limits) (isActive : Bool) (vdev : limits.Vdev)
    (list : List NodeId) : (queue.setVdevList isActive vdev list).setVdevList isActive vdev
      (queue.vdevList isActive vdev) = queue := by
  unfold setVdevList
  simp

/-- A command that was not in the list is found where it was put. -/
theorem findCmd_place {list : List NodeId} (isCmd : queue.cmd node = some cmd)
    (isNew : queue.findCmd list cmd = none) :
    queue.findCmd (place list node cmd) cmd = some node := by
  have isMatch : ((queue.cmd node).any fun other => sameKey other cmd) = true := by
    simp [isCmd, sameKey]
  unfold findCmd at *
  unfold place
  split
  · exact List.find?_cons_of_pos isMatch
  · rw [List.find?_append, isNew, Option.none_or]
    exact List.find?_cons_of_pos isMatch

/-- **`wlan_ser_add_non_scan_cmd` without room** changes no list, but may disable the vdev's
queue. -/
theorem addNonScanCmd_of_full (wf : Wf (node ::ₘ hand) queue) (isCmd : queue.cmd node = some cmd)
    (unmarked : (queue.cmdInUse node).markedForActivation = false)
    (isNew : queue.findCmd (queue.vdevList isActive cmd.vdev) cmd = none)
    (full : queue.Full cmd isActive) :
    queue.addNonScanCmd node cmd isActive = (.deniedListFull, queue.disableQueue cmd) := by
  unfold addNonScanCmd addCmdToVdevQueue
  by_cases vdevFull : (queue.vdevList isActive cmd.vdev).length =
      vdevMaxSize limits isActive cmd.vdev
  · rw [addCmdToQueue, if_pos vdevFull]
  · have pdevFull := full.resolve_left vdevFull
    have isPlaced : addCmdToQueue (queue.vdevList isActive cmd.vdev)
        (vdevMaxSize limits isActive cmd.vdev) node cmd =
          some (place (queue.vdevList isActive cmd.vdev) node cmd) := by
      unfold addCmdToQueue place
      rw [if_neg vdevFull]
      split <;> rfl
    rw [isPlaced]
    have notFull : addedStatus isActive ≠ .deniedListFull := by cases isActive <;> decide
    dsimp only
    split
    · rename_i isFull
      exact absurd (congrArg Prod.fst isFull) notFull
    · rename_i status after _ isAdded
      obtain ⟨rfl, rfl⟩ := Prod.mk.inj isAdded
      -- the node just placed is the one that is found, and is taken off the vdev's list again
      generalize isList : place (queue.vdevList isActive cmd.vdev) node cmd = list
      have absent : node ∉ queue.vdevList isActive cmd.vdev := by
        rw [wf.mem_vdevList]
        exact fun both => wf.not_listed (Multiset.mem_cons_self _ _) isActive both.1
      have found : queue.findCmd list cmd = some node := by
        rw [← isList]
        exact findCmd_place isCmd isNew
      have back : list.erase node = queue.vdevList isActive cmd.vdev := by
        rw [← isList]
        exact erase_place absent
      have frame : ∀ changed : Queue limits, changed.pdevList = queue.pdevList →
          changed.cmd = queue.cmd → changed.cmdInUse = queue.cmdInUse →
          changed.vdevList isActive cmd.vdev = list →
          (if (changed.addCmdToPdevQueue node cmd isActive).1 ≠ addedStatus isActive then
            ((changed.addCmdToPdevQueue node cmd isActive).1,
              ((changed.addCmdToPdevQueue node cmd isActive).2.removeCmdFromVdevQueue cmd
                isActive).2)
          else ((changed.addCmdToPdevQueue node cmd isActive).1,
            if isActive then (changed.addCmdToPdevQueue node cmd isActive).2.recordActive cmd
            else (changed.addCmdToPdevQueue node cmd isActive).2)) =
            (.deniedListFull, changed.setVdevList isActive cmd.vdev
              (queue.vdevList isActive cmd.vdev)) := by
        intro changed samePdev sameCmd sameInUse sameList
        unfold addCmdToPdevQueue addCmdToQueue
        rw [samePdev, if_pos pdevFull]
        dsimp only
        rw [if_pos (Ne.symm notFull)]
        have found' : changed.findCmd list cmd = some node := by
          unfold findCmd
          rw [sameCmd]
          exact found
        unfold removeCmdFromVdevQueue removeCmdFromQueue
        rw [sameList, found']
        dsimp only
        rw [sameInUse, if_neg (by simp [unmarked])]
        dsimp only
        rw [sameList, back]
      have placed : (queue.setVdevList isActive cmd.vdev list).vdevList isActive cmd.vdev =
          list := by
        simp [setVdevList]
      unfold disableQueue
      split
      · refine (frame { (queue.setVdevList isActive cmd.vdev list) with
          queueDisable := Function.update queue.queueDisable cmd.vdev true } rfl rfl rfl
            placed).trans (Prod.ext rfl ?_)
        unfold setVdevList
        simp
      · exact (frame (queue.setVdevList isActive cmd.vdev list) rfl rfl rfl placed).trans
          (Prod.ext rfl (setVdevList_twice queue isActive cmd.vdev list))

end Add

end Queue

end Qsdk.Serialization
