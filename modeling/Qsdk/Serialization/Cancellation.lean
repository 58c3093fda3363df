/-
**Whole cancellations.**

`wlan_ser_cancel_non_scan_cmd` and `wlan_ser_cancel_scan_cmd` go along a list in the same way: they
are sweeps (`Qsdk.Sweep`), with a budget of one step for each entry of the list. An active command
that is about to be activated is only marked, but the walk does not go on behind it after the next
removal: it comes to it again, and the steps that it makes again may be missing at the end of the
list (`cancel_complete_iff`).
-/

import Qsdk.Lib.Sweep
import Qsdk.Serialization.Basic

namespace Qsdk.Serialization

open Sweep

variable {limits : Limits}

/-! ### Entries of a list that are cancelled -/

/-- A queue with a list of nodes, and what a cancellation does to a node. -/
structure Entries (σ Cmd : Type) where
  list : σ → List NodeId
  cmd : σ → NodeId → Option Cmd
  cmdInUse : σ → NodeId → InUse
  mark : NodeId → σ → σ
  remove : NodeId → σ → σ

namespace Entries

variable {σ Cmd : Type}

/-- A node is marked with `CMD_ACTIVE_MARKED_FOR_CANCEL` or taken off the list, and no other node is
touched. -/
structure Sound (entries : Entries σ Cmd) : Prop where
  list_mark : ∀ node s, entries.list (entries.mark node s) = entries.list s
  cmd_mark : ∀ node s, entries.cmd (entries.mark node s) = entries.cmd s
  cmdInUse_mark : ∀ node s, entries.cmdInUse (entries.mark node s) =
    Function.update (entries.cmdInUse s) node
    { entries.cmdInUse s node with activeMarkedForCancel := true }
  mark_eq : ∀ node s, (entries.cmdInUse s node).activeMarkedForCancel = true →
    entries.mark node s = s
  list_remove : ∀ node s, entries.list (entries.remove node s) = (entries.list s).erase node
  others_remove : ∀ node s other, other ≠ node → entries.cmd (entries.remove node s) other =
    entries.cmd s other ∧
    entries.cmdInUse (entries.remove node s) other = entries.cmdInUse s other

/-- The command of the node matches. -/
def isMatch (entries : Entries σ Cmd) (matching : Cmd → Bool) (s : σ) (node : NodeId) : Bool :=
  (entries.cmd s node).any matching

/-- The cancellation as a sweep. -/
def walker (entries : Entries σ Cmd) (matching : Cmd → Bool) (isActive : Bool) :
    Walker σ NodeId where
  list := entries.list
  kind s node :=
    if !entries.isMatch matching s node then .pass
    else if isActive && (entries.cmdInUse s node).markedForActivation then .mark
    else .remove
  isMarked s node := (entries.cmdInUse s node).activeMarkedForCancel
  mark := entries.mark
  remove := entries.remove

/-- **What a cancellation is to do**: of the matching entries only those stay that are about to be
activated, each with `CMD_ACTIVE_MARKED_FOR_CANCEL`; the others keep their order and are not
touched. -/
structure CancelledAll (entries : Entries σ Cmd) (matching : Cmd → Bool) (isActive : Bool)
    (s after : σ) : Prop where
  matched : ∀ node ∈ entries.list after, entries.isMatch matching after node = true →
    isActive = true ∧ (entries.cmdInUse after node).markedForActivation = true ∧
      (entries.cmdInUse after node).activeMarkedForCancel = true
  order : (entries.list after).filter (fun node => !entries.isMatch matching s node) =
    (entries.list s).filter fun node => !entries.isMatch matching s node
  untouched : ∀ node ∈ entries.list s, entries.isMatch matching s node = false →
    entries.cmd after node = entries.cmd s node ∧ entries.cmdInUse after node =
    entries.cmdInUse s node

/-- The entries that are visited again before the last one that is to be removed or marked is
reached are not more than the entries behind it. -/
def RevisitsFit (entries : Entries σ Cmd) (matching : Cmd → Bool) (isActive : Bool) (s : σ) :
    Prop :=
  revisits ((entries.walker matching isActive).kind s)
    ((entries.walker matching isActive).wanted s) 0
      (entries.list s) ≤
    behind ((entries.walker matching isActive).wanted s) (entries.list s)

variable {entries : Entries σ Cmd} {matching : Cmd → Bool} {isActive : Bool} {s : σ} {node : NodeId}

theorem walker_kind : (entries.walker matching isActive).kind s node =
    if !entries.isMatch matching s node then .pass
    else if isActive && (entries.cmdInUse s node).markedForActivation then .mark
    else .remove := rfl

theorem walker_isMarked : (entries.walker matching isActive).isMarked s node =
    (entries.cmdInUse s node).activeMarkedForCancel := rfl

theorem walker_pass : (entries.walker matching isActive).kind s node = .pass ↔
    entries.isMatch matching s node = false := by
  rw [walker_kind, ← Bool.not_eq_true']
  split_ifs with passes marked <;> simp [passes]

theorem walker_wanted : (entries.walker matching isActive).wanted s node = false ↔
    (entries.isMatch matching s node = true → isActive = true ∧
      (entries.cmdInUse s node).markedForActivation = true ∧
      (entries.cmdInUse s node).activeMarkedForCancel = true) := by
  rw [Walker.wanted, walker_kind, walker_isMarked]
  cases entries.isMatch matching s node <;> cases isActive <;>
    cases (entries.cmdInUse s node).markedForActivation <;> simp

theorem Sound.lawful (sound : entries.Sound) (matching : Cmd → Bool) (isActive : Bool) :
    (entries.walker matching isActive).Lawful where
  list_mark := sound.list_mark
  list_remove := sound.list_remove
  kind_mark node s := by
    funext other
    have same : (entries.cmdInUse (entries.mark node s) other).markedForActivation =
        (entries.cmdInUse s other).markedForActivation := by
      rw [sound.cmdInUse_mark, Function.update_apply]
      split_ifs with equal
      · rw [equal]
      · rfl
    have matches' : entries.isMatch matching (entries.mark node s) other =
        entries.isMatch matching s other := by
      rw [isMatch, isMatch, sound.cmd_mark]
    show (entries.walker matching isActive).kind (entries.mark node s) other = _
    rw [walker_kind, walker_kind, same, matches']
  kind_remove node s other different := by
    obtain ⟨cmds, inUses⟩ := sound.others_remove node s other different
    have matches' : entries.isMatch matching (entries.remove node s) other =
        entries.isMatch matching s other := by
      rw [isMatch, isMatch, cmds]
    show (entries.walker matching isActive).kind (entries.remove node s) other = _
    rw [walker_kind, walker_kind, inUses, matches']
  mark_eq := sound.mark_eq
  isMarked_mark node s := by
    show (entries.cmdInUse (entries.mark node s) node).activeMarkedForCancel = true
    rw [sound.cmdInUse_mark, Function.update_self]
  isMarked_mark_of node s other different := by
    show (entries.cmdInUse (entries.mark node s) other).activeMarkedForCancel = _
    rw [sound.cmdInUse_mark, Function.update_of_ne different, walker_isMarked]
  isMarked_remove node s other different := by
    show (entries.cmdInUse (entries.remove node s) other).activeMarkedForCancel = _
    rw [(sound.others_remove node s other different).2, walker_isMarked]

/-- **When the sweep cancels all.** -/
theorem Sound.cancelledAll_iff (sound : entries.Sound) (nodup : (entries.list s).Nodup) :
    ∃ after, (entries.walker matching isActive).run (entries.list s).length none none s =
    some after ∧
      (entries.CancelledAll matching isActive s after ↔
          entries.RevisitsFit matching isActive s) := by
  have lawful := sound.lawful matching isActive
  have listNodup : ((entries.walker matching isActive).list s).Nodup := nodup
  refine ⟨_, lawful.run_swept listNodup, ?_⟩
  have sweptNodup := Walker.swept_nodup listNodup
  have complete := lawful.complete_iff listNodup
  have order := lawful.foldl_passed sweptNodup listNodup
  have isPass : ∀ node, decide ((entries.walker matching isActive).kind s node = .pass) =
      !entries.isMatch matching s node := by
    intro node
    rw [Bool.eq_iff_iff, decide_eq_true_iff, walker_pass, Bool.not_eq_true']
  simp only [isPass] at order
  constructor
  · intro all
    refine complete.mp fun node isIn => ?_
    exact walker_wanted.mpr (all.matched node isIn)
  · intro fits
    refine ⟨fun node isIn => walker_wanted.mp (complete.mpr fits node isIn), order, ?_⟩
    intro node _ noMatch
    have passes : (entries.walker matching isActive).kind s node = .pass := walker_pass.mpr noMatch
    refine @Walker.Lawful.foldl_treat _ _ _ _ lawful _ _
      (fun after => entries.cmd after node = entries.cmd s node ∧
        entries.cmdInUse after node = entries.cmdInUse s node)
      sweptNodup ?_ ?_ ⟨rfl, rfl⟩
    · rintro other - isMark after ⟨cmds, inUses⟩
      have different : node ≠ other := by
        rintro rfl
        rw [passes] at isMark
        cases isMark
      refine ⟨?_, ?_⟩
      · show entries.cmd (entries.mark other after) node = _
        rw [sound.cmd_mark, cmds]
      · show entries.cmdInUse (entries.mark other after) node = _
        rw [sound.cmdInUse_mark, Function.update_of_ne different, inUses]
    · rintro other - isRemove after ⟨cmds, inUses⟩
      have different : node ≠ other := by
        rintro rfl
        rw [passes] at isRemove
        cases isRemove
      obtain ⟨sameCmd, sameInUse⟩ := sound.others_remove other after node different
      exact ⟨sameCmd.trans cmds, sameInUse.trans inUses⟩

end Entries

/-! ### The non-scan queue -/

namespace Queue

/-- The sections of `wlan_ser_cancel_non_scan_cmd` after the first, if nothing comes in between.
There are at most as many as entries. -/
def cancelRest (request : CancelRequest limits) (isActive timerFound : Bool) :
    Nat → Cancelled limits × Queue limits → Cancelled limits × Queue limits
  | sections + 1, (.removed cmd loop, queue) =>
    cancelRest request isActive timerFound sections
      (queue.cancelResume request isActive timerFound cmd loop)
  | _, result => result

/-- `wlan_ser_cancel_non_scan_cmd`, if no other thread and no callback touches the queue. -/
def cancelNonScanCmd (queue : Queue limits) (request : CancelRequest limits)
    (isActive timerFound : Bool) :
    Cancelled limits × Queue limits :=
  cancelRest request isActive timerFound (queue.pdevList isActive).length
    (queue.cancelStart request isActive timerFound)

/-- Each entry of the list holds a command, and is in the same list of the vdev of its command. -/
structure Linked (queue : Queue limits) (isActive : Bool) : Prop where
  nodup : (queue.pdevList isActive).Nodup
  filled : ∀ node ∈ queue.pdevList isActive, ∃ cmd, queue.cmd node = some cmd ∧
    node ∈ queue.vdevList isActive cmd.vdev

/-- What a cancellation does to the entries of the queue. -/
def entries (limits : Limits) (isActive : Bool) : Entries (Queue limits) (Command limits) where
  list queue := queue.pdevList isActive
  cmd := Queue.cmd
  cmdInUse := Queue.cmdInUse
  mark node queue := queue.updateInUse node fun inUse =>
    { inUse with activeMarkedForCancel := true }
  remove node queue :=
    match queue.cmd node with
    | none => queue.setPdevList isActive ((queue.pdevList isActive).erase node)
    | some cmd => (queue.cancelNode node cmd isActive).cancelSettle cmd isActive

variable {queue : Queue limits} {request : CancelRequest limits} {isActive : Bool}
    {cmd : Command limits}

theorem settled_fields (queue : Queue limits) (node : NodeId) (cmd : Command limits)
    (isActive : Bool) :
    ((queue.cancelNode node cmd isActive).cancelSettle cmd isActive).pdevList isActive =
      (queue.pdevList isActive).erase node ∧
    ((queue.cancelNode node cmd isActive).cancelSettle cmd isActive).cmd =
    Function.update queue.cmd node none ∧
    ((queue.cancelNode node cmd isActive).cancelSettle cmd isActive).cmdInUse =
      Function.update queue.cmdInUse node .zero := by
  have settle : ∀ queue : Queue limits, (queue.cancelSettle cmd isActive).pdevList =
    queue.pdevList ∧
      (queue.cancelSettle cmd isActive).cmd = queue.cmd ∧
      (queue.cancelSettle cmd isActive).cmdInUse = queue.cmdInUse := by
    intro queue
    unfold cancelSettle
    split
    · exact ⟨rfl, rfl, rfl⟩
    · split <;> exact ⟨rfl, rfl, rfl⟩
  obtain ⟨list, cmds, inUses⟩ := settle (queue.cancelNode node cmd isActive)
  rw [list, cmds, inUses]
  refine ⟨?_, rfl, rfl⟩
  show Function.update queue.pdevList isActive _ isActive = _
  rw [Function.update_self]

theorem entries_remove {node : NodeId} (isCmd : queue.cmd node = some cmd) :
    (entries limits isActive).remove node queue =
        (queue.cancelNode node cmd isActive).cancelSettle cmd isActive := by
  unfold entries
  dsimp only
  rw [isCmd]

theorem entries_sound (limits : Limits) (isActive : Bool) : (entries limits isActive).Sound where
  list_mark _ _ := rfl
  cmd_mark _ _ := rfl
  cmdInUse_mark _ _ := rfl
  mark_eq node queue marked := by
    have isSet : (queue.cmdInUse node).activeMarkedForCancel = true := marked
    have same : ({ queue.cmdInUse node with activeMarkedForCancel := true } : InUse) =
        queue.cmdInUse node := by
      rw [← isSet]
    have unchanged : Function.update queue.cmdInUse node
        { queue.cmdInUse node with activeMarkedForCancel := true } = queue.cmdInUse := by
      rw [same, Function.update_eq_self]
    exact congrArg (fun inUses => ({ queue with cmdInUse := inUses } : Queue limits)) unchanged
  list_remove node queue := by
    cases isCmd : queue.cmd node with
    | none =>
      unfold entries
      dsimp only
      rw [isCmd]
      exact Function.update_self isActive _ queue.pdevList
    | some cmd =>
      rw [entries_remove isCmd]
      exact (settled_fields queue node cmd isActive).1
  others_remove node queue other different := by
    cases isCmd : queue.cmd node with
    | none =>
      unfold entries
      dsimp only
      rw [isCmd]
      exact ⟨rfl, rfl⟩
    | some cmd =>
      rw [entries_remove isCmd]
      obtain ⟨-, cmds, inUses⟩ := settled_fields queue node cmd isActive
      refine ⟨?_, ?_⟩
      · show ((queue.cancelNode node cmd isActive).cancelSettle cmd isActive).cmd other = _
        rw [cmds, Function.update_of_ne different]
        rfl
      · show ((queue.cancelNode node cmd isActive).cancelSettle cmd isActive).cmdInUse other = _
        rw [inUses, Function.update_of_ne different]
        rfl

/-- The cancellation is wide: it is not for a single command, but for a vdev or for the pdev. -/
def CancelRequest.Wide (request : CancelRequest limits) : Prop :=
  request.cmd = none ∧ (request.vdev.isSome = true ∨ request.pdev = true)

/-- **The cancellation is the sweep**, as long as active commands have their timers. -/
theorem cancelRest_eq_run (wide : request.Wide) (qsize sections : Nat) (enough : qsize ≤ sections)
    (nnode pnode : Option NodeId) (status : CmdStatus) (queue : Queue limits)
    (nodup : (queue.pdevList isActive).Nodup)
    (filled : ∀ node ∈ queue.pdevList isActive, ∃ cmd, queue.cmd node = some cmd)
    (after : Queue limits)
        (ran : ((entries limits isActive).walker (cancels request) isActive).run qsize nnode pnode
          queue = some after) :
    ∃ status', cancelRest request isActive true sections
      (cancelLoop request isActive true qsize nnode pnode status queue) =
          (.finished status', after) := by
  induction qsize generalizing sections nnode pnode status queue with
  | zero =>
    cases ran
    refine ⟨status, ?_⟩
    cases sections <;> rfl
  | succ qsize ih =>
    rw [Walker.run] at ran
    rw [cancelLoop]
    have isList : ((entries limits isActive).walker (cancels request) isActive).list queue =
        queue.pdevList isActive := rfl
    rw [isList] at ran
    by_cases none : (queue.pdevList isActive).isEmpty = true
    · rw [if_pos none] at ran ⊢
      cases ran
      exact ⟨status, by cases sections <;> rfl⟩
    · rw [if_neg none] at ran ⊢
      have sameNext : nextNode (queue.pdevList isActive) nnode =
          next (queue.pdevList isActive) nnode := by
        cases nnode <;> rfl
      rw [sameNext]
      cases following : next (queue.pdevList isActive) nnode with
      | none => rw [following] at ran; cases ran
      | some found =>
        rw [following] at ran
        cases found with
        | none =>
          cases ran
          exact ⟨.notFound, by cases sections <;> rfl⟩
        | some node =>
          obtain ⟨cmd, isCmd⟩ := filled node (mem_of_next following)
          have isMatch : (entries limits isActive).isMatch (cancels request) queue node =
              cancels request cmd := by
            show (queue.cmd node).any _ = _
            rw [isCmd, Option.any_some]
          dsimp only at ran ⊢
          rw [isCmd]
          have inUse : (entries limits isActive).cmdInUse queue node = queue.cmdInUse node := rfl
          rw [Entries.walker_kind, isMatch, inUse] at ran
          dsimp only
          by_cases passes : (!cancels request cmd) = true
          · rw [if_pos passes] at ran ⊢
            exact ih sections (by omega) _ _ _ _ nodup filled ran
          · rw [if_neg passes] at ran ⊢
            by_cases marked : (isActive && (queue.cmdInUse node).markedForActivation) = true
            · rw [if_pos marked] at ran ⊢
              exact ih sections (by omega) _ _ _ _ nodup filled ran
            · rw [if_neg marked] at ran ⊢
              obtain ⟨list, cmds, -⟩ := settled_fields queue node cmd isActive
              have notAlone : (request.vdev.isNone && !request.pdev) = false := by
                rcases wide.2 with vdev | pdev
                · rw [Option.isNone_eq_false_iff.mpr vdev, Bool.false_and]
                · rw [pdev, Bool.not_true, Bool.and_false]
              cases sections with
              | zero => omega
              | succ sections =>
                simp only [Bool.not_true, Bool.and_false, Bool.false_eq_true, if_false]
                rw [cancelRest, cancelResume]
                simp only [notAlone, Bool.false_eq_true, if_false]
                refine ih sections (by omega) _ _ _ _ ?_ ?_ (entries_remove isCmd ▸ ran)
                · rw [list]
                  exact nodup.erase node
                · intro other isIn
                  rw [list] at isIn
                  have different : other ≠ node := fun same => nodup.not_mem_erase (same ▸ isIn)
                  rw [cmds, Function.update_of_ne different]
                  exact filled other (List.mem_of_mem_erase isIn)

end Queue

/-! ### The scan queue -/

/-- `struct wlan_serialization_command` of a scan, as far as a cancellation reads it. All commands
of the scan queue have the type `WLAN_SER_CMD_SCAN`. -/
structure ScanCommand (limits : Limits) where
  cmdId : BitVec 32
  vdev : limits.Vdev
  deriving DecidableEq

/-- The scan queue of the pdev. The vdevs have no lists of scans. -/
structure ScanQueue (limits : Limits) where
  pdevList : Bool → List NodeId
  cmdPoolList : List NodeId
  cmd : NodeId → Option (ScanCommand limits)
  cmdInUse : NodeId → InUse

/-- The arguments of `wlan_ser_cancel_scan_cmd`: a command's id, the pdev, a vdev. -/
structure ScanCancelRequest (limits : Limits) where
  cmd : Option (BitVec 32)
  pdev : Bool
  vdev : Option limits.Vdev

/-- The command is one to be cancelled. -/
def cancelsScan (request : ScanCancelRequest limits) (cmd : ScanCommand limits) : Bool :=
  request.cmd.all (fun cmdId => cmd.cmdId = cmdId) && request.vdev.all (fun vdev => cmd.vdev = vdev)

namespace ScanQueue

/-- A node is marked to be cancelled once it is activated. -/
def markForCancel (queue : ScanQueue limits) (node : NodeId) : ScanQueue limits :=
  { queue with
    cmdInUse := Function.update queue.cmdInUse node
      { queue.cmdInUse node with activeMarkedForCancel := true } }

/-- A command is taken off the list, and its node goes back to the pool. -/
def cancelNode (queue : ScanQueue limits) (node : NodeId) (isActive : Bool) : ScanQueue limits where
  pdevList := Function.update queue.pdevList isActive ((queue.pdevList isActive).erase node)
  cmdPoolList := queue.cmdPoolList ++ [node]
  cmd := Function.update queue.cmd node none
  cmdInUse := Function.update queue.cmdInUse node .zero

/-- The loop of `wlan_ser_cancel_scan_cmd`, if no other thread and no callback touches the queue.
There is no result if the node at which the loop stands has left the list. -/
def cancelLoop (request : ScanCancelRequest limits) (isActive timerFound : Bool) :
    (qsize : Nat) → (nnode pnode : Option NodeId) → CmdStatus → ScanQueue limits →
    Option (CmdStatus × ScanQueue limits)
  | 0, _, _, status, queue => some (status, queue)
  | qsize + 1, nnode, pnode, status, queue =>
    if (queue.pdevList isActive).isEmpty then some (status, queue)
    else
      match Queue.nextNode (queue.pdevList isActive) nnode with
      | none => none
      | some none => some (.notFound, queue)
      | some (some node) =>
        match queue.cmd node with
        | none => none
        | some cmd =>
          if !cancelsScan request cmd then
            cancelLoop request isActive timerFound qsize (some node) (some node) status queue
          else if isActive && (queue.cmdInUse node).markedForActivation then
            cancelLoop request isActive timerFound qsize (some node) pnode .markedForActivation
              (queue.markForCancel node)
          else if isActive && !timerFound then some (.notFound, queue)
          else
            cancelLoop request isActive timerFound qsize pnode pnode
              (if isActive then .inActiveList else .inPendingList) (queue.cancelNode node isActive)

/-- `wlan_ser_cancel_scan_cmd`. -/
def cancelScanCmd (queue : ScanQueue limits) (request : ScanCancelRequest limits)
    (isActive timerFound : Bool) :
    Option (CmdStatus × ScanQueue limits) :=
  cancelLoop request isActive timerFound (queue.pdevList isActive).length none none .notFound queue

/-- Each entry of the list holds a command. -/
structure Linked (queue : ScanQueue limits) (isActive : Bool) : Prop where
  nodup : (queue.pdevList isActive).Nodup
  filled : ∀ node ∈ queue.pdevList isActive, ∃ cmd, queue.cmd node = some cmd

/-- What a cancellation does to the entries of the queue. -/
def entries (limits : Limits) (isActive : Bool) : Entries (ScanQueue limits)
    (ScanCommand limits) where
  list queue := queue.pdevList isActive
  cmd := ScanQueue.cmd
  cmdInUse := ScanQueue.cmdInUse
  mark node queue := queue.markForCancel node
  remove node queue := queue.cancelNode node isActive

theorem entries_sound (limits : Limits) (isActive : Bool) : (entries limits isActive).Sound where
  list_mark _ _ := rfl
  cmd_mark _ _ := rfl
  cmdInUse_mark _ _ := rfl
  mark_eq node queue marked := by
    have isSet : (queue.cmdInUse node).activeMarkedForCancel = true := marked
    have same : ({ queue.cmdInUse node with activeMarkedForCancel := true } : InUse) =
        queue.cmdInUse node := by
      rw [← isSet]
    have unchanged : Function.update queue.cmdInUse node
        { queue.cmdInUse node with activeMarkedForCancel := true } = queue.cmdInUse := by
      rw [same, Function.update_eq_self]
    exact congrArg (fun inUses => ({ queue with cmdInUse := inUses } : ScanQueue limits)) unchanged
  list_remove _ queue := Function.update_self isActive _ queue.pdevList
  others_remove _ queue _ different :=
    ⟨Function.update_of_ne different _ queue.cmd, Function.update_of_ne different _ queue.cmdInUse⟩

variable {request : ScanCancelRequest limits} {isActive : Bool}

/-- **The cancellation of scans is the sweep**, as long as active commands have their timers. -/
theorem cancelLoop_eq_run (qsize : Nat) (nnode pnode : Option NodeId) (status : CmdStatus)
    (queue : ScanQueue limits) (linked : queue.Linked isActive) (after : ScanQueue limits)
    (ran : ((entries limits isActive).walker (cancelsScan request) isActive).run qsize nnode
      pnode queue =
      some after) :
    ∃ status', cancelLoop request isActive true qsize nnode pnode status queue =
        some (status', after) := by
  induction qsize generalizing nnode pnode status queue with
  | zero =>
    cases ran
    exact ⟨status, rfl⟩
  | succ qsize ih =>
    rw [Walker.run] at ran
    rw [cancelLoop]
    have isList : ((entries limits isActive).walker (cancelsScan request) isActive).list queue =
        queue.pdevList isActive := rfl
    rw [isList] at ran
    by_cases none : (queue.pdevList isActive).isEmpty = true
    · rw [if_pos none] at ran ⊢
      cases ran
      exact ⟨status, rfl⟩
    · rw [if_neg none] at ran ⊢
      have sameNext : Queue.nextNode (queue.pdevList isActive) nnode =
          next (queue.pdevList isActive) nnode := by
        cases nnode <;> rfl
      rw [sameNext]
      cases following : next (queue.pdevList isActive) nnode with
      | none => rw [following] at ran; cases ran
      | some found =>
        rw [following] at ran
        cases found with
        | none =>
          cases ran
          exact ⟨.notFound, rfl⟩
        | some node =>
          obtain ⟨cmd, isCmd⟩ := linked.filled node (mem_of_next following)
          have isMatch : (entries limits isActive).isMatch (cancelsScan request) queue node =
              cancelsScan request cmd := by
            show (queue.cmd node).any _ = _
            rw [isCmd, Option.any_some]
          dsimp only at ran ⊢
          rw [isCmd]
          have inUse : (entries limits isActive).cmdInUse queue node = queue.cmdInUse node := rfl
          rw [Entries.walker_kind, isMatch, inUse] at ran
          dsimp only
          by_cases passes : (!cancelsScan request cmd) = true
          · rw [if_pos passes] at ran ⊢
            exact ih _ _ _ _ linked ran
          · rw [if_neg passes] at ran ⊢
            by_cases marked : (isActive && (queue.cmdInUse node).markedForActivation) = true
            · rw [if_pos marked] at ran ⊢
              exact ih _ _ _ _ ⟨linked.nodup, linked.filled⟩ ran
            · rw [if_neg marked] at ran ⊢
              have list : (queue.cancelNode node isActive).pdevList isActive =
                  (queue.pdevList isActive).erase node :=
                Function.update_self isActive _ queue.pdevList
              simp only [Bool.not_true, Bool.and_false, Bool.false_eq_true, if_false]
              refine ih _ _ _ _ ⟨?_, ?_⟩ ran
              · rw [list]
                exact linked.nodup.erase node
              · intro other isIn
                rw [list] at isIn
                have different : other ≠ node := fun same =>
                  linked.nodup.not_mem_erase (same ▸ isIn)
                obtain ⟨cmd, isCmd⟩ := linked.filled other (List.mem_of_mem_erase isIn)
                exact ⟨cmd, (Function.update_of_ne different _ queue.cmd).trans isCmd⟩

end ScanQueue

/-! ### Completeness -/

/-- **When a cancellation for a vdev or for the pdev is complete**: exactly if the entries that are
visited again are not more than those behind the last entry to be cancelled. -/
theorem cancel_complete_iff (limits : Limits) (isActive : Bool) :
    (∀ (queue : Queue limits) (request : Queue.CancelRequest limits), request.Wide →
      queue.Linked isActive →
      ∃ status after, queue.cancelNonScanCmd request isActive true = (.finished status, after) ∧
        ((Queue.entries limits isActive).CancelledAll (Queue.cancels request) isActive queue after ↔
          (Queue.entries limits isActive).RevisitsFit (Queue.cancels request) isActive queue)) ∧
    (∀ (queue : ScanQueue limits) (request : ScanCancelRequest limits), request.cmd = none →
      (request.vdev.isSome = true ∨ request.pdev = true) → queue.Linked isActive →
      ∃ status after, queue.cancelScanCmd request isActive true = some (status, after) ∧
        ((ScanQueue.entries limits isActive).CancelledAll
          (cancelsScan request) isActive queue after ↔
          (ScanQueue.entries limits isActive).RevisitsFit
              (cancelsScan request) isActive queue)) := by
  refine ⟨?_, ?_⟩
  · intro queue request wide linked
    obtain ⟨after, ran, complete⟩ :=
      (Queue.entries_sound limits isActive).cancelledAll_iff linked.nodup
    have filled : ∀ node ∈ queue.pdevList isActive, ∃ cmd, queue.cmd node = some cmd := by
      intro node isIn
      obtain ⟨cmd, isCmd, -⟩ := linked.filled node isIn
      exact ⟨cmd, isCmd⟩
    obtain ⟨status, returned⟩ :=
      Queue.cancelRest_eq_run wide _ _ (Nat.le_refl _) none none .notFound queue
      linked.nodup filled after ran
    exact ⟨status, after, returned, complete⟩
  · intro queue request _ _ linked
    obtain ⟨after, ran, complete⟩ :=
      (ScanQueue.entries_sound limits isActive).cancelledAll_iff linked.nodup
    obtain ⟨status, returned⟩ :=
      ScanQueue.cancelLoop_eq_run _ none none .notFound queue linked after ran
    exact ⟨status, after, returned, complete⟩

/-! ### A command that is about to be activated, before others -/

/-- A pdev with three vdevs. -/
def threeActiveVdevs : Limits := ⟨3, 3, fun _ => 3, by decide⟩

/-- The first commands of the vdevs are active, but the first of them is about to be activated. -/
def activeCmds (number : Nat) : Queue threeActiveVdevs where
  pdevList isActive := if isActive then List.range number else []
  vdevList isActive vdev := if isActive ∧ vdev.val < number then [vdev.val] else []
  cmdPoolList := []
  cmd node := if below :
    node < 3 then some ⟨.vdevStartBss, 0, true, false, false, false, ⟨node, below⟩⟩ else none
  cmdInUse node := { InUse.zero with markedForActivation := node = 0, isActive := node ≠ 0 }
  vdevActiveCmdBitmap vdev := vdev.val < number
  blockingCmdActive := false
  blockingCmdWaiting := 0
  queueDisable _ := false

/-- A cancellation for the pdev. -/
def cancelPdev : Queue.CancelRequest threeActiveVdevs := ⟨none, true, none, .nonscan, false⟩

/-- The first scans, of which one is about to be activated. -/
def activeScans (number : Nat) : ScanQueue threeActiveVdevs where
  pdevList isActive := if isActive then List.range number else []
  cmdPoolList := []
  cmd node := if node < 3 then some ⟨node, ⟨0, by decide⟩⟩ else none
  cmdInUse node := { InUse.zero with markedForActivation := node = 0, isActive := node ≠ 0 }

theorem activeCmds_linked {number : Nat} (atMost : number ≤ 3) :
    (activeCmds number).Linked true where
  nodup := List.nodup_range
  filled node isIn := by
    have below : node < number := List.mem_range.mp isIn
    refine ⟨_, dif_pos (Nat.lt_of_lt_of_le below atMost), ?_⟩
    show node ∈ if true = true ∧ node < number then [node] else []
    rw [if_pos ⟨rfl, below⟩]
    exact List.mem_singleton.mpr rfl

theorem activeScans_linked {number : Nat} (atMost : number ≤ 3) :
    (activeScans number).Linked true where
  nodup := List.nodup_range
  filled node isIn := by
    have below : node < number := List.mem_range.mp isIn
    exact ⟨_, if_pos (Nat.lt_of_lt_of_le below atMost)⟩

/-- One command after the marked one is cancelled. -/
theorem cancel_complete_two :
    (∃ status after, (activeCmds 2).cancelNonScanCmd cancelPdev true true =
      (.finished status, after) ∧
      (Queue.entries threeActiveVdevs true).CancelledAll (Queue.cancels cancelPdev) true
      (activeCmds 2) after) ∧
    ∃ status after, (activeScans 2).cancelScanCmd ⟨none, true, none⟩ true true =
    some (status, after) ∧
      (ScanQueue.entries threeActiveVdevs true).CancelledAll (cancelsScan ⟨none, true, none⟩) true
      (activeScans 2)
        after := by
  obtain ⟨nonScan, scan⟩ := cancel_complete_iff threeActiveVdevs true
  refine ⟨?_, ?_⟩
  · obtain ⟨status, after, returned, complete⟩ := nonScan (activeCmds 2) cancelPdev ⟨rfl, .inr rfl⟩
      (activeCmds_linked (by decide))
    exact ⟨status, after, returned, complete.mpr (by unfold Entries.RevisitsFit; decide)⟩
  · obtain ⟨status, after, returned, complete⟩ :=
      scan (activeScans 2) ⟨none, true, none⟩ rfl (.inr rfl)
      (activeScans_linked (by decide))
    exact ⟨status, after, returned, complete.mpr (by unfold Entries.RevisitsFit; decide)⟩

/-- **The second command after the marked one is not cancelled**: the third step comes to the marked
one again. -/
theorem cancel_incomplete_three :
    ¬∀ (limits : Limits) (isActive : Bool) (queue : Queue limits)
    (request : Queue.CancelRequest limits),
      request.Wide → queue.Linked isActive → ∀ status after,
        queue.cancelNonScanCmd request isActive true = (.finished status, after) →
          (Queue.entries limits isActive).CancelledAll
              (Queue.cancels request) isActive queue after := by
  intro complete
  have cancelled := complete threeActiveVdevs true (activeCmds 3) cancelPdev ⟨rfl, .inr rfl⟩
    (activeCmds_linked (by decide)) .markedForActivation _ rfl
  have notMarked := (cancelled.matched 2 (by decide) (by decide)).2.1
  exact absurd notMarked (by decide)

end Qsdk.Serialization
