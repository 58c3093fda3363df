/-
**What the calls owe between two sections.**

Two calls release the lock before they are done. A dequeue of an active command still has to look
for a pending command to move; a cancellation has taken its command off the lists, but clears the
flags of an active command, and the count of a pending one, only in its next section. `duties` is
the ledger of these duties; every program of the component settles it, whatever the sections answer
(`settles_program`). Between two calls of its own, a thread owes an account only when it is at the
later section of a cancellation (`Between`).
-/

import Qsdk.Lib.Ledger
import Qsdk.Serialization.Calls
import Mathlib.Algebra.Order.Group.Multiset

namespace Qsdk.Serialization

variable {limits : Limits}

/-- What a thread still has to do. -/
inductive Duty (limits : Limits) where
  /-- To look at the pending list of a vdev whose non-blocking command was removed. -/
  | move (vdev : limits.Vdev)
  /-- To walk over the pdev's pending list. -/
  | walk
  /-- To no longer account for an active command that was cancelled. -/
  | settleActive (vdev : limits.Vdev) (blocking : Bool)
  /-- To no longer count a pending command that was cancelled. -/
  | settlePending (blocking : Bool)
  deriving DecidableEq

namespace Duty

/-- The account of a cancelled command is not settled. -/
def IsAccount : Duty limits → Prop
  | .settleActive _ _ => True
  | .settlePending _ => True
  | _ => False

/-- What the removal of an active command leaves to do. -/
def ofRemoved (vdev : limits.Vdev) (blocking : Bool) : Duty limits :=
  if blocking then .walk else .move vdev

/-- What the removal of a cancelled command leaves to do. -/
def ofCancelled (isActive : Bool) (cmd : Command limits) : Duty limits :=
  if isActive then .settleActive cmd.vdev cmd.isBlocking else .settlePending cmd.isBlocking

theorem ofRemoved_not_account (vdev : limits.Vdev) (blocking : Bool) :
    ¬(ofRemoved vdev blocking).IsAccount := by
  unfold ofRemoved
  split <;> exact id

end Duty

/-- All that the threads owe, or one of them. -/
abbrev Duties (limits : Limits) := Multiset (Duty limits)

/-- No account of a cancelled command is among the duties. -/
def Duties.Settled (own : Duties limits) : Prop := ∀ duty ∈ own, ¬duty.IsAccount

theorem Duties.Settled.cons {own : Duties limits} (settled : own.Settled) {duty : Duty limits}
    (noAccount : ¬duty.IsAccount) : Duties.Settled (duty ::ₘ own) := by
  intro other member
  rcases Multiset.mem_cons.mp member with rfl | member
  · exact noAccount
  · exact settled other member

/-! ### The ledger -/

/-- The duty that an operation settles. -/
def SerOp.settles : SerOp limits → Option (Duty limits)
  | .moveStart vdev blockingCmdRemoved => some (.ofRemoved vdev blockingCmdRemoved)
  | .moveResume => some .walk
  | .cancelResume _ isActive cmd _ => some (.ofCancelled isActive cmd)
  | _ => none

/-- The duty that an operation leaves. -/
def SerOp.leaves : (op : SerOp limits) → op.Res → Option (Duty limits)
  | .dequeue _ true, .removed vdev blocking => some (.ofRemoved vdev blocking)
  | .moveStart _ _, (false, some _) => some .walk
  | .moveResume, some _ => some .walk
  | .cancelStart _ isActive, .removed cmd _ => some (.ofCancelled isActive cmd)
  | .cancelResume _ isActive _ _, .removed cmd _ => some (.ofCancelled isActive cmd)
  | _, _ => none

/-- One duty is settled and another one left. -/
def Duties.exchange (own : Duties limits) (settled left : Option (Duty limits)) : Duties limits :=
  let rest : Duties limits := match settled with
    | none => own
    | some duty => own.erase duty
  match left with
  | none => rest
  | some duty => duty ::ₘ rest

/-- The ledger: an operation that settles a duty needs it, and no other account may be open. -/
def duties (limits : Limits) : Ledger (SerOp limits) SerOp.Res (Duties limits) where
  pre := fun op own => match op.settles with
    | none => own.Settled
    | some duty => duty ∈ own ∧ Duties.Settled (own.erase duty)
  after := fun op own res => own.exchange op.settles (op.leaves res)

/-- What the other threads owe is not touched. -/
theorem Duties.exchange_add {own : Duties limits} (rest : Duties limits)
    {settled : Option (Duty limits)} (owes : ∀ duty, settled = some duty → duty ∈ own)
    (left : Option (Duty limits)) :
    own.exchange settled left + rest = Duties.exchange (own + rest) settled left := by
  unfold exchange
  cases settled with
  | none =>
    cases left with
    | none => rfl
    | some duty => exact Multiset.cons_add _ _ _
  | some duty =>
    have erased : (own + rest).erase duty = own.erase duty + rest :=
      Multiset.erase_add_left_pos _ (owes duty rfl)
    cases left with
    | none => exact erased.symm
    | some other =>
      dsimp only
      rw [erased]
      exact Multiset.cons_add _ _ _

theorem owes_of_pre {op : SerOp limits} {own : Duties limits}
    (entitled : (duties limits).pre op own) (duty : Duty limits)
    (settles : op.settles = some duty) : duty ∈ own := by
  unfold duties at entitled
  dsimp only at entitled
  rw [settles] at entitled
  exact entitled.1

/-! ### The programs -/

/-- A thread that loses its position in a list has settled its accounts. -/
def Stop.Owes (error : Stop) (own : Duties limits) : Prop := error = .strayed → own.Settled

/-- The program ends with the duties it began with, having used up the given ones. -/
abbrev Settles {A : Type} (program : SerProg limits A) (own last : Duties limits) : Prop :=
  (duties limits).Settles (fun _ final => final = last) Stop.Owes program own

section Programs

variable {own : Duties limits}

theorem cancelRest_settles (settled : own.Settled) (request : CancelRef limits) (isActive : Bool)
    (fuel : Nat) (res : Queue.Cancelled limits) :
    Settles (cancelRest request isActive fuel res)
      (own.exchange none ((SerOp.cancelStart request isActive).leaves res)) own := by
  induction fuel generalizing res with
  | zero =>
    cases res with
    | finished status => exact rfl
    | strayed => exact fun _ => settled
    | removed cmd loop => exact nofun
  | succ fuel ih =>
    cases res with
    | finished status => exact rfl
    | strayed => exact fun _ => settled
    | removed cmd loop =>
      have erased : Multiset.erase (Duty.ofCancelled isActive cmd ::ₘ own)
          (Duty.ofCancelled isActive cmd) = own := Multiset.erase_cons_head _ _
      refine ⟨⟨Multiset.mem_cons_self _ _, ?_⟩, fun next => ?_⟩
      · show Duties.Settled (Multiset.erase (Duty.ofCancelled isActive cmd ::ₘ own) _)
        rw [erased]
        exact settled
      · have same : (duties limits).after (.cancelResume request isActive cmd loop)
            (Duty.ofCancelled isActive cmd ::ₘ own) next =
              own.exchange none ((SerOp.cancelStart request isActive).leaves next) := by
          cases next <;> simp only [duties, SerOp.settles, SerOp.leaves, Duties.exchange, erased]
        show Settles _ ((duties limits).after _ (Duty.ofCancelled isActive cmd ::ₘ own) next) own
        rw [same]
        exact ih next

theorem cancelNonScanCmd_settles (settled : own.Settled) (fuel : Nat) (request : CancelRef limits)
    (isActive : Bool) : Settles (cancelNonScanCmd fuel request isActive) own own :=
  ⟨settled, cancelRest_settles settled request isActive fuel⟩

theorem cmdCancelHandler_settles (settled : own.Settled) (fuel : Nat) (request : CancelRef limits)
    (activeQueue pendingQueue : Bool) :
    Settles (cmdCancelHandler fuel request activeQueue pendingQueue) own own := by
  have part : ∀ (wanted isActive : Bool),
      Settles (if wanted then cancelNonScanCmd fuel request isActive else pure .notFound)
          own own := by
    intro wanted isActive
    split
    · exact cancelNonScanCmd_settles settled fuel request isActive
    · exact rfl
  unfold cmdCancelHandler
  refine (part activeQueue true).bind ?_
  rintro activeStatus _ rfl
  refine (part pendingQueue false).bind ?_
  rintro pendingStatus _ rfl
  split
  · exact rfl
  · split
    · exact rfl
    · split <;> exact rfl

/-- What the programs of a depth of calls settle. -/
structure SettlesAt (fuel : Nat) (own : Duties limits) : Prop where
  activateCmd : ∀ node, Settles (activateCmd fuel node) own own
  dequeueCmd : ∀ cmd activeCmd, Settles (dequeueCmd fuel cmd activeCmd) own own
  moveNonScanPendingToActive : ∀ vdev blocking,
    Settles (moveNonScanPendingToActive fuel vdev blocking) (Duty.ofRemoved vdev blocking ::ₘ own)
      own
  moveLoop : Settles (moveLoop fuel) (Duty.walk ::ₘ own) own

theorem settlesAt (settled : own.Settled) (fuel : Nat) : SettlesAt fuel own := by
  induction fuel generalizing own with
  | zero =>
    refine ⟨fun node => ?_, fun cmd activeCmd => ?_, fun vdev blocking => ?_, ?_⟩
    · exact nofun
    · exact nofun
    · exact nofun
    · exact nofun
  | succ fuel ih =>
    have removes : ∀ node, Settles (do
        let _ ← Serialization.dequeueCmd fuel (.ofNode node) true
        pure ()) own own := by
      intro node
      refine ((ih settled).dequeueCmd (.ofNode node) true).bind ?_
      rintro _ _ rfl
      exact rfl
    have walks : ∀ node, Settles (do
        Serialization.activateCmd fuel node
        Serialization.moveLoop fuel) (Duty.walk ::ₘ own) own := by
      intro node
      refine ((ih (settled.cons id)).activateCmd node).bind ?_
      rintro _ _ rfl
      exact (ih settled).moveLoop
    refine ⟨fun node => ?_, fun cmd activeCmd => ?_, fun vdev blocking => ?_, ?_⟩
    · refine ⟨settled, fun success => ⟨settled, fun _ => ?_⟩⟩
      show Settles (if (!success) = true then _ else _) own own
      split
      · exact removes node
      · refine ⟨settled, fun inUse => ?_⟩
        show Settles (if inUse.activeMarkedForRemoval = true then _ else _) own own
        split
        · exact removes node
        · refine ⟨settled, fun inUse => ?_⟩
          show Settles (if inUse.activeMarkedForCancel = true then _ else _) own own
          split
          · refine (cmdCancelHandler_settles settled fuel (.ofNode node) true false).bind ?_
            rintro _ _ rfl
            exact rfl
          · exact rfl
    · refine ⟨settled, fun res => ?_⟩
      cases activeCmd with
      | false => cases res <;> exact rfl
      | true =>
        cases res with
        | markedForActivation => exact rfl
        | notFound => exact rfl
        | removed vdev blocking =>
          refine ((ih settled).moveNonScanPendingToActive vdev blocking).bind ?_
          rintro _ _ rfl
          exact rfl
    · have erased : Multiset.erase (Duty.ofRemoved vdev blocking ::ₘ own)
          (Duty.ofRemoved vdev blocking) = own := Multiset.erase_cons_head _ _
      refine ⟨⟨Multiset.mem_cons_self _ _, ?_⟩, fun res => ?_⟩
      · show Duties.Settled (Multiset.erase (Duty.ofRemoved vdev blocking ::ₘ own) _)
        rw [erased]
        exact settled
      · obtain ⟨lookup, moved⟩ := res
        cases lookup with
        | true =>
          cases moved with
          | none => exact erased
          | some node =>
            show Settles _ (Multiset.erase (Duty.ofRemoved vdev blocking ::ₘ own) _) own
            rw [erased]
            exact (ih settled).activateCmd node
        | false =>
          cases moved with
          | none => exact erased
          | some node =>
            show Settles _ (Duty.walk ::ₘ Multiset.erase (Duty.ofRemoved vdev blocking ::ₘ own) _)
              own
            rw [erased]
            exact walks node
    · have erased : Multiset.erase (Duty.walk ::ₘ own) Duty.walk = own :=
        Multiset.erase_cons_head _ _
      refine ⟨⟨Multiset.mem_cons_self _ _, ?_⟩, fun res => ?_⟩
      · show Duties.Settled (Multiset.erase (Duty.walk ::ₘ own) _)
        rw [erased]
        exact settled
      · cases res with
        | none => exact erased
        | some node =>
          show Settles _ (Duty.walk ::ₘ Multiset.erase (Duty.walk ::ₘ own) _) own
          rw [erased]
          exact walks node

/-- **Every call settles what it comes to owe.** -/
theorem settles_program (fuel : Nat) (call : Call limits) : Settles (call.program fuel) 0 0 := by
  have settled : Duties.Settled (0 : Duties limits) := fun _ member =>
    absurd member (Multiset.notMem_zero _)
  cases call with
  | enqueue cmd reason =>
    refine ⟨settled, fun res => ?_⟩
    obtain ⟨status, added⟩ := res
    cases added with
    | none => exact rfl
    | some node =>
      have activation : Settles (Serialization.activateCmd fuel node) (0 : Duties limits) 0 :=
        (settlesAt settled fuel).activateCmd node
      show Settles ((Serialization.activateCmd fuel node >>= fun _ => pure status) >>=
        fun status => pure (Reply.serStatus status)) (0 : Duties limits) 0
      have answered : Settles (Serialization.activateCmd fuel node >>= fun _ => pure status)
          (0 : Duties limits) 0 := by
        refine activation.bind ?_
        rintro _ _ rfl
        exact rfl
      refine answered.bind ?_
      rintro _ _ rfl
      exact rfl
  | dequeue cmd activeCmd =>
    refine ((settlesAt settled fuel).dequeueCmd (.given cmd) activeCmd).bind ?_
    rintro _ _ rfl
    exact rfl
  | timeout cmd =>
    refine ⟨settled, fun present => ?_⟩
    cases present with
    | false => exact rfl
    | true =>
      have removal : Settles (Serialization.dequeueCmd fuel (.given cmd) true >>= fun _ => pure ())
          (0 : Duties limits) 0 := by
        refine ((settlesAt settled fuel).dequeueCmd (.given cmd) true).bind ?_
        rintro _ _ rfl
        exact rfl
      refine removal.bind ?_
      rintro _ _ rfl
      exact rfl
  | cancel request activeQueue pendingQueue =>
    refine (cmdCancelHandler_settles settled fuel (.given request) activeQueue pendingQueue).bind ?_
    rintro _ _ rfl
    exact rfl

end Programs

/-! ### Between the sections of a cancellation -/

/-- The thread is about to enter a later section of a cancellation, or its program hangs because the
bound on the depth of calls is used up. -/
def Between {A : Type} : Option (SerProg limits A) → Prop
  | some (.call (.cancelResume _ _ _ _) _) => True
  | some (.stop .outOfFuel) => True
  | _ => False

/-- A thread elsewhere owes no account. -/
theorem settled_of_not_between {own : Duties limits} {thread : Option (SerProg limits Reply)}
    (owes : (duties limits).Owes Stop.Owes own thread) (elsewhere : ¬Between thread) :
    own.Settled := by
  have empty : Duties.Settled (0 : Duties limits) := fun _ member =>
    absurd member (Multiset.notMem_zero _)
  cases thread with
  | none =>
    obtain rfl : own = 0 := owes
    exact empty
  | some program =>
    cases program with
    | done value =>
      obtain rfl : own = 0 := owes
      exact empty
    | stop error =>
      cases error with
      | outOfFuel => exact absurd trivial elsewhere
      | strayed => exact owes rfl
    | call op next =>
      have entitled := owes.1
      cases op with
      | cancelResume request isActive cmd loop => exact absurd trivial elsewhere
      | moveStart vdev blocking =>
        rw [← Multiset.cons_erase entitled.1]
        exact entitled.2.cons (Duty.ofRemoved_not_account vdev blocking)
      | moveResume =>
        rw [← Multiset.cons_erase entitled.1]
        exact entitled.2.cons id
      | _ => exact entitled

end Qsdk.Serialization
