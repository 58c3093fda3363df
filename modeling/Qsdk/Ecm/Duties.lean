/-
**What a handler owes about a connection.**

Between two calls a handler may hold references, may have taken it upon itself to send a command or
to process an answer, or may have yet to count an acceleration down that has ended. Every handler
settles all of this, whatever its calls return (`settles_program`). A handler that owes the end of
an acceleration makes no other call before it counts it down, and one that has counted a destroy
command counts no other one before it has sent it or counted it down.
-/

import Qsdk.Ecm.Calls
import Qsdk.Lib.Ledger
import Mathlib.Algebra.Group.Pi.Basic
import Mathlib.Algebra.GroupWithZero.Nat

namespace Qsdk.Ecm

/-- What a handler may owe about a connection. -/
inductive Duty
  /-- To release a reference. -/
  | ref
  /-- To process the answer to a destroy command, whose reference the handler has taken over. -/
  | answered
  /-- To count down an acceleration that has ended, and to release a reference. -/
  | ended
  /-- To send a create command, or to process the answer to it. -/
  | accel
  /-- To send a destroy command. -/
  | decel
  /-- To send a destroy command for a connection that became defunct. -/
  | defunct
  /-- To release the reference of the timer, if no one else does. -/
  | doomed
  /-- To count a destroy command down that is not there, or not yet. -/
  | sending
deriving DecidableEq

/-- How often a handler owes each duty. -/
abbrev Duties := Duty → Nat

namespace Duties

def give (own : Duties) (duty : Duty) : Duties := Function.update own duty (own duty + 1)

def settle (own : Duties) (duty : Duty) : Duties := Function.update own duty (own duty - 1)

/-- A connection whose acceleration has failed is to be given up. -/
def notice (own : Duties) (mode : Mode) : Duties :=
  if mode.failed = true ∧ own .doomed = 0 then own.give .doomed else own

/-- The destroy command is sent, or it cannot be sent. -/
def settleDecel (own : Duties) : Duties :=
  if 0 < own .defunct then own.settle .defunct else own.settle .decel

/-- A destroy command is sent, or will not be sent: `gone` says that the connection will be gone for
good. -/
def endDecel (own : Duties) (gone : Bool) : Duties :=
  if gone = true ∧ 0 < own .defunct then own.settleDecel.give .doomed else own.settleDecel

@[simp] theorem give_apply (own : Duties) (duty other : Duty) :
    own.give duty other = if other = duty then own duty + 1 else own other :=
  Function.update_apply own duty _ other

@[simp] theorem settle_apply (own : Duties) (duty other : Duty) :
    own.settle duty other = if other = duty then own duty - 1 else own other :=
  Function.update_apply own duty _ other

theorem settle_give (own : Duties) (duty : Duty) : (own.give duty).settle duty = own := by
  funext other
  by_cases same : other = duty
  · subst same
    simp
  · simp [same]

end Duties

/-! ### The ledger -/

/-- What a handler must owe to make a call. -/
def EcmOp.entitled (own : Duties) : EcmOp → Prop
  | .ref _ => 0 < own .accel ∨ 0 < own .decel ∨ 0 < own .defunct
  | .deref _ | .accelCeasedStart _ => 0 < own .ref
  | .pendingClear _ mode => 0 < own .accel ∧ (mode = .decel ∨ mode.failed = true)
  | .txCreate _ => 0 < own .accel ∧ 0 < own .ref
  | .createTxFailed _ | .createAnswer _ _ => 0 < own .accel
  | .pendingDecelInc _ => (0 < own .decel ∨ 0 < own .defunct) ∧ own .sending = 0
  | .pendingDecelDec _ => 0 < own .sending
  | .txDestroy _ => (0 < own .decel ∨ 0 < own .defunct) ∧ 0 < own .ref ∧ 0 < own .sending
  | .destroyFailed _ => 0 < own .decel ∨ 0 < own .defunct
  | .receiveDestroy _ => own .sending = 0
  | .destroyAnswer _ _ => 0 < own .answered
  | .accelerationEnds _ => 0 < own .ended
  | .timerRemove _ | .timerDeref _ => 0 < own .doomed
  | _ => True

/-- Whether a call counts an acceleration down. -/
def EcmOp.IsEnd : EcmOp → Prop
  | .accelerationEnds _ => True
  | _ => False

/-- Whether a call counts a destroy command, or takes over the count of one. -/
def EcmOp.Counts : EcmOp → Prop
  | .pendingDecelInc _ | .receiveDestroy _ => True
  | _ => False

/-- Whether a call counts a destroy command down. -/
def EcmOp.CountsDown : EcmOp → Prop
  | .pendingDecelDec _ => True
  | _ => False

/-- What a handler owes after a call. -/
def EcmOp.owes (own : Duties) : (op : EcmOp) → op.Res → Duties
  | .findAndRef _, (found : Bool) => if found = true then own.give .ref else own
  | .ref _, _ => own.give .ref
  | .deref _, _ => own.settle .ref
  | .pendingSet _, (permitted : Bool) => if permitted = true then own.give .accel else own
  | .pendingClear _ _, _ | .createTxFailed _, _ | .createAnswer _ _, _ => own.settle .accel
  | .txCreate _, (sent : Bool) => if sent = true then (own.settle .accel).settle .ref else own
  | .receiveCreate _, (found : Bool) =>
      if found = true then ((own.give .accel).give .ref).give .ref else own
  | .decelerateStart _, (allowed : Bool) => if allowed = true then own.give .decel else own
  | .defunctStart _, none => own.give .defunct
  | .defunctStart _, some mode => own.notice mode
  | .pendingDecelInc _, _ => own.give .sending
  | .pendingDecelDec _, _ => own.settle .sending
  | .txDestroy _, (sent : Bool) =>
      if sent = true then ((own.endDecel true).settle .ref).settle .sending else own
  | .destroyFailed _, (limit : Bool) => own.endDecel limit
  | .receiveDestroy _, (found : Bool) =>
      if found = true then ((own.give .answered).give .ref).give .sending else own
  | .destroyAnswer _ _, (ends : Bool) =>
      if ends = true then (own.settle .answered).give .ended else (own.settle .answered).give .ref
  | .accelCeasedStart _, (ends : Bool) => if ends = true then (own.settle .ref).give .ended else own
  | .accelerationEnds _, _ => (own.settle .ended).give .ref
  | .accelMode _, mode => own.notice mode
  | .timerRemove _, (removed : Bool) => if removed = true then own else own.settle .doomed
  | .timerDeref _, _ => own.settle .doomed
  | _, _ => own

/-- Only sending a destroy command and counting it down end the duty to do so, and it may be that a
command cannot be sent. -/
theorem EcmOp.sending_kept (op : EcmOp) (own : Duties) (sending : 0 < own .sending)
    (stays : ¬op.CountsDown) : ∃ res, 0 < op.owes own res .sending := by
  cases op with
  | pendingDecelDec => exact absurd trivial stays
  | createAnswer => exact ⟨.release, by simpa [EcmOp.owes] using sending⟩
  | defunctStart => exact ⟨none, by simpa [EcmOp.owes] using sending⟩
  | accelMode => exact ⟨.decel, by simpa [EcmOp.owes, Duties.notice, Mode.failed] using sending⟩
  | destroyFailed =>
      refine ⟨false, ?_⟩
      show 0 < own.endDecel false .sending
      unfold Duties.endDecel Duties.settleDecel
      split <;> split <;> simpa using sending
  | ref | deref | pendingClear | txSent | createTxFailed | pendingDecelInc | timerSet
    | destroyFailHandled
  | accelerationEnds | actionSeen | timerExpire | timerDeref =>
      exact ⟨(), by simp [EcmOp.owes, sending]⟩
  | _ => exact ⟨false, by simp [EcmOp.owes, sending]⟩

/-- The ledger about one connection. -/
def duties : Ledger EcmOp EcmOp.Res Duties where
  pre := fun op own => op.entitled own ∧ (¬op.IsEnd → own .ended = 0)
  after := fun op own res => op.owes own res

/-- The ledger about all connections. -/
abbrev allDuties : Ledger EcmOp EcmOp.Res (Conn → Duties) := duties.keyed EcmOp.conn

/-! ### Every handler settles its duties -/

section Handlers

variable {c : Conn}

/-- A program about a connection that leaves what is required of it. -/
abbrev Settles {A : Type} (c : Conn) (program : EcmProg A) (own : Duties)
    (Good : A → Duties → Prop) : Prop :=
  (duties.about EcmOp.conn c).Settles Good (fun _ _ => False) program own

theorem settles_of_eq {A : Type} {program : EcmProg A} {own own' : Duties}
    {Good : A → Duties → Prop} (same : own = own') (settles : Settles c program own' Good) :
        Settles c program own Good := by
  rw [same]
  exact settles

theorem settles_ite {A : Type} {condition : Prop} [Decidable condition] {yes no : EcmProg A}
    {own : Duties} {Good : A → Duties → Prop} (ofYes : condition → Settles c yes own Good)
    (ofNo : ¬condition → Settles c no own Good) :
    Settles c (if condition then yes else no) own Good := by
  split
  · exact ofYes ‹_›
  · exact ofNo ‹_›

theorem endDecel_ended {own : Duties} (noEnd : own .ended = 0) (gone : Bool) :
    own.endDecel gone .ended = 0 := by
  unfold Duties.endDecel Duties.settleDecel
  split <;> split <;> simp [noEnd]

theorem destroyFailureHandle_settles {own : Duties} (rights : 0 < own .decel ∨ 0 < own .defunct)
    (noEnd : own .ended = 0) :
    Settles c (destroyFailureHandle c) own fun ret after => after = own.endDecel ret := by
  refine ⟨⟨rfl, rights, fun _ => noEnd⟩, fun limit => ?_⟩
  cases limit with
  | true => exact rfl
  | false =>
      have noEnd' : own.endDecel false .ended = 0 := endDecel_ended noEnd false
      exact ⟨⟨rfl, trivial, fun _ => noEnd'⟩, fun _ =>
        ⟨⟨rfl, trivial, fun _ => noEnd'⟩, fun _ => rfl⟩⟩

/-- While the command is sent, the handler holds its reference and counts it. -/
theorem endDecel_sending (own : Duties) (gone : Bool) :
    ((((own.give .sending).give .ref).endDecel gone).settle .ref).settle .sending =
      own.endDecel gone := by
  funext duty
  by_cases defunct : 0 < own .defunct <;> cases gone <;> cases duty <;>
    simp [Duties.endDecel, Duties.settleDecel, defunct]

theorem decelerateMsgSend_settles (own : Duties) (rights : 0 < own .decel ∨ 0 < own .defunct)
    (noEnd : own .ended = 0) (noSend : own .sending = 0) :
    Settles c (decelerateMsgSend c) own fun ret after => after = own.endDecel ret := by
  have noEnd' : ((own.give .sending).give .ref) .ended = 0 := by simpa using noEnd
  have rights' : 0 < ((own.give .sending).give .ref) .decel ∨
      0 < ((own.give .sending).give .ref) .defunct := by simpa using rights
  have pendingRights : 0 < own.give .sending .accel ∨ 0 < own.give .sending .decel ∨
      0 < own.give .sending .defunct := Or.inr (by simpa using rights)
  refine ⟨⟨rfl, ⟨rights, noSend⟩, fun _ => noEnd⟩, fun _ =>
    ⟨⟨rfl, pendingRights, fun _ => ?_⟩, fun _ => ?_⟩⟩
  · simpa [duties, EcmOp.owes, Ledger.about] using noEnd
  refine ⟨⟨rfl, ⟨rights', by simp [duties, EcmOp.owes, Ledger.about]⟩, fun _ => noEnd'⟩,
    fun sent => ?_⟩
  cases sent with
  | true =>
      refine ⟨⟨rfl, trivial, fun _ => ?_⟩, fun _ => endDecel_sending own true⟩
      show ((((own.give .sending).give .ref).endDecel true).settle .ref).settle .sending .ended = 0
      rw [endDecel_sending]
      exact endDecel_ended noEnd true
  | false =>
      refine (destroyFailureHandle_settles rights' noEnd').bind ?_
      rintro ret _ rfl
      have kept : 0 < ((own.give .sending).give .ref).endDecel ret .ref ∧
          0 < (((own.give .sending).give .ref).endDecel ret).settle .ref .sending := by
        unfold Duties.endDecel Duties.settleDecel
        split <;> split <;> simp
      refine ⟨⟨rfl, kept.1, fun _ => endDecel_ended noEnd' ret⟩, fun _ =>
        ⟨⟨rfl, kept.2, fun _ => ?_⟩,
        fun _ => endDecel_sending own ret⟩⟩
      show (((own.give .sending).give .ref).endDecel ret).settle .ref .ended = 0
      rw [Duties.settle_apply, if_neg (by decide)]
      exact endDecel_ended noEnd' ret

theorem decelerate_settles {own : Duties} (none : own .defunct = 0) (noEnd : own .ended = 0)
    (noSend : own .sending = 0) :
    Settles c (decelerate c) own fun _ after => after = own := by
  refine ⟨⟨rfl, trivial, fun _ => noEnd⟩, fun allowed => ?_⟩
  cases allowed with
  | false => exact rfl
  | true =>
      refine (decelerateMsgSend_settles (own.give .decel) (Or.inl (by simp))
        (by simpa using noEnd) (by simpa using noSend)).mono ?_
      rintro ret _ rfl
      funext duty
      cases duty <;> simp [Duties.endDecel, Duties.settleDecel, none]

/-- After the defunct callback, a connection that will be gone is to be given up. -/
theorem defunctCallback_settles (own : Duties) (none : own .defunct = 0) (noDoom : own .doomed = 0)
    (noEnd : own .ended = 0) (noSend : own .sending = 0) :
    Settles c (defunctCallback c) own fun result after =>
      after = if result.1 = true ∨ result.2.failed = true then own.give .doomed else own := by
  refine ⟨⟨rfl, trivial, fun _ => noEnd⟩, fun result => ?_⟩
  cases result with
  | some mode =>
      show own.notice mode = _
      simp [Duties.notice, noDoom]
  | none =>
      refine (decelerateMsgSend_settles (own.give .defunct) (Or.inr (by simp))
        (by simpa using noEnd) (by simpa using noSend)).bind ?_
      rintro ret _ rfl
      refine ⟨⟨rfl, trivial, fun _ => endDecel_ended (by simpa using noEnd) ret⟩, fun mode => ?_⟩
      show ((own.give .defunct).endDecel ret).notice mode = _
      funext duty
      cases ret <;> by_cases failed : mode.failed = true <;> cases duty <;>
        simp [Duties.endDecel, Duties.settleDecel, Duties.notice, none, noDoom, failed]

theorem makeDefunct_settles {own : Duties} (none : own .defunct = 0) (noDoom : own .doomed = 0)
    (noEnd : own .ended = 0) (noSend : own .sending = 0) :
    Settles c (makeDefunct c) own fun _ after => after = own := by
  refine (defunctCallback_settles own none noDoom noEnd noSend).bind ?_
  rintro ⟨ret, mode⟩ _ rfl
  by_cases gone : ret = true ∨ mode.failed = true
  · dsimp only
    rw [if_pos gone, if_pos gone]
    refine ⟨⟨rfl, by simp [EcmOp.entitled], fun _ => by simpa using noEnd⟩, fun removed => ?_⟩
    cases removed with
    | false => exact own.settle_give .doomed
    | true =>
        exact ⟨⟨rfl, by simp [duties, EcmOp.entitled, EcmOp.owes, Ledger.about],
          fun _ => by simpa [duties, EcmOp.owes, Ledger.about] using noEnd⟩,
          fun _ => own.settle_give .doomed⟩
  · dsimp only
    rw [if_neg gone, if_neg gone]
    exact rfl

theorem defunctTimer_settles : Settles c (defunctTimer c) 0 fun _ after => after = 0 := by
  refine ⟨⟨rfl, trivial, fun _ => rfl⟩, fun _ => ?_⟩
  refine (defunctCallback_settles 0 rfl rfl rfl rfl).bind ?_
  rintro ⟨ret, mode⟩ _ rfl
  by_cases gone : ret = true ∨ mode.failed = true
  · rw [if_pos gone]
    refine settles_ite (fun _ => ?_) fun stays => absurd gone stays
    exact ⟨⟨rfl, by simp [EcmOp.entitled], fun _ => rfl⟩, fun _ => Duties.settle_give 0 .doomed⟩
  · rw [if_neg gone]
    exact settles_ite (fun goes => absurd goes gone) fun _ => rfl

theorem accelerate_settles {own : Duties} (noEnd : own .ended = 0) :
    Settles c (accelerate c) own fun _ after => after = own := by
  have noEnd' : own.give .accel .ended = 0 := by simpa using noEnd
  have pending : 0 < own.give .accel .accel := by simp
  have settled : (own.give .accel).settle .accel = own := own.settle_give .accel
  have settledRef : (((own.give .accel).give .ref).settle .accel).settle .ref = own := by
    funext duty
    cases duty <;> simp
  refine ⟨⟨rfl, trivial, fun _ => noEnd⟩, fun regen => ?_⟩
  cases regen with
  | true => exact rfl
  | false =>
  refine ⟨⟨rfl, trivial, fun _ => noEnd⟩, fun permitted => ?_⟩
  cases permitted with
  | false => exact rfl
  | true =>
  refine ⟨⟨rfl, trivial, fun _ => noEnd'⟩, fun noMemory => ?_⟩
  cases noMemory with
  | true => exact ⟨⟨rfl, ⟨pending, Or.inl rfl⟩, fun _ => noEnd'⟩, fun _ => settled⟩
  | false =>
  refine ⟨⟨rfl, trivial, fun _ => noEnd'⟩, fun badRule => ?_⟩
  cases badRule with
  | true => exact ⟨⟨rfl, ⟨pending, Or.inr rfl⟩, fun _ => noEnd'⟩, fun _ => settled⟩
  | false =>
  refine ⟨⟨rfl, trivial, fun _ => noEnd'⟩, fun regenerated => ?_⟩
  cases regenerated with
  | true => exact ⟨⟨rfl, ⟨pending, Or.inl rfl⟩, fun _ => noEnd'⟩, fun _ => settled⟩
  | false =>
  have noEnd'' : (own.give .accel).give .ref .ended = 0 := by simpa using noEnd
  refine ⟨⟨rfl, Or.inl pending, fun _ => noEnd'⟩,
    fun _ => ⟨⟨rfl, ?_, fun _ => noEnd''⟩, fun sent => ?_⟩⟩
  · exact ⟨by simp [duties, EcmOp.owes, Ledger.about], by simp [duties, EcmOp.owes, Ledger.about]⟩
  cases sent with
  | true =>
      refine ⟨⟨rfl, trivial, fun _ => ?_⟩, fun _ => settledRef⟩
      show (((own.give .accel).give .ref).settle .accel).settle .ref .ended = 0
      rw [settledRef]
      exact noEnd
  | false =>
      have back := (own.give .accel).settle_give .ref
      refine ⟨⟨rfl, by simp [duties, EcmOp.entitled, EcmOp.owes, Ledger.about], fun _ => noEnd''⟩,
        fun _ => ⟨⟨rfl, ?_, fun _ => ?_⟩, fun _ => ?_⟩⟩
      · show 0 < ((own.give .accel).give .ref).settle .ref .accel
        rw [back]
        exact pending
      · show ((own.give .accel).give .ref).settle .ref .ended = 0
        rw [back]
        exact noEnd'
      · show (((own.give .accel).give .ref).settle .ref).settle .accel = own
        rw [back, settled]

theorem connectionCallback_settles (ack : Bool) :
    Settles c (connectionCallback c ack) 0 fun _ after => after = 0 := by
  refine ⟨⟨rfl, trivial, fun _ => rfl⟩, fun found => ?_⟩
  cases found with
  | false => exact rfl
  | true =>
  have held : (((((0 : Duties).give .accel).give .ref).give .ref).settle .ref).settle .accel =
      (0 : Duties).give .ref := by
    funext duty
    cases duty <;> simp
  refine ⟨⟨rfl, by simp [duties, EcmOp.entitled, EcmOp.owes, Ledger.about], fun _ => rfl⟩,
    fun _ => ⟨⟨rfl, ?_, fun _ => rfl⟩, fun answered => ?_⟩⟩
  · show 0 < ((((0 : Duties).give .accel).give .ref).give .ref).settle .ref .accel
    simp
  have release : Settles c (perform (.deref c)) ((0 : Duties).give .ref) fun _ after => after = 0 :=
    ⟨⟨rfl, by simp [EcmOp.entitled], fun _ => rfl⟩, fun _ => Duties.settle_give 0 .ref⟩
  cases answered with
  | release => exact settles_of_eq held release
  | decelerate isDefunct =>
      refine settles_of_eq held ?_
      cases isDefunct with
      | true =>
          refine (makeDefunct_settles rfl rfl rfl rfl).bind ?_
          rintro _ _ rfl
          exact release
      | false =>
          refine (decelerate_settles rfl rfl rfl).bind ?_
          rintro _ _ rfl
          exact release

theorem destroyCallback_settles (ack : Bool) :
    Settles c (destroyCallback c ack) 0 fun _ after => after = 0 := by
  refine ⟨⟨rfl, rfl, fun _ => rfl⟩, fun found => ?_⟩
  cases found with
  | false => exact rfl
  | true =>
  have held :
    (((((0 : Duties).give .answered).give .ref).give .sending).settle .ref).settle .sending =
      (0 : Duties).give .answered := by
    funext duty
    cases duty <;> simp
  refine ⟨⟨rfl, by simp [duties, EcmOp.entitled, EcmOp.owes, Ledger.about], fun _ => rfl⟩,
    fun _ => ⟨⟨rfl, ?_, fun _ => rfl⟩, fun _ => ⟨⟨rfl, ?_, fun _ => rfl⟩, fun ends => ?_⟩⟩⟩
  · show 0 < ((((0 : Duties).give .answered).give .ref).give .sending).settle .ref .sending
    simp
  · show 0 < (((((0 : Duties).give .answered).give .ref).give .sending).settle .ref).settle .sending
      .answered
    rw [held]
    simp
  have release : Settles c (perform (.deref c)) ((0 : Duties).give .ref) fun _ after => after = 0 :=
    ⟨⟨rfl, by simp [EcmOp.entitled], fun _ => rfl⟩, fun _ => Duties.settle_give 0 .ref⟩
  have counted := Duties.settle_give 0 .answered
  cases ends with
  | false =>
      refine settles_of_eq (congrArg (fun own => (Duties.settle own .answered).give .ref) held) ?_
      rw [counted]
      exact release
  | true =>
      refine settles_of_eq (congrArg (fun own => (Duties.settle own .answered).give .ended) held) ?_
      rw [counted]
      refine ⟨⟨rfl, by simp [EcmOp.entitled], fun isEnd => absurd trivial isEnd⟩, fun _ => ?_⟩
      refine settles_of_eq (congrArg (fun own => Duties.give own .ref) ?_) release
      exact Duties.settle_give 0 .ended

theorem accelCeased_settles :
    Settles c (accelCeased c) ((0 : Duties).give .ref) fun _ after =>
        after = (0 : Duties).give .ref := by
  refine ⟨⟨rfl, by simp [EcmOp.entitled], fun _ => rfl⟩, fun ends => ?_⟩
  cases ends with
  | false => exact rfl
  | true =>
      refine ⟨⟨rfl, ?_, fun isEnd => absurd trivial isEnd⟩, fun _ => ?_⟩
      · show 0 < (((0 : Duties).give .ref).settle .ref).give .ended .ended
        simp
      · show (((((0 : Duties).give .ref).settle .ref).give .ended).settle .ended).give .ref = _
        rw [Duties.settle_give, Duties.settle_give]

/-- The caller's reference is released in the end. -/
theorem referenced_settles {program : EcmProg Unit}
    (settles : Settles c program ((0 : Duties).give .ref) fun _ after =>
        after = (0 : Duties).give .ref) :
    Settles c (referenced c program) 0 fun _ after => after = 0 := by
  refine ⟨⟨rfl, trivial, fun _ => rfl⟩, fun found => ?_⟩
  cases found with
  | false => exact rfl
  | true =>
      refine settles.bind ?_
      rintro _ _ rfl
      exact ⟨⟨rfl, by simp [EcmOp.entitled], fun _ => rfl⟩, fun _ => Duties.settle_give 0 .ref⟩

/-- The connection of a handler. -/
def Handler.conn : Handler → Conn
  | accelerate c | decelerate c | makeDefunct c | defunctTimer c | connectionCallback c _
  | destroyCallback c _ | accelCeased c | actionSeen c => c

/-- **Every handler settles its duties**, whatever its calls return. -/
theorem settles_program (handler : Handler) :
    Settles handler.conn handler.program 0 fun _ after => after = 0 := by
  cases handler with
  | accelerate c => exact referenced_settles (accelerate_settles rfl)
  | decelerate c =>
      refine referenced_settles ((decelerate_settles rfl rfl rfl).bind ?_)
      rintro _ _ rfl
      exact rfl
  | makeDefunct c => exact referenced_settles (makeDefunct_settles rfl rfl rfl rfl)
  | defunctTimer c => exact defunctTimer_settles
  | connectionCallback c ack => exact connectionCallback_settles ack
  | destroyCallback c ack => exact destroyCallback_settles ack
  | accelCeased c => exact referenced_settles accelCeased_settles
  | actionSeen c => exact referenced_settles ⟨⟨rfl, trivial, fun _ => rfl⟩, fun _ => rfl⟩

end Handlers

end Qsdk.Ecm
