/-
**What a call does to its connection.**

The references to a connection are those of its timer, of the commands for it and of the handlers;
in the modes in which a command is pending, exactly one command is under way or in the hands of a
handler (`Consistent`). Each of the changes that the calls make keeps this, together with the change
of what the handler owes. Most are quiet: they leave alone what the connection adds to the counters.
-/

import Qsdk.Ecm.Duties

namespace Qsdk.Ecm

/-! ### A connection -/

/-- The accelerator forwards for the connection. -/
def Mode.Carries (mode : Mode) : Prop := mode = .accel ∨ mode = .decelPending

instance (mode : Mode) : Decidable mode.Carries := inferInstanceAs (Decidable (_ ∨ _))

namespace Connection

/-- What a connection adds to the number of the accelerated ones. -/
def load (conn : Connection) (owed : Duties) : Nat :=
  (if conn.accelMode.Carries then 1 else 0) + owed .ended

/-- What a connection adds to the number of pending accelerations. -/
def pending (conn : Connection) : Nat := if conn.accelMode = .accelPending then 1 else 0

/-- What a connection adds to the number of pending decelerations. -/
def leaving (conn : Connection) (owed : Duties) : Nat := conn.destroys + owed .sending

/-- A connection agrees with what the handlers owe about it. -/
structure Consistent (conn : Connection) (owed : Duties) : Prop where
  refs : conn.refs = ((if conn.timerRef = true then 1 else 0) + conn.creates + conn.destroys +
    owed .ref + owed .answered + owed .ended : Nat)
  accel : conn.creates + owed .accel = conn.pending
  decel : conn.destroys + owed .decel + owed .defunct + owed .answered =
    if conn.accelMode = .decelPending then 1 else 0
  defunct : 0 < owed .defunct → conn.isDefunct = true
  doomed : conn.timerRef = false ∨ 0 < owed .doomed →
    conn.accelMode.failed = true ∨ conn.isDefunct = true ∧ 0 < conn.destroys + owed .answered

/-- A connection that is gone is not accelerated, and no command for it is under way. -/
theorem Consistent.gone {conn : Connection} {owed : Duties} (consistent : conn.Consistent owed)
    (gone : conn.refs ≤ 0) : conn.load owed = 0 ∧ conn.pending = 0 ∧ conn.destroys = 0 := by
  have refs := consistent.refs
  have unheld : conn.timerRef = false := by
    by_contra held
    rw [Bool.not_eq_false] at held
    rw [if_pos held] at refs
    omega
  rw [if_neg (by simp [unheld])] at refs
  have failed : conn.accelMode.failed = true := by
    refine (consistent.doomed (Or.inl unheld)).resolve_right fun stays => ?_
    have := stays.2
    omega
  refine ⟨?_, ?_, by omega⟩
  · have parked : ¬conn.accelMode.Carries := by
      rintro (accel | pending)
      · rw [accel] at failed
        cases failed
      · rw [pending] at failed
        cases failed
    rw [load, if_neg parked]
    omega
  · rw [Connection.pending, if_neg]
    intro pending
    rw [pending] at failed
    cases failed

end Connection

/-- A connection that a command is to be sent for exists. -/
theorem Connection.Consistent.exists {conn : Connection} {owed : Duties}
    (consistent : conn.Consistent owed)
    (rights : 0 < owed .accel ∨ 0 < owed .decel ∨ 0 < owed .defunct) : 0 < conn.refs := by
  obtain ⟨refs, accel, decel, -, doomed⟩ := consistent
  have held : conn.timerRef = true := by
    by_contra unheld
    rw [Bool.not_eq_true] at unheld
    rcases rights with waits | leaves
    · have isMode : conn.accelMode = .accelPending := by
        by_contra other
        rw [Connection.pending, if_neg other] at accel
        omega
      have later := doomed (Or.inl unheld)
      simp only [isMode, Mode.failed, reduceCtorEq, if_false, Bool.false_eq_true, false_or]
        at later decel
      omega
    · have isMode : conn.accelMode = .decelPending := by
        by_contra other
        rw [if_neg other] at decel
        omega
      have later := doomed (Or.inl unheld)
      simp only [isMode, Mode.failed, if_true, Bool.false_eq_true, false_or] at later decel
      omega
  rw [if_pos held] at refs
  omega

/-! ### What a call does to its connection -/

/-- A connection and what is owed about it change, and still agree. -/
structure Connection.Moves (conn : Connection) (owed : Duties) (conn' : Connection)
    (owed' : Duties) :
    Prop where
  consistent : conn'.Consistent owed'
  proto : conn'.proto = conn.proto
  failed : conn.accelMode.failed = true → conn'.accelMode.failed = true
  parked : conn.accelMode.failed = true → owed' .ended ≤ owed .ended ∧
    owed' .sending ≤ owed .sending

/-- A connection moves, and it adds to the counters and has as many references as before. -/
structure Connection.Quiet (conn : Connection) (owed : Duties) (conn' : Connection)
    (owed' : Duties) :
    Prop extends conn.Moves owed conn' owed' where
  refs : conn'.refs = conn.refs
  load : conn'.load owed' = conn.load owed
  pending : conn'.pending = conn.pending
  leaving : conn'.leaving owed' = conn.leaving owed

theorem Connection.Quiet.trans {conn conn' conn'' : Connection} {owed owed' owed'' : Duties}
    (first : conn.Quiet owed conn' owed') (second : conn'.Quiet owed' conn'' owed'') :
    conn.Quiet owed conn'' owed'' where
  consistent := second.consistent
  proto := second.proto.trans first.proto
  failed := fun failed => second.failed (first.failed failed)
  parked := fun failed =>
    ⟨(second.parked (first.failed failed)).1.trans (first.parked failed).1,
      (second.parked (first.failed failed)).2.trans (first.parked failed).2⟩
  refs := second.refs.trans first.refs
  load := second.load.trans first.load
  pending := second.pending.trans first.pending
  leaving := second.leaving.trans first.leaving

/-- The two connections differ in nothing that the accounts are about. -/
structure Connection.Similar (conn conn' : Connection) : Prop where
  proto : conn'.proto = conn.proto
  accelMode : conn'.accelMode = conn.accelMode
  refs : conn'.refs = conn.refs
  timerRef : conn'.timerRef = conn.timerRef
  creates : conn'.creates = conn.creates
  destroys : conn'.destroys = conn.destroys
  isDefunct : conn.isDefunct = true → conn'.isDefunct = true

section Functions

variable (conn : Connection)

theorem Connection.Similar.refl : conn.Similar conn := ⟨rfl, rfl, rfl, rfl, rfl, rfl, id⟩

/-- What `decelerateStart` does. -/
theorem decelerateStart_cases :
    ((decelerateStart conn).1 = false ∧ conn.Similar (decelerateStart conn).2) ∨
      ((decelerateStart conn).1 = true ∧ conn.accelMode = .accel ∧
        (decelerateStart conn).2 = { conn with accelMode := .decelPending }) := by
  unfold decelerateStart decelerateAccelModeCheck
  by_cases pending : conn.deceleratePending = true
  · exact Or.inl (by simp [pending, Connection.Similar.refl])
  · by_cases waits : conn.accelMode = .accelPending
    · refine Or.inl ?_
      rw [if_neg pending, if_pos waits]
      exact ⟨rfl, rfl, rfl, rfl, rfl, rfl, rfl, id⟩
    · by_cases accel : conn.accelMode = .accel
      · exact Or.inr (by simp [pending, accel])
      · exact Or.inl (by simp [pending, waits, accel, Connection.Similar.refl])

/-- What `defunctStart` does. -/
theorem defunctStart_cases :
    ((defunctStart conn).1 = some conn.accelMode ∧ conn.Similar (defunctStart conn).2) ∨
      ((defunctStart conn).1 = some .failDefunct ∧ conn.accelMode = .decel ∧
        (defunctStart conn).2 = { conn with isDefunct := true, accelMode := .failDefunct }) ∨
      ((defunctStart conn).1 = none ∧ conn.accelMode = .accel ∧
        (defunctStart conn).2 = { conn with isDefunct := true, accelMode := .decelPending }) := by
  have flagged : ∀ flag, conn.Similar { conn with isDefunct := true, deceleratePending := flag } :=
    fun flag => ⟨rfl, rfl, rfl, rfl, rfl, rfl, fun _ => rfl⟩
  unfold defunctStart defunctCheck decelerateAccelModeCheck
  by_cases handled : conn.destroyFailHandlePending = true
  · exact Or.inl (by simp [handled, Connection.Similar.refl])
  rw [if_neg handled]
  by_cases defunct : conn.isDefunct = true
  · exact Or.inl (by simp [defunct, Connection.Similar.refl])
  rw [if_neg defunct]
  by_cases failed : conn.accelMode.failed = true
  · rw [if_pos failed]
    exact Or.inl ⟨rfl, flagged conn.deceleratePending⟩
  rw [if_neg failed]
  by_cases decel : conn.accelMode = .decel
  · rw [if_pos decel]
    exact Or.inr (Or.inl ⟨rfl, decel, rfl⟩)
  rw [if_neg decel]
  by_cases leaving : conn.accelMode = .decelPending
  · rw [if_pos leaving]
    exact Or.inl ⟨rfl, flagged conn.deceleratePending⟩
  rw [if_neg leaving]
  by_cases pending : conn.deceleratePending = true
  · exact Or.inl (by simp only [pending]; exact ⟨rfl, flagged true⟩)
  by_cases waits : conn.accelMode = .accelPending
  · exact Or.inl (by simp only [pending, waits]; exact ⟨rfl, by rw [← waits]; exact flagged true⟩)
  by_cases accel : conn.accelMode = .accel
  · exact Or.inr (Or.inr (by simp [pending, accel]))
  · cases mode : conn.accelMode <;> simp_all [Mode.failed]

/-- What `destroyFailed` does where the limit is not reached. -/
theorem destroyFailed_of_below (below : ¬conn.driverFailLimit ≤ conn.driverFail + 1) :
    destroyFailed conn = (false,
      { conn with
        driverFail := conn.driverFail + 1, accelMode := .accel, isDefunct := false
        destroyFailHandlePending := true }) := by
  unfold destroyFailed
  dsimp only
  rw [if_neg below]

/-- What `destroyAnswer` does. -/
theorem destroyAnswer_cases (ack : Bool) :
    ((destroyAnswer ack conn).1 = false ∧ conn.accelMode ≠ .decelPending ∧
        (destroyAnswer ack conn).2 = conn) ∨
      ∃ mode : Mode, (destroyAnswer ack conn).1 = true ∧ (mode = .decel ∨ mode.failed = true) ∧
        (conn.isDefunct = true → mode.failed = true) ∧
        (destroyAnswer ack conn).2 = { conn with accelMode := mode } := by
  unfold destroyAnswer
  by_cases pending : conn.accelMode = .decelPending
  · rw [if_neg (not_not_intro pending)]
    refine Or.inr ⟨_, rfl, ?_, fun defunct => ?_, rfl⟩
    · cases ack <;> cases conn.isDefunct <;> simp [Mode.failed]
    · rw [if_pos defunct]
      rfl
  · refine Or.inl ?_
    rw [if_pos pending]
    exact ⟨rfl, pending, rfl⟩

/-- What `accelCeasedStart` does. -/
theorem accelCeasedStart_cases :
    ((accelCeasedStart conn).1 = false ∧ conn.Similar (accelCeasedStart conn).2) ∨
      ∃ mode : Mode, (accelCeasedStart conn).1 = true ∧ conn.accelMode = .accel ∧
        (mode = .decel ∨ mode.failed = true) ∧
        (accelCeasedStart conn).2 = { conn with accelMode := mode } := by
  unfold accelCeasedStart
  by_cases waits : conn.accelMode = .accelPending
  · rw [if_pos waits]
    exact Or.inl ⟨rfl, rfl, rfl, rfl, rfl, rfl, rfl, id⟩
  rw [if_neg waits]
  by_cases accel : conn.accelMode = .accel
  · rw [if_neg (not_not_intro accel)]
    refine Or.inr ⟨_, rfl, accel, ?_, rfl⟩
    split
    · exact Or.inr rfl
    · exact Or.inl rfl
  · rw [if_pos accel]
    exact Or.inl ⟨rfl, Connection.Similar.refl conn⟩

/-- What `accelPendingSet` does. -/
theorem accelPendingSet_cases (limits : Limits) (counters : Counters) :
    accelPendingSet limits counters conn = (false, counters, conn) ∨
      (conn.accelMode = .decel ∧
        (limits.fixed = true → counters.pendingAccel + counters.accelerated < limits.maxConnCount) ∧
        accelPendingSet limits counters conn =
          (true, { counters with pendingAccel := counters.pendingAccel + 1 },
            { conn with accelMode := .accelPending })) := by
  unfold accelPendingSet
  by_cases failed : conn.accelMode.failed = true
  · exact Or.inl (if_pos failed)
  rw [if_neg failed]
  by_cases decel : conn.accelMode = .decel
  · rw [if_neg (not_not_intro decel)]
    split
    · exact Or.inl rfl
    · rename_i room
      refine Or.inr ⟨decel, fun fixed => ?_, rfl⟩
      by_contra full
      exact room ⟨fixed, by omega⟩
  · exact Or.inl (if_pos decel)

/-- The connection after the acceleration is no longer pending. -/
structure Connection.Cleared (conn conn' : Connection) : Prop where
  proto : conn'.proto = conn.proto
  refs : conn'.refs = conn.refs
  timerRef : conn'.timerRef = conn.timerRef
  creates : conn'.creates = conn.creates
  destroys : conn'.destroys = conn.destroys
  accelMode : conn'.accelMode = .decel ∨ conn'.accelMode = .accel ∨ conn'.accelMode.failed = true

/-- What `accelPendingClear` does. -/
theorem accelPendingClear_cleared {mode : Mode} (isMode : mode = .decel ∨ mode.failed = true)
    (counters : Counters) :
    (accelPendingClear mode counters conn).2.1 =
        { counters with pendingAccel := counters.pendingAccel - 1 } ∧
      conn.Cleared (accelPendingClear mode counters conn).2.2 ∧
      ¬(accelPendingClear mode counters conn).2.2.accelMode.Carries := by
  refine ⟨rfl, ⟨rfl, rfl, rfl, rfl, rfl, isMode.imp_right Or.inr⟩, ?_⟩
  show ¬mode.Carries
  rcases isMode with rfl | failed
  · decide
  · rintro (rfl | rfl) <;> cases failed

/-- What `createTxFailed` does. -/
theorem createTxFailed_cleared (counters : Counters) :
    (createTxFailed counters conn).1 = { counters with pendingAccel := counters.pendingAccel - 1 } ∧
      conn.Cleared (createTxFailed counters conn).2 ∧
      ¬(createTxFailed counters conn).2.accelMode.Carries := by
  have isMode : ∀ limit : Prop, [Decidable limit] →
      ((if limit then Mode.failDriver else .decel) = .decel ∨
        (if limit then Mode.failDriver else .decel).failed = true) := by
    intro limit _
    split
    · exact Or.inr rfl
    · exact Or.inl rfl
  obtain ⟨counted, cleared, parked⟩ := accelPendingClear_cleared
    { conn with driverFail := conn.driverFail + 1 }
    (isMode (conn.driverFailLimit ≤ conn.driverFail + 1)) counters
  exact ⟨counted, ⟨cleared.proto, cleared.refs, cleared.timerRef, cleared.creates, cleared.destroys,
    cleared.accelMode⟩, parked⟩

/-- What `createAnswer` does: the connection is accelerated now, or it is not. -/
theorem createAnswer_cases (ack : Bool) (counters : Counters) :
    conn.Cleared (createAnswer ack counters conn).2.2 ∧
      (((createAnswer ack counters conn).2.1 =
            { counters with pendingAccel := counters.pendingAccel - 1 } ∧
          ¬(createAnswer ack counters conn).2.2.accelMode.Carries) ∨
        ((createAnswer ack counters conn).2.1 =
            { counters with
              pendingAccel := counters.pendingAccel - 1
              accelerated := counters.accelerated + 1
              ported := Function.update counters.ported conn.proto
                (counters.ported conn.proto + 1) } ∧
          (createAnswer ack counters conn).2.2.accelMode.Carries)) := by
  unfold createAnswer
  cases ack with
  | false =>
      have isMode : ∀ limit defunct : Prop, [Decidable limit] → [Decidable defunct] →
          ((if defunct then Mode.failDefunct else if limit then .failAccelEngine else .decel) =
            .decel ∨
            (if defunct then Mode.failDefunct else
              if limit then .failAccelEngine else .decel).failed = true) := by
        intro limit defunct _ _
        split
        · exact Or.inr rfl
        · split
          · exact Or.inr rfl
          · exact Or.inl rfl
      obtain ⟨counted, cleared, parked⟩ := accelPendingClear_cleared
        { conn with aeNack := conn.aeNack + 1 }
        (isMode (conn.aeNackLimit ≤ conn.aeNack + 1) (conn.isDefunct = true)) counters
      exact ⟨⟨cleared.proto, cleared.refs, cleared.timerRef, cleared.creates, cleared.destroys,
        cleared.accelMode⟩, Or.inl ⟨counted, parked⟩⟩
  | true =>
  by_cases flushed : conn.flushHappened = true
  · simp only [Bool.not_true, Bool.false_eq_true, if_false, if_pos flushed]
    obtain ⟨counted, cleared, parked⟩ := accelPendingClear_cleared
      { conn with flushHappened := false, noActionSeen := conn.noActionSeen + 1 }
      (Or.inl rfl) counters
    exact ⟨⟨cleared.proto, cleared.refs, cleared.timerRef, cleared.creates, cleared.destroys,
      cleared.accelMode⟩, Or.inl ⟨counted, parked⟩⟩
  · simp only [Bool.not_true, Bool.false_eq_true, if_false, if_neg flushed, accelPendingClear]
    cases pending : conn.deceleratePending with
    | false =>
        simp only [Bool.not_false, if_true]
        exact ⟨⟨rfl, rfl, rfl, rfl, rfl, Or.inr (Or.inl rfl)⟩, Or.inr ⟨trivial, Or.inl rfl⟩⟩
    | true =>
        simp only [Bool.not_true, Bool.false_eq_true, if_false]
        exact ⟨⟨rfl, rfl, rfl, rfl, rfl, Or.inr (Or.inl rfl)⟩, Or.inr ⟨trivial, Or.inl rfl⟩⟩

end Functions

section Calls

variable {conn conn' : Connection} {own rest : Duties}

theorem Connection.Similar.quiet (similar : conn.Similar conn') {owed : Duties}
    (consistent : conn.Consistent owed) : conn.Quiet owed conn' owed where
  consistent := by
    obtain ⟨refs, accel, decel, defunct, doomed⟩ := consistent
    refine ⟨?_, ?_, ?_, fun owes => similar.isDefunct (defunct owes), fun unheld => ?_⟩
    · rw [similar.refs, similar.timerRef, similar.creates, similar.destroys]
      exact refs
    · rw [similar.creates, Connection.pending, similar.accelMode]
      exact accel
    · rw [similar.destroys, similar.accelMode]
      exact decel
    · rw [similar.timerRef] at unheld
      rw [similar.accelMode, similar.destroys]
      exact (doomed unheld).imp_right fun stays => ⟨similar.isDefunct stays.1, stays.2⟩
  proto := similar.proto
  failed := fun failed => by rw [similar.accelMode]; exact failed
  parked := fun _ => ⟨le_rfl, le_rfl⟩
  refs := similar.refs
  load := by rw [Connection.load, similar.accelMode, Connection.load]
  pending := by rw [Connection.pending, similar.accelMode, Connection.pending]
  leaving := by rw [Connection.leaving, similar.destroys, Connection.leaving]

/-- An accelerated connection is about to be decelerated. -/
theorem decelerates_quiet (h : conn.Consistent (own + rest)) (isAccel : conn.accelMode = .accel) :
    conn.Quiet (own + rest) { conn with accelMode := .decelPending } (own.give .decel + rest) := by
  obtain ⟨refs, accel, decel, defunct, doomed⟩ := h
  simp only [Connection.pending, isAccel, Pi.add_apply, Mode.failed]
    at refs accel decel defunct doomed
  refine ⟨⟨⟨?_, ?_, ?_, ?_, ?_⟩, rfl, ?_, ?_⟩, rfl, ?_, ?_, ?_⟩ <;>
    simp [isAccel, Connection.load, Connection.pending, Connection.leaving, Mode.Carries,
        Mode.failed] <;>
    grind

/-- An accelerated connection becomes defunct. -/
theorem becomesDefunct_quiet (h : conn.Consistent (own + rest))
    (isAccel : conn.accelMode = .accel) :
    conn.Quiet (own + rest) { conn with isDefunct := true, accelMode := .decelPending }
      (own.give .defunct + rest) := by
  obtain ⟨refs, accel, decel, defunct, doomed⟩ := h
  simp only [Connection.pending, isAccel, Pi.add_apply, Mode.failed]
    at refs accel decel defunct doomed
  refine ⟨⟨⟨?_, ?_, ?_, ?_, ?_⟩, rfl, ?_, ?_⟩, rfl, ?_, ?_, ?_⟩ <;>
    simp [isAccel, Connection.load, Connection.pending, Connection.leaving, Mode.Carries,
        Mode.failed] <;>
    grind

/-- A connection whose acceleration has failed may be given up. -/
theorem notice_quiet (h : conn.Consistent (own + rest)) {mode : Mode}
    (isMode : conn.accelMode = mode) :
    conn.Quiet (own + rest) conn (own.notice mode + rest) := by
  obtain ⟨refs, accel, decel, defunct, doomed⟩ := h
  unfold Duties.notice
  split
  · rename_i failed
    rw [← isMode] at failed
    refine ⟨⟨⟨?_, ?_, ?_, ?_, fun _ => Or.inl failed.1⟩, rfl, id, ?_⟩, rfl, ?_, rfl, ?_⟩ <;>
      simp_all [Connection.load, Connection.leaving]
  · exact (Connection.Similar.refl conn).quiet ⟨refs, accel, decel, defunct, doomed⟩

/-- A connection that is not accelerated becomes defunct. -/
theorem failsDefunct_quiet {owed : Duties} (h : conn.Consistent owed)
    (isDecel : conn.accelMode = .decel) :
    conn.Quiet owed { conn with isDefunct := true, accelMode := .failDefunct } owed := by
  obtain ⟨refs, accel, decel, defunct, doomed⟩ := h
  simp only [Connection.pending, isDecel] at accel decel doomed
  refine ⟨⟨⟨refs, ?_, ?_, fun _ => rfl, fun _ => Or.inl rfl⟩, rfl, fun _ => rfl,
    fun _ => ⟨le_rfl, le_rfl⟩⟩, rfl, ?_, ?_, rfl⟩ <;>
    simp [isDecel, Connection.load, Connection.pending, Mode.Carries] <;> grind

/-- A destroy command could not be sent, and the connection stays accelerated. -/
theorem reverts_quiet (h : conn.Consistent (own + rest))
    (rights : 0 < own .decel ∨ 0 < own .defunct) (driverFail : BitVec 32) :
    conn.Quiet (own + rest)
      { conn with
        driverFail := driverFail, accelMode := .accel, isDefunct := false
        destroyFailHandlePending := true }
      (own.endDecel false + rest) := by
  obtain ⟨refs, accel, decel, defunct, doomed⟩ := h
  have isPending : conn.accelMode = .decelPending := by
    by_contra other
    simp only [Pi.add_apply, if_neg other] at decel
    omega
  simp only [Connection.pending, isPending, Pi.add_apply, Mode.failed]
    at refs accel decel defunct doomed
  refine ⟨⟨⟨?_, ?_, ?_, ?_, ?_⟩, rfl, ?_, ?_⟩, rfl, ?_, ?_, ?_⟩ <;>
    simp [isPending, Connection.load, Connection.pending, Connection.leaving, Mode.Carries,
      Mode.failed,
      Duties.endDecel, Duties.settleDecel] <;>
    grind [Duties.settle_apply]

/-- A create command is sent, with a reference. -/
theorem createSent_quiet (h : conn.Consistent (own + rest))
    (rights : 0 < own .accel ∧ 0 < own .ref) :
    conn.Quiet (own + rest) { conn with creates := conn.creates + 1 }
      ((own.settle .accel).settle .ref + rest) := by
  obtain ⟨refs, accel, decel, defunct, doomed⟩ := h
  simp only [Pi.add_apply] at refs accel decel defunct doomed
  refine ⟨⟨⟨?_, ?_, ?_, ?_, ?_⟩, rfl, id, ?_⟩, rfl, ?_, rfl, ?_⟩ <;>
    simp [Connection.load, Connection.leaving] <;>
    grind [Connection.pending]

/-- A destroy command is sent, with a reference. -/
theorem destroySent_quiet (h : conn.Consistent (own + rest))
    (rights : (0 < own .decel ∨ 0 < own .defunct) ∧ 0 < own .ref ∧ 0 < own .sending) :
    conn.Quiet (own + rest) { conn with destroys := conn.destroys + 1 }
      (((own.endDecel true).settle .ref).settle .sending + rest) := by
  obtain ⟨refs, accel, decel, defunct, doomed⟩ := h
  have isPending : conn.accelMode = .decelPending := by
    by_contra other
    simp only [Pi.add_apply, if_neg other] at decel
    omega
  simp only [Connection.pending, isPending, Pi.add_apply, Mode.failed]
    at refs accel decel defunct doomed
  refine ⟨⟨⟨?_, ?_, ?_, ?_, ?_⟩, rfl, ?_, ?_⟩, rfl, ?_, ?_, ?_⟩ <;>
    simp [isPending, Connection.load, Connection.pending, Connection.leaving, Mode.Carries,
      Mode.failed,
      Duties.endDecel, Duties.settleDecel] <;>
    grind [Duties.settle_apply, Duties.give_apply]

/-- The acceleration ends with the answer to a destroy command. -/
theorem answered_quiet (h : conn.Consistent (own + rest)) (rights : 0 < own .answered) {mode : Mode}
    (isMode : mode = .decel ∨ mode.failed = true) (defunctFails : conn.isDefunct = true →
        mode.failed = true) :
    conn.Quiet (own + rest) { conn with accelMode := mode }
        ((own.settle .answered).give .ended + rest) := by
  obtain ⟨refs, accel, decel, defunct, doomed⟩ := h
  have isPending : conn.accelMode = .decelPending := by
    by_contra other
    simp only [Pi.add_apply, if_neg other] at decel
    omega
  simp only [Connection.pending, isPending, Pi.add_apply, Mode.failed]
    at refs accel decel defunct doomed
  have waits : mode ≠ .accelPending ∧ mode ≠ .decelPending ∧ ¬mode.Carries := by
    cases mode <;> simp_all [Mode.failed, Mode.Carries]
  refine ⟨⟨⟨?_, ?_, ?_, ?_, ?_⟩, rfl, ?_, ?_⟩, rfl, ?_, ?_, ?_⟩ <;>
    simp [isPending, waits, Connection.load, Connection.pending, Connection.leaving,
        Mode.Carries] <;>
    grind [Mode.failed]

/-- The accelerator has ended the acceleration by itself. -/
theorem ceased_quiet (h : conn.Consistent (own + rest)) (rights : 0 < own .ref)
    (isAccel : conn.accelMode = .accel) {mode : Mode}
    (isMode : mode = .decel ∨ mode.failed = true) :
    conn.Quiet (own + rest) { conn with accelMode := mode }
        ((own.settle .ref).give .ended + rest) := by
  obtain ⟨refs, accel, decel, defunct, doomed⟩ := h
  simp only [Connection.pending, isAccel, Pi.add_apply, Mode.failed]
    at refs accel decel defunct doomed
  have waits : mode ≠ .accelPending ∧ mode ≠ .decelPending ∧ ¬mode.Carries := by
    cases mode <;> simp_all [Mode.failed, Mode.Carries]
  refine ⟨⟨⟨?_, ?_, ?_, ?_, ?_⟩, rfl, ?_, ?_⟩, rfl, ?_, ?_, ?_⟩ <;>
    simp [isAccel, waits, Connection.load, Connection.pending, Connection.leaving, Mode.Carries] <;>
    grind [Mode.failed]

/-- The number of references changes with what is owed of them. -/
theorem refs_moves (h : conn.Consistent (own + rest)) {own' : Duties} {refs : Int}
    (isRefs : refs + own .ref = conn.refs + own' .ref)
    (same : ∀ duty, duty ≠ .ref → own' duty = own duty) :
    conn.Moves (own + rest) { conn with refs := refs } (own' + rest) := by
  obtain ⟨refsEq, accel, decel, defunct, doomed⟩ := h
  simp only [Pi.add_apply] at refsEq accel decel defunct doomed
  have accelSame := same .accel (by decide)
  have decelSame := same .decel (by decide)
  have defunctSame := same .defunct (by decide)
  have doomedSame := same .doomed (by decide)
  have answeredSame := same .answered (by decide)
  have endedSame := same .ended (by decide)
  have sendingSame := same .sending (by decide)
  refine ⟨⟨?_, ?_, ?_, ?_, ?_⟩, rfl, id, ?_⟩ <;> simp only [Pi.add_apply] <;>
    grind [Connection.pending]

/-- The reference of the timer is released. -/
theorem timerDeref_moves (h : conn.Consistent (own + rest)) (rights : 0 < own .doomed)
    (held : conn.timerRef = true) :
    conn.Moves (own + rest) { conn with timerRef := false, refs := conn.refs - 1 }
      (own.settle .doomed + rest) := by
  obtain ⟨refs, accel, decel, defunct, doomed⟩ := h
  simp only [Pi.add_apply, held] at refs accel decel defunct doomed
  refine ⟨⟨?_, ?_, ?_, ?_, ?_⟩, rfl, id, ?_⟩ <;> simp <;> grind [Connection.pending]

/-- The answer to a create command is received, and its reference with it. -/
theorem createReceived_moves (h : conn.Consistent (own + rest)) (sent : 0 < conn.creates) :
    conn.Moves (own + rest) { conn with creates := conn.creates - 1, refs := conn.refs + 1 }
      (((own.give .accel).give .ref).give .ref + rest) := by
  obtain ⟨refs, accel, decel, defunct, doomed⟩ := h
  simp only [Pi.add_apply] at refs accel decel defunct doomed
  refine ⟨⟨?_, ?_, ?_, ?_, ?_⟩, rfl, id, ?_⟩ <;> simp <;> grind [Connection.pending]

/-- The answer to a destroy command is received, and its reference with it. -/
theorem destroyReceived_moves (h : conn.Consistent (own + rest)) (sent : 0 < conn.destroys) :
    conn.Moves (own + rest) { conn with destroys := conn.destroys - 1, refs := conn.refs + 1 }
      (((own.give .answered).give .ref).give .sending + rest) := by
  obtain ⟨refs, accel, decel, defunct, doomed⟩ := h
  simp only [Pi.add_apply] at refs accel decel defunct doomed
  have isPending : conn.accelMode = .decelPending := by
    by_contra other
    rw [if_neg other] at decel
    omega
  refine ⟨⟨?_, ?_, ?_, ?_, ?_⟩, rfl, id, ?_⟩ <;> simp <;> grind [Connection.pending, Mode.failed]

/-- The acceleration is pending. -/
theorem waits_moves (h : conn.Consistent (own + rest)) (isDecel : conn.accelMode = .decel) :
    conn.Moves (own + rest) { conn with accelMode := .accelPending } (own.give .accel + rest) := by
  obtain ⟨refs, accel, decel, defunct, doomed⟩ := h
  simp only [Connection.pending, isDecel, Pi.add_apply, Mode.failed]
    at refs accel decel defunct doomed
  refine ⟨⟨?_, ?_, ?_, ?_, ?_⟩, rfl, ?_, ?_⟩ <;> simp [isDecel, Connection.pending, Mode.failed] <;>
    grind

/-- The acceleration is no longer pending. -/
theorem cleared_moves (h : conn.Consistent (own + rest)) (rights : 0 < own .accel)
    (cleared : conn.Cleared conn') :
    conn.accelMode = .accelPending ∧ conn'.accelMode ≠ .accelPending ∧
      conn.Moves (own + rest) conn' (own.settle .accel + rest) := by
  obtain ⟨refsEq, accel, decel, defunct, doomed⟩ := h
  obtain ⟨proto, refs, timerRef, creates, destroys, isMode⟩ := cleared
  have waits : conn.accelMode = .accelPending := by
    by_contra other
    simp only [Pi.add_apply, Connection.pending, if_neg other] at accel
    omega
  simp only [Connection.pending, waits, Pi.add_apply, Mode.failed]
    at refsEq accel decel defunct doomed
  have isOther : conn'.accelMode ≠ .accelPending ∧ conn'.accelMode ≠ .decelPending := by
    rcases isMode with decel | accel | failed
    · simp [decel]
    · simp [accel]
    · constructor <;> intro same <;> rw [same] at failed <;> cases failed
  refine ⟨waits, isOther.1, ⟨?_, ?_, ?_, ?_, ?_⟩, proto, ?_, ?_⟩ <;>
    simp [waits, isOther, Connection.pending, refs, timerRef, creates, destroys] <;>
    grind [Mode.failed]

/-- A command is about to be sent, and is counted. -/
theorem counts_moves (h : conn.Consistent (own + rest))
    (rights : 0 < own .decel ∨ 0 < own .defunct) :
    conn.Moves (own + rest) conn (own.give .sending + rest) := by
  obtain ⟨refs, accel, decel, defunct, doomed⟩ := h
  simp only [Pi.add_apply] at refs accel decel defunct doomed
  have isPending : conn.accelMode = .decelPending := by
    by_contra other
    rw [if_neg other] at decel
    omega
  refine ⟨⟨?_, ?_, ?_, ?_, ?_⟩, rfl, id, ?_⟩ <;> simp <;> grind [Mode.failed]

/-- A command that is not there is no longer counted. -/
theorem uncounts_moves (h : conn.Consistent (own + rest)) :
    conn.Moves (own + rest) conn (own.settle .sending + rest) := by
  obtain ⟨refs, accel, decel, defunct, doomed⟩ := h
  simp only [Pi.add_apply] at refs accel decel defunct doomed
  refine ⟨⟨?_, ?_, ?_, ?_, ?_⟩, rfl, id, ?_⟩ <;> simp <;> grind

/-- An acceleration that has ended is counted down. -/
theorem ends_moves (h : conn.Consistent (own + rest)) (rights : 0 < own .ended) :
    conn.Moves (own + rest) conn ((own.settle .ended).give .ref + rest) := by
  obtain ⟨refs, accel, decel, defunct, doomed⟩ := h
  simp only [Pi.add_apply] at refs accel decel defunct doomed
  refine ⟨⟨?_, ?_, ?_, ?_, ?_⟩, rfl, id, ?_⟩ <;> simp <;> grind

/-- A handler with an answer to a destroy command finds the connection waiting for it. -/
theorem waits_of_answered (h : conn.Consistent (own + rest)) (rights : 0 < own .answered) :
    conn.accelMode = .decelPending := by
  have decel := h.decel
  by_contra other
  simp only [Pi.add_apply, if_neg other] at decel
  omega

/-- The timer is left to somebody else. -/
theorem relents_quiet (h : conn.Consistent (own + rest)) (timer : Bool) :
    conn.Quiet (own + rest) { conn with timer := timer } (own.settle .doomed + rest) := by
  obtain ⟨refs, accel, decel, defunct, doomed⟩ := h
  simp only [Pi.add_apply] at refs accel decel defunct doomed
  refine ⟨⟨⟨?_, ?_, ?_, ?_, ?_⟩, rfl, id, ?_⟩, rfl, ?_, rfl, ?_⟩ <;>
    simp [Connection.load, Connection.leaving] <;> grind [Connection.pending]

end Calls

end Qsdk.Ecm
