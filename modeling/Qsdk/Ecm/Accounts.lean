/-
**What the counters and the references of the front end amount to.**

At every point, relative to what the handlers owe, each counter is a sum over the connections
(`Accounts`). A call moves one connection, so a sum moves by what that connection adds to it
(`Accounts.change`), and what is left to show of a call is about that connection alone.
-/

import Qsdk.Ecm.Moves
import Mathlib.Algebra.BigOperators.Ring.Finset
import Mathlib.Data.Fintype.Basic

namespace Qsdk.Ecm

/-! ### All connections -/

/-- The counters and the connections agree with what the handlers owe. `all` are the connections
that were there in the beginning. -/
structure Accounts (limits : Limits) (all : Finset Conn) (owed : Conn → Duties) (state : State) :
    Prop where
  exist : ∀ c, c ∈ state.conns ↔ 0 < (state.conn c).refs
  consistent : ∀ c, (state.conn c).Consistent (owed c)
  outside : ∀ c, c ∉ all →
    (state.conn c).accelMode.failed = true ∧ owed c .ended = 0 ∧ owed c .sending = 0
  accelerated : state.counters.accelerated = (∑ c ∈ all, (state.conn c).load (owed c) : Nat)
  ported : ∀ proto, state.counters.ported proto =
    (∑ c ∈ all, if (state.conn c).proto = proto then (state.conn c).load (owed c) else 0 : Nat)
  pendingAccel : state.counters.pendingAccel = (∑ c ∈ all, (state.conn c).pending : Nat)
  pendingDecel : state.counters.pendingDecel = (∑ c ∈ all, (state.conn c).leaving (owed c) : Nat)
  limit : limits.fixed = true →
    state.counters.pendingAccel + state.counters.accelerated ≤ limits.maxConnCount

section Change

variable {limits : Limits} {all : Finset Conn} {owed : Conn → Duties} {state : State}

/-- One connection changes, and a sum changes by what it adds. -/
theorem sum_change (all : Finset Conn) (owed : Conn → Duties)
    (connOf : Conn → Connection) {c : Conn} (conn : Connection) (own : Duties)
    (f : Connection → Duties → Nat) (outside : c ∉ all → f (connOf c) (owed c) = f conn own) :
    (∑ other ∈ all, f (Function.update connOf c conn other) (Function.update owed c own other)) +
        f (connOf c) (owed c) =
      (∑ other ∈ all, f (connOf other) (owed other)) + f conn own := by
  have same : ∀ other ∈ all.erase c,
      f (Function.update connOf c conn other) (Function.update owed c own other) =
        f (connOf other) (owed other) := by
    intro other member
    rw [Function.update_of_ne (Finset.ne_of_mem_erase member),
      Function.update_of_ne (Finset.ne_of_mem_erase member)]
  by_cases member : c ∈ all
  · rw [← Finset.add_sum_erase _ _ member, ← Finset.add_sum_erase all _ member,
      Finset.sum_congr rfl same, Function.update_self, Function.update_self]
    omega
  · rw [Finset.erase_eq_of_notMem member] at same
    rw [Finset.sum_congr rfl same, outside member]

/-- **One connection changes**, and the counters by what it adds to them. -/
theorem Accounts.change (accounts : Accounts limits all owed state) {c : Conn} {conn : Connection}
    {own : Duties} {conns : Finset Conn} {counters : Counters} (consistent : conn.Consistent own)
    (outside : c ∉ all → conn.accelMode.failed = true ∧ own .ended = 0 ∧ own .sending = 0)
    (proto : conn.proto = (state.conn c).proto) (exist : c ∈ conns ↔ 0 < conn.refs)
    (others : ∀ other, other ≠ c → (other ∈ conns ↔ other ∈ state.conns))
    (accelerated : counters.accelerated + (state.conn c).load (owed c) =
      state.counters.accelerated + conn.load own)
    (ported : ∀ proto, counters.ported proto +
        (if conn.proto = proto then (state.conn c).load (owed c) else 0 : Nat) =
      state.counters.ported proto + (if conn.proto = proto then conn.load own else 0 : Nat))
    (pendingAccel : counters.pendingAccel + (state.conn c).pending =
      state.counters.pendingAccel + conn.pending)
    (pendingDecel : counters.pendingDecel + (state.conn c).leaving (owed c) =
      state.counters.pendingDecel + conn.leaving own)
    (limit : limits.fixed = true →
      counters.pendingAccel + counters.accelerated ≤ limits.maxConnCount) :
    Accounts limits all (Function.update owed c own)
      ⟨conns, Function.update state.conn c conn, counters⟩ := by
  have parked : ∀ {conn : Connection} {owed : Duties}, conn.accelMode.failed = true →
      conn.Consistent owed → owed .ended = 0 → owed .sending = 0 →
      conn.load owed = 0 ∧ conn.pending = 0 ∧ conn.leaving owed = 0 := by
    intro conn owed failed consistent ended sending
    have decel := consistent.decel
    have notPending : conn.accelMode ≠ .decelPending := by
      intro pending
      rw [pending] at failed
      cases failed
    rw [if_neg notPending] at decel
    refine ⟨?_, ?_, ?_⟩
    · rw [Connection.load, if_neg, ended]
      rintro (accel | pending)
      · rw [accel] at failed
        cases failed
      · exact notPending pending
    · rw [Connection.pending, if_neg]
      intro pending
      rw [pending] at failed
      cases failed
    · rw [Connection.leaving, sending]
      omega
  have still : c ∉ all → ((state.conn c).load (owed c) = 0 ∧ (state.conn c).pending = 0 ∧
      (state.conn c).leaving (owed c) = 0) ∧
      (conn.load own = 0 ∧ conn.pending = 0 ∧ conn.leaving own = 0) := by
    intro away
    obtain ⟨failed, ended, sending⟩ := accounts.outside c away
    obtain ⟨failed', ended', sending'⟩ := outside away
    exact ⟨parked failed (accounts.consistent c) ended sending,
      parked failed' consistent ended' sending'⟩
  constructor
  · intro other
    dsimp only
    by_cases same : other = c
    · subst same
      rw [Function.update_self]
      exact exist
    · rw [Function.update_of_ne same]
      exact (others other same).trans (accounts.exist other)
  · intro other
    dsimp only
    by_cases same : other = c
    · subst same
      rw [Function.update_self, Function.update_self]
      exact consistent
    · rw [Function.update_of_ne same, Function.update_of_ne same]
      exact accounts.consistent other
  · intro other away
    dsimp only
    by_cases same : other = c
    · subst same
      rw [Function.update_self, Function.update_self]
      exact outside away
    · rw [Function.update_of_ne same, Function.update_of_ne same]
      exact accounts.outside other away
  · have sum := sum_change all owed state.conn conn own Connection.load fun away =>
      (still away).1.1.trans (still away).2.1.symm
    have before := accounts.accelerated
    dsimp only
    omega
  · intro proto'
    have sum := sum_change all owed state.conn conn own
      (fun conn own => if conn.proto = proto' then conn.load own else 0)
      fun away => by rw [(still away).1.1, (still away).2.1, ite_self, ite_self]
    have before := accounts.ported proto'
    have moved := ported proto'
    dsimp only at sum ⊢
    rw [proto] at moved sum
    omega
  · have sum := sum_change all owed state.conn conn own (fun conn _ => conn.pending)
      fun away => (still away).1.2.1.trans (still away).2.2.1.symm
    have before := accounts.pendingAccel
    dsimp only
    omega
  · have sum := sum_change all owed state.conn conn own Connection.leaving fun away =>
      (still away).1.2.2.trans (still away).2.2.2.symm
    have before := accounts.pendingDecel
    dsimp only
    omega
  · exact limit

/-- A connection moves, and the references to it say whether it still exists. -/
theorem Accounts.move (accounts : Accounts limits all owed state) {c : Conn} {conn : Connection}
    {own : Duties} {conns : Finset Conn} {counters : Counters}
    (moves : (state.conn c).Moves (owed c) conn own) (exist : c ∈ conns ↔ 0 < conn.refs)
    (others : ∀ other, other ≠ c → (other ∈ conns ↔ other ∈ state.conns))
    (accelerated : counters.accelerated + (state.conn c).load (owed c) =
      state.counters.accelerated + conn.load own)
    (ported : ∀ proto, counters.ported proto +
        (if (state.conn c).proto = proto then (state.conn c).load (owed c) else 0 : Nat) =
      state.counters.ported proto +
      (if (state.conn c).proto = proto then conn.load own else 0 : Nat))
    (pendingAccel : counters.pendingAccel + (state.conn c).pending =
      state.counters.pendingAccel + conn.pending)
    (pendingDecel : counters.pendingDecel + (state.conn c).leaving (owed c) =
      state.counters.pendingDecel + conn.leaving own)
    (limit : limits.fixed = true →
      counters.pendingAccel + counters.accelerated ≤ limits.maxConnCount) :
    Accounts limits all (Function.update owed c own)
      ⟨conns, Function.update state.conn c conn, counters⟩ := by
  refine accounts.change moves.consistent (fun away => ?_) moves.proto exist others accelerated ?_
    pendingAccel pendingDecel limit
  · obtain ⟨failed, ended, sending⟩ := accounts.outside c away
    have parked := moves.parked failed
    exact ⟨moves.failed failed, by omega, by omega⟩
  · rw [moves.proto]
    exact ported

/-- A connection moves, and nothing that is counted changes. -/
theorem Accounts.quiet (accounts : Accounts limits all owed state) {c : Conn} {conn : Connection}
    {own : Duties} (quiet : (state.conn c).Quiet (owed c) conn own) :
    Accounts limits all (Function.update owed c own)
      { state with conn := Function.update state.conn c conn } := by
  refine accounts.move quiet.toMoves ?_ (fun _ _ => Iff.rfl) ?_
    (fun proto => ?_) ?_ ?_ accounts.limit
  · rw [quiet.refs]
    exact accounts.exist c
  · rw [quiet.load]
  · rw [quiet.load]
  · rw [quiet.pending]
  · rw [quiet.leaving]

/-- What is owed changes, and the connection with its counters does not notice. -/
theorem Accounts.still (accounts : Accounts limits all owed state) {c : Conn} {own : Duties}
    (quiet : (state.conn c).Quiet (owed c) (state.conn c) own) :
    Accounts limits all (Function.update owed c own) state := by
  have quiet' := accounts.quiet quiet
  rw [Function.update_eq_self] at quiet'
  exact quiet'

/-- A connection that exists has one reference more. -/
theorem Accounts.taken (accounts : Accounts limits all owed state) {c : Conn} {conn : Connection}
    {own : Duties} (moves : (state.conn c).Moves (owed c) conn own) (exists_ : c ∈ state.conns)
    (refs : conn.refs = (state.conn c).refs + 1)
    (load : conn.load own = (state.conn c).load (owed c))
    (pending : conn.pending = (state.conn c).pending)
    (leaving : conn.leaving own = (state.conn c).leaving (owed c)) :
    Accounts limits all (Function.update owed c own)
      { state with conn := Function.update state.conn c conn } := by
  have before := (accounts.exist c).mp exists_
  refine accounts.move moves ⟨fun _ => by omega, fun _ => exists_⟩ (fun _ _ => Iff.rfl) ?_
    (fun proto => ?_) ?_ ?_ accounts.limit
  · rw [load]
  · rw [load]
  · rw [pending]
  · rw [leaving]

/-- A connection has one reference less. -/
theorem Accounts.dropped (accounts : Accounts limits all owed state) {c : Conn} {conn : Connection}
    {own : Duties} (moves : (state.conn c).Moves (owed c) conn own)
    (refs : conn.refs = (state.conn c).refs - 1)
    (load : conn.load own = (state.conn c).load (owed c))
    (pending : conn.pending = (state.conn c).pending)
    (leaving : conn.leaving own = (state.conn c).leaving (owed c)) :
    Accounts limits all (Function.update owed c own)
      { state with
        conns := if 0 < conn.refs then state.conns else state.conns.erase c
        conn := Function.update state.conn c conn } := by
  refine accounts.move moves ?_ (fun other ne => ?_) ?_ (fun proto => ?_) ?_ ?_ accounts.limit
  · have before := accounts.exist c
    split
    · rename_i stays
      exact ⟨fun _ => stays, fun _ => before.mpr (by omega)⟩
    · rename_i goes
      exact ⟨fun member => absurd rfl (Finset.ne_of_mem_erase member), fun stays =>
        absurd stays goes⟩
  · split
    · exact Iff.rfl
    · rw [Finset.mem_erase]
      exact ⟨fun member => member.2, fun member => ⟨ne, member⟩⟩
  · rw [load]
  · rw [load]
  · rw [pending]
  · rw [leaving]

end Change

/-! ### Calls -/

/-- **The calls that keep the accounts.** A destroy command is not refused so often that the
acceleration is given up, and the reference of a timer is not released twice. -/
def accountingFit : EcmOp → State → Prop
  | .destroyFailed c, state => ¬(state.conn c).driverFailLimit ≤ (state.conn c).driverFail + 1
  | .timerDeref c, state => (state.conn c).timerRef = true
  | _, _ => True

instance : ∀ (op : EcmOp) (state : State), Decidable (accountingFit op state)
  | .destroyFailed c, state =>
      inferInstanceAs (Decidable ¬(state.conn c).driverFailLimit ≤ (state.conn c).driverFail + 1)
  | .timerDeref c, state => inferInstanceAs (Decidable ((state.conn c).timerRef = true))
  | .ask _ _, _ | .findAndRef _, _ | .ref _, _ | .deref _, _ | .pendingSet _,
    _ | .pendingClear _ _, _
  | .txCreate _, _ | .txSent _, _ | .createTxFailed _, _ | .receiveCreate _,
    _ | .createAnswer _ _, _
  | .decelerateStart _, _ | .defunctStart _, _ | .pendingDecelInc _, _ | .pendingDecelDec _, _
  | .txDestroy _, _ | .timerSet _, _ | .destroyFailHandled _, _ | .receiveDestroy _, _
  | .destroyAnswer _ _, _ | .accelCeasedStart _, _ | .accelerationEnds _, _ | .actionSeen _, _
  | .accelMode _, _ | .timerExpire _, _ | .timerRemove _, _ => .isTrue trivial

theorem State.deref_eq (state : State) (c : Conn) :
    state.deref c =
      { state with
        conns := if 0 < (state.conn c).refs - 1 then state.conns else state.conns.erase c
        conn := Function.update state.conn c
          { state.conn c with refs := (state.conn c).refs - 1 } } := by
  unfold State.deref State.modify State.locked
  simp only [Function.update_self]
  split <;> rfl

section Calls

variable {limits : Limits} {all : Finset Conn} {own rest : Conn → Duties} {state after : State}

/-- What all handlers owe after a call of one of them. -/
theorem allDuties_after (op : EcmOp) (res : op.Res) :
    allDuties.after op own res + rest =
      Function.update (own + rest) op.conn (op.owes (own op.conn) res + rest op.conn) := by
  funext other
  by_cases same : other = op.conn
  · subst same
    rw [Function.update_self]
    show Function.update own op.conn _ op.conn + rest op.conn = _
    rw [Function.update_self]
    rfl
  · rw [Function.update_of_ne same]
    show Function.update own op.conn _ other + rest other = _
    rw [Function.update_of_ne same]
    rfl

section Parts

variable (accounts : Accounts limits all (own + rest) state) {c : Conn}

include accounts

/-- A handler takes a reference. -/
theorem Accounts.ref (exists_ : c ∈ state.conns) :
    Accounts limits all (Function.update (own + rest) c ((own c).give .ref + rest c))
        (state.ref c) := by
  have h := accounts.consistent c
  refine accounts.taken (refs_moves h (by simp; omega) fun duty ne => by simp [ne]) exists_
    rfl ?_ rfl ?_
  · simp [Connection.load]
  · simp [Connection.leaving]

/-- A handler releases a reference. -/
theorem Accounts.deref (owns : 0 < own c .ref) :
    Accounts limits all (Function.update (own + rest) c ((own c).settle .ref + rest c))
      (state.deref c) := by
  have h := accounts.consistent c
  rw [State.deref_eq]
  refine accounts.dropped (refs_moves h ?_ fun duty ne => by simp [ne]) rfl ?_ rfl ?_
  · simp only [Duties.settle_apply, if_true]
    omega
  · simp [Connection.load]
  · simp [Connection.leaving]

/-- The reference of the timer is released. -/
theorem Accounts.timerDeref (owns : 0 < own c .doomed) (held : (state.conn c).timerRef = true) :
    Accounts limits all (Function.update (own + rest) c ((own c).settle .doomed + rest c))
      ((state.modify c fun conn => { conn with timerRef := false }).deref c) := by
  have h := accounts.consistent c
  rw [State.deref_eq]
  unfold State.modify State.locked
  simp only [Function.update_self, Function.update_idem]
  refine accounts.dropped (timerDeref_moves h owns held) rfl ?_ rfl ?_
  · simp [Connection.load]
  · simp [Connection.leaving]

/-- Nothing changes that the accounts are about. -/
theorem Accounts.similar {conn : Connection} (similar : (state.conn c).Similar conn) :
    Accounts limits all (Function.update (own + rest) c (own c + rest c))
      { state with conn := Function.update state.conn c conn } :=
  accounts.quiet (similar.quiet (accounts.consistent c))

/-- The acceleration becomes pending. -/
theorem Accounts.waits (isDecel : (state.conn c).accelMode = .decel)
    (room : limits.fixed = true →
      state.counters.pendingAccel + state.counters.accelerated < limits.maxConnCount) :
    Accounts limits all (Function.update (own + rest) c ((own c).give .accel + rest c))
      { state with
        conn := Function.update state.conn c { state.conn c with accelMode := .accelPending }
        counters := { state.counters with pendingAccel := state.counters.pendingAccel + 1 } } := by
  have h := accounts.consistent c
  have same : { state.conn c with accelMode := .accelPending }.load ((own c).give .accel + rest c) =
      (state.conn c).load ((own + rest) c) := by
    simp [Connection.load, Mode.Carries, isDecel]
  refine accounts.move (waits_moves h isDecel) (accounts.exist c) (fun _ _ => Iff.rfl) ?_
    (fun proto => ?_) ?_ ?_ fun fixed => ?_
  · rw [same]
  · rw [same]
  · simp [Connection.pending, isDecel]
  · simp [Connection.leaving]
  · have room := room fixed
    dsimp only
    omega

/-- The acceleration becomes pending, if there is room for it. -/
theorem Accounts.pendingSet :
    Accounts limits all
      (Function.update (own + rest) c
        (EcmOp.owes (own c) (.pendingSet c) (state.lockedBoth c (accelPendingSet limits)).1 +
          rest c))
      (state.lockedBoth c (accelPendingSet limits)).2 := by
  unfold State.lockedBoth
  rcases accelPendingSet_cases (state.conn c) limits state.counters
    with refused | ⟨isDecel, room, isNext⟩
  · rw [refused]
    exact accounts.similar (Connection.Similar.refl _)
  · rw [isNext]
    exact accounts.waits isDecel room

/-- The acceleration is no longer pending, and did not come about. -/
theorem Accounts.cleared (owns : 0 < own c .accel) {conn : Connection}
    (cleared : (state.conn c).Cleared conn) (parked : ¬conn.accelMode.Carries) :
    Accounts limits all (Function.update (own + rest) c ((own c).settle .accel + rest c))
      { state with
        conn := Function.update state.conn c conn
        counters := { state.counters with pendingAccel := state.counters.pendingAccel - 1 } } := by
  have h := accounts.consistent c
  obtain ⟨waits, isOver, moves⟩ := cleared_moves h owns cleared
  have same : conn.load ((own c).settle .accel + rest c) =
      (state.conn c).load ((own + rest) c) := by
    rw [Connection.load, if_neg parked, Connection.load, waits]
    simp [Mode.Carries]
  refine accounts.move moves ?_ (fun _ _ => Iff.rfl) ?_ (fun proto => ?_) ?_ ?_ fun fixed => ?_
  · rw [cleared.refs]
    exact accounts.exist c
  · rw [same]
  · rw [same]
  · simp only [Connection.pending, waits, isOver, if_true, if_false]
    omega
  · simp [Connection.leaving, cleared.destroys]
  · have limit := accounts.limit fixed
    dsimp only
    omega

/-- The connection is accelerated. -/
theorem Accounts.accelerated_ (owns : 0 < own c .accel) {conn : Connection}
    (cleared : (state.conn c).Cleared conn) (carries : conn.accelMode.Carries) :
    Accounts limits all (Function.update (own + rest) c ((own c).settle .accel + rest c))
      { state with
        conn := Function.update state.conn c conn
        counters := { state.counters with
          pendingAccel := state.counters.pendingAccel - 1
          accelerated := state.counters.accelerated + 1
          ported := Function.update state.counters.ported (state.conn c).proto
            (state.counters.ported (state.conn c).proto + 1) } } := by
  have h := accounts.consistent c
  obtain ⟨waits, isOver, moves⟩ := cleared_moves h owns cleared
  have more : conn.load ((own c).settle .accel + rest c) =
      (state.conn c).load ((own + rest) c) + 1 := by
    rw [Connection.load, if_pos carries, Connection.load, waits]
    simp [Mode.Carries]
    omega
  refine accounts.move moves ?_ (fun _ _ => Iff.rfl) ?_ (fun proto => ?_) ?_ ?_ fun fixed => ?_
  · rw [cleared.refs]
    exact accounts.exist c
  · rw [more]
    dsimp only
    omega
  · rw [more]
    dsimp only
    by_cases isProto : (state.conn c).proto = proto
    · subst isProto
      simp only [Function.update_self, if_true]
      omega
    · rw [Function.update_of_ne (Ne.symm isProto), if_neg isProto, if_neg isProto]
  · simp only [Connection.pending, waits, isOver, if_true, if_false]
    omega
  · simp [Connection.leaving, cleared.destroys]
  · have limit := accounts.limit fixed
    dsimp only
    omega

/-- The answer to a command is received: the connection exists, since the command has a
reference. -/
theorem Accounts.received (conn : Connection) {own' : Duties}
    (moves : (state.conn c).Moves ((own + rest) c) { conn with refs := conn.refs + 1 } own')
    (refs : conn.refs = (state.conn c).refs) (pending : conn.pending = (state.conn c).pending)
    (load : conn.load own' = (state.conn c).load ((own + rest) c))
    (leaving : conn.leaving own' = (state.conn c).leaving ((own + rest) c))
    (sent : 0 < (state.conn c).creates ∨ 0 < (state.conn c).destroys) :
    ({ state with conn := Function.update state.conn c conn } : State).findAndRef c =
        (true, { state with
          conn := Function.update state.conn c { conn with refs := conn.refs + 1 } }) ∧
      Accounts limits all (Function.update (own + rest) c own')
        { state with
          conn := Function.update state.conn c { conn with refs := conn.refs + 1 } } := by
  have held := (accounts.consistent c).refs
  have found : c ∈ state.conns := (accounts.exist c).mpr (by omega)
  constructor
  · rw [State.findAndRef, if_pos found]
    unfold State.ref State.modify State.locked
    simp only [Function.update_self, Function.update_idem]
  · exact accounts.taken moves found (by rw [← refs]) load pending leaving

/-- A command that is about to be sent is counted. -/
theorem Accounts.counted (owns : 0 < own c .decel ∨ 0 < own c .defunct) :
    Accounts limits all (Function.update (own + rest) c ((own c).give .sending + rest c))
      { state with
        counters := { state.counters with pendingDecel := state.counters.pendingDecel + 1 } } := by
  have h := accounts.consistent c
  have moved : Accounts limits all (Function.update (own + rest) c ((own c).give .sending + rest c))
      ⟨state.conns, Function.update state.conn c (state.conn c),
        { state.counters with pendingDecel := state.counters.pendingDecel + 1 }⟩ := accounts.move
    (counts_moves h owns) (accounts.exist c) (fun _ _ => Iff.rfl) (by simp [Connection.load])
    (fun proto => by simp [Connection.load]) rfl (by simp [Connection.leaving]; omega)
    accounts.limit
  rw [Function.update_eq_self] at moved
  exact moved

/-- A command that is not there is no longer counted. -/
theorem Accounts.uncounted (owns : 0 < own c .sending) :
    Accounts limits all (Function.update (own + rest) c ((own c).settle .sending + rest c))
      { state with
        counters := { state.counters with pendingDecel := state.counters.pendingDecel - 1 } } := by
  have h := accounts.consistent c
  have moved :
    Accounts limits all (Function.update (own + rest) c ((own c).settle .sending + rest c))
      ⟨state.conns, Function.update state.conn c (state.conn c),
        { state.counters with pendingDecel := state.counters.pendingDecel - 1 }⟩ := accounts.move
    (uncounts_moves h) (accounts.exist c) (fun _ _ => Iff.rfl) (by simp [Connection.load])
    (fun proto => by simp [Connection.load]) rfl (by simp [Connection.leaving]; omega)
    accounts.limit
  rw [Function.update_eq_self] at moved
  exact moved

/-- An acceleration that has ended is counted down. -/
theorem Accounts.ended (owns : 0 < own c .ended) :
    Accounts limits all
    (Function.update (own + rest) c (((own c).settle .ended).give .ref + rest c))
      { state with counters := accelerationEnds (state.conn c).proto state.counters } := by
  have h := accounts.consistent c
  have less : (state.conn c).load (((own c).settle .ended).give .ref + rest c) + 1 =
      (state.conn c).load ((own + rest) c) := by
    simp [Connection.load]
    omega
  have moved : Accounts limits all
      (Function.update (own + rest) c (((own c).settle .ended).give .ref + rest c))
      ⟨state.conns, Function.update state.conn c (state.conn c),
        accelerationEnds (state.conn c).proto state.counters⟩ := by
    refine accounts.move (ends_moves h owns) (accounts.exist c) (fun _ _ => Iff.rfl) ?_
      (fun proto => ?_)
      rfl ?_ fun fixed => ?_
    · rw [← less]
      simp only [accelerationEnds]
      omega
    · rw [← less]
      simp only [accelerationEnds]
      by_cases isProto : (state.conn c).proto = proto
      · subst isProto
        simp only [Function.update_self, if_true]
        omega
      · rw [Function.update_of_ne (Ne.symm isProto), if_neg isProto, if_neg isProto]
    · simp [Connection.leaving, accelerationEnds]
    · have limit := accounts.limit fixed
      simp only [accelerationEnds]
      omega
  rw [Function.update_eq_self] at moved
  exact moved

end Parts

/-- A connection is looked up. -/
theorem Accounts.findAndRef (accounts : Accounts limits all (own + rest) state) {c : Conn}
    {yes : Bool} {res : (EcmOp.findAndRef c).Res}
    (run : (EcmOp.findAndRef c).run limits yes state = some (res, after)) :
    Accounts limits all (allDuties.after (.findAndRef c) own res + rest) after := by
  rw [allDuties_after]
  by_cases found : c ∈ state.conns
  · have isRun : EcmOp.run limits yes (.findAndRef c) state = some (true, state.ref c) := by
      show some (state.findAndRef c) = _
      rw [State.findAndRef, if_pos found]
    rw [isRun] at run
    cases run
    exact accounts.ref found
  · have isRun : EcmOp.run limits yes (.findAndRef c) state = some (false, state) := by
      show some (state.findAndRef c) = _
      rw [State.findAndRef, if_neg found]
    rw [isRun] at run
    cases run
    exact accounts.still ((Connection.Similar.refl _).quiet (accounts.consistent c))

/-- A handler that acts on a connection takes a reference. -/
theorem Accounts.refOfOwner (accounts : Accounts limits all (own + rest) state) {c : Conn}
    {yes : Bool} {res : (EcmOp.ref c).Res}
    (entitled : (EcmOp.ref c).entitled (own c))
    (run : (EcmOp.ref c).run limits yes state = some (res, after)) :
    Accounts limits all (allDuties.after (.ref c) own res + rest) after := by
  rw [allDuties_after]
  cases run
  have rights : 0 < (own c + rest c) .accel ∨ 0 < (own c + rest c) .decel ∨
      0 < (own c + rest c) .defunct := by
    have owns : 0 < own c .accel ∨ 0 < own c .decel ∨ 0 < own c .defunct := entitled
    simp only [Pi.add_apply]
    omega
  exact accounts.ref ((accounts.exist c).mpr ((accounts.consistent c).exists rights))

/-- A create message is answered. -/
theorem Accounts.createAnswered (accounts : Accounts limits all (own + rest) state) {c : Conn}
    {ack : Bool} {yes : Bool} {res : (EcmOp.createAnswer c ack).Res}
    (entitled : (EcmOp.createAnswer c ack).entitled (own c))
    (run : (EcmOp.createAnswer c ack).run limits yes state = some (res, after)) :
    Accounts limits all (allDuties.after (.createAnswer c ack) own res + rest) after := by
  rw [allDuties_after]
  have isRun : EcmOp.run limits yes (.createAnswer c ack) state =
      some ((createAnswer ack state.counters (state.conn c)).1,
        { state with
          counters := (createAnswer ack state.counters (state.conn c)).2.1
          conn := Function.update state.conn c
            (createAnswer ack state.counters (state.conn c)).2.2 }) := rfl
  rw [isRun] at run
  cases run
  obtain ⟨cleared, ⟨counted, parked⟩ | ⟨counted, carries⟩⟩ :=
    createAnswer_cases (state.conn c) ack state.counters
  · rw [counted]
    exact accounts.cleared entitled cleared parked
  · rw [counted]
    exact accounts.accelerated_ entitled cleared carries

/-- The answer to a create message arrives. -/
theorem Accounts.createReceived (accounts : Accounts limits all (own + rest) state) {c : Conn}
    {yes : Bool} {res : (EcmOp.receiveCreate c).Res}
    (run : (EcmOp.receiveCreate c).run limits yes state = some (res, after)) :
    Accounts limits all (allDuties.after (.receiveCreate c) own res + rest) after := by
  rw [allDuties_after]
  by_cases sent : 0 < (state.conn c).creates
  · obtain ⟨found, received⟩ := accounts.received
      { state.conn c with creates := (state.conn c).creates - 1 }
      (createReceived_moves (accounts.consistent c) sent) rfl rfl (by simp [Connection.load])
      (by simp [Connection.leaving]) (Or.inl sent)
    have isRun : EcmOp.run limits yes (.receiveCreate c) state = some (true, _) :=
      (if_pos sent).trans (congrArg some found)
    rw [isRun] at run
    cases run
    exact received
  · have isRun : EcmOp.run limits yes (.receiveCreate c) state = none := if_neg sent
    rw [isRun] at run
    cases run

/-- The answer to a destroy message arrives. -/
theorem Accounts.destroyReceived (accounts : Accounts limits all (own + rest) state) {c : Conn}
    {yes : Bool} {res : (EcmOp.receiveDestroy c).Res}
    (run : (EcmOp.receiveDestroy c).run limits yes state = some (res, after)) :
    Accounts limits all (allDuties.after (.receiveDestroy c) own res + rest) after := by
  rw [allDuties_after]
  by_cases sent : 0 < (state.conn c).destroys
  · obtain ⟨found, received⟩ :=
      accounts.received { state.conn c with destroys := (state.conn c).destroys - 1 }
        (destroyReceived_moves (accounts.consistent c) sent) rfl rfl
        (by simp [Connection.load]) (by simp [Connection.leaving]; omega) (Or.inr sent)
    have isRun : EcmOp.run limits yes (.receiveDestroy c) state = some (true, _) :=
      (if_pos sent).trans (congrArg some found)
    rw [isRun] at run
    cases run
    exact received
  · have isRun : EcmOp.run limits yes (.receiveDestroy c) state = none := if_neg sent
    rw [isRun] at run
    cases run

/-- A connection is to be decelerated. -/
theorem Accounts.decelerationStarted (accounts : Accounts limits all (own + rest) state) {c : Conn}
    {yes : Bool} {res : (EcmOp.decelerateStart c).Res}
    (run : (EcmOp.decelerateStart c).run limits yes state = some (res, after)) :
    Accounts limits all (allDuties.after (.decelerateStart c) own res + rest) after := by
  rw [allDuties_after]
  have isRun : EcmOp.run limits yes (.decelerateStart c) state =
      some ((decelerateStart (state.conn c)).1,
        { state with
          conn := Function.update state.conn c (decelerateStart (state.conn c)).2 }) := rfl
  rw [isRun] at run
  cases run
  rcases decelerateStart_cases (state.conn c) with ⟨refused, similar⟩ | ⟨allowed, isAccel, isNext⟩
  · rw [refused]
    exact accounts.similar similar
  · rw [allowed, isNext]
    exact accounts.quiet (decelerates_quiet (accounts.consistent c) isAccel)

/-- A connection goes defunct. -/
theorem Accounts.defunctStarted (accounts : Accounts limits all (own + rest) state) {c : Conn}
    {yes : Bool} {res : (EcmOp.defunctStart c).Res}
    (run : (EcmOp.defunctStart c).run limits yes state = some (res, after)) :
    Accounts limits all (allDuties.after (.defunctStart c) own res + rest) after := by
  rw [allDuties_after]
  have isRun : EcmOp.run limits yes (.defunctStart c) state =
      some ((defunctStart (state.conn c)).1,
        { state with
          conn := Function.update state.conn c (defunctStart (state.conn c)).2 }) := rfl
  rw [isRun] at run
  cases run
  have h : (state.conn c).Consistent (own c + rest c) := accounts.consistent c
  rcases defunctStart_cases (state.conn c) with
    ⟨isMode, similar⟩ | ⟨isMode, isDecel, isNext⟩ | ⟨allowed, isAccel, isNext⟩
  · rw [isMode]
    have quiet := similar.quiet h
    exact accounts.quiet (quiet.trans (notice_quiet quiet.consistent similar.accelMode))
  · rw [isMode, isNext]
    have quiet := failsDefunct_quiet h isDecel
    exact accounts.quiet (quiet.trans (notice_quiet quiet.consistent rfl))
  · rw [allowed, isNext]
    exact accounts.quiet (becomesDefunct_quiet h isAccel)

/-- A destroy message is answered. -/
theorem Accounts.destroyAnswered (accounts : Accounts limits all (own + rest) state) {c : Conn}
    {ack : Bool} {yes : Bool} {res : (EcmOp.destroyAnswer c ack).Res}
    (entitled : (EcmOp.destroyAnswer c ack).entitled (own c))
    (run : (EcmOp.destroyAnswer c ack).run limits yes state = some (res, after)) :
    Accounts limits all (allDuties.after (.destroyAnswer c ack) own res + rest) after := by
  rw [allDuties_after]
  have isRun : EcmOp.run limits yes (.destroyAnswer c ack) state =
      some ((destroyAnswer ack (state.conn c)).1,
        { state with
          conn := Function.update state.conn c (destroyAnswer ack (state.conn c)).2 }) := rfl
  rw [isRun] at run
  cases run
  rcases destroyAnswer_cases (state.conn c) ack with
    ⟨-, other, -⟩ | ⟨mode, ends, isMode, defunctFails, isNext⟩
  · exact absurd (waits_of_answered (accounts.consistent c) entitled) other
  · rw [ends, isNext]
    exact accounts.quiet (answered_quiet (accounts.consistent c) entitled isMode defunctFails)

/-- The accelerator has ended the acceleration. -/
theorem Accounts.accelCeased (accounts : Accounts limits all (own + rest) state) {c : Conn}
    {yes : Bool} {res : (EcmOp.accelCeasedStart c).Res}
    (entitled : (EcmOp.accelCeasedStart c).entitled (own c))
    (run : (EcmOp.accelCeasedStart c).run limits yes state = some (res, after)) :
    Accounts limits all (allDuties.after (.accelCeasedStart c) own res + rest) after := by
  rw [allDuties_after]
  have isRun : EcmOp.run limits yes (.accelCeasedStart c) state =
      some ((accelCeasedStart (state.conn c)).1,
        { state with
          conn := Function.update state.conn c (accelCeasedStart (state.conn c)).2 }) := rfl
  rw [isRun] at run
  cases run
  rcases accelCeasedStart_cases (state.conn c) with
    ⟨goes, similar⟩ | ⟨mode, ends, isAccel, isMode, isNext⟩
  · rw [goes]
    exact accounts.similar similar
  · rw [ends, isNext]
    exact accounts.quiet (ceased_quiet (accounts.consistent c) entitled isAccel isMode)

/-- A timer runs out. -/
theorem Accounts.timerExpired (accounts : Accounts limits all (own + rest) state) {c : Conn}
    {yes : Bool} {res : (EcmOp.timerExpire c).Res}
    (run : (EcmOp.timerExpire c).run limits yes state = some (res, after)) :
    Accounts limits all (allDuties.after (.timerExpire c) own res + rest) after := by
  rw [allDuties_after]
  by_cases armed : (state.conn c).timer = true
  · have isRun : EcmOp.run limits yes (.timerExpire c) state =
        some ((), state.modify c fun conn => { conn with timer := false }) := if_pos armed
    rw [isRun] at run
    cases run
    exact accounts.similar ⟨rfl, rfl, rfl, rfl, rfl, rfl, id⟩
  · have isRun : EcmOp.run limits yes (.timerExpire c) state = none := if_neg armed
    rw [isRun] at run
    cases run

/-- A timer is taken off. -/
theorem Accounts.timerRemoved (accounts : Accounts limits all (own + rest) state) {c : Conn}
    {yes : Bool} {res : (EcmOp.timerRemove c).Res}
    (run : (EcmOp.timerRemove c).run limits yes state = some (res, after)) :
    Accounts limits all (allDuties.after (.timerRemove c) own res + rest) after := by
  rw [allDuties_after]
  have isRun : EcmOp.run limits yes (.timerRemove c) state =
      some ((state.conn c).timer,
        { state with
          conn := Function.update state.conn c { state.conn c with timer := false } }) := rfl
  rw [isRun] at run
  cases run
  cases (state.conn c).timer with
  | true => exact accounts.similar ⟨rfl, rfl, rfl, rfl, rfl, rfl, id⟩
  | false => exact accounts.quiet (relents_quiet (accounts.consistent c) false)

/-- **One call** keeps the accounts. -/
theorem Accounts.call (accounts : Accounts limits all (own + rest) state) {op : EcmOp} {yes : Bool}
    {res : op.Res} (entitled : op.entitled (own op.conn)) (fit : accountingFit op state)
    (run : op.run limits yes state = some (res, after)) :
    Accounts limits all (allDuties.after op own res + rest) after := by
  cases op with
  | ask c question =>
      rw [allDuties_after]
      cases run
      exact accounts.still ((Connection.Similar.refl _).quiet (accounts.consistent c))
  | findAndRef c => exact accounts.findAndRef run
  | ref c => exact accounts.refOfOwner entitled run
  | deref c =>
      rw [allDuties_after]
      cases run
      exact accounts.deref entitled
  | pendingSet c =>
      rw [allDuties_after]
      cases run
      exact accounts.pendingSet
  | pendingClear c mode =>
      rw [allDuties_after]
      cases run
      obtain ⟨counted, cleared, parked⟩ :=
        accelPendingClear_cleared (state.conn c) entitled.2 state.counters
      exact accounts.cleared entitled.1 cleared parked
  | createTxFailed c =>
      rw [allDuties_after]
      cases run
      obtain ⟨counted, cleared, parked⟩ := createTxFailed_cleared (state.conn c) state.counters
      exact accounts.cleared entitled cleared parked
  | createAnswer c ack => exact accounts.createAnswered entitled run
  | txSent c =>
      rw [allDuties_after]
      cases run
      exact accounts.similar ⟨rfl, rfl, rfl, rfl, rfl, rfl, id⟩
  | timerSet c =>
      rw [allDuties_after]
      cases run
      exact accounts.similar ⟨rfl, rfl, rfl, rfl, rfl, rfl, id⟩
  | destroyFailHandled c =>
      rw [allDuties_after]
      cases run
      exact accounts.similar ⟨rfl, rfl, rfl, rfl, rfl, rfl, id⟩
  | actionSeen c =>
      rw [allDuties_after]
      cases run
      exact accounts.similar ⟨rfl, rfl, rfl, rfl, rfl, rfl, id⟩
  | accelMode c =>
      rw [allDuties_after]
      cases run
      exact accounts.still (notice_quiet (accounts.consistent c) rfl)
  | txCreate c =>
      rw [allDuties_after]
      cases run
      cases yes with
      | false => exact accounts.still ((Connection.Similar.refl _).quiet (accounts.consistent c))
      | true => exact accounts.quiet (createSent_quiet (accounts.consistent c) entitled)
  | txDestroy c =>
      rw [allDuties_after]
      cases run
      cases yes with
      | false => exact accounts.still ((Connection.Similar.refl _).quiet (accounts.consistent c))
      | true => exact accounts.quiet (destroySent_quiet (accounts.consistent c) entitled)
  | receiveCreate c => exact accounts.createReceived run
  | receiveDestroy c => exact accounts.destroyReceived run
  | decelerateStart c => exact accounts.decelerationStarted run
  | defunctStart c => exact accounts.defunctStarted run
  | pendingDecelInc c =>
      rw [allDuties_after]
      cases run
      exact accounts.counted entitled.1
  | pendingDecelDec c =>
      rw [allDuties_after]
      cases run
      exact accounts.uncounted entitled
  | destroyFailed c =>
      rw [allDuties_after]
      have isRun : EcmOp.run limits yes (.destroyFailed c) state =
          some ((destroyFailed (state.conn c)).1,
            { state with conn := Function.update state.conn c (destroyFailed (state.conn c)).2 }) :=
            rfl
      rw [isRun, destroyFailed_of_below (state.conn c) fit] at run
      cases run
      exact accounts.quiet (reverts_quiet (accounts.consistent c) entitled _)
  | destroyAnswer c ack => exact accounts.destroyAnswered entitled run
  | accelCeasedStart c => exact accounts.accelCeased entitled run
  | accelerationEnds c =>
      rw [allDuties_after]
      cases run
      exact accounts.ended entitled
  | timerExpire c => exact accounts.timerExpired run
  | timerRemove c => exact accounts.timerRemoved run
  | timerDeref c =>
      rw [allDuties_after]
      cases run
      exact accounts.timerDeref entitled fit

end Calls

end Qsdk.Ecm
