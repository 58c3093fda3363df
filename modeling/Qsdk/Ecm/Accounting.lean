/-
**The accounts of the front end, in every run.**

The counters of the accelerated connections and of the pending commands are exact in every run in
which no acceleration is given up because the driver refused its destroy command too often, and no
timer's reference is released twice (`accounting_run`). A refused destroy command takes the
connection out of the accelerated modes at the driver fail limit, but not off the count: it stays
counted for good.
-/

import Qsdk.Ecm.Accounts
import Qsdk.Lib.Schedule

namespace Qsdk.Ecm

/-! ### The accounts as numbers of connections -/

/-- The connections that the accelerator forwards for. -/
def State.carrying (state : State) : Finset Conn :=
  state.conns.filter fun c => (state.conn c).accelMode.Carries

/-- The counters are exact but for what the handlers owe: an acceleration that has ended may not be
counted down yet, and a destroy command may be counted before it is sent and until its answer is
processed. `all` are the connections that were there in the beginning. -/
structure State.Accounted (state : State) (limits : Limits) (owed : Conn → Duties)
    (all : Finset Conn) :
    Prop where
  accelerated : state.counters.accelerated = (state.carrying.card + ∑ c ∈ all, owed c .ended : Nat)
  ported : ∀ proto, state.counters.ported proto =
    ((state.carrying.filter fun c => (state.conn c).proto = proto).card +
      ∑ c ∈ all, if (state.conn c).proto = proto then owed c .ended else 0 : Nat)
  pendingAccel : state.counters.pendingAccel =
    (state.conns.filter fun c => (state.conn c).accelMode = .accelPending).card
  pendingDecel : state.counters.pendingDecel =
    (∑ c ∈ state.conns, (state.conn c).destroys + ∑ c ∈ all, owed c .sending : Nat)
  limit : limits.fixed = true →
    state.counters.pendingAccel + state.counters.accelerated ≤ limits.maxConnCount
  exist : ∀ c, c ∈ state.conns ↔ 0 < (state.conn c).refs
  refs : ∀ c, (state.conn c).refs = ((if (state.conn c).timerRef = true then 1 else 0) +
    (state.conn c).creates + (state.conn c).destroys +
      owed c .ref + owed c .answered + owed c .ended : Nat)

/-- What holds at every point: the counter of the pending accelerations is their number, no counter
is negative, the limit is kept, a connection exists as long as it has references, and its timer and
each of its commands have one of their own. -/
structure State.Kept (state : State) (limits : Limits) : Prop where
  pendingAccel : state.counters.pendingAccel =
    (state.conns.filter fun c => (state.conn c).accelMode = .accelPending).card
  accelerated_nonneg : 0 ≤ state.counters.accelerated
  ported_nonneg : ∀ proto, 0 ≤ state.counters.ported proto
  pendingAccel_nonneg : 0 ≤ state.counters.pendingAccel
  pendingDecel_nonneg : 0 ≤ state.counters.pendingDecel
  limit : limits.fixed = true →
    state.counters.pendingAccel + state.counters.accelerated ≤ limits.maxConnCount
  exist : ∀ c, c ∈ state.conns ↔ 0 < (state.conn c).refs
  owned : ∀ c, ((if (state.conn c).timerRef = true then 1 else 0) +
    (state.conn c).creates + (state.conn c).destroys : Nat) ≤ (state.conn c).refs

theorem State.Accounted.kept {state : State} {limits : Limits} {owed : Conn → Duties}
    {all : Finset Conn} (accounted : state.Accounted limits owed all) : state.Kept limits where
  pendingAccel := accounted.pendingAccel
  accelerated_nonneg := by
    rw [accounted.accelerated]
    exact Int.natCast_nonneg _
  ported_nonneg := fun proto => by
    rw [accounted.ported]
    exact Int.natCast_nonneg _
  pendingAccel_nonneg := by
    rw [accounted.pendingAccel]
    exact Int.natCast_nonneg _
  pendingDecel_nonneg := by
    rw [accounted.pendingDecel]
    exact Int.natCast_nonneg _
  limit := accounted.limit
  exist := accounted.exist
  owned := fun c => by
    rw [accounted.refs]
    omega

section Numbers

variable {limits : Limits} {all : Finset Conn} {owed : Conn → Duties} {state : State}

/-- A sum over all connections that were ever there is one over those that still are. -/
theorem sum_conns (all : Finset Conn) (state : State) (f : Conn → Nat)
    (gone : ∀ c, c ∉ state.conns → f c = 0) (away : ∀ c, c ∉ all → f c = 0) :
    ∑ c ∈ all, f c = ∑ c ∈ state.conns, f c := by
  have ofAll : ∑ c ∈ all, f c = ∑ c ∈ all ∪ state.conns, f c :=
    Finset.sum_subset Finset.subset_union_left fun c _ outside => away c outside
  have ofConns : ∑ c ∈ state.conns, f c = ∑ c ∈ all ∪ state.conns, f c :=
    Finset.sum_subset Finset.subset_union_right fun c _ outside => gone c outside
  rw [ofAll, ofConns]

/-- A connection that is gone is not accelerated. -/
theorem Accounts.gone (accounts : Accounts limits all owed state) {c : Conn}
    (gone : c ∉ state.conns) :
    (state.conn c).load (owed c) = 0 ∧ (state.conn c).pending = 0 ∧
        (state.conn c).destroys = 0 := by
  refine (accounts.consistent c).gone ?_
  have exist := accounts.exist c
  by_contra alive
  exact gone (exist.mpr (by omega))

/-- A connection that was never there is not accelerated. -/
theorem Accounts.away (accounts : Accounts limits all owed state) {c : Conn} (away : c ∉ all) :
    ¬(state.conn c).accelMode.Carries ∧ (state.conn c).accelMode ≠ .accelPending ∧
      (state.conn c).destroys = 0 := by
  obtain ⟨failed, -, -⟩ := accounts.outside c away
  have decel := (accounts.consistent c).decel
  refine ⟨?_, ?_, ?_⟩
  · rintro (accel | pending)
    · rw [accel] at failed
      cases failed
    · rw [pending] at failed
      cases failed
  · intro pending
    rw [pending] at failed
    cases failed
  · have notPending : (state.conn c).accelMode ≠ .decelPending := by
      intro pending
      rw [pending] at failed
      cases failed
    rw [if_neg notPending] at decel
    omega

/-- The number of the connections of a kind, among all. -/
theorem card_conns (all : Finset Conn) (state : State) (kind : Conn → Prop) [DecidablePred kind]
    (gone : ∀ c, c ∉ state.conns → ¬kind c) (away : ∀ c, c ∉ all → ¬kind c) :
    ∑ c ∈ all, (if kind c then 1 else 0) = (state.conns.filter kind).card := by
  rw [sum_conns all state _ (fun c outside => if_neg (gone c outside))
    fun c outside => if_neg (away c outside), Finset.card_filter]

theorem Accounts.accounted (accounts : Accounts limits all owed state) :
    state.Accounted limits owed all := by
  have parked : ∀ c, c ∉ state.conns → ¬(state.conn c).accelMode.Carries := by
    intro c outside carries
    have load := (accounts.gone outside).1
    rw [Connection.load, if_pos carries] at load
    omega
  refine ⟨?_, fun proto => ?_, ?_, ?_, accounts.limit, accounts.exist,
    fun c => (accounts.consistent c).refs⟩
  · rw [accounts.accelerated]
    unfold Connection.load
    rw [Finset.sum_add_distrib, card_conns all state _ parked fun c outside =>
      (accounts.away outside).1]
    rfl
  · rw [accounts.ported, State.carrying, Finset.filter_filter, ← card_conns all state
      (fun c => (state.conn c).accelMode.Carries ∧ (state.conn c).proto = proto)
      (fun c outside both => parked c outside both.1)
      (fun c outside both => (accounts.away outside).1 both.1), ← Finset.sum_add_distrib]
    congr 1
    refine Finset.sum_congr rfl fun c _ => ?_
    unfold Connection.load
    by_cases isProto : (state.conn c).proto = proto <;> simp [isProto]
  · rw [accounts.pendingAccel]
    congr 1
    refine card_conns all state _ (fun c outside pending => ?_) fun c outside =>
      (accounts.away outside).2.1
    have none := (accounts.gone outside).2.1
    rw [Connection.pending, if_pos pending] at none
    omega
  · rw [accounts.pendingDecel]
    unfold Connection.leaving
    rw [Finset.sum_add_distrib, sum_conns all state _ (fun c outside => (accounts.gone outside).2.2)
      fun c outside => (accounts.away outside).2.2]

end Numbers

/-! ### Every run -/

section Runs

variable {Tid : Type} [DecidableEq Tid] {limits : Limits}

theorem State.Initial.accounts {state : State} (initial : state.Initial) :
    Accounts limits state.conns 0 state := by
  have new : ∀ c, (state.conn c).Consistent 0 ∧ ¬(state.conn c).accelMode.Carries ∧
      (state.conn c).pending = 0 ∧ (state.conn c).destroys = 0 ∧
      (c ∈ state.conns ↔ 0 < (state.conn c).refs) ∧
      (c ∉ state.conns → (state.conn c).accelMode.failed = true) := by
    intro c
    have isNew := initial.conn c
    by_cases member : c ∈ state.conns
    · rw [if_pos member] at isNew
      obtain ⟨proto, canAccel, noActionSeenLimit, driverFailLimit, aeNackLimit, isConn⟩ := isNew
      rw [isConn]
      cases canAccel <;>
        exact ⟨⟨rfl, rfl, rfl, nofun, by simp [Connection.alloc]⟩, by
          simp [Connection.alloc, Mode.Carries], rfl, rfl,
          by simp [Connection.alloc, member], fun outside => absurd member outside⟩
    · rw [if_neg member] at isNew
      rw [isNew]
      exact ⟨⟨rfl, rfl, rfl, nofun, fun _ => Or.inl rfl⟩, by decide, rfl, rfl,
        by simp [Connection.none, member], fun _ => rfl⟩
  have nothing : ∀ c, (state.conn c).load ((0 : Conn → Duties) c) = 0 := by
    intro c
    rw [Connection.load, if_neg (new c).2.1]
    rfl
  have none : ∀ f : Conn → Nat, (∀ c, f c = 0) → (0 : Int) = (∑ c ∈ state.conns, f c : Nat) := by
    intro f zero
    rw [Finset.sum_congr rfl fun c _ => zero c, Finset.sum_const_zero]
    rfl
  have counters := initial.counters
  refine ⟨fun c => (new c).2.2.2.2.1, fun c => (new c).1,
    fun c outside => ⟨(new c).2.2.2.2.2 outside, rfl, rfl⟩, ?_, fun proto => ?_, ?_, ?_,
    fun _ => ?_⟩
  · rw [counters]
    exact none _ nothing
  · rw [counters]
    refine none _ fun c => ?_
    rw [nothing, ite_self]
  · rw [counters]
    exact none _ fun c => (new c).2.2.1
  · rw [counters]
    exact none _ fun c => (new c).2.2.2.1
  · rw [counters]
    simp

theorem accounts_valid (Tid : Type) [DecidableEq Tid] (limits : Limits) :
    allDuties.Valid ((frontEnd Tid limits).guarded accountingFit)
      (fun owed state => ∃ all, Accounts limits all owed state) fun _ _ => False where
  init := fun initial => ⟨_, initial.accounts⟩
  settled := fun {error} _ _ => nomatch error
  start := fun {total state tid program after} accounts started => by
    obtain ⟨rfl, handler, rfl⟩ := started
    refine ⟨accounts, ?_⟩
    have settles := (settles_program handler).keyed
    have nothing : Function.update (0 : Conn → Duties) handler.conn 0 = 0 :=
      Function.update_eq_self_iff.mpr rfl
    rw [nothing] at settles
    exact settles
  call := fun {own rest state op res after} accounts entitled effect => by
    obtain ⟨all, accounts⟩ := accounts
    obtain ⟨⟨yes, run⟩, fit⟩ := effect
    exact ⟨all, accounts.call entitled.1.1 fit run⟩
  env := fun _ moved => moved.elim

/-- The next call of a thread counts an acceleration down. -/
def AboutToEnd : Option (EcmProg Unit) → Prop
  | some (.call op _) => op.IsEnd
  | _ => False

/-- A handler owes the end of an acceleration only when it is about to count it down. -/
theorem ended_of_owes {own : Conn → Duties} {thread : Option (EcmProg Unit)}
    (owes : allDuties.Owes (fun _ _ => False) own thread) (elsewhere : ¬AboutToEnd thread)
    (c : Conn) :
    own c .ended = 0 := by
  cases thread with
  | none =>
      have nothing : own = 0 := owes
      rw [nothing]
      rfl
  | some program =>
      cases program with
      | done value =>
          have nothing : own = 0 := owes
          rw [nothing]
          rfl
      | stop error => exact nomatch error
      | call op next =>
          obtain ⟨⟨⟨-, noEnd⟩, others⟩, -⟩ := owes
          by_cases same : c = op.conn
          · rw [same]
            exact noEnd elsewhere
          · rw [others c same]
            rfl

/-- A program has a destroy command counted that it has not sent, or whose answer it has taken: it
can come to the call that counts one down before it comes to one that counts one. -/
def CountedIn : EcmProg Unit → Prop
  | .done _ => False
  | .stop _ => False
  | .call op next => op.CountsDown ∨ ¬op.Counts ∧ ∃ res, CountedIn (next res)

/-- A thread has a destroy command counted. -/
def Counted (thread : Option (EcmProg Unit)) : Prop := ∃ program ∈ thread, CountedIn program

/-- A program that owes the count of a destroy command has it counted. The induction is on the
program, along the results with which it keeps the count. -/
theorem countedIn_of_settles {program : EcmProg Unit} {own : Conn → Duties} {c : Conn}
    (settles : allDuties.Settles (fun _ own => own = 0) (fun _ _ => False) program own)
    (sending : 0 < own c .sending) : CountedIn program := by
  induction program generalizing own with
  | done value =>
      have nothing : own = 0 := settles
      rw [nothing] at sending
      exact absurd sending (lt_irrefl 0)
  | stop error => exact nomatch error
  | call op next ih =>
      obtain ⟨⟨⟨entitled, -⟩, others⟩, rest⟩ := settles
      have same : c = op.conn := by
        by_contra other
        rw [others c other] at sending
        exact absurd sending (lt_irrefl 0)
      subst same
      by_cases down : op.CountsDown
      · exact Or.inl down
      · refine Or.inr ⟨fun counts => ?_, ?_⟩
        · have none : own op.conn .sending = 0 := by
            cases op with
            | pendingDecelInc => exact entitled.2
            | receiveDestroy => exact entitled
            | _ => exact absurd counts id
          omega
        · obtain ⟨res, kept⟩ := op.sending_kept (own op.conn) sending down
          refine ⟨res, ih res (rest res) ?_⟩
          show 0 < Function.update own op.conn (op.owes (own op.conn) res) op.conn .sending
          rw [Function.update_self]
          exact kept

theorem sending_of_owes {own : Conn → Duties} {thread : Option (EcmProg Unit)}
    (owes : allDuties.Owes (fun _ _ => False) own thread) (elsewhere : ¬Counted thread) (c : Conn) :
    own c .sending = 0 := by
  cases thread with
  | none =>
      have nothing : own = 0 := owes
      rw [nothing]
      rfl
  | some program =>
      by_contra sending
      exact elsewhere ⟨program, rfl, countedIn_of_settles owes (Nat.pos_of_ne_zero sending)⟩

/-- **The accounts of the front end are exact in every run** that keeps them. Where no handler has
ended an acceleration that it is about to count down, the counters of the accelerated connections
are the numbers of these connections; where no handler has a destroy command counted that it has not
sent, or whose answer it has taken, the counter of the pending decelerations is the number of the
commands that were not answered; and where no handler is running, the references of a connection are
that of its timer and those of the commands. All else holds at every point. -/
theorem accounting_run {history : List (State × Label Tid EcmOp EcmOp.Res Empty Unit)}
    {config : Config Tid EcmOp EcmOp.Res Empty Unit State}
    (run : ((frontEnd Tid limits).guarded accountingFit).Run history config) :
    config.state.Kept limits ∧
      ((∀ tid, ¬AboutToEnd (config.running tid)) →
        config.state.counters.accelerated = config.state.carrying.card ∧
        ∀ proto, config.state.counters.ported proto =
          (config.state.carrying.filter fun c => (config.state.conn c).proto = proto).card) ∧
      ((∀ tid, ¬Counted (config.running tid)) →
        config.state.counters.pendingDecel =
          (∑ c ∈ config.state.conns, (config.state.conn c).destroys : Nat)) ∧
      (config.Quiescent → ∀ c, (config.state.conn c).refs =
        ((if (config.state.conn c).timerRef = true then 1 else 0) +
          (config.state.conn c).creates + (config.state.conn c).destroys : Nat)) := by
  obtain ⟨owed, total, isTotal, ⟨all, accounts⟩, owes⟩ := (accounts_valid Tid limits).holds run
  have accounted := accounts.accounted
  -- a duty that no thread has, all threads together do not have
  have none : ∀ duty, (∀ tid c, owed tid c duty = 0) → ∀ c, total c duty = 0 := by
    intro duty nobody
    refine isTotal.induction (fun own => ∀ c, own c duty = 0) (fun _ => rfl)
      (fun one two first second c => ?_) nobody
    show one c duty + two c duty = 0
    rw [first c, second c]
  refine ⟨accounted.kept, fun elsewhere => ?_, fun elsewhere => ?_, fun quiet c => ?_⟩
  · have ended := none .ended fun tid => ended_of_owes (owes tid) (elsewhere tid)
    refine ⟨?_, fun proto => ?_⟩
    · rw [accounted.accelerated, Finset.sum_eq_zero fun c _ => ended c, Nat.add_zero]
    · rw [accounted.ported, Finset.sum_eq_zero fun c _ => by rw [ended, ite_self], Nat.add_zero]
  · have sending := none .sending fun tid => sending_of_owes (owes tid) (elsewhere tid)
    rw [accounted.pendingDecel, Finset.sum_eq_zero fun c _ => sending c, Nat.add_zero]
  · have nothing : ∀ duty, total c duty = 0 := by
      intro duty
      refine none duty (fun tid c => ?_) c
      have thread := owes tid
      rw [quiet tid] at thread
      have isZero : owed tid = 0 := thread
      rw [isZero]
      rfl
    rw [accounted.refs, nothing, nothing, nothing]
    rfl

end Runs

/-! ### Two runs -/

/-- The driver accepts every create command, and every destroy command or none. -/
def driver (limits : Limits) (sends : Bool) : Strategy (frontEnd Unit limits) where
  answer := fun op state => op.run limits
    (match op with
      | .txCreate _ => true
      | .txDestroy _ => sends
      | _ => false) state
  returns := fun _ => false
  allowed := fun answer => ⟨_, answer⟩
  returns_ok := nofun

/-- No limit for the number of rules. -/
def unlimited : Limits := ⟨false, 0⟩

/-- One TCP connection, with a driver fail limit of one. -/
def oneConnection : State where
  conns := {1}
  conn := fun c => if c = 1 then .alloc .tcp true 3 1 3 else .none
  counters := ⟨0, fun _ => 0, 0, 0⟩

theorem oneConnection_initial : oneConnection.Initial := by
  refine ⟨fun c => ?_, rfl⟩
  by_cases isOne : c = 1
  · subst isOne
    rw [if_pos (show 1 ∈ oneConnection.conns from Finset.mem_singleton_self 1)]
    exact ⟨_, _, _, _, _, rfl⟩
  · rw [if_neg (show c ∉ oneConnection.conns from Finset.notMem_singleton.mpr isOne)]
    exact if_neg isOne

section Machine

variable {running : System Unit EcmOp EcmOp.Res Empty Unit State}

/-- A handler runs to its end. -/
def handles (strategy : Strategy running) (handler : Handler)
    (config : Config Unit EcmOp EcmOp.Res Empty Unit State) :
    Config Unit EcmOp EcmOp.Res Empty Unit State :=
  (config.begin () handler.program config.state).advances strategy () 25

theorem handles_reachable (strategy : Strategy running)
    {config : Config Unit EcmOp EcmOp.Res Empty Unit State} (reachable : running.Reachable config)
    (free : (config.running ()).isNone = true) (handler : Handler)
    (starts : running.start () config.state handler.program config.state) :
    running.Reachable (handles strategy handler config) :=
  Config.advances_reachable strategy () _
    (Config.begin_reachable reachable (Option.isNone_iff_eq_none.mp free) starts)

/-- The connection is accelerated. -/
def accelerates (strategy : Strategy running) : Config Unit EcmOp EcmOp.Res Empty Unit State :=
  handles strategy (.connectionCallback 1 true)
    (handles strategy (.accelerate 1) ⟨oneConnection, fun _ => none⟩)

end Machine

/-- The connection is accelerated and decelerated, by a driver that accepts all commands. -/
def decelerated : Config Unit EcmOp EcmOp.Res Empty Unit State :=
  let strategy := (driver unlimited true).guarded accountingFit
  handles strategy (.destroyCallback 1 true)
  (handles strategy (.makeDefunct 1) (accelerates strategy))

/-- The destroy command for the connection is refused. -/
def refused : Config Unit EcmOp EcmOp.Res Empty Unit State :=
  handles (driver unlimited false) (.decelerate 1) (accelerates (driver unlimited false))

theorem oneConnection_reachable {running : System Unit EcmOp EcmOp.Res Empty Unit State}
    (starts : running.init oneConnection) : running.Reachable ⟨oneConnection, fun _ => none⟩ :=
  ⟨[], .init starts⟩

theorem decelerated_reachable :
    ((frontEnd Unit unlimited).guarded accountingFit).Reachable decelerated := by
  refine handles_reachable _ (handles_reachable _ (handles_reachable _ (handles_reachable _
    (oneConnection_reachable oneConnection_initial) rfl _ ?_) (by decide +kernel) _ ?_)
    (by decide +kernel) _ ?_) (by decide +kernel) _ ?_
  all_goals exact ⟨rfl, _, rfl⟩

/-- The accounts after a deceleration. -/
theorem accounting_run_decelerated :
    decelerated.state.Kept unlimited ∧
      decelerated.state.counters.accelerated = decelerated.state.carrying.card ∧
      decelerated.state.counters.pendingDecel =
        (∑ c ∈ decelerated.state.conns, (decelerated.state.conn c).destroys : Nat) ∧
      (decelerated.state.conn 1).refs =
        ((if (decelerated.state.conn 1).timerRef = true then 1 else 0) +
          (decelerated.state.conn 1).creates + (decelerated.state.conn 1).destroys : Nat) := by
  obtain ⟨history, run⟩ := decelerated_reachable
  obtain ⟨kept, accelerated, pendingDecel, refs⟩ := accounting_run run
  have quiet : decelerated.Quiescent := by
    intro tid
    cases tid
    exact Option.isNone_iff_eq_none.mp (by decide +kernel)
  refine ⟨kept, (accelerated fun tid => ?_).1, pendingDecel fun tid => ?_, refs quiet 1⟩
  · rw [quiet tid]
    exact id
  · rw [quiet tid]
    rintro ⟨program, isRunning, -⟩
    cases isRunning

theorem refused_reachable : (frontEnd Unit unlimited).Reachable refused := by
  refine handles_reachable _ (handles_reachable _ (handles_reachable _
    (oneConnection_reachable oneConnection_initial) rfl _ ?_) (by decide +kernel) _ ?_)
    (by decide +kernel) _ ?_
  all_goals exact ⟨rfl, _, rfl⟩

/-- A connection whose destroy command was refused too often stays counted, and no handler is
running. -/
theorem not_accounted_refused : ∃ config : Config Unit EcmOp EcmOp.Res Empty Unit State,
    (frontEnd Unit unlimited).Reachable config ∧ config.Quiescent ∧
      config.state.counters.accelerated = 1 ∧ config.state.carrying = ∅ := by
  refine ⟨refused, refused_reachable, fun tid => ?_, by decide +kernel, by decide +kernel⟩
  cases tid
  exact Option.isNone_iff_eq_none.mp (by decide +kernel)

end Qsdk.Ecm
