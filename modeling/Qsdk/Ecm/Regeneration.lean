/-
**Re-generation of a connection: no change is lost.**

A change asks for the re-generation of one connection or, by the global generation, of all of them.
Every function runs under `ecm_db_lock`, so whatever the threads do is a sequence of calls, and
which thread makes a call plays no part.

The number of outstanding requests carries the whole argument (`Watched.Kept`). A request is a call
of `ecm_db_connection_regeneration_needed`, or a look at the connection that finds the global
generation moved; a completed re-generation takes back one request, also when several came before it
started. So no change is lost, but a connection can have to be re-generated again without any
further change (`regeneration_loses_no_change`).
-/

import Mathlib.Data.BitVec
import Mathlib.Data.List.Count
import Mathlib.Logic.Function.Basic

set_option linter.unusedSectionVars false

namespace Qsdk.Ecm.Regeneration

/-! ### The functions on a connection -/

/-- What a connection keeps about its re-generation. -/
structure Instance where
  regenInProgress : Bool
  regenRequired : BitVec 16
  regenOccurances : BitVec 16
  generation : BitVec 16
  regenSuccess : BitVec 32
  regenFail : BitVec 32

/-- The connection records that the global generation has moved since it last looked. -/
def Instance.observe (ci : Instance) (global : BitVec 16) : Instance :=
  if ci.generation ≠ global then
    { ci with
      regenOccurances := ci.regenOccurances + 1
      regenRequired := ci.regenRequired + 1
      generation := global }
  else ci

/-- `ecm_db_connection_regeneration_needed`. -/
def Instance.regenerationNeeded (ci : Instance) : Instance :=
  { ci with regenOccurances := ci.regenOccurances + 1, regenRequired := ci.regenRequired + 1 }

/-- `ecm_db_connection_regeneration_required_check`. -/
def Instance.regenerationRequiredCheck (ci : Instance) (global : BitVec 16) : Bool × Instance :=
  let ci := ci.observe global
  if ci.regenInProgress then (false, ci)
  else if ci.regenRequired = 0 then (false, ci)
  else (true, { ci with regenInProgress := true })

/-- `ecm_db_connection_regeneration_required_peek`. -/
def Instance.regenerationRequiredPeek (ci : Instance) (global : BitVec 16) : Bool × Instance :=
  let ci := ci.observe global
  if ci.regenRequired = 0 then (false, ci) else (true, ci)

/-- `ecm_db_connection_regeneration_completed`. -/
def Instance.regenerationCompleted (ci : Instance) : Instance :=
  { ci with
    regenRequired := ci.regenRequired - 1
    regenInProgress := false
    regenSuccess := ci.regenSuccess + 1 }

/-- `ecm_db_connection_regeneration_failed`. -/
def Instance.regenerationFailed (ci : Instance) : Instance :=
  { ci with regenInProgress := false, regenFail := ci.regenFail + 1 }

/-! ### Calls -/

/-- A call of one of the functions. `neededAll` is `ecm_db_regeneration_needed`. -/
inductive Call (Conn : Type)
  | neededAll
  | needed (c : Conn)
  | check (c : Conn)
  | peek (c : Conn)
  | completed (c : Conn)
  | failed (c : Conn)
deriving DecidableEq

/-- `generation` is `ecm_db_connection_generation`. -/
structure State (Conn : Type) where
  generation : BitVec 16
  conn : Conn → Instance

variable {Conn : Type} [DecidableEq Conn]

def State.modify (state : State Conn) (c : Conn) (ci : Instance) : State Conn :=
  { state with conn := Function.update state.conn c ci }

/-- What a call answers, `false` where the function returns nothing, and the state that it
leaves. -/
def State.call (state : State Conn) : Call Conn → Bool × State Conn
  | .neededAll => (false, { state with generation := state.generation + 1 })
  | .needed c => (false, state.modify c (state.conn c).regenerationNeeded)
  | .check c =>
    let (required, ci) := (state.conn c).regenerationRequiredCheck state.generation
    (required, state.modify c ci)
  | .peek c =>
    let (required, ci) := (state.conn c).regenerationRequiredPeek state.generation
    (required, state.modify c ci)
  | .completed c => (false, state.modify c (state.conn c).regenerationCompleted)
  | .failed c => (false, state.modify c (state.conn c).regenerationFailed)

/-- The answer to a call. -/
def State.answer (state : State Conn) (call : Call Conn) : Bool := (state.call call).1

/-! ### What has happened to a connection -/

/-- The history of one connection in numbers: the re-generations under way, the requests that no
completed re-generation took back, and the global changes since anybody looked at the connection and
since the last check. -/
structure Tally where
  running : Nat
  outstanding : Nat
  unseen : Nat
  unchecked : Nat

/-- A look at the connection turns the unseen changes into one request. -/
def Tally.look (tally : Tally) : Tally :=
  { tally with
    outstanding := if tally.unseen = 0 then tally.outstanding else tally.outstanding + 1
    unseen := 0 }

/-- The history after one more call. -/
def Tally.after (tally : Tally) (c : Conn) (call : Call Conn) (answer : Bool) : Tally :=
  if call = .neededAll then
    { tally with unseen := tally.unseen + 1, unchecked := tally.unchecked + 1 }
  else if call = .needed c then { tally with outstanding := tally.outstanding + 1 }
  else if call = .check c then
    { tally.look with running := tally.running + (if answer then 1 else 0), unchecked := 0 }
  else if call = .peek c then tally.look
  else if call = .completed c then
    { tally with running := tally.running - 1, outstanding := tally.outstanding - 1 }
  else if call = .failed c then { tally with running := tally.running - 1 }
  else tally

/-- A state with the history of a connection. -/
structure Watched (Conn : Type) where
  state : State Conn
  tally : Tally

variable (c : Conn)

def Watched.call (w : Watched Conn) (call : Call Conn) : Watched Conn :=
  ⟨(w.state.call call).2, w.tally.after c call (w.state.answer call)⟩

def Watched.run (w : Watched Conn) (calls : List (Call Conn)) : Watched Conn :=
    calls.foldl (Watched.call c) w

/-- A re-generation is answered once and only while it is under way, and no 16-bit counter gets so
far that it comes round. -/
structure Watched.Allowed (w : Watched Conn) (call : Call Conn) : Prop where
  answers : call = .completed c ∨ call = .failed c → 0 < w.tally.running
  outstanding : (w.call c call).tally.outstanding < 2 ^ 16
  unchecked : (w.call c call).tally.unchecked < 2 ^ 16

/-- Every call of the run is allowed. -/
def Watched.Legal (w : Watched Conn) : List (Call Conn) → Prop
  | [] => True
  | call :: calls => w.Allowed c call ∧ (w.call c call).Legal calls

/-- `ecm_db_connection_add` has just added the connection. -/
structure Watched.Added (w : Watched Conn) : Prop where
  generation : (w.state.conn c).generation = w.state.generation
  required : (w.state.conn c).regenRequired = 0
  inProgress : (w.state.conn c).regenInProgress = false
  tally : w.tally = ⟨0, 0, 0, 0⟩

/-- Some re-generation of the run has completed that started in it. `started` says that one started
and was not answered yet. -/
def Watched.regenerates (started : Bool) (w : Watched Conn) : List (Call Conn) → Bool
  | [] => false
  | call :: calls =>
    (started && decide (call = .completed c)) ||
      Watched.regenerates
        (if call = .completed c ∨ call = .failed c then false
          else started || (decide (call = .check c) && w.state.answer call))
        (w.call c call) calls

/-- A call that changes what the connection should look like. -/
def Call.Changes (call : Call Conn) : Prop := call = .neededAll ∨ call = .needed c

/-! ### One call -/

/-- The flag and the counters tell the history. -/
structure Watched.Kept (w : Watched Conn) : Prop where
  running : w.tally.running = if (w.state.conn c).regenInProgress then 1 else 0
  claimed : w.tally.running ≤ w.tally.outstanding
  required : (w.state.conn c).regenRequired = BitVec.ofNat 16 w.tally.outstanding
  outstanding : w.tally.outstanding < 2 ^ 16
  generation : w.state.generation = (w.state.conn c).generation + BitVec.ofNat 16 w.tally.unseen
  unseen : w.tally.unseen ≤ w.tally.unchecked
  unchecked : w.tally.unchecked < 2 ^ 16

variable {c} {w : Watched Conn}

theorem Watched.Added.kept (added : w.Added c) : w.Kept c := by
  obtain ⟨generation, required, inProgress, tally⟩ := added
  constructor <;> simp [tally, generation, required, inProgress]

/-- The connection is behind the global generation if there was a change that nobody has seen. -/
theorem Watched.Kept.behind (kept : w.Kept c) :
    (w.state.conn c).generation ≠ w.state.generation ↔ w.tally.unseen ≠ 0 := by
  have bound : w.tally.unseen < 2 ^ 16 := lt_of_le_of_lt kept.unseen kept.unchecked
  rw [kept.generation]
  generalize (w.state.conn c).generation = generation
  constructor
  · intro behind none
    rw [none] at behind
    exact behind (by simp)
  · intro some same
    have zero : BitVec.ofNat 16 w.tally.unseen = 0 := by bv_omega
    have := congrArg BitVec.toNat zero
    rw [BitVec.toNat_ofNat, Nat.mod_eq_of_lt bound] at this
    exact some this

/-- A look leaves the connection with the requests of its history. -/
theorem Watched.Kept.observe (kept : w.Kept c) :
    ((w.state.conn c).observe w.state.generation).regenRequired =
    BitVec.ofNat 16 w.tally.look.outstanding ∧
      ((w.state.conn c).observe w.state.generation).generation = w.state.generation ∧
      ((w.state.conn c).observe w.state.generation).regenInProgress =
          (w.state.conn c).regenInProgress := by
  have behind := kept.behind
  have required := kept.required
  by_cases unseen : w.tally.unseen = 0
  · have same : (w.state.conn c).generation = w.state.generation := by
      by_contra moved
      exact behind.mp moved unseen
    simp [Instance.observe, Tally.look, same, unseen, required]
  · have moved : (w.state.conn c).generation ≠ w.state.generation := behind.mpr unseen
    simp [Instance.observe, Tally.look, moved, unseen, required, BitVec.ofNat_add]

theorem required_eq_zero {outstanding : Nat} (bound : outstanding < 2 ^ 16) :
    BitVec.ofNat 16 outstanding = 0 ↔ outstanding = 0 := by
  constructor
  · intro zero
    have := congrArg BitVec.toNat zero
    rwa [BitVec.toNat_ofNat, Nat.mod_eq_of_lt bound] at this
  · rintro rfl
    rfl

/-- **A peek tells whether a request is outstanding or a change was not seen.** -/
theorem Watched.Kept.peek (kept : w.Kept c) (bound : w.tally.look.outstanding < 2 ^ 16) :
    w.state.answer (.peek c) = decide (w.tally.look.outstanding ≠ 0) := by
  obtain ⟨required, -, -⟩ := kept.observe
  show ((w.state.conn c).regenerationRequiredPeek w.state.generation).1 = _
  unfold Instance.regenerationRequiredPeek
  simp only [required, required_eq_zero bound]
  split_ifs with none <;> simp [none]

/-- **A check answers as a peek does, but for a connection whose re-generation is under way.** -/
theorem Watched.Kept.check (kept : w.Kept c) (bound : w.tally.look.outstanding < 2 ^ 16) :
    w.state.answer (.check c) = decide (w.tally.running = 0 ∧ w.tally.look.outstanding ≠ 0) := by
  obtain ⟨required, -, inProgress⟩ := kept.observe
  have running := kept.running
  show ((w.state.conn c).regenerationRequiredCheck w.state.generation).1 = _
  unfold Instance.regenerationRequiredCheck
  simp only [required, inProgress, required_eq_zero bound]
  split_ifs with busy none <;> simp_all

/-- A connection that a call is about: `none` for a change of all of them. -/
def Call.about : Call Conn → Option Conn
  | .neededAll => none
  | .needed c | .check c | .peek c | .completed c | .failed c => some c

/-- A call is for another connection, or it is one of the calls that this one notices. -/
theorem Call.other_or_own (call : Call Conn) (c : Conn) :
    (∃ c', call.about = some c' ∧ c ≠ c') ∨ call = .neededAll ∨ call = .needed c ∨ call = .check c ∨
      call = .peek c ∨ call = .completed c ∨ call = .failed c := by
  cases call with
  | neededAll => exact .inr (.inl rfl)
  | needed c' | check c' | peek c' | completed c' | failed c' =>
    by_cases same : c = c'
    · subst same
      simp
    · exact .inl ⟨c', rfl, same⟩

/-- A call for another connection changes nothing of this one. -/
theorem Watched.call_other (w : Watched Conn) {call : Call Conn} {c' : Conn}
    (about : call.about = some c') (other : c ≠ c') :
    (w.call c call).state.conn c = w.state.conn c ∧ (w.call c call).state.generation =
    w.state.generation ∧
      (w.call c call).tally = w.tally := by
  have different : ∀ c', c ≠ c' → c' ≠ c := fun _ => Ne.symm
  cases call <;> cases about <;>
    exact ⟨Function.update_of_ne other _ _, rfl, by
      simp [Watched.call, Tally.after, different _ other]⟩

@[simp]
theorem conn_modify_self {state : State Conn} {ci : Instance} : (state.modify c ci).conn c = ci :=
  Function.update_self _ _ _

@[simp]
theorem generation_modify {state : State Conn} {c' : Conn} {ci : Instance} :
    (state.modify c' ci).generation = state.generation := rfl

/-- What a look leaves behind. -/
theorem Watched.Kept.look (kept : w.Kept c) (bound : w.tally.look.outstanding < 2 ^ 16) :
    (Watched.mk (w.state.modify c ((w.state.conn c).observe w.state.generation)) w.tally.look).Kept
        c := by
  obtain ⟨required, generation, inProgress⟩ := kept.observe
  have more : w.tally.outstanding ≤ w.tally.look.outstanding := by
    unfold Tally.look
    show w.tally.outstanding ≤ if w.tally.unseen = 0 then w.tally.outstanding else
      w.tally.outstanding + 1
    split_ifs <;> omega
  constructor
  · show w.tally.running = _
    rw [conn_modify_self, inProgress]
    exact kept.running
  · exact le_trans kept.claimed more
  · rw [conn_modify_self]
    exact required
  · exact bound
  · rw [conn_modify_self, generation_modify, generation]
    exact (BitVec.add_zero _).symm
  · exact Nat.zero_le _
  · exact kept.unchecked

theorem peek_state (ci : Instance) (global : BitVec 16) :
    (ci.regenerationRequiredPeek global).2 = ci.observe global := by
  unfold Instance.regenerationRequiredPeek
  dsimp only
  split_ifs <;> rfl

theorem check_state (ci : Instance) (global : BitVec 16) :
    let checked := (ci.regenerationRequiredCheck global).2
    checked.regenRequired = (ci.observe global).regenRequired ∧
      checked.generation = (ci.observe global).generation ∧
      checked.regenInProgress =
        ((ci.observe global).regenInProgress || (ci.regenerationRequiredCheck global).1) := by
  unfold Instance.regenerationRequiredCheck
  dsimp only
  split_ifs with busy none <;> simp [busy]

/-- The history after a call for the connection itself. -/
theorem Watched.tally_self (w : Watched Conn) :
    (w.call c (.needed c)).tally = { w.tally with outstanding := w.tally.outstanding + 1 } ∧
      (w.call c (.check c)).tally = { w.tally.look with
        running := w.tally.running + (if w.state.answer (.check c) then 1 else 0),
          unchecked := 0 } ∧
      (w.call c (.peek c)).tally = w.tally.look ∧
      (w.call c (.completed c)).tally = { w.tally with
        running := w.tally.running - 1, outstanding := w.tally.outstanding - 1 } ∧
      (w.call c (.failed c)).tally = { w.tally with running := w.tally.running - 1 } := by
  simp [Watched.call, Tally.after]

/-- **Every call that is allowed keeps the flag and the counters in step with the history.** -/
theorem Watched.Kept.call (kept : w.Kept c) {call : Call Conn} (allowed : w.Allowed c call) :
    (w.call c call).Kept c := by
  obtain ⟨answers, outstanding, unchecked⟩ := allowed
  have running := kept.running
  have claimed := kept.claimed
  obtain ⟨neededTally, checkTally, peekTally, completedTally, failedTally⟩ := w.tally_self (c := c)
  rcases call.other_or_own c with ⟨c', about, other⟩ | rfl | rfl | rfl | rfl | rfl | rfl
  · obtain ⟨conn, generation, tally⟩ := w.call_other about other
    constructor <;> rw [tally] <;> try rw [conn]
    · exact kept.running
    · exact kept.claimed
    · exact kept.required
    · exact kept.outstanding
    · rw [generation]; exact kept.generation
    · exact kept.unseen
    · exact kept.unchecked
  · refine ⟨kept.running, kept.claimed, kept.required, kept.outstanding, ?_, ?_, unchecked⟩
    · show w.state.generation + 1 = (w.state.conn c).generation + BitVec.ofNat 16
        (w.tally.unseen + 1)
      rw [kept.generation, BitVec.ofNat_add, BitVec.add_assoc]
      rfl
    · exact Nat.succ_le_succ kept.unseen
  · rw [neededTally] at outstanding
    constructor <;> rw [neededTally] <;> simp only [Watched.call, State.call, conn_modify_self]
    · exact kept.running
    · exact Nat.le_succ_of_le kept.claimed
    · show (w.state.conn c).regenRequired + 1 = _
      rw [kept.required, BitVec.ofNat_add]
      rfl
    · exact outstanding
    · exact kept.generation
    · exact kept.unseen
    · exact kept.unchecked
  · rw [checkTally] at outstanding
    have looked := kept.look outstanding
    have answer := kept.check outstanding
    obtain ⟨required, generation, inProgress⟩ := kept.observe
    obtain ⟨requiredAfter, generationAfter, inProgressAfter⟩ :=
      check_state (w.state.conn c) w.state.generation
    constructor <;> rw [checkTally] <;> simp only [Watched.call, State.call, conn_modify_self]
    · rw [inProgressAfter, inProgress]
      show _ = if (_ || w.state.answer (.check c)) = true then 1 else 0
      rw [answer, running]
      cases (w.state.conn c).regenInProgress <;> by_cases none :
        w.tally.look.outstanding = 0 <;> simp [none]
    · show w.tally.running + _ ≤ w.tally.look.outstanding
      have before : w.tally.running ≤ w.tally.look.outstanding := looked.claimed
      rw [answer]
      split_ifs with claim
      · simp only [decide_eq_true_eq] at claim
        omega
      · exact before
    · rw [requiredAfter, required]
    · exact outstanding
    · rw [generationAfter, generation]
      exact (BitVec.add_zero _).symm
    · exact Nat.zero_le _
    · exact Nat.two_pow_pos 16
  · rw [peekTally] at outstanding
    have looked := kept.look outstanding
    have same : w.call c (.peek c) =
        ⟨w.state.modify c ((w.state.conn c).observe w.state.generation), w.tally.look⟩ := by
      rw [← peekTally, ← peek_state]
      rfl
    rwa [same]
  · have busy : 0 < w.tally.running := answers (.inl rfl)
    have one : w.tally.running = 1 := by
      rw [running] at busy ⊢
      split_ifs at busy ⊢ <;> simp_all
    rw [completedTally] at outstanding
    constructor <;> rw [completedTally] <;> simp only [Watched.call, State.call, conn_modify_self]
    · simp [one, Instance.regenerationCompleted]
    · simp [one]
    · show (w.state.conn c).regenRequired - 1 = _
      have some : 1 ≤ w.tally.outstanding := one ▸ claimed
      have bound := kept.outstanding
      rw [kept.required]
      show _ = BitVec.ofNat 16 (w.tally.outstanding - 1)
      bv_omega
    · exact outstanding
    · exact kept.generation
    · exact kept.unseen
    · exact kept.unchecked
  · have busy : 0 < w.tally.running := answers (.inr rfl)
    have one : w.tally.running = 1 := by
      rw [running] at busy ⊢
      split_ifs at busy ⊢ <;> simp_all
    constructor <;> rw [failedTally] <;> simp only [Watched.call, State.call, conn_modify_self]
    · simp [one, Instance.regenerationFailed]
    · simp [one]
    · exact kept.required
    · exact kept.outstanding
    · exact kept.generation
    · exact kept.unseen
    · exact kept.unchecked

/-! ### Runs -/

@[simp]
theorem Watched.run_nil : w.run c [] = w := rfl

@[simp]
theorem Watched.run_cons {call : Call Conn} {calls : List (Call Conn)} :
    w.run c (call :: calls) = (w.call c call).run c calls := rfl

theorem Watched.legal_append {before after : List (Call Conn)} :
    w.Legal c (before ++ after) ↔ w.Legal c before ∧ (w.run c before).Legal c after := by
  induction before generalizing w with
  | nil => simp [Watched.Legal]
  | cons call before ih =>
    simp only [List.cons_append, Watched.Legal, ih, Watched.run_cons]
    exact and_assoc.symm

theorem Watched.Kept.run (kept : w.Kept c) {calls : List (Call Conn)} (legal : w.Legal c calls) :
    (w.run c calls).Kept c := by
  induction calls generalizing w with
  | nil => exact kept
  | cons call calls ih =>
    obtain ⟨allowed, legal⟩ := legal
    exact ih (kept.call allowed) legal

/-! ### No change is lost -/

theorem Tally.look_outstanding (tally : Tally) :
    tally.look.outstanding = tally.outstanding + if tally.unseen = 0 then 0 else 1 := by
  unfold Tally.look
  show (if tally.unseen = 0 then tally.outstanding else tally.outstanding + 1) = _
  split_ifs <;> rfl

/-- A change waits for a re-generation: one that started after it is under way, or there are more
requests than the one that a re-generation under way takes back. -/
def Watched.Waits (started : Bool) (w : Watched Conn) : Prop :=
  if started then 0 < w.tally.running else w.tally.running < w.tally.look.outstanding

/-- A connection with a change that waits has a request. -/
theorem Watched.Kept.requested (kept : w.Kept c) {started : Bool} (waits : w.Waits started) :
    0 < w.tally.look.outstanding := by
  have claimed := kept.claimed
  have more := w.tally.look_outstanding
  unfold Watched.Waits at waits
  split_ifs at waits <;> omega

/-- **A change waits from when it happens.** -/
theorem Watched.Kept.waits (kept : w.Kept c) {call : Call Conn} (changes : call.Changes c) :
    (w.call c call).Waits false := by
  have claimed := kept.claimed
  show (w.call c call).tally.running < (w.call c call).tally.look.outstanding
  rw [Tally.look_outstanding]
  rcases changes with rfl | rfl
  · show w.tally.running < w.tally.outstanding + if w.tally.unseen + 1 = 0 then 0 else 1
    simp
    omega
  · rw [w.tally_self.1]
    dsimp only
    omega

/-- **It goes on waiting until a re-generation completes that started after it.** -/
theorem Watched.Kept.waits_call (kept : w.Kept c) {call : Call Conn} (allowed : w.Allowed c call)
    {started : Bool} (waits : w.Waits started)
    (incomplete : ¬(started = true ∧ call = .completed c)) :
    (w.call c call).Waits (if call = .completed c ∨ call = .failed c then false
      else started || (decide (call = .check c) && w.state.answer call)) := by
  have requested := kept.requested waits
  have look := w.tally.look_outstanding
  have claimed := kept.claimed
  have lookAfter := (w.call c call).tally.look_outstanding
  obtain ⟨neededTally, checkTally, peekTally, completedTally, failedTally⟩ := w.tally_self (c := c)
  rcases call.other_or_own c with ⟨c', about, other⟩ | rfl | rfl | rfl | rfl | rfl | rfl
  · have completed : call ≠ .completed c := by rintro rfl; cases about; exact other rfl
    have failed : call ≠ .failed c := by rintro rfl; cases about; exact other rfl
    have check : call ≠ .check c := by rintro rfl; cases about; exact other rfl
    simp only [completed, failed, check, or_self, if_false, decide_false, Bool.false_and,
      Bool.or_false]
    unfold Watched.Waits
    rw [(w.call_other about other).2.2]
    exact waits
  · have more : (w.call c .neededAll).tally.look.outstanding = w.tally.outstanding + 1 := by
      rw [lookAfter]
      rfl
    have still : (w.call c .neededAll).Waits started := by
      cases started with
      | true => exact waits
      | false =>
        show w.tally.running < _
        omega
    simpa using still
  · rw [neededTally] at lookAfter
    have still : (w.call c (.needed c)).Waits started := by
      cases started with
      | true =>
        have busy : 0 < w.tally.running := waits
        show 0 < (w.call c (.needed c)).tally.running
        rwa [neededTally]
      | false =>
        show (w.call c (.needed c)).tally.running < (w.call c (.needed c)).tally.look.outstanding
        rw [neededTally, lookAfter]
        dsimp only
        omega
    simpa using still
  · have same : (w.call c (.check c)).tally.look.outstanding = w.tally.look.outstanding := by
      rw [lookAfter, checkTally]
      rfl
    have still : (w.call c (.check c)).Waits (started || w.state.answer (.check c)) := by
      unfold Watched.Waits at waits ⊢
      rw [same, checkTally]
      dsimp only
      cases started <;> cases w.state.answer (.check c) <;> simp_all
    simpa using still
  · have same : (w.call c (.peek c)).tally.look.outstanding = w.tally.look.outstanding := by
      rw [lookAfter, peekTally]
      rfl
    have still : (w.call c (.peek c)).Waits started := by
      unfold Watched.Waits at waits ⊢
      rwa [same, peekTally]
    simpa using still
  · have busy : 0 < w.tally.running := allowed.answers (.inl rfl)
    have fresh : started = false := by
      by_contra started
      exact incomplete ⟨by simpa using started, rfl⟩
    rw [fresh] at waits
    have waits : w.tally.running < w.tally.look.outstanding := waits
    have still : (w.call c (.completed c)).Waits false := by
      show (w.call c (.completed c)).tally.running <
        (w.call c (.completed c)).tally.look.outstanding
      rw [completedTally] at lookAfter ⊢
      dsimp only at lookAfter ⊢
      omega
    simpa using still
  · have busy : 0 < w.tally.running := allowed.answers (.inr rfl)
    have still : (w.call c (.failed c)).Waits false := by
      show (w.call c (.failed c)).tally.running < (w.call c (.failed c)).tally.look.outstanding
      rw [failedTally] at lookAfter ⊢
      dsimp only at lookAfter ⊢
      omega
    simpa using still

theorem Watched.Kept.waits_run (kept : w.Kept c) {calls : List (Call Conn)}
    (legal : w.Legal c calls) {started : Bool} (waits : w.Waits started)
    (incomplete : w.regenerates c started calls = false) :
    ∃ started', (w.run c calls).Waits started' := by
  induction calls generalizing w started with
  | nil => exact ⟨started, waits⟩
  | cons call calls ih =>
    obtain ⟨allowed, legal⟩ := legal
    rw [Watched.regenerates, Bool.or_eq_false_iff] at incomplete
    obtain ⟨notNow, notLater⟩ := incomplete
    refine ih (kept.call allowed) legal (kept.waits_call allowed waits ?_) notLater
    rintro ⟨rfl, rfl⟩
    simp at notNow

/-! ### No request stays -/

/-- **Without a change, every completed re-generation takes back one request and nothing adds
one.** -/
theorem Watched.Kept.quiet_call (kept : w.Kept c) {call : Call Conn} (allowed : w.Allowed c call)
    (seen : w.tally.unseen = 0) (quiet : ¬call.Changes c) :
    (w.call c call).tally.unseen = 0 ∧
      (w.call c call).tally.outstanding + (if call = .completed c then 1 else 0) =
          w.tally.outstanding := by
  have claimed := kept.claimed
  have look := w.tally.look_outstanding
  rw [seen, if_pos rfl] at look
  obtain ⟨neededTally, checkTally, peekTally, completedTally, failedTally⟩ := w.tally_self (c := c)
  rcases call.other_or_own c with ⟨c', about, other⟩ | rfl | rfl | rfl | rfl | rfl | rfl
  · have completed : call ≠ .completed c := by rintro rfl; cases about; exact other rfl
    rw [(w.call_other about other).2.2, if_neg completed]
    exact ⟨seen, rfl⟩
  · exact absurd (.inl rfl) quiet
  · exact absurd (.inr rfl) quiet
  · rw [checkTally]
    exact ⟨rfl, look⟩
  · rw [peekTally]
    exact ⟨rfl, look⟩
  · have busy : 0 < w.tally.running := allowed.answers (.inl rfl)
    rw [completedTally, if_pos rfl]
    exact ⟨seen, Nat.sub_add_cancel (le_trans busy claimed)⟩
  · rw [failedTally]
    exact ⟨seen, rfl⟩

theorem Watched.Kept.quiet_run (kept : w.Kept c) {calls : List (Call Conn)}
    (legal : w.Legal c calls) (seen : w.tally.unseen = 0)
    (quiet : ∀ call ∈ calls, ¬call.Changes c) :
    (w.run c calls).tally.unseen = 0 ∧
      (w.run c calls).tally.outstanding + calls.count (.completed c) = w.tally.outstanding := by
  induction calls generalizing w with
  | nil => exact ⟨seen, rfl⟩
  | cons call calls ih =>
    obtain ⟨allowed, legal⟩ := legal
    obtain ⟨seenNext, next⟩ := kept.quiet_call allowed seen (quiet call List.mem_cons_self)
    obtain ⟨seenLast, last⟩ := ih (kept.call allowed) legal seenNext
      fun later member => quiet later (List.mem_cons_of_mem _ member)
    refine ⟨seenLast, ?_⟩
    rw [List.count_cons, ← next, ← last, Watched.run_cons]
    simp only [beq_iff_eq]
    omega

/-- **Re-generation loses no change.** At most one thread re-generates a connection. After a change,
a peek returns true until a re-generation completes that started after it. Without a change since a
re-generation started, a peek returns true until as many completed as the connection had requests
when it started, and false from then on, and so does a check while nobody re-generates the
connection. -/
theorem regeneration_loses_no_change (added : w.Added c) :
    (∀ calls, w.Legal c calls → (w.run c calls).tally.running ≤ 1) ∧
    (∀ before change after, change.Changes c →
      w.Legal c (before ++ change :: (after ++ [.peek c])) →
      (w.run c (before ++ [change])).regenerates c false after = false →
        (w.run c (before ++ change :: after)).state.answer (.peek c) = true) ∧
    (∀ before after, w.Legal c (before ++ .check c :: after) →
      (w.run c before).state.answer (.check c) = true → (∀ call ∈ after, ¬call.Changes c) →
        let requests := ((w.run c (before ++ [.check c])).state.conn c).regenRequired.toNat
        let last := w.run c (before ++ .check c :: after)
        last.state.answer (.peek c) = decide (after.count (.completed c) < requests) ∧
          last.state.answer (.check c) =
            decide (last.tally.running = 0 ∧ after.count (.completed c) < requests)) := by
  refine ⟨?_, ?_, ?_⟩
  · intro calls legal
    rw [(added.kept.run legal).running]
    split_ifs <;> decide
  · intro before change after changes legal incomplete
    obtain ⟨legalBefore, allowed, legal⟩ := Watched.legal_append.mp legal
    obtain ⟨legalAfter, peek, -⟩ := Watched.legal_append.mp legal
    have kept := added.kept.run legalBefore
    have keptChange := kept.call allowed
    have split : w.run c (before ++ [change]) = (w.run c before).call c change := List.foldl_append
    rw [split] at incomplete
    obtain ⟨started, waits⟩ := keptChange.waits_run legalAfter (kept.waits changes) incomplete
    have keptLast := keptChange.run legalAfter
    have bound := peek.outstanding
    rw [Watched.tally_self _ |>.2.2.1] at bound
    have whole : w.run c (before ++ change :: after) =
        ((w.run c before).call c change).run c after :=
      List.foldl_append
    rw [whole, keptLast.peek bound, decide_eq_true_eq]
    exact Nat.ne_of_gt (keptLast.requested waits)
  · intro before after legal answer quiet requests last
    obtain ⟨legalBefore, allowed, legalAfter⟩ := Watched.legal_append.mp legal
    have kept := added.kept.run legalBefore
    have keptStart := kept.call allowed
    have start : w.run c (before ++ [.check c]) = (w.run c before).call c (.check c) :=
      List.foldl_append
    have whole : last = ((w.run c before).call c (.check c)).run c after := List.foldl_append
    have keptLast : last.Kept c := whole ▸ keptStart.run legalAfter
    have seen : ((w.run c before).call c (.check c)).tally.unseen = 0 := by
      rw [(Watched.tally_self _).2.1]
      rfl
    obtain ⟨seenLast, outstanding⟩ := keptStart.quiet_run legalAfter seen quiet
    rw [← whole] at seenLast outstanding
    have found : requests = ((w.run c before).call c (.check c)).tally.outstanding := by
      show ((w.run c (before ++ [.check c])).state.conn c).regenRequired.toNat = _
      rw [start, keptStart.required, BitVec.toNat_ofNat]
      exact Nat.mod_eq_of_lt keptStart.outstanding
    have look := last.tally.look_outstanding
    rw [seenLast, if_pos rfl] at look
    have bound : last.tally.look.outstanding < 2 ^ 16 := look ▸ keptLast.outstanding
    have some : last.tally.look.outstanding ≠ 0 ↔ after.count (.completed c) < requests := by omega
    rw [keptLast.peek bound, keptLast.check bound]
    simp only [some, and_self]

/-! ### Fixed runs -/

instance (w : Watched Conn) (call : Call Conn) : Decidable (w.Allowed c call) :=
  decidable_of_iff ((call = .completed c ∨ call = .failed c → 0 < w.tally.running) ∧
    (w.call c call).tally.outstanding < 2 ^ 16 ∧ (w.call c call).tally.unchecked < 2 ^ 16)
    ⟨fun ⟨answers, outstanding, unchecked⟩ => ⟨answers, outstanding, unchecked⟩,
      fun ⟨answers, outstanding, unchecked⟩ => ⟨answers, outstanding, unchecked⟩⟩

instance decidableLegal : (w : Watched Conn) → (calls : List (Call Conn)) →
    Decidable (w.Legal c calls)
  | _, [] => isTrue trivial
  | w, call :: calls =>
    have := decidableLegal (w.call c call) calls
    inferInstanceAs (Decidable (w.Allowed c call ∧ (w.call c call).Legal c calls))

/-- A connection that was just added, with the global generation about to come round. -/
def justAdded : Watched Unit :=
  ⟨⟨0xFFFF, fun _ => ⟨false, 0, 0, 0xFFFF, 0, 0⟩⟩, ⟨0, 0, 0, 0⟩⟩

theorem justAdded_added : justAdded.Added () := ⟨rfl, rfl, rfl, rfl⟩

/-- A global change during a re-generation is not lost, also when the generation comes round. -/
theorem change_during_regeneration :
    (justAdded.run () [.needed (), .check (), .neededAll, .completed ()]).state.answer
        (.peek ()) = true :=
  (regeneration_loses_no_change justAdded_added).2.1 [.needed (), .check ()] .neededAll
    [.completed ()]
    (.inl rfl) (by decide) (by decide)

/-- **A completed re-generation does not take back all requests that came before it started**: two
changes, one re-generation after both of them, and the connection still has to be re-generated. -/
theorem regenerated_again :
    ¬∀ (w : Watched Unit) (before after : List (Call Unit)), w.Added () →
      w.Legal () (before ++ .check () :: .completed () :: after) →
      (w.run () before).state.answer (.check ()) = true → (∀ call ∈ after, ¬call.Changes ()) →
        (w.run () (before ++ .check () :: .completed () :: after)).state.answer
        (.check ()) = false ∧
        (w.run () (before ++ .check () :: .completed () :: after)).state.answer
            (.peek ()) = false := by
  intro clean
  obtain ⟨-, peek⟩ := clean justAdded [.needed (), .needed ()] [] justAdded_added
    (by decide) (by decide)
    fun _ member => by cases member
  revert peek
  decide

end Qsdk.Ecm.Regeneration
