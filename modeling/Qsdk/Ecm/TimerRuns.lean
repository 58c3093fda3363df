/-
**The timer groups over whole runs.**

The abstract timer of an entry is the group that it is armed in and the time at which it expires
(`Alarms`), with no lists. Every call does to the alarms what it should, and answers accordingly
(`Alarms.Step`): an entry is called back only for the deadline that it was armed for last. What a
tick calls back over its whole length follows from one fact: when it has finished a group, every
entry of the group has time left (`State.Queues.waiting`).
-/

import Qsdk.Ecm.Timer
import Mathlib.Data.List.Count

set_option linter.unusedSectionVars false

namespace Qsdk.Ecm.Timer

variable {Entry : Type} [DecidableEq Entry] {state : State Entry} {lists : Group → List Entry}

/-! ### Every call keeps the queues -/

theorem State.Queues.call (queues : state.Queues lists) {call : Call Entry}
    (allowed : state.Allowed call) (inTime : state.InTime call) :
    ∃ lists, (state.call call).2.Queues lists := by
  have out : ∀ {tge g}, state.group tge = some g → (state.remove tge).2.group tge = none := by
    intro tge g armed
    rw [State.remove_some armed]
    exact Function.update_self _ _ _
  have sameTime : ∀ tge, (state.remove tge).2.time = state.time := by
    intro tge
    unfold State.remove
    split <;> rfl
  cases call with
  | init tge =>
    have group : state.group tge = none := allowed
    have outside : ∀ g, ∀ other ∈ lists g, other ≠ tge := by
      rintro g other member rfl
      rw [queues.group, group] at member
      cases member
    have same : Function.update state.group tge none = state.group := by
      rw [← group, Function.update_eq_self]
    have others : ∀ other, other ≠ tge → (state.init tge).timeout other = state.timeout other :=
      fun other different => Function.update_of_ne different _ _
    refine ⟨lists, ?_, queues.nodup, queues.head, queues.tail, ?_, ?_, ?_, ?_, queues.now⟩
    · exact fun g => (queues.chained g).congr
        (fun other member => Function.update_of_ne (outside g other member) _ _)
        fun other member => Function.update_of_ne (outside g other member) _ _
    · intro g other
      show _ ↔ Function.update state.group tge none other = some g
      rw [same]
      exact queues.group g other
    · intro g
      refine (queues.sorted g).imp_of_mem ?_
      intro later earlier laterMember earlierMember order
      show (state.init tge).timeout earlier ≤ (state.init tge).timeout later
      rwa [others _ (outside g _ laterMember), others _ (outside g _ earlierMember)]
    · intro g other member
      show (state.init tge).timeout other ≤ _
      rw [others _ (outside g other member)]
      exact queues.bound g other member
    · intro g done other member
      show _ < (state.init tge).timeout other
      rw [others _ (outside g other member)]
      exact queues.waiting g done other member
  | set tge tg => exact ⟨_, queues.set allowed inTime⟩
  | reset tge tg =>
    cases armed : state.group tge with
    | none =>
      have refused : state.remove tge = (false, state) := by unfold State.remove; rw [armed]
      have same : (state.call (.reset tge tg)).2 = state := by
        show (state.reset tge tg).2 = state
        unfold State.reset
        rw [refused]
        rfl
      rw [same]
      exact ⟨lists, queues⟩
    | some g =>
      have moved : (state.call (.reset tge tg)).2 = (state.remove tge).2.set tge tg := by
        show (state.reset tge tg).2 = _
        unfold State.reset
        rw [State.remove_some armed]
        rfl
      rw [moved]
      exact ⟨_, (queues.remove armed).set (out armed) (by rw [sameTime]; exact inTime)⟩
  | touch tge =>
    cases armed : state.group tge with
    | none =>
      have same : (state.call (.touch tge)).2 = state := by
        show (state.touch tge).2 = state
        unfold State.touch
        rw [armed]
      rw [same]
      exact ⟨lists, queues⟩
    | some g => exact queues.touch armed (inTime g armed)
  | remove tge =>
    cases armed : state.group tge with
    | none =>
      have same : (state.call (.remove tge)).2 = state := by
        show (state.remove tge).2 = state
        unfold State.remove
        rw [armed]
      rw [same]
      exact ⟨lists, queues⟩
    | some g => exact ⟨_, queues.remove armed⟩
  | removeAndSet tge tg =>
    show ∃ lists, (state.removeAndSet tge tg).Queues lists
    unfold State.removeAndSet
    split_ifs with there armed
    · exact ⟨lists, queues⟩
    · obtain ⟨g, armed⟩ := Option.ne_none_iff_exists'.mp armed
      exact ⟨_, (queues.remove armed).set (out armed) (by rw [sameTime]; exact inTime)⟩
    · exact ⟨_, queues.set (not_not.mp armed) inTime⟩
  | tick =>
    have later : (state.time + 1) % 2 ^ 32 = state.time + 1 := Nat.mod_eq_of_lt inTime
    refine ⟨lists, { queues with bound := ?_, waiting := ?_, now := ?_ }⟩
    · intro g tge member
      have bound := queues.bound g tge member
      show state.timeout tge ≤ g.time + (state.time + 1) % 2 ^ 32
      omega
    · exact fun g done => absurd g.mem_all done
    · rintro _ _ ⟨⟩
      rfl
  | check => exact queues.check

@[simp]
theorem State.run_append (calls more : List (Call Entry)) :
    state.run (calls ++ more) = (state.run calls).run more := List.foldl_append

theorem State.run_cons (call : Call Entry) (calls : List (Call Entry)) :
    state.run (call :: calls) = (state.call call).2.run calls := rfl

theorem State.along_append {rule : State Entry → Call Entry → Prop}
    {calls more : List (Call Entry)} :
    state.Along rule (calls ++ more) ↔ state.Along rule calls ∧
        (state.run calls).Along rule more := by
  induction calls generalizing state with
  | nil => exact ⟨fun along => ⟨trivial, along⟩, fun along => along.2⟩
  | cons call calls ih =>
    simp only [List.cons_append, State.Along, ih]
    exact and_assoc.symm

/-- **In every run the timer groups are queues.** -/
theorem State.Queues.run (queues : state.Queues lists) {calls : List (Call Entry)}
    (legal : state.Legal calls) :
    ∃ lists, (state.run calls).Queues lists := by
  induction calls generalizing state lists with
  | nil => exact ⟨lists, queues⟩
  | cons call calls ih =>
    obtain ⟨⟨allowed, inTime⟩, legal⟩ := legal
    obtain ⟨lists, queues⟩ := queues.call allowed inTime
    exact ih queues legal

/-! ### The abstract timers -/

/-- The clock, and for every entry that is armed its group and its deadline. -/
@[ext]
structure Alarms (Entry : Type) where
  clock : Nat
  armed : Entry → Option (Group × Nat)

def Alarms.arm (alarms : Alarms Entry) (tge : Entry) (tg : Group) : Alarms Entry :=
  { alarms with armed := Function.update alarms.armed tge (some (tg, tg.time + alarms.clock)) }

def Alarms.disarm (alarms : Alarms Entry) (tge : Entry) : Alarms Entry :=
  { alarms with armed := Function.update alarms.armed tge none }

/-- **What every call is for**, and what it answers. -/
inductive Alarms.Step (alarms : Alarms Entry) : Call Entry → Answer Entry → Alarms Entry → Prop
  | init (tge : Entry) : Step alarms (.init tge) .done (alarms.disarm tge)
  | set (tge : Entry) (tg : Group) : Step alarms (.set tge tg) .done (alarms.arm tge tg)
  | reset (tge : Entry) (tg : Group) (runs : alarms.armed tge ≠ none) :
    Step alarms (.reset tge tg) (.result true) (alarms.arm tge tg)
  | resetLate (tge : Entry) (tg : Group) (late : alarms.armed tge = none) :
    Step alarms (.reset tge tg) (.result false) alarms
  | touch (tge : Entry) (g : Group) (deadline : Nat)
      (runs : alarms.armed tge = some (g, deadline)) :
    Step alarms (.touch tge) (.result true) (alarms.arm tge g)
  | touchLate (tge : Entry) (late : alarms.armed tge = none) :
    Step alarms (.touch tge) (.result false) alarms
  | remove (tge : Entry) (runs : alarms.armed tge ≠ none) :
    Step alarms (.remove tge) (.result true) (alarms.disarm tge)
  | removeLate (tge : Entry) (late : alarms.armed tge = none) :
    Step alarms (.remove tge) (.result false) alarms
  | stay (tge : Entry) (tg : Group) (deadline : Nat)
      (runs : alarms.armed tge = some (tg, deadline)) :
    Step alarms (.removeAndSet tge tg) .done alarms
  | move (tge : Entry) (tg : Group) (elsewhere : ∀ deadline, alarms.armed tge ≠
      some (tg, deadline)) :
    Step alarms (.removeAndSet tge tg) .done (alarms.arm tge tg)
  | tick : Step alarms .tick .done { alarms with clock := alarms.clock + 1 }
  | check : Step alarms .check .done alarms
  | expire (tge : Entry) (g : Group) (deadline : Nat) (runs : alarms.armed tge = some (g, deadline))
    (due : deadline ≤ alarms.clock) : Step alarms .check (.expired tge) (alarms.disarm tge)

/-- What the entries and the clock say of the alarms. -/
def State.alarms (state : State Entry) : Alarms Entry :=
  ⟨state.time, fun tge => (state.group tge).map fun g => (g, state.timeout tge)⟩

theorem State.armed_eq {tge : Entry} {g : Group} (armed : state.group tge = some g) :
    state.alarms.armed tge = some (g, state.timeout tge) := by
  show (state.group tge).map _ = _
  rw [armed]
  rfl

theorem State.armed_eq_none {tge : Entry} : state.alarms.armed tge = none ↔
    state.group tge = none :=
  Option.map_eq_none_iff

theorem State.alarms_set {tge : Entry} {tg : Group} (clock : tg.time + state.time < 2 ^ 32) :
    (state.set tge tg).alarms = state.alarms.arm tge tg := by
  refine Alarms.ext rfl (funext fun other => ?_)
  show (Function.update state.group tge (some tg) other).map
    (fun g => (g, Function.update state.timeout tge (state.deadline tg) other)) =
      Function.update state.alarms.armed tge _ other
  by_cases self : other = tge
  · subst self
    simp only [Function.update_self, Option.map_some, State.deadline, Nat.mod_eq_of_lt clock]
    rfl
  · simp only [Function.update_of_ne self]
    rfl

theorem State.alarms_remove {tge : Entry} (runs : state.group tge ≠ none) :
    (state.remove tge).1 = true ∧ (state.remove tge).2.alarms = state.alarms.disarm tge ∧
      (state.remove tge).2.time = state.time := by
  obtain ⟨g, armed⟩ := Option.ne_none_iff_exists'.mp runs
  rw [State.remove_some armed]
  refine ⟨rfl, Alarms.ext rfl (funext fun other => ?_), rfl⟩
  show (Function.update state.group tge none other).map _ =
    Function.update state.alarms.armed tge none other
  by_cases self : other = tge
  · subst self
    rw [Function.update_self, Function.update_self]
    rfl
  · rw [Function.update_of_ne self, Function.update_of_ne self]
    rfl

theorem State.remove_none {tge : Entry} (late : state.group tge = none) :
    state.remove tge = (false, state) := by
  unfold State.remove
  rw [late]

theorem Alarms.disarm_arm (alarms : Alarms Entry) (tge : Entry) (tg : Group) :
    (alarms.disarm tge).arm tge tg = alarms.arm tge tg :=
  Alarms.ext rfl (Function.update_idem _ _ _)

/-- An entry that is taken out and set again is armed anew. -/
theorem State.alarms_reset {tge : Entry} {tg : Group} (runs : state.group tge ≠ none)
    (clock : tg.time + state.time < 2 ^ 32) : ((state.remove tge).2.set tge tg).alarms =
        state.alarms.arm tge tg := by
  obtain ⟨-, alarms, time⟩ := State.alarms_remove runs
  rw [State.alarms_set (by rwa [time]), alarms, Alarms.disarm_arm]

/-- **The functions do to the alarms what they are for.** -/
theorem State.Queues.step (queues : state.Queues lists) {call : Call Entry}
    (allowed : state.Allowed call)
    (inTime : state.InTime call) :
    state.alarms.Step call (state.call call).1 (state.call call).2.alarms := by
  cases call with
  | init tge =>
    have same : (state.init tge).alarms = state.alarms.disarm tge := by
      refine Alarms.ext rfl (funext fun other => ?_)
      show (Function.update state.group tge none other).map _ =
        Function.update state.alarms.armed tge none other
      by_cases self : other = tge
      · subst self
        rw [Function.update_self, Function.update_self]
        rfl
      · rw [Function.update_of_ne self, Function.update_of_ne self]
        show (state.group other).map (fun g => (g, Function.update state.timeout tge 0 other)) = _
        rw [Function.update_of_ne self]
        rfl
    exact same ▸ .init tge
  | set tge tg => exact State.alarms_set inTime ▸ .set tge tg
  | reset tge tg =>
    show state.alarms.Step _ (.result (state.reset tge tg).1) (state.reset tge tg).2.alarms
    unfold State.reset
    by_cases runs : state.group tge = none
    · rw [State.remove_none runs]
      exact .resetLate tge tg (State.armed_eq_none.mpr runs)
    · obtain ⟨removed, -, -⟩ := State.alarms_remove runs
      have again := State.alarms_reset runs inTime
      simp only [removed, if_true, again]
      exact .reset tge tg fun none => runs (State.armed_eq_none.mp none)
  | touch tge =>
    show state.alarms.Step _ (.result (state.touch tge).1) (state.touch tge).2.alarms
    cases armed : state.group tge with
    | none =>
      have same : state.touch tge = (false, state) := by
        unfold State.touch
        rw [armed]
      rw [same]
      exact .touchLate tge (State.armed_eq_none.mpr armed)
    | some g =>
      have clock := inTime g armed
      have touched : (state.touch tge).1 = true ∧ (state.touch tge).2.alarms =
          state.alarms.arm tge g := by
        by_cases first : state.links.prev tge = none
        · have same : state.touch tge =
              (true, { state with timeout := Function.update state.timeout tge (state.deadline g) })
                := by
            unfold State.touch
            rw [armed]
            exact if_pos first
          rw [same]
          refine ⟨rfl, Alarms.ext rfl (funext fun other => ?_)⟩
          show (state.group other).map
            (fun g' => (g', Function.update state.timeout tge (state.deadline g) other)) =
              Function.update state.alarms.armed tge _ other
          by_cases self : other = tge
          · subst self
            rw [armed, Function.update_self, Function.update_self, State.deadline,
              Nat.mod_eq_of_lt clock]
            rfl
          · rw [Function.update_of_ne self, Function.update_of_ne self]
            rfl
        · rw [queues.touch_eq armed first]
          exact ⟨rfl, State.alarms_reset (by rw [armed]; exact Option.some_ne_none g) clock⟩
      rw [touched.1, touched.2]
      exact .touch tge g _ (State.armed_eq armed)
  | remove tge =>
    show state.alarms.Step _ (.result (state.remove tge).1) (state.remove tge).2.alarms
    by_cases runs : state.group tge = none
    · rw [State.remove_none runs]
      exact .removeLate tge (State.armed_eq_none.mpr runs)
    · obtain ⟨removed, alarms, -⟩ := State.alarms_remove runs
      rw [removed, alarms]
      exact .remove tge fun none => runs (State.armed_eq_none.mp none)
  | removeAndSet tge tg =>
    show state.alarms.Step _ .done (state.removeAndSet tge tg).alarms
    have clock := inTime
    have elsewhere (other : state.group tge ≠ some tg) : ∀ deadline,
        state.alarms.armed tge ≠ some (tg, deadline) := by
      intro deadline armed
      obtain ⟨g, group, pair⟩ := Option.map_eq_some_iff.mp armed
      rw [group, (Prod.mk.inj pair).1] at other
      exact other rfl
    unfold State.removeAndSet
    split_ifs with there runs
    · exact .stay tge tg _ (State.armed_eq there)
    · rw [State.alarms_reset runs clock]
      exact .move tge tg (elsewhere there)
    · rw [State.alarms_set clock]
      exact .move tge tg (elsewhere there)
  | tick =>
    have same : state.tick.alarms = { state.alarms with clock := state.alarms.clock + 1 } :=
      Alarms.ext (Nat.mod_eq_of_lt inTime) rfl
    exact same ▸ .tick
  | check =>
    show state.alarms.Step _ (state.check.1.elim .done .expired) state.check.2.alarms
    unfold State.check
    split
    · exact .check
    · exact .check
    · rename_i timeNow g rest checking
      split
      · exact .check
      · rename_i tge tail
        split_ifs with late
        · exact .check
        · obtain ⟨armed, same⟩ := queues.expire_eq tail
          have now := queues.now _ _ checking
          obtain ⟨-, alarms, -⟩ := State.alarms_remove (armed ▸ Option.some_ne_none g)
          show state.alarms.Step _ (.expired tge) (state.expire g tge).alarms
          rw [same, alarms]
          exact .expire tge g _ (State.armed_eq armed)
            (by show state.timeout tge ≤ state.time; omega)

/-! ### What a tick calls back -/

/-- The entry that a call is made for. -/
def Call.entry : Call Entry → Option Entry
  | .init tge | .set tge _ | .reset tge _ | .touch tge | .remove tge | .removeAndSet tge _ =>
    some tge
  | .tick | .check => none

/-- The deadline of the entry is not later than the clock. -/
def Alarms.Due (alarms : Alarms Entry) (tge : Entry) : Prop :=
  ∃ g deadline, alarms.armed tge = some (g, deadline) ∧ deadline ≤ alarms.clock

/-- The entries that a run calls back, in its order. -/
def State.expired (state : State Entry) : List (Call Entry) → List Entry
  | [] => []
  | call :: calls =>
    (match (state.call call).1 with
      | .expired tge => [tge]
      | _ => []) ++ State.expired (state.call call).2 calls

variable {alarms after : Alarms Entry} {call : Call Entry} {answer : Answer Entry} {tge : Entry}

/-- Only a tick moves the clock. -/
theorem Alarms.Step.clock (step : alarms.Step call answer after) (noTick : call ≠ .tick) :
    after.clock = alarms.clock := by
  cases step <;> first | rfl | exact absurd rfl noTick

/-- A call does nothing to an entry that it is not made for and that it does not call back. -/
theorem Alarms.Step.others (step : alarms.Step call answer after)
    (untouched : call.entry ≠ some tge) (running : answer ≠ .expired tge) :
        after.armed tge = alarms.armed tge := by
  have apart : ∀ other, call.entry = some other → tge ≠ other := by
    rintro other made rfl
    exact untouched made
  cases step with
  | init other | set other | reset other | touch other | remove other | move other =>
    exact Function.update_of_ne (apart other rfl) _ _
  | resetLate | touchLate | removeLate | stay | tick | check => rfl
  | expire other =>
    refine Function.update_of_ne ?_ _ _
    rintro rfl
    exact running rfl

/-- Who is called back was due, and runs no longer. -/
theorem Alarms.Step.expired (step : alarms.Step call (.expired tge) after) :
    alarms.Due tge ∧ after.armed tge = none := by
  cases step with
  | expire _ g deadline runs due => exact ⟨⟨g, deadline, runs, due⟩, Function.update_self _ _ _⟩

theorem Alarms.not_due_of_none (none : alarms.armed tge = none) : ¬alarms.Due tge := by
  rintro ⟨g, deadline, runs, -⟩
  rw [none] at runs
  cases runs

theorem Alarms.not_due_arm (alarms : Alarms Entry) (tg : Group) : ¬(alarms.arm tge tg).Due tge := by
  rintro ⟨g, deadline, runs, due⟩
  have pos := tg.time_pos
  have runs : Function.update alarms.armed tge (some (tg, tg.time + alarms.clock)) tge =
    some (g, deadline) := runs
  rw [Function.update_self] at runs
  obtain ⟨rfl, rfl⟩ := Prod.mk.inj (Option.some.inj runs)
  have : tg.time + alarms.clock ≤ alarms.clock := due
  omega

/-- **Between ticks nobody becomes due**: who is armed anew has time left. -/
theorem Alarms.Step.not_due (step : alarms.Step call answer after) (noTick : call ≠ .tick)
    (left : ¬alarms.Due tge) : ¬after.Due tge := by
  have clock := step.clock noTick
  by_cases expired : answer = .expired tge
  · subst expired
    exact Alarms.not_due_of_none step.expired.2
  by_cases untouched : call.entry ≠ some tge
  · have same := step.others untouched expired
    rintro ⟨g, deadline, runs, due⟩
    exact left ⟨g, deadline, same ▸ runs, clock ▸ due⟩
  · have made : call.entry = some tge := not_not.mp untouched
    cases step with
    | init other | remove other =>
      cases made
      exact Alarms.not_due_of_none (Function.update_self _ _ _)
    | set other tg | reset other tg | touch other tg | move other tg =>
      cases made
      exact Alarms.not_due_arm _ _
    | resetLate | touchLate | removeLate | stay => exact left
    | tick | check | expire => cases made

/-- The entries that one call calls back. -/
theorem State.expired_cons (state : State Entry) (call : Call Entry) (calls : List (Call Entry))
    (tge : Entry) :
    (state.expired (call :: calls)).count tge =
      (if (state.call call).1 = .expired tge then 1 else 0) +
          ((state.call call).2.expired calls).count tge := by
  rw [State.expired, List.count_append]
  congr 1
  split
  · rename_i other answer
    rw [answer, List.count_singleton]
    simp only [beq_iff_eq, Answer.expired.injEq]
  · rename_i other
    rw [if_neg (other tge), List.count_nil]

/-- Within a tick, who has time left is not called back, and nobody is called back twice. -/
theorem State.Queues.called_once (queues : state.Queues lists) {calls : List (Call Entry)}
    (legal : state.Legal calls) (noTick : .tick ∉ calls) (tge : Entry) :
    (state.expired calls).count tge ≤ 1 ∧
      (¬state.alarms.Due tge → (state.expired calls).count tge = 0 ∧
          ¬(state.run calls).alarms.Due tge) := by
  induction calls generalizing state lists with
  | nil => exact ⟨Nat.zero_le 1, fun left => ⟨rfl, left⟩⟩
  | cons call calls ih =>
    obtain ⟨⟨allowed, inTime⟩, legal⟩ := legal
    have step := queues.step allowed inTime
    obtain ⟨lists, queues⟩ := queues.call allowed inTime
    have now : call ≠ .tick := fun equal => noTick (equal ▸ List.mem_cons_self)
    obtain ⟨once, never⟩ := ih queues legal fun member => noTick (List.mem_cons_of_mem _ member)
    rw [State.expired_cons]
    by_cases expired : (state.call call).1 = .expired tge
    · obtain ⟨due, out⟩ := (expired ▸ step).expired
      rw [if_pos expired, (never (Alarms.not_due_of_none out)).1]
      exact ⟨Nat.le_refl 1, fun left => absurd due left⟩
    · rw [if_neg expired, Nat.zero_add]
      exact ⟨once, fun left => never (step.not_due now left)⟩

/-- An entry for which no call is made stays armed as it is until it is called back, which needs
that it is due. -/
theorem State.Queues.untouched (queues : state.Queues lists) {calls : List (Call Entry)}
    (legal : state.Legal calls) (noTick : .tick ∉ calls)
    (untouched : ∀ call ∈ calls, call.entry ≠ some tge) :
    (state.run calls).alarms.clock = state.alarms.clock ∧
      ((tge ∈ state.expired calls ∧ state.alarms.Due tge) ∨
        (tge ∉ state.expired calls ∧ (state.run calls).alarms.armed tge =
            state.alarms.armed tge)) := by
  induction calls generalizing state lists with
  | nil => exact ⟨rfl, .inr ⟨List.not_mem_nil, rfl⟩⟩
  | cons call calls ih =>
    obtain ⟨⟨allowed, inTime⟩, legal⟩ := legal
    have step := queues.step allowed inTime
    obtain ⟨lists, queues⟩ := queues.call allowed inTime
    have now : call ≠ .tick := fun equal => noTick (equal ▸ List.mem_cons_self)
    have clock := step.clock now
    obtain ⟨clockLast, later⟩ :=
      ih queues legal (fun member => noTick (List.mem_cons_of_mem _ member))
      fun more member => untouched more (List.mem_cons_of_mem _ member)
    have count := state.expired_cons call calls tge
    refine ⟨clockLast.trans clock, ?_⟩
    by_cases expired : (state.call call).1 = .expired tge
    · rw [if_pos expired] at count
      exact .inl ⟨List.count_pos_iff.mp (by omega), (expired ▸ step).expired.1⟩
    · have same := step.others (untouched call List.mem_cons_self) expired
      rw [if_neg expired, Nat.zero_add] at count
      have member : tge ∈ state.expired (call :: calls) ↔
          tge ∈ (state.call call).2.expired calls := by
        rw [← List.count_pos_iff, ← List.count_pos_iff, count]
      rw [member]
      rcases later with ⟨called, g, deadline, runs, due⟩ | ⟨left, runs⟩
      · exact .inl ⟨called, g, deadline, same ▸ runs, clock ▸ due⟩
      · exact .inr ⟨left, runs.trans same⟩

/-- When no tick is under way, every entry has time left. -/
theorem State.Queues.not_due (queues : state.Queues lists) (idle : state.checking = none)
    (tge : Entry) :
    ¬state.alarms.Due tge := by
  rintro ⟨g, deadline, runs, due⟩
  obtain ⟨g', group, pair⟩ := Option.map_eq_some_iff.mp runs
  obtain ⟨-, rfl⟩ := Prod.mk.inj pair
  have unchecked : state.unchecked = [] := by rw [State.unchecked, idle]; rfl
  have waiting := queues.waiting g' (by rw [unchecked]; exact List.not_mem_nil) tge
    ((queues.group g' tge).mpr group)
  have : state.timeout tge ≤ state.time := due
  omega

/-- **The timer groups are correct queues**, as long as neither the clock nor a deadline comes
round. In every run the lists are well formed and sorted; every call does to the alarms what it is
for and answers accordingly; and a tick calls back each entry at most once, of the entries that
nobody touches meanwhile exactly those whose deadline is not later than the clock, leaves the others
as they are, and leaves nobody who is due. -/
theorem timer_groups_correct (fresh : state.Fresh) :
    (∀ calls, state.Legal calls → ∃ lists, (state.run calls).Queues lists) ∧
    (∀ calls call, state.Legal (calls ++ [call]) →
      (state.run calls).alarms.Step call ((state.run calls).call call).1
      ((state.run calls).call call).2.alarms) ∧
    (∀ before during, state.Legal (before ++ .tick :: during) → .tick ∉ during →
      (state.run (before ++ .tick :: during)).checking = none →
        let start := state.run (before ++ [.tick])
        let last := state.run (before ++ .tick :: during)
        (∀ tge, (start.expired during).count tge ≤ 1) ∧
        (∀ tge, (∀ call ∈ during, call.entry ≠ some tge) →
          (tge ∈ start.expired during ↔ start.alarms.Due tge) ∧
          (tge ∉ start.expired during → last.alarms.armed tge = start.alarms.armed tge)) ∧
        ∀ tge, ¬last.alarms.Due tge) := by
  refine ⟨fun calls legal => fresh.queues.run legal, ?_, ?_⟩
  · intro calls call legal
    obtain ⟨legal, ⟨allowed, inTime⟩, -⟩ := State.along_append.mp legal
    obtain ⟨lists, queues⟩ := fresh.queues.run legal
    exact queues.step allowed inTime
  · intro before during legal noTick idle start last
    have whole : last = start.run during := by
      show state.run (before ++ .tick :: during) = _
      rw [State.run_append, State.run_cons]
      show _ = (state.run (before ++ [.tick])).run during
      rw [State.run_append]
      rfl
    obtain ⟨lists, lastQueues⟩ := fresh.queues.run legal
    have split : before ++ .tick :: during = (before ++ [.tick]) ++ during := by simp
    rw [split] at legal
    obtain ⟨legalStart, legal⟩ := State.along_append.mp legal
    obtain ⟨lists, queues⟩ := fresh.queues.run legalStart
    have left := lastQueues.not_due idle
    refine ⟨fun tge => (queues.called_once legal noTick tge).1, ?_, left⟩
    intro tge untouched
    obtain ⟨clock, ⟨called, due⟩ | ⟨notCalled, same⟩⟩ := queues.untouched legal noTick untouched
    · exact ⟨⟨fun _ => due, fun _ => called⟩, fun notCalled => absurd called notCalled⟩
    · refine ⟨⟨fun called => absurd called notCalled, ?_⟩, fun _ => whole ▸ same⟩
      rintro ⟨g, deadline, runs, due⟩
      have notDue : ¬last.alarms.Due tge := left tge
      rw [whole] at notDue
      exact absurd ⟨g, deadline, same.trans runs, by rw [clock]; exact due⟩ notDue

/-! ### Fixed runs -/

/-- No entry is armed at the given time. -/
def idle (time : Nat) : State Bool :=
  ⟨⟨fun _ => none, fun _ => none⟩, fun _ => none, fun _ => 0, fun _ => none, fun _ =>
    none, time, none⟩

theorem idle_fresh : (idle 0).Fresh := ⟨fun _ => rfl, fun _ => rfl, fun _ => rfl, rfl, rfl⟩

/-- A touched entry is in front of one that was set after it. -/
theorem idle_touched :
    ∃ lists, ((idle 0).run [.set true .connectionDnsTimeout, .set false .connectionDnsTimeout,
      .touch true]).Queues lists :=
  (timer_groups_correct idle_fresh).1 _
    ⟨⟨rfl, by show 30 + 0 < 2 ^ 32; decide⟩, ⟨rfl, by show 30 + 0 < 2 ^ 32; decide⟩,
      ⟨trivial, fun _ armed => by cases armed; show 30 + 0 < 2 ^ 32; decide⟩, trivial⟩

/-- A tick that has some of the groups left to examine. -/
def examining (time : Nat) (groups : List Group) : State Bool :=
    { idle time with checking := some (time, groups) }

theorem run_examining (time : Nat) (groups : List Group) :
    (examining time groups).Along State.Allowed (List.replicate (groups.length + 1) .check) ∧
      (examining time groups).run (List.replicate (groups.length + 1) .check) = idle time := by
  induction groups with
  | nil => exact ⟨⟨trivial, trivial⟩, rfl⟩
  | cons g groups ih => exact ⟨⟨trivial, ih.1⟩, ih.2⟩

/-- A tick with nobody armed. -/
def idleTick : List (Call Bool) := .tick :: List.replicate (Group.all.length + 1) .check

theorem run_idleTick {time : Nat} (small : time + 1 < 2 ^ 32) :
    (idle time).Along State.Allowed idleTick ∧ (idle time).run idleTick = idle (time + 1) := by
  have next : ((idle time).call .tick).2 = examining (time + 1) Group.all := by
    show examining ((time + 1) % 2 ^ 32) Group.all = _
    rw [Nat.mod_eq_of_lt small]
  obtain ⟨along, run⟩ := run_examining (time + 1) Group.all
  exact ⟨⟨rfl, next ▸ along⟩, by rw [idleTick, State.run_cons, next, run]⟩

/-- Ticks bring the clock to any time. -/
theorem reach_idle (time : Nat) (small : time < 2 ^ 32) :
    ∃ calls, (idle 0).Along State.Allowed calls ∧ (idle 0).run calls = idle time := by
  induction time with
  | zero => exact ⟨[], trivial, rfl⟩
  | succ time ih =>
    obtain ⟨calls, along, run⟩ := ih (by omega)
    obtain ⟨alongTick, runTick⟩ := run_idleTick small
    refine ⟨calls ++ idleTick, State.along_append.mpr ⟨along, ?_⟩, ?_⟩
    · rw [run]
      exact alongTick
    · rw [State.run_append, run, runTick]

/-- **When the clock comes near the end of its 32 bits, a list is no longer sorted**: an entry is
armed for the last second, and one that is armed a second later expires at 0. -/
theorem unsorted_at_wrap :
    ¬∀ (state : State Bool) (calls : List (Call Bool)), state.Fresh →
    state.Along State.Allowed calls →
      ∃ lists, (state.run calls).Queues lists := by
  intro sorted
  obtain ⟨calls, along, run⟩ := reach_idle 4294967290 (by decide)
  obtain ⟨lists, queues⟩ := sorted (idle 0)
    (calls ++ [.set true .connectionDefunctRetryTimeout, .tick,
      .set false .connectionDefunctRetryTimeout])
    idle_fresh (State.along_append.mpr ⟨along, by rw [run]; exact ⟨rfl, rfl, rfl, trivial⟩⟩)
  rw [State.run_append, run] at queues
  have head := queues.head .connectionDefunctRetryTimeout
  have order := queues.sorted .connectionDefunctRetryTimeout
  have member := (queues.group .connectionDefunctRetryTimeout true).mpr (by decide)
  cases whole : lists .connectionDefunctRetryTimeout with
  | nil =>
    rw [whole] at member
    cases member
  | cons first rest =>
    rw [whole] at head order member
    have isFirst : first = false := (Option.some.inj head).symm
    subst isFirst
    have behind : true ∈ rest := by simpa using member
    have sorted := (List.pairwise_cons.mp order).1 true behind
    revert sorted
    decide

end Qsdk.Ecm.Timer
