/-
**Machines that run until nothing changes.**

A machine is a list of entries: one for each of its states, with the condition under which the state
is entered and what entering it does. A check goes over the entries once, and enters each state
whose condition holds by then. The machines are checked, each until it does not change, and all of
them until none changes.

If there is a size that every entering makes smaller, the running ends (`settle_ends`), in a state
in which no condition holds (`settle_sound`).
-/

import Mathlib.Data.List.Basic

namespace Qsdk.Runner

variable {σ : Type}

/-- A way into a state. Its condition may write as well. -/
structure Entry (σ : Type) where
  condition : σ → Bool × σ
  enter : σ → σ

/-- A condition that only reads. -/
def Entry.guarded (guard : σ → Bool) (enter : σ → σ) : Entry σ := ⟨fun s => (guard s, s), enter⟩

/-- Each entry is asked once, in the state that the entries before have left. -/
def check : List (Entry σ) → σ → Bool × σ
  | [], s => (false, s)
  | entry :: entries, s =>
    let asked := entry.condition s
    if asked.1 then (true, (check entries (entry.enter asked.2)).2) else check entries asked.2

/-- One machine, until it does not change. -/
def settleMachine (machine : List (Entry σ)) : Nat → σ → Option (Bool × σ)
  | 0, _ => none
  | fuel + 1, s =>
    let checked := check machine s
    if checked.1 then (settleMachine machine fuel checked.2).map fun settled => (true, settled.2)
    else some checked

/-- The machines in their order. -/
def pass (fuel : Nat) : List (List (Entry σ)) → σ → Option (Bool × σ)
  | [], s => some (false, s)
  | machine :: machines, s =>
    match settleMachine machine fuel s with
    | none => none
    | some settled => (pass fuel machines settled.2).map fun passed =>
      (settled.1 || passed.1, passed.2)

/-- All machines, until none changes. -/
def settle (machines : List (List (Entry σ))) (fuel : Nat) : Nat → σ → Option σ
  | 0, _ => none
  | rounds + 1, s =>
    match pass fuel machines s with
    | none => none
    | some passed => if passed.1 then settle machines fuel rounds passed.2 else some passed.2

/-- No state is entered. -/
def Still (entries : List (Entry σ)) (s : σ) : Prop := ∀ entry ∈ entries,
    (entry.condition s).1 = false

/-- What an entry does to an invariant and to a size. -/
structure Entry.Shrinks (inv : σ → Prop) (size : σ → Nat) (entry : Entry σ) : Prop where
  asked : ∀ s, inv s → inv (entry.condition s).2 ∧ size (entry.condition s).2 ≤ size s
  entered : ∀ s, inv s → (entry.condition s).1 = true →
    inv (entry.enter (entry.condition s).2) ∧ size (entry.enter (entry.condition s).2) < size s

/-- A condition that does not hold does not make another one hold by what it writes. -/
def Calm (inv : σ → Prop) (entries : List (Entry σ)) : Prop :=
  ∀ entry ∈ entries, ∀ other ∈ entries, ∀ s, inv s → (entry.condition s).1 = false →
    (other.condition s).1 = false →
    (other.condition (entry.condition s).2).1 = false

theorem Entry.Shrinks.guarded {inv : σ → Prop} {size : σ → Nat} {guard : σ → Bool} {enter : σ → σ}
    (entered : ∀ s, inv s → guard s = true → inv (enter s) ∧ size (enter s) < size s) :
    (Entry.guarded guard enter).Shrinks inv size :=
  ⟨fun _ holds => ⟨holds, Nat.le_refl _⟩, entered⟩

/-- A further invariant. -/
theorem Entry.Shrinks.and {inv more : σ → Prop} {size : σ → Nat} {entry : Entry σ}
    (shrinks : entry.Shrinks inv size) (asked : ∀ s, inv s → more s → more (entry.condition s).2)
    (entered : ∀ s, inv s → more s → (entry.condition s).1 = true →
        more (entry.enter (entry.condition s).2)) :
    entry.Shrinks (fun s => inv s ∧ more s) size where
  asked := fun s holds =>
    have ⟨kept, le⟩ := shrinks.asked s holds.1
    ⟨⟨kept, asked s holds.1 holds.2⟩, le⟩
  entered := fun s holds isAsked =>
    have ⟨kept, less⟩ := shrinks.entered s holds.1 isAsked
    ⟨⟨kept, entered s holds.1 holds.2 isAsked⟩, less⟩

variable {inv : σ → Prop} {size : σ → Nat} {machine entries all : List (Entry σ)}
  {machines : List (List (Entry σ))} {s : σ}

theorem check_spec (shrinks : ∀ entry ∈ entries, entry.Shrinks inv size) (holds : inv s) :
    inv (check entries s).2 ∧ size (check entries s).2 ≤ size s ∧
      ((check entries s).1 = true → size (check entries s).2 < size s) := by
  induction entries generalizing s with
  | nil => exact ⟨holds, Nat.le_refl _, fun changed => nomatch changed⟩
  | cons entry entries ih =>
    obtain ⟨shrink, shrinks⟩ := List.forall_mem_cons.mp shrinks
    have asked := shrink.asked s holds
    rw [check]
    cases isAsked : (entry.condition s).1 with
    | true =>
      obtain ⟨kept, less⟩ := shrink.entered s holds isAsked
      obtain ⟨kept, le, -⟩ := ih shrinks kept
      exact ⟨kept, Nat.le_trans le (Nat.le_of_lt less), fun _ => Nat.lt_of_le_of_lt le less⟩
    | false =>
      obtain ⟨kept, le, changed⟩ := ih shrinks asked.1
      exact ⟨kept, Nat.le_trans le asked.2, fun isChanged =>
        Nat.lt_of_lt_of_le (changed isChanged) asked.2⟩

/-- After a check without a change no condition holds that was asked, and none holds again that was
asked before. -/
theorem check_still (shrinks : ∀ entry ∈ entries, entry.Shrinks inv size) (calm : Calm inv all)
    (among : ∀ entry ∈ entries, entry ∈ all) {done : List (Entry σ)}
    (doneAmong : ∀ entry ∈ done, entry ∈ all) (holds : inv s) (still : Still done s)
    (unchanged : (check entries s).1 = false) :
    Still (done ++ entries) (check entries s).2 := by
  induction entries generalizing s done with
  | nil =>
    rw [List.append_nil]
    exact still
  | cons entry entries ih =>
    obtain ⟨shrink, shrinks⟩ := List.forall_mem_cons.mp shrinks
    obtain ⟨isAmong, among⟩ := List.forall_mem_cons.mp among
    rw [check] at unchanged ⊢
    cases isAsked : (entry.condition s).1 with
    | true =>
      rw [isAsked] at unchanged
      cases unchanged
    | false =>
      rw [isAsked, if_neg Bool.false_ne_true] at unchanged
      have further : Still (done ++ [entry]) (entry.condition s).2 := by
        intro other member
        rcases List.mem_append.mp member with isDone | isEntry
        · exact calm entry isAmong other (doneAmong other isDone) s holds isAsked
            (still other isDone)
        · obtain rfl := List.mem_singleton.mp isEntry
          exact calm other isAmong other isAmong s holds isAsked isAsked
      have doneAmong' : ∀ other ∈ done ++ [entry], other ∈ all :=
        List.forall_mem_append.mpr ⟨doneAmong, List.forall_mem_singleton.mpr isAmong⟩
      have rest := ih shrinks among doneAmong' (shrink.asked s holds).1 further unchanged
      rw [List.append_assoc] at rest
      exact rest

/-- What is known of a machine that does not change any more. -/
theorem settleMachine_sound (shrinks : ∀ entry ∈ machine, entry.Shrinks inv size) (holds : inv s)
    {fuel : Nat} {settled : Bool × σ} (isSettled : settleMachine machine fuel s = some settled) :
    inv settled.2 ∧ size settled.2 ≤ size s ∧ (settled.1 = true → size settled.2 < size s) ∧
      (settled.1 = false → (check machine s).1 = false ∧ settled.2 = (check machine s).2) := by
  induction fuel generalizing s settled with
  | zero => cases isSettled
  | succ fuel ih =>
    obtain ⟨kept, le, changed⟩ := check_spec shrinks holds
    rw [settleMachine] at isSettled
    cases isChecked : (check machine s).1 with
    | false =>
      rw [isChecked] at isSettled
      obtain rfl := Option.some.inj isSettled
      exact ⟨kept, le, changed, fun _ => ⟨rfl, rfl⟩⟩
    | true =>
      rw [isChecked, if_pos rfl] at isSettled
      obtain ⟨rest, isRest, rfl⟩ := Option.map_eq_some_iff.mp isSettled
      obtain ⟨kept, le, -⟩ := ih kept isRest
      have less := Nat.lt_of_le_of_lt le (changed isChecked)
      exact ⟨kept, Nat.le_of_lt less, fun _ => less, fun unchanged => nomatch unchanged⟩

theorem settleMachine_ends (shrinks : ∀ entry ∈ machine, entry.Shrinks inv size) (holds : inv s)
    {fuel : Nat} (enough : size s < fuel) : ∃ settled, settleMachine machine fuel s =
        some settled := by
  induction fuel generalizing s with
  | zero => exact absurd enough (Nat.not_lt_zero _)
  | succ fuel ih =>
    obtain ⟨kept, -, changed⟩ := check_spec shrinks holds
    rw [settleMachine]
    cases isChecked : (check machine s).1 with
    | false => exact ⟨_, rfl⟩
    | true =>
      obtain ⟨settled, isSettled⟩ :=
        ih kept (Nat.lt_of_lt_of_le (changed isChecked) (Nat.le_of_lt_succ enough))
      rw [if_pos rfl, isSettled]
      exact ⟨_, rfl⟩

theorem pass_sound (shrinks : ∀ machine ∈ machines, ∀ entry ∈ machine, entry.Shrinks inv size)
    (calm : Calm inv all) (among : ∀ machine ∈ machines, ∀ entry ∈ machine, entry ∈ all)
    {done : List (Entry σ)} (doneAmong : ∀ entry ∈ done, entry ∈ all) (holds : inv s) {fuel : Nat}
    {passed : Bool × σ} (isPassed : pass fuel machines s = some passed) :
    inv passed.2 ∧ size passed.2 ≤ size s ∧ (passed.1 = true → size passed.2 < size s) ∧
      (passed.1 = false → Still done s → Still (done ++ machines.flatten) passed.2) := by
  induction machines generalizing s done passed with
  | nil =>
    obtain rfl := Option.some.inj isPassed
    refine ⟨holds, Nat.le_refl _, fun changed => (nomatch changed), fun _ still => ?_⟩
    rw [List.flatten_nil, List.append_nil]
    exact still
  | cons machine machines ih =>
    obtain ⟨shrink, shrinks⟩ := List.forall_mem_cons.mp shrinks
    obtain ⟨isAmong, among⟩ := List.forall_mem_cons.mp among
    rw [pass] at isPassed
    cases isSettled : settleMachine machine fuel s with
    | none =>
      rw [isSettled] at isPassed
      cases isPassed
    | some settled =>
      rw [isSettled] at isPassed
      obtain ⟨rest, isRest, rfl⟩ := Option.map_eq_some_iff.mp isPassed
      obtain ⟨kept, le, changed, same⟩ := settleMachine_sound shrink holds isSettled
      obtain ⟨kept', le', changed', still'⟩ := @ih settled.2 shrinks among (done ++ machine)
        (List.forall_mem_append.mpr ⟨doneAmong, isAmong⟩) kept rest isRest
      refine ⟨kept', Nat.le_trans le' le, fun isChanged => ?_, fun unchanged still => ?_⟩
      · rcases (Bool.or_eq_true _ _).mp isChanged with first | second
        · exact Nat.lt_of_le_of_lt le' (changed first)
        · exact Nat.lt_of_lt_of_le (changed' second) le
      · obtain ⟨first, second⟩ := Bool.or_eq_false_iff.mp unchanged
        obtain ⟨unchecked, isSame⟩ := same first
        have one := check_still shrink calm isAmong doneAmong holds still unchecked
        rw [← isSame] at one
        have others := still' second one
        rw [List.append_assoc] at others
        rw [List.flatten_cons]
        exact others

theorem pass_ends (shrinks : ∀ machine ∈ machines, ∀ entry ∈ machine, entry.Shrinks inv size)
    (holds : inv s) {fuel : Nat} (enough : size s < fuel) : ∃ passed,
        pass fuel machines s = some passed := by
  induction machines generalizing s with
  | nil => exact ⟨_, rfl⟩
  | cons machine machines ih =>
    obtain ⟨shrink, shrinks⟩ := List.forall_mem_cons.mp shrinks
    obtain ⟨settled, isSettled⟩ := settleMachine_ends shrink holds enough
    obtain ⟨kept, le, -⟩ := settleMachine_sound shrink holds isSettled
    obtain ⟨passed, isPassed⟩ := ih shrinks kept (Nat.lt_of_le_of_lt le enough)
    rw [pass, isSettled]
    dsimp only
    rw [isPassed]
    exact ⟨_, rfl⟩

theorem mem_flatten_of_machine : ∀ machine ∈ machines, ∀ entry ∈ machine,
    entry ∈ machines.flatten :=
  fun machine isMachine _ isEntry => List.mem_flatten.mpr ⟨machine, isMachine, isEntry⟩

/-- **When the running ends** the invariant is kept, and no condition holds any more. -/
theorem settle_sound (shrinks : ∀ machine ∈ machines, ∀ entry ∈ machine, entry.Shrinks inv size)
    (calm : Calm inv machines.flatten) (holds : inv s) {fuel rounds : Nat} {settled : σ}
    (isSettled : settle machines fuel rounds s = some settled) : inv settled ∧
        Still machines.flatten settled := by
  induction rounds generalizing s with
  | zero => cases isSettled
  | succ rounds ih =>
    rw [settle] at isSettled
    cases isPassed : pass fuel machines s with
    | none =>
      rw [isPassed] at isSettled
      cases isSettled
    | some passed =>
      obtain ⟨kept, -, -, still⟩ := pass_sound shrinks calm mem_flatten_of_machine
        (fun _ member => absurd member List.not_mem_nil) holds isPassed
      rw [isPassed] at isSettled
      dsimp only at isSettled
      cases isChanged : passed.1 with
      | true =>
        rw [isChanged, if_pos rfl] at isSettled
        exact ih kept isSettled
      | false =>
        rw [isChanged] at isSettled
        obtain rfl := Option.some.inj isSettled
        exact ⟨kept, still isChanged fun _ member => absurd member List.not_mem_nil⟩

/-- **The running ends.** -/
theorem settle_ends (shrinks : ∀ machine ∈ machines, ∀ entry ∈ machine, entry.Shrinks inv size)
    (calm : Calm inv machines.flatten) (holds : inv s) {fuel rounds : Nat} (enough : size s < fuel)
    (enoughRounds : size s < rounds) : ∃ settled, settle machines fuel rounds s = some settled := by
  induction rounds generalizing s with
  | zero => exact absurd enoughRounds (Nat.not_lt_zero _)
  | succ rounds ih =>
    obtain ⟨passed, isPassed⟩ := pass_ends shrinks holds enough
    obtain ⟨kept, le, changed, -⟩ := pass_sound shrinks calm mem_flatten_of_machine
      (fun _ member => absurd member List.not_mem_nil) holds isPassed
    rw [settle, isPassed]
    dsimp only
    cases isChanged : passed.1 with
    | true =>
      exact ih kept (Nat.lt_of_le_of_lt le enough)
        (Nat.lt_of_lt_of_le (changed isChanged) (Nat.le_of_lt_succ enoughRounds))
    | false => exact ⟨passed.2, rfl⟩

end Qsdk.Runner
