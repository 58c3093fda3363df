/-
**Programs with atomic calls, and their preconditions under interference.**

A thread is a `Prog`: it ends with a value, stops with an error, or makes one atomic call on the
shared state and continues with the response. Other threads run between the calls.

A `Contract` says what a thread relies on and what it owes: `rely` bounds what the others may do
between two calls, `pre` is what the thread has to establish before a call, `post` is what a call
does. `wp` is the weakest precondition of a program under a contract. It is closed under
interference by construction (`wp_rely`), and it has the usual rules: consequence (`wp_mono`),
sequencing (`wp_bind`), one call (`wp_call`).
-/

import Mathlib.Logic.Basic

namespace Qsdk

/-- A program over the calls `Op`, with responses in `Res`, errors in `Err` and results in `A`. -/
inductive Prog (Op : Type) (Res : Op → Type) (Err : Type) (A : Type) where
  | done (value : A)
  | stop (error : Err)
  | call (op : Op) (next : Res op → Prog Op Res Err A)

namespace Prog

variable {Op : Type} {Res : Op → Type} {Err A B : Type}

/-- Sequencing: `next` runs on the value of the first program. -/
def bind : Prog Op Res Err A → (A → Prog Op Res Err B) → Prog Op Res Err B
  | done value, next => next value
  | stop error, _ => stop error
  | call op after, next => call op fun response => (after response).bind next

/-- One call, returning its response. -/
def perform (op : Op) : Prog Op Res Err (Res op) := call op done

instance : Monad (Prog Op Res Err) where
  pure := done
  bind := Prog.bind

@[simp] theorem pure_def (value : A) : (pure value : Prog Op Res Err A) = done value := rfl

@[simp] theorem done_bind (value : A) (next : A → Prog Op Res Err B) :
    (done value >>= next) = next value := rfl

@[simp] theorem stop_bind (error : Err) (next : A → Prog Op Res Err B) :
    ((stop error : Prog Op Res Err A) >>= next) = stop error := rfl

@[simp] theorem call_bind (op : Op) (after : Res op → Prog Op Res Err A)
    (next : A → Prog Op Res Err B) :
    (call op after >>= next) = call op fun response => after response >>= next := rfl

@[simp] theorem perform_bind (op : Op) (next : Res op → Prog Op Res Err B) :
    (perform op >>= next) = call op next := rfl

end Prog

/-- What a thread relies on and what it owes. -/
structure Contract (Op : Type) (Res : Op → Type) (S : Type) where
  /-- What the other threads may do to the state between two calls. -/
  rely : S → S → Prop
  /-- What the thread establishes before a call. -/
  pre : Op → S → Prop
  /-- The effect of a call: state before, response, state after. -/
  post : (op : Op) → S → Res op → S → Prop
  /-- Interference adds up. -/
  rely_trans : ∀ {first second third}, rely first second → rely second third → rely first third
  /-- A state that interference can lead to may also stay as it is. -/
  rely_settled : ∀ {first second}, rely first second → rely second second

/-- Both contracts at once. -/
def Contract.and {Op : Type} {Res : Op → Type} {S : Type} (one two : Contract Op Res S) :
    Contract Op Res S where
  rely := fun before later => one.rely before later ∧ two.rely before later
  pre := fun op state => one.pre op state ∧ two.pre op state
  post := fun op state res after => one.post op state res after ∧ two.post op state res after
  rely_trans := fun first second =>
    ⟨one.rely_trans first.1 second.1, two.rely_trans first.2 second.2⟩
  rely_settled := fun step => ⟨one.rely_settled step.1, two.rely_settled step.2⟩

namespace Prog

variable {Op : Type} {Res : Op → Type} {Err A B S : Type}

/-- **The weakest precondition**: every way the program can go on from this state, with the others
interfering as the contract allows, meets each call's precondition and ends in `Good` (with a
value) or in `Bad` (with an error). -/
def wp (contract : Contract Op Res S) (Good : A → S → Prop) (Bad : Err → S → Prop) :
    Prog Op Res Err A → S → Prop
  | done value, state => ∀ later, contract.rely state later → Good value later
  | stop error, state => ∀ later, contract.rely state later → Bad error later
  | call op next, state => ∀ later, contract.rely state later → contract.pre op later ∧
      ∀ response after, contract.post op later response after →
        (next response).wp contract Good Bad after

section Rules

variable {contract : Contract Op Res S} {Good : A → S → Prop} {Bad : Err → S → Prop}

/-- **Interference**: what the others may do preserves a program's precondition. -/
theorem wp_rely {program : Prog Op Res Err A} {state later : S}
    (holds : program.wp contract Good Bad state) (interference : contract.rely state later) :
    program.wp contract Good Bad later := by
  cases program with
  | done value => exact fun last step => holds last (contract.rely_trans interference step)
  | stop error => exact fun last step => holds last (contract.rely_trans interference step)
  | call op next => exact fun last step => holds last (contract.rely_trans interference step)

/-- A program's precondition may be shown after the interference that precedes its first step. -/
theorem wp_of_later {program : Prog Op Res Err A} {state : S}
    (holds : ∀ later, contract.rely state later → program.wp contract Good Bad later) :
    program.wp contract Good Bad state := by
  cases program with
  | done value => exact fun later step => holds later step later (contract.rely_settled step)
  | stop error => exact fun later step => holds later step later (contract.rely_settled step)
  | call op next => exact fun later step => holds later step later (contract.rely_settled step)

/-- **One call**, after the interference that precedes it. -/
theorem wp_call {op : Op} {next : Res op → Prog Op Res Err A} {state : S}
    (holds : ∀ later, contract.rely state later → contract.pre op later ∧
      ∀ response after, contract.post op later response after →
        (next response).wp contract Good Bad after) :
    (perform op >>= next).wp contract Good Bad state := holds

/-- A program that has returned. -/
theorem wp_done {value : A} {state : S}
    (holds : ∀ later, contract.rely state later → Good value later) :
    (pure value : Prog Op Res Err A).wp contract Good Bad state := holds

/-- A program that has stopped. -/
theorem wp_stop {error : Err} {state : S}
    (holds : ∀ later, contract.rely state later → Bad error later) :
    (stop error : Prog Op Res Err A).wp contract Good Bad state := holds

/-- **Consequence.** -/
theorem wp_mono {Good' : A → S → Prop} {Bad' : Err → S → Prop}
    (good : ∀ value state, Good value state → Good' value state)
    (bad : ∀ error state, Bad error state → Bad' error state) (program : Prog Op Res Err A)
    {state : S} (holds : program.wp contract Good Bad state) :
    program.wp contract Good' Bad' state := by
  induction program generalizing state with
  | done value => exact fun later step => good _ _ (holds later step)
  | stop error => exact fun later step => bad _ _ (holds later step)
  | call op next ih =>
    intro later step
    obtain ⟨before, rest⟩ := holds later step
    exact ⟨before, fun response after effect => ih response (rest response after effect)⟩

/-- **Conjunction**: two contracts of one program, met together. -/
theorem wp_and {one two : Contract Op Res S} {Good' : A → S → Prop} {Bad' : Err → S → Prop}
    (program : Prog Op Res Err A) {state : S} (first : program.wp one Good Bad state)
    (second : program.wp two Good' Bad' state) :
    program.wp (one.and two) (fun value state => Good value state ∧ Good' value state)
      (fun error state => Bad error state ∧ Bad' error state) state := by
  induction program generalizing state with
  | done value => exact fun later step => ⟨first later step.1, second later step.2⟩
  | stop error => exact fun later step => ⟨first later step.1, second later step.2⟩
  | call op next ih =>
    intro later step
    obtain ⟨preFirst, restFirst⟩ := first later step.1
    obtain ⟨preSecond, restSecond⟩ := second later step.2
    exact ⟨⟨preFirst, preSecond⟩, fun response after effect =>
      ih response (restFirst response after effect.1) (restSecond response after effect.2)⟩

/-- **Frame**: what survives interference and every call survives the program. -/
theorem wp_frame {K : S → Prop}
    (kept_rely : ∀ {state later}, contract.rely state later → K state → K later)
    (kept_call : ∀ {op state response after}, contract.pre op state →
      contract.post op state response after → K state → K after)
    (program : Prog Op Res Err A) {state : S} (kept : K state)
    (holds : program.wp contract Good Bad state) :
    program.wp contract (fun value last => Good value last ∧ K last) Bad state := by
  induction program generalizing state with
  | done value => exact fun later step => ⟨holds later step, kept_rely step kept⟩
  | stop error => exact holds
  | call op next ih =>
    intro later step
    obtain ⟨before, rest⟩ := holds later step
    exact ⟨before, fun response after effect => ih response
      (kept_call before effect (kept_rely step kept)) (rest response after effect)⟩

/-- **Sequencing.** -/
theorem wp_bind {Mid : A → S → Prop} {Goal : B → S → Prop} (program : Prog Op Res Err A)
    {next : A → Prog Op Res Err B} {state : S} (holds : program.wp contract Mid Bad state)
    (rest : ∀ value later, Mid value later → contract.rely later later →
      (next value).wp contract Goal Bad later) :
    (program >>= next).wp contract Goal Bad state := by
  induction program generalizing state with
  | done value =>
    exact wp_of_later fun later step =>
      rest value later (holds later step) (contract.rely_settled step)
  | stop error => exact holds
  | call op after ih =>
    intro later step
    obtain ⟨before, tail⟩ := holds later step
    exact ⟨before, fun response last effect => ih response (tail response last effect)⟩

end Rules

end Prog

end Qsdk
