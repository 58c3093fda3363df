/-
**What the threads owe, added up.**

In some programs every thread runs up obligations of its own, and settles them before it returns: a
counter to decrement, a flag to clear, a waiter to wake. Nobody else can settle them. A `Ledger`
says which obligations a call needs and which ones it leaves; a program `Settles` them when it only
makes calls it is entitled to and ends as required. This speaks about one program alone, without
states and without interference.

The shared state then has an invariant relative to the sum of what all threads owe
(`Ledger.Valid`), for any number of threads. It holds in every run (`Ledger.Valid.holds`); where no
thread is running, nothing is owed (`Ledger.Valid.quiescent`).

Where the obligations are about different things, a ledger about one of them gives one about all
(`Ledger.keyed`).
-/

import Qsdk.Lib.Threads
import Mathlib.Algebra.BigOperators.Group.Finset.Basic
import Mathlib.Algebra.BigOperators.Group.Finset.Piecewise

namespace Qsdk

/-! ### The sum of what the threads owe -/

section Total

variable {Tid G : Type} [AddCommMonoid G]

/-- All threads together owe `total`, finitely many of them anything at all. -/
def Total (owed : Tid → G) (total : G) : Prop :=
  ∃ owing : Finset Tid, (∀ tid, tid ∉ owing → owed tid = 0) ∧ total = ∑ tid ∈ owing, owed tid

theorem total_zero : Total (fun _ : Tid => (0 : G)) 0 := ⟨∅, fun _ _ => rfl, rfl⟩

/-- One thread's part of the total, and what the total becomes when that part changes. -/
theorem Total.split [DecidableEq Tid] {owed : Tid → G} {total : G} (isTotal : Total owed total)
    (tid : Tid) : ∃ rest, total = owed tid + rest ∧
      ∀ own, Total (Function.update owed tid own) (own + rest) := by
  obtain ⟨owing, nothing, isSum⟩ := isTotal
  have among : tid ∈ insert tid owing := Finset.mem_insert_self _ _
  refine ⟨∑ other ∈ (insert tid owing).erase tid, owed other, ?_, fun own => ?_⟩
  · rw [Finset.add_sum_erase _ _ among, isSum]
    refine Finset.sum_subset (Finset.subset_insert _ _) fun other _ notOwing => ?_
    exact nothing other notOwing
  · refine ⟨insert tid owing, fun other outside => ?_, ?_⟩
    · have isOther : other ≠ tid := by
        rintro rfl
        exact outside among
      rw [Function.update_of_ne isOther]
      exact nothing other fun inside => outside (Finset.mem_insert_of_mem inside)
    · rw [← Finset.add_sum_erase _ _ among, Function.update_self]
      congr 1
      refine Finset.sum_congr rfl fun other member => ?_
      rw [Function.update_of_ne (Finset.ne_of_mem_erase member)]

/-- What holds of every thread's part, and of sums, holds of the total. -/
theorem Total.induction {owed : Tid → G} {total : G} (isTotal : Total owed total)
    (property : G → Prop) (zero : property 0)
    (add : ∀ one two, property one → property two → property (one + two))
    (each : ∀ tid, property (owed tid)) : property total := by
  obtain ⟨owing, -, rfl⟩ := isTotal
  exact Finset.sum_induction _ _ add zero fun tid _ => each tid

end Total

/-! ### Ledgers and programs -/

/-- Which obligations a call needs, and which ones it leaves. -/
structure Ledger (Op : Type) (Res : Op → Type) (G : Type) where
  pre : Op → G → Prop
  after : (op : Op) → G → Res op → G

namespace Ledger

variable {Op : Type} {Res : Op → Type} {Err A B G : Type}

/-- The program makes only calls it is entitled to, and ends as required. -/
def Settles (ledger : Ledger Op Res G) (Good : A → G → Prop) (Bad : Err → G → Prop) :
    Prog Op Res Err A → G → Prop
  | .done value, own => Good value own
  | .stop error, own => Bad error own
  | .call op next, own => ledger.pre op own ∧
      ∀ res, Settles ledger Good Bad (next res) (ledger.after op own res)

section Rules

variable {ledger : Ledger Op Res G} {Good : A → G → Prop} {Bad : Err → G → Prop}

/-- **Consequence.** -/
theorem Settles.mono {Good' : A → G → Prop} {program : Prog Op Res Err A} {own : G}
    (settles : ledger.Settles Good Bad program own)
    (good : ∀ value own, Good value own → Good' value own) :
    ledger.Settles Good' Bad program own := by
  induction program generalizing own with
  | done value => exact good _ _ settles
  | stop error => exact settles
  | call op next ih => exact ⟨settles.1, fun res => ih res (settles.2 res)⟩

/-- **Sequencing.** -/
theorem Settles.bind {Mid : A → G → Prop} {Goal : B → G → Prop} {program : Prog Op Res Err A}
    {next : A → Prog Op Res Err B} {own : G} (settles : ledger.Settles Mid Bad program own)
    (rest : ∀ value own, Mid value own → ledger.Settles Goal Bad (next value) own) :
    ledger.Settles Goal Bad (program >>= next) own := by
  induction program generalizing own with
  | done value => exact rest value own settles
  | stop error => exact settles
  | call op after ih => exact ⟨settles.1, fun res => ih res (settles.2 res)⟩

end Rules

/-- A ledger as a contract: nobody else touches what a thread owes. -/
def contract (ledger : Ledger Op Res G) (S : Type) : Contract Op Res (G × S) where
  rely := fun before later => later.1 = before.1
  pre := fun op state => ledger.pre op state.1
  post := fun op state res after => after.1 = ledger.after op state.1 res
  rely_trans := fun one two => two.trans one
  rely_settled := fun _ => rfl

theorem Settles.wp {ledger : Ledger Op Res G} {Good : A → G → Prop} {Bad : Err → G → Prop}
    {S : Type} {program : Prog Op Res Err A} {own : G}
    (settles : ledger.Settles Good Bad program own) (state : S) :
    program.wp (ledger.contract S) (fun value last => Good value last.1)
      (fun error last => Bad error last.1) (own, state) := by
  induction program generalizing own state with
  | done value =>
    rintro ⟨own', _⟩ same
    obtain rfl : own' = own := same
    exact settles
  | stop error =>
    rintro ⟨own', _⟩ same
    obtain rfl : own' = own := same
    exact settles
  | call op next ih =>
    rintro ⟨own', _⟩ same
    obtain rfl : own' = own := same
    refine ⟨settles.1, ?_⟩
    rintro res ⟨after, last⟩ isAfter
    obtain rfl : after = ledger.after op own' res := isAfter
    exact ih res (settles.2 res) last

theorem settles_of_wp {ledger : Ledger Op Res G} {Good : A → G → Prop} {Bad : Err → G → Prop}
    {S : Type} {program : Prog Op Res Err A} {own : G} {state : S}
    (holds : program.wp (ledger.contract S) (fun value last => Good value last.1)
      (fun error last => Bad error last.1) (own, state)) : ledger.Settles Good Bad program own := by
  induction program generalizing own with
  | done value => exact holds (own, state) rfl
  | stop error => exact holds (own, state) rfl
  | call op next ih =>
    obtain ⟨entitled, rest⟩ := holds (own, state) rfl
    exact ⟨entitled, fun res => ih res (rest res (ledger.after op own res, state) rfl)⟩

/-! ### A ledger for every key -/

section Keyed

variable {K : Type} [DecidableEq K] [Zero G]

/-- The obligations about different keys are kept apart, and a program deals with one key at a
time. -/
def keyed (ledger : Ledger Op Res G) (key : Op → K) : Ledger Op Res (K → G) where
  pre := fun op own => ledger.pre op (own (key op)) ∧ ∀ other, other ≠ key op → own other = 0
  after := fun op own res => Function.update own (key op) (ledger.after op (own (key op)) res)

/-- The programs about one key. -/
def about (ledger : Ledger Op Res G) (key : Op → K) (here : K) : Ledger Op Res G where
  pre := fun op own => key op = here ∧ ledger.pre op own
  after := ledger.after

/-- A program about one key settles what it owes about that key. -/
theorem Settles.keyed {ledger : Ledger Op Res G} {key : Op → K} {here : K} {Bad : Err → G → Prop}
    {program : Prog Op Res Err A} {own : G}
    (settles : (ledger.about key here).Settles (fun _ own => own = 0) Bad program own) :
    (ledger.keyed key).Settles (fun _ own => own = 0)
    (fun error own => Bad error (own here)) program
      (Function.update 0 here own) := by
  induction program generalizing own with
  | done value =>
    have nothing : own = 0 := settles
    show Function.update (0 : K → G) here own = 0
    rw [nothing, Function.update_eq_self_iff]
    rfl
  | stop error =>
    show Bad error (Function.update (0 : K → G) here own here)
    rw [Function.update_self]
    exact settles
  | call op next ih =>
    obtain ⟨⟨rfl, entitled⟩, rest⟩ := settles
    refine ⟨⟨?_, fun other ne => Function.update_of_ne ne _ _⟩, fun res => ?_⟩
    · rw [Function.update_self]
      exact entitled
    · have after := ih res (rest res)
      show (ledger.keyed key).Settles _ _ (next res) (Function.update _ _ _)
      rw [Function.update_self, Function.update_idem]
      exact after

end Keyed

/-! ### Every run -/

section Runs

variable {Tid S : Type} [DecidableEq Tid] [AddCommMonoid G]

/-- Each kind of step keeps an invariant relative to what all threads owe. `Bad` is what a thread
may owe when it stops. -/
structure Valid (ledger : Ledger Op Res G) (system : System Tid Op Res Err A S)
    (inv : G → S → Prop) (Bad : Err → G → Prop) : Prop where
  init : ∀ {state}, system.init state → inv 0 state
  settled : ∀ {error own}, system.returns error → Bad error own → own = 0
  start : ∀ {total state tid program after}, inv total state →
    system.start tid state program after →
    inv total after ∧ ledger.Settles (fun _ own => own = 0) Bad program 0
  call : ∀ {own rest state op res after}, inv (own + rest) state → ledger.pre op own →
    system.effect op state res after → inv (ledger.after op own res + rest) after
  env : ∀ {total state after}, inv total state → system.env state after → inv total after

/-- What a thread owes, and settles in the program it runs. -/
def Owes (ledger : Ledger Op Res G) (Bad : Err → G → Prop) (own : G) :
    Option (Prog Op Res Err A) → Prop
  | none => own = 0
  | some program => ledger.Settles (fun _ own => own = 0) Bad program own

/-- The ledger as a protocol. -/
def protocol (ledger : Ledger Op Res G) (system : System Tid Op Res Err A S)
    (inv : G → S → Prop) (Bad : Err → G → Prop) : Protocol system G where
  contract := fun _ => ledger.contract S
  inv := fun _ owed state => ∃ total, Total owed total ∧ inv total state
  idle := fun _ shared => shared.1 = 0
  ended := fun _ shared => shared.1 = 0
  bad := fun _ error shared => Bad error shared.1

variable {ledger : Ledger Op Res G} {system : System Tid Op Res Err A S} {inv : G → S → Prop}
  {Bad : Err → G → Prop}

theorem Valid.protocol_valid (valid : ledger.Valid system inv Bad) :
    (ledger.protocol system inv Bad).Valid where
  settled := fun _ _ => rfl
  idle_rely := fun same idle => Eq.trans same idle
  ended_of_bad := fun returns bad => valid.settled returns bad
  init := fun initial => ⟨fun _ => 0, ⟨0, total_zero, valid.init initial⟩, fun _ => rfl⟩
  start := fun {history owed state tid program after} holds idle started => by
    obtain ⟨total, isTotal, holds⟩ := holds
    obtain ⟨keeps, settles⟩ := valid.start holds started
    have nothing : owed tid = 0 := idle
    refine ⟨owed tid, ⟨total, ?_, keeps⟩, ?_, fun _ _ => rfl⟩
    · rw [Function.update_eq_self]
      exact isTotal
    · rw [nothing]
      exact settles.wp after
  call := fun {history owed state tid op res after} holds entitled effect => by
    obtain ⟨total, isTotal, holds⟩ := holds
    obtain ⟨rest, rfl, updated⟩ := isTotal.split tid
    exact ⟨ledger.after op (owed tid) res, ⟨_, updated _, valid.call holds entitled effect⟩, rfl,
      fun _ _ => rfl⟩
  finish := fun {history owed state tid} holds ended => by
    refine ⟨owed tid, ?_, ended⟩
    rw [Function.update_eq_self]
    exact holds
  env := fun {history owed state after} holds moved => by
    obtain ⟨total, isTotal, holds⟩ := holds
    exact ⟨⟨total, isTotal, valid.env holds moved⟩, fun _ => rfl⟩

/-- **Every run** keeps the invariant, relative to what the threads owe; and each thread settles
what it owes in the program it runs. -/
theorem Valid.holds (valid : ledger.Valid system inv Bad)
    {history : List (S × Label Tid Op Res Err A)} {config : Config Tid Op Res Err A S}
    (run : system.Run history config) :
    ∃ owed total, Total owed total ∧ inv total config.state ∧
      ∀ tid, ledger.Owes Bad (owed tid) (config.running tid) := by
  obtain ⟨owed, ⟨total, isTotal, holds⟩, threads⟩ := valid.protocol_valid.holds run
  refine ⟨owed, total, isTotal, holds, fun tid => ?_⟩
  have thread := threads tid
  cases isRunning : config.running tid with
  | none =>
    rw [isRunning] at thread
    exact thread
  | some program =>
    rw [isRunning] at thread
    exact settles_of_wp thread

/-- **Where no thread runs, nothing is owed.** -/
theorem Valid.quiescent (valid : ledger.Valid system inv Bad)
    {history : List (S × Label Tid Op Res Err A)} {config : Config Tid Op Res Err A S}
    (run : system.Run history config) (quiet : config.Quiescent) : inv 0 config.state := by
  obtain ⟨owed, total, isTotal, holds, threads⟩ := valid.holds run
  have nothing : total = 0 := by
    refine isTotal.induction (· = 0) rfl (fun one two first second => ?_) fun tid => ?_
    · rw [first, second, add_zero]
    · have thread := threads tid
      rw [quiet tid] at thread
      exact thread
  rw [nothing] at holds
  exact holds

end Runs

end Ledger

end Qsdk
