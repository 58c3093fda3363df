/-
**Programs that write and may fail.**

The state of a program survives an error: what it wrote before stays written. An invariant of the
state is kept by the whole program if each step keeps it (`Keeps`), whether the program returns or
throws. For memory the invariant is that nothing is changed outside of a region (`SameOutside`).
-/

import Mathlib.Data.Int.Order.Basic
import Mathlib.Tactic.Ring

namespace Qsdk.Writes

variable {ε σ α β : Type}

/-- A program with a state that survives an error. -/
abbrev Writing (ε σ α : Type) := ExceptT ε (StateM σ) α

/-- The error is thrown unless the condition holds. -/
def check (condition : Prop) [Decidable condition] (e : ε) : Writing ε σ PUnit :=
  if condition then pure ⟨⟩ else throw e

/-- The program runs only under the condition. -/
def when (condition : Prop) [Decidable condition] (program : Writing ε σ PUnit) :
    Writing ε σ PUnit :=
  if condition then program else pure ⟨⟩

/-- A result that does not depend on the state. -/
def given : Except ε α → Writing ε σ α
  | .ok a => pure a
  | .error e => throw e

/-- The result of a program and the state it leaves. -/
def Writing.on (program : Writing ε σ α) (s : σ) : Except ε α × σ := program.run s

section On

variable (s : σ)

@[simp] theorem on_pure (a : α) : (pure a : Writing ε σ α).on s = (.ok a, s) := rfl

@[simp] theorem on_throw (e : ε) : (throw e : Writing ε σ α).on s = (.error e, s) := rfl

@[simp] theorem on_get : (get : Writing ε σ σ).on s = (.ok s, s) := rfl

@[simp] theorem on_modify (f : σ → σ) : (modify f : Writing ε σ PUnit).on s = (.ok ⟨⟩, f s) := rfl

@[simp] theorem on_given (result : Except ε α) : (given result : Writing ε σ α).on s =
    (result, s) := by
  cases result <;> rfl

/-- A test that is passed changes nothing. -/
theorem on_check_eq_ok {condition : Prop} [Decidable condition] {e : ε} {done : PUnit} {after : σ} :
    (check condition e : Writing ε σ PUnit).on s = (.ok done, after) ↔ condition ∧ s = after := by
  by_cases so : condition
  · simp [check, so]
  · simp [check, so]

/-- What follows runs on the state that was left, unless there was an error. -/
theorem on_bind (program : Writing ε σ α) (rest : α → Writing ε σ β) :
    (program >>= rest).on s =
      match program.on s with
      | (.ok a, s) => (rest a).on s
      | (.error e, s) => (.error e, s) := by
  change (ExceptT.bindCont rest ((program.on s).1)) (program.on s).2 = _
  rcases program.on s with ⟨_ | _, _⟩ <;> rfl

/-- Both parts of a program that returns return. -/
theorem on_bind_eq_ok {program : Writing ε σ α} {rest : α → Writing ε σ β} {b : β} {after : σ} :
    (program >>= rest).on s = (.ok b, after) ↔
      ∃ a mid, program.on s = (.ok a, mid) ∧ (rest a).on mid = (.ok b, after) := by
  rw [on_bind]
  rcases program.on s with ⟨_ | a, mid⟩
  · simp
  · simp

end On

/-! ### Invariants -/

/-- The invariant is kept, whether the program returns or throws. -/
def Keeps (inv : σ → Prop) (program : Writing ε σ α) : Prop := ∀ s, inv s → inv (program.on s).2

section Keeps

variable {inv : σ → Prop}

theorem keeps_pure (a : α) : Keeps inv (pure a : Writing ε σ α) := fun _ holds => holds

theorem keeps_throw (e : ε) : Keeps inv (throw e : Writing ε σ α) := fun _ holds => holds

theorem keeps_get : Keeps inv (get : Writing ε σ σ) := fun _ holds => holds

theorem keeps_modify {f : σ → σ} (keeps : ∀ s, inv s → inv (f s)) :
    Keeps inv (modify f : Writing ε σ PUnit) := keeps

theorem Keeps.bind {program : Writing ε σ α} {rest : α → Writing ε σ β} (first : Keeps inv program)
    (second : ∀ a, Keeps inv (rest a)) : Keeps inv (program >>= rest) := by
  intro s holds
  have mid := first s holds
  rw [on_bind]
  generalize program.on s = result at mid ⊢
  rcases result with ⟨_ | a, after⟩
  · exact mid
  · exact second a after mid

/-- What follows a test may rely on it. -/
theorem keeps_check {condition : Prop} [Decidable condition] {e : ε} {rest : PUnit → Writing ε σ β}
    (second : condition → Keeps inv (rest ⟨⟩)) : Keeps inv (check condition e >>= rest) := by
  by_cases so : condition
  · rw [check, if_pos so]
    exact (keeps_pure _).bind fun _ => second so
  · rw [check, if_neg so]
    exact fun _ kept => kept

theorem keeps_when {condition : Prop} [Decidable condition] {program : Writing ε σ PUnit}
    (first : condition → Keeps inv program) : Keeps inv (when condition program) := by
  by_cases so : condition
  · rw [when, if_pos so]
    exact first so
  · rw [when, if_neg so]
    exact keeps_pure _

theorem keeps_given (result : Except ε α) : Keeps inv (given result : Writing ε σ α) := by
  intro s holds
  rw [on_given]
  exact holds

theorem keeps_forM {body : α → Writing ε σ PUnit} (list : List α)
    (each : ∀ a ∈ list, Keeps inv (body a)) :
    Keeps inv (list.forM body) := by
  induction list with
  | nil => exact keeps_pure _
  | cons a list ih =>
    change Keeps inv (body a >>= fun _ => list.forM body)
    exact (each a (.head _)).bind fun _ => ih fun b later => each b (.tail _ later)

theorem keeps_foldlM {body : β → α → Writing ε σ β} (list : List α) (start : β)
    (each : ∀ b, ∀ a ∈ list, Keeps inv (body b a)) : Keeps inv (list.foldlM body start) := by
  induction list generalizing start with
  | nil => exact keeps_pure _
  | cons a list ih =>
    rw [List.foldlM_cons]
    exact (each start a (.head _)).bind fun b => ih b fun c d later => each c d (.tail _ later)

theorem Keeps.ite {condition : Prop} [Decidable condition] {yes no : Writing ε σ α}
    (first : condition → Keeps inv yes) (second : ¬ condition → Keeps inv no) :
    Keeps inv (if condition then yes else no) := by
  split
  · exact first ‹_›
  · exact second ‹_›

end Keeps

/-! ### Memory -/

section Memory

variable {Byte : Type}

/-- A memory, by address. -/
abbrev Memory (Byte : Type) := Int → Byte

/-- The bytes are written from an address on. -/
def Memory.write (memory : Memory Byte) (address : Int) (bytes : List Byte) :
    Memory Byte := fun at_ =>
  if address ≤ at_ then bytes.getD (at_ - address).toNat (memory at_) else memory at_

/-- The bytes from an address on. -/
def Memory.read (memory : Memory Byte) (address : Int) (count : Nat) : List Byte :=
  (List.range count).map fun i : Nat => memory (address + i)

/-- The two memories are the same outside of a region. -/
def SameOutside (first last : Int) (before after : Memory Byte) : Prop :=
  ∀ address, address < first ∨ last ≤ address → after address = before address

/-- A write into the region. -/
theorem SameOutside.write {first last : Int} {before after : Memory Byte} {address : Int}
    {bytes : List Byte} (same : SameOutside first last before after) (low : first ≤ address)
    (high : address + bytes.length ≤ last) :
    SameOutside first last before (after.write address bytes) := by
  intro at_ outside
  rw [Memory.write]
  split
  · rw [List.getD_eq_getElem?_getD, List.getElem?_eq_none (by omega)]
    exact same at_ outside
  · exact same at_ outside

@[simp] theorem length_read (memory : Memory Byte) (address : Int) (count : Nat) :
    (memory.read address count).length = count := by
  simp [Memory.read]

end Memory

end Qsdk.Writes
