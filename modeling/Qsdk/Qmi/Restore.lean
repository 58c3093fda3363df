/-
**Decoders that bring back what was encoded.**

`Restores m P W a p`: the decoder `p` returns `a`, and of the C structure it sets the bytes at the
addresses `W` to those of the memory `m`, and changes no others; it may rely on the addresses `P` to
have their bytes already. With each value goes the other half: the encoder depends on no more of the
memory than `W` (`Like`).
-/

import Mathlib.Data.Set.Lattice
import Qsdk.Qmi.Encode
import Qsdk.Qmi.Framing

namespace Qsdk.Qmi.Decode

open Writes

/-! ### Restoring decoders -/

/-- The decoder sets the addresses `W` to their bytes in `m`, given that `P` already has its
bytes. -/
def Restores (m : Memory Byte) (P W : Set Int) {α : Type} (a : α) (p : Decoder α) : Prop :=
  ∀ s : State, s.rangeErrorIgnore = false → (∀ x ∈ P, s.memory x = m x) →
    ∃ after, p.on s = (.ok a, after) ∧ after.rangeErrorIgnore = false ∧
    (∀ x ∈ W, after.memory x = m x) ∧
      ∀ x ∉ W, after.memory x = s.memory x

section Restores

variable {m : Memory Byte} {P V W : Set Int} {α β : Type} {a : α} {b : β}

theorem Restores.pure (a : α) : Restores m P ∅ a (Pure.pure a) :=
  fun s valid _ => ⟨s, rfl, valid, fun _ none => none.elim, fun _ _ => rfl⟩

theorem Restores.bind {p : Decoder α} {rest : α → Decoder β} (first : Restores m P V a p)
    (second : Restores m (P ∪ V) W b (rest a)) : Restores m P (V ∪ W) b (p >>= rest) := by
  intro s valid before
  obtain ⟨mid, runs, valid, set, kept⟩ := first s valid before
  have already : ∀ x ∈ P ∪ V, mid.memory x = m x := by
    intro x inside
    by_cases new : x ∈ V
    · exact set x new
    · rw [kept x new]
      exact before x (inside.resolve_right new)
  obtain ⟨after, returns, valid, sets, keeps⟩ := second mid valid already
  refine ⟨after, by rw [on_bind, runs]; exact returns, valid, fun x inside => ?_,
    fun x outside => ?_⟩
  · by_cases new : x ∈ W
    · exact sets x new
    · rw [keeps x new]
      exact set x (inside.resolve_right new)
  · rw [keeps x fun new => outside (.inr new), kept x fun new => outside (.inl new)]

theorem Restores.of_subset {Q : Set Int} {p : Decoder α} (more : P ⊆ Q)
    (restores : Restores m P W a p) :
    Restores m Q W a p :=
  fun s valid before => restores s valid fun x inside => before x (more inside)

theorem Restores.any {p : Decoder α} (restores : Restores m ∅ W a p) : Restores m P W a p :=
  restores.of_subset (Set.empty_subset P)

theorem Restores.of_eq {p : Decoder α} (restores : Restores m P V a p) (same : V = W) :
    Restores m P W a p :=
  same ▸ restores

/-- A test that is passed. -/
theorem Restores.check {condition : Prop} [Decidable condition] {e : Error}
    {rest : Unit → Decoder β} (holds : condition) (second : Restores m P W b (rest ⟨⟩)) :
    Restores m P W b (Writes.check condition e >>= rest) := by
  rw [Writes.check, if_pos holds]
  exact ((Restores.pure ()).bind (second.of_subset Set.subset_union_left)).of_eq (Set.empty_union W)

/-- A part that does not run. -/
theorem Restores.when_not {condition : Prop} [Decidable condition] {p : Decoder Unit}
    {rest : Unit → Decoder β} (not : ¬ condition) (second : Restores m P W b (rest ⟨⟩)) :
    Restores m P W b (Writes.when condition p >>= rest) := by
  rw [Writes.when, if_neg not]
  exact ((Restores.pure ()).bind (second.of_subset Set.subset_union_left)).of_eq (Set.empty_union W)

/-- The addresses of some bytes. -/
def span (address : Int) (count : Nat) : Set Int := {x | address ≤ x ∧ x < address + count}

/-- The bytes of `m` are put where they are in `m`. -/
theorem Restores.store (address : Int) (count : Nat) :
    Restores m P (span address count) () (Decode.store address (m.read address count)) := by
  intro s valid _
  have length := length_read m address count
  refine ⟨_, rfl, valid, fun x inside => ?_, fun x outside => ?_⟩
  · have within : (x - address).toNat < (m.read address count).length := by
      rw [length]
      have := inside.1
      have := inside.2
      omega
    change (if address ≤ x then (m.read address count).getD (x - address).toNat (s.memory x) else
      s.memory x) = m x
    rw [if_pos inside.1, List.getD_eq_getElem?_getD, List.getElem?_eq_getElem within]
    simp only [Memory.read, List.getElem_map, List.getElem_range, Option.getD_some]
    congr 1
    have := inside.1
    omega
  · change (if address ≤ x then (m.read address count).getD (x - address).toNat (s.memory x) else
      s.memory x) = _
    split
    · rename_i low
      rw [List.getD_eq_getElem?_getD, List.getElem?_eq_none, Option.getD_none]
      rw [length]
      by_contra short
      exact outside ⟨low, by omega⟩
    · rfl

/-- Each item of a loop restores its own addresses. -/
theorem Restores.forM {body : Nat → Decoder Unit} {W : Nat → Set Int} (list : List Nat)
    (each : ∀ i ∈ list, Restores m P (W i) () (body i)) :
    Restores m P (⋃ i ∈ list, W i) () (list.forM body) := by
  induction list with
  | nil => exact (Restores.pure ()).of_eq (by simp)
  | cons i list ih =>
    have first := each i (.head _)
    have rest := ih fun j later => each j (.tail _ later)
    exact (first.bind (rest.of_subset Set.subset_union_left)).of_eq (by simp)

/-- A loop that changes nothing, as the bytes that it looks at are there. -/
theorem Restores.idle {body : Nat → Decoder Unit} (list : List Nat)
    (each : ∀ i ∈ list, ∀ s : State, (∀ x ∈ P, s.memory x = m x) → (body i).on s = (.ok (), s)) :
    Restores m P ∅ () (list.forM body) := by
  intro s valid before
  refine ⟨s, ?_, valid, fun _ none => none.elim, fun _ _ => rfl⟩
  induction list with
  | nil => rfl
  | cons i list ih =>
    change (body i >>= fun _ => list.forM body).on s = _
    rw [on_bind, each i (.head _) s before]
    exact ih fun j later => each j (.tail _ later)

end Restores

/-! ### Memories that are alike -/

/-- The memories have the same bytes at the addresses `W`. -/
def Like (W : Set Int) (m m' : Memory Byte) : Prop := ∀ x ∈ W, m' x = m x

section Like

variable {m m' : Memory Byte} {V W : Set Int}

theorem Like.of_subset (like : Like W m m') (less : V ⊆ W) : Like V m m' :=
    fun x inside => like x (less inside)

theorem Like.left (like : Like (V ∪ W) m m') : Like V m m' := like.of_subset Set.subset_union_left

theorem Like.right (like : Like (V ∪ W) m m') : Like W m m' := like.of_subset Set.subset_union_right

theorem Like.read (like : Like W m m') {address : Int} {count : Nat}
    (inside : span address count ⊆ W) :
    m'.read address count = m.read address count := by
  apply List.map_congr_left
  intro i short
  rw [List.mem_range] at short
  exact like _ (inside ⟨by omega, by omega⟩)

theorem Like.word32 (like : Like W m m') {address : Int} (inside : span address 4 ⊆ W) :
    word32 m' address = word32 m address := by
  rw [Decode.word32, like.read inside, Decode.word32]

end Like

/-! ### Numbers -/

theorem ofLe_lt (list : List Byte) : ofLe list < 256 ^ list.length := by
  induction list with
  | nil => exact Nat.one_pos
  | cons byte list ih =>
    have small := byte.isLt
    rw [ofLe, List.length_cons, pow_succ]
    omega

theorem leBytes_succ (count n : Nat) : leBytes (count + 1) n = BitVec.ofNat 8 n ::
    leBytes count (n / 256) := by
  rw [leBytes, List.range_succ_eq_map, List.map_cons, List.map_map, leBytes, pow_zero, Nat.div_one]
  congr 1
  apply List.map_congr_left
  intro i _
  rw [Function.comp_apply, pow_succ', Nat.div_div_eq_div_mul]

/-- The bytes of a number are those it was put together from. -/
theorem leBytes_ofLe (list : List Byte) : leBytes list.length (ofLe list) = list := by
  induction list with
  | nil => rfl
  | cons byte list ih =>
    have small := byte.isLt
    have low : BitVec.ofNat 8 (byte.toNat + 256 * ofLe list) = byte := by
      apply BitVec.eq_of_toNat_eq
      rw [BitVec.toNat_ofNat]
      omega
    have high : (byte.toNat + 256 * ofLe list) / 256 = ofLe list := by omega
    rw [List.length_cons, leBytes_succ, ofLe, low, high, ih]

/-- The bytes of the number at an address. -/
theorem leBytes_word32 (m : Memory Byte) (address : Int) : leBytes 4 (word32 m address).toNat =
    m.read address 4 := by
  have small := ofLe_lt (m.read address 4)
  have bytes := leBytes_ofLe (m.read address 4)
  rw [length_read] at small bytes
  rw [word32, BitVec.toNat_ofNat, Nat.mod_eq_of_lt (by simpa using small), bytes]

end Qsdk.Qmi.Decode
