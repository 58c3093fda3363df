/-
**A ring of a fixed size.**

The ring keeps its first place, its last place and the number of its elements apart. An element that
is added to a full ring takes the place of the oldest one. `Valid` says that the three agree; then
`contents_push` says what is added, and `contents_drop` what is left without the oldest elements.
-/

import Mathlib.Data.List.Basic
import Mathlib.Logic.Function.Basic

namespace Qsdk

/-- A ring, with the places of the first and the last element and their number. -/
structure Ring (α : Type) where
  elems : Nat → α
  first : Nat
  last : Nat
  num : Nat

namespace Ring

variable {α β : Type} {size : Nat} {ring : Ring α}

/-- The elements from the first to the last. -/
def contents (size : Nat) (ring : Ring α) : List α :=
  (List.range ring.num).map fun i => ring.elems ((ring.first + i) % size)

/-- The place behind the last. -/
def next (size : Nat) (ring : Ring α) : Nat := (ring.last + 1) % size

/-- One more element, where there is room. -/
def append (size : Nat) (x : α) (ring : Ring α) : Ring α :=
  { ring with
    elems := Function.update ring.elems (ring.next size) x, last := ring.next size,
    num := ring.num + 1 }

/-- Without the oldest elements. -/
def drop (size k : Nat) (ring : Ring α) : Ring α :=
  { ring with first := (ring.first + k) % size, num := ring.num - k }

/-- One more element, in the place of the oldest if the ring is full. -/
def push (size : Nat) (x : α) (ring : Ring α) : Ring α :=
  if ring.num = size then
    { ring with
      elems := Function.update ring.elems (ring.next size) x
      first := (ring.first + 1) % size
      last := ring.next size }
  else ring.append size x

/-- A change of every element. -/
def map (f : Nat → α → β) (ring : Ring α) : Ring β :=
    { ring with elems := fun i => f i (ring.elems i) }

/-- **The places and the number agree.** -/
structure Valid (size : Nat) (ring : Ring α) : Prop where
  first : ring.first < size
  num : ring.num ≤ size
  next : (ring.first + ring.num) % size = ring.next size
  last : ring.last < size

theorem length_contents : (ring.contents size).length = ring.num := by
  unfold contents
  rw [List.length_map, List.length_range]

theorem contents_get {i : Nat} (inside : i < (ring.contents size).length) :
    (ring.contents size)[i] = ring.elems ((ring.first + i) % size) := by
  simp only [contents, List.getElem_map, List.getElem_range]

/-- The last element stands in the last place. -/
theorem Valid.last_eq (valid : ring.Valid size) (some' : ring.num ≠ 0) :
    ring.last = (ring.first + ring.num - 1) % size := by
  have next := valid.next
  have last := valid.last
  have first := valid.first
  have num := valid.num
  unfold Ring.next at next
  rcases Nat.lt_or_ge (ring.first + ring.num) size with low | high
  · rw [Nat.mod_eq_of_lt low] at next
    rw [Nat.mod_eq_of_lt (by omega)]
    rcases Nat.lt_or_ge (ring.last + 1) size with below | end'
    · rw [Nat.mod_eq_of_lt below] at next
      omega
    · rw [show ring.last + 1 = size by omega, Nat.mod_self] at next
      omega
  · rw [Nat.mod_eq_sub_mod high, Nat.mod_eq_of_lt (by omega)] at next
    rcases Nat.lt_or_ge (ring.last + 1) size with below | end'
    · rw [Nat.mod_eq_of_lt below] at next
      rw [Nat.mod_eq_sub_mod (by omega), Nat.mod_eq_of_lt (by omega)]
      omega
    · rw [show ring.last + 1 = size by omega, Nat.mod_self] at next
      rw [Nat.mod_eq_of_lt (by omega)]
      omega

/-- Different places within one round. -/
theorem place_ne {a i j : Nat} (less : i < j) (round : j < i + size) :
    (a + i) % size ≠ (a + j) % size := by
  intro same
  have zero : (j - i) % size = 0 := by
    have := Nat.sub_mod_eq_zero_of_mod_eq same.symm
    rwa [Nat.add_sub_add_left] at this
  rw [Nat.mod_eq_of_lt (by omega)] at zero
  omega

theorem Valid.drop (valid : ring.Valid size) {k : Nat} (le : k ≤ ring.num) :
    (ring.drop size k).Valid size where
  first := Nat.mod_lt _ (Nat.lt_of_le_of_lt (Nat.zero_le _) valid.first)
  num := Nat.le_trans (Nat.sub_le ..) valid.num
  next := by
    show ((ring.first + k) % size + (ring.num - k)) % size = ring.next size
    rw [Nat.mod_add_mod, Nat.add_assoc, Nat.add_sub_of_le le]
    exact valid.next
  last := valid.last

/-- **What is left.** -/
theorem contents_drop (k : Nat) : (ring.drop size k).contents size =
    (ring.contents size).drop k := by
  refine List.ext_getElem ?_ fun i inside inside' => ?_
  · rw [length_contents, List.length_drop, length_contents]
    rfl
  · rw [contents_get, List.getElem_drop, contents_get]
    show ring.elems (((ring.first + k) % size + i) % size) = _
    rw [Nat.mod_add_mod, Nat.add_assoc]

theorem Valid.append (valid : ring.Valid size) (room : ring.num < size) (x : α) :
    (ring.append size x).Valid size where
  first := valid.first
  num := room
  next := by
    show (ring.first + (ring.num + 1)) % size = (ring.next size + 1) % size
    rw [← valid.next, ← Nat.add_assoc, Nat.mod_add_mod]
  last := Nat.mod_lt _ (Nat.lt_of_le_of_lt (Nat.zero_le _) room)

theorem contents_append (valid : ring.Valid size) (room : ring.num < size) (x : α) :
    (ring.append size x).contents size = ring.contents size ++ [x] := by
  show (List.range (ring.num + 1)).map _ = _
  rw [List.range_succ, List.map_append, List.map_singleton]
  congr 1
  · refine List.map_congr_left fun i member => Function.update_of_ne ?_ ..
    have less := List.mem_range.mp member
    show (ring.first + i) % size ≠ ring.next size
    rw [← valid.next]
    exact place_ne less (by omega)
  · show [Function.update ring.elems (ring.next size) x ((ring.first + ring.num) % size)] = [x]
    rw [valid.next, Function.update_self]

/-- A full ring loses its oldest element. -/
theorem push_eq (valid : ring.Valid size) (x : α) :
    ring.push size x = if ring.num = size then (ring.drop size 1).append size x else
        ring.append size x := by
  have first := valid.first
  unfold push
  split
  case isFalse => rfl
  case isTrue full =>
    unfold Ring.append Ring.drop
    dsimp only
    rw [show ring.num - 1 + 1 = ring.num by omega]
    rfl

theorem Valid.push (valid : ring.Valid size) (x : α) : (ring.push size x).Valid size := by
  have first := valid.first
  have num := valid.num
  rw [push_eq valid]
  split
  case isTrue full => exact (valid.drop (by omega)).append (show ring.num - 1 < size by omega) x
  case isFalse room => exact valid.append (by omega) x

/-- **What is added,** from the newest element on. -/
theorem contents_push (valid : ring.Valid size) (x : α) :
    ((ring.push size x).contents size).reverse = (x :: (ring.contents size).reverse).take size := by
  have first := valid.first
  have num := valid.num
  have length : (ring.contents size).reverse.length = ring.num :=
    List.length_reverse.trans length_contents
  rw [push_eq valid]
  split
  case isTrue full =>
    rw [contents_append (valid.drop (by omega)) (show ring.num - 1 < size by omega), contents_drop,
      List.reverse_append, List.reverse_singleton, List.singleton_append,
      List.drop_one, ← List.dropLast_reverse,
      List.dropLast_eq_take, length, full, List.take_cons (by omega)]
  case isFalse room =>
    rw [contents_append valid (by omega), List.reverse_append, List.reverse_singleton,
      List.singleton_append,
      List.take_of_length_le]
    rw [List.length_cons, length]
    omega

theorem num_push (valid : ring.Valid size) (x : α) : (ring.push size x).num ≠ 0 := by
  have first := valid.first
  unfold push
  split
  case isTrue full =>
    show ring.num ≠ 0
    omega
  case isFalse => exact Nat.succ_ne_zero _

theorem Valid.map (valid : ring.Valid size) (f : Nat → α → β) : (ring.map f).Valid size :=
  ⟨valid.first, valid.num, valid.next, valid.last⟩

/-- What a change of the elements keeps. -/
theorem contents_map {γ : Type} (ring : Ring α) (f : Nat → α → β) (g : α → γ) (h : β → γ)
    (keeps : ∀ i x, h (f i x) = g x) :
    ((ring.map f).contents size).map h = (ring.contents size).map g := by
  unfold contents
  rw [List.map_map, List.map_map]
  exact List.map_congr_left fun i _ => keeps ..

/-- An empty ring. -/
theorem valid_empty (elems : Nat → α) (positive : 0 < size) :
    (⟨elems, 0, size - 1, 0⟩ : Ring α).Valid size where
  first := positive
  num := Nat.zero_le _
  next := by
    show 0 % size = (size - 1 + 1) % size
    rw [Nat.sub_add_cancel positive, Nat.mod_self, Nat.zero_mod]
  last := Nat.sub_lt positive Nat.one_pos

end Ring

end Qsdk
