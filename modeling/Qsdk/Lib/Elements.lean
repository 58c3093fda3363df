/-
**Elements in a row.**

An element is an identifier, a length and so many bytes. A list of elements is written one behind
the other, and read from the front: at each place there is the first of the elements that are left.
-/

import Mathlib.Algebra.Group.Nat.Defs
import Mathlib.Data.List.Basic

namespace Qsdk.Elements

/-- An element. -/
structure Elem where
  id : Nat
  body : List Nat
deriving DecidableEq

/-- The bytes of an element. -/
def Elem.bytes (elem : Elem) : List Nat := elem.id :: elem.body.length :: elem.body

/-- The bytes of elements in a row. -/
def encode (elems : List Elem) : List Nat := elems.flatMap Elem.bytes

variable {elem : Elem} {elems : List Elem} {front rest : List Nat}

@[simp] theorem encode_nil : encode [] = [] := rfl

@[simp] theorem encode_cons (elem : Elem) (elems : List Elem) :
    encode (elem :: elems) = elem.bytes ++ encode elems :=
  List.flatMap_cons

@[simp] theorem encode_append (elems more : List Elem) : encode (elems ++ more) = encode elems ++
    encode more :=
  List.flatMap_append

@[simp] theorem Elem.length_bytes (elem : Elem) : elem.bytes.length = elem.body.length + 2 := rfl

/-- Every element takes two bytes at least. -/
theorem two_le_length_encode (elems : List Elem) : 2 * elems.length ≤ (encode elems).length := by
  induction elems with
  | nil => exact Nat.le_refl 0
  | cons elem elems ih =>
    rw [encode_cons, List.length_append, Elem.length_bytes, List.length_cons]
    omega

/-- Just two bytes each, if all are empty. -/
theorem length_encode_eq_iff (elems : List Elem) :
    (encode elems).length = 2 * elems.length ↔ ∀ elem ∈ elems, elem.body = [] := by
  induction elems with
  | nil => simp
  | cons elem elems ih =>
    have least := two_le_length_encode elems
    rw [encode_cons, List.length_append, Elem.length_bytes, List.length_cons,
      List.forall_mem_cons, ← ih,
      ← List.length_eq_zero_iff]
    omega

theorem length_encode_eq_zero : (encode elems).length = 0 ↔ elems = [] := by
  have least := two_le_length_encode elems
  rw [← List.length_eq_zero_iff]
  constructor
  · omega
  · intro none
    rw [List.length_eq_zero_iff.mp none, encode_nil, List.length_nil]

/-! ### Reading -/

theorem getElem?_id : (front ++ (elem.bytes ++ rest))[front.length]? = some elem.id := by
  rw [List.getElem?_append_right (Nat.le_refl _), Nat.sub_self]
  rfl

theorem getElem?_length : (front ++ (elem.bytes ++ rest))[front.length + 1]? =
    some elem.body.length := by
  rw [List.getElem?_append_right (Nat.le_add_right ..), Nat.add_sub_cancel_left]
  rfl

theorem drop_body : (front ++ (elem.bytes ++ rest)).drop (front.length + 2) =
    elem.body ++ rest := by
  rw [List.drop_append, Nat.add_sub_cancel_left, List.drop_eq_nil_of_le (by omega)]
  rfl

end Qsdk.Elements
