/-
**Bytes put in the place of others.**

In a list, so many elements at a place give way to others. Where two places give the same result,
what is put in has to repeat itself, and over zeros it is all zeros.
-/

import Mathlib.Algebra.BigOperators.Group.List.Basic
import Mathlib.Algebra.GroupWithZero.Nat

namespace Qsdk.Splice

/-- At a place of a list, `cut` elements give way to others. -/
def splice {α : Type} (list : List α) (pos cut : Nat) (new : List α) : List α :=
  list.take pos ++ new ++ list.drop (pos + cut)

variable {α : Type} {list new : List α} {pos : Nat}

theorem splice_append (front old behind new : List α) :
    splice (front ++ (old ++ behind)) front.length old.length new = front ++ (new ++ behind) := by
  unfold splice
  rw [List.take_left', List.drop_append, List.drop_eq_nil_of_le (by omega), Nat.add_sub_cancel_left,
    List.drop_left',
    List.nil_append, List.append_assoc]
  · rfl
  · rfl

theorem length_splice (inside : pos + new.length ≤ list.length) :
    (splice list pos new.length new).length = list.length := by
  unfold splice
  rw [List.length_append, List.length_append, List.length_take, List.length_drop]
  omega

theorem take_splice (inside : pos ≤ list.length) (cut : Nat) :
    (splice list pos cut new).take (pos + new.length) = list.take pos ++ new := by
  refine List.take_left' ?_
  rw [List.length_append, List.length_take]
  omega

/-- **One behind the other, up to the end.** -/
theorem splice_to_end {elem : α} {last : List α}
    (whole : pos + 1 + new.length + last.length = list.length) :
    splice (splice (splice list pos 1 [elem]) (pos + 1) new.length new)
    (pos + 1 + new.length) last.length last =
      list.take pos ++ (elem :: new) ++ last := by
  have lengthOne : (splice list pos 1 [elem]).length = list.length :=
    @length_splice α list [elem] pos (show pos + 1 ≤ list.length by omega)
  have lengthTwo : (splice (splice list pos 1 [elem]) (pos + 1) new.length new).length =
      list.length :=
    (length_splice (by omega)).trans lengthOne
  have takeOne : (splice list pos 1 [elem]).take (pos + 1) = list.take pos ++ [elem] :=
    @take_splice α list [elem] pos (by omega) 1
  have takeTwo :=
    @take_splice α _ new _ (show pos + 1 ≤ (splice list pos 1 [elem]).length by omega) new.length
  rw [takeOne] at takeTwo
  rw [splice, takeTwo, List.drop_eq_nil_of_le (by omega), List.append_nil,
    List.append_assoc (list.take pos)]
  rfl

/-- Nothing changes if and only if what is put in is there already. -/
theorem splice_eq_self (inside : pos + new.length ≤ list.length) :
    splice list pos new.length new = list ↔ (list.drop pos).take new.length = new := by
  have length : (list.take pos).length = pos := by rw [List.length_take]; omega
  unfold splice
  rw [List.append_assoc]
  constructor
  · intro same
    have taken := congrArg (fun list => (list.drop pos).take new.length) same
    rw [List.drop_left' length, List.take_left' rfl] at taken
    exact taken.symm
  · intro same
    have parts : list.take pos ++
        ((list.drop pos).take new.length ++ list.drop (pos + new.length)) = list := by
      rw [← List.drop_drop, List.take_append_drop, List.take_append_drop]
    rwa [same] at parts

theorem getElem?_splice_left (inside : pos ≤ list.length) {i : Nat} (lt : i < pos) (cut : Nat) :
    (splice list pos cut new)[i]? = list[i]? := by
  unfold splice
  rw [List.append_assoc, List.getElem?_append_left (by rw [List.length_take]; omega),
    List.getElem?_take_of_lt lt]

theorem getElem?_splice_mid (inside : pos ≤ list.length) {i : Nat} (lt : i < new.length)
    (cut : Nat) :
    (splice list pos cut new)[pos + i]? = new[i]? := by
  have length : (list.take pos).length = pos := by rw [List.length_take]; omega
  unfold splice
  rw [List.append_assoc, List.getElem?_append_right (by omega), length, Nat.add_sub_cancel_left,
    List.getElem?_append_left lt]

theorem getElem?_splice_right (inside : pos + new.length ≤ list.length) {i : Nat}
    (le : pos + new.length ≤ i) :
    (splice list pos new.length new)[i]? = list[i]? := by
  have length : (list.take pos).length = pos := by rw [List.length_take]; omega
  unfold splice
  rw [List.append_assoc, List.getElem?_append_right (by omega), length,
    List.getElem?_append_right (by omega),
    List.getElem?_drop]
  congr 1
  omega

/-- **At an earlier place**, over zeros: only zeros give the same there. -/
theorem zeros_of_splice_eq {list new : List Nat} {early late : Nat} (lt : early < late)
    (inside : late + new.length ≤ list.length) (zeros : ∀ i < new.length, list[late + i]? = some 0)
    (same : splice list early new.length new = splice list late new.length new) :
        ∀ elem ∈ new, elem = 0 := by
  -- from the last one down: each is a zero of the list, or one that comes later
  have each : ∀ back i, new.length - i = back → i < new.length → new[i]? = some 0 := by
    intro back
    induction back using Nat.strongRecOn with
    | ind back ih =>
      intro i isBack isIn
      have here := congrArg (·[late + i]?) same
      rw [getElem?_splice_mid (by omega) isIn] at here
      rw [← here]
      by_cases beyond : late + i < early + new.length
      · have shifted := getElem?_splice_mid (show early ≤ list.length by omega)
          (show late + i - early < new.length by omega) new.length
        rw [Nat.add_sub_cancel' (by omega)] at shifted
        rw [shifted]
        exact ih (new.length - (late + i - early)) (by omega) (late + i - early) rfl (by omega)
      · rw [getElem?_splice_right (by omega) (by omega)]
        exact zeros i isIn
  intro elem member
  obtain ⟨i, isIn, isElem⟩ := List.mem_iff_getElem.mp member
  have found := each _ i rfl isIn
  rw [List.getElem?_eq_getElem isIn, isElem] at found
  exact Option.some.inj found

theorem sum_splice_one {list : List Nat} (inside : pos < list.length) (new : List Nat) :
    (splice list pos 1 new).sum + list[pos] = list.sum + new.sum := by
  have parts : list.sum = (list.take pos).sum + (list[pos] + (list.drop (pos + 1)).sum) := by
    rw [← List.sum_cons, ← List.drop_eq_getElem_cons inside, ← List.sum_append_nat,
      List.take_append_drop]
  unfold splice
  rw [List.sum_append_nat, List.sum_append_nat, parts]
  omega

/-- **Put in for one element at an earlier place**: never the same as for a zero at the later one,
unless it begins with a zero. -/
theorem splice_one_ne {list new : List Nat} {first early late : Nat} (lt : early < late)
    (inside : late < list.length) (zero : list[late] = 0) (some : first ≠ 0) :
    splice list early 1 (first :: new) ≠ splice list late 1 (first :: new) := by
  intro same
  have left := sum_splice_one (show early < list.length by omega) (first :: new)
  have right := sum_splice_one inside (first :: new)
  rw [same] at left
  have here := congrArg (·[early]?) same
  have isFirst := getElem?_splice_mid (show early ≤ list.length by omega)
    (show 0 < (first :: new).length from Nat.succ_pos _) 1
  rw [Nat.add_zero] at isFirst
  rw [isFirst, getElem?_splice_left (show late ≤ list.length by omega) lt,
    List.getElem?_eq_getElem (show early < list.length by omega)] at here
  have := Option.some.inj here
  omega

end Qsdk.Splice
