/-
**A bounded sweep that takes elements off a list.**

The sweep goes along a list with two places, the element it has come to and the last one that it has
passed. An element is passed, marked, or removed. After a removal the sweep goes on behind the last
element that it has passed, so that it comes to the marked elements in between again. Its number of
steps is bounded.

`run_eq` says what is done: the elements of some first part of the list, `reached`, are treated once
each. Whether this part has all the elements that are wanted is a matter of counting
(`reached_all_iff`): the steps that are made again have to be made up for by the elements behind the
last wanted one.
-/

import Mathlib.Data.List.Basic
import Mathlib.Data.List.Nodup
import Mathlib.Algebra.Group.Nat.Defs

namespace Qsdk.Sweep

/-- What is done to an element. -/
inductive Kind
  | pass
  | mark
  | remove
  deriving DecidableEq, Repr

/-- A state with a list, and what the sweep does to it. -/
structure Walker (σ α : Type) where
  list : σ → List α
  kind : σ → α → Kind
  isMarked : σ → α → Bool
  mark : α → σ → σ
  remove : α → σ → σ

variable {σ α : Type}

/-- The element after the given one, and `none` at the end of the list; the first element if none is
given. An element that is not in the list has no defined next one. -/
def next [DecidableEq α] (list : List α) : Option α → Option (Option α)
  | none => some list.head?
  | some x => if x ∈ list then some (list.dropWhile (· ≠ x)).tail.head? else none

namespace Walker

/-- What is done to an element changes nothing for the others, and a marked element can be marked
again. -/
structure Lawful [DecidableEq α] (walker : Walker σ α) : Prop where
  list_mark : ∀ x s, walker.list (walker.mark x s) = walker.list s
  list_remove : ∀ x s, walker.list (walker.remove x s) = (walker.list s).erase x
  kind_mark : ∀ x s, walker.kind (walker.mark x s) = walker.kind s
  kind_remove : ∀ x s y, y ≠ x → walker.kind (walker.remove x s) y = walker.kind s y
  mark_eq : ∀ x s, walker.isMarked s x = true → walker.mark x s = s
  isMarked_mark : ∀ x s, walker.isMarked (walker.mark x s) x = true
  isMarked_mark_of : ∀ x s y, y ≠ x → walker.isMarked (walker.mark x s) y = walker.isMarked s y
  isMarked_remove : ∀ x s y, y ≠ x → walker.isMarked (walker.remove x s) y = walker.isMarked s y

/-- The sweep, with the element it has come to and the last one it has passed. It strays if the
former is not in the list. -/
def run [DecidableEq α] (walker : Walker σ α) : Nat → Option α → Option α → σ → Option σ
  | 0, _, _, s => some s
  | steps + 1, current, passed, s =>
    if (walker.list s).isEmpty then some s
    else
      match next (walker.list s) current with
      | none => none
      | some none => some s
      | some (some x) =>
        match walker.kind s x with
        | .pass => walker.run steps (some x) (some x) s
        | .mark => walker.run steps (some x) passed (walker.mark x s)
        | .remove => walker.run steps passed passed (walker.remove x s)

/-- What is done to one element. -/
def treat (walker : Walker σ α) (s : σ) (x : α) : σ :=
  match walker.kind s x with
  | .pass => s
  | .mark => walker.mark x s
  | .remove => walker.remove x s

end Walker

/-- An element that is to be removed, or to be marked and is not. -/
def Walker.wanted (walker : Walker σ α) (s : σ) (x : α) : Bool :=
  decide (walker.kind s x = .remove) || (decide (walker.kind s x = .mark) && !walker.isMarked s x)

/-! ### How far a sweep comes -/

/-- The elements that are reached in a number of steps, if `again` elements have to be visited again
before, and `marks` elements have been marked since the last one that was passed. -/
def reached (kind : α → Kind) : (steps again marks : Nat) → List α → List α
  | 0, _, _, _ => []
  | steps + 1, again + 1, marks, todo => reached kind steps again marks todo
  | _ + 1, 0, _, [] => []
  | steps + 1, 0, marks, x :: todo =>
    x :: match kind x with
      | .pass => reached kind steps 0 0 todo
      | .mark => reached kind steps 0 (marks + 1) todo
      | .remove => reached kind steps marks marks todo

/-- The number of steps in which the sweep comes to all wanted elements. -/
def need (kind : α → Kind) (wanted : α → Bool) : (again marks : Nat) → List α → Nat
  | _, _, [] => 0
  | again, marks, x :: todo =>
    if ∀ y ∈ x :: todo, wanted y = false then 0
    else again + 1 + match kind x with
      | .pass => need kind wanted 0 0 todo
      | .mark => need kind wanted 0 (marks + 1) todo
      | .remove => need kind wanted marks marks todo

/-- How many of these steps come to an element again: after each removal before the last wanted
element, those to the elements that have been marked since the last one that was passed. -/
def revisits (kind : α → Kind) (wanted : α → Bool) : (marks : Nat) → List α → Nat
  | _, [] => 0
  | marks, x :: todo =>
    if ∀ y ∈ todo, wanted y = false then 0
    else match kind x with
      | .pass => revisits kind wanted 0 todo
      | .mark => revisits kind wanted (marks + 1) todo
      | .remove => marks + revisits kind wanted marks todo

/-- The number of elements behind the last wanted one. -/
def behind (wanted : α → Bool) : List α → Nat
  | [] => 0
  | _ :: todo => if ∀ y ∈ todo, wanted y = false then todo.length else behind wanted todo

variable {kind kind' : α → Kind} {wanted : α → Bool} {steps again marks : Nat} {todo : List α}

theorem reached_congr (same : ∀ x ∈ todo, kind x = kind' x) :
    reached kind steps again marks todo = reached kind' steps again marks todo := by
  induction steps generalizing again marks todo with
  | zero => rfl
  | succ steps ih =>
    match again, todo with
    | again + 1, todo =>
      rw [reached, reached]
      exact ih same
    | 0, [] => rfl
    | 0, x :: todo =>
      rw [reached, reached, same x List.mem_cons_self]
      have others : ∀ y ∈ todo, kind y = kind' y := fun y isIn =>
        same y (List.mem_cons_of_mem x isIn)
      cases kind' x <;> simp only [ih others]

theorem reached_cons (kind : α → Kind) (steps marks : Nat) (x : α) (todo : List α) :
    reached kind (steps + 1) 0 marks (x :: todo) =
      x :: match kind x with
        | .pass => reached kind steps 0 0 todo
        | .mark => reached kind steps 0 (marks + 1) todo
        | .remove => reached kind steps marks marks todo := rfl

theorem reached_starts (kind : α → Kind) (steps again marks : Nat) (todo : List α) :
    reached kind steps again marks todo <+: todo := by
  induction steps generalizing again marks todo with
  | zero => exact List.nil_prefix
  | succ steps ih =>
    match again, todo with
    | again + 1, todo => exact ih again marks todo
    | 0, [] => exact List.prefix_rfl
    | 0, x :: todo =>
      rw [reached, List.cons_prefix_cons]
      refine ⟨rfl, ?_⟩
      cases kind x <;> exact ih _ _ todo

theorem need_eq_zero_iff : need kind wanted again marks todo = 0 ↔
    ∀ x ∈ todo, wanted x = false := by
  cases todo with
  | nil => simp [need]
  | cons x todo =>
    rw [need]
    split_ifs with none
    · simpa using none
    · constructor
      · intro zero
        omega
      · intro none'
        exact absurd none' none

theorem need_add (some : ¬∀ x ∈ todo, wanted x = false) :
    need kind wanted again marks todo = again + need kind wanted 0 marks todo := by
  cases todo with
  | nil => simp at some
  | cons x todo =>
    rw [need, need, if_neg some, if_neg some]
    omega

/-- **The sweep comes to all wanted elements exactly if it has the steps it needs.** -/
theorem reached_all_iff_need (kind : α → Kind) (wanted : α → Bool) (steps again marks : Nat)
    (todo : List α) :
    (∀ x ∈ todo.drop (reached kind steps again marks todo).length, wanted x = false) ↔
      need kind wanted again marks todo ≤ steps := by
  induction steps generalizing again marks todo with
  | zero =>
    rw [reached, List.length_nil, List.drop_zero, Nat.le_zero, need_eq_zero_iff]
  | succ steps ih =>
    match again, todo with
    | again + 1, todo =>
      rw [reached, ih]
      by_cases none : ∀ x ∈ todo, wanted x = false
      · rw [need_eq_zero_iff.mpr none, need_eq_zero_iff.mpr none]
        omega
      · rw [need_add none, @need_add _ _ _ (again + 1) _ _ none]
        omega
    | 0, [] => simp [reached, need]
    | 0, x :: todo =>
      by_cases none : ∀ y ∈ x :: todo, wanted y = false
      · rw [need_eq_zero_iff.mpr none]
        exact iff_of_true (fun y isIn => none y (List.mem_of_mem_drop isIn)) (Nat.zero_le _)
      · rw [reached, List.length_cons, List.drop_succ_cons, need, if_neg none]
        cases kind x <;> dsimp only <;> rw [ih] <;> omega

theorem need_eq (some : ¬∀ x ∈ todo, wanted x = false) :
    need kind wanted 0 marks todo + behind wanted todo = todo.length +
        revisits kind wanted marks todo := by
  induction todo generalizing marks with
  | nil => simp at some
  | cons x todo ih =>
    rw [need, if_neg some, behind, revisits, List.length_cons]
    by_cases none : ∀ y ∈ todo, wanted y = false
    · rw [if_pos none, if_pos none]
      cases kind x <;> dsimp only <;> rw [need_eq_zero_iff.mpr none] <;> omega
    · rw [if_neg none, if_neg none]
      cases kind x <;> dsimp only
      · have := @ih 0 none
        omega
      · have := @ih (marks + 1) none
        omega
      · have := @ih marks none
        rw [need_add none]
        omega

/-- **A sweep with one step for each element comes to all that are wanted exactly if there are as
many elements behind the last of these as there are steps that are made again.** -/
theorem reached_all_iff (kind : α → Kind) (wanted : α → Bool) (list : List α) :
    (∀ x ∈ list.drop (reached kind list.length 0 0 list).length, wanted x = false) ↔
      revisits kind wanted 0 list ≤ behind wanted list := by
  rw [reached_all_iff_need]
  by_cases none : ∀ x ∈ list, wanted x = false
  · have zero : revisits kind wanted 0 list = 0 := by
      cases list with
      | nil => rfl
      | cons x todo => rw [revisits, if_pos fun y isIn => none y (List.mem_cons_of_mem x isIn)]
    rw [need_eq_zero_iff.mpr none, zero]
    exact iff_of_true (Nat.zero_le _) (Nat.zero_le _)
  · have := @need_eq _ kind wanted 0 _ none
    omega

/-- Without marks no step is made again. -/
theorem revisits_eq_zero (noMark : ∀ x ∈ todo, kind x ≠ .mark) :
    revisits kind wanted 0 todo = 0 := by
  induction todo with
  | nil => rfl
  | cons x todo ih =>
    rw [revisits]
    have others := ih fun y isIn => noMark y (List.mem_cons_of_mem x isIn)
    have this := noMark x List.mem_cons_self
    split_ifs
    · rfl
    · cases here : kind x with
      | pass => exact others
      | mark => exact absurd here this
      | remove => exact (Nat.zero_add _).trans others

/-! ### What a sweep does -/

section Run

variable [DecidableEq α] {walker : Walker σ α} (lawful : walker.Lawful)

/-- The element after a first part of the list. -/
theorem next_getLast {first rest : List α} (nodup : (first ++ rest).Nodup) :
    next (first ++ rest) first.getLast? = some rest.head? := by
  rcases List.eq_nil_or_concat first with rfl | ⟨init, last, rfl⟩
  · rfl
  · rw [List.concat_eq_append, List.getLast?_concat, next, if_pos (by simp)]
    rw [List.concat_eq_append, List.append_assoc] at nodup
    have fresh : ∀ x ∈ init, decide (x ≠ last) = true := by
      intro x isIn
      rw [decide_eq_true_eq]
      rintro rfl
      exact List.disjoint_of_nodup_append nodup isIn (by simp)
    rw [List.append_assoc, List.dropWhile_append_of_pos fresh]
    simp

theorem mem_of_next {list : List α} {current : Option α} {x : α}
    (following : next list current = some (some x)) :
    x ∈ list := by
  cases current with
  | none => exact List.mem_of_mem_head? (Option.some.inj following)
  | some y =>
    rw [next] at following
    split_ifs at following
    have inTail := List.mem_of_mem_tail (List.mem_of_mem_head? (Option.some.inj following))
    exact (List.dropWhile_sublist _).subset inTail

include lawful

theorem Walker.Lawful.kind_treat (x : α) (s : σ) {y : α} (other : y ≠ x) :
    walker.kind (walker.treat s x) y = walker.kind s y := by
  unfold Walker.treat
  split
  · rfl
  · rw [lawful.kind_mark]
  · exact lawful.kind_remove x s y other

/-- **What a sweep does**: it treats the elements that it reaches once each. Here `seen` and `again`
are the elements that have been marked since the last one that was passed, which is the last of
`before`, and the sweep has come to the last of `seen`. -/
theorem Walker.Lawful.run_eq (steps : Nat) {before seen again todo : List α} {s : σ}
    (list : walker.list s = before ++ seen ++ (again ++ todo)) (nodup : (walker.list s).Nodup)
    (marked : ∀ x ∈ seen ++ again, walker.kind s x = .mark ∧ walker.isMarked s x = true) :
    walker.run steps (before ++ seen).getLast? before.getLast? s =
      some ((reached (walker.kind s) steps again.length (seen ++ again).length todo).foldl
          walker.treat s) := by
  induction steps generalizing before seen again todo s with
  | zero => rfl
  | succ steps ih =>
    have following := next_getLast (list ▸ nodup)
    rw [← list] at following
    rw [Walker.run, following]
    match again, todo with
    | [], [] => split_ifs <;> rfl
    | x :: again, todo =>
      have nonempty : (walker.list s).isEmpty = false := by rw [list]; simp
      obtain ⟨isMark, isMarked⟩ := marked x (by simp)
      rw [nonempty]
      simp only [Bool.false_eq_true, if_false, List.cons_append, List.head?_cons, isMark,
        lawful.mark_eq x s isMarked]
      have moved : (before ++ (seen ++ [x])).getLast? = some x := by
        rw [← List.append_assoc, List.getLast?_concat]
      have := @ih before (seen ++ [x]) again todo s (by rw [list]; simp) nodup
        (by simpa using marked)
      rw [moved] at this
      rw [this, List.length_cons, reached]
      simp
    | [], x :: todo =>
      have nonempty : (walker.list s).isEmpty = false := by rw [list]; simp
      rw [nonempty]
      simp only [Bool.false_eq_true, if_false, List.nil_append, List.head?_cons, List.length_nil,
        List.append_nil]
      rw [reached_cons, List.foldl_cons]
      have notIn : x ∉ before ++ seen ∧ x ∉ todo := by
        rw [list, List.nil_append] at nodup
        refine ⟨fun isIn => ?_, (List.nodup_cons.mp nodup.of_append_right).1⟩
        exact List.disjoint_of_nodup_append nodup isIn List.mem_cons_self
      have later : ∀ steps again marks,
        reached (walker.kind (walker.treat s x)) steps again marks todo =
          reached (walker.kind s) steps again marks todo :=
        fun _ _ _ => reached_congr fun y isIn => lawful.kind_treat x s fun same =>
          notIn.2 (same ▸ isIn)
      cases here : walker.kind s x with
      | pass =>
        dsimp only
        have treated : walker.treat s x = s := by rw [Walker.treat, here]
        have := @ih (before ++ seen ++ [x]) [] [] todo s (by rw [list]; simp) nodup (by simp)
        simp only [List.append_nil, List.getLast?_concat, List.length_nil] at this
        rw [this, treated]
      | mark =>
        dsimp only
        have treated : walker.treat s x = walker.mark x s := by rw [Walker.treat, here]
        rw [treated] at later ⊢
        have moved : (before ++ (seen ++ [x])).getLast? = some x := by
          rw [← List.append_assoc, List.getLast?_concat]
        have := @ih before (seen ++ [x]) [] todo (walker.mark x s)
          (by rw [lawful.list_mark, list]; simp)
          (by rw [lawful.list_mark]; exact nodup) ?_
        · rw [moved] at this
          rw [this, later]
          simp
        · intro y isIn
          rw [lawful.kind_mark]
          rcases List.mem_append.mp (by simpa using isIn : y ∈ seen ++ [x]) with old | new
          · obtain ⟨isMark, isMarked⟩ := marked y (by simpa using old)
            have other : y ≠ x := by
              rintro rfl
              exact notIn.1 (List.mem_append_right before (by simpa using old))
            exact ⟨isMark, (lawful.isMarked_mark_of x s y other).trans isMarked⟩
          · rw [List.mem_singleton.mp new]
            exact ⟨here, lawful.isMarked_mark x s⟩
      | remove =>
        dsimp only
        have treated : walker.treat s x = walker.remove x s := by rw [Walker.treat, here]
        rw [treated] at later ⊢
        have shorter : walker.list (walker.remove x s) = before ++ seen ++ todo := by
          rw [lawful.list_remove, list, List.nil_append, List.erase_append_right _ notIn.1,
            List.erase_cons_head]
        have := @ih before [] seen todo (walker.remove x s) (by rw [shorter]; simp) ?_ ?_
        · simp only [List.append_nil, List.nil_append] at this
          rw [this, later]
        · rw [lawful.list_remove]
          exact nodup.erase x
        · intro y isIn
          obtain ⟨isMark, isMarked⟩ := marked y (by simpa using isIn)
          have other : y ≠ x := by
            rintro rfl
            exact notIn.1 (List.mem_append_right before (by simpa using isIn))
          rw [lawful.kind_remove x s y other]
          exact ⟨isMark, (lawful.isMarked_remove x s y other).trans isMarked⟩

/-! ### What is left -/

variable {s : σ} {xs : List α}

/-- What no treatment changes stays. -/
theorem Walker.Lawful.foldl_treat {holds : σ → Prop} (nodup : xs.Nodup)
    (marks : ∀ x ∈ xs, walker.kind s x = .mark → ∀ t, holds t → holds (walker.mark x t))
    (removes : ∀ x ∈ xs, walker.kind s x = .remove → ∀ t, holds t → holds (walker.remove x t))
    (start : holds s) :
    holds (xs.foldl walker.treat s) := by
  induction xs generalizing s with
  | nil => exact start
  | cons x xs ih =>
    obtain ⟨notIn, nodup⟩ := List.nodup_cons.mp nodup
    have others : ∀ y ∈ xs, walker.kind (walker.treat s x) y = walker.kind s y :=
      fun y isIn => lawful.kind_treat x s fun same => notIn (same ▸ isIn)
    refine ih nodup ?_ ?_ ?_
    · intro y isIn isMark
      exact marks y (List.mem_cons_of_mem x isIn) (others y isIn ▸ isMark)
    · intro y isIn isRemove
      exact removes y (List.mem_cons_of_mem x isIn) (others y isIn ▸ isRemove)
    · unfold Walker.treat
      split
      · exact start
      · exact marks x List.mem_cons_self ‹_› s start
      · exact removes x List.mem_cons_self ‹_› s start

theorem Walker.Lawful.foldl_kind (nodup : xs.Nodup) {y : α}
    (kept : y ∈ xs → walker.kind s y ≠ .remove) :
    walker.kind (xs.foldl walker.treat s) y = walker.kind s y := by
  refine @Walker.Lawful.foldl_treat _ _ _ _ lawful _ _ (fun t => walker.kind t y = walker.kind s y)
    nodup ?_ ?_ rfl
  · intro x _ _ t same
    rw [lawful.kind_mark, same]
  · intro x isIn isRemove t same
    rw [lawful.kind_remove x t y fun equal => kept (equal ▸ isIn) (equal ▸ isRemove), same]

theorem Walker.Lawful.foldl_isMarked_of_notMem (nodup : xs.Nodup) {y : α} (notIn : y ∉ xs) :
    walker.isMarked (xs.foldl walker.treat s) y = walker.isMarked s y := by
  refine @Walker.Lawful.foldl_treat _ _ _ _ lawful _ _ (fun t => walker.isMarked t y =
    walker.isMarked s y) nodup ?_ ?_ rfl
  · intro x isIn _ t same
    rw [lawful.isMarked_mark_of x t y fun equal => notIn (equal ▸ isIn), same]
  · intro x isIn _ t same
    rw [lawful.isMarked_remove x t y fun equal => notIn (equal ▸ isIn), same]

theorem Walker.Lawful.foldl_isMarked (nodup : xs.Nodup) {y : α} (isIn : y ∈ xs)
    (isMark : walker.kind s y = .mark) :
    walker.isMarked (xs.foldl walker.treat s) y = true := by
  induction xs generalizing s with
  | nil => cases isIn
  | cons x xs ih =>
    obtain ⟨notIn, rest⟩ := List.nodup_cons.mp nodup
    rw [List.foldl_cons]
    rcases List.mem_cons.mp isIn with rfl | isIn
    · rw [lawful.foldl_isMarked_of_notMem rest notIn, Walker.treat, isMark]
      exact lawful.isMarked_mark y s
    · refine ih rest isIn ?_
      rw [lawful.kind_treat x s fun same => notIn (same ▸ isIn), isMark]

theorem Walker.Lawful.foldl_list (nodup : xs.Nodup) (listNodup : (walker.list s).Nodup) :
    walker.list (xs.foldl walker.treat s) =
      (walker.list s).filter fun y => !(decide (y ∈ xs) && decide (walker.kind s y = .remove)) := by
  induction xs generalizing s with
  | nil => simp
  | cons x xs ih =>
    obtain ⟨notIn, nodup⟩ := List.nodup_cons.mp nodup
    have others : ∀ y ∈ xs, walker.kind (walker.treat s x) y = walker.kind s y :=
      fun y isIn => lawful.kind_treat x s fun same => notIn (same ▸ isIn)
    have shorter : walker.list (walker.treat s x) =
        (walker.list s).filter fun y =>
            !(decide (y = x) && decide (walker.kind s y = .remove)) := by
      unfold Walker.treat
      split
      · rename_i here
        refine (List.filter_eq_self.mpr fun y _ => ?_).symm
        by_cases same : y = x <;> simp [same, here]
      · rename_i here
        rw [lawful.list_mark]
        refine (List.filter_eq_self.mpr fun y _ => ?_).symm
        by_cases same : y = x <;> simp [same, here]
      · rename_i here
        rw [lawful.list_remove, listNodup.erase_eq_filter]
        refine List.filter_congr fun y _ => ?_
        by_cases same : y = x <;> simp [same, here]
    rw [List.foldl_cons, ih nodup (by rw [shorter]; exact listNodup.filter _), shorter,
      List.filter_filter]
    refine List.filter_congr fun y _ => ?_
    by_cases same : y = x
    · subst same
      simp [notIn]
    · by_cases isIn : y ∈ xs
      · simp [same, isIn, others y isIn]
      · simp [same, isIn]

/-- Elements that are passed stay in the list, in their order. -/
theorem Walker.Lawful.foldl_passed (nodup : xs.Nodup) (listNodup : (walker.list s).Nodup) :
    (walker.list (xs.foldl walker.treat s)).filter (fun y => walker.kind s y = .pass) =
      (walker.list s).filter fun y => walker.kind s y = .pass := by
  rw [lawful.foldl_list nodup listNodup, List.filter_filter]
  refine List.filter_congr fun y _ => ?_
  cases walker.kind s y <;> simp

/-- The elements that a sweep with one step for each element comes to. -/
def Walker.swept (walker : Walker σ α) (s : σ) : List α :=
  reached (walker.kind s) (walker.list s).length 0 0 (walker.list s)

omit lawful [DecidableEq α] in
theorem Walker.swept_nodup (nodup : (walker.list s).Nodup) : (walker.swept s).Nodup :=
  nodup.sublist (reached_starts _ _ _ _ _).sublist

/-- A sweep with one step for each element does not stray. -/
theorem Walker.Lawful.run_swept (nodup : (walker.list s).Nodup) :
    walker.run (walker.list s).length none none s =
        some ((walker.swept s).foldl walker.treat s) := by
  have swept := @Walker.Lawful.run_eq _ _ _ _ lawful (walker.list s).length [] [] []
    (walker.list s) s rfl nodup
    (by simp)
  unfold Walker.swept
  simpa using swept

/-- **When a sweep with one step for each element is complete**: no element is left that is to be
removed, or to be marked and is not. -/
theorem Walker.Lawful.complete_iff (nodup : (walker.list s).Nodup) :
    (∀ x ∈ walker.list ((walker.swept s).foldl walker.treat s),
        walker.wanted ((walker.swept s).foldl walker.treat s) x = false) ↔
      revisits (walker.kind s) (walker.wanted s) 0 (walker.list s) ≤
          behind (walker.wanted s) (walker.list s) := by
  have doneNodup := Walker.swept_nodup nodup
  unfold Walker.swept at doneNodup ⊢
  rw [← reached_all_iff (walker.kind s)]
  have isPrefix := reached_starts (walker.kind s) (walker.list s).length 0 0 (walker.list s)
  obtain ⟨rest, split⟩ := isPrefix
  generalize reached (walker.kind s) (walker.list s).length 0 0 (walker.list s) =
    done at split doneNodup ⊢
  have drop : (walker.list s).drop done.length = rest := by rw [← split, List.drop_left]
  have apart : ∀ x ∈ rest, x ∉ done := fun x inRest inDone =>
    List.disjoint_of_nodup_append (split ▸ nodup) inDone inRest
  have unreached : ∀ x ∉ done, walker.wanted (done.foldl walker.treat s) x = walker.wanted s x := by
    intro x notIn
    unfold Walker.wanted
    rw [lawful.foldl_kind doneNodup fun isIn => absurd isIn notIn,
      lawful.foldl_isMarked_of_notMem doneNodup notIn]
  rw [drop, lawful.foldl_list doneNodup nodup]
  constructor
  · intro complete x inRest
    rw [← unreached x (apart x inRest)]
    refine complete x (List.mem_filter.mpr ⟨?_, ?_⟩)
    · rw [← split]
      exact List.mem_append_right done inRest
    · simp [apart x inRest]
  · intro complete x isIn
    obtain ⟨inList, kept⟩ := List.mem_filter.mp isIn
    by_cases inDone : x ∈ done
    · have notRemove : walker.kind s x ≠ .remove := by simpa [inDone] using kept
      unfold Walker.wanted
      rw [lawful.foldl_kind doneNodup fun _ => notRemove]
      by_cases isMark : walker.kind s x = .mark
      · simp [isMark, lawful.foldl_isMarked doneNodup inDone isMark]
      · simp [notRemove, isMark]
    · rw [unreached x inDone]
      rw [← split] at inList
      exact complete x ((List.mem_append.mp inList).resolve_left inDone)

end Run

end Qsdk.Sweep
