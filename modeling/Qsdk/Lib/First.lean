/-
**The first entry of a list that matches.**

A linked list is searched from its head, and the entry found is changed in place or unlinked.
`modify` changes the first entry that matches, as `List.eraseP` takes it out; `split_of_find` shows
both around the entry that `List.find?` finds. Where no two entries share a key,
`foldl_eraseP_filter` takes out one by one the entries that a test picks.
-/

import Mathlib.Data.List.Basic
import Mathlib.Data.List.Nodup
import Mathlib.Data.List.Count

namespace Qsdk.First

variable {α β : Type} {p : α → Bool} {f : α → α} {l front back : List α} {x : α}

/-- The first entry that matches is changed. -/
def modify (p : α → Bool) (f : α → α) : List α → List α
  | [] => []
  | x :: l => if p x then f x :: l else x :: modify p f l

theorem modify_of_none (none : ∀ y ∈ l, ¬ p y) : modify p f l = l := by
  induction l with
  | nil => rfl
  | cons x l ih =>
    rw [modify, if_neg (none x List.mem_cons_self), ih fun y member =>
      none y (List.mem_cons_of_mem _ member)]

theorem modify_append (none : ∀ y ∈ front, ¬ p y) (isFirst : p x) :
    modify p f (front ++ x :: back) = front ++ f x :: back := by
  induction front with
  | nil => exact if_pos isFirst
  | cons y front ih =>
    rw [List.cons_append, modify, if_neg (none y List.mem_cons_self),
      ih fun y member => none y (List.mem_cons_of_mem _ member), List.cons_append]

theorem eraseP_append (none : ∀ y ∈ front, ¬ p y) (isFirst : p x) :
    (front ++ x :: back).eraseP p = front ++ back := by
  rw [List.eraseP_append_right _ none, List.eraseP_cons_of_pos isFirst]

/-- **The entry that is found**, and the list around it. -/
theorem split_of_find (found : l.find? p = some x) :
    p x ∧ ∃ front back, l = front ++ x :: back ∧ ∀ y ∈ front, ¬ p y := by
  obtain ⟨matches', front, back, same, none⟩ := List.find?_eq_some_iff_append.mp found
  exact ⟨matches', front, back, same, fun y member => by simpa using none y member⟩

theorem find_append (none : ∀ y ∈ front, ¬ p y) (isFirst : p x) :
    (front ++ x :: back).find? p = some x := by
  rw [List.find?_append, List.find?_eq_none.mpr none]
  exact List.find?_cons_of_pos isFirst

/-- A change that keeps a property of the entries keeps it throughout. -/
theorem map_modify {g : α → β} (keeps : ∀ y, g (f y) = g y) : (modify p f l).map g = l.map g := by
  induction l with
  | nil => rfl
  | cons y l ih =>
    unfold modify
    split
    · rw [List.map_cons, List.map_cons, keeps]
    · rw [List.map_cons, List.map_cons, ih]

theorem mem_modify {y : α} (member : y ∈ modify p f l) : y ∈ l ∨ ∃ x ∈ l, p x ∧ y = f x := by
  induction l with
  | nil => exact absurd member List.not_mem_nil
  | cons z l ih =>
    unfold modify at member
    split at member
    · rename_i first
      rcases List.mem_cons.mp member with rfl | member
      · exact .inr ⟨z, List.mem_cons_self, first, rfl⟩
      · exact .inl (List.mem_cons_of_mem _ member)
    · rcases List.mem_cons.mp member with rfl | member
      · exact .inl List.mem_cons_self
      · rcases ih member with old | ⟨x, listed, rest⟩
        · exact .inl (List.mem_cons_of_mem _ old)
        · exact .inr ⟨x, List.mem_cons_of_mem _ listed, rest⟩

/-- An entry stays, changed or as it was. -/
theorem mem_modify_of_mem (f : α → α) (listed : x ∈ l) : x ∈ modify p f l ∨ p x ∧
    f x ∈ modify p f l := by
  induction l with
  | nil => exact absurd listed List.not_mem_nil
  | cons z l ih =>
    unfold modify
    split
    · rename_i first
      rcases List.mem_cons.mp listed with rfl | listed
      · exact .inr ⟨first, List.mem_cons_self⟩
      · exact .inl (List.mem_cons_of_mem _ listed)
    · rcases List.mem_cons.mp listed with rfl | listed
      · exact .inl List.mem_cons_self
      · rcases ih listed with same | ⟨matched, changed⟩
        · exact .inl (List.mem_cons_of_mem _ same)
        · exact .inr ⟨matched, List.mem_cons_of_mem _ changed⟩

theorem mem_modify_of_not (f : α → α) (listed : x ∈ l) (other : ¬ p x) : x ∈ modify p f l :=
  (mem_modify_of_mem f listed).resolve_right fun changed => other changed.1

/-! ### Keys -/

section Keys

variable {K : Type} [DecidableEq K] {key : α → K}

/-- Entries with other keys are taken out behind an entry. -/
theorem foldl_eraseP_cons (x : α) (victims : List α) (l : List α)
    (others : ∀ v ∈ victims, key x ≠ key v) :
    victims.foldl (fun l v => l.eraseP fun y => decide (key y = key v)) (x :: l) =
      x :: victims.foldl (fun l v => l.eraseP fun y => decide (key y = key v)) l := by
  induction victims generalizing l with
  | nil => rfl
  | cons v victims ih =>
    rw [List.foldl_cons, List.foldl_cons, List.eraseP_cons_of_neg
      (by simpa using others v List.mem_cons_self)]
    exact ih _ fun w member => others w (List.mem_cons_of_mem _ member)

/-- **Entries taken out one by one, by their keys.** -/
theorem foldl_eraseP_filter (dies : α → Bool) (distinct : (l.map key).Nodup) :
    (l.filter dies).foldl (fun l v => l.eraseP fun y => decide (key y = key v)) l =
      l.filter fun y => !dies y := by
  induction l with
  | nil => rfl
  | cons x l ih =>
    rw [List.map_cons, List.nodup_cons] at distinct
    by_cases dead : dies x = true
    · rw [List.filter_cons_of_pos dead, List.filter_cons_of_neg (by simp [dead]), List.foldl_cons,
        List.eraseP_cons_of_pos (by simp)]
      exact ih distinct.2
    · rw [List.filter_cons_of_neg dead, List.filter_cons_of_pos (by simp [dead]), foldl_eraseP_cons]
      · rw [ih distinct.2]
      · intro v member same
        exact distinct.1 (same ▸ List.mem_map_of_mem (List.mem_of_mem_filter member))

end Keys

end Qsdk.First
