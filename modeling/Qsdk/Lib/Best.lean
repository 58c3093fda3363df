/-
**The best of a list by a rank.**

A walk over a list keeps a candidate and replaces it by an element of strictly greater rank
(`keepBetter`). Over a linear order of ranks the candidate that is left is as good as everything
seen, and the first one stays unless something is better (`rank_le_foldl`, `foldl_eq_seed`).
-/

import Mathlib.Order.Lattice

namespace Qsdk.Best

variable {α β : Type} [LinearOrder β] {rank : α → β} {l : List α} {seed x : α}

/-- The candidate, or the element if it is better. -/
def keepBetter (rank : α → β) (best curr : α) : α := if rank best < rank curr then curr else best

theorem rank_keepBetter (best curr : α) :
    rank best ≤ rank (keepBetter rank best curr) ∧ rank curr ≤
        rank (keepBetter rank best curr) := by
  unfold keepBetter
  split
  · rename_i better
    exact ⟨le_of_lt better, le_refl _⟩
  · rename_i notBetter
    exact ⟨le_refl _, le_of_not_gt notBetter⟩

/-- The candidate only gets better. -/
theorem rank_seed_le : rank seed ≤ rank (l.foldl (keepBetter rank) seed) := by
  induction l generalizing seed with
  | nil => exact le_refl _
  | cons x l ih => exact le_trans (rank_keepBetter seed x).1 ih

/-- **What is left is as good as everything.** -/
theorem rank_le_foldl (member : x ∈ l) : rank x ≤ rank (l.foldl (keepBetter rank) seed) := by
  induction l generalizing seed with
  | nil => cases member
  | cons y l ih =>
    rcases List.mem_cons.mp member with rfl | member
    · exact le_trans (rank_keepBetter seed x).2 rank_seed_le
    · exact ih member

theorem foldl_mem (rank : α → β) (l : List α) (seed : α) :
    l.foldl (keepBetter rank) seed = seed ∨ l.foldl (keepBetter rank) seed ∈ l := by
  induction l generalizing seed with
  | nil => exact .inl rfl
  | cons y l ih =>
    rw [List.foldl_cons]
    rcases ih (keepBetter rank seed y) with same | member
    · rw [same]
      unfold keepBetter
      split
      · exact .inr List.mem_cons_self
      · exact .inl rfl
    · exact .inr (List.mem_cons_of_mem _ member)

/-- **Without anything better** the first candidate stays. -/
theorem foldl_eq_seed (none : ∀ x ∈ l, ¬ rank seed < rank x) :
    l.foldl (keepBetter rank) seed = seed := by
  induction l with
  | nil => rfl
  | cons y l ih =>
    rw [List.foldl_cons, keepBetter, if_neg (none y List.mem_cons_self)]
    exact ih fun x member => none x (List.mem_cons_of_mem _ member)

end Qsdk.Best
