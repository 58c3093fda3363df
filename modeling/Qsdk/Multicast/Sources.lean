/-
**Source lists of multicast snooping.**

A router's state for a group and a host's state for it each keep lists of source addresses in arrays
of fixed size. `mc_ipv4_add_source`, `mc_ipv4_sub_source` and `mc_ipv4_mix_source` (and their copies
for IPv6 addresses) change such an array in place; they are meant as union, difference and
intersection. Union is right where nothing is cut off (`mem_addSource`), difference where no source
is listed more often than it is taken away (`mem_subSource_iff`), and intersection only where the
entries to drop happen to be the last ones (`mixSource_right_iff`).
-/

import Mathlib.Data.List.Basic
import Mathlib.Data.List.Count
import Mathlib.Data.Finset.Card
import Mathlib.Algebra.Group.Nat.Defs

namespace Qsdk.Multicast

/-- `MC_SRC_GROUP_MAX`. -/
def srcGroupMax : Nat := 4

/-- `MC_RT_SRC_MAX`. -/
def rtSrcMax : Nat := 8

/-- `IGMPV3_MODE_IS_INCLUDE` or `IGMPV3_MODE_IS_EXCLUDE` as the mode of a host or a router; mode 0
is `none`. -/
inductive FilterMode
  | isInclude
  | isExclude
deriving DecidableEq

variable {Addr : Type} [DecidableEq Addr]

/-- The sources of a record that are read (`MC_GREC_NSRCS`). -/
def grecSources (srcs : List Addr) : List Addr := srcs.take srcGroupMax

/-- `mc_ipv4_add_source`, `mc_ipv6_add_source`. -/
def addSource (srcMax : Nat) : List Addr → List Addr → List Addr
  | a, [] => a
  | a, s :: b => if a.length < srcMax then addSource srcMax (if s ∈ a then a else a ++ [s]) b else a

/-- `mc_ipv4_sub_source`, `mc_ipv6_sub_source`: the first occurrence of each source of `b` is taken
out. -/
def subSource : List Addr → List Addr → List Addr
  | a, [] => a
  | a, s :: b => if a = [] then a else subSource (a.erase s) b

/-- `mc_ipv4_mix_source`, `mc_ipv6_mix_source`: for each source of `b` that is not found the last
entry goes. -/
def mixSource : List Addr → List Addr → List Addr
  | a, [] => a
  | a, s :: b => if a = [] then a else mixSource (if s ∈ a then a else a.dropLast) b

/-- The filter mode and the sources `a` of a `struct mc_fdb_group`. -/
structure HostList (Addr : Type) where
  filterMode : Option FilterMode
  a : List Addr
deriving DecidableEq

/-- `mc_ipv4_filter_source`, `mc_ipv6_filter_source`. -/
def HostList.filterSource (fg : HostList Addr) (sip : Addr) : Bool :=
  if fg.a = [] then true
  else match fg.filterMode with
    | none => false
    | some .isInclude => decide (sip ∈ fg.a)
    | some .isExclude => decide (sip ∉ fg.a)

/-! ### Union -/

section Union

variable {srcMax : Nat} {a b : List Addr} {s : Addr}

/-- The union, in an array of any size. -/
def unionSource (a b : List Addr) : List Addr :=
    b.foldl (fun a s => if s ∈ a then a else a ++ [s]) a

theorem mem_unionSource : s ∈ unionSource a b ↔ s ∈ a ∨ s ∈ b := by
  induction b generalizing a with
  | nil => simp [unionSource]
  | cons t b ih =>
    have same : unionSource a (t :: b) = unionSource (if t ∈ a then a else a ++ [t]) b := rfl
    rw [same, ih]
    split
    · rename_i listed
      rw [List.mem_cons]
      refine ⟨fun either => either.imp_right .inr, fun either => ?_⟩
      rcases either with old | rfl | new
      · exact .inl old
      · exact .inl listed
      · exact .inr new
    · rw [List.mem_append, List.mem_singleton, List.mem_cons, or_assoc]

theorem length_le_unionSource : a.length ≤ (unionSource a b).length := by
  induction b generalizing a with
  | nil => exact Nat.le_refl _
  | cons t b ih =>
    refine Nat.le_trans ?_ (ih (a := if t ∈ a then a else a ++ [t]))
    split
    · exact Nat.le_refl _
    · simp

theorem length_unionSource : (unionSource a b).length = a.length +
    (b.toFinset \ a.toFinset).card := by
  induction b generalizing a with
  | nil => simp [unionSource]
  | cons t b ih =>
    have same : unionSource a (t :: b) = unionSource (if t ∈ a then a else a ++ [t]) b := rfl
    rw [same, ih, List.toFinset_cons]
    split
    · rename_i listed
      rw [Finset.insert_sdiff_of_mem _ (List.mem_toFinset.mpr listed)]
    · rename_i absent
      have split : insert t b.toFinset \ a.toFinset =
          insert t (b.toFinset \ (a ++ [t]).toFinset) := by
        ext s
        by_cases isNew : s = t <;> simp [isNew, absent]
      rw [split, Finset.card_insert_of_notMem (by simp), List.length_append, List.length_singleton]
      omega

theorem length_unionSource_mono {c : List Addr} (fewer : b ⊆ c) :
    (unionSource a b).length ≤ (unionSource a c).length := by
  rw [length_unionSource, length_unionSource]
  refine Nat.add_le_add_left
    (Finset.card_le_card (Finset.sdiff_subset_sdiff ?_ (Finset.Subset.refl _))) _
  exact fun s member => List.mem_toFinset.mpr (fewer (List.mem_toFinset.mp member))

/-- A union that is not longer adds nothing. -/
theorem mem_of_length_unionSource (short : (unionSource a b).length ≤ a.length) :
    ∀ s ∈ b, s ∈ a := by
  induction b generalizing a with
  | nil => exact fun s member => absurd member List.not_mem_nil
  | cons t b ih =>
    have same : unionSource a (t :: b) = unionSource (if t ∈ a then a else a ++ [t]) b := rfl
    rw [same] at short
    by_cases listed : t ∈ a
    · rw [if_pos listed] at short
      intro s member
      rcases List.mem_cons.mp member with rfl | member
      · exact listed
      · exact ih short s member
    · rw [if_neg listed] at short
      have grown := length_le_unionSource (a := a ++ [t]) (b := b)
      rw [List.length_append, List.length_singleton] at grown
      omega

/-- **Nothing is cut off while the union fits.** -/
theorem mem_addSource (fits : (unionSource a b).length ≤ srcMax) : s ∈ addSource srcMax a b ↔
    s ∈ a ∨ s ∈ b := by
  induction b generalizing a with
  | nil => simp [addSource]
  | cons t b ih =>
    unfold addSource
    split
    · have same : unionSource a (t :: b) = unionSource (if t ∈ a then a else a ++ [t]) b := rfl
      rw [ih (same ▸ fits), ← mem_unionSource, ← same, mem_unionSource]
    · rename_i full
      -- the array is full, so the sources that are left are in it
      have listed := mem_of_length_unionSource (a := a) (b := t :: b) (by omega)
      exact ⟨.inl, fun either => either.elim id (listed s)⟩

end Union

/-! ### Difference -/

section Difference

variable {a b : List Addr} {s : Addr}

theorem count_subSource : (subSource a b).count s = a.count s - b.count s := by
  induction b generalizing a with
  | nil => simp [subSource]
  | cons t b ih =>
    unfold subSource
    split
    · rename_i isNil
      simp [isNil]
    · rw [ih, List.count_erase, List.count_cons]
      by_cases same : t = s
      · simp [same]
        omega
      · simp [same]

/-- **What difference leaves**: the sources listed more often than they are taken away. -/
theorem mem_subSource_iff : s ∈ subSource a b ↔ b.count s < a.count s := by
  rw [← List.count_pos_iff, count_subSource]
  omega

theorem mem_of_mem_subSource (member : s ∈ subSource a b) : s ∈ a :=
  List.count_pos_iff.mp (by have := mem_subSource_iff.mp member; omega)

theorem mem_subSource_of_not_mem (member : s ∈ a) (absent : s ∉ b) : s ∈ subSource a b := by
  rw [mem_subSource_iff, List.count_eq_zero.mpr absent]
  exact List.count_pos_iff.mpr member

/-- No source of the record is listed more often than the record takes it away. -/
def TakenAway (a b : List Addr) : Prop := ∀ s ∈ b, a.count s ≤ b.count s

/-- **Difference is right exactly where no source is listed more often than it is taken away.** -/
theorem subSource_right_iff : (∀ s, s ∈ subSource a b ↔ s ∈ a ∧ s ∉ b) ↔ TakenAway a b := by
  constructor
  · intro right s member
    have left : s ∉ subSource a b := fun still => ((right s).mp still).2 member
    rw [mem_subSource_iff] at left
    omega
  · intro taken s
    refine ⟨fun still => ⟨mem_of_mem_subSource still, fun member => ?_⟩, fun both =>
      mem_subSource_of_not_mem both.1 both.2⟩
    have := taken s member
    have := mem_subSource_iff.mp still
    omega

end Difference

/-! ### Intersection -/

section Intersection

variable {a b x : List Addr} {s : Addr}

/-- The entries that are left when, from the end of the list, as many are dropped as the record has
sources that are not listed. -/
def keptSources (a b : List Addr) : List Addr :=
    a.take (a.length - (b.filter fun s => decide (s ∉ a)).length)

theorem mixSource_nil : mixSource ([] : List Addr) b = [] := by
  cases b <;> simp [mixSource]

theorem mixSource_cons (a b : List Addr) (s : Addr) :
    mixSource a (s :: b) = mixSource (if s ∈ a then a else a.dropLast) b := by
  by_cases isNil : a = []
  · subst isNil
    simp [mixSource_nil]
  · rw [mixSource, if_neg isNil]

theorem mixSource_prefix : mixSource a b <+: a := by
  induction b generalizing a with
  | nil => exact List.prefix_refl _
  | cons s b ih =>
    rw [mixSource_cons]
    refine ih.trans ?_
    split
    · exact List.prefix_refl _
    · exact List.dropLast_prefix _

omit [DecidableEq Addr] in
/-- Dropping an entry, and then some more. -/
theorem take_dropLast (a : List Addr) (n : Nat) :
    a.dropLast.take (a.dropLast.length - n) = a.take (a.length - (n + 1)) := by
  rw [List.dropLast_eq_take, List.take_take, List.length_take]
  congr 1
  omega

/-- A list of which the record's sources that were in `x` are all still there is cut from the end,
by as many entries as the record has sources that were not in `x`. The induction is on the
record. -/
theorem mixSource_eq_of_kept (begins : a <+: x)
    (still : ∀ s ∈ b, s ∈ x → s ∈ a.take (a.length - (b.filter fun s => decide (s ∉ x)).length)) :
    mixSource a b = a.take (a.length - (b.filter fun s => decide (s ∉ x)).length) := by
  induction b generalizing a with
  | nil => simp [mixSource]
  | cons t b ih =>
    rw [mixSource_cons]
    by_cases listed : t ∈ x
    · have here : t ∈ a := List.mem_of_mem_take (still t List.mem_cons_self listed)
      rw [List.filter_cons_of_neg (by simpa using listed)] at still ⊢
      rw [if_pos here]
      exact ih begins fun s member => still s (List.mem_cons_of_mem _ member)
    · have absent : t ∉ a := fun member => listed (begins.subset member)
      rw [List.filter_cons_of_pos (by simpa using listed), List.length_cons, ← take_dropLast]
        at still ⊢
      rw [if_neg absent]
      exact ih ((List.dropLast_prefix a).trans begins) fun s member =>
        still s (List.mem_cons_of_mem _ member)

/-- The same from what is left in the end. -/
theorem mixSource_eq_of_left (begins : a <+: x) (still : ∀ s ∈ b, s ∈ x → s ∈ mixSource a b) :
    mixSource a b = a.take (a.length - (b.filter fun s => decide (s ∉ x)).length) := by
  induction b generalizing a with
  | nil => simp [mixSource]
  | cons t b ih =>
    rw [mixSource_cons] at still ⊢
    by_cases listed : t ∈ x
    · have left : t ∈ a := by
        have found := mixSource_prefix.subset (still t List.mem_cons_self listed)
        split at found
        · exact found
        · exact List.dropLast_subset _ found
      rw [List.filter_cons_of_neg (by simpa using listed)]
      rw [if_pos left] at still ⊢
      exact ih begins fun s member => still s (List.mem_cons_of_mem _ member)
    · have absent : t ∉ a := fun member => listed (begins.subset member)
      rw [List.filter_cons_of_pos (by simpa using listed), List.length_cons, ← take_dropLast]
      rw [if_neg absent] at still ⊢
      exact ih ((List.dropLast_prefix a).trans begins) fun s member =>
        still s (List.mem_cons_of_mem _ member)

/-- The entries to drop are the last ones, and as many as the record has sources that are not
listed. -/
def Aligned (a b : List Addr) : Prop := ∀ s, s ∈ keptSources a b ↔ s ∈ a ∧ s ∈ b

/-- **Intersection is right exactly where the entries to drop are the last ones.** -/
theorem mixSource_right_iff : (∀ s, s ∈ mixSource a b ↔ s ∈ a ∧ s ∈ b) ↔ Aligned a b := by
  constructor
  · intro right
    have same := mixSource_eq_of_left (List.prefix_refl a) fun s member listed =>
      (right s).mpr ⟨listed, member⟩
    exact fun s => by rw [keptSources, ← same, right]
  · intro aligned
    have same := mixSource_eq_of_kept (List.prefix_refl a) fun s member listed =>
      (aligned s).mpr ⟨listed, member⟩
    exact fun s => by rw [same, ← keptSources, aligned]

theorem mixSource_eq_of_aligned (aligned : Aligned a b) : mixSource a b = keptSources a b :=
  mixSource_eq_of_kept (List.prefix_refl a) fun s member listed => (aligned s).mpr ⟨listed, member⟩

end Intersection

end Qsdk.Multicast
