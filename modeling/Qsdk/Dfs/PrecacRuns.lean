/-
**The preCAC list over any sequence of calls.**

Beside the list stand the sets of the subchannels that are CAC done and in NOL (`Tracked`). As long
as each step takes a subchannel from a set that has it and adds it to one that has not, or changes
nothing (`Tracked.Sound`), every node of every tree counts the elements of the two sets, and the two
sets have nothing in common.
-/

import Qsdk.Dfs.PrecacShapes

namespace Qsdk.Dfs

/-- All 20 MHz subchannels of a list. -/
def subchannelsOf (list : List DfsPrecacEntry) : List Nat := list.flatMap fun entry =>
    entry.treeRoot.subchannels

/-- A frequency that is a subchannel of every entry in whose range it is. -/
def OnRaster (list : List DfsPrecacEntry) (freq : Nat) : Prop :=
  ∀ entry ∈ list, entry.isFreqWithinRange freq = true → freq ∈ entry.treeRoot.subchannels

instance decidableOnRaster (list : List DfsPrecacEntry) (freq : Nat) :
    Decidable (OnRaster list freq) :=
  inferInstanceAs (Decidable (∀ entry ∈ list, entry.isFreqWithinRange freq = true →
    freq ∈ entry.treeRoot.subchannels))

/-- The list, with the subchannels that are CAC done and those in NOL. -/
@[ext]
structure Tracked where
  list : List DfsPrecacEntry
  cacDone : Finset Nat
  nol : Finset Nat

/-- A step for one subchannel. A subchannel that is marked is CAC done; one with radar is in NOL,
and CAC done no more; one that expires is not in NOL; one that is reset is not CAC done. -/
def Tracked.step (state : Tracked) (step : SubchannelOp × Nat) : Tracked where
  list := SubchannelOp.apply state.list step
  cacDone :=
    match step.1 with
    | .cacDone => if step.2 ∈ subchannelsOf state.list then insert step.2 state.cacDone else
      state.cacDone
    | .radar => state.cacDone.erase step.2
    | .nolExpiry => state.cacDone
    | .rcacReset => state.cacDone.erase step.2
  nol :=
    match step.1 with
    | .cacDone => state.nol
    | .radar => if step.2 ∈ subchannelsOf state.list then insert step.2 state.nol else state.nol
    | .nolExpiry => state.nol.erase step.2
    | .rcacReset => state.nol

def Tracked.run (state : Tracked) (steps : List (SubchannelOp × Nat)) : Tracked :=
    steps.foldl Tracked.step state

/-- One turn of the loop of `dfs_init_precac_list`. -/
def Tracked.addRoot (nonDfs : DfsChannelBw → Nat) (state : Tracked) (root : DfsChannelBw) :
    Tracked :=
  if isLeftOut state.list root then state
  else { state with list := state.list ++ [createPrecacEntry root] }.run
    (Call.markPrecacDone (nonDfs root) 0 .width80).steps

/-- The state after `dfs_init_precac_list`. -/
def Tracked.init (nonDfs : DfsChannelBw → Nat) (roots : List DfsChannelBw) : Tracked :=
  roots.foldl (Tracked.addRoot nonDfs) ⟨[], ∅, ∅⟩

/-- The tree that a subchannel is taken from is the one that has it, or the set has nothing of this
tree. -/
def TakenFrom (set : Finset Nat) (found : Option DfsPrecacEntry) (freq : Nat) : Prop :=
  match found with
  | none => freq ∉ set
  | some entry => (freq ∈ set ∧ freq ∈ entry.treeRoot.subchannels) ∨
      (freq ∉ set ∧ ∀ other ∈ entry.treeRoot.subchannels, other ∉ set)

/-- **When the code does what the sets do.** No subchannel in NOL is marked as CAC done. Radar is
not found on a subchannel in NOL, unless the tree has no room left. An expired subchannel is in NOL
and in the tree that is looked up, or nothing of this tree is in NOL; and alike for a reset. -/
def Tracked.Sound (state : Tracked) (step : SubchannelOp × Nat) : Prop :=
  match step.1 with
  | .cacDone => step.2 ∉ state.nol
  | .radar => step.2 ∈ state.nol →
      ∀ entry ∈ state.list.find? fun entry => entry.isFreqWithinRange step.2, entry.treeRoot.NolFull
  | .nolExpiry => TakenFrom state.nol (state.list.find? fun entry =>
    entry.isWithinHalfBw step.2) step.2
  | .rcacReset => TakenFrom state.cacDone (state.list.find? fun entry =>
    entry.isWithinVht160 step.2) step.2

/-- Every step of a run is such. -/
def Tracked.Along (state : Tracked) : List (SubchannelOp × Nat) → Prop
  | [] => True
  | step :: rest => state.Sound step ∧ (state.step step).Along rest

instance decidableTakenFrom (set : Finset Nat) (found : Option DfsPrecacEntry) (freq : Nat) :
    Decidable (TakenFrom set found freq) :=
  match found with
  | none => inferInstanceAs (Decidable (freq ∉ set))
  | some entry => inferInstanceAs (Decidable ((freq ∈ set ∧ freq ∈ entry.treeRoot.subchannels) ∨
      (freq ∉ set ∧ ∀ other ∈ entry.treeRoot.subchannels, other ∉ set)))

instance decidableSound (state : Tracked) : (step : SubchannelOp × Nat) →
    Decidable (state.Sound step)
  | (.cacDone, freq) => inferInstanceAs (Decidable (freq ∉ state.nol))
  | (.radar, freq) => inferInstanceAs (Decidable (freq ∈ state.nol →
      ∀ entry ∈ state.list.find? fun entry => entry.isFreqWithinRange freq, entry.treeRoot.NolFull))
  | (.nolExpiry, freq) => inferInstanceAs (Decidable
      (TakenFrom state.nol (state.list.find? fun entry => entry.isWithinHalfBw freq) freq))
  | (.rcacReset, freq) => inferInstanceAs (Decidable
      (TakenFrom state.cacDone (state.list.find? fun entry => entry.isWithinVht160 freq) freq))

instance decidableAlong : (state : Tracked) → (steps : List (SubchannelOp × Nat)) →
    Decidable (state.Along steps)
  | _, [] => inferInstanceAs (Decidable True)
  | state, step :: rest =>
    have := decidableAlong (state.step step) rest
    inferInstanceAs (Decidable (state.Sound step ∧ (state.step step).Along rest))

/-! ### The shape of the list -/

/-- The list with all counts at zero. -/
def shape (list : List DfsPrecacEntry) : List DfsPrecacEntry :=
  list.map fun entry => { entry with treeRoot := entry.treeRoot.cleared }

theorem onFirst_of_none {isIt : DfsPrecacEntry → Bool} {change : PrecacTree → PrecacTree}
    {list : List DfsPrecacEntry} (none : list.find? isIt = none) :
        onFirst isIt change list = list := by
  induction list with
  | nil => rfl
  | cons entry rest ih =>
    rw [List.find?_cons] at none
    rw [onFirst]
    split at none
    · cases none
    · rename_i notIt
      rw [if_neg (by simp [notIt]), ih none]

/-- The entry that is looked for, with those before it and after it. -/
theorem onFirst_of_some {isIt : DfsPrecacEntry → Bool} {list : List DfsPrecacEntry}
    {entry : DfsPrecacEntry} (found : list.find? isIt = some entry) :
    ∃ before after, list = before ++ entry :: after ∧
      ∀ change, onFirst isIt change list = before ++
          { entry with treeRoot := change entry.treeRoot } :: after := by
  induction list with
  | nil => cases found
  | cons head rest ih =>
    rw [List.find?_cons] at found
    split at found
    · rename_i isHead
      obtain rfl := Option.some.inj found
      exact ⟨[], rest, rfl, fun change => by rw [onFirst, if_pos isHead]; rfl⟩
    · rename_i notIt
      obtain ⟨before, after, split, changed⟩ := ih found
      refine ⟨head :: before, after, by rw [split]; rfl, fun change => ?_⟩
      rw [onFirst, if_neg (by simp [notIt]), changed change]
      rfl

theorem onFirst_of_same {isIt : DfsPrecacEntry → Bool} {change : PrecacTree → PrecacTree}
    {list : List DfsPrecacEntry} {entry : DfsPrecacEntry} (found : list.find? isIt = some entry)
    (same : change entry.treeRoot = entry.treeRoot) :
    onFirst isIt change list = list := by
  obtain ⟨before, after, split, changed⟩ := onFirst_of_some found
  rw [changed, same, split]

theorem cleared_change (op : SubchannelOp) (freq : Nat) (tree : PrecacTree) :
    (op.change freq tree).cleared = tree.cleared := by
  cases op
  · exact tree.cleared_markAsCacDone freq
  · exact tree.cleared_markAsNol freq
  · exact tree.cleared_unmarkAsNol freq
  · exact tree.cleared_unmarkAsCacDone freq

theorem shape_apply (list : List DfsPrecacEntry) (step : SubchannelOp × Nat) :
    shape (SubchannelOp.apply list step) = shape list := by
  unfold SubchannelOp.apply
  cases found : list.find? fun entry => step.1.isIt entry step.2 with
  | none => rw [onFirst_of_none found]
  | some entry =>
    obtain ⟨before, after, split, changed⟩ := onFirst_of_some found
    rw [changed]
    conv_rhs => rw [split]
    simp only [shape, List.map_append, List.map_cons, cleared_change]

theorem OnRaster.of_shape {list other : List DfsPrecacEntry} {freq : Nat}
    (onRaster : OnRaster list freq) (same : ∀ entry ∈ shape other, entry ∈ shape list) :
        OnRaster other freq := by
  intro entry member inRange
  obtain ⟨old, isIn, equal⟩ := List.mem_map.mp (same _ (List.mem_map_of_mem member))
  obtain ⟨center, bw, tree⟩ := DfsPrecacEntry.mk.inj equal
  have oldRange : old.isFreqWithinRange freq = entry.isFreqWithinRange freq := by
    unfold DfsPrecacEntry.isFreqWithinRange
    rw [center, bw]
  have found := onRaster old isIn (oldRange.trans inRange)
  rw [← PrecacTree.cleared_subchannels, tree, PrecacTree.cleared_subchannels] at found
  exact found

/-! ### The invariant -/

/-- The entry has the frequency in its range or in its tree. -/
def DfsPrecacEntry.Holds (entry : DfsPrecacEntry) (freq : Nat) : Prop :=
  entry.isFreqWithinRange freq = true ∨ freq ∈ entry.treeRoot.freqs

/-- A well-formed entry. -/
structure DfsPrecacEntry.Formed (entry : DfsPrecacEntry) : Prop where
  tree : entry.treeRoot.Formed
  range : ∀ freq ∈ entry.treeRoot.subchannels, entry.isFreqWithinRange freq = true
  halving : entry.bw ≠ 320 → entry.treeRoot.Halving entry.treeRoot.nValid
  nValid : entry.bw = 320 → entry.treeRoot.nValid = 12

/-- **What every run keeps.** -/
structure Tracked.Kept (state : Tracked) : Prop where
  formed : ∀ entry ∈ state.list, entry.Formed
  apart : state.list.Pairwise fun entry other => ∀ freq, ¬(entry.Holds freq ∧ other.Holds freq)
  disjoint : Disjoint state.cacDone state.nol
  counts : ∀ entry ∈ state.list, entry.treeRoot.Counts state.cacDone state.nol
  onList : ∀ freq, freq ∈ state.cacDone ∨ freq ∈ state.nol → freq ∈ subchannelsOf state.list

namespace PrecacTree

theorem nValid_cleared (tree : PrecacTree) : tree.cleared.nValid = tree.nValid := by
  cases tree <;> rfl

theorem halving_cleared (number : Nat) (tree : PrecacTree) : tree.cleared.Halving number ↔
    tree.Halving number := by
  induction tree generalizing number with
  | nil => exact Iff.rfl
  | node root left right ihLeft ihRight =>
    have length := congrArg List.length (cleared_subchannels (node root left right))
    rw [cleared] at length
    rw [cleared, Halving, Halving, length, ihLeft, ihRight]

end PrecacTree

/-- An entry whose tree has the same shape is as well formed. -/
theorem DfsPrecacEntry.Formed.change {entry : DfsPrecacEntry} (formed : entry.Formed)
    {tree : PrecacTree} (same : tree.cleared = entry.treeRoot.cleared) :
        ({ entry with treeRoot := tree } : DfsPrecacEntry).Formed := by
  have subchannels : tree.subchannels = entry.treeRoot.subchannels := by
    rw [← PrecacTree.cleared_subchannels, same, PrecacTree.cleared_subchannels]
  have valid : tree.nValid = entry.treeRoot.nValid := by
    rw [← PrecacTree.nValid_cleared, same, PrecacTree.nValid_cleared]
  refine ⟨?_, ?_, ?_, ?_⟩
  · show tree.Formed
    rw [← PrecacTree.cleared_formed, same, PrecacTree.cleared_formed]
    exact formed.tree
  · intro freq member
    exact formed.range freq (subchannels ▸ member)
  · intro not320
    show tree.Halving tree.nValid
    rw [valid, ← PrecacTree.halving_cleared, same, PrecacTree.halving_cleared]
    exact formed.halving not320
  · intro is320
    exact valid.trans (formed.nValid is320)

variable {state : Tracked} {step : SubchannelOp × Nat} {entry : DfsPrecacEntry} {freq : Nat}

theorem Tracked.Kept.mem_subchannelsOf (member : entry ∈ state.list)
    (isIn : freq ∈ entry.treeRoot.subchannels) :
    freq ∈ subchannelsOf state.list := List.mem_flatMap.mpr ⟨entry, member, isIn⟩

theorem notMem_subchannelsOf (kept : state.Kept)
    (none : state.list.find? (fun entry => entry.isFreqWithinRange freq) = none) :
        freq ∉ subchannelsOf state.list := by
  intro member
  obtain ⟨entry, inList, isIn⟩ := List.mem_flatMap.mp member
  have outside := List.find?_eq_none.mp none entry inList
  exact outside ((kept.formed entry inList).range freq isIn)

/-- A step that changes neither the list nor the sets. -/
theorem Tracked.Kept.same (kept : state.Kept) (list : (state.step step).list = state.list)
    (cacDone : (state.step step).cacDone = state.cacDone)
    (nol : (state.step step).nol = state.nol) :
    (state.step step).Kept := by
  have equal : state.step step = state := Tracked.ext list cacDone nol
  rw [equal]
  exact kept

/-- A step that changes the tree of an entry, and the sets in one subchannel that it has. -/
theorem Tracked.Kept.changed (kept : state.Kept)
    (found : state.list.find? (fun entry => step.1.isIt entry step.2) = some entry)
    (isIn : step.2 ∈ entry.treeRoot.subchannels)
    (others : ∀ other, other ≠ step.2 →
      (other ∈ state.cacDone ↔ other ∈ (state.step step).cacDone) ∧
      (other ∈ state.nol ↔ other ∈ (state.step step).nol))
    (disjoint : Disjoint (state.step step).cacDone (state.step step).nol)
    (counts : (step.1.change step.2 entry.treeRoot).Counts (state.step step).cacDone
        (state.step step).nol) :
    (state.step step).Kept := by
  obtain ⟨formed, apart, -, oldCounts, onList⟩ := kept
  obtain ⟨before, after, split, changed⟩ := onFirst_of_some found
  have list : (state.step step).list =
      before ++ { entry with treeRoot := step.1.change step.2 entry.treeRoot } :: after := changed _
  have sameShape := cleared_change step.1 step.2 entry.treeRoot
  have subchannels : (step.1.change step.2 entry.treeRoot).subchannels =
      entry.treeRoot.subchannels := by
    rw [← PrecacTree.cleared_subchannels, sameShape, PrecacTree.cleared_subchannels]
  have freqs : (step.1.change step.2 entry.treeRoot).freqs = entry.treeRoot.freqs := by
    rw [← PrecacTree.cleared_freqs, sameShape, PrecacTree.cleared_freqs]
  have allSubchannels : subchannelsOf (state.step step).list = subchannelsOf state.list := by
    rw [list, split]
    simp only [subchannelsOf, List.flatMap_append, List.flatMap_cons, subchannels]
  rw [split] at formed apart oldCounts
  obtain ⟨apartBefore, apartRest, apartAcross⟩ := List.pairwise_append.mp apart
  obtain ⟨apartEntry, apartAfter⟩ := List.pairwise_cons.mp apartRest
  have holds : entry.Holds step.2 := .inr (PrecacTree.subchannels_subset _ isIn)
  have notBefore : ∀ other ∈ before, step.2 ∉ other.treeRoot.subchannels :=
      fun other member isOther =>
    apartAcross other member entry List.mem_cons_self step.2
      ⟨.inr (PrecacTree.subchannels_subset _ isOther), holds⟩
  have notAfter : ∀ other ∈ after, step.2 ∉ other.treeRoot.subchannels :=
      fun other member isOther =>
    apartEntry other member step.2 ⟨holds, .inr (PrecacTree.subchannels_subset _ isOther)⟩
  have countsOf : ∀ other, other ∈ before ++ entry :: after → step.2 ∉ other.treeRoot.subchannels →
      other.treeRoot.Counts (state.step step).cacDone (state.step step).nol := by
    intro other member out
    exact (oldCounts other member).congr fun freq isFreq => others freq fun same =>
      out (same ▸ isFreq)
  have newHolds : ∀ freq, ({ entry with treeRoot := step.1.change step.2 entry.treeRoot } :
    DfsPrecacEntry).Holds freq ↔
      entry.Holds freq := by
    intro freq
    unfold DfsPrecacEntry.Holds
    rw [freqs]
    exact Iff.rfl
  refine ⟨?_, ?_, disjoint, ?_, ?_⟩
  · rw [list]
    intro other member
    rcases List.mem_append.mp member with inBefore | inRest
    · exact formed other (List.mem_append_left _ inBefore)
    · rcases List.mem_cons.mp inRest with rfl | inAfter
      · exact (formed entry (by simp)).change sameShape
      · exact formed other (List.mem_append_right _ (List.mem_cons_of_mem _ inAfter))
  · rw [list]
    refine List.pairwise_append.mpr ⟨apartBefore, List.pairwise_cons.mpr ⟨?_, apartAfter⟩, ?_⟩
    · intro other member freq both
      exact apartEntry other member freq ⟨(newHolds freq).mp both.1, both.2⟩
    · intro earlier member later inRest freq both
      rcases List.mem_cons.mp inRest with rfl | inAfter
      · exact apartAcross earlier member entry List.mem_cons_self freq
          ⟨both.1, (newHolds freq).mp both.2⟩
      · exact apartAcross earlier member later (List.mem_cons_of_mem _ inAfter) freq both
  · rw [list]
    intro other member
    rcases List.mem_append.mp member with inBefore | inRest
    · exact countsOf other (List.mem_append_left _ inBefore) (notBefore other inBefore)
    · rcases List.mem_cons.mp inRest with rfl | inAfter
      · exact counts
      · exact countsOf other (List.mem_append_right _ (List.mem_cons_of_mem _ inAfter))
          (notAfter other inAfter)
  · intro freq either
    rw [allSubchannels]
    by_cases own : freq = step.2
    · rw [own, split]
      exact List.mem_flatMap.mpr ⟨entry, by simp, isIn⟩
    · rcases either with inCacDone | inNol
      · exact onList freq (.inl ((others freq own).1.mpr inCacDone))
      · exact onList freq (.inr ((others freq own).2.mpr inNol))

/-! ### One step -/

theorem Tracked.Kept.step_cacDone (kept : state.Kept) (onRaster : OnRaster state.list freq)
    (sound : state.Sound (.cacDone, freq)) : (state.step (.cacDone, freq)).Kept := by
  have notNol : freq ∉ state.nol := sound
  cases found : state.list.find? fun entry => entry.isFreqWithinRange freq with
  | none =>
    have out := notMem_subchannelsOf kept found
    exact kept.same (onFirst_of_none found) (if_neg out) rfl
  | some entry =>
    have member := List.mem_of_find?_eq_some found
    have isIn := onRaster entry member (by simpa using List.find?_some found)
    have sets : (state.step (.cacDone, freq)).cacDone = insert freq state.cacDone :=
      if_pos (Tracked.Kept.mem_subchannelsOf member isIn)
    refine kept.changed found isIn ?_ ?_ ?_
    · intro other different
      rw [sets]
      exact ⟨PrecacTree.insert_others _ different, Iff.rfl⟩
    · rw [sets]
      exact Finset.disjoint_insert_left.mpr ⟨notNol, kept.disjoint⟩
    · rw [sets]
      exact (kept.counts entry member).markAsCacDone (kept.formed entry member).tree isIn

theorem Tracked.Kept.step_radar (kept : state.Kept) (onRaster : OnRaster state.list freq)
    (sound : state.Sound (.radar, freq)) : (state.step (.radar, freq)).Kept := by
  cases found : state.list.find? fun entry => entry.isFreqWithinRange freq with
  | none =>
    have out := notMem_subchannelsOf kept found
    exact kept.same (onFirst_of_none found)
      (Finset.erase_eq_of_notMem fun isDone => out (kept.onList freq (.inl isDone))) (if_neg out)
  | some entry =>
    have member := List.mem_of_find?_eq_some found
    have isIn := onRaster entry member (by simpa using List.find?_some found)
    have sets : (state.step (.radar, freq)).nol = insert freq state.nol :=
      if_pos (Tracked.Kept.mem_subchannelsOf member isIn)
    by_cases inNol : freq ∈ state.nol
    · have full : entry.treeRoot.NolFull := sound inNol entry found
      exact kept.same (onFirst_of_same found (PrecacTree.markAsNol_of_full full))
          (Finset.erase_eq_of_notMem fun isDone =>
        Finset.disjoint_left.mp kept.disjoint isDone inNol)
          (sets.trans (Finset.insert_eq_of_mem inNol))
    · refine kept.changed found isIn ?_ ?_ ?_
      · intro other different
        rw [sets]
        exact ⟨PrecacTree.erase_others _ different, PrecacTree.insert_others _ different⟩
      · rw [sets]
        exact Finset.disjoint_insert_right.mpr
          ⟨Finset.notMem_erase _ _, kept.disjoint.mono_left (Finset.erase_subset _ _)⟩
      · rw [sets]
        exact (kept.counts entry member).markAsNol (kept.formed entry member).tree isIn inNol

theorem Tracked.Kept.step_nolExpiry (kept : state.Kept) (sound : state.Sound (.nolExpiry, freq)) :
    (state.step (.nolExpiry, freq)).Kept := by
  have taken : TakenFrom state.nol (state.list.find? fun entry => entry.isWithinHalfBw freq) freq :=
    sound
  cases found : state.list.find? fun entry => entry.isWithinHalfBw freq with
  | none =>
    rw [found] at taken
    exact kept.same (onFirst_of_none found) rfl (Finset.erase_eq_of_notMem taken)
  | some entry =>
    rw [found] at taken
    have member := List.mem_of_find?_eq_some found
    rcases taken with ⟨inNol, isIn⟩ | ⟨notNol, none⟩
    · refine kept.changed found isIn ?_ ?_ ?_
      · exact fun other different => ⟨Iff.rfl, PrecacTree.erase_others _ different⟩
      · exact kept.disjoint.mono_right (Finset.erase_subset _ _)
      · exact (kept.counts entry member).unmarkAsNol (kept.formed entry member).tree isIn inNol
    · have unchanged : entry.treeRoot.unmarkAsNol freq = entry.treeRoot :=
        (kept.counts entry member).unmarkAsNol_of_none none
      exact kept.same (onFirst_of_same found unchanged) rfl (Finset.erase_eq_of_notMem notNol)

theorem Tracked.Kept.step_rcacReset (kept : state.Kept) (sound : state.Sound (.rcacReset, freq)) :
    (state.step (.rcacReset, freq)).Kept := by
  have taken : TakenFrom state.cacDone (state.list.find? fun entry => entry.isWithinVht160 freq)
    freq := sound
  cases found : state.list.find? fun entry => entry.isWithinVht160 freq with
  | none =>
    rw [found] at taken
    exact kept.same (onFirst_of_none found) (Finset.erase_eq_of_notMem taken) rfl
  | some entry =>
    rw [found] at taken
    have member := List.mem_of_find?_eq_some found
    rcases taken with ⟨isDone, isIn⟩ | ⟨notDone, none⟩
    · refine kept.changed found isIn ?_ ?_ ?_
      · exact fun other different => ⟨PrecacTree.erase_others _ different, Iff.rfl⟩
      · exact kept.disjoint.mono_left (Finset.erase_subset _ _)
      · exact (kept.counts entry member).unmarkAsCacDone (kept.formed entry member).tree isIn isDone
    · have unchanged : entry.treeRoot.unmarkAsCacDone freq = entry.treeRoot :=
        (kept.counts entry member).unmarkAsCacDone_of_none none
      exact kept.same (onFirst_of_same found unchanged) (Finset.erase_eq_of_notMem notDone) rfl

/-- A step marks a subchannel of the list, as CAC done or with radar. -/
def Marks (list : List DfsPrecacEntry) (step : SubchannelOp × Nat) : Prop :=
  step.1 = .cacDone ∨ step.1 = .radar → OnRaster list step.2

instance decidableMarks (list : List DfsPrecacEntry) (step : SubchannelOp × Nat) :
    Decidable (Marks list step) :=
  inferInstanceAs (Decidable (step.1 = .cacDone ∨ step.1 = .radar → OnRaster list step.2))

/-- **One step keeps the counts.** -/
theorem Tracked.Kept.next (kept : state.Kept) (marks : Marks state.list step)
    (sound : state.Sound step) :
    (state.step step).Kept := by
  obtain ⟨op, freq⟩ := step
  cases op with
  | cacDone => exact kept.step_cacDone (marks (.inl rfl)) sound
  | radar => exact kept.step_radar (marks (.inr rfl)) sound
  | nolExpiry => exact kept.step_nolExpiry sound
  | rcacReset => exact kept.step_rcacReset sound

/-- **A run keeps the counts.** -/
theorem Tracked.Kept.run {steps : List (SubchannelOp × Nat)} (kept : state.Kept)
    (marks : ∀ step ∈ steps, Marks state.list step) (sound : state.Along steps) :
        (state.run steps).Kept := by
  induction steps generalizing state with
  | nil => exact kept
  | cons step rest ih =>
    obtain ⟨first, later⟩ := sound
    refine ih (kept.next (marks step List.mem_cons_self) first) ?_ later
    intro next member isMark
    refine (marks next (List.mem_cons_of_mem _ member) isMark).of_shape fun other isOther => ?_
    rw [← shape_apply state.list step]
    exact isOther

end Qsdk.Dfs
