/-
**The trees that are created.**

A root channel of 20, 40, 80 or 160 MHz has the tree of the lowest possible channel of its
bandwidth, shifted. The 165 MHz and the 240 MHz channel have one tree each. So each tree is well
formed, its subchannels lie in the range of its entry, and each level halves the number of
subchannels, the tree of the 240 MHz channel apart.
-/

import Qsdk.Dfs.PrecacForest

namespace Qsdk.Dfs

/-! ### Root channels -/

/-- A channel that `dfs_init_precac_list` makes an entry for. The frequencies that
`check_if_freq_is_allowed` refuses are no channels' centres, and neither is that of the 240 MHz
channel, which stands as one of 320 MHz here. -/
def DfsChannelBw.IsChannel (root : DfsChannelBw) : Prop :=
  (root.dfsMaxBw ∈ [20, 40, 80, 160] ∧ root.dfsMaxBw / 2 ≤ root.dfsCenterChFreq ∧
    root.dfsCenterChFreq ≠ 5650 ∧
    ∀ slot ∈ offsets root.dfsMaxBw, checkIfFreqIsAllowed
    (root.dfsCenterChFreq + slot.1).toNat = true) ∨
  (root.dfsMaxBw = 165 ∧ root.dfsCenterChFreq = 5730) ∨
  (root.dfsMaxBw = 320 ∧ root.dfsCenterChFreq = 5650)

/-- The lower edge of a root channel. -/
def DfsChannelBw.low (root : DfsChannelBw) : Nat :=
  root.dfsCenterChFreq - (if root.dfsMaxBw = 165 then 80 else root.dfsMaxBw / 2)

/-- The upper edge of a root channel. The 165 MHz channel has a gap of 5 MHz between its halves, and
the 240 MHz channel has 80 MHz above its centre. -/
def DfsChannelBw.high (root : DfsChannelBw) : Nat :=
  root.dfsCenterChFreq +
    (if root.dfsMaxBw = 165 then 85 else if root.dfsMaxBw = 320 then 80 else root.dfsMaxBw / 2)

/-- Two root channels that do not overlap. -/
def DfsChannelBw.Apart (root other : DfsChannelBw) : Prop := root.high ≤ other.low ∨
    other.high ≤ root.low

/-! ### Shifted trees -/

namespace PrecacTree

/-- The number of valid subchannels at the root. -/
def nValid : PrecacTree → Nat
  | nil => 0
  | node root _ _ => root.nValidSubchs

/-- The tree with all frequencies moved up. -/
def shift (gap : Nat) : PrecacTree → PrecacTree
  | nil => nil
  | node root left right => node { root with chFreq := root.chFreq + gap } (left.shift gap)
    (right.shift gap)

/-- No node has a number of subchannels that depends on its frequency. -/
def Plain : PrecacTree → Prop
  | nil => True
  | node root left right =>
    (root.bandwidth ≠ 320 ∧ (root.bandwidth = 160 → root.depth ≠ 1)) ∧ left.Plain ∧ right.Plain

instance decidablePlain : (tree : PrecacTree) → Decidable tree.Plain
  | nil => inferInstanceAs (Decidable True)
  | node root left right =>
    have := decidablePlain left
    have := decidablePlain right
    inferInstanceAs
    (Decidable ((root.bandwidth ≠ 320 ∧ (root.bandwidth = 160 → root.depth ≠ 1)) ∧ left.Plain ∧
      right.Plain))

theorem shift_insertNode (gap : Nat) (new : PrecacTreeNode) (tree : PrecacTree) :
    (tree.insertNode new).shift gap = (tree.shift gap).insertNode
        { new with chFreq := new.chFreq + gap } := by
  induction tree with
  | nil => rfl
  | node root left right ihLeft ihRight =>
    simp only [insertNode, shift, Nat.add_lt_add_iff_right]
    split
    · rw [shift, ihLeft]
    · rw [shift, ihRight]

theorem shift_foldl (gap : Nat) (nodes : List PrecacTreeNode) (tree : PrecacTree) :
    (nodes.foldl (fun tree node => tree.insertNode node) tree).shift gap =
      (nodes.map fun node => { node with chFreq := node.chFreq + gap }).foldl
      (fun tree node => tree.insertNode node)
        (tree.shift gap) := by
  induction nodes generalizing tree with
  | nil => rfl
  | cons node nodes ih => rw [List.foldl_cons, ih, List.map_cons, List.foldl_cons, shift_insertNode]

theorem shift_subchannels (gap : Nat) (tree : PrecacTree) :
    (tree.shift gap).subchannels = tree.subchannels.map (· + gap) := by
  induction tree with
  | nil => rfl
  | node root left right ihLeft ihRight =>
    simp only [shift, subchannels, ihLeft, ihRight, List.map_append]
    split <;> rfl

theorem shift_freqs (gap : Nat) (tree : PrecacTree) : (tree.shift gap).freqs =
    tree.freqs.map (· + gap) := by
  induction tree with
  | nil => rfl
  | node root left right ihLeft ihRight =>
    simp only [shift, freqs, ihLeft, ihRight, List.map_append, List.map_cons]

theorem shift_length (gap : Nat) (tree : PrecacTree) :
    (tree.shift gap).subchannels.length = tree.subchannels.length := by
  rw [shift_subchannels, List.length_map]

theorem shift_halving (gap number : Nat) (tree : PrecacTree) :
    (tree.shift gap).Halving number ↔ tree.Halving number := by
  induction tree generalizing number with
  | nil => exact Iff.rfl
  | node root left right ihLeft ihRight =>
    have length := shift_length gap (node root left right)
    rw [shift] at length
    rw [shift, Halving, Halving, length, ihLeft, ihRight]

theorem shift_cleared (gap : Nat) (tree : PrecacTree) : (tree.shift gap).cleared =
    tree.cleared.shift gap := by
  induction tree with
  | nil => rfl
  | node root left right ihLeft ihRight => simp only [shift, cleared, ihLeft, ihRight]

theorem getNumSubchansForBw_plain {depth freq bandwidth : Nat}
    (plain : bandwidth ≠ 320 ∧ (bandwidth = 160 → depth ≠ 1)) :
    getNumSubchansForBw depth freq bandwidth = nSubchsForBandwidth bandwidth := by
  unfold getNumSubchansForBw
  rw [if_neg fun both => plain.1 both.2, if_neg fun all => plain.2 all.2.1 all.2.2]

theorem Plain.shift_formed {tree : PrecacTree} (plain : tree.Plain) (formed : tree.Formed)
    (gap : Nat) :
    (tree.shift gap).Formed := by
  induction tree with
  | nil => trivial
  | node root left right ihLeft ihRight =>
    obtain ⟨own, plainLeft, plainRight⟩ := plain
    obtain ⟨⟨below, above⟩, narrow, ⟨valid, number, atMost⟩, formedLeft, formedRight⟩ := formed
    have length := shift_length gap (node root left right)
    rw [shift] at length
    rw [getNumSubchansForBw_plain own] at number
    refine ⟨⟨?_, ?_⟩, ?_, ⟨?_, ?_, atMost⟩, ihLeft plainLeft formedLeft,
      ihRight plainRight formedRight⟩
    · intro freq member
      rw [shift_freqs] at member
      obtain ⟨old, inLeft, rfl⟩ := List.mem_map.mp member
      exact Nat.add_lt_add_right (below old inLeft) gap
    · intro freq member
      rw [shift_freqs] at member
      obtain ⟨old, inRight, rfl⟩ := List.mem_map.mp member
      exact Nat.add_lt_add_right (above old inRight) gap
    · intro is20
      obtain ⟨rfl, rfl⟩ := narrow is20
      exact ⟨rfl, rfl⟩
    · rw [length]
      exact valid
    · rw [getNumSubchansForBw_plain own]
      exact number

end PrecacTree

/-- The tree of a root channel is that of the lowest channel of its bandwidth, shifted. -/
theorem createPrecacTree_shift {center bandwidth : Nat} (listed : bandwidth ∈ [20, 40, 80, 160])
    (above : bandwidth / 2 ≤ center)
    (allowed : ∀ slot ∈ offsets bandwidth, checkIfFreqIsAllowed (center + slot.1).toNat = true) :
    createPrecacTree center bandwidth false .nil =
      (createPrecacTree (bandwidth / 2) bandwidth false .nil).shift (center - bandwidth / 2) := by
  have low : ∀ slot ∈ offsets bandwidth, (0 : Int) ≤ (bandwidth / 2 : Nat) + slot.1 ∧
      checkIfFreqIsAllowed (((bandwidth / 2 : Nat) : Int) + slot.1).toNat = true ∧
      (bandwidth / 2 ^ slot.2 ≠ 320 ∧ (bandwidth / 2 ^ slot.2 = 160 → slot.2 ≠ 1)) := by
    have cases : ∀ bandwidth ∈ [20, 40, 80, 160], ∀ slot ∈ offsets bandwidth,
        (0 : Int) ≤ (bandwidth / 2 : Nat) + slot.1 ∧
          checkIfFreqIsAllowed (((bandwidth / 2 : Nat) : Int) + slot.1).toNat = true ∧
          (bandwidth / 2 ^ slot.2 ≠ 320 ∧ (bandwidth / 2 ^ slot.2 = 160 → slot.2 ≠ 1)) := by
          decide +kernel
    exact cases bandwidth listed
  have lowest : ((offsets bandwidth).map (levelNode (bandwidth / 2) bandwidth false)).filter
      (fun node => checkIfFreqIsAllowed node.chFreq) =
        (offsets bandwidth).map (levelNode (bandwidth / 2) bandwidth false) := by
    refine List.filter_eq_self.mpr fun node member => ?_
    obtain ⟨slot, inOffsets, rfl⟩ := List.mem_map.mp member
    exact (low slot inOffsets).2.1
  have own : ((offsets bandwidth).map (levelNode center bandwidth false)).filter
      (fun node => checkIfFreqIsAllowed node.chFreq) = (offsets bandwidth).map
          (levelNode center bandwidth false) := by
    refine List.filter_eq_self.mpr fun node member => ?_
    obtain ⟨slot, inOffsets, rfl⟩ := List.mem_map.mp member
    exact allowed slot inOffsets
  unfold createPrecacTree
  rw [lowest, own, PrecacTree.shift_foldl, List.map_map]
  refine congrArg (fun nodes => List.foldl _ PrecacTree.nil nodes)
    (List.map_congr_left fun slot inOffsets => ?_)
  obtain ⟨positive, -, plain⟩ := low slot inOffsets
  have freq : ((center : Int) + slot.1).toNat =
      (((bandwidth / 2 : Nat) : Int) + slot.1).toNat + (center - bandwidth / 2) := by
    omega
  simp only [Function.comp, levelNode, initPrecacTreeNode, Bool.false_eq_true, if_false,
    PrecacTree.getNumSubchansForBw_plain plain, freq]

/-! ### What holds of each entry that is created -/

/-- What the operations go by, of the entry of a root channel. -/
structure DfsPrecacEntry.Built (root : DfsChannelBw) (entry : DfsPrecacEntry) : Prop where
  cleared : entry.treeRoot.cleared = entry.treeRoot
  formed : entry.treeRoot.Formed
  range : ∀ freq ∈ entry.treeRoot.subchannels, entry.isFreqWithinRange freq = true
  freqs : ∀ freq ∈ entry.treeRoot.freqs, root.low < freq ∧ freq ≤ root.high
  own : ∀ freq, entry.isFreqWithinRange freq = true → root.low < freq ∧ freq ≤ root.high
  halving : entry.bw ≠ 320 → entry.treeRoot.Halving entry.treeRoot.nValid
  nValid : entry.bw = 320 → entry.treeRoot.nValid = 12

/-- The trees of the lowest channels. -/
theorem lowest_trees : ∀ bandwidth ∈ [20, 40, 80, 160],
    (createPrecacTree (bandwidth / 2) bandwidth false .nil).cleared =
        createPrecacTree (bandwidth / 2) bandwidth false .nil ∧
      (createPrecacTree (bandwidth / 2) bandwidth false .nil).Plain ∧
      (createPrecacTree (bandwidth / 2) bandwidth false .nil).Formed ∧
      (∀ freq ∈ (createPrecacTree (bandwidth / 2) bandwidth false .nil).freqs, 0 < freq ∧
        freq < bandwidth) ∧
      (createPrecacTree (bandwidth / 2) bandwidth false .nil).Halving
        (createPrecacTree (bandwidth / 2) bandwidth false .nil).nValid := by
  decide +kernel

theorem nValid_shift (gap : Nat) (tree : PrecacTree) : (tree.shift gap).nValid = tree.nValid := by
  cases tree <;> rfl

theorem createPrecacEntry_built {root : DfsChannelBw} (isChannel : root.IsChannel) :
    (createPrecacEntry root).Built root := by
  rcases isChannel with ⟨listed, above, isOther, allowed⟩ | ⟨is165, center⟩ | ⟨is320, center⟩
  · have shifted := createPrecacTree_shift listed above allowed
    obtain ⟨cleared, plain, formed, freqs, halving⟩ := lowest_trees _ listed
    have widths : root.dfsMaxBw ≠ 165 ∧ root.dfsMaxBw ≠ 320 ∧
        2 * (root.dfsMaxBw / 2) = root.dfsMaxBw := by
      have cases : ∀ bandwidth ∈ [20, 40, 80, 160],
          bandwidth ≠ 165 ∧ bandwidth ≠ 320 ∧ 2 * (bandwidth / 2) = bandwidth := by decide
      exact cases _ listed
    obtain ⟨not165, not320, halves⟩ := widths
    have entryIs : createPrecacEntry root = ⟨root.dfsCenterChFreq, root.dfsMaxBw,
        (createPrecacTree (root.dfsMaxBw / 2) root.dfsMaxBw false .nil).shift
          (root.dfsCenterChFreq - root.dfsMaxBw / 2)⟩ := by
      unfold createPrecacEntry
      rw [if_neg not165, shifted]
    have lowIs : root.low = root.dfsCenterChFreq - root.dfsMaxBw / 2 := by
      unfold DfsChannelBw.low
      rw [if_neg not165]
    have highIs : root.high = root.dfsCenterChFreq + root.dfsMaxBw / 2 := by
      unfold DfsChannelBw.high
      rw [if_neg not165, if_neg not320]
    have moved : ∀ freq ∈ ((createPrecacTree (root.dfsMaxBw / 2) root.dfsMaxBw false .nil).shift
        (root.dfsCenterChFreq - root.dfsMaxBw / 2)).freqs,
          root.dfsCenterChFreq < freq + root.dfsMaxBw / 2 ∧
              freq < root.dfsCenterChFreq + root.dfsMaxBw / 2 := by
      intro freq member
      rw [PrecacTree.shift_freqs] at member
      obtain ⟨old, isIn, rfl⟩ := List.mem_map.mp member
      have := freqs old isIn
      omega
    rw [entryIs]
    constructor
    · show PrecacTree.cleared _ = _
      rw [PrecacTree.shift_cleared, cleared]
    · exact plain.shift_formed formed _
    · intro freq member
      have := moved freq (PrecacTree.subchannels_subset _ member)
      unfold DfsPrecacEntry.isFreqWithinRange
      rw [if_neg isOther, decide_eq_true_eq]
      exact this
    · intro freq member
      have := moved freq member
      omega
    · intro freq inRange
      unfold DfsPrecacEntry.isFreqWithinRange at inRange
      rw [if_neg isOther, decide_eq_true_eq] at inRange
      dsimp only at inRange
      omega
    · intro _
      show PrecacTree.Halving _ _
      rw [nValid_shift, PrecacTree.shift_halving]
      exact halving
    · exact fun is320 => absurd is320 not320
  · have entryIs : createPrecacEntry root = ⟨5730, 160, create165mhzPrecacTree⟩ := by
      unfold createPrecacEntry
      rw [if_pos is165]
    have lowIs : root.low = 5650 := by
      unfold DfsChannelBw.low
      rw [if_pos is165, center]
    have highIs : root.high = 5815 := by
      unfold DfsChannelBw.high
      rw [if_pos is165, center]
    rw [entryIs]
    constructor
    · decide +kernel
    · decide +kernel
    · decide +kernel
    · rw [lowIs, highIs]
      decide +kernel
    · intro freq inRange
      unfold DfsPrecacEntry.isFreqWithinRange at inRange
      rw [if_neg (by decide), decide_eq_true_eq] at inRange
      dsimp only at inRange
      omega
    · exact fun _ => by decide +kernel
    · exact fun is320 => absurd is320 (by decide)
  · have entryIs : createPrecacEntry root = ⟨5650, 320, createPrecacTree 5650 320 false .nil⟩ := by
      unfold createPrecacEntry
      rw [if_neg (by omega), is320, center]
    have lowIs : root.low = 5490 := by
      unfold DfsChannelBw.low
      rw [if_neg (by omega), is320, center]
    have highIs : root.high = 5730 := by
      unfold DfsChannelBw.high
      rw [if_neg (by omega), if_pos is320, center]
    rw [entryIs]
    constructor
    · decide +kernel
    · decide +kernel
    · decide +kernel
    · rw [lowIs, highIs]
      decide +kernel
    · intro freq inRange
      unfold DfsPrecacEntry.isFreqWithinRange at inRange
      rw [if_pos rfl, decide_eq_true_eq] at inRange
      dsimp only at inRange
      omega
    · exact fun not320 => absurd rfl not320
    · exact fun _ => by decide +kernel

end Qsdk.Dfs
