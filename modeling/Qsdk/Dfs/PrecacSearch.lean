/-
**Searching the preCAC list for a channel.**

`dfs_find_ieee_ch_from_precac_tree_for_freq` goes down from the root of a tree to a node of the
requested bandwidth. At each node it takes the left child if this passes a test on its counts, and
never turns back. What it finds is usable (`searchTree_usable`). It misses a usable node if some
left child passes the test on the way and the node is not below.
-/

import Qsdk.Dfs.PrecacForest

namespace Qsdk.Dfs

/-! ### The current channel -/

/-- `exclude_pri_ch_freq` and `exclude_sec_ch_freq` of `dfs_get_num_cur_subchans_in_node_freq`, as
`uint16_t`. -/
def DfsChannel.excludedFreqs (curchan : DfsChannel) : Nat × Nat :=
  if curchan.mode = .mode160 then
    if curchan.dfsChMhzFreqSeg2 < curchan.dfsChMhzFreqSeg1 then
      (curchan.dfsChMhzFreqSeg1, (curchan.dfsChMhzFreqSeg2 + 65536 - 40) % 65536)
    else (curchan.dfsChMhzFreqSeg1, (curchan.dfsChMhzFreqSeg2 + 40) % 65536)
  else (curchan.dfsChMhzFreqSeg1, curchan.dfsChMhzFreqSeg2)

/-- `chwidth_val` there. -/
def DfsChannel.excludedWidth (curchan : DfsChannel) : Nat :=
  match curchan.mode with
  | .mode20 => 20
  | .mode40 => 40
  | _ => 80

namespace PrecacTree

/-- `dfs_is_pcac_required_for_freq`. -/
def isPcacRequired (freq : Nat) : PrecacTree → Bool
  | nil => false
  | node root left right =>
    if root.chFreq = freq then
      !decide (root.nCacedSubchs = nSubchsForBandwidth root.bandwidth ∨ root.nNolSubchs ≠ 0)
    else if freq < root.chFreq then left.isPcacRequired freq
    else right.isPcacRequired freq

/-- `IS_WITHIN_RANGE` of a node with half its bandwidth. -/
def isWithinNode (freq : Nat) (root : PrecacTreeNode) : Bool :=
  decide (root.chFreq ≤ freq + root.bandwidth / 2 ∧ freq ≤ root.chFreq + root.bandwidth / 2)

/-- `dfs_get_num_cur_subchans_in_node_freq`. -/
def numCurSubchansInNode (curchan : DfsChannel) (root : PrecacTreeNode) (left right : PrecacTree) :
    Nat :=
  (if isWithinNode curchan.excludedFreqs.1 root &&
      (node root left right).isPcacRequired curchan.excludedFreqs.1 then
    nSubchsForBandwidth curchan.excludedWidth else 0) +
  (if isWithinNode curchan.excludedFreqs.2 root &&
      (node root left right).isPcacRequired curchan.excludedFreqs.2 then
    nSubchsForBandwidth curchan.excludedWidth else 0)

/-! ### The search -/

/-- The difference of two counts in a `uint8_t`. -/
def uint8Sub (count other : Nat) : Nat := if other ≤ count then count - other else
    count + 256 - other

/-- `dfs_is_cac_needed_for_bst_node_for_freq`. -/
def isCacNeeded (curchan : DfsChannel) (reqBandwidth : Nat) : PrecacTree → Bool
  | nil => false
  | node root left right =>
    let nExcludedSubchs := numCurSubchansInNode curchan root left right
    let nAllowedSubchs := uint8Sub root.nValidSubchs (root.nNolSubchs + nExcludedSubchs)
    !decide (nAllowedSubchs < nSubchsForBandwidth reqBandwidth ∨
      root.nCacedSubchs + root.nNolSubchs + nExcludedSubchs = root.nValidSubchs)

/-- The loop of `dfs_find_ieee_ch_from_precac_tree_for_freq`. -/
def searchFrom (curchan : DfsChannel) (reqBw : Nat) : PrecacTree → Nat
  | nil => 0
  | node root left right =>
    if root.bandwidth = reqBw then
      if (node root left right).isCacNeeded curchan reqBw then root.chFreq else 0
    else if !left.isCacNeeded curchan reqBw then right.searchFrom curchan reqBw
    else left.searchFrom curchan reqBw

/-- `dfs_find_ieee_ch_from_precac_tree_for_freq`. -/
def findIeeeCh (curchan : DfsChannel) (reqBw : Nat) (tree : PrecacTree) : Nat :=
  if !tree.isCacNeeded curchan reqBw then 0 else tree.searchFrom curchan reqBw

end PrecacTree

/-- `dfs_get_ieeechan_for_precac_for_freq`, if `dfs_configure_deschan_for_precac` has no desired
channel. -/
def getIeeechanForPrecac (curchan : DfsChannel) (bw : Nat) : List DfsPrecacEntry → Nat
  | [] => 0
  | entry :: rest =>
    if entry.treeRoot.findIeeeCh curchan bw ≠ 0 then entry.treeRoot.findIeeeCh curchan bw
    else getIeeechanForPrecac curchan bw rest

/-! ### What there is to find -/

namespace PrecacTree

/-- The subtrees of a tree, one for each node. -/
def subtrees : PrecacTree → List PrecacTree
  | nil => []
  | node root left right => node root left right :: (left.subtrees ++ right.subtrees)

/-- A node of the requested bandwidth with no NOL subchannel and a subchannel that is not CAC
done. -/
def Usable (reqBw : Nat) (cacDone nol : Finset Nat) (root : PrecacTreeNode)
    (left right : PrecacTree) : Prop :=
  root.bandwidth = reqBw ∧ (∀ freq ∈ (node root left right).subchannels, freq ∉ nol) ∧
    ∃ freq ∈ (node root left right).subchannels, freq ∉ cacDone

/-- The choices of the search lead from a tree to a subtree of it: no node above has the requested
bandwidth, and at each node above, the subtree is in the left half just when the left child passes
the count test. -/
inductive LeadsTo (curchan : DfsChannel) (reqBw : Nat) (below : PrecacTree) : PrecacTree → Prop
  | here : LeadsTo curchan reqBw below below
  | left {root : PrecacTreeNode} {left right : PrecacTree} (wider : root.bandwidth ≠ reqBw)
      (passes : left.isCacNeeded curchan reqBw = true) (down : LeadsTo curchan reqBw below left) :
      LeadsTo curchan reqBw below (node root left right)
  | right {root : PrecacTreeNode} {left right : PrecacTree} (wider : root.bandwidth ≠ reqBw)
      (fails : left.isCacNeeded curchan reqBw = false) (down : LeadsTo curchan reqBw below right) :
      LeadsTo curchan reqBw below (node root left right)

/-- The current channel is not in the tree. -/
def Excludes (curchan : DfsChannel) (tree : PrecacTree) : Prop :=
  curchan.excludedFreqs.1 ∉ tree.freqs ∧ curchan.excludedFreqs.2 ∉ tree.freqs

variable {curchan : DfsChannel} {reqBw freq : Nat} {root : PrecacTreeNode}
    {left right tree below : PrecacTree}
  {cacDone nol : Finset Nat}

theorem isPcacRequired_of_notMem (out : freq ∉ tree.freqs) : tree.isPcacRequired freq = false := by
  induction tree with
  | nil => rfl
  | node root left right ihLeft ihRight =>
    simp only [freqs, List.mem_cons, List.mem_append, not_or] at out
    obtain ⟨notRoot, notLeft, notRight⟩ := out
    rw [isPcacRequired, if_neg (Ne.symm notRoot), ihLeft notLeft, ihRight notRight, ite_self]

theorem Excludes.onLeft (excludes : (node root left right).Excludes curchan) :
    left.Excludes curchan := by
  refine ⟨fun isIn => excludes.1 ?_, fun isIn => excludes.2 ?_⟩ <;> simp [freqs, isIn]

theorem Excludes.onRight (excludes : (node root left right).Excludes curchan) :
    right.Excludes curchan := by
  refine ⟨fun isIn => excludes.1 ?_, fun isIn => excludes.2 ?_⟩ <;> simp [freqs, isIn]

theorem Excludes.num (excludes : (node root left right).Excludes curchan) :
    numCurSubchansInNode curchan root left right = 0 := by
  unfold numCurSubchansInNode
  rw [isPcacRequired_of_notMem excludes.1, isPcacRequired_of_notMem excludes.2]
  simp

/-- The count test on a node whose counts are true. -/
theorem isCacNeeded_iff (formed : (node root left right).Formed)
    (counts : (node root left right).Counts cacDone nol)
    (excludes : (node root left right).Excludes curchan) :
    (node root left right).isCacNeeded curchan reqBw = true ↔
      nSubchsForBandwidth reqBw + root.nNolSubchs ≤ root.nValidSubchs ∧
        root.nCacedSubchs + root.nNolSubchs ≠ root.nValidSubchs := by
  obtain ⟨⟨-, noled⟩, -, -⟩ := counts
  obtain ⟨-, -, ⟨valid, -, -⟩, -, -⟩ := formed
  have atMost : root.nNolSubchs ≤ root.nValidSubchs := by
    rw [noled, valid]
    exact within_le_length
  rw [isCacNeeded, excludes.num, Nat.add_zero, Nat.add_zero, uint8Sub, if_pos atMost,
    Bool.not_eq_true', decide_eq_false_iff_not, not_or]
  constructor
  · rintro ⟨enough, some⟩
    exact ⟨by omega, some⟩
  · rintro ⟨enough, some⟩
    exact ⟨by omega, some⟩

/-- **At a node of the requested bandwidth the test is exact**: it passes if the node is usable and
has all the subchannels that its bandwidth says. -/
theorem isCacNeeded_iff_usable (formed : (node root left right).Formed)
    (counts : (node root left right).Counts cacDone nol)
    (excludes : (node root left right).Excludes curchan) (requested : root.bandwidth = reqBw) :
    (node root left right).isCacNeeded curchan reqBw = true ↔
      Usable reqBw cacDone nol root left right ∧ root.nValidSubchs =
          nSubchsForBandwidth root.bandwidth := by
  rw [isCacNeeded_iff formed counts excludes]
  obtain ⟨⟨caced, noled⟩, -, -⟩ := counts
  obtain ⟨-, -, ⟨valid, -, atMost⟩, -, -⟩ := formed
  subst requested
  constructor
  · rintro ⟨enough, notAll⟩
    have none : within (node root left right).subchannels nol = 0 := by omega
    refine ⟨⟨rfl, within_eq_zero.mp none, ?_⟩, by omega⟩
    by_contra all
    simp only [not_exists, not_and, not_not] at all
    have := within_eq_length.mpr all
    omega
  · rintro ⟨⟨-, noNol, ⟨freq, member, notDone⟩⟩, full⟩
    have none := within_eq_zero.mpr noNol
    have := within_lt_length member notDone
    omega

theorem LeadsTo.mem_subtrees (leads : LeadsTo curchan reqBw (node root left right) tree) :
    node root left right ∈ tree.subtrees := by
  induction leads with
  | here => exact List.mem_cons_self
  | left _ _ _ ih => exact List.mem_cons_of_mem _ (List.mem_append_left _ ih)
  | right _ _ _ ih => exact List.mem_cons_of_mem _ (List.mem_append_right _ ih)

/-- **What the loop returns**: a frequency other than 0 exactly if its choices lead to a usable node
that has all its subchannels, and then the frequency of this node. -/
theorem searchFrom_eq_iff (formed : tree.Formed) (counts : tree.Counts cacDone nol)
    (excludes : tree.Excludes curchan) (some : freq ≠ 0) :
    tree.searchFrom curchan reqBw = freq ↔
      ∃ root left right, LeadsTo curchan reqBw (node root left right) tree ∧ root.chFreq = freq ∧
        Usable reqBw cacDone nol root left right ∧ root.nValidSubchs =
            nSubchsForBandwidth root.bandwidth := by
  induction tree with
  | nil =>
    constructor
    · intro none
      exact absurd none.symm some
    · rintro ⟨root, left, right, leads, -⟩
      nomatch leads
  | node root left right ihLeft ihRight =>
    have exact := @isCacNeeded_iff_usable curchan reqBw root left right cacDone nol formed
      counts excludes
    obtain ⟨-, countsLeft, countsRight⟩ := counts
    obtain ⟨-, -, -, formedLeft, formedRight⟩ := formed
    rw [searchFrom]
    by_cases requested : root.bandwidth = reqBw
    · rw [if_pos requested]
      constructor
      · intro returned
        split_ifs at returned with passes
        · exact ⟨root, left, right, .here, returned, (exact requested).mp passes⟩
        · exact absurd returned.symm some
      · rintro ⟨root', left', right', leads, centre, usable⟩
        cases leads with
        | here => rw [if_pos ((exact requested).mpr usable), centre]
        | left wider => exact absurd requested wider
        | right wider => exact absurd requested wider
    · rw [if_neg requested]
      cases passes : left.isCacNeeded curchan reqBw with
      | true =>
        rw [if_neg (by simp), ihLeft formedLeft countsLeft excludes.onLeft]
        constructor
        · rintro ⟨root', left', right', leads, rest⟩
          exact ⟨root', left', right', .left requested passes leads, rest⟩
        · rintro ⟨root', left', right', leads, centre, usable, full⟩
          cases leads with
          | here => exact absurd usable.1 requested
          | left _ _ down => exact ⟨root', left', right', down, centre, usable, full⟩
          | right _ fails => rw [passes] at fails; cases fails
      | false =>
        rw [if_pos (by simp), ihRight formedRight countsRight excludes.onRight]
        constructor
        · rintro ⟨root', left', right', leads, rest⟩
          exact ⟨root', left', right', .right requested passes leads, rest⟩
        · rintro ⟨root', left', right', leads, centre, usable, full⟩
          cases leads with
          | here => exact absurd usable.1 requested
          | left _ passes' => rw [passes] at passes'; cases passes'
          | right _ _ down => exact ⟨root', left', right', down, centre, usable, full⟩

end PrecacTree

variable {curchan : DfsChannel} {bw freq : Nat} {list : List DfsPrecacEntry}
    {cacDone nol : Finset Nat}

/-- The list has a usable node with this centre. -/
def Offers (list : List DfsPrecacEntry) (bw : Nat) (cacDone nol : Finset Nat) (freq : Nat) : Prop :=
  ∃ entry ∈ list, ∃ root left right, .node root left right ∈ entry.treeRoot.subtrees ∧
    root.chFreq = freq ∧
    PrecacTree.Usable bw cacDone nol root left right

/-- Some tree that passes the count test has a usable node, with a centre and all the subchannels
that its bandwidth says, to which the choices of the search lead. -/
def Reached (list : List DfsPrecacEntry) (curchan : DfsChannel) (bw : Nat)
    (cacDone nol : Finset Nat) : Prop :=
  ∃ entry ∈ list, entry.treeRoot.isCacNeeded curchan bw = true ∧ ∃ root left right,
    PrecacTree.LeadsTo curchan bw (.node root left right) entry.treeRoot ∧ root.chFreq ≠ 0 ∧
      PrecacTree.Usable bw cacDone nol root left right ∧ root.nValidSubchs =
      nSubchsForBandwidth root.bandwidth

/-- The search takes what the first tree with a result gives. -/
theorem getIeeechanForPrecac_ne_zero (found : getIeeechanForPrecac curchan bw list ≠ 0) :
    ∃ entry ∈ list, entry.treeRoot.findIeeeCh curchan bw =
        getIeeechanForPrecac curchan bw list := by
  induction list with
  | nil => exact absurd rfl found
  | cons entry rest ih =>
    rw [getIeeechanForPrecac] at found ⊢
    split_ifs at found ⊢ with here
    · exact ⟨entry, List.mem_cons_self, rfl⟩
    · obtain ⟨other, member, same⟩ := ih found
      exact ⟨other, List.mem_cons_of_mem entry member, same⟩

theorem getIeeechanForPrecac_of_found {entry : DfsPrecacEntry} (member : entry ∈ list)
    (found : entry.treeRoot.findIeeeCh curchan bw ≠ 0) :
        getIeeechanForPrecac curchan bw list ≠ 0 := by
  induction list with
  | nil => cases member
  | cons head rest ih =>
    rw [getIeeechanForPrecac]
    split_ifs with here
    · exact here
    · rcases List.mem_cons.mp member with rfl | inRest
      · exact absurd found here
      · exact ih inRest

section Counted

variable (formed : ∀ entry ∈ list, entry.treeRoot.Formed)
  (counts : ∀ entry ∈ list, entry.treeRoot.Counts cacDone nol)
  (excludes : ∀ entry ∈ list, entry.treeRoot.Excludes curchan)

include formed counts excludes

/-- **The search is sound**: the frequency it returns is the centre of a usable node. -/
theorem getIeeechanForPrecac_usable (found : getIeeechanForPrecac curchan bw list ≠ 0) :
    Reached list curchan bw cacDone nol ∧ Offers list bw cacDone nol
        (getIeeechanForPrecac curchan bw list) := by
  obtain ⟨entry, member, same⟩ := getIeeechanForPrecac_ne_zero found
  rw [← same] at found ⊢
  unfold PrecacTree.findIeeeCh at found ⊢
  split_ifs at found ⊢ with refused
  · exact absurd rfl found
  · obtain ⟨root, left, right, leads, centre, usable, full⟩ :=
      (PrecacTree.searchFrom_eq_iff (formed entry member) (counts entry member)
        (excludes entry member) found).mp rfl
    have passes : entry.treeRoot.isCacNeeded curchan bw = true := by simpa using refused
    refine ⟨⟨entry, member, passes, root, left, right, leads, ?_, usable, full⟩, ?_⟩
    · rwa [centre]
    · exact ⟨entry, member, root, left, right, leads.mem_subtrees, centre, usable⟩

theorem Reached.found (reached : Reached list curchan bw cacDone nol) :
    getIeeechanForPrecac curchan bw list ≠ 0 := by
  obtain ⟨entry, member, passes, root, left, right, leads, hasCentre, usable, full⟩ := reached
  refine getIeeechanForPrecac_of_found member ?_
  rw [PrecacTree.findIeeeCh, if_neg (by simp [passes])]
  rw [(PrecacTree.searchFrom_eq_iff (formed entry member) (counts entry member)
    (excludes entry member) hasCentre).mpr
    ⟨root, left, right, leads, rfl, usable, full⟩]
  exact hasCentre

/-- **When the search is right**: it returns the centre of a usable node if there is one, and 0
otherwise, exactly if there is none or its choices lead to one. -/
theorem getIeeechanForPrecac_right_iff :
    ((∃ freq, Offers list bw cacDone nol freq) →
        getIeeechanForPrecac curchan bw list ≠ 0 ∧
          Offers list bw cacDone nol (getIeeechanForPrecac curchan bw list)) ∧
      ((¬∃ freq, Offers list bw cacDone nol freq) → getIeeechanForPrecac curchan bw list = 0) ↔
    ((¬∃ freq, Offers list bw cacDone nol freq) ∨ Reached list curchan bw cacDone nol) := by
  constructor
  · rintro ⟨complete, -⟩
    by_cases offered : ∃ freq, Offers list bw cacDone nol freq
    · exact .inr (getIeeechanForPrecac_usable formed counts excludes (complete offered).1).1
    · exact .inl offered
  · intro condition
    refine ⟨fun offered => ?_, fun none => ?_⟩
    · have reached := condition.resolve_left (not_not.mpr offered)
      have found := reached.found formed counts excludes
      exact ⟨found, (getIeeechanForPrecac_usable formed counts excludes found).2⟩
    · by_contra found
      exact none ⟨_, (getIeeechanForPrecac_usable formed counts excludes found).2⟩

end Counted

/-! ### Two hits in one half -/

instance PrecacTree.decidableCounts (cacDone nol : Finset Nat) : (tree : PrecacTree) →
    Decidable (tree.Counts cacDone nol)
  | .nil => inferInstanceAs (Decidable True)
  | .node root left right =>
    have := decidableCounts cacDone nol left
    have := decidableCounts cacDone nol right
    inferInstanceAs
    (Decidable ((root.nCacedSubchs = within (node root left right).subchannels cacDone ∧
      root.nNolSubchs = within (node root left right).subchannels nol) ∧
      left.Counts cacDone nol ∧ right.Counts cacDone nol))

/-- Channel 36, which needs no CAC. -/
def channel36 : DfsChannel := ⟨true, .mode20, false, false, 5180, 0⟩

/-- A list with one channel, after radar on some of its subchannels. -/
def afterHits (root : DfsChannelBw) (hits : List Nat) : List DfsPrecacEntry :=
  (Call.markPrecacNol hits).exec [createPrecacEntry root]

/-- A 40 MHz channel with a hit on its lower half: the upper half is found. -/
theorem getIeeechanForPrecac_right_upper :
    getIeeechanForPrecac channel36 20 (afterHits ⟨5500, 5510, 40⟩ [5500]) ≠ 0 ∧
      Offers (afterHits ⟨5500, 5510, 40⟩ [5500]) 20 ∅ {5500}
        (getIeeechanForPrecac channel36 20 (afterHits ⟨5500, 5510, 40⟩ [5500])) := by
  have counted : ∀ entry ∈ afterHits ⟨5500, 5510, 40⟩ [5500], entry.treeRoot.Formed ∧
      entry.treeRoot.Counts ∅ {5500} ∧ entry.treeRoot.Excludes channel36 := by
    intro entry member
    rw [List.mem_singleton.mp member]
    refine ⟨?_, ?_, ?_, ?_⟩ <;> decide
  have usable : PrecacTree.Usable 20 ∅ {5500} ⟨5520, 0, 0, 1, 20, 1⟩ .nil .nil := by
    refine ⟨rfl, by decide, 5520, by decide, by decide⟩
  refine ((getIeeechanForPrecac_right_iff (fun entry member => (counted entry member).1)
    (fun entry member => (counted entry member).2.1)
    (fun entry member => (counted entry member).2.2)).mpr
    (.inr ?_)).1 ?_
  · refine ⟨_, List.mem_singleton.mpr rfl, by decide, ⟨5520, 0, 0, 1, 20, 1⟩, .nil, .nil,
      ?_, by decide, usable, rfl⟩
    exact .right (by decide) (by decide) .here
  · exact ⟨5520, _, List.mem_singleton.mpr rfl, ⟨5520, 0, 0, 1, 20, 1⟩, .nil, .nil, by decide,
      rfl, usable⟩

/-- **Two hits in one half hide the other half**: each 40 MHz channel of the lower half has one, so
that the lower half has two free subchannels, and the search for 40 MHz goes there and gives up. -/
theorem free_half_missed :
    ¬∀ (curchan : DfsChannel) (bw : Nat) (list : List DfsPrecacEntry) (cacDone nol : Finset Nat),
      (∀ entry ∈ list, entry.treeRoot.Formed) →
      (∀ entry ∈ list, entry.treeRoot.Counts cacDone nol) →
      (∀ entry ∈ list, entry.treeRoot.Excludes curchan) →
        ((∃ freq, Offers list bw cacDone nol freq) →
          getIeeechanForPrecac curchan bw list ≠ 0 ∧
            Offers list bw cacDone nol (getIeeechanForPrecac curchan bw list)) ∧
        ((¬∃ freq, Offers list bw cacDone nol freq) →
            getIeeechanForPrecac curchan bw list = 0) := by
  intro right
  have counted : ∀ entry ∈ afterHits ⟨5500, 5570, 160⟩ [5500, 5540], entry.treeRoot.Formed ∧
      entry.treeRoot.Counts ∅ {5500, 5540} ∧ entry.treeRoot.Excludes channel36 := by
    intro entry member
    rw [List.mem_singleton.mp member]
    refine ⟨?_, ?_, ?_, ?_⟩ <;> decide
  let leaf := fun freq => PrecacTree.node ⟨freq, 0, 0, 1, 20, 3⟩ .nil .nil
  refine ((right channel36 40 (afterHits ⟨5500, 5570, 160⟩ [5500, 5540]) ∅ {5500, 5540}
    (fun entry member => (counted entry member).1) (fun entry member => (counted entry member).2.1)
    (fun entry member => (counted entry member).2.2)).1 ?_).1 (by decide)
  refine ⟨5590, _, List.mem_singleton.mpr rfl, ⟨5590, 0, 0, 2, 40, 2⟩, leaf 5580,
    leaf 5600, by decide, rfl, rfl, ?_, ?_⟩
  · decide
  · exact ⟨5580, by decide, by decide⟩

end Qsdk.Dfs
