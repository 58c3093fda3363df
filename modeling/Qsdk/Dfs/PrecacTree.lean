/-
**The tree of a preCAC entry, and what counts along a path do to it.**

Every operation of the source goes from the root of the tree to the subchannel that it is about and
changes one count of each node it passes (`PrecacTree.along`). In a tree that is `Formed`, the nodes
it passes are those that have the subchannel, so the counts stay the numbers of subchannels in two
sets (`PrecacTree.Counts`) if each step on the way does what the sets do.
-/

import Mathlib.Data.Finset.Basic
import Mathlib.Data.List.Nodup
import Mathlib.Algebra.Group.Nat.Defs

namespace Qsdk.Dfs

/-- `struct precac_tree_node`, without its children. -/
structure PrecacTreeNode where
  chFreq : Nat
  nCacedSubchs : Nat
  nNolSubchs : Nat
  nValidSubchs : Nat
  bandwidth : Nat
  depth : Nat
  deriving DecidableEq, Repr

/-- The preCAC BSTree. -/
inductive PrecacTree where
  | nil
  | node (root : PrecacTreeNode) (leftChild rightChild : PrecacTree)
  deriving DecidableEq, Repr

/-- `N_SUBCHS_FOR_BANDWIDTH`, with `MIN_DFS_SUBCHAN_BW` being 20. -/
def nSubchsForBandwidth (bandwidth : Nat) : Nat := bandwidth / 20

/-- `dfs_get_num_subchans_for_bw`: the node of the 240 MHz channel, and the right one below it, have
fewer subchannels than their bandwidth says. -/
def getNumSubchansForBw (depth freq bandwidth : Nat) : Nat :=
  if freq = 5650 ∧ bandwidth = 320 then nSubchsForBandwidth 240
  else if freq = 5730 ∧ bandwidth = 160 ∧ depth = 1 then nSubchsForBandwidth 80
  else nSubchsForBandwidth bandwidth

/-- `dfs_init_precac_tree_node_for_freq`. -/
def initPrecacTreeNode (freq bandwidth depth : Nat) : PrecacTreeNode :=
  ⟨freq, 0, 0, getNumSubchansForBw depth freq bandwidth, bandwidth, depth⟩

namespace PrecacTree

/-- The insertion of `dfs_insert_node_into_bstree_for_freq`, for a node that could be allocated. -/
def insertNode (new : PrecacTreeNode) : PrecacTree → PrecacTree
  | nil => node new nil nil
  | node root left right =>
    if new.chFreq < root.chFreq then node root (left.insertNode new) right
    else node root left (right.insertNode new)

/-- The loop that all operations share: from the root on, `dfs_descend_precac_tree_for_freq` leads
to the next node, until there is none or the visited node ends the loop. -/
def along (freq : Nat) (visit : PrecacTreeNode → Option PrecacTreeNode) : PrecacTree → PrecacTree
  | nil => nil
  | node root left right =>
    match visit root with
    | none => node root left right
    | some changed =>
      if freq < root.chFreq then node changed (left.along freq visit) right
      else node changed left (right.along freq visit)

/-- `dfs_is_tree_node_marked_as_cac_for_freq`. -/
def isMarkedAsCac (freq : Nat) : PrecacTree → Bool
  | nil => false
  | node root left right =>
    if root.nCacedSubchs = 0 then false
    else if root.chFreq = freq then true
    else if freq < root.chFreq then left.isMarkedAsCac freq
    else right.isMarkedAsCac freq

/-- `dfs_mark_tree_node_as_cac_done_for_freq`. -/
def markAsCacDone (freq : Nat) (tree : PrecacTree) : PrecacTree :=
  if tree.isMarkedAsCac freq then tree
  else tree.along freq fun root =>
    some (if root.nCacedSubchs < getNumSubchansForBw root.depth root.chFreq root.bandwidth then
      { root with nCacedSubchs := root.nCacedSubchs + 1 } else root)

/-- `dfs_unmark_tree_node_as_cac_done_for_freq`. -/
def unmarkAsCacDone (freq : Nat) (tree : PrecacTree) : PrecacTree :=
  tree.along freq fun root =>
    if root.nCacedSubchs ≠ 0 then some { root with nCacedSubchs := root.nCacedSubchs - 1 } else none

/-- `dfs_unmark_tree_node_as_nol_for_freq`. -/
def unmarkAsNol (freq : Nat) (tree : PrecacTree) : PrecacTree :=
  tree.along freq fun root =>
    if root.nNolSubchs ≠ 0 then some { root with nNolSubchs := root.nNolSubchs - 1 } else none

/-- Whether the loop of `dfs_mark_tree_node_as_nol_for_freq`, before it meets a node that is at its
maximum, comes to the node of the frequency and finds it CAC done. -/
def findsCaced (freq : Nat) : PrecacTree → Bool
  | nil => false
  | node root left right =>
    decide (root.nNolSubchs < nSubchsForBandwidth root.bandwidth) &&
      (decide (freq = root.chFreq ∧ root.nCacedSubchs ≠ 0) ||
        if freq < root.chFreq then left.findsCaced freq else right.findsCaced freq)

/-- `dfs_mark_tree_node_as_nol_for_freq`. The CAC done status is removed inside of the loop there;
it is removed after the loop here, because it changes no count that the loop goes by and one node
only has the frequency. -/
def markAsNol (freq : Nat) (tree : PrecacTree) : PrecacTree :=
  let marked := tree.along freq fun root =>
    if root.nNolSubchs < nSubchsForBandwidth root.bandwidth then
      some { root with nNolSubchs := root.nNolSubchs + 1 } else none
  if tree.findsCaced freq then marked.unmarkAsCacDone freq else marked

/-- The loop of `dfs_find_cac_status_for_chan_for_freq`, with `n_cur_lvl_subchs`. -/
def findCacStatusFrom (freq : Nat) : Nat → PrecacTree → Bool
  | _, nil => false
  | nCurLvlSubchs, node root left right =>
    if root.chFreq = freq then decide (root.nCacedSubchs = nCurLvlSubchs)
    else if freq < root.chFreq then left.findCacStatusFrom freq (nCurLvlSubchs / 2)
    else right.findCacStatusFrom freq (nCurLvlSubchs / 2)

/-- `dfs_find_cac_status_for_chan_for_freq`, on the tree of an entry. -/
def findCacStatus (freq : Nat) : PrecacTree → Bool
  | nil => false
  | node root left right => (node root left right).findCacStatusFrom freq root.nValidSubchs

/-! ### Well-formed trees -/

/-- The 20 MHz subchannels of a tree. -/
def subchannels : PrecacTree → List Nat
  | nil => []
  | node root left right =>
    (if root.bandwidth = 20 then [root.chFreq] else []) ++ (left.subchannels ++ right.subchannels)

/-- The frequencies of all nodes. -/
def freqs : PrecacTree → List Nat
  | nil => []
  | node root left right => root.chFreq :: (left.freqs ++ right.freqs)

/-- A search tree whose nodes count their subchannels rightly. -/
def Formed : PrecacTree → Prop
  | nil => True
  | node root left right =>
    ((∀ freq ∈ left.freqs, freq < root.chFreq) ∧ (∀ freq ∈ right.freqs, root.chFreq < freq)) ∧
    (root.bandwidth = 20 → left = nil ∧ right = nil) ∧
    (root.nValidSubchs = (node root left right).subchannels.length ∧
      getNumSubchansForBw root.depth root.chFreq root.bandwidth = root.nValidSubchs ∧
      root.nValidSubchs ≤ nSubchsForBandwidth root.bandwidth) ∧
    left.Formed ∧ right.Formed

instance decidableFormed : (tree : PrecacTree) → Decidable tree.Formed
  | nil => inferInstanceAs (Decidable True)
  | node root left right =>
    have := decidableFormed left
    have := decidableFormed right
    inferInstanceAs (Decidable (((∀ freq ∈ left.freqs, freq < root.chFreq) ∧
      (∀ freq ∈ right.freqs, root.chFreq < freq)) ∧
      (root.bandwidth = 20 → left = nil ∧ right = nil) ∧
      (root.nValidSubchs = (node root left right).subchannels.length ∧
        getNumSubchansForBw root.depth root.chFreq root.bandwidth = root.nValidSubchs ∧
        root.nValidSubchs ≤ nSubchsForBandwidth root.bandwidth) ∧ left.Formed ∧ right.Formed))

theorem subchannels_subset (tree : PrecacTree) : tree.subchannels ⊆ tree.freqs := by
  induction tree with
  | nil => exact List.Subset.refl _
  | node root left right ihLeft ihRight =>
    intro freq member
    simp only [subchannels, List.mem_append, freqs, List.mem_cons] at member ⊢
    rcases member with own | inLeft | inRight
    · split_ifs at own with narrow
      · exact .inl (by simpa using own)
      · simp at own
    · exact .inr (.inl (ihLeft inLeft))
    · exact .inr (.inr (ihRight inRight))

variable {root : PrecacTreeNode} {left right tree : PrecacTree} {freq : Nat}

theorem Formed.nodup (formed : tree.Formed) : tree.subchannels.Nodup := by
  induction tree with
  | nil => exact List.nodup_nil
  | node root left right ihLeft ihRight =>
    obtain ⟨⟨below, above⟩, narrow, -, formedLeft, formedRight⟩ := formed
    rw [subchannels]
    split_ifs with is20
    · obtain ⟨rfl, rfl⟩ := narrow is20
      simp [subchannels]
    · rw [List.nil_append, List.nodup_append]
      refine ⟨ihLeft formedLeft, ihRight formedRight, ?_⟩
      intro freq inLeft other inRight
      have := below freq (subchannels_subset left inLeft)
      have := above other (subchannels_subset right inRight)
      omega

/-- Where a subchannel of a tree is: it is the root, with no children, or on the side that the
descent goes to. -/
theorem Formed.sides (formed : (node root left right).Formed)
    (member : freq ∈ (node root left right).subchannels) :
    (root.chFreq = freq ∧ root.bandwidth = 20 ∧ left = nil ∧ right = nil) ∨
      (root.chFreq ≠ freq ∧ freq < root.chFreq ∧ freq ∈ left.subchannels ∧
        freq ∉ right.subchannels) ∨
      (root.chFreq ≠ freq ∧ ¬freq < root.chFreq ∧ freq ∈ right.subchannels ∧
          freq ∉ left.subchannels) := by
  obtain ⟨⟨below, above⟩, narrow, -, -, -⟩ := formed
  have inLeft : freq ∈ left.subchannels → freq < root.chFreq :=
    fun inLeft => below freq (subchannels_subset left inLeft)
  have inRight : freq ∈ right.subchannels → root.chFreq < freq :=
    fun inRight => above freq (subchannels_subset right inRight)
  rw [subchannels, List.mem_append, List.mem_append] at member
  rcases member with own | isLeft | isRight
  · split_ifs at own with is20
    · exact .inl ⟨(List.mem_singleton.mp own).symm, is20, narrow is20⟩
    · simp at own
  · have := inLeft isLeft
    exact .inr (.inl ⟨by omega, this, isLeft, fun isRight => by have := inRight isRight; omega⟩)
  · have := inRight isRight
    exact .inr (.inr ⟨by omega, by omega, isRight, fun isLeft => by have := inLeft isLeft; omega⟩)

/-! ### The counts do not make the shape -/

/-- A tree with all counts at zero, as it is created. -/
def cleared : PrecacTree → PrecacTree
  | nil => nil
  | node root left right => node
    { root with nCacedSubchs := 0, nNolSubchs := 0 } left.cleared right.cleared

@[simp]
theorem cleared_subchannels (tree : PrecacTree) : tree.cleared.subchannels = tree.subchannels := by
  induction tree with
  | nil => rfl
  | node root left right ihLeft ihRight => simp only [cleared, subchannels, ihLeft, ihRight]

@[simp]
theorem cleared_freqs (tree : PrecacTree) : tree.cleared.freqs = tree.freqs := by
  induction tree with
  | nil => rfl
  | node root left right ihLeft ihRight => simp only [cleared, freqs, ihLeft, ihRight]

theorem cleared_eq_nil : tree.cleared = nil ↔ tree = nil := by
  cases tree <;> simp [cleared]

@[simp]
theorem cleared_formed (tree : PrecacTree) : tree.cleared.Formed ↔ tree.Formed := by
  induction tree with
  | nil => exact Iff.rfl
  | node root left right ihLeft ihRight =>
    have length := congrArg List.length (cleared_subchannels (node root left right))
    simp only [cleared] at length
    simp only [cleared, Formed, cleared_freqs, cleared_eq_nil, ihLeft, ihRight, length]

theorem cleared_along {visit : PrecacTreeNode → Option PrecacTreeNode}
    (counts : ∀ root changed, visit root = some changed →
      { changed with nCacedSubchs := 0, nNolSubchs := 0 } =
      { root with nCacedSubchs := 0, nNolSubchs := 0 })
    (tree : PrecacTree) : (tree.along freq visit).cleared = tree.cleared := by
  induction tree with
  | nil => rfl
  | node root left right ihLeft ihRight =>
    rw [along]
    split
    · rfl
    · rename_i changed visited
      split_ifs <;> simp only [cleared, ihLeft, ihRight, counts root changed visited]

theorem cleared_markAsCacDone (freq : Nat) (tree : PrecacTree) :
    (tree.markAsCacDone freq).cleared = tree.cleared := by
  unfold markAsCacDone
  split
  · rfl
  · refine cleared_along ?_ tree
    rintro root changed ⟨⟩
    split <;> rfl

theorem cleared_unmarkAsCacDone (freq : Nat) (tree : PrecacTree) :
    (tree.unmarkAsCacDone freq).cleared = tree.cleared := by
  refine cleared_along ?_ tree
  intro root changed visited
  split at visited
  · cases visited
    rfl
  · cases visited

theorem cleared_unmarkAsNol (freq : Nat) (tree : PrecacTree) :
    (tree.unmarkAsNol freq).cleared = tree.cleared := by
  refine cleared_along ?_ tree
  intro root changed visited
  split at visited
  · cases visited
    rfl
  · cases visited

theorem cleared_markAsNol (freq : Nat) (tree : PrecacTree) : (tree.markAsNol freq).cleared =
    tree.cleared := by
  have marked : (tree.along freq fun root =>
      if root.nNolSubchs < nSubchsForBandwidth root.bandwidth then
        some { root with nNolSubchs := root.nNolSubchs + 1 } else none).cleared = tree.cleared := by
    refine cleared_along ?_ tree
    intro root changed visited
    split at visited
    · cases visited
      rfl
    · cases visited
  unfold markAsNol
  dsimp only
  split
  · rw [cleared_unmarkAsCacDone, marked]
  · exact marked

end PrecacTree

end Qsdk.Dfs
