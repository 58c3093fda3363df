/-
**What the operations on a preCAC tree do to its counts.**

`PrecacTree.Counts C N` says that every node counts the subchannels it has in `C` (CAC done) and in
`N` (NOL). A walk to a subchannel changes the counts of exactly the nodes that have it
(`Counts.along`). Each operation then does to the counts what it is meant to do to the sets, as long
as the subchannel is in the set that the operation takes it from and not in the one it adds it to.
-/

import Qsdk.Dfs.PrecacTree

namespace Qsdk.Dfs

/-! ### Counting the elements of a set -/

/-- How many of the subchannels are in the set. -/
def within (subchannels : List Nat) (set : Finset Nat) : Nat :=
    subchannels.countP fun freq => freq ∈ set

variable {subchannels : List Nat} {set : Finset Nat} {freq : Nat}

theorem within_congr {other : Finset Nat} (same : ∀ freq ∈ subchannels, freq ∈ set ↔ freq ∈ other) :
    within subchannels set = within subchannels other := by
  refine List.countP_congr fun freq member => ?_
  simpa using same freq member

theorem within_le_length : within subchannels set ≤ subchannels.length := List.countP_le_length

theorem within_eq_length : within subchannels set = subchannels.length ↔
    ∀ freq ∈ subchannels, freq ∈ set := by
  unfold within
  rw [List.countP_eq_length]
  simp

theorem within_eq_zero : within subchannels set = 0 ↔ ∀ freq ∈ subchannels, freq ∉ set := by
  unfold within
  rw [List.countP_eq_zero]
  simp

/-- An element that is in no list is not counted; one that is in the list is counted once. -/
theorem within_insert (nodup : subchannels.Nodup) (member : freq ∈ subchannels) (new : freq ∉ set) :
    within subchannels (insert freq set) = within subchannels set + 1 := by
  induction subchannels with
  | nil => cases member
  | cons head rest ih =>
    obtain ⟨notIn, nodup⟩ := List.nodup_cons.mp nodup
    unfold within at ih ⊢
    rw [List.countP_cons, List.countP_cons]
    rcases List.mem_cons.mp member with rfl | inRest
    · have others : within rest (insert freq set) = within rest set := by
        refine within_congr fun other inRest => ?_
        rw [Finset.mem_insert]
        exact ⟨fun either => either.resolve_left fun same => notIn (same ▸ inRest), .inr⟩
      unfold within at others
      rw [others]
      simp [new]
    · have different : head ≠ freq := fun same => notIn (same ▸ inRest)
      rw [ih nodup inRest]
      simp only [decide_eq_true_eq, Finset.mem_insert, different, false_or]
      omega

theorem within_erase (nodup : subchannels.Nodup) (member : freq ∈ subchannels) (old : freq ∈ set) :
    within subchannels (set.erase freq) + 1 = within subchannels set := by
  rw [← within_insert nodup member (Finset.notMem_erase freq set), Finset.insert_erase old]

theorem within_lt_length (member : freq ∈ subchannels) (out : freq ∉ set) :
    within subchannels set < subchannels.length := by
  refine lt_of_le_of_ne within_le_length fun all => ?_
  exact out (within_eq_length.mp all freq member)

theorem within_pos (member : freq ∈ subchannels) (isIn : freq ∈ set) :
    0 < within subchannels set := by
  refine Nat.pos_of_ne_zero fun none => ?_
  exact within_eq_zero.mp none freq member isIn

namespace PrecacTree

/-- Every node counts the subchannels it has in the two sets. -/
def Counts (cacDone nol : Finset Nat) : PrecacTree → Prop
  | nil => True
  | node root left right =>
    (root.nCacedSubchs = within (node root left right).subchannels cacDone ∧
      root.nNolSubchs = within (node root left right).subchannels nol) ∧
    left.Counts cacDone nol ∧ right.Counts cacDone nol

variable {root : PrecacTreeNode} {left right tree : PrecacTree}
    {cacDone nol cacDone' nol' : Finset Nat}

/-- The counts depend on the subchannels of the tree only. -/
theorem Counts.congr (counts : tree.Counts cacDone nol)
    (same : ∀ freq ∈ tree.subchannels, (freq ∈ cacDone ↔ freq ∈ cacDone') ∧
        (freq ∈ nol ↔ freq ∈ nol')) :
    tree.Counts cacDone' nol' := by
  induction tree with
  | nil => trivial
  | node root left right ihLeft ihRight =>
    obtain ⟨⟨caced, noled⟩, countsLeft, countsRight⟩ := counts
    refine ⟨⟨?_, ?_⟩, ihLeft countsLeft ?_, ihRight countsRight ?_⟩
    · rw [caced]
      exact within_congr fun freq member => (same freq member).1
    · rw [noled]
      exact within_congr fun freq member => (same freq member).2
    · intro freq inLeft
      exact same freq (by simp [subchannels, inLeft])
    · intro freq inRight
      exact same freq (by simp [subchannels, inRight])

theorem Counts.empty (tree : PrecacTree) : tree.cleared.Counts ∅ ∅ := by
  induction tree with
  | nil => trivial
  | node root left right ihLeft ihRight =>
    refine ⟨⟨?_, ?_⟩, ihLeft, ihRight⟩ <;>
      exact (within_eq_zero.mpr fun freq _ => Finset.notMem_empty freq).symm

/-- What a step of a walk to `freq` has to do to a node that has the subchannels `subchannels`: its
counts change as the sets do. -/
def Follows (visit : PrecacTreeNode → Option PrecacTreeNode)
    (cacDone nol cacDone' nol' : Finset Nat) (freq : Nat) :
    Prop :=
  ∀ (root : PrecacTreeNode) (subchannels : List Nat), subchannels.Nodup → freq ∈ subchannels →
    getNumSubchansForBw root.depth root.chFreq root.bandwidth = subchannels.length →
    subchannels.length ≤ nSubchsForBandwidth root.bandwidth →
    root.nCacedSubchs = within subchannels cacDone → root.nNolSubchs = within subchannels nol →
    visit root = some { root with
      nCacedSubchs := within subchannels cacDone', nNolSubchs := within subchannels nol' }

/-- **A walk to a subchannel changes the counts of the nodes that have it, and no others.** -/
theorem Counts.along {visit : PrecacTreeNode → Option PrecacTreeNode}
    (counts : tree.Counts cacDone nol) (formed : tree.Formed) (member : freq ∈ tree.subchannels)
    (others : ∀ other, other ≠ freq → (other ∈ cacDone ↔ other ∈ cacDone') ∧
      (other ∈ nol ↔ other ∈ nol'))
    (follows : Follows visit cacDone nol cacDone' nol' freq) :
    (tree.along freq visit).Counts cacDone' nol' ∧ (tree.along freq visit).subchannels =
        tree.subchannels := by
  induction tree with
  | nil => cases member
  | node root left right ihLeft ihRight =>
    obtain ⟨⟨caced, noled⟩, countsLeft, countsRight⟩ := counts
    have nodup := formed.nodup
    have sides := formed.sides member
    obtain ⟨-, -, ⟨valid, number, atMost⟩, formedLeft, formedRight⟩ := formed
    have visited := follows root _ nodup member (number.trans valid) (valid ▸ atMost) caced noled
    rcases sides with ⟨own, is20, rfl, rfl⟩ | ⟨different, below, inLeft, notRight⟩ | ⟨different,
      above, inRight, notLeft⟩
    · rw [PrecacTree.along, visited]
      dsimp only
      rw [if_neg (by omega), PrecacTree.along]
      exact ⟨⟨⟨rfl, rfl⟩, trivial, trivial⟩, rfl⟩
    · obtain ⟨newLeft, sameLeft⟩ := ihLeft countsLeft formedLeft inLeft
      rw [PrecacTree.along, visited]
      dsimp only
      rw [if_pos below]
      have same : (node { root with
          nCacedSubchs := within (node root left right).subchannels cacDone'
          nNolSubchs := within (node root left right).subchannels nol' }
            (left.along freq visit) right).subchannels =
            (node root left right).subchannels := by
        simp only [subchannels, sameLeft]
      refine ⟨⟨⟨?_, ?_⟩, newLeft, ?_⟩, same⟩
      · rw [same]
      · rw [same]
      · exact countsRight.congr fun other inRight => others other fun isFreq =>
          notRight (isFreq ▸ inRight)
    · obtain ⟨newRight, sameRight⟩ := ihRight countsRight formedRight inRight
      rw [PrecacTree.along, visited]
      dsimp only
      rw [if_neg above]
      have same : (node { root with
          nCacedSubchs := within (node root left right).subchannels cacDone'
          nNolSubchs := within (node root left right).subchannels nol' } left
            (right.along freq visit)).subchannels =
            (node root left right).subchannels := by
        simp only [subchannels, sameRight]
      refine ⟨⟨⟨?_, ?_⟩, ?_, newRight⟩, same⟩
      · rw [same]
      · rw [same]
      · exact countsLeft.congr fun other inLeft => others other fun isFreq =>
          notLeft (isFreq ▸ inLeft)

theorem insert_others (set : Finset Nat) {freq other : Nat} (different : other ≠ freq) :
    other ∈ set ↔ other ∈ insert freq set := by
  simp [different]

theorem erase_others (set : Finset Nat) {freq other : Nat} (different : other ≠ freq) :
    other ∈ set ↔ other ∈ set.erase freq := by
  simp [different]

/-! ### The operations -/

/-- The check that a subchannel is CAC done already is right. -/
theorem Counts.isMarkedAsCac (counts : tree.Counts cacDone nol) (formed : tree.Formed)
    (member : freq ∈ tree.subchannels) : tree.isMarkedAsCac freq = true ↔ freq ∈ cacDone := by
  induction tree with
  | nil => cases member
  | node root left right ihLeft ihRight =>
    obtain ⟨⟨caced, -⟩, countsLeft, countsRight⟩ := counts
    rw [PrecacTree.isMarkedAsCac]
    by_cases none : root.nCacedSubchs = 0
    · rw [if_pos none]
      rw [none] at caced
      have out := within_eq_zero.mp caced.symm freq member
      simp [out]
    · rw [if_neg none]
      have sides := formed.sides member
      obtain ⟨-, -, -, formedLeft, formedRight⟩ := formed
      rcases sides with ⟨own, is20, rfl, rfl⟩ | ⟨different, below, inLeft, -⟩ | ⟨different,
        above, inRight, -⟩
      · rw [if_pos own]
        have single : (node root nil nil).subchannels = [freq] := by
          simp [subchannels, is20, own]
        rw [single] at caced
        by_contra out
        refine none (caced.trans (within_eq_zero.mpr fun other isFreq => ?_))
        rw [List.mem_singleton.mp isFreq]
        simpa using out
      · rw [if_neg different, if_pos below]
        exact ihLeft countsLeft formedLeft inLeft
      · rw [if_neg different, if_neg above]
        exact ihRight countsRight formedRight inRight

theorem Counts.markAsCacDone (counts : tree.Counts cacDone nol) (formed : tree.Formed)
    (member : freq ∈ tree.subchannels) : (tree.markAsCacDone freq).Counts
        (insert freq cacDone) nol := by
  unfold PrecacTree.markAsCacDone
  have isMarked := counts.isMarkedAsCac formed member
  by_cases done : freq ∈ cacDone
  · rw [if_pos (isMarked.mpr done), Finset.insert_eq_of_mem done]
    exact counts
  · rw [if_neg fun marked => done (isMarked.mp marked)]
    refine (counts.along formed member
      (fun other different => ⟨insert_others _ different, Iff.rfl⟩) ?_).1
    intro root subchannels nodup isIn number atMost caced noled
    have lt := within_lt_length isIn done
    dsimp only
    rw [if_pos (by omega), within_insert nodup isIn done, caced, ← noled]

theorem Counts.unmarkAsCacDone (counts : tree.Counts cacDone nol) (formed : tree.Formed)
    (member : freq ∈ tree.subchannels) (done : freq ∈ cacDone) :
    (tree.unmarkAsCacDone freq).Counts (cacDone.erase freq) nol := by
  refine (counts.along formed member
    (fun other different => ⟨erase_others _ different, Iff.rfl⟩) ?_).1
  intro root subchannels nodup isIn number atMost caced noled
  have pos := within_pos isIn done
  have less := within_erase nodup isIn done
  dsimp only
  rw [if_pos (by omega), ← noled, show root.nCacedSubchs - 1 =
    within subchannels (cacDone.erase freq) by omega]

theorem Counts.unmarkAsNol (counts : tree.Counts cacDone nol) (formed : tree.Formed)
    (member : freq ∈ tree.subchannels) (noled : freq ∈ nol) :
    (tree.unmarkAsNol freq).Counts cacDone (nol.erase freq) := by
  refine (counts.along formed member
    (fun other different => ⟨Iff.rfl, erase_others _ different⟩) ?_).1
  intro root subchannels nodup isIn number atMost caced noleds
  have pos := within_pos isIn noled
  have less := within_erase nodup isIn noled
  dsimp only
  rw [if_pos (by omega), ← caced, show root.nNolSubchs - 1 =
    within subchannels (nol.erase freq) by omega]

/-- The walk to a subchannel that is not in NOL comes to it, and finds it CAC done if it is. -/
theorem Counts.findsCaced (counts : tree.Counts cacDone nol) (formed : tree.Formed)
    (member : freq ∈ tree.subchannels) (notNol : freq ∉ nol) : tree.findsCaced freq = true ↔
        freq ∈ cacDone := by
  induction tree with
  | nil => cases member
  | node root left right ihLeft ihRight =>
    obtain ⟨⟨caced, noled⟩, countsLeft, countsRight⟩ := counts
    have sides := formed.sides member
    obtain ⟨-, -, ⟨valid, -, atMost⟩, formedLeft, formedRight⟩ := formed
    have lt := within_lt_length member notNol
    have room : root.nNolSubchs < nSubchsForBandwidth root.bandwidth := by omega
    rw [PrecacTree.findsCaced, decide_eq_true room, Bool.true_and]
    rcases sides with ⟨own, is20, rfl, rfl⟩ | ⟨different, below, inLeft, -⟩ | ⟨different,
      above, inRight, -⟩
    · have single : (node root nil nil).subchannels = [freq] := by
        simp [subchannels, is20, own]
      rw [single] at caced
      have onlyOwn :
        (if freq < root.chFreq then PrecacTree.findsCaced freq nil else
          PrecacTree.findsCaced freq nil) =
          false := by
        split <;> rfl
      rw [onlyOwn, Bool.or_false, decide_eq_true_eq]
      refine ⟨fun both => ?_, fun done => ⟨own.symm, ?_⟩⟩
      · by_contra out
        refine both.2 (caced.trans (within_eq_zero.mpr fun other isFreq => ?_))
        rw [List.mem_singleton.mp isFreq]
        exact out
      · have := within_pos (List.mem_singleton.mpr rfl) done
        omega
    · rw [decide_eq_false fun both => different both.1.symm, Bool.false_or, if_pos below]
      exact ihLeft countsLeft formedLeft inLeft
    · rw [decide_eq_false fun both => different both.1.symm, Bool.false_or, if_neg above]
      exact ihRight countsRight formedRight inRight

theorem Counts.markAsNol (counts : tree.Counts cacDone nol) (formed : tree.Formed)
    (member : freq ∈ tree.subchannels) (notNol : freq ∉ nol) :
    (tree.markAsNol freq).Counts (cacDone.erase freq) (insert freq nol) := by
  have finds := counts.findsCaced formed member notNol
  have walk :
      (tree.along freq fun root => if root.nNolSubchs < nSubchsForBandwidth root.bandwidth then
      some { root with nNolSubchs := root.nNolSubchs + 1 } else none).Counts cacDone
        (insert freq nol) ∧
        (tree.along freq fun root => if root.nNolSubchs < nSubchsForBandwidth root.bandwidth then
          some { root with nNolSubchs := root.nNolSubchs + 1 } else none).subchannels =
              tree.subchannels := by
    refine counts.along formed member
      (fun other different => ⟨Iff.rfl, insert_others _ different⟩) ?_
    intro root subchannels nodup isIn number atMost caced noled
    have lt := within_lt_length isIn notNol
    dsimp only
    rw [if_pos (by omega), within_insert nodup isIn notNol, ← caced, noled]
  obtain ⟨marked, sameSubchannels⟩ := walk
  unfold PrecacTree.markAsNol
  dsimp only
  by_cases done : freq ∈ cacDone
  · rw [if_pos (finds.mpr done)]
    refine marked.unmarkAsCacDone ?_ (sameSubchannels ▸ member) done
    rw [← cleared_formed, cleared_along ?_ tree, cleared_formed]
    · exact formed
    · intro root changed visited
      split at visited
      · cases visited
        rfl
      · cases visited
  · rw [if_neg fun found => done (finds.mp found), Finset.erase_eq_of_notMem done]
    exact marked

/-! ### Operations that change nothing -/

/-- The tree has no room for another subchannel in NOL. -/
def NolFull : PrecacTree → Prop
  | nil => True
  | node root _ _ => nSubchsForBandwidth root.bandwidth ≤ root.nNolSubchs

instance decidableNolFull : (tree : PrecacTree) → Decidable tree.NolFull
  | nil => inferInstanceAs (Decidable True)
  | node root _ _ =>
    inferInstanceAs (Decidable (nSubchsForBandwidth root.bandwidth ≤ root.nNolSubchs))

theorem markAsNol_of_full (full : tree.NolFull) : tree.markAsNol freq = tree := by
  cases tree with
  | nil => rfl
  | node root left right =>
    have noRoom : ¬root.nNolSubchs < nSubchsForBandwidth root.bandwidth := Nat.not_lt.mpr full
    unfold markAsNol
    rw [findsCaced, PrecacTree.along, decide_eq_false noRoom, Bool.false_and, if_neg noRoom]
    rfl

theorem Counts.unmarkAsCacDone_of_none (counts : tree.Counts cacDone nol)
    (none : ∀ other ∈ tree.subchannels, other ∉ cacDone) : tree.unmarkAsCacDone freq = tree := by
  cases tree with
  | nil => rfl
  | node root left right =>
    have zero : root.nCacedSubchs = 0 := counts.1.1.trans (within_eq_zero.mpr none)
    unfold PrecacTree.unmarkAsCacDone
    rw [PrecacTree.along]
    simp only [zero, ne_eq, not_true_eq_false, if_false]

theorem Counts.unmarkAsNol_of_none (counts : tree.Counts cacDone nol)
    (none : ∀ other ∈ tree.subchannels, other ∉ nol) : tree.unmarkAsNol freq = tree := by
  cases tree with
  | nil => rfl
  | node root left right =>
    have zero : root.nNolSubchs = 0 := counts.1.2.trans (within_eq_zero.mpr none)
    unfold PrecacTree.unmarkAsNol
    rw [PrecacTree.along]
    simp only [zero, ne_eq, not_true_eq_false, if_false]

/-! ### The done check -/

/-- `part` is a part of the tree, so many levels below its root. -/
inductive Below (part : PrecacTree) : Nat → PrecacTree → Prop
  | here : Below part 0 part
  | left {level root left right} : Below part level left →
    Below part (level + 1) (node root left right)
  | right {level root left right} : Below part level right →
    Below part (level + 1) (node root left right)

theorem Below.counts {part : PrecacTree} {level : Nat} (below : Below part level tree)
    (counts : tree.Counts cacDone nol) : part.Counts cacDone nol := by
  induction below with
  | here => exact counts
  | left _ ih => exact ih counts.2.1
  | right _ ih => exact ih counts.2.2

theorem Below.freq_mem {level : Nat} (below : Below (node root left right) level tree) :
    root.chFreq ∈ tree.freqs := by
  induction below with
  | here => exact List.mem_cons_self
  | left _ ih => exact List.mem_cons_of_mem _ (List.mem_append_left _ ih)
  | right _ ih => exact List.mem_cons_of_mem _ (List.mem_append_right _ ih)

/-- The done check of a node's frequency compares the count of this node with what it started from,
halved at each level. -/
theorem Below.findCacStatusFrom {level : Nat} (below : Below (node root left right) level tree)
    (formed : tree.Formed) (nCurLvlSubchs : Nat) :
    tree.findCacStatusFrom root.chFreq nCurLvlSubchs =
        decide (root.nCacedSubchs = nCurLvlSubchs / 2 ^ level) := by
  induction below generalizing nCurLvlSubchs with
  | here =>
    rw [PrecacTree.findCacStatusFrom, if_pos rfl, Nat.pow_zero, Nat.div_one]
  | left inner ih =>
    obtain ⟨⟨below, -⟩, -, -, formedLeft, -⟩ := formed
    have lt := below _ inner.freq_mem
    rw [PrecacTree.findCacStatusFrom, if_neg (by omega), if_pos lt, ih formedLeft,
      Nat.div_div_eq_div_mul, Nat.pow_succ']
  | right inner ih =>
    obtain ⟨⟨-, above⟩, -, -, -, formedRight⟩ := formed
    have lt := above _ inner.freq_mem
    rw [PrecacTree.findCacStatusFrom, if_neg (by omega), if_neg (by omega), ih formedRight,
      Nat.div_div_eq_div_mul,
      Nat.pow_succ']

/-- Each level halves the number of subchannels. -/
def Halving : Nat → PrecacTree → Prop
  | _, nil => True
  | number, node root left right =>
    (node root left right).subchannels.length = number ∧ left.Halving (number / 2) ∧
      right.Halving (number / 2)

instance decidableHalving : (number : Nat) → (tree : PrecacTree) → Decidable (tree.Halving number)
  | _, nil => inferInstanceAs (Decidable True)
  | number, node root left right =>
    have := decidableHalving (number / 2) left
    have := decidableHalving (number / 2) right
    inferInstanceAs
    (Decidable ((node root left right).subchannels.length = number ∧ left.Halving (number / 2) ∧
      right.Halving (number / 2)))

theorem Below.length_subchannels {level number : Nat}
    (below : Below (node root left right) level tree) (halving : tree.Halving number) :
        (node root left right).subchannels.length = number / 2 ^ level := by
  induction below generalizing number with
  | here =>
    rw [Nat.pow_zero, Nat.div_one]
    exact halving.1
  | left _ ih => rw [ih halving.2.1, Nat.div_div_eq_div_mul, Nat.pow_succ']
  | right _ ih => rw [ih halving.2.2, Nat.div_div_eq_div_mul, Nat.pow_succ']

end PrecacTree

end Qsdk.Dfs
