/-
**The preCAC forest counts what is cleared and what is blocked.**

`precac_counts` puts together what is kept from `dfs_init_precac_list` on. A second radar hit on a
subchannel shows what goes wrong otherwise (`miscounted_second_hit`): the nodes above the subchannel
count it twice before its own node notices.
-/

import Qsdk.Dfs.PrecacRuns
import Mathlib.Data.List.Pairwise

namespace Qsdk.Dfs

variable {nonDfs : DfsChannelBw → Nat} {state : Tracked} {roots : List DfsChannelBw}

/-! ### The list as it is made -/

theorem Tracked.run_list (state : Tracked) (steps : List (SubchannelOp × Nat)) :
    (state.run steps).list = steps.foldl SubchannelOp.apply state.list := by
  induction steps generalizing state with
  | nil => rfl
  | cons step rest ih => exact ih (state.step step)

theorem Tracked.init_list (nonDfs : DfsChannelBw → Nat) (roots : List DfsChannelBw) :
    (Tracked.init nonDfs roots).list = initPrecacList nonDfs roots := by
  suffices fold : ∀ state : Tracked, (roots.foldl (Tracked.addRoot nonDfs) state).list =
      roots.foldl (Dfs.addRoot nonDfs) state.list from fold ⟨[], ∅, ∅⟩
  induction roots with
  | nil => exact fun _ => rfl
  | cons root roots ih =>
    intro state
    have one : (state.addRoot nonDfs root).list = Dfs.addRoot nonDfs state.list root := by
      unfold Tracked.addRoot Dfs.addRoot
      split
      · rfl
      · exact Tracked.run_list _ _
    rw [List.foldl_cons, ih, one, List.foldl_cons]

/-- Marking as CAC done puts nothing in NOL. -/
theorem Tracked.run_cacDone {steps : List (SubchannelOp × Nat)}
    (marks : ∀ step ∈ steps, step.1 = .cacDone) (none : state.nol = ∅) : state.Along steps ∧
        (state.run steps).nol = ∅ := by
  induction steps generalizing state with
  | nil => exact ⟨trivial, none⟩
  | cons step rest ih =>
    obtain ⟨op, freq⟩ := step
    obtain rfl : op = .cacDone := marks _ List.mem_cons_self
    obtain ⟨along, stays⟩ := @ih (state.step (.cacDone, freq))
      (fun next member => marks next (List.mem_cons_of_mem _ member)) none
    refine ⟨⟨?_, along⟩, stays⟩
    show freq ∉ state.nol
    rw [none]
    exact Finset.notMem_empty freq

theorem markPrecacDone_steps {priChFreq secChFreq : Nat} {chWidth : PhyChWidth} :
    ∀ step ∈ (Call.markPrecacDone priChFreq secChFreq chWidth).steps, step.1 = .cacDone := by
  intro step member
  rw [Call.steps] at member
  split at member
  · cases member
  · obtain ⟨freq, -, rfl⟩ := List.mem_map.mp member
    rfl

/-- The root channels of a list that is being made. -/
def MadeFrom (done : List DfsChannelBw) (list : List DfsPrecacEntry) : Prop :=
  ∀ entry ∈ list, ∃ root ∈ done, ∀ freq, entry.Holds freq → root.low < freq ∧ freq ≤ root.high

theorem MadeFrom.of_shape {done : List DfsChannelBw} {list other : List DfsPrecacEntry}
    (made : MadeFrom done list) (same : shape other = shape list) : MadeFrom done other := by
  intro entry member
  have inShape : { entry with treeRoot := entry.treeRoot.cleared } ∈ shape list :=
    same ▸ List.mem_map_of_mem member
  obtain ⟨old, isIn, equal⟩ := List.mem_map.mp inShape
  obtain ⟨center, bw, tree⟩ := DfsPrecacEntry.mk.inj equal
  obtain ⟨root, inDone, holds⟩ := made old isIn
  refine ⟨root, inDone, fun freq isHeld => holds freq ?_⟩
  have freqs : old.treeRoot.freqs = entry.treeRoot.freqs := by
    rw [← PrecacTree.cleared_freqs, tree, PrecacTree.cleared_freqs]
  unfold DfsPrecacEntry.Holds DfsPrecacEntry.isFreqWithinRange at isHeld ⊢
  rw [center, bw, freqs]
  exact isHeld

theorem shape_run (steps : List (SubchannelOp × Nat)) (state : Tracked) :
    shape (state.run steps).list = shape state.list := by
  induction steps generalizing state with
  | nil => rfl
  | cons step rest ih => exact (ih (state.step step)).trans (shape_apply state.list step)

/-- The entry of a new root channel, apart from the earlier ones, counts nothing yet. -/
theorem Tracked.Kept.addEntry (kept : state.Kept) {done : List DfsChannelBw} {root : DfsChannelBw}
    (made : MadeFrom done state.list) (isChannel : root.IsChannel)
    (apart : ∀ old ∈ done, old.Apart root) :
    ({ state with list := state.list ++ [createPrecacEntry root] } : Tracked).Kept := by
  have built := createPrecacEntry_built isChannel
  have holds : ∀ freq, (createPrecacEntry root).Holds freq → root.low < freq ∧
      freq ≤ root.high := by
    rintro freq (inRange | inTree)
    · exact built.own freq inRange
    · exact built.freqs freq inTree
  have across : ∀ entry ∈ state.list, ∀ freq,
      ¬(entry.Holds freq ∧ (createPrecacEntry root).Holds freq) := by
    intro entry member freq both
    obtain ⟨old, inDone, oldHolds⟩ := made entry member
    have := oldHolds freq both.1
    have := holds freq both.2
    rcases apart old inDone with below | above
    · omega
    · omega
  have fresh : ∀ freq ∈ (createPrecacEntry root).treeRoot.subchannels,
      freq ∉ subchannelsOf state.list := by
    intro freq isIn member
    obtain ⟨entry, inList, isOther⟩ := List.mem_flatMap.mp member
    exact across entry inList freq
      ⟨.inr (PrecacTree.subchannels_subset _ isOther), .inr (PrecacTree.subchannels_subset _ isIn)⟩
  refine ⟨?_, ?_, kept.disjoint, ?_, ?_⟩
  · intro entry member
    rcases List.mem_append.mp member with old | new
    · exact kept.formed entry old
    · rw [List.mem_singleton.mp new]
      exact ⟨built.formed, built.range, built.halving, built.nValid⟩
  · refine List.pairwise_append.mpr ⟨kept.apart, List.pairwise_singleton _ _, ?_⟩
    intro entry member new isNew
    rw [List.mem_singleton.mp isNew]
    exact across entry member
  · intro entry member
    rcases List.mem_append.mp member with old | new
    · exact kept.counts entry old
    · rw [List.mem_singleton.mp new]
      have none := PrecacTree.Counts.empty (createPrecacEntry root).treeRoot
      rw [built.cleared] at none
      refine none.congr fun freq isIn => ?_
      have out := fresh freq isIn
      have notDone : freq ∉ state.cacDone := fun isDone => out (kept.onList freq (.inl isDone))
      have notNol : freq ∉ state.nol := fun isNol => out (kept.onList freq (.inr isNol))
      simp [notDone, notNol]
  · intro freq either
    show freq ∈ subchannelsOf (state.list ++ [createPrecacEntry root])
    unfold subchannelsOf
    rw [List.flatMap_append]
    exact List.mem_append_left _ (kept.onList freq either)

/-- The shapes of the entries stay in the list as more root channels are added. -/
theorem shape_foldl_addRoot (roots : List DfsChannelBw) (state : Tracked) :
    shape state.list ⊆ shape (roots.foldl (Tracked.addRoot nonDfs) state).list := by
  induction roots generalizing state with
  | nil => exact List.Subset.refl _
  | cons root roots ih =>
    refine List.Subset.trans ?_ (ih (state.addRoot nonDfs root))
    unfold Tracked.addRoot
    split
    · exact List.Subset.refl _
    · rw [shape_run]
      intro entry member
      show entry ∈ shape (state.list ++ [createPrecacEntry root])
      unfold shape
      rw [List.map_append]
      exact List.mem_append_left _ member

/-- **The list that `dfs_init_precac_list` makes counts rightly.** -/
theorem Tracked.init_kept (channels : ∀ root ∈ roots, root.IsChannel)
    (apart : roots.Pairwise DfsChannelBw.Apart)
    (onRaster : ∀ root ∈ roots, ∀ step ∈ (Call.markPrecacDone (nonDfs root) 0 .width80).steps,
      OnRaster (initPrecacList nonDfs roots) step.2) : (Tracked.init nonDfs roots).Kept := by
  rw [← Tracked.init_list] at onRaster
  unfold Tracked.init at onRaster ⊢
  suffices fold : ∀ (done : List DfsChannelBw) (state : Tracked), state.Kept → state.nol = ∅ →
      MadeFrom done state.list → (done ++ roots).Pairwise DfsChannelBw.Apart →
      (∀ root ∈ roots, ∀ step ∈ (Call.markPrecacDone (nonDfs root) 0 .width80).steps,
        OnRaster (roots.foldl (Tracked.addRoot nonDfs) state).list step.2) →
        (roots.foldl (Tracked.addRoot nonDfs) state).Kept by
    refine fold [] ⟨[], ∅, ∅⟩ ⟨?_, List.Pairwise.nil, Finset.disjoint_empty_left _, ?_, ?_⟩ rfl ?_
      apart onRaster
    · exact fun _ member => by cases member
    · exact fun _ member => by cases member
    · rintro freq (inEmpty | inEmpty) <;> cases inEmpty
    · exact fun _ member => by cases member
  clear onRaster apart
  induction roots with
  | nil => exact fun _ _ kept _ _ _ _ => kept
  | cons root roots ih =>
    intro done state kept noNol made apart onRaster
    have apartHere : ∀ old ∈ done, old.Apart root := fun old inDone =>
      (List.pairwise_append.mp apart).2.2 old inDone root List.mem_cons_self
    have marks := @markPrecacDone_steps (nonDfs root) 0 .width80
    have next : (state.addRoot nonDfs root).Kept ∧ (state.addRoot nonDfs root).nol = ∅ ∧
        MadeFrom (done ++ [root]) (state.addRoot nonDfs root).list := by
      by_cases leftOut : isLeftOut state.list root = true
      · unfold Tracked.addRoot
        rw [if_pos leftOut]
        refine ⟨kept, noNol, fun entry member => ?_⟩
        obtain ⟨old, inDone, holds⟩ := made entry member
        exact ⟨old, List.mem_append_left _ inDone, holds⟩
      · have isNext : state.addRoot nonDfs root =
            { state with list := state.list ++ [createPrecacEntry root] }.run
              (Call.markPrecacDone (nonDfs root) 0 .width80).steps := if_neg leftOut
        have added := kept.addEntry made (channels root List.mem_cons_self) apartHere
        obtain ⟨along, stays⟩ :=
          @Tracked.run_cacDone { state with list := state.list ++ [createPrecacEntry root] }
          _ marks noNol
        have later := @shape_foldl_addRoot nonDfs roots (state.addRoot nonDfs root)
        rw [isNext] at later ⊢
        rw [shape_run] at later
        refine ⟨added.run ?_ along, stays, MadeFrom.of_shape ?_ (shape_run _ _)⟩
        · intro step member _
          have final := onRaster root List.mem_cons_self step member
          rw [List.foldl_cons, isNext] at final
          exact final.of_shape fun entry isEntry => later isEntry
        · intro entry member
          rcases List.mem_append.mp member with old | new
          · obtain ⟨earlier, inDone, holds⟩ := made entry old
            exact ⟨earlier, List.mem_append_left _ inDone, holds⟩
          · rw [List.mem_singleton.mp new]
            have built := createPrecacEntry_built (channels root List.mem_cons_self)
            refine ⟨root, List.mem_append_right _ (List.mem_singleton.mpr rfl), ?_⟩
            rintro freq (inRange | inTree)
            · exact built.own freq inRange
            · exact built.freqs freq inTree
    obtain ⟨nextKept, nextNol, nextMade⟩ := next
    refine ih (fun other member => channels other (List.mem_cons_of_mem _ member))
      (done ++ [root]) _ nextKept nextNol
      nextMade ?_ fun other member => onRaster other (List.mem_cons_of_mem _ member)
    rw [List.append_assoc]
    exact apart

/-! ### The done check -/

/-- A channel that is said to be done has as many CAC done subchannels as the number of the root,
halved at each level, says. -/
theorem Tracked.Kept.done (kept : state.Kept) {entry : DfsPrecacEntry} (member : entry ∈ state.list)
    {level : Nat} {root : PrecacTreeNode} {left right : PrecacTree}
    (below : PrecacTree.Below (.node root left right) level entry.treeRoot)
    (done : isPrecacDoneForFreq state.list root.chFreq = true) :
    within (PrecacTree.node root left right).subchannels state.cacDone =
        entry.treeRoot.nValid / 2 ^ level := by
  unfold isPrecacDoneForFreq at done
  split at done
  · rename_i other found
    have inList := List.mem_of_find?_eq_some found
    have inRange : other.isFreqWithinRange root.chFreq = true := by
      simpa using List.find?_some found
    have same : other = entry := by
      by_contra different
      have symmetric : Std.Symm fun entry other : DfsPrecacEntry => ∀ freq,
          ¬(entry.Holds freq ∧ other.Holds freq) :=
        ⟨fun _ _ apart freq both => apart freq ⟨both.2, both.1⟩⟩
      exact kept.apart.forall inList member different root.chFreq
        ⟨.inl inRange, .inr below.freq_mem⟩
    subst same
    have status := below.findCacStatusFrom (kept.formed other inList).tree other.treeRoot.nValid
    have counts := below.counts (kept.counts other inList)
    have isDone : other.treeRoot.findCacStatusFrom root.chFreq other.treeRoot.nValid = true := by
      revert done
      cases other.treeRoot with
      | nil => exact id
      | node root left right => exact id
    rw [status, decide_eq_true_eq] at isDone
    rw [← counts.1.1, isDone]
  · cases done

/-- **The counts are those of the two sets, over any sequence of calls whose steps are sound.** A
channel of 20, 40, 80, 160 or 165 MHz is said to be done only if all its subchannels are, unless it
is inside of the 240 MHz channel and as many of its subchannels are done as 12, halved at each
level, says. -/
theorem precac_counts (channels : ∀ root ∈ roots, root.IsChannel)
    (apart : roots.Pairwise DfsChannelBw.Apart)
    (nonDfsOnRaster : ∀ root ∈ roots, ∀ step ∈ (Call.markPrecacDone (nonDfs root) 0 .width80).steps,
      OnRaster (initPrecacList nonDfs roots) step.2)
    {calls : List Call} (marks : ∀ call ∈ calls, ∀ step ∈ call.steps,
      Marks (initPrecacList nonDfs roots) step)
    (sound : (Tracked.init nonDfs roots).Along (calls.flatMap Call.steps)) :
    let state := (Tracked.init nonDfs roots).run (calls.flatMap Call.steps)
    state.list = calls.foldl Call.exec (initPrecacList nonDfs roots) ∧
      Disjoint state.cacDone state.nol ∧
      (∀ entry ∈ state.list, entry.treeRoot.Counts state.cacDone state.nol) ∧
      ∀ chan : DfsChannel, chan.mode ≠ .mode8080 → isPrecacDone state.list chan = true →
        ∀ entry ∈ state.list, ∀ level root left right,
          PrecacTree.Below (.node root left right) level entry.treeRoot → root.chFreq = chan.cfreq →
          (entry.bw = 320 → within (PrecacTree.node root left right).subchannels state.cacDone ≠
            12 / 2 ^ level) →
          ∀ freq ∈ (PrecacTree.node root left right).subchannels, freq ∈ state.cacDone := by
  intro state
  have kept : state.Kept := by
    refine (Tracked.init_kept channels apart nonDfsOnRaster).run ?_ sound
    intro step member
    obtain ⟨call, inCalls, isStep⟩ := List.mem_flatMap.mp member
    rw [Tracked.init_list]
    exact marks call inCalls step isStep
  refine ⟨?_, kept.disjoint, kept.counts, ?_⟩
  · have flat : ∀ (calls : List Call) (list : List DfsPrecacEntry),
        (calls.flatMap Call.steps).foldl SubchannelOp.apply list = calls.foldl Call.exec list := by
      intro calls
      induction calls with
      | nil => exact fun _ => rfl
      | cons call calls ih =>
        intro list
        rw [List.flatMap_cons, List.foldl_append, ih, List.foldl_cons]
        rfl
    rw [Tracked.run_list, Tracked.init_list, flat]
  · intro chan single done entry member level root left right below center halved
    have doneForFreq : isPrecacDoneForFreq state.list root.chFreq = true := by
      rw [center]
      unfold isPrecacDone at done
      split at done
      · cases done
      · split at done
        all_goals first | exact done | exact absurd ‹_› single | cases done
    have number := kept.done member below doneForFreq
    have formed := kept.formed entry member
    refine within_eq_length.mp ?_
    by_cases is320 : entry.bw = 320
    · rw [formed.nValid is320] at number
      exact absurd number (halved is320)
    · rw [number, below.length_subchannels (formed.halving is320)]

/-- The 80 MHz channel of the four 20 MHz channels from 5500 on. -/
def channel106 : DfsChannelBw := ⟨5500, 5530, 80⟩

theorem channel106_isChannel : ∀ root ∈ [channel106], root.IsChannel := by
  intro root member
  rw [List.mem_singleton.mp member]
  refine .inl ⟨?_, ?_, ?_, ?_⟩ <;> decide +kernel

/-- All four subchannels are done, one is hit by radar, and this expires. -/
theorem precac_counts_hit :
    let state := (Tracked.init (fun _ => 0) [channel106]).run
      ([.markPrecacDone 5530 0 .width80, .markPrecacNol [5500],
        .unmarkPrecacNol 5500].flatMap Call.steps)
    Disjoint state.cacDone state.nol ∧
      ∀ entry ∈ state.list, entry.treeRoot.Counts state.cacDone state.nol := by
  have marks :
    ∀ call ∈ [Call.markPrecacDone 5530 0 .width80, .markPrecacNol [5500], .unmarkPrecacNol 5500],
      ∀ step ∈ call.steps, Marks (initPrecacList (fun _ => 0) [channel106]) step := by
    decide +kernel
  obtain ⟨-, disjoint, counts, -⟩ := precac_counts channel106_isChannel
    (List.pairwise_singleton _ _)
    (by decide +kernel) marks (by decide +kernel)
  exact ⟨disjoint, counts⟩

/-- **A second hit on a subchannel in NOL is counted above it, and not at it**: no two sets have
such counts. -/
theorem miscounted_second_hit :
    ¬∀ (nonDfs : DfsChannelBw → Nat) (roots : List DfsChannelBw) (calls : List Call),
      (∀ root ∈ roots, root.IsChannel) → roots.Pairwise DfsChannelBw.Apart →
      (∀ root ∈ roots, ∀ step ∈ (Call.markPrecacDone (nonDfs root) 0 .width80).steps,
        OnRaster (initPrecacList nonDfs roots) step.2) →
      (∀ call ∈ calls, ∀ step ∈ call.steps, Marks (initPrecacList nonDfs roots) step) →
        ∃ cacDone nol : Finset Nat, ∀ entry ∈ calls.foldl Call.exec (initPrecacList nonDfs roots),
          entry.treeRoot.Counts cacDone nol := by
  intro counted
  have marks : ∀ call ∈ [Call.markPrecacNol [5500, 5500]], ∀ step ∈ call.steps,
      Marks (initPrecacList (fun _ => 0) [channel106]) step := by
    decide +kernel
  obtain ⟨cacDone, nol, counts⟩ := counted (fun _ => 0) [channel106] [.markPrecacNol [5500, 5500]]
    channel106_isChannel (List.pairwise_singleton _ _) (by decide +kernel) marks
  let node := fun freq bandwidth depth noled valid =>
    (⟨freq, 0, noled, valid, bandwidth, depth⟩ : PrecacTreeNode)
  let leaf := fun freq noled => PrecacTree.node (node freq 20 2 noled 1) .nil .nil
  have list : [Call.markPrecacNol [5500, 5500]].foldl Call.exec
    (initPrecacList (fun _ => 0) [channel106]) =
      [⟨5530, 80, .node (node 5530 80 0 2 4)
        (.node (node 5510 40 1 2 2) (leaf 5500 1) (leaf 5520 0))
        (.node (node 5550 40 1 0 2) (leaf 5540 0) (leaf 5560 0))⟩] := by
    decide +kernel
  rw [list] at counts
  obtain ⟨-, ⟨⟨-, both⟩, ⟨⟨-, -⟩, -, -⟩, ⟨-, second⟩, -, -⟩, -, -⟩ :=
    counts _ (List.mem_singleton.mpr rfl)
  have two : 2 = within [5500, 5520] nol := both
  have none : 0 = within [5520] nol := second
  have notIn := within_eq_zero.mp none.symm 5520 (List.mem_singleton.mpr rfl)
  have all := within_eq_length.mp two.symm 5520 (by decide)
  exact notIn all

end Qsdk.Dfs
