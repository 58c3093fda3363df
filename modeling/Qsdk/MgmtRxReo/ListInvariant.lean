/-
**The reorder list: its invariant, and what the functions under `list_lock` do to it.**

`ListOk` is the invariant: the list is sorted by global timestamp, every entry's wait count is
coherent and agrees with its waiting bit, and no entry is older than the frame released last.
`ListOk.updateList`, `ListOk.releaseFirst` and `ListOk.ageout` show that the three functions keep
it. An insertion keeps the order when the timestamps of the new list lie in one window of half the
range; the other steps need no window.
-/

import Qsdk.MgmtRxReo.WaitCount
import Mathlib.Data.List.TakeWhile

namespace Qsdk.MgmtRxReo

variable {Buf : Type}

/-- The global timestamp of an entry. -/
abbrev ListEntry.ts (entry : ListEntry Buf) : BitVec 32 := entry.params.globalTimestamp

/-- The waiting bit is set exactly while the total wait count, the sum of the per-link counts, is
not zero. -/
structure ListEntry.Coherent (entry : ListEntry Buf) : Prop where
  counts : entry.waitCount.Coherent
  waiting : entry.status.waitForFrameOnOtherLinks = true ↔ entry.waitCount.totalCount ≠ 0

/-- Every entry is at least as new as the entries before it. -/
def SortedByTs (timestamps : List (BitVec 32)) : Prop :=
  timestamps.Pairwise fun older newer => compareGlobalTimestampsGte newer older = true

/-- The timestamps of the list lie in one window of half the range. -/
def ReoList.InWindow (reoList : ReoList Buf) : Prop :=
  ∃ base, ∀ entry ∈ reoList.list, Serial.InWindow base entry.ts

/-- **The invariant of the reorder list.** -/
structure ListOk (reoList : ReoList Buf) : Prop where
  sorted : SortedByTs (reoList.list.map (·.ts))
  coherent : ∀ entry ∈ reoList.list, entry.Coherent
  notStale : ∀ entry ∈ reoList.list, isStaleFrame reoList.tsLastReleasedFrame entry.ts = false

theorem listOk_init : ListOk (ReoList.init : ReoList Buf) where
  sorted := List.Pairwise.nil
  coherent := fun _ member => absurd member List.not_mem_nil
  notStale := fun _ member => absurd member List.not_mem_nil

/-! ### One entry -/

section Entry

variable (numMloLinks : Nat) (count : WaitCount) (link : Link) (entry : ListEntry Buf)

@[simp] theorem clearIfZero_params : entry.clearIfZero.params = entry.params := by
  unfold ListEntry.clearIfZero
  split <;> rfl

@[simp] theorem clearIfZero_waitCount : entry.clearIfZero.waitCount = entry.waitCount := by
  unfold ListEntry.clearIfZero
  split <;> rfl

@[simp] theorem lower_params : (entry.lower numMloLinks count).params = entry.params := by
  unfold ListEntry.lower
  rw [clearIfZero_params]

@[simp] theorem lower_ts : (entry.lower numMloLinks count).ts = entry.ts := by
  rw [ListEntry.ts, lower_params]

@[simp] theorem lower_waitCount :
    (entry.lower numMloLinks count).waitCount =
      updateWaitCount numMloLinks entry.waitCount count := by
  unfold ListEntry.lower
  rw [clearIfZero_waitCount]

@[simp] theorem arrival_params : (entry.arrival link).params = entry.params := by
  unfold ListEntry.arrival
  split
  · rw [clearIfZero_params]
  · rfl

@[simp] theorem arrival_ts : (entry.arrival link).ts = entry.ts := by
  rw [ListEntry.ts, arrival_params]

@[simp] theorem arrival_waitCount :
    (entry.arrival link).waitCount = entry.waitCount.decrement link := by
  unfold ListEntry.arrival WaitCount.decrement
  split
  · rw [clearIfZero_waitCount]
  · rfl

@[simp] theorem lowerToLeastGreater_params (newer : List (ListEntry Buf)) :
    (entry.lowerToLeastGreater numMloLinks newer).params = entry.params := by
  cases newer with
  | nil => rfl
  | cons leastGreater rest => exact lower_params _ _ _

/-- Clearing the bit of a zero total restores the agreement, if the bit was set wherever the total
is not zero. -/
theorem coherent_clearIfZero (counts : entry.waitCount.Coherent)
    (waiting : entry.waitCount.totalCount ≠ 0 → entry.status.waitForFrameOnOtherLinks = true) :
    entry.clearIfZero.Coherent := by
  refine ⟨by rwa [clearIfZero_waitCount], ?_⟩
  rw [clearIfZero_waitCount]
  unfold ListEntry.clearIfZero
  by_cases isZero : entry.waitCount.totalCount = 0
  · rw [if_pos isZero]
    exact ⟨fun set => absurd set Bool.false_ne_true, fun nonzero => absurd isZero nonzero⟩
  · rw [if_neg isZero]
    exact ⟨fun _ => isZero, fun _ => waiting isZero⟩

end Entry

/-- A wait count whose total became smaller was not zero before. -/
theorem total_ne_zero_of_le {before after : WaitCount} (coherent : before.Coherent)
    (coherentAfter : after.Coherent)
    (below : ∀ link, (after.perLinkCount link).toNat ≤ (before.perLinkCount link).toNat)
    (nonzero : after.totalCount ≠ 0) : before.totalCount ≠ 0 := by
  intro isZero
  refine nonzero (coherentAfter.zero_iff.mpr fun link => ?_)
  have none := coherent.zero_iff.mp isZero link
  have atMost := below link
  rw [none] at atMost
  exact BitVec.eq_of_toNat_eq (Nat.le_zero.mp atMost)

theorem updateWaitCount_le (numMloLinks : Nat) (oldFrame newFrame : WaitCount) (link : Link) :
    ((updateWaitCount numMloLinks oldFrame newFrame).perLinkCount link).toNat ≤
      (oldFrame.perLinkCount link).toNat := by
  rw [updateWaitCount_perLink]
  split
  · exact Nat.min_le_left _ _
  · exact le_refl _

theorem decrement_le (count : WaitCount) (arrived link : Link) :
    ((count.decrement arrived).perLinkCount link).toNat ≤ (count.perLinkCount link).toNat := by
  rw [decrement_perLink]
  split
  · exact Nat.sub_le _ _
  · exact le_refl _

theorem ListEntry.Coherent.lower {entry : ListEntry Buf} (coherent : entry.Coherent)
    (numMloLinks : Nat) (count : WaitCount) : (entry.lower numMloLinks count).Coherent := by
  have counts := coherent.counts.updateWaitCount numMloLinks count
  refine coherent_clearIfZero _ counts fun nonzero => coherent.waiting.mpr ?_
  exact total_ne_zero_of_le coherent.counts counts (updateWaitCount_le numMloLinks _ _) nonzero

theorem ListEntry.Coherent.arrival {entry : ListEntry Buf} (coherent : entry.Coherent)
    (link : Link) : (entry.arrival link).Coherent := by
  unfold ListEntry.arrival
  split
  · have counts := coherent.counts.decrement link
    refine coherent_clearIfZero _ counts fun nonzero => coherent.waiting.mpr ?_
    exact total_ne_zero_of_le coherent.counts counts (decrement_le _ link) nonzero
  · exact coherent

theorem ListEntry.Coherent.lowerToLeastGreater {entry : ListEntry Buf} (coherent : entry.Coherent)
    (numMloLinks : Nat) (newer : List (ListEntry Buf)) :
    (entry.lowerToLeastGreater numMloLinks newer).Coherent := by
  cases newer with
  | nil => exact coherent
  | cons leastGreater rest => exact coherent.lower numMloLinks leastGreater.waitCount

/-! ### The update of the list -/

/-- The entries that the first loop of `mgmt_rx_reo_update_list` passes: those not newer than the
frame. -/
def notNewer (desc : FrameDescriptor Buf) (entry : ListEntry Buf) : Bool :=
  compareGlobalTimestampsGte desc.params.globalTimestamp entry.ts

theorem splitAtLeastGreater_eq (numMloLinks : Nat) (desc : FrameDescriptor Buf)
    (list : List (ListEntry Buf)) :
    splitAtLeastGreater numMloLinks desc list =
      ((list.takeWhile (notNewer desc)).map (·.lower numMloLinks desc.waitCount),
        list.dropWhile (notNewer desc)) := by
  induction list with
  | nil => rfl
  | cons cur rest ih =>
    unfold splitAtLeastGreater
    by_cases older : notNewer desc cur = true
    · rw [List.takeWhile_cons_of_pos older, List.dropWhile_cons_of_pos older, ih]
      unfold notNewer at older
      simp [older]
    · rw [List.takeWhile_cons_of_neg older, List.dropWhile_cons_of_neg older]
      unfold notNewer at older
      simp [older]

/-- The entry that is queued, if one is: a prepared entry, unless the frame is stale. -/
def queuedEntry (numMloLinks : Nat) (reoList : ReoList Buf) (desc : FrameDescriptor Buf)
    (newEntry : Option (ListEntry Buf)) (now : BitVec 64) : Option (ListEntry Buf) :=
  if isStaleFrame reoList.tsLastReleasedFrame desc.params.globalTimestamp then none
  else newEntry.map fun entry =>
    { entry.lowerToLeastGreater numMloLinks (reoList.list.dropWhile (notNewer desc)) with
      insertionTs := now }

/-- **The list after the update**: the entries not newer than the frame with their counts lowered,
the queued entry, and the newer entries with one frame less to wait for. -/
theorem updateList_list (numMloLinks : Nat) (reoList : ReoList Buf) (desc : FrameDescriptor Buf)
    (newEntry : Option (ListEntry Buf)) (now : BitVec 64) :
    (updateList numMloLinks reoList desc newEntry now).1.list =
      (reoList.list.takeWhile (notNewer desc)).map (·.lower numMloLinks desc.waitCount) ++
      ((queuedEntry numMloLinks reoList desc newEntry now).toList ++
      (reoList.list.dropWhile (notNewer desc)).map (·.arrival desc.params.linkId)) := by
  unfold updateList queuedEntry
  rw [splitAtLeastGreater_eq]
  cases newEntry with
  | none => simp
  | some newEntry =>
    cases isStaleFrame reoList.tsLastReleasedFrame desc.params.globalTimestamp <;> simp

theorem updateList_tsLast (numMloLinks : Nat) (reoList : ReoList Buf) (desc : FrameDescriptor Buf)
    (newEntry : Option (ListEntry Buf)) (now : BitVec 64) :
    (updateList numMloLinks reoList desc newEntry now).1.tsLastReleasedFrame =
      reoList.tsLastReleasedFrame := by
  unfold updateList
  cases newEntry with
  | none => rfl
  | some newEntry =>
    cases isStaleFrame reoList.tsLastReleasedFrame desc.params.globalTimestamp <;> rfl

theorem updateList_isQueued (numMloLinks : Nat) (reoList : ReoList Buf)
    (desc : FrameDescriptor Buf) (newEntry : Option (ListEntry Buf)) (now : BitVec 64) :
    (updateList numMloLinks reoList desc newEntry now).2.2 =
      (queuedEntry numMloLinks reoList desc newEntry now).isSome := by
  unfold updateList queuedEntry
  cases newEntry with
  | none => simp
  | some newEntry =>
    cases isStaleFrame reoList.tsLastReleasedFrame desc.params.globalTimestamp <;> simp

/-- The queued entry comes from the prepared one, and its frame is not stale. -/
theorem mem_queuedEntry {numMloLinks : Nat} {reoList : ReoList Buf} {desc : FrameDescriptor Buf}
    {newEntry : Option (ListEntry Buf)} {now : BitVec 64} {queued : ListEntry Buf}
    (member : queued ∈ queuedEntry numMloLinks reoList desc newEntry now) :
    ∃ entry ∈ newEntry, queued =
        { entry.lowerToLeastGreater numMloLinks (reoList.list.dropWhile (notNewer desc)) with
          insertionTs := now } ∧
      isStaleFrame reoList.tsLastReleasedFrame desc.params.globalTimestamp = false := by
  unfold queuedEntry at member
  split at member
  · exact absurd member (by simp)
  · rename_i fresh
    obtain ⟨entry, prepared, rfl⟩ := Option.map_eq_some_iff.mp member
    exact ⟨entry, prepared, rfl, by simpa using fresh⟩

/-- An entry of the list after the update is an entry of the list before it with lowered or
decremented counts, or the queued entry. -/
theorem mem_updateList {numMloLinks : Nat} {reoList : ReoList Buf} {desc : FrameDescriptor Buf}
    {newEntry : Option (ListEntry Buf)} {now : BitVec 64} {entry : ListEntry Buf}
    (member : entry ∈ (updateList numMloLinks reoList desc newEntry now).1.list) :
    (∃ old ∈ reoList.list, notNewer desc old = true ∧
      entry = old.lower numMloLinks desc.waitCount) ∨
    entry ∈ queuedEntry numMloLinks reoList desc newEntry now ∨
    (∃ old ∈ reoList.list.dropWhile (notNewer desc), entry = old.arrival desc.params.linkId) := by
  rw [updateList_list, List.mem_append, List.mem_append, Option.mem_toList, List.mem_map,
    List.mem_map] at member
  rcases member with ⟨old, inOlder, rfl⟩ | queued | ⟨old, inNewer, rfl⟩
  · exact Or.inl ⟨old, List.takeWhile_subset _ inOlder, List.mem_takeWhile_imp inOlder, rfl⟩
  · exact Or.inr (Or.inl queued)
  · exact Or.inr (Or.inr ⟨old, inNewer, rfl⟩)

/-- In a sorted list in a window, what does not pass the first loop is newer than the frame. -/
theorem newer_of_mem_dropWhile {base : BitVec 32} {list : List (ListEntry Buf)}
    {desc : FrameDescriptor Buf} (sorted : SortedByTs (list.map (·.ts)))
    (window : ∀ entry ∈ list, Serial.InWindow base entry.ts)
    (descWindow : Serial.InWindow base desc.params.globalTimestamp) {entry : ListEntry Buf}
    (member : entry ∈ list.dropWhile (notNewer desc)) :
    compareGlobalTimestampsGte entry.ts desc.params.globalTimestamp = true := by
  obtain ⟨least, rest, dropped⟩ : ∃ least rest, list.dropWhile (notNewer desc) = least :: rest :=
    List.exists_cons_of_ne_nil (List.ne_nil_of_mem member)
  have inList : ∀ other ∈ least :: rest, other ∈ list := fun other inside =>
    (List.dropWhile_suffix _).subset (dropped ▸ inside)
  have leastNewer : compareGlobalTimestampsGte least.ts desc.params.globalTimestamp = true := by
    refine Serial.gte_total_of_inWindow (by decide) descWindow
      (window least (inList least List.mem_cons_self)) ?_
    have fails := List.head_dropWhile_not (notNewer desc) (l := list) (by rw [dropped]; simp)
    simp only [dropped, List.head_cons] at fails
    exact fails
  have tail : SortedByTs ((least :: rest).map (·.ts)) :=
    List.Pairwise.sublist ((dropped ▸ List.dropWhile_sublist _).map _) sorted
  rw [dropped] at member
  rcases List.mem_cons.mp member with rfl | later
  · exact leastNewer
  · rw [List.map_cons] at tail
    have order := (List.pairwise_cons.mp tail).1 entry.ts (List.mem_map_of_mem later)
    exact Serial.gte_trans_of_inWindow (by decide)
      (window entry (inList entry (List.mem_cons_of_mem _ later)))
      (window least (inList least List.mem_cons_self)) descWindow order leastNewer

/-- **The update keeps the invariant**, when the prepared entry is coherent and carries the frame's
parameters, and the new list lies in a window. -/
theorem ListOk.updateList {reoList : ReoList Buf} (ok : ListOk reoList) (numMloLinks : Nat)
    (desc : FrameDescriptor Buf) (newEntry : Option (ListEntry Buf)) (now : BitVec 64)
    (prepared : ∀ entry ∈ newEntry, entry.params = desc.params ∧ entry.Coherent)
    (window : (updateList numMloLinks reoList desc newEntry now).1.InWindow) :
    ListOk (updateList numMloLinks reoList desc newEntry now).1 := by
  have split := List.takeWhile_append_dropWhile (p := notNewer desc) (l := reoList.list)
  have queuedTs : ∀ queued ∈ queuedEntry numMloLinks reoList desc newEntry now,
      queued.ts = desc.params.globalTimestamp := by
    intro queued member
    obtain ⟨entry, isNew, rfl, -⟩ := mem_queuedEntry member
    show (entry.lowerToLeastGreater _ _).params.globalTimestamp = _
    rw [lowerToLeastGreater_params, (prepared entry isNew).1]
  refine ⟨?_, fun entry member => ?_, fun entry member => ?_⟩
  · obtain ⟨base, inWindow⟩ := window
    have sorted := ok.sorted
    rw [updateList_list] at inWindow ⊢
    rw [← split, List.map_append] at sorted
    simp only [List.map_append, List.map_map, Function.comp_def, lower_ts, arrival_ts]
    cases queued : queuedEntry numMloLinks reoList desc newEntry now with
    | none => simpa using sorted
    | some queuedEntry =>
      have sameTs := queuedTs queuedEntry queued
      rw [queued] at inWindow
      have descWindow : Serial.InWindow base desc.params.globalTimestamp := by
        rw [← sameTs]
        exact inWindow queuedEntry (by simp)
      have oldWindow : ∀ entry ∈ reoList.list, Serial.InWindow base entry.ts := by
        intro entry member
        rw [← split, List.mem_append] at member
        rcases member with inOlder | inNewer
        · have := inWindow (entry.lower numMloLinks desc.waitCount)
            (List.mem_append_left _ (List.mem_map_of_mem inOlder))
          rwa [lower_ts] at this
        · have := inWindow (entry.arrival desc.params.linkId)
            (List.mem_append_right _ (List.mem_append_right _ (List.mem_map_of_mem inNewer)))
          rwa [arrival_ts] at this
      obtain ⟨older, newer, between⟩ := List.pairwise_append.mp sorted
      refine List.pairwise_append.mpr ⟨older, List.pairwise_cons.mpr ⟨?_, newer⟩, ?_⟩
      · intro ts member
        obtain ⟨entry, inNewer, rfl⟩ := List.mem_map.mp member
        show compareGlobalTimestampsGte entry.ts queuedEntry.ts = true
        rw [sameTs]
        exact newer_of_mem_dropWhile ok.sorted oldWindow descWindow inNewer
      · intro ts inOlder ts' inRest
        rcases List.mem_cons.mp inRest with rfl | inNewer
        · obtain ⟨entry, passed, rfl⟩ := List.mem_map.mp inOlder
          show compareGlobalTimestampsGte queuedEntry.ts entry.ts = true
          rw [sameTs]
          exact List.mem_takeWhile_imp (p := notNewer desc) passed
        · exact between ts inOlder ts' inNewer
  · rcases mem_updateList member with ⟨old, inList, -, rfl⟩ | queued | ⟨old, inNewer, rfl⟩
    · exact (ok.coherent old inList).lower numMloLinks desc.waitCount
    · obtain ⟨prepared', isNew, rfl, -⟩ := mem_queuedEntry queued
      have coherent := ((prepared prepared' isNew).2.lowerToLeastGreater numMloLinks
        (reoList.list.dropWhile (notNewer desc)))
      exact ⟨coherent.counts, coherent.waiting⟩
    · exact (ok.coherent old ((List.dropWhile_suffix _).subset inNewer)).arrival _
  · rw [updateList_tsLast]
    rcases mem_updateList member with ⟨old, inList, -, rfl⟩ | queued | ⟨old, inNewer, rfl⟩
    · rw [lower_ts]
      exact ok.notStale old inList
    · rw [queuedTs entry queued]
      obtain ⟨-, -, -, fresh⟩ := mem_queuedEntry queued
      exact fresh
    · rw [arrival_ts]
      exact ok.notStale old ((List.dropWhile_suffix _).subset inNewer)

section View

variable {B : Type} (view : ListEntry Buf → B) (numMloLinks : Nat)
  (unseen : ∀ entry waitCount status,
    view { entry with waitCount := waitCount, status := status } = view entry)

include unseen

/-! What is seen of an entry apart from its counts and status does not change under the updates. -/

theorem clearIfZero_view (entry : ListEntry Buf) : view entry.clearIfZero = view entry := by
  unfold ListEntry.clearIfZero
  split
  · exact unseen entry entry.waitCount _
  · rfl

theorem lower_view (count : WaitCount) (entry : ListEntry Buf) :
    view (entry.lower numMloLinks count) = view entry :=
  (clearIfZero_view view unseen _).trans (unseen entry _ entry.status)

theorem arrival_view (link : Link) (entry : ListEntry Buf) :
    view (entry.arrival link) = view entry := by
  unfold ListEntry.arrival
  split
  · exact (clearIfZero_view view unseen _).trans (unseen entry _ entry.status)
  · rfl

theorem lowerToLeastGreater_view (newer : List (ListEntry Buf)) (entry : ListEntry Buf) :
    view (entry.lowerToLeastGreater numMloLinks newer) = view entry := by
  cases newer with
  | nil => rfl
  | cons leastGreater rest => exact lower_view view numMloLinks unseen _ entry

/-- The list after the update: the list before it and the queued entry. -/
theorem updateList_map (reoList : ReoList Buf) (desc : FrameDescriptor Buf)
    (newEntry : Option (ListEntry Buf)) (now : BitVec 64) :
    ((updateList numMloLinks reoList desc newEntry now).1.list.map view).Perm
      (reoList.list.map view ++
        (queuedEntry numMloLinks reoList desc newEntry now).toList.map view) := by
  have split := List.takeWhile_append_dropWhile (p := notNewer desc) (l := reoList.list)
  rw [updateList_list]
  simp only [List.map_append, List.map_map, Function.comp_def,
    lower_view view numMloLinks unseen, arrival_view view unseen]
  conv_rhs => rw [← split, List.map_append, List.append_assoc]
  exact List.Perm.append_left _ List.perm_append_comm

end View

/-! ### The release -/

/-- The assertion of the release loop is `isStaleFrame` on the first entry. -/
theorem notOlder_iff (last : GlobalTsInfo) (ts : BitVec 32) :
    (!last.valid || compareGlobalTimestampsGte ts last.globalTs) = true ↔
      isStaleFrame last ts = false := by
  unfold isStaleFrame
  cases last.valid <;> cases compareGlobalTimestampsGte ts last.globalTs <;> decide

/-- **What a round of the release loop does**: nothing, or the first entry leaves the list and its
timestamp becomes the last released one. -/
theorem releaseFirst_cases {reoList after : ReoList Buf} {released : Option (ListEntry Buf)}
    (round : releaseFirst reoList = some (after, released)) :
    (released = none ∧ after = reoList) ∨
    ∃ first rest, reoList.list = first :: rest ∧ reoList.isReadyToSendUp first = true ∧
      isStaleFrame reoList.tsLastReleasedFrame first.ts = false ∧
      released = some (reoList.markMaxSize first) ∧
      after = { reoList with list := rest, tsLastReleasedFrame := ⟨true, first.ts⟩ } := by
  unfold releaseFirst at round
  split at round
  · obtain ⟨rfl, rfl⟩ := Prod.mk.inj (Option.some.inj round)
    exact Or.inl ⟨rfl, rfl⟩
  · rename_i first rest isList
    split at round
    · obtain ⟨rfl, rfl⟩ := Prod.mk.inj (Option.some.inj round)
      exact Or.inl ⟨rfl, rfl⟩
    · rename_i ready
      dsimp only at round
      split at round
      · rename_i notOlder
        obtain ⟨rfl, rfl⟩ := Prod.mk.inj (Option.some.inj round)
        exact Or.inr ⟨first, rest, isList, by simpa using ready, (notOlder_iff _ _).mp notOlder,
          rfl, rfl⟩
      · exact absurd round (by simp)

/-- **The assertion of the release loop holds** while the invariant does. -/
theorem ListOk.releaseFirst_ne_none {reoList : ReoList Buf} (ok : ListOk reoList) :
    releaseFirst reoList ≠ none := by
  unfold releaseFirst
  split
  · simp
  · rename_i first rest isList
    have fresh := ok.notStale first (by rw [isList]; exact List.mem_cons_self)
    split
    · simp
    · rw [if_pos ((notOlder_iff _ _).mpr fresh)]
      simp

/-- **The release keeps the invariant.** -/
theorem ListOk.releaseFirst {reoList after : ReoList Buf} {released : Option (ListEntry Buf)}
    (ok : ListOk reoList) (round : releaseFirst reoList = some (after, released)) :
    ListOk after := by
  rcases releaseFirst_cases round with ⟨-, rfl⟩ | ⟨first, rest, isList, -, -, -, rfl⟩
  · exact ok
  · have sorted := ok.sorted
    rw [isList, List.map_cons] at sorted
    obtain ⟨newer, sorted⟩ := List.pairwise_cons.mp sorted
    refine ⟨sorted, fun entry member => ok.coherent entry ?_, fun entry member => ?_⟩
    · rw [isList]
      exact List.mem_cons_of_mem _ member
    · have order := newer entry.ts (List.mem_map_of_mem member)
      show (true && !compareGlobalTimestampsGte entry.ts first.ts) = false
      rw [order]
      rfl

/-- **An entry that is sent up has a release reason.** -/
theorem getReleaseReason_markMaxSize {reoList : ReoList Buf} {first : ListEntry Buf}
    (ready : reoList.isReadyToSendUp first = true) :
    (getReleaseReason (reoList.markMaxSize first).status).isZero = false := by
  unfold ReoList.isReadyToSendUp at ready
  unfold ReoList.markMaxSize getReleaseReason ReleaseReason.isZero
  cases full : reoList.maxSizeExceeded with
  | true => simp
  | false =>
    rw [full] at ready
    simp only [Bool.false_or, Bool.or_eq_true, Bool.not_eq_true'] at ready
    rcases ready with (waits | aged) | older
    · simp [waits]
    · simp [aged]
    · simp [older]

@[simp] theorem markMaxSize_params (reoList : ReoList Buf) (entry : ListEntry Buf) :
    (reoList.markMaxSize entry).params = entry.params := by
  unfold ReoList.markMaxSize
  split <;> rfl

@[simp] theorem markMaxSize_ts (reoList : ReoList Buf) (entry : ListEntry Buf) :
    (reoList.markMaxSize entry).ts = entry.ts := by
  rw [ListEntry.ts, markMaxSize_params]

theorem markMaxSize_wait (reoList : ReoList Buf) (entry : ListEntry Buf) :
    (reoList.markMaxSize entry).status.waitForFrameOnOtherLinks =
      entry.status.waitForFrameOnOtherLinks := by
  unfold ReoList.markMaxSize
  split <;> rfl

/-- The released entry, seen through what marking does not change. -/
theorem markMaxSize_view {B : Type} (view : ListEntry Buf → B)
    (unseen : ∀ entry status, view { entry with status := status } = view entry)
    (reoList : ReoList Buf) (entry : ListEntry Buf) :
    view (reoList.markMaxSize entry) = view entry := by
  unfold ReoList.markMaxSize
  split
  · exact unseen entry _
  · rfl

/-! ### The ageout timer -/

/-- The ageout timer changes two status bits. -/
theorem mem_ageoutEntries {timeoutUs : BitVec 32} {now : BitVec 64} {list : List (ListEntry Buf)}
    {entry : ListEntry Buf} (member : entry ∈ ageoutEntries timeoutUs now list) :
    ∃ old ∈ list, ∃ aged older, entry = { old with status := { old.status with
      agedOut := aged, olderThanLatestAgedOutFrame := older } } := by
  induction list with
  | nil => exact absurd member List.not_mem_nil
  | cons cur rest ih =>
    rcases List.mem_cons.mp member with rfl | later
    · exact ⟨cur, List.mem_cons_self, _, _, rfl⟩
    · obtain ⟨old, inRest, changed⟩ := ih later
      exact ⟨old, List.mem_cons_of_mem _ inRest, changed⟩

theorem ageoutEntries_map {B : Type} (view : ListEntry Buf → B) (timeoutUs : BitVec 32)
    (now : BitVec 64) (unseen : ∀ entry status, view { entry with status := status } = view entry)
    (list : List (ListEntry Buf)) :
    (ageoutEntries timeoutUs now list).map view = list.map view := by
  induction list with
  | nil => rfl
  | cons cur rest ih =>
    unfold ageoutEntries
    rw [List.map_cons, List.map_cons, ih, unseen]

/-- **The ageout timer keeps the invariant.** -/
theorem ListOk.ageout {reoList : ReoList Buf} (ok : ListOk reoList) (now : BitVec 64) :
    ListOk (ageout reoList now) := by
  refine ⟨?_, fun entry member => ?_, fun entry member => ?_⟩
  · show SortedByTs ((ageoutEntries _ _ _).map (·.ts))
    rw [ageoutEntries_map _ _ _ fun _ _ => rfl]
    exact ok.sorted
  · obtain ⟨old, inList, aged, older, rfl⟩ := mem_ageoutEntries member
    have coherent := ok.coherent old inList
    exact ⟨coherent.counts, coherent.waiting⟩
  · obtain ⟨old, inList, aged, older, rfl⟩ := mem_ageoutEntries member
    exact ok.notStale old inList

end Qsdk.MgmtRxReo
