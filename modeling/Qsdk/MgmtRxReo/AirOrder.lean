/-
**No release out of air order without declaring it premature.**

The list invariant that carries the result is `AirInv`: every entry's wait count covers, on every
link, the frames that are still to come before it. `airOrder` is the protocol that proves it for
every interleaving of the host's threads, hardware and firmware.

`zeroWait_release` is the result: when an entry is released with a zero wait count, every older
frame on every link has been consumed by FW or has been through the algorithm, and if it was queued,
it has been sent up. It needs `Span`. `idleLink_release` shows what goes wrong when only the frames
on their way to the host are close together: the last frame seen on an idle link is then compared
across half the timestamp range.
-/

import Qsdk.MgmtRxReo.AirEstimate
import Mathlib.Data.List.MinMax

namespace Qsdk.MgmtRxReo

/-! ### What the history tells about a frame -/

/-- The steps so far, newest first. -/
abbrev AirHistory := List (World Frame Air × HostLabel Frame)

/-- The frame has entered the algorithm, with the steps `newer` since then. -/
def EnteredBefore (numMloLinks : Nat) (frame : Frame) (newer history : AirHistory) : Prop :=
  ∃ older world type params, history = newer ++
    (world, .start .algoEntry (algoEntry numMloLinks frame.1 (.fresh type frame params))) :: older

/-- The algorithm is done with a frame when it has updated the list or returns. -/
def endsFrame : World Frame Air × HostLabel Frame → Bool
  | (_, .call .algoEntry (.updateList _ _) _) => true
  | (_, .finish .algoEntry) => true
  | _ => false

/-- The frame has been through the algorithm. -/
def Passed (numMloLinks : Nat) (frame : Frame) (history : AirHistory) : Prop :=
  ∃ newer, EnteredBefore numMloLinks frame newer history ∧ ∃ event ∈ newer, endsFrame event = true

/-- The step queued the frame. -/
def Queues (frame : Frame) : World Frame Air × HostLabel Frame → Prop
  | (_, .call _ (.updateList desc _) res) => desc.nbuf = frame ∧ res.2 = true
  | _ => False

/-- The frame has been queued in the reorder list. -/
def Queued (frame : Frame) (history : AirHistory) : Prop := ∃ event ∈ history, Queues frame event

/-- The frame has been sent up. -/
def SentUp (frame : Frame) (host : Host Frame) : Prop := frame ∈ host.sentUp.map (·.1.nbuf)

section History

variable {numMloLinks : Nat} {frame : Frame} {newer history : AirHistory}
  {event : World Frame Air × HostLabel Frame}

theorem EnteredBefore.cons (entered : EnteredBefore numMloLinks frame newer history) :
    EnteredBefore numMloLinks frame (event :: newer) (event :: history) := by
  obtain ⟨older, world, type, params, rfl⟩ := entered
  exact ⟨older, world, type, params, rfl⟩

theorem Passed.cons (passed : Passed numMloLinks frame history) :
    Passed numMloLinks frame (event :: history) := by
  obtain ⟨newer, entered, other, member, ends⟩ := passed
  exact ⟨event :: newer, entered.cons, other, List.mem_cons_of_mem _ member, ends⟩

theorem EnteredBefore.passed (entered : EnteredBefore numMloLinks frame newer history)
    (ends : endsFrame event = true) : Passed numMloLinks frame (event :: history) :=
  ⟨event :: newer, entered.cons, event, List.mem_cons_self, ends⟩

theorem queued_cons (notQueues : ¬Queues frame event) (queued : Queued frame (event :: history)) :
    Queued frame history := by
  obtain ⟨other, member, queues⟩ := queued
  rcases List.mem_cons.mp member with rfl | before
  · exact absurd queues notQueues
  · exact ⟨other, before, queues⟩

end History

/-! ### The invariant -/

/-- The true time of an entry's frame. -/
abbrev Scenario.entryTime (scenario : Scenario) (entry : ListEntry Frame) : Nat :=
  scenario.time entry.nbuf.1 entry.nbuf.2

/-- An entry carries the timestamp of a listed frame. -/
structure EntryOk (scenario : Scenario) (ghost : Option Frame) (air : Air)
    (entry : ListEntry Frame) : Prop where
  positive : 1 ≤ entry.nbuf.2
  isListed : entry.nbuf.2 ≤ listed ghost air entry.nbuf.1
  ts : entry.ts = BitVec.ofNat 32 (scenario.entryTime entry)

/-- **The invariant**: every entry waits for every frame that may come before it. -/
structure AirInv (scenario : Scenario) (numMloLinks : Nat) (history : AirHistory)
    (ghosts : LockId → Option Frame) (world : World Frame Air) : Prop where
  ok : world.below.Ok scenario numMloLinks
  span : Span scenario world
  listOk : ListOk world.host.reoList
  entries : ∀ entry ∈ world.host.reoList.list,
    EntryOk scenario (ghosts .algoEntry) world.below entry
  covers : ∀ entry ∈ world.host.reoList.list, ∀ link,
    Covers scenario (scenario.entryTime entry) entry.waitCount link (ghosts .algoEntry, world)
  /-- A queued frame is in the list, on its way up, or sent up. -/
  queued : ∀ frame, Queued frame history → frame ∈ world.host.reoList.list.map (·.nbuf) ∨
    ghosts .frameRelease = some frame ∨ SentUp frame world.host
  /-- The frame in the algorithm is the last one that arrived on its link. -/
  entered : ∀ pdev number, ghosts .algoEntry = some (pdev, number) → 1 ≤ number ∧
    world.below.arrived pdev = number ∧
    ∃ newer, EnteredBefore numMloLinks (pdev, number) newer history
  /-- The listed frames have been through the algorithm. -/
  passed : ∀ link number, 1 ≤ number →
    number ≤ listed (ghosts .algoEntry) world.below link →
    Passed numMloLinks (link, number) history

section Inv

variable {scenario : Scenario} {numMloLinks : Nat} {history : AirHistory}
  {ghosts : LockId → Option Frame} {world after : World Frame Air}

/-- The timestamps of the list lie in a window. -/
theorem inWindow_of_span (span : Span scenario world)
    (ts : ∀ entry ∈ world.host.reoList.list,
      entry.ts = BitVec.ofNat 32 (scenario.entryTime entry)) : world.host.reoList.InWindow := by
  cases oldest : world.host.reoList.list.argmin scenario.entryTime with
  | none =>
    rw [List.argmin_eq_none] at oldest
    exact ⟨0, fun entry member => by rw [oldest] at member; exact absurd member List.not_mem_nil⟩
  | some first =>
    refine ⟨BitVec.ofNat 32 (scenario.entryTime first), fun entry member => ?_⟩
    have order := List.le_of_mem_argmin member oldest
    have near : scenario.entryTime entry < scenario.entryTime first + 2 ^ 31 :=
      span.times entry.nbuf.1 entry.nbuf.2 first.nbuf.1 first.nbuf.2
        (Or.inr (Or.inl ⟨entry, member, rfl⟩))
        (Or.inr (Or.inl ⟨first, List.argmin_mem oldest, rfl⟩))
    rw [ts entry member, Serial.InWindow, Serial.toNat_sub_ofNat_of_le order (by omega)]
    show scenario.entryTime entry - scenario.entryTime first < 2 ^ 31
    omega

/-- Entries compare as their frames' true times. -/
theorem AirInv.gte_iff (inv : AirInv scenario numMloLinks history ghosts world)
    {entry : ListEntry Frame} (member : entry ∈ world.host.reoList.list) {link : Link}
    {number : Nat} (live : Live scenario world link number) :
    compareGlobalTimestampsGte (BitVec.ofNat 32 (scenario.time link number)) entry.ts = true ↔
      scenario.entryTime entry ≤ scenario.time link number := by
  have near := inv.span.near live (Or.inr (Or.inl ⟨entry, member, rfl⟩))
  rw [(inv.entries entry member).ts]
  exact gte_recorded near

/-- Nothing that the invariant speaks about changes, apart from more steps in the history. -/
theorem AirInv.cons (inv : AirInv scenario numMloLinks history ghosts world)
    {event : World Frame Air × HostLabel Frame} (notQueues : ∀ frame, ¬Queues frame event) :
    AirInv scenario numMloLinks (event :: history) ghosts world where
  ok := inv.ok
  span := inv.span
  listOk := inv.listOk
  entries := inv.entries
  covers := inv.covers
  queued := fun frame isQueued => inv.queued frame (queued_cons (notQueues frame) isQueued)
  entered := fun pdev number ghost => by
    obtain ⟨positive, current, newer, entered⟩ := inv.entered pdev number ghost
    exact ⟨positive, current, _, entered.cons⟩
  passed := fun link number positive isListed => (inv.passed link number positive isListed).cons

/-- Nor does it depend on the rest of the host. -/
theorem AirInv.congr (inv : AirInv scenario numMloLinks history ghosts world)
    (span : Span scenario after) (sameList : after.host.reoList = world.host.reoList)
    (sameSent : after.host.sentUp = world.host.sentUp) (sameBelow : after.below = world.below) :
    AirInv scenario numMloLinks history ghosts after where
  ok := by rw [sameBelow]; exact inv.ok
  span := span
  listOk := by rw [sameList]; exact inv.listOk
  entries := by rw [sameList, sameBelow]; exact inv.entries
  covers := by
    rw [sameList]
    intro entry member link
    exact (inv.covers entry member link).listed_le (by rw [sameBelow]) (by rw [sameBelow])
      (by rw [sameBelow])
  queued := by
    unfold SentUp
    rw [sameList, sameSent]
    exact inv.queued
  entered := by rw [sameBelow]; exact inv.entered
  passed := by rw [sameBelow]; exact inv.passed

/-- **The air moves**: frames numbered now are not older than the frames in the list. -/
theorem AirInv.moves (inv : AirInv scenario numMloLinks history ghosts world)
    (span : Span scenario after) (sameHost : after.host = world.host)
    (moves : Air.Moves scenario numMloLinks world.below after.below) :
    AirInv scenario numMloLinks history ghosts after := by
  obtain ⟨ok, le⟩ := moves.ok inv.ok
  have sameListed : ∀ link, listed (ghosts .algoEntry) after.below link =
      listed (ghosts .algoEntry) world.below link := fun link => listed_congr le.arrived link
  refine ⟨ok, span, by rw [sameHost]; exact inv.listOk, ?_, ?_, by rw [sameHost]; exact inv.queued,
    ?_, ?_⟩
  · rw [sameHost]
    intro entry member
    obtain ⟨positive, isListed, ts⟩ := inv.entries entry member
    exact ⟨positive, by rw [sameListed]; exact isListed, ts⟩
  · rw [sameHost]
    intro entry member link
    obtain ⟨positive, isListed, -⟩ := inv.entries entry member
    refine (inv.covers entry member link).le rfl le fun number above below => ?_
    refine le.newer link number above below entry.nbuf.1 entry.nbuf.2 positive ?_
    have arrived := inv.ok.arrived_le entry.nbuf.1
    have decided := inv.ok.decided_le entry.nbuf.1
    have atMost : listed (ghosts .algoEntry) world.below entry.nbuf.1 ≤
        world.below.arrived entry.nbuf.1 := by
      cases isGhost : ghosts .algoEntry with
      | none => exact le_refl _
      | some frame =>
        obtain ⟨-, current, -⟩ := inv.entered frame.1 frame.2 isGhost
        dsimp only [listed]
        split
        · rename_i same
          rw [same]
          omega
        · exact le_refl _
    omega
  · intro pdev number ghost
    rw [le.arrived]
    exact inv.entered pdev number ghost
  · intro link number positive isListed
    rw [sameListed] at isListed
    exact inv.passed link number positive isListed

/-- **The ageout timer** changes nothing that the invariant speaks about. -/
theorem AirInv.ageout (inv : AirInv scenario numMloLinks history ghosts world) (now : BitVec 64)
    (span : Span scenario after)
    (isAged : after.host = { world.host with reoList := MgmtRxReo.ageout world.host.reoList now })
    (sameBelow : after.below = world.below) :
    AirInv scenario numMloLinks history ghosts after := by
  have sameNbuf : (MgmtRxReo.ageout world.host.reoList now).list.map (·.nbuf) =
      world.host.reoList.list.map (·.nbuf) :=
    ageoutEntries_map (·.nbuf) _ now (fun _ _ => rfl) _
  refine ⟨by rw [sameBelow]; exact inv.ok, span, by rw [isAged]; exact inv.listOk.ageout now,
    ?_, ?_, ?_, by rw [sameBelow]; exact inv.entered, by rw [sameBelow]; exact inv.passed⟩
  · rw [isAged, sameBelow]
    intro entry member
    obtain ⟨old, inList, aged, older, rfl⟩ := mem_ageoutEntries member
    obtain ⟨positive, isListed, ts⟩ := inv.entries old inList
    exact ⟨positive, isListed, ts⟩
  · rw [isAged]
    intro entry member link
    obtain ⟨old, inList, aged, older, rfl⟩ := mem_ageoutEntries member
    exact (inv.covers old inList link).listed_le (by rw [sameBelow]) (by rw [sameBelow])
      (by rw [sameBelow])
  · intro frame isQueued
    rw [isAged]
    show frame ∈ (MgmtRxReo.ageout world.host.reoList now).list.map (·.nbuf) ∨ _
    rw [sameNbuf]
    exact inv.queued frame isQueued

/-! ### The update of the list -/

section Update

variable {desc : FrameDescriptor Frame} {newEntry : Option (ListEntry Frame)} {now : BitVec 64}
  {pdev : Link} {number : Nat}

/-- Once the list is updated, the frame in the algorithm is listed. -/
theorem Owes.listed_le (owes : Owes scenario desc newEntry (ghosts .algoEntry, world) pdev number)
    (link : Link) : listed (ghosts .algoEntry) world.below link ≤ world.below.arrived link := by
  have ghost : ghosts .algoEntry = some (pdev, number) := owes.frame.ghost
  have current : world.below.arrived pdev = number := owes.frame.current
  rw [ghost]
  dsimp only [listed]
  split
  · rename_i same
    subst same
    omega
  · exact le_refl _

/-- A queued entry carries the frame in the algorithm. -/
theorem Owes.queuedEntry
    (owes : Owes scenario desc newEntry (ghosts .algoEntry, world) pdev number)
    (prepared : ∀ entry ∈ newEntry, entry.params = desc.params ∧ entry.Coherent)
    {entry : ListEntry Frame}
    (queued : entry ∈ queuedEntry numMloLinks world.host.reoList desc newEntry now) :
    entry.nbuf = (pdev, number) ∧ entry.ts = BitVec.ofNat 32 (scenario.time pdev number) ∧
      (entry.waitCount = desc.waitCount ∨
        ∃ leastGreater ∈ world.host.reoList.list, notNewer desc leastGreater = false ∧
          entry.waitCount = updateWaitCount numMloLinks desc.waitCount leastGreater.waitCount) := by
  obtain ⟨new, isNew, rfl, -⟩ := mem_queuedEntry queued
  obtain ⟨sameNbuf, sameCount⟩ := owes.entry new isNew
  have nbuf := lowerToLeastGreater_view (·.nbuf) numMloLinks (fun _ _ _ => rfl)
    (world.host.reoList.list.dropWhile (notNewer desc)) new
  have ts := lowerToLeastGreater_view (·.ts) numMloLinks (fun _ _ _ => rfl)
    (world.host.reoList.list.dropWhile (notNewer desc)) new
  refine ⟨nbuf.trans (sameNbuf.trans owes.nbuf), ts.trans ?_, ?_⟩
  · rw [ListEntry.ts, (prepared new isNew).1, owes.params]
    rfl
  · show (new.lowerToLeastGreater numMloLinks _).waitCount = _ ∨ _
    cases dropped : world.host.reoList.list.dropWhile (notNewer desc) with
    | nil => exact Or.inl sameCount
    | cons leastGreater rest =>
      have member : leastGreater ∈ world.host.reoList.list.dropWhile (notNewer desc) := by
        rw [dropped]
        exact List.mem_cons_self
      have newer := List.head_dropWhile_not (notNewer desc) (l := world.host.reoList.list)
        (by rw [dropped]; simp)
      simp only [dropped, List.head_cons] at newer
      refine Or.inr ⟨leastGreater, (List.dropWhile_suffix _).subset member, newer, ?_⟩
      show (new.lower numMloLinks leastGreater.waitCount).waitCount = _
      rw [lower_waitCount, sameCount]

/-- The entries that are not newer than the frame in the algorithm are those of no later frames. -/
theorem AirInv.notNewer_iff (inv : AirInv scenario numMloLinks history ghosts world)
    (owes : Owes scenario desc newEntry (ghosts .algoEntry, world) pdev number)
    {old : ListEntry Frame} (member : old ∈ world.host.reoList.list) :
    notNewer desc old = true ↔ scenario.entryTime old ≤ scenario.time pdev number := by
  have inTime : desc.params.globalTimestamp = BitVec.ofNat 32 (scenario.time pdev number) := by
    rw [owes.params]
    rfl
  unfold notNewer
  rw [inTime]
  exact inv.gte_iff member (owes.frame.live inv.ok).2

/-- What covers at the old list still covers when the frame in the algorithm is listed. -/
theorem Owes.covers_listed
    (owes : Owes scenario desc newEntry (ghosts .algoEntry, world) pdev number)
    (sameBelow : after.below = world.below) {inTime : Nat} {count : WaitCount} {link : Link}
    (covers : Covers scenario inTime count link (ghosts .algoEntry, world)) :
    Covers scenario inTime count link (none, after) := by
  refine covers.listed_le (by rw [sameBelow]) (by rw [sameBelow]) ?_
  rw [sameBelow]
  exact owes.listed_le link

/-- An entry with the frame and the time of an old one. -/
theorem AirInv.entry_kept (inv : AirInv scenario numMloLinks history ghosts world)
    (owes : Owes scenario desc newEntry (ghosts .algoEntry, world) pdev number)
    (sameBelow : after.below = world.below) {old entry : ListEntry Frame}
    (member : old ∈ world.host.reoList.list) (nbuf : entry.nbuf = old.nbuf)
    (ts : entry.ts = old.ts) :
    EntryOk scenario none after.below entry := by
  obtain ⟨oldPositive, oldListed, oldTs⟩ := inv.entries old member
  refine ⟨by rw [nbuf]; exact oldPositive, ?_, ?_⟩
  · rw [nbuf, sameBelow]
    exact oldListed.trans (owes.listed_le _)
  · rw [ts, oldTs]
    unfold Scenario.entryTime
    rw [nbuf]

theorem AirInv.updateList_entries (inv : AirInv scenario numMloLinks history ghosts world)
    (owes : Owes scenario desc newEntry (ghosts .algoEntry, world) pdev number)
    (prepared : ∀ entry ∈ newEntry, entry.params = desc.params ∧ entry.Coherent)
    (sameBelow : after.below = world.below) :
    ∀ entry ∈ (MgmtRxReo.updateList numMloLinks world.host.reoList desc newEntry now).1.list,
      EntryOk scenario none after.below entry := by
  intro entry member
  rcases mem_updateList member with ⟨old, inList, -, rfl⟩ | queued | ⟨old, inNewer, rfl⟩
  · exact inv.entry_kept owes sameBelow inList
      (lower_view (·.nbuf) numMloLinks (fun _ _ _ => rfl) _ old) (lower_ts _ _ _)
  · obtain ⟨nbuf, ts, -⟩ := owes.queuedEntry prepared queued
    refine ⟨by rw [nbuf]; exact owes.frame.positive, ?_, by rw [ts, Scenario.entryTime, nbuf]⟩
    rw [nbuf, sameBelow]
    exact owes.frame.current.ge
  · exact inv.entry_kept owes sameBelow ((List.dropWhile_suffix _).subset inNewer)
      (arrival_view (·.nbuf) (fun _ _ _ => rfl) _ old) (arrival_ts _ _)

/-- A newer entry waits for one frame less on the link of the frame in the algorithm. -/
theorem AirInv.covers_decrement (inv : AirInv scenario numMloLinks history ghosts world)
    (owes : Owes scenario desc newEntry (ghosts .algoEntry, world) pdev number)
    (sameBelow : after.below = world.below) {old : ListEntry Frame}
    (inList : old ∈ world.host.reoList.list) (link : Link) :
    Covers scenario (scenario.entryTime old) (old.waitCount.decrement pdev) link (none, after) := by
  have ghost : ghosts .algoEntry = some (pdev, number) := owes.frame.ghost
  have current : world.below.arrived pdev = number := owes.frame.current
  have positive := owes.frame.positive
  by_cases own : link = pdev
  · subst own
    -- the frame that arrived was one of those that the count covers
    intro other unlisted numbered older notConsumed
    have covered := inv.covers old inList link other
    rw [sameBelow] at numbered notConsumed unlisted
    dsimp only [listed] at unlisted
    rw [ghost] at covered
    dsimp only [listed] at covered
    rw [if_pos rfl] at covered
    have within := covered (by omega) numbered older notConsumed
    have decremented := decrement_perLink old.waitCount link link
    rw [if_pos rfl] at decremented
    show other ≤ listed none after.below link +
      ((old.waitCount.decrement link).perLinkCount link).toNat
    rw [decremented, sameBelow]
    dsimp only [listed]
    omega
  · intro other unlisted numbered older notConsumed
    have within := owes.covers_listed sameBelow (inv.covers old inList link) other unlisted numbered
      older notConsumed
    have decremented := decrement_perLink old.waitCount pdev link
    rw [if_neg own] at decremented
    show other ≤ listed none after.below link +
      ((old.waitCount.decrement pdev).perLinkCount link).toNat
    rw [decremented]
    exact within

theorem AirInv.updateList_covers (inv : AirInv scenario numMloLinks history ghosts world)
    (owes : Owes scenario desc newEntry (ghosts .algoEntry, world) pdev number)
    (prepared : ∀ entry ∈ newEntry, entry.params = desc.params ∧ entry.Coherent)
    (sameBelow : after.below = world.below) :
    ∀ entry ∈ (MgmtRxReo.updateList numMloLinks world.host.reoList desc newEntry now).1.list,
      ∀ link, Covers scenario (scenario.entryTime entry) entry.waitCount link (none, after) := by
  have keeps {inTime : Nat} {count : WaitCount} {link : Link}
      (covers : Covers scenario inTime count link (ghosts .algoEntry, world)) :
      Covers scenario inTime count link (none, after) := owes.covers_listed sameBelow covers
  intro entry member link
  rcases mem_updateList member with ⟨old, inList, passes, rfl⟩ | queued | ⟨old, inNewer, rfl⟩
  · have nbuf := lower_view (·.nbuf) numMloLinks (fun _ _ _ => rfl) desc.waitCount old
    rw [lower_waitCount, Scenario.entryTime, nbuf]
    exact (keeps (inv.covers old inList link)).updateWaitCount numMloLinks
      ((keeps (owes.covers link)).older ((inv.notNewer_iff owes inList).mp passes))
  · obtain ⟨nbuf, -, count⟩ := owes.queuedEntry prepared queued
    rw [Scenario.entryTime, nbuf]
    rcases count with isDesc | ⟨leastGreater, inList, newer, isLowered⟩
    · rw [isDesc]
      exact keeps (owes.covers link)
    · rw [isLowered]
      refine (keeps (owes.covers link)).updateWaitCount numMloLinks
        ((keeps (inv.covers leastGreater inList link)).older ?_)
      by_contra older
      have passes := (inv.notNewer_iff owes inList).mpr (by omega)
      rw [newer] at passes
      exact Bool.false_ne_true passes
  · have inList := (List.dropWhile_suffix _).subset inNewer
    have nbuf := arrival_view (·.nbuf) (fun _ _ _ => rfl) desc.params.linkId old
    rw [arrival_waitCount, Scenario.entryTime, nbuf, owes.params]
    exact inv.covers_decrement owes sameBelow inList link

/-- The frame of an entry that is queued is in the list from now on. -/
theorem AirInv.updateList_queued (inv : AirInv scenario numMloLinks history ghosts world)
    (owes : Owes scenario desc newEntry (ghosts .algoEntry, world) pdev number)
    (prepared : ∀ entry ∈ newEntry, entry.params = desc.params ∧ entry.Coherent)
    (isAfter : after.host = { world.host with
      reoList := (MgmtRxReo.updateList numMloLinks world.host.reoList desc newEntry now).1 })
    {frame : Frame} (isQueued : Queued frame
      ((world, .call .algoEntry (.updateList desc newEntry)
        (MgmtRxReo.updateList numMloLinks world.host.reoList desc newEntry now).2) :: history)) :
    frame ∈ after.host.reoList.list.map (·.nbuf) ∨
      Function.update ghosts .algoEntry none .frameRelease = some frame ∨
          SentUp frame after.host := by
  have moved := updateList_map (·.nbuf) numMloLinks (fun _ _ _ => rfl) world.host.reoList desc
    newEntry now
  have sameList : after.host.reoList.list =
      (MgmtRxReo.updateList numMloLinks world.host.reoList desc newEntry now).1.list := by
    rw [isAfter]
  rw [sameList, moved.mem_iff, List.mem_append, Function.update_of_ne (by decide)]
  obtain ⟨event, member, queues⟩ := isQueued
  rcases List.mem_cons.mp member with rfl | earlier
  · obtain ⟨isFrame, isNew⟩ := queues
    rw [updateList_isQueued] at isNew
    obtain ⟨entry, queued⟩ := Option.isSome_iff_exists.mp isNew
    obtain ⟨nbuf, -⟩ := owes.queuedEntry prepared queued
    refine Or.inl (Or.inr (List.mem_map.mpr ⟨entry, Option.mem_toList.mpr queued, ?_⟩))
    rw [nbuf, ← owes.nbuf]
    exact isFrame
  · have before : frame ∈ world.host.reoList.list.map (·.nbuf) ∨
        ghosts .frameRelease = some frame ∨ SentUp frame after.host := by
      rw [isAfter]
      exact inv.queued frame ⟨event, earlier, queues⟩
    rcases before with inList | inFlight | sent
    · exact Or.inl (Or.inl inList)
    · exact Or.inr (Or.inl inFlight)
    · exact Or.inr (Or.inr sent)

/-- **The update of the list keeps the invariant.** Entries not newer than the frame take over its
smaller counts; newer entries have one frame less to wait for; the queued entry takes over the
counts of the least greater one. -/
theorem AirInv.updateList (inv : AirInv scenario numMloLinks history ghosts world)
    (owes : Owes scenario desc newEntry (ghosts .algoEntry, world) pdev number)
    (prepared : ∀ entry ∈ newEntry, entry.params = desc.params ∧ entry.Coherent)
    (span : Span scenario after)
    (isAfter : after.host = { world.host with
      reoList := (MgmtRxReo.updateList numMloLinks world.host.reoList desc newEntry now).1 })
    (sameBelow : after.below = world.below) :
    AirInv scenario numMloLinks
      ((world, .call .algoEntry (.updateList desc newEntry)
        (MgmtRxReo.updateList numMloLinks world.host.reoList desc newEntry now).2) :: history)
      (Function.update ghosts .algoEntry none) after := by
  have ghost : ghosts .algoEntry = some (pdev, number) := owes.frame.ghost
  have current : world.below.arrived pdev = number := owes.frame.current
  have sameList : after.host.reoList.list =
      (MgmtRxReo.updateList numMloLinks world.host.reoList desc newEntry now).1.list := by
    rw [isAfter]
  have entries : ∀ entry ∈ after.host.reoList.list, EntryOk scenario none after.below entry := by
    rw [sameList]
    exact inv.updateList_entries owes prepared sameBelow
  have window : after.host.reoList.InWindow :=
    inWindow_of_span span fun entry member => (entries entry member).ts
  rw [isAfter] at window
  refine ⟨by rw [sameBelow]; exact inv.ok, span, ?_, by rw [Function.update_self]; exact entries,
    ?_, fun frame => inv.updateList_queued owes prepared isAfter, ?_, ?_⟩
  · rw [isAfter]
    exact inv.listOk.updateList numMloLinks desc newEntry now prepared window
  · rw [Function.update_self, sameList]
    exact inv.updateList_covers owes prepared sameBelow
  · intro other otherNumber isGhost
    rw [Function.update_self] at isGhost
    exact absurd isGhost (by simp)
  · intro link other otherPositive isListed
    rw [Function.update_self, sameBelow] at isListed
    by_cases isNew : (link, other) = (pdev, number)
    · obtain ⟨-, -, newer, entered⟩ := inv.entered pdev number ghost
      rw [isNew]
      exact entered.passed rfl
    · refine (inv.passed link other otherPositive ?_).cons
      rw [ghost]
      dsimp only [listed] at isListed ⊢
      split
      · rename_i same
        subst same
        have different : other ≠ number := fun same => isNew (by rw [same])
        omega
      · exact isListed

end Update

/-! ### The release, the arrival and the return -/

/-- Taking an entry off the list puts its frame on its way up. -/
theorem AirInv.releaseFirst (inv : AirInv scenario numMloLinks history ghosts world)
    (nothing : ghosts .frameRelease = none) {reoList : ReoList Frame}
    {released : Option (ListEntry Frame)}
    (round : MgmtRxReo.releaseFirst world.host.reoList = some (reoList, released))
    (span : Span scenario after) (isAfter : after.host = { world.host with reoList := reoList })
    (sameBelow : after.below = world.below) :
    AirInv scenario numMloLinks history
      (Function.update ghosts .frameRelease (released.map (·.nbuf))) after := by
  have sameGhost : Function.update ghosts .frameRelease (released.map (·.nbuf)) .algoEntry =
      ghosts .algoEntry := Function.update_of_ne (by decide) _ _
  have subset : ∀ entry ∈ reoList.list, entry ∈ world.host.reoList.list := by
    rcases releaseFirst_cases round with ⟨-, rfl⟩ | ⟨first, rest, isList, -, -, -, rfl⟩
    · exact fun _ member => member
    · intro entry member
      rw [isList]
      exact List.mem_cons_of_mem _ member
  refine ⟨by rw [sameBelow]; exact inv.ok, span, ?_, ?_, ?_, ?_,
    by rw [sameGhost, sameBelow]; exact inv.entered, by rw [sameGhost, sameBelow]; exact inv.passed⟩
  · rw [isAfter]
    exact inv.listOk.releaseFirst round
  · rw [isAfter, sameGhost, sameBelow]
    exact fun entry member => inv.entries entry (subset entry member)
  · rw [isAfter, sameGhost]
    intro entry member link
    exact (inv.covers entry (subset entry member) link).listed_le (by rw [sameBelow])
      (by rw [sameBelow]) (by rw [sameBelow])
  · intro frame isQueued
    rw [Function.update_self, isAfter]
    rcases inv.queued frame isQueued with inList | inFlight | sent
    · rcases releaseFirst_cases round with ⟨rfl, rfl⟩ | ⟨first, rest, isList, -, -, rfl, rfl⟩
      · exact Or.inl inList
      · rw [isList, List.map_cons, List.mem_cons] at inList
        rcases inList with rfl | later
        · refine Or.inr (Or.inl (congrArg some ?_))
          exact markMaxSize_view (·.nbuf) (fun _ _ => rfl) _ first
        · exact Or.inl later
    · rw [nothing] at inFlight
      exact absurd inFlight (by simp)
    · exact Or.inr (Or.inr sent)

/-- Sending up an entry. -/
theorem AirInv.processRxFrame (inv : AirInv scenario numMloLinks history ghosts world)
    {entry : ListEntry Frame} {reason : ReleaseReason}
    (inFlight : ghosts .frameRelease = some entry.nbuf) (span : Span scenario after)
    (isAfter : after.host =
      { world.host with sentUp := world.host.sentUp ++ [(entry, reason)] })
    (sameBelow : after.below = world.below) :
    AirInv scenario numMloLinks history (Function.update ghosts .frameRelease none) after := by
  have sameGhost : Function.update ghosts .frameRelease none .algoEntry = ghosts .algoEntry :=
    Function.update_of_ne (by decide) _ _
  refine ⟨by rw [sameBelow]; exact inv.ok, span, by rw [isAfter]; exact inv.listOk, ?_, ?_, ?_,
    by rw [sameGhost, sameBelow]; exact inv.entered, by rw [sameGhost, sameBelow]; exact inv.passed⟩
  · rw [isAfter, sameGhost, sameBelow]
    exact inv.entries
  · rw [isAfter, sameGhost]
    intro entry member link
    exact (inv.covers entry member link).listed_le (by rw [sameBelow]) (by rw [sameBelow])
      (by rw [sameBelow])
  · intro frame isQueued
    rw [isAfter]
    have sends : ∀ frame, SentUp frame world.host ∨ frame = entry.nbuf →
        SentUp frame { world.host with sentUp := world.host.sentUp ++ [(entry, reason)] } := by
      intro frame sent
      unfold SentUp
      rw [List.map_append, List.mem_append]
      rcases sent with before | rfl
      · exact Or.inl before
      · exact Or.inr (by simp)
    rcases inv.queued frame isQueued with inList | isEntry | sent
    · exact Or.inl inList
    · rw [inFlight] at isEntry
      exact Or.inr (Or.inr (sends frame (Or.inr (Option.some.inj isEntry).symm)))
    · exact Or.inr (Or.inr (sends frame (Or.inl sent)))

/-- A frame is handed to the algorithm: it is the next one of its link, and not listed yet. -/
theorem AirInv.arrives (inv : AirInv scenario numMloLinks history ghosts world)
    (nothing : ghosts .algoEntry = none) {pdev : Link} {type : FrameType} {frame : Frame}
    {params : ReoParams} (span : Span scenario after) (sameHost : after.host = world.host)
    (arrives : Air.Arrives scenario world.below pdev type frame params after.below) :
    AirInv scenario numMloLinks
        ((world, .start .algoEntry (algoEntry numMloLinks pdev (.fresh type frame params))) ::
          history) (Function.update ghosts .algoEntry (some frame)) after ∧
      frame.1 = pdev ∧ params = scenario.params pdev frame.2 ∧
      InFrame pdev frame.2 (some frame, after) := by
  obtain ⟨host, below⟩ := after
  dsimp only at sameHost arrives
  subst sameHost
  cases arrives with
  | frame decided kind =>
    have arrivedAt : ∀ other, Function.update world.below.arrived pdev
        (world.below.arrived pdev + 1) other =
          if other = pdev then world.below.arrived pdev + 1 else world.below.arrived other :=
      fun other => Function.update_apply _ _ _ _
    have sameListed : ∀ other, listed (some (pdev, world.below.arrived pdev + 1))
        (world.below.handOver pdev) other = listed none world.below other := by
      intro other
      dsimp only [listed, Air.handOver]
      rw [arrivedAt]
      split
      · rename_i same
        rw [same]
        rfl
      · rfl
    refine ⟨⟨?_, span, inv.listOk, ?_, ?_, ?_, ?_, ?_⟩, rfl, rfl, rfl, ?_, by dsimp only; omega⟩
    · refine ⟨fun other => ?_, inv.ok.written_le, inv.ok.decided_le, inv.ok.unused, inv.ok.monotone⟩
      show Function.update world.below.arrived pdev _ other ≤ _
      rw [arrivedAt]
      split
      · rename_i same
        rw [same]
        exact decided
      · exact inv.ok.arrived_le other
    · rw [Function.update_self]
      intro entry member
      obtain ⟨positive, isListed, ts⟩ := inv.entries entry member
      rw [nothing] at isListed
      exact ⟨positive, by rw [sameListed]; exact isListed, ts⟩
    · rw [Function.update_self]
      intro entry member other
      have covers := inv.covers entry member other
      rw [nothing] at covers
      exact covers.listed_le rfl rfl (sameListed other).ge
    · rw [Function.update_of_ne (by decide)]
      exact fun frame isQueued => inv.queued frame (queued_cons id isQueued)
    · rw [Function.update_self]
      intro other number isFrame
      obtain ⟨rfl, rfl⟩ := Prod.mk.inj (Option.some.inj isFrame)
      exact ⟨by omega, Function.update_self _ _ _, [], history, world, type, _, rfl⟩
    · rw [Function.update_self]
      intro other number positive isListed
      rw [sameListed, ← nothing] at isListed
      exact (inv.passed other number positive isListed).cons
    · exact Function.update_self _ _ _

/-- The algorithm returns: whatever frame it had is done with. -/
theorem AirInv.finish (inv : AirInv scenario numMloLinks history ghosts world) :
    AirInv scenario numMloLinks ((world, .finish .algoEntry) :: history)
      (Function.update ghosts .algoEntry none) world := by
  have listed_le : ∀ link, listed (ghosts .algoEntry) world.below link ≤
      listed none world.below link := by
    intro link
    cases isGhost : ghosts .algoEntry with
    | none => exact le_refl _
    | some frame =>
      obtain ⟨-, current, -⟩ := inv.entered frame.1 frame.2 isGhost
      dsimp only [listed]
      split
      · rename_i same
        rw [same]
        omega
      · exact le_refl _
  refine ⟨inv.ok, inv.span, inv.listOk, ?_, ?_, ?_, ?_, ?_⟩
  · rw [Function.update_self]
    intro entry member
    obtain ⟨positive, isListed, ts⟩ := inv.entries entry member
    exact ⟨positive, isListed.trans (listed_le _), ts⟩
  · rw [Function.update_self]
    exact fun entry member link => (inv.covers entry member link).listed_le rfl rfl (listed_le link)
  · rw [Function.update_of_ne (by decide)]
    exact fun frame isQueued => inv.queued frame (queued_cons id isQueued)
  · intro pdev number isFrame
    rw [Function.update_self] at isFrame
    exact absurd isFrame (by simp)
  · intro link number positive isListed
    rw [Function.update_self] at isListed
    by_cases before : number ≤ listed (ghosts .algoEntry) world.below link
    · exact (inv.passed link number positive before).cons
    · cases isGhost : ghosts .algoEntry with
      | none =>
        rw [isGhost] at before
        exact absurd isListed before
      | some frame =>
        obtain ⟨-, current, newer, entered⟩ := inv.entered frame.1 frame.2 isGhost
        rw [isGhost] at before
        dsimp only [listed] at before isListed
        have isFrame : (link, number) = frame := by
          split at before
          · rename_i same
            subst same
            exact Prod.ext rfl (by omega)
          · exact absurd isListed before
        rw [isFrame]
        exact entered.passed rfl

end Inv

/-! ### The protocol -/

/-- The frame that the release loop has taken off the list and not sent up yet. -/
def inFlightAfter : (op : HostOp Frame) → op.Res → Option Frame → Option Frame
  | .releaseFirst, some released, _ => released.map (·.nbuf)
  | .processRxFrame _ _, _, _ => none
  | _, _, ghost => ghost

/-- The thread in the release loop sends up what it takes off the list, before it takes more. -/
def deliverContract : Contract (HostOp Frame) HostOp.Res (Option Frame × World Frame Air) where
  rely := fun before later => later.1 = before.1
  pre := fun op state =>
    match op with
    | .releaseFirst => state.1 = none
    | .processRxFrame entry _ => state.1 = some entry.nbuf
    | .releasePdevRef _ => True
    | .free _ => True
    | _ => False
  post := fun op state res after => after.1 = inFlightAfter op res state.1
  rely_trans := fun one two => two.trans one
  rely_settled := fun _ => rfl

theorem releaseEntries_delivers {state : Option Frame × World Frame Air}
    (nothing : state.1 = none) :
    (releaseEntries : HostProg Frame Bool).wp deliverContract (fun _ last => last.1 = none)
      (fun stop _ => stop = .assertion) state := by
  refine Prog.wp_call fun before same => ⟨Eq.trans same nothing, fun round after taken => ?_⟩
  have ghost : before.1 = none := Eq.trans same nothing
  cases round with
  | none => exact Prog.wp_stop fun _ _ => rfl
  | some released =>
    cases released with
    | none => exact Prog.wp_done fun _ same => Eq.trans same taken
    | some entry =>
      dsimp only
      split
      · exact Prog.wp_stop fun _ _ => rfl
      refine Prog.wp_call fun atSend same => ⟨Eq.trans same taken, fun _ afterSend sent => ?_⟩
      refine Prog.wp_call fun atRef same => ⟨trivial, fun _ afterRef kept => ?_⟩
      have noFlight : afterRef.1 = none := Eq.trans kept (Eq.trans same sent)
      refine Prog.wp_call fun atFree same => ⟨trivial, fun _ afterFree kept => ?_⟩
      exact Prog.wp_done fun _ last => Eq.trans last (Eq.trans kept (Eq.trans same noFlight))

/-- The host over hardware and firmware, in the runs that `Span` allows. -/
def airSystem (scenario : Scenario) (numMloLinks : Nat) :
    System LockId (HostOp Frame) HostOp.Res Stop Bool (World Frame Air) :=
  (system (air scenario numMloLinks) numMloLinks).restrict (Span scenario)

/-- The protocol of the air order. -/
def airOrder (scenario : Scenario) (numMloLinks : Nat) :
    Protocol (airSystem scenario numMloLinks) (Option Frame) where
  contract := fun
    | .algoEntry => (airContract scenario numMloLinks).and (algoContract (Option Frame) Frame Air)
    | .frameRelease => deliverContract
  inv := AirInv scenario numMloLinks
  idle := fun
    | .algoEntry, state => state.1 = none ∧ AlgoEnded scenario state
    | .frameRelease, state => state.1 = none
  ended := fun
    | .algoEntry, state => AlgoEnded scenario state
    | .frameRelease, state => state.1 = none
  bad := fun
    | .algoEntry, stop, state => AlgoStopped scenario stop state
    | .frameRelease, stop, _ => stop = .assertion

section Protocol

variable {scenario : Scenario} {numMloLinks : Nat} {history : AirHistory}
  {ghosts : LockId → Option Frame} {world after : World Frame Air}

/-- What the algorithm relies on, when nothing that it looks at changes. -/
theorem airRely_of_same (inv : AirInv scenario numMloLinks history ghosts world)
    (span : Span scenario after)
    (sameSs : after.host.hostSnapshot = world.host.hostSnapshot)
    (samePriv : after.host.privObject = world.host.privObject)
    (sameBelow : after.below = world.below) (ghost : Option Frame) :
    ((airContract scenario numMloLinks).and (algoContract (Option Frame) Frame Air)).rely
      (ghost, world) (ghost, after) := by
  refine ⟨⟨rfl, sameSs, samePriv, ?_, ?_, span⟩, trivial⟩
  · rw [sameBelow]
    exact .refl _ _
  · rw [sameBelow]
    exact inv.ok

/-- A call of the thread in the algorithm. -/
theorem airCall_algo (inv : AirInv scenario numMloLinks history ghosts world) {op : HostOp Frame}
    {res : op.Res} (pre : (airContract scenario numMloLinks).pre op (ghosts .algoEntry, world))
    (prepared : (algoContract (Option Frame) Frame Air).pre op (ghosts .algoEntry, world))
    (effect : Effect numMloLinks op world.host res after.host) (span : Span scenario after)
    (sameBelow : after.below = world.below) :
    AirInv scenario numMloLinks ((world, .call .algoEntry op res) :: history)
      (Function.update ghosts .algoEntry (pendingAfter op (ghosts .algoEntry))) after := by
  cases changes : op.changesList with
  | false =>
    obtain ⟨sameList, sameSent⟩ := effect_frame changes effect
    have kept : AirInv scenario numMloLinks ((world, .call .algoEntry op res) :: history) ghosts
        after := by
      refine (inv.congr span sameList sameSent sameBelow).cons fun frame queues => ?_
      cases op with
      | updateList desc newEntry => exact absurd changes (by simp [HostOp.changesList])
      | _ => exact queues
    have sameGhost : pendingAfter op (ghosts .algoEntry) = ghosts .algoEntry := by
      cases op with
      | updateList desc newEntry => exact absurd changes (by simp [HostOp.changesList])
      | _ => rfl
    rw [sameGhost, Function.update_eq_self]
    exact kept
  | true =>
    cases op with
    | updateList desc newEntry =>
      obtain ⟨pdev, number, owes⟩ := pre
      obtain ⟨now, rfl, isAfter⟩ := effect
      exact inv.updateList owes prepared span isAfter sameBelow
    | releaseFirst => exact absurd prepared id
    | processRxFrame entry reason => exact absurd prepared id
    | _ => exact absurd changes (by simp [HostOp.changesList])

/-- A call of the thread in the release loop. -/
theorem airCall_release (inv : AirInv scenario numMloLinks history ghosts world)
    {op : HostOp Frame} {res : op.Res} (pre : deliverContract.pre op (ghosts .frameRelease, world))
    (effect : Effect numMloLinks op world.host res after.host) (span : Span scenario after)
    (sameBelow : after.below = world.below) :
    AirInv scenario numMloLinks ((world, .call .frameRelease op res) :: history)
        (Function.update ghosts .frameRelease (inFlightAfter op res (ghosts .frameRelease))) after ∧
      op.changesNothing = true := by
  cases op with
  | releaseFirst =>
    refine ⟨?_, rfl⟩
    dsimp only [Effect] at effect
    cases round : releaseFirst world.host.reoList with
    | none =>
      rw [round] at effect
      obtain ⟨rfl, sameHost⟩ := effect
      show AirInv _ _ _ (Function.update ghosts .frameRelease (ghosts .frameRelease)) _
      rw [Function.update_eq_self]
      exact (inv.congr span (by rw [sameHost]) (by rw [sameHost]) sameBelow).cons fun _ => id
    | some outcome =>
      obtain ⟨reoList, released⟩ := outcome
      rw [round] at effect
      obtain ⟨rfl, isAfter⟩ := effect
      exact (inv.releaseFirst pre round span isAfter sameBelow).cons fun _ => id
  | processRxFrame entry reason =>
    exact ⟨(inv.processRxFrame pre span effect sameBelow).cons fun _ => id, rfl⟩
  | releasePdevRef pdev =>
    refine ⟨?_, rfl⟩
    obtain ⟨sameList, sameSent⟩ := effect_frame rfl effect
    show AirInv _ _ _ (Function.update ghosts .frameRelease (ghosts .frameRelease)) _
    rw [Function.update_eq_self]
    exact (inv.congr span sameList sameSent sameBelow).cons fun _ => id
  | free address =>
    refine ⟨?_, rfl⟩
    obtain ⟨sameList, sameSent⟩ := effect_frame rfl effect
    show AirInv _ _ _ (Function.update ghosts .frameRelease (ghosts .frameRelease)) _
    rw [Function.update_eq_self]
    exact (inv.congr span sameList sameSent sameBelow).cons fun _ => id
  | _ => exact absurd pre id

theorem airInv_init (span : Span scenario world) {privObject : Link → Bool}
    (isHost : world.host = Host.init Frame privObject) (isBelow : world.below = .init) :
    AirInv scenario numMloLinks [] (fun _ => none) world := by
  obtain ⟨host, below⟩ := world
  dsimp only at isHost isBelow
  subst isHost isBelow
  refine ⟨Air.ok_init scenario numMloLinks, span, listOk_init, ?_, ?_, ?_, ?_, ?_⟩
  · exact fun _ member => absurd member List.not_mem_nil
  · exact fun _ member => absurd member List.not_mem_nil
  · exact fun _ ⟨_, member, _⟩ => absurd member List.not_mem_nil
  · exact fun _ _ isFrame => absurd isFrame (by simp)
  · intro link number positive isListed
    have none : number ≤ 0 := isListed
    omega

theorem airOrder_valid (scenario : Scenario) (numMloLinks : Nat) :
    (airOrder scenario numMloLinks).Valid where
  settled := fun inv tid =>
    match tid with
    | .algoEntry => airRely_of_same inv inv.span rfl rfl rfl _
    | .frameRelease => rfl
  idle_rely := fun {tid _ _} rely idle =>
    match tid with
    | .algoEntry => ⟨rely.1.1.trans idle.1, fun link =>
        (idle.2 link).congr rely.1.2.1 rely.1.2.2.1 rely.1.2.2.2.1.arrived⟩
    | .frameRelease => Eq.trans rely idle
  ended_of_bad := fun {tid _ _} returns bad => by
    obtain ⟨status, rfl⟩ := returns
    cases tid with
    | algoEntry => exact bad (by simp)
    | frameRelease => exact absurd bad (by simp [airOrder])
  init := fun {world} initial => by
    obtain ⟨⟨isBelow, privObject, isHost⟩, span⟩ := initial
    refine ⟨fun _ => none, airInv_init span isHost isBelow, fun tid => ?_⟩
    cases tid with
    | frameRelease => rfl
    | algoEntry =>
      refine ⟨rfl, fun link context => ?_⟩
      show world.host.hostSnapshot link = hostRecorded scenario link (world.below.arrived link)
      rw [isHost, isBelow]
      rfl
  start := fun {history ghosts world tid program after} inv idle started => by
    obtain ⟨⟨sameHost, started⟩, span⟩ := started
    cases tid with
    | algoEntry =>
      obtain ⟨pdev, type, frame, params, arrives, rfl⟩ := started
      obtain ⟨nothing, hostSs⟩ := idle
      have inv : AirInv scenario numMloLinks history ghosts world := inv
      obtain ⟨inv', isPdev, isParams, inFrame⟩ := inv.arrives nothing span sameHost arrives
      refine ⟨some frame, inv', ?_, fun other notSelf => ?_⟩
      · obtain ⟨link, number⟩ := frame
        obtain rfl : link = pdev := isPdev
        subst isParams
        have others : ∀ other, other ≠ link → HostSsOk scenario after other := by
          intro other isOther context
          rw [sameHost] at context ⊢
          rw [hostSs other context, arrives.after]
          exact congrArg _ (Function.update_of_ne isOther _ _).symm
        exact Prog.wp_mono (fun _ _ good => good.1) (fun _ _ bad => bad.1) _
          (Prog.wp_and _ (algoEntry_covers type inFrame others)
            (algoEntry_coherent numMloLinks link type (link, number) _))
      · cases other with
        | algoEntry => exact absurd rfl notSelf
        | frameRelease => rfl
    | frameRelease =>
      obtain ⟨sameBelow, rfl⟩ := started
      have inv : AirInv scenario numMloLinks history ghosts world := inv
      refine ⟨ghosts .frameRelease, ?_, releaseEntries_delivers idle, fun other notSelf => ?_⟩
      · rw [Function.update_eq_self]
        exact (inv.congr span (by rw [sameHost]) (by rw [sameHost]) sameBelow).cons fun _ => id
      · cases other with
        | algoEntry =>
          exact airRely_of_same inv span (by rw [sameHost]) (by rw [sameHost]) sameBelow _
        | frameRelease => exact absurd rfl notSelf
  call := fun {history ghosts world tid op res after} inv pre effect => by
    obtain ⟨⟨sameBelow, effect, snapshot⟩, span⟩ := effect
    have inv : AirInv scenario numMloLinks history ghosts world := inv
    cases tid with
    | algoEntry =>
      refine ⟨pendingAfter op (ghosts .algoEntry),
        airCall_algo inv pre.1 pre.2 effect span sameBelow,
        ⟨⟨rfl, sameBelow, effect, snapshot⟩, trivial⟩, fun other notSelf => ?_⟩
      cases other with
      | algoEntry => exact absurd rfl notSelf
      | frameRelease => rfl
    | frameRelease =>
      obtain ⟨inv', quiet⟩ := airCall_release inv pre effect span sameBelow
      obtain ⟨sameSs, samePriv⟩ := effect_hostSnapshot quiet effect
      refine ⟨_, inv', rfl, fun other notSelf => ?_⟩
      cases other with
      | algoEntry => exact airRely_of_same inv span sameSs samePriv sameBelow _
      | frameRelease => exact absurd rfl notSelf
  finish := fun {history ghosts world tid} inv ended => by
    have inv : AirInv scenario numMloLinks history ghosts world := inv
    cases tid with
    | algoEntry => exact ⟨none, inv.finish, rfl, ended⟩
    | frameRelease =>
      refine ⟨ghosts .frameRelease, ?_, ended⟩
      rw [Function.update_eq_self]
      exact inv.cons fun _ => id
  env := fun {history ghosts world after} inv moved => by
    obtain ⟨moved, span⟩ := moved
    have inv : AirInv scenario numMloLinks history ghosts world := inv
    rcases moved with ⟨sameHost, moves⟩ | ⟨now, isAged, sameBelow⟩
    · refine ⟨(inv.moves span sameHost moves).cons fun _ => id, fun tid => ?_⟩
      cases tid with
      | frameRelease => rfl
      | algoEntry =>
        obtain ⟨ok, le⟩ := moves.ok inv.ok
        exact ⟨⟨rfl, by rw [sameHost], by rw [sameHost], le, ok, span⟩, trivial⟩
    · refine ⟨(inv.ageout now span isAged sameBelow).cons fun _ => id, fun tid => ?_⟩
      cases tid with
      | frameRelease => rfl
      | algoEntry =>
        exact airRely_of_same inv span (by rw [isAged]) (by rw [isAged]) sameBelow _

end Protocol

/-! ### The result -/

/-- **A zero wait count means that nothing older is on its way.** When an entry is released with the
reason ZERO_WAIT_COUNT, every older frame that MAC HW has numbered on any link has been consumed by
FW, or has been through the algorithm; and if it was queued, it has been sent up. -/
theorem zeroWait_release (scenario : Scenario) (numMloLinks : Nat) {history : AirHistory}
    {machine next : Machine Frame Air} (run : (airSystem scenario numMloLinks).Run history machine)
    {entry : ListEntry Frame}
    (release : (airSystem scenario numMloLinks).Step machine
      (.call .frameRelease .releaseFirst (some (some entry))) next)
    (zeroWait : (getReleaseReason entry.status).zeroWaitCount = true) {link : Link} {number : Nat}
    (positive : 1 ≤ number) (numbered : number ≤ machine.state.below.numbered link)
    (older : scenario.time link number < scenario.entryTime entry) :
    machine.state.below.Consumed scenario link number ∨
      Passed numMloLinks (link, number) history ∧
        (Queued (link, number) history → SentUp (link, number) machine.state.host) := by
  obtain ⟨ghosts, inv, threads⟩ := (airOrder_valid scenario numMloLinks).holds run
  have thread := threads .frameRelease
  cases release with
  | @call state after running tid op follow res atCall effect =>
    have inv : AirInv scenario numMloLinks history ghosts state := inv
    have atCall : running .frameRelease = some (.call .releaseFirst follow) := atCall
    dsimp only at thread
    rw [atCall] at thread
    have nothing : ghosts .frameRelease = none := (thread _ rfl).1
    obtain ⟨⟨-, effect, -⟩, -⟩ := effect
    dsimp only [Effect] at effect
    cases round : releaseFirst state.host.reoList with
    | none =>
      rw [round] at effect
      exact absurd effect.1 (by simp)
    | some outcome =>
      obtain ⟨reoList, released⟩ := outcome
      rw [round] at effect
      obtain rfl := Option.some.inj effect.1
      rcases releaseFirst_cases round with ⟨nothing, -⟩ | ⟨first, rest, isList, -, -, isFirst, -⟩
      · exact absurd nothing (by simp)
      · obtain rfl := Option.some.inj isFirst
        have inList : first ∈ state.host.reoList.list := by
          rw [isList]
          exact List.mem_cons_self
        have sameNbuf := markMaxSize_view (·.nbuf) (fun _ _ => rfl) state.host.reoList first
        have sameWait := markMaxSize_wait state.host.reoList first
        rw [Scenario.entryTime, sameNbuf] at older
        have older : scenario.time link number < scenario.entryTime first := older
        -- the entry waits for nothing, so it covers the link with a count of zero
        have coherent := inv.listOk.coherent first inList
        have noWait : first.waitCount.totalCount = 0 := by
          by_contra waits
          have bit := coherent.waiting.mpr waits
          rw [← sameWait] at bit
          simp [getReleaseReason, bit] at zeroWait
        have noCount := coherent.counts.zero_iff.mp noWait link
        by_cases consumed : state.below.Consumed scenario link number
        · exact Or.inl consumed
        · right
          have isListed : number ≤ listed (ghosts .algoEntry) state.below link := by
            by_contra unlisted
            have notListed : listed (ghosts .algoEntry) state.below link < number :=
              Nat.lt_of_not_le unlisted
            have within := inv.covers first inList link number notListed numbered older consumed
            rw [noCount] at within
            exact unlisted (by simpa using within)
          refine ⟨inv.passed link number positive isListed, fun queued => ?_⟩
          rcases inv.queued _ queued with waiting | inFlight | sent
          · -- an older frame cannot be behind the first entry of a sorted list
            exfalso
            obtain ⟨other, member, isOther⟩ := List.mem_map.mp waiting
            rw [isList] at member
            rcases List.mem_cons.mp member with rfl | later
            · rw [Scenario.entryTime, isOther] at older
              exact absurd older (lt_irrefl _)
            · have sorted := inv.listOk.sorted
              rw [isList, List.map_cons] at sorted
              have order := (List.pairwise_cons.mp sorted).1 _ (List.mem_map_of_mem later)
              have inOther : other ∈ state.host.reoList.list := by
                rw [isList]
                exact List.mem_cons_of_mem _ later
              have live : Live scenario state other.nbuf.1 other.nbuf.2 :=
                Or.inr (Or.inl ⟨other, inOther, rfl⟩)
              have notOlder := (inv.gte_iff inList live).mp
                (by rw [← (inv.entries other inOther).ts]; exact order)
              rw [isOther] at notOlder
              exact absurd (lt_of_le_of_lt notOlder older) (lt_irrefl _)
          · rw [nothing] at inFlight
            exact absurd inFlight (by simp)
          · exact sent

/-! ### A link that was idle for too long -/

section IdleLink

/-- A frame is pending until it is sent up, or handed to the host after FW has consumed it. -/
def Pending (scenario : Scenario) (world : World Frame Air) (link : Link) (number : Nat) : Prop :=
  1 ≤ number ∧ number ≤ world.below.numbered link ∧ ¬SentUp (link, number) world.host ∧
    ¬(number ≤ world.below.arrived link ∧ scenario.consumed link number = true)

/-- Only the pending frames lie less than half the ranges apart. -/
structure PendingSpan (scenario : Scenario) (world : World Frame Air) : Prop where
  times : ∀ link number other earlier, Pending scenario world link number →
    Pending scenario world other earlier →
    scenario.time link number < scenario.time other earlier + 2 ^ 31
  counters : ∀ link, world.below.numbered link < world.below.arrived link + 2 ^ 15

instance (scenario : Scenario) (world : World Frame Air) (link : Link) (number : Nat) :
    Decidable (Pending scenario world link number) := by
  unfold Pending SentUp
  infer_instance

/-- The pending frames lie in the half range from `base` on. -/
def pendingFrom (scenario : Scenario) (base : Nat) (world : World Frame Air) : Bool :=
  decide (∀ link, world.below.numbered link < world.below.arrived link + 2 ^ 15 ∧
    ∀ number < world.below.numbered link + 1, Pending scenario world link number →
      base ≤ scenario.time link number ∧ scenario.time link number < base + 2 ^ 31)

theorem pendingFrom_sound {scenario : Scenario} {base : Nat} {world : World Frame Air}
    (checked : pendingFrom scenario base world = true) : PendingSpan scenario world := by
  have checked := of_decide_eq_true checked
  refine ⟨fun link number other earlier isPending otherPending => ?_, fun link => (checked link).1⟩
  have upper := ((checked link).2 number (Nat.lt_succ_of_le isPending.2.1) isPending).2
  have lower := ((checked other).2 earlier (Nat.lt_succ_of_le otherPending.2.1) otherPending).1
  omega

/-- All frames numbered so far lie in the first half of the range, and nothing else is compared. -/
def firstHalf (scenario : Scenario) (world : World Frame Air) : Bool :=
  decide (∀ link, world.below.numbered link < world.below.arrived link + 2 ^ 15 ∧
    world.below.written link ≤ world.below.numbered link ∧
    ∀ number < world.below.numbered link + 1, 1 ≤ number → scenario.time link number < 2 ^ 31) &&
  world.host.reoList.list.all fun entry => decide (scenario.entryTime entry < 2 ^ 31)

theorem firstHalf_sound {scenario : Scenario} (world : World Frame Air)
    (checked : firstHalf scenario world = true) : Span scenario world := by
  obtain ⟨ofAir, ofList⟩ := Bool.and_eq_true_iff.mp checked
  have ofAir := of_decide_eq_true ofAir
  have bound : ∀ link number, Live scenario world link number →
      scenario.time link number < 2 ^ 31 := by
    intro link number live
    rcases live with ⟨positive, -, numbered⟩ | ⟨entry, member, isFrame⟩ | ⟨id, recorded⟩
    · exact (ofAir link).2.2 number (Nat.lt_succ_of_le numbered) positive
    · have entryBound := of_decide_eq_true (List.all_eq_true.mp ofList entry member)
      rw [Scenario.entryTime, isFrame] at entryBound
      exact entryBound
    · cases id with
      | macHw => exact (ofAir link).2.2 number (Nat.lt_succ_of_le recorded.2.le) recorded.1
      | fwConsumed | fwForwarded =>
        exact (ofAir link).2.2 number (Nat.lt_succ_of_le (recorded.2.1.trans (ofAir link).2.1))
          recorded.1
  refine ⟨fun link number other earlier live _ => ?_, fun link => (ofAir link).1⟩
  have := bound link number live
  omega

/-- Link 1 receives a frame at time 0, and then nothing for more than half the range. -/
def idleLink : Scenario where
  time := fun link number => match link, number with
    | 0, 1 => 2 ^ 30
    | 0, _ => 2 ^ 31 + 5
    | _, 1 => 0
    | _, _ => 2 ^ 31 + 4
  consumed := fun _ _ => false

/-- The snapshots as MAC HW and FW have written them last. -/
def writtenSnapshots (below : Air) (link : Link) : SnapshotId → SnapshotParams
  | .macHw => hostRecorded idleLink link (below.numbered link)
  | .fwConsumed => ⟨false, 0, 0⟩
  | .fwForwarded => hostRecorded idleLink link (below.written link)

theorem writtenSnapshots_readable (below : Air) (link : Link) (id : SnapshotId) :
    (air idleLink 2).snapshot below link id (.ok (writtenSnapshots below link id)) := by
  rintro params isRead valid
  obtain rfl := Except.ok.inj isRead
  cases id with
  | fwConsumed => exact absurd valid (by simp [writtenSnapshots])
  | macHw =>
    rcases Nat.eq_zero_or_pos (below.numbered link) with none | positive
    · simp [writtenSnapshots, hostRecorded, none] at valid
    · exact ⟨_, ⟨positive, rfl⟩, if_neg (by omega)⟩
  | fwForwarded =>
    rcases Nat.eq_zero_or_pos (below.written link) with none | positive
    · simp [writtenSnapshots, hostRecorded, none] at valid
    · exact ⟨_, ⟨positive, le_refl _, rfl, fun _ above below => absurd above (by omega)⟩,
        if_neg (by omega)⟩

/-- The steps of the hardware and the firmware of a link. -/
inductive AirStep where
  | number | decide | write

/-- The counters after a step. -/
def Air.after (air : Air) (link : Link) : AirStep → Air
  | .number => { air with numbered := Function.update air.numbered link (air.numbered link + 1) }
  | .decide => { air with decided := Function.update air.decided link (air.decided link + 1) }
  | .write => { air with written := Function.update air.written link (air.written link + 1) }

/-- When a step can be made. -/
def Air.able (scenario : Scenario) (numMloLinks : Nat) (air : Air) (link : Link) :
    AirStep → Bool
  | .number => decide (link.val < numMloLinks) && decide (∀ other,
      ∀ earlier < air.numbered other + 1,
        1 ≤ earlier → scenario.time other earlier ≤ scenario.time link (air.numbered link + 1))
  | .decide => decide (air.decided link < air.numbered link)
  | .write => decide (air.written link < air.decided link)

theorem Air.able_moves {scenario : Scenario} {numMloLinks : Nat} {air : Air} {link : Link}
    {step : AirStep} (able : air.able scenario numMloLinks link step = true) :
    Air.Moves scenario numMloLinks air (air.after link step) := by
  cases step with
  | number =>
    obtain ⟨used, later⟩ := Bool.and_eq_true_iff.mp able
    exact .number link (of_decide_eq_true used) fun other earlier positive numbered =>
      of_decide_eq_true later other earlier (Nat.lt_succ_of_le numbered) positive
  | decide => exact .decide link (of_decide_eq_true able)
  | write => exact .write link (of_decide_eq_true able)

/-- Before the first frame. -/
def silent : Machine Frame Air := ⟨⟨Host.init Frame fun _ => true, .init⟩, fun _ => none⟩

section Runs

variable (live : World Frame Air → Prop) (check : World Frame Air → Bool)
  (sound : ∀ world, check world = true → live world)

/-- The host over two links, in the runs whose states are live. -/
abbrev idleSystem : System LockId (HostOp Frame) HostOp.Res Stop Bool (World Frame Air) :=
  (system (air idleLink 2) 2).restrict live

/-- Lookups succeed, and the snapshots are read as they have been written. -/
abbrev idleStrategy : Strategy (idleSystem live) :=
  (hostStrategy (air idleLink 2) 2 writtenSnapshots writtenSnapshots_readable).restrict live check
    (sound _)

/-- Hardware and firmware make a step, if the state stays live. -/
def moves (link : Link) (step : AirStep) (machine : Machine Frame Air) : Machine Frame Air :=
  machine.tick fun world =>
    if world.below.able idleLink 2 link step && check ⟨world.host, world.below.after link step⟩ then
      some ⟨world.host, world.below.after link step⟩
    else none

/-- A frame is numbered, forwarded, and recorded as forwarded. -/
def forwards (link : Link) (machine : Machine Frame Air) : Machine Frame Air :=
  moves check link .write (moves check link .decide machine)

/-- The next frame of a link has been taken from the environment. -/
def handedOver (link : Link) (machine : Machine Frame Air) : World Frame Air :=
  ⟨machine.state.host, machine.state.below.handOver link⟩

/-- The next frame of a link goes through the algorithm, if it can. -/
def entersAlgo (link : Link) (machine : Machine Frame Air) : Machine Frame Air :=
  if (machine.running .algoEntry).isNone &&
      decide (machine.state.below.arrived link < machine.state.below.decided link) &&
      check (handedOver link machine) then
    (machine.begin .algoEntry
      (algoEntry 2 link (.fresh .hostConsumed (link, machine.state.below.arrived link + 1)
        (idleLink.params link (machine.state.below.arrived link + 1))))
      (handedOver link machine)).advances (idleStrategy live check sound) .algoEntry 14
  else machine

/-- A round of the release loop is started, if it can. -/
def releasing (machine : Machine Frame Air) : Machine Frame Air :=
  if (machine.running .frameRelease).isNone && check machine.state then
    machine.begin .frameRelease releaseEntries machine.state
  else machine

/-- A round of the release loop. -/
def releasesFrame (machine : Machine Frame Air) : Machine Frame Air :=
  (releasing check machine).advances (idleStrategy live check sound) .frameRelease 6

/-- The first frame of link 1 has been sent up, and the first frame of link 0 is in the list. -/
def firstFrames : Machine Frame Air :=
  entersAlgo live check sound 0 (forwards check 0 (releasesFrame live check sound
    (entersAlgo live check sound 1 (forwards check 1
      (moves check 0 .number (moves check 1 .number silent))))))

/-- Then the second frame of link 0 is in the list, and an older one of link 1 with FW. -/
def secondFrames : Machine Frame Air :=
  entersAlgo live check sound 0 (forwards check 0 (moves check 0 .number
    (moves check 1 .number (releasesFrame live check sound (firstFrames live check sound)))))

variable {live check} {machine : Machine Frame Air}

include sound

theorem moves_reachable (link : Link) (step : AirStep)
    (reachable : (idleSystem live).Reachable machine) :
    (idleSystem live).Reachable (moves check link step machine) := by
  refine Config.tick_reachable reachable fun {world after} moved => ?_
  split at moved
  · rename_i possible
    obtain rfl := Option.some.inj moved
    obtain ⟨able, checked⟩ := Bool.and_eq_true_iff.mp possible
    exact ⟨Or.inl ⟨rfl, Air.able_moves able⟩, sound _ checked⟩
  · exact absurd moved (by simp)

theorem forwards_reachable (link : Link) (reachable : (idleSystem live).Reachable machine) :
    (idleSystem live).Reachable (forwards check link machine) :=
  moves_reachable sound link .write (moves_reachable sound link .decide reachable)

theorem entersAlgo_reachable (link : Link) (reachable : (idleSystem live).Reachable machine) :
    (idleSystem live).Reachable (entersAlgo live check sound link machine) := by
  unfold entersAlgo
  split
  · rename_i possible
    simp only [Bool.and_eq_true, Option.isNone_iff_eq_none, decide_eq_true_iff] at possible
    obtain ⟨⟨free, decided⟩, checked⟩ := possible
    refine Config.advances_reachable _ _ _ (Config.begin_reachable reachable free
      ⟨⟨rfl, link, .hostConsumed, _, _, .frame link .hostConsumed decided ?_, rfl⟩,
        sound _ checked⟩)
    simp [idleLink]
  · exact reachable

theorem releasing_reachable (reachable : (idleSystem live).Reachable machine) :
    (idleSystem live).Reachable (releasing check machine) := by
  unfold releasing
  split
  · rename_i possible
    simp only [Bool.and_eq_true, Option.isNone_iff_eq_none] at possible
    exact Config.begin_reachable reachable possible.1 ⟨⟨rfl, rfl, rfl⟩, sound _ possible.2⟩
  · exact reachable

theorem releasesFrame_reachable (reachable : (idleSystem live).Reachable machine) :
    (idleSystem live).Reachable (releasesFrame live check sound machine) :=
  Config.advances_reachable _ _ _ (releasing_reachable sound reachable)

theorem firstFrames_reachable (initial : live silent.state) :
    (idleSystem live).Reachable (firstFrames live check sound) := by
  refine entersAlgo_reachable sound 0 (forwards_reachable sound 0 (releasesFrame_reachable sound
    (entersAlgo_reachable sound 1 (forwards_reachable sound 1 (moves_reachable sound 0 .number
      (moves_reachable sound 1 .number ?_))))))
  exact ⟨[], .init ⟨⟨rfl, _, rfl⟩, initial⟩⟩

theorem secondFrames_reachable (initial : live silent.state) :
    (idleSystem live).Reachable (secondFrames live check sound) :=
  entersAlgo_reachable sound 0 (forwards_reachable sound 0 (moves_reachable sound 0 .number
    (moves_reachable sound 1 .number (releasesFrame_reachable sound
      (firstFrames_reachable sound initial)))))

/-- The round of the release loop that takes the first entry of the list. -/
theorem releaseFirst_step (isRunning : machine.running .frameRelease = some releaseEntries)
    {reoList : ReoList Frame} {entry : ListEntry Frame}
    (round : releaseFirst machine.state.host.reoList = some (reoList, some entry))
    (checked : check ⟨{ machine.state.host with reoList := reoList }, machine.state.below⟩ = true) :
    ∃ next, (idleSystem live).Step machine
      (.call .frameRelease .releaseFirst (some (some entry))) next := by
  refine ⟨_, .call isRunning ⟨⟨?_, ?_, trivial⟩, sound _ checked⟩⟩
  · rfl
  · dsimp only [Effect]
    rw [round]
    exact ⟨rfl, rfl⟩

end Runs

/-- The next round of the release loop takes the frame off the list for this reason, and the state
stays live. -/
def releasesFor (check : World Frame Air → Bool) (machine : Machine Frame Air) (frame : Frame)
    (reason : ReleaseReason) : Bool :=
  match releaseFirst machine.state.host.reoList with
  | some (reoList, some entry) =>
    decide (entry.nbuf = frame) && decide (getReleaseReason entry.status = reason) &&
      check ⟨{ machine.state.host with reoList := reoList }, machine.state.below⟩
  | _ => false

theorem releasesFor_step {live : World Frame Air → Prop} {check : World Frame Air → Bool}
    (sound : ∀ world, check world = true → live world) {machine : Machine Frame Air} {frame : Frame}
    {reason : ReleaseReason} (isRunning : machine.running .frameRelease = some releaseEntries)
    (releases : releasesFor check machine frame reason = true) :
    ∃ entry next, (idleSystem live).Step machine
        (.call .frameRelease .releaseFirst (some (some entry))) next ∧
      entry.nbuf = frame ∧ getReleaseReason entry.status = reason := by
  unfold releasesFor at releases
  split at releases
  · rename_i reoList entry round
    simp only [Bool.and_eq_true, decide_eq_true_iff] at releases
    obtain ⟨⟨isFrame, isReason⟩, checked⟩ := releases
    obtain ⟨next, step⟩ := releaseFirst_step sound isRunning round checked
    exact ⟨entry, next, step, isFrame, isReason⟩
  · exact absurd releases (by simp)

/-- The pending frames lie in one of two half ranges. -/
def pendingNear (world : World Frame Air) : Bool :=
  pendingFrom idleLink 0 world || pendingFrom idleLink (2 ^ 30) world

theorem pendingNear_sound (world : World Frame Air) (checked : pendingNear world = true) :
    PendingSpan idleLink world := by
  rcases Bool.or_eq_true_iff.mp checked with low | high
  · exact pendingFrom_sound low
  · exact pendingFrom_sound high

/-- The first frame of link 0 is about to be sent up. -/
def firstRelease : Machine Frame Air :=
  releasing (firstHalf idleLink)
    (firstFrames (Span idleLink) (firstHalf idleLink) firstHalf_sound)

/-- The second frame of link 0 is about to be sent up. -/
def secondRelease : Machine Frame Air :=
  releasing pendingNear (secondFrames (PendingSpan idleLink) pendingNear pendingNear_sound)

/-- The first frame of link 0 is released with a zero wait count: the older frame of link 1 has been
through the algorithm, and sent up if it was queued. -/
theorem zeroWait_release_firstRelease : ∃ history,
    (airSystem idleLink 2).Run history firstRelease ∧ Passed 2 (1, 1) history ∧
      (Queued (1, 1) history → SentUp (1, 1) firstRelease.state.host) := by
  obtain ⟨history, run⟩ : (airSystem idleLink 2).Reachable firstRelease :=
    releasing_reachable (firstHalf_sound)
      (firstFrames_reachable firstHalf_sound (firstHalf_sound _ (by decide)))
  have releases : releasesFor (firstHalf idleLink) firstRelease (0, 1) ⟨true, false, false, false⟩ =
    true := by decide
  obtain ⟨entry, next, release, isFrame, reason⟩ := releasesFor_step firstHalf_sound rfl releases
  have older : idleLink.time 1 1 < idleLink.entryTime entry := by
    rw [Scenario.entryTime, isFrame]
    decide
  have result := zeroWait_release idleLink 2 run release (by rw [reason]) (le_refl 1)
    (by decide) older
  exact ⟨history, run, result.resolve_left fun consumed => absurd consumed.2 (by decide)⟩

/-- **A release out of air order that is not declared premature.** All pending frames lie less than
half the ranges apart, but the last frame of link 1 lies further back: it compares as newer than the
second frame of link 0, which is released with a zero wait count, and nothing else in its release
reason, while an older frame of link 1 has reached MAC HW and no further. -/
theorem idleLink_release : ∃ history machine entry next,
    ((system (air idleLink 2) 2).restrict (PendingSpan idleLink)).Run history machine ∧
    ((system (air idleLink 2) 2).restrict (PendingSpan idleLink)).Step machine
      (.call .frameRelease .releaseFirst (some (some entry))) next ∧
    getReleaseReason entry.status = ⟨true, false, false, false⟩ ∧
    2 ≤ machine.state.below.numbered 1 ∧ idleLink.time 1 2 < idleLink.entryTime entry ∧
    machine.state.below.arrived 1 < 2 ∧ idleLink.consumed 1 2 = false := by
  obtain ⟨history, run⟩ : (idleSystem (PendingSpan idleLink)).Reachable secondRelease :=
    releasing_reachable pendingNear_sound
      (secondFrames_reachable pendingNear_sound (pendingNear_sound _ (by decide)))
  have releases : releasesFor pendingNear secondRelease (0, 2)
      ⟨true, false, false, false⟩ = true := by
    decide +kernel
  have isRunning : secondRelease.running .frameRelease = some releaseEntries := by
    unfold secondRelease releasing
    rw [if_pos (by decide +kernel)]
    rfl
  obtain ⟨entry, next, release, isFrame, reason⟩ :=
    releasesFor_step pendingNear_sound isRunning releases
  refine ⟨history, secondRelease, entry, next, run, release, reason, by decide +kernel, ?_,
    by decide +kernel, rfl⟩
  rw [Scenario.entryTime, isFrame]
  decide

end IdleLink

end Qsdk.MgmtRxReo
