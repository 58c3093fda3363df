/-
**The wait count of a frame, calculated while the air moves.**

`Span` is what the wrapping comparisons need: the frames whose times the host may compare lie less
than half the timestamp range apart, and on no link is MAC HW half the counter range ahead of the
host. These are the frames on their way to the host, the last frame the host has seen on each link,
the frames in the reorder list and the frames recorded in the snapshots.

`airContract` is what the thread in the algorithm relies on (hardware and firmware go on, nothing
else arrives, the host snapshots stay) and what it owes when it updates the list: a wait count that
covers every frame to wait for, on every link (`Covers`). `algoEntry_covers` shows that it meets
this, for any steps of hardware and firmware between the three snapshot reads.
-/

import Qsdk.MgmtRxReo.Air
import Qsdk.MgmtRxReo.ReleaseOrder

namespace Qsdk.MgmtRxReo

/-! ### The frames that the host compares -/

/-- The host may compare the time of this frame. -/
def Live (scenario : Scenario) (world : World Frame Air) (link : Link) (number : Nat) : Prop :=
  (1 ≤ number ∧ world.below.arrived link ≤ number ∧ number ≤ world.below.numbered link) ∨
  (∃ entry ∈ world.host.reoList.list, entry.nbuf = (link, number)) ∨
  (∃ id, world.below.InSnapshot scenario link id number)

/-- The frames that the host may compare lie less than half the range apart. -/
structure Span (scenario : Scenario) (world : World Frame Air) : Prop where
  times : ∀ link number other earlier, Live scenario world link number →
    Live scenario world other earlier →
    scenario.time link number < scenario.time other earlier + 2 ^ 31
  counters : ∀ link, world.below.numbered link < world.below.arrived link + 2 ^ 15

theorem Span.near {scenario : Scenario} {world : World Frame Air} (span : Span scenario world)
    {link other : Link} {number earlier : Nat} (live : Live scenario world link number)
    (liveOther : Live scenario world other earlier) :
    Near scenario link (scenario.time other earlier) number :=
  ⟨span.times _ _ _ _ live liveOther, span.times _ _ _ _ liveOther live⟩

/-- A recorded frame has been numbered. -/
theorem Air.InSnapshot.numbered {scenario : Scenario} {numMloLinks : Nat} {air : Air}
    (ok : air.Ok scenario numMloLinks) {link : Link} {id : SnapshotId} {number : Nat}
    (recorded : air.InSnapshot scenario link id number) :
    1 ≤ number ∧ number ≤ air.numbered link := by
  have written := ok.written_le link
  have decided := ok.decided_le link
  cases id with
  | macHw => exact ⟨recorded.1, recorded.2.le⟩
  | fwConsumed => exact ⟨recorded.1, by have := recorded.2.1; omega⟩
  | fwForwarded => exact ⟨recorded.1, by have := recorded.2.1; omega⟩

/-! ### What a frame has to wait for -/

/-- The frames of a link whose list update is done; the frame in the algorithm is not. -/
def listed : Option Frame → Air → Link → Nat
  | some (pdev, number), air, link => if link = pdev then number - 1 else air.arrived link
  | none, air, link => air.arrived link

/-- **The wait count covers a link**: every frame that is not listed, older than `inTime`, and not
consumed by FW is within the link's count. -/
def Covers (scenario : Scenario) (inTime : Nat) (count : WaitCount) (link : Link)
    (state : Option Frame × World Frame Air) : Prop :=
  ∀ number, listed state.1 state.2.below link < number → number ≤ state.2.below.numbered link →
    scenario.time link number < inTime → ¬state.2.below.Consumed scenario link number →
    number ≤ listed state.1 state.2.below link + (count.perLinkCount link).toNat

theorem listed_congr {ghost : Option Frame} {before later : Air}
    (same : later.arrived = before.arrived) (link : Link) :
    listed ghost later link = listed ghost before link := by
  cases ghost with
  | none => exact congrFun same link
  | some frame =>
    dsimp only [listed]
    rw [same]

/-- The air moves: new frames are not older than a frame that was numbered before. -/
theorem Covers.le {scenario : Scenario} {inTime : Nat} {count : WaitCount} {link : Link}
    {state later : Option Frame × World Frame Air}
    (covers : Covers scenario inTime count link state) (sameGhost : later.1 = state.1)
    (le : Air.Le scenario state.2.below later.2.below)
    (stamped : ∀ number, state.2.below.numbered link < number →
      number ≤ later.2.below.numbered link → inTime ≤ scenario.time link number) :
    Covers scenario inTime count link later := by
  intro number unlisted numbered older notConsumed
  rw [sameGhost, listed_congr le.arrived] at unlisted ⊢
  refine covers number unlisted ?_ older fun consumed => notConsumed (le.consumed consumed)
  by_contra isNew
  have := stamped number (by omega) numbered
  omega

/-- More frames are listed: they need not be covered any more. -/
theorem Covers.listed_le {scenario : Scenario} {inTime : Nat} {count : WaitCount} {link : Link}
    {state later : Option Frame × World Frame Air}
    (covers : Covers scenario inTime count link state)
    (sameNumbered : later.2.below.numbered = state.2.below.numbered)
    (sameDecided : later.2.below.decided = state.2.below.decided)
    (grows : listed state.1 state.2.below link ≤ listed later.1 later.2.below link) :
    Covers scenario inTime count link later := by
  intro number unlisted numbered older notConsumed
  rw [sameNumbered] at numbered
  unfold Air.Consumed at notConsumed
  rw [sameDecided] at notConsumed
  have := covers number (by omega) numbered older notConsumed
  omega

/-- What covers a frame covers an older one. -/
theorem Covers.older {scenario : Scenario} {inTime earlier : Nat} {count : WaitCount} {link : Link}
    {state : Option Frame × World Frame Air} (covers : Covers scenario inTime count link state)
    (order : earlier ≤ inTime) : Covers scenario earlier count link state :=
  fun number unlisted numbered older => covers number unlisted numbered (by omega)

/-- The smaller of two counts that cover a link covers it. -/
theorem Covers.updateWaitCount {scenario : Scenario} {inTime : Nat} {oldFrame newFrame : WaitCount}
    {link : Link} {state : Option Frame × World Frame Air} (numMloLinks : Nat)
    (old : Covers scenario inTime oldFrame link state)
    (new : Covers scenario inTime newFrame link state) :
    Covers scenario inTime (updateWaitCount numMloLinks oldFrame newFrame) link state := by
  intro number unlisted numbered older notConsumed
  have byOld := old number unlisted numbered older notConsumed
  have byNew := new number unlisted numbered older notConsumed
  rw [updateWaitCount_perLink]
  split <;> omega

/-! ### The contract of the algorithm -/

/-- What the host snapshot of a link records. -/
def hostRecorded (scenario : Scenario) (link : Link) (number : Nat) : SnapshotParams :=
  if number = 0 then ⟨false, 0, 0⟩ else scenario.recorded link number

/-- The host snapshot of the link records the last frame that arrived. -/
def HostSsOk (scenario : Scenario) (world : World Frame Air) (link : Link) : Prop :=
  world.host.privObject link = true →
    world.host.hostSnapshot link = hostRecorded scenario link (world.below.arrived link)

/-- The frame `number` of `pdev` is in the algorithm. -/
structure InFrame (pdev : Link) (number : Nat) (state : Option Frame × World Frame Air) : Prop where
  ghost : state.1 = some (pdev, number)
  current : state.2.below.arrived pdev = number
  positive : 1 ≤ number

/-- What the thread in the algorithm owes when it updates the list. -/
structure Owes (scenario : Scenario) (desc : FrameDescriptor Frame)
    (newEntry : Option (ListEntry Frame)) (state : Option Frame × World Frame Air)
    (pdev : Link) (number : Nat) : Prop where
  frame : InFrame pdev number state
  nbuf : desc.nbuf = (pdev, number)
  params : desc.params = scenario.params pdev number
  entry : ∀ entry ∈ newEntry, entry.nbuf = desc.nbuf ∧ entry.waitCount = desc.waitCount
  covers : ∀ link, Covers scenario (scenario.time pdev number) desc.waitCount link state

/-- What is left to do for the frame in the algorithm after a call. -/
def pendingAfter : HostOp Frame → Option Frame → Option Frame
  | .updateList _ _, _ => none
  | _, ghost => ghost

/-- What the thread in the algorithm relies on, and owes. -/
def airContract (scenario : Scenario) (numMloLinks : Nat) :
    Contract (HostOp Frame) HostOp.Res (Option Frame × World Frame Air) where
  rely := fun before later => later.1 = before.1 ∧
    later.2.host.hostSnapshot = before.2.host.hostSnapshot ∧
    later.2.host.privObject = before.2.host.privObject ∧
    Air.Le scenario before.2.below later.2.below ∧
    later.2.below.Ok scenario numMloLinks ∧ Span scenario later.2
  pre := fun op state =>
    match op with
    | .updateList desc newEntry => ∃ pdev number, Owes scenario desc newEntry state pdev number
    | _ => True
  post := fun op state res after => after.1 = pendingAfter op state.1 ∧
    after.2.below = state.2.below ∧ Effect numMloLinks op state.2.host res after.2.host ∧
    (air scenario numMloLinks).Allows state.2.below op res
  rely_trans := fun one two =>
    ⟨two.1.trans one.1, two.2.1.trans one.2.1, two.2.2.1.trans one.2.2.1,
      one.2.2.2.1.trans two.2.2.2.1, two.2.2.2.2⟩
  rely_settled := fun one => ⟨rfl, rfl, rfl, .refl _ _, one.2.2.2.2⟩

/-- When the thread in the algorithm returns: the host snapshots are right. -/
def AlgoEnded (scenario : Scenario) (state : Option Frame × World Frame Air) : Prop :=
  ∀ link, HostSsOk scenario state.2 link

/-- When it stops: the same, unless it asserted. -/
def AlgoStopped (scenario : Scenario) (stop : Stop) (state : Option Frame × World Frame Air) :
    Prop :=
  stop ≠ .assertion → AlgoEnded scenario state

section Estimate

variable {scenario : Scenario} {numMloLinks : Nat} {pdev : Link} {number : Nat}
  {state later : Option Frame × World Frame Air}

theorem HostSsOk.congr {world after : World Frame Air} {link : Link}
    (ok : HostSsOk scenario world link)
    (sameSs : after.host.hostSnapshot = world.host.hostSnapshot)
    (samePriv : after.host.privObject = world.host.privObject)
    (sameArrived : after.below.arrived = world.below.arrived) : HostSsOk scenario after link := by
  intro context
  rw [samePriv] at context
  rw [sameSs, sameArrived]
  exact ok context

/-- The frame in the algorithm, with the host snapshots up to date. -/
structure Recorded (scenario : Scenario) (pdev : Link) (number : Nat)
    (state : Option Frame × World Frame Air) : Prop where
  frame : InFrame pdev number state
  hostSs : AlgoEnded scenario state

theorem Recorded.rely (recorded : Recorded scenario pdev number state)
    (step : (airContract scenario numMloLinks).rely state later) :
    Recorded scenario pdev number later where
  frame := ⟨step.1.trans recorded.frame.ghost,
    (congrFun step.2.2.2.1.arrived pdev).trans recorded.frame.current, recorded.frame.positive⟩
  hostSs := fun link =>
    (recorded.hostSs link).congr step.2.1 step.2.2.1 step.2.2.2.1.arrived

/-- The operations between the update of the host snapshot and the update of the list. -/
def HostOp.changesNothing : HostOp Frame → Bool
  | .updateHostSnapshot _ _ => false
  | .updateList _ _ => false
  | _ => true

theorem effect_hostSnapshot {op : HostOp Frame} {host after : Host Frame} {res : op.Res}
    (quiet : op.changesNothing = true) (effect : Effect numMloLinks op host res after) :
    after.hostSnapshot = host.hostSnapshot ∧ after.privObject = host.privObject := by
  cases op with
  | updateHostSnapshot pdev params => exact absurd quiet (by simp [HostOp.changesNothing])
  | updateList desc newEntry => exact absurd quiet (by simp [HostOp.changesNothing])
  | getPrivObject pdev =>
    obtain ⟨-, rfl⟩ := effect
    exact ⟨rfl, rfl⟩
  | getPdevFromLinkId link =>
    rcases effect with ⟨-, rfl⟩ | ⟨-, rfl⟩
    · exact ⟨rfl, rfl⟩
    · exact ⟨rfl, rfl⟩
  | releasePdevRef pdev =>
    obtain rfl : after = _ := effect
    exact ⟨rfl, rfl⟩
  | readSnapshot pdev id =>
    obtain rfl : after = _ := effect
    exact ⟨rfl, rfl⟩
  | malloc =>
    rcases effect with ⟨-, -, -, rfl⟩ | ⟨-, rfl⟩
    · exact ⟨rfl, rfl⟩
    · exact ⟨rfl, rfl⟩
  | free address =>
    obtain rfl : after = _ := effect
    exact ⟨rfl, rfl⟩
  | releaseFirst =>
    dsimp only [Effect] at effect
    cases round : releaseFirst host.reoList with
    | none =>
      rw [round] at effect
      obtain ⟨-, rfl⟩ := effect
      exact ⟨rfl, rfl⟩
    | some outcome =>
      rw [round] at effect
      obtain ⟨-, rfl⟩ := effect
      exact ⟨rfl, rfl⟩
  | processRxFrame entry reason =>
    obtain rfl : after = _ := effect
    exact ⟨rfl, rfl⟩

theorem Recorded.call {op : HostOp Frame} {res : op.Res}
    (recorded : Recorded scenario pdev number state) (quiet : op.changesNothing = true)
    (post : (airContract scenario numMloLinks).post op state res later) :
    Recorded scenario pdev number later ∧ later.2.below = state.2.below := by
  obtain ⟨ghost, below, effect, -⟩ := post
  obtain ⟨sameSs, samePriv⟩ := effect_hostSnapshot quiet effect
  have same : pendingAfter op state.1 = state.1 := by
    cases op with
    | updateList desc newEntry => exact absurd quiet (by simp [HostOp.changesNothing])
    | _ => rfl
  refine ⟨⟨⟨ghost.trans (same.trans recorded.frame.ghost), ?_, recorded.frame.positive⟩,
    fun link => (recorded.hostSs link).congr sameSs samePriv (by rw [below])⟩, below⟩
  rw [below]
  exact recorded.frame.current

/-- The loop is at `link`, and has read its host snapshot. -/
structure AtLink (scenario : Scenario) (pdev : Link) (number : Nat) (link : Link)
    (hostSs : SnapshotParams) (state : Option Frame × World Frame Air) : Prop where
  recorded : Recorded scenario pdev number state
  seen : hostSs = hostRecorded scenario link (state.2.below.arrived link)

theorem AtLink.rely {link : Link} {hostSs : SnapshotParams}
    (atLink : AtLink scenario pdev number link hostSs state)
    (step : (airContract scenario numMloLinks).rely state later) :
    AtLink scenario pdev number link hostSs later :=
  ⟨atLink.recorded.rely step, by rw [step.2.2.2.1.arrived]; exact atLink.seen⟩

theorem AtLink.call {link : Link} {hostSs : SnapshotParams} {op : HostOp Frame} {res : op.Res}
    (atLink : AtLink scenario pdev number link hostSs state) (quiet : op.changesNothing = true)
    (post : (airContract scenario numMloLinks).post op state res later) :
    AtLink scenario pdev number link hostSs later := by
  obtain ⟨recorded, below⟩ := atLink.recorded.call quiet post
  exact ⟨recorded, by rw [below]; exact atLink.seen⟩

/-- The frame in the algorithm is numbered, and the host may compare its time. -/
theorem InFrame.live (frame : InFrame pdev number state)
    (ok : state.2.below.Ok scenario numMloLinks) :
    number ≤ state.2.below.numbered pdev ∧ Live scenario state.2 pdev number := by
  have arrived := ok.arrived_le pdev
  have decided := ok.decided_le pdev
  have current := frame.current
  exact ⟨by omega, Or.inl ⟨frame.positive, by omega, by omega⟩⟩

/-! ### The three reads -/

/-- A snapshot was read when the air was `air`. -/
def ReadAt (scenario : Scenario) (link : Link) (id : SnapshotId) (inTime : Nat) (air : Air)
    (params : SnapshotParams) : Prop :=
  params.valid = true → ∃ recorded, air.InSnapshot scenario link id recorded ∧
    params = scenario.recorded link recorded ∧ Near scenario link inTime recorded

/-- **One read**, at some moment between the start and the end of the call. -/
theorem readSharedSnapshot_readAt (link : Link) (id : SnapshotId)
    (recorded : Recorded scenario pdev number state) :
    (readSharedSnapshot link id).wp (airContract scenario numMloLinks)
      (fun params last => Recorded scenario pdev number last ∧
        ∃ air, Air.Le scenario state.2.below air ∧ Air.Le scenario air last.2.below ∧
          air.Ok scenario numMloLinks ∧ number ≤ air.numbered pdev ∧
          ReadAt scenario link id (scenario.time pdev number) air params)
      (AlgoStopped scenario) state := by
  refine Prog.wp_call fun before step => ⟨trivial, fun res after post => ?_⟩
  have atRead := recorded.rely step
  obtain ⟨-, -, -, le, ok, span⟩ := step
  obtain ⟨afterRead, below⟩ := atRead.call rfl post
  obtain ⟨numbered, live⟩ := atRead.frame.live ok
  cases res with
  | error status =>
    refine Prog.wp_call fun before' step' => ⟨trivial, fun _ after' post' => ?_⟩
    obtain ⟨stopped, -⟩ := (afterRead.rely step').call rfl post'
    exact Prog.wp_stop fun last final _ => (stopped.rely final).hostSs
  | ok params =>
    refine Prog.wp_done fun last final => ⟨afterRead.rely final, before.2.below, le, ?_, ok,
      numbered, fun valid => ?_⟩
    · rw [← below]
      exact final.2.2.2.1
    · obtain ⟨seen, inSnapshot, isRecorded⟩ := post.2.2.2 params rfl valid
      exact ⟨seen, inSnapshot, isRecorded, span.near (Or.inr (Or.inr ⟨id, inSnapshot⟩)) live⟩

/-- **The estimate from three reads**, one after the other while the air moves, covers the link. -/
theorem estimate_covers {link : Link} {hostSs : SnapshotParams} (notSame : link ≠ pdev)
    (atLink : AtLink scenario pdev number link hostSs state)
    (ok : state.2.below.Ok scenario numMloLinks) (span : Span scenario state.2)
    {macHwSs fwConsumedSs fwForwardedSs : SnapshotParams} {first second third : Air}
    (firstSecond : Air.Le scenario first second) (secondThird : Air.Le scenario second third)
    (last : Air.Le scenario third state.2.below) (okFirst : first.Ok scenario numMloLinks)
    (okSecond : second.Ok scenario numMloLinks) (okThird : third.Ok scenario numMloLinks)
    (stamped : number ≤ first.numbered pdev)
    (macHw : ReadAt scenario link .macHw (scenario.time pdev number) first macHwSs)
    (fwConsumed : ReadAt scenario link .fwConsumed (scenario.time pdev number) second fwConsumedSs)
    (fwForwarded : ReadAt scenario link .fwForwarded (scenario.time pdev number) third
      fwForwardedSs)
    (valid : macHwSs.valid = true) {pending : Int}
    (estimate : framesPending (scenario.params pdev number).globalTimestamp hostSs macHwSs
      fwConsumedSs fwForwardedSs = some pending)
    {count : WaitCount} (isCount : (count.perLinkCount link).toNat = pending) :
    Covers scenario (scenario.time pdev number) count link state := by
  have firstLast := (firstSecond.trans secondThird).trans last
  have isListed : listed state.1 state.2.below link = state.2.below.arrived link := by
    rw [atLink.recorded.frame.ghost]
    exact if_neg notSame
  have hostCtr : hostSs.mgmtPktCtr = BitVec.ofNat 16 (state.2.below.arrived link) := by
    rw [atLink.seen, hostRecorded]
    split
    · rename_i isZero
      rw [isZero]
      rfl
    · rfl
  intro other unlisted numbered older notConsumed
  rw [isListed] at unlisted ⊢
  have covered := framesPending_covers (third.written link)
    (fun other => state.2.below.Consumed scenario link other)
    (fun one two => ok.monotone link one two) hostCtr (span.counters link)
    (fun valid => by
      obtain ⟨seen, inSnapshot, isRecorded, near⟩ := macHw valid
      obtain ⟨positive, isNumbered⟩ := inSnapshot.numbered okFirst
      refine ⟨seen, isRecorded, positive, near, isNumbered.trans (firstLast.numbered link), ?_⟩
      intro later above below
      rw [inSnapshot.2] at above
      exact firstLast.newer link later above below pdev number atLink.recorded.frame.positive
        stamped)
    valid
    (fun valid => by
      obtain ⟨seen, inSnapshot, isRecorded, near⟩ := fwConsumed valid
      obtain ⟨positive, isNumbered⟩ := inSnapshot.numbered okSecond
      exact ⟨seen, isRecorded, positive, near,
        isNumbered.trans ((secondThird.trans last).numbered link),
        inSnapshot.2.1.trans (secondThird.written link)⟩)
    (fun valid => by
      obtain ⟨seen, inSnapshot, isRecorded, near⟩ := fwForwarded valid
      obtain ⟨positive, isNumbered⟩ := inSnapshot.numbered okThird
      refine ⟨seen, isRecorded, positive, near, isNumbered.trans (last.numbered link), ?_⟩
      intro later above below
      have written := okThird.written_le link
      exact ⟨(below.trans written).trans (last.decided link), inSnapshot.2.2.2 later above below⟩)
    estimate unlisted numbered older notConsumed
  omega

/-! ### The programs -/

/-- Nothing on the frame's own link has to be waited for. -/
theorem covers_sameLink (frame : InFrame pdev number state)
    (ok : state.2.below.Ok scenario numMloLinks) (count : WaitCount) :
    Covers scenario (scenario.time pdev number) count pdev state := by
  intro other unlisted numbered older _
  rw [frame.ghost] at unlisted
  have isListed : number - 1 < other := by simpa [listed] using unlisted
  have order := ok.monotone pdev number other frame.positive (by omega) numbered
  omega

/-- The host has seen a frame of the link that is not older. -/
theorem covers_seen {link : Link} {hostSs : SnapshotParams} (notSame : link ≠ pdev)
    (atLink : AtLink scenario pdev number link hostSs state)
    (ok : state.2.below.Ok scenario numMloLinks) (span : Span scenario state.2)
    (valid : hostSs.valid = true)
    (gte : compareGlobalTimestampsGte hostSs.globalTimestamp
      (scenario.params pdev number).globalTimestamp = true) (count : WaitCount) :
    Covers scenario (scenario.time pdev number) count link state := by
  have isListed : listed state.1 state.2.below link = state.2.below.arrived link := by
    rw [atLink.recorded.frame.ghost]
    exact if_neg notSame
  rw [atLink.seen, hostRecorded] at valid gte
  split at valid
  · exact absurd valid Bool.false_ne_true
  rename_i positive
  rw [if_neg positive] at gte
  intro other unlisted numbered older _
  rw [isListed] at unlisted
  have live : Live scenario state.2 link (state.2.below.arrived link) :=
    Or.inl ⟨by omega, le_refl _, by omega⟩
  have notOlder := (gte_recorded (span.near live (atLink.recorded.frame.live ok).2)).mp gte
  have order := ok.monotone link _ other (by omega) (Nat.le_of_lt unlisted) numbered
  omega

/-- `UINT_MAX` covers a link. -/
theorem covers_uintMax {link : Link} {count : WaitCount}
    (recorded : Recorded scenario pdev number state)
    (ok : state.2.below.Ok scenario numMloLinks) (span : Span scenario state.2)
    (isMax : count.perLinkCount link = 0xFFFFFFFF) :
    Covers scenario (scenario.time pdev number) count link state := by
  intro other unlisted numbered _ _
  have counters := span.counters link
  have decided := ok.decided_le link
  have arrived := ok.arrived_le link
  have isListed : state.2.below.arrived link ≤ listed state.1 state.2.below link + 1 := by
    rw [recorded.frame.ghost]
    have current := recorded.frame.current
    dsimp only [listed]
    split
    · rename_i same
      subst same
      omega
    · omega
  have size : (0xFFFFFFFF : BitVec 32).toNat = 2 ^ 32 - 1 := rfl
  rw [isMax, size]
  omega

/-- What the loop has done for a link: it is covered, and the other links' counts are as before. -/
def CoveredLink (scenario : Scenario) (pdev : Link) (number : Nat) (count : WaitCount) (link : Link)
    (extended : WaitCount) (state : Option Frame × World Frame Air) : Prop :=
  Recorded scenario pdev number state ∧
    Covers scenario (scenario.time pdev number) extended link state ∧
    ∀ other, other ≠ link → extended.perLinkCount other = count.perLinkCount other

theorem CoveredLink.of_perLinkCount {count extended : WaitCount} {link : Link}
    (recorded : Recorded scenario pdev number state) {value : BitVec 32}
    (isExtended : extended.perLinkCount = Function.update count.perLinkCount link value)
    (covers : ∀ count : WaitCount, count.perLinkCount link = value →
      Covers scenario (scenario.time pdev number) count link state) :
    CoveredLink scenario pdev number count link extended state := by
  refine ⟨recorded, covers extended ?_, fun other isOther => ?_⟩
  · rw [isExtended, Function.update_self]
  · rw [isExtended, Function.update_of_ne isOther]

/-- The rest of the body of the loop, once the host snapshot is read. -/
theorem calculateAtLink_covers {link : Link} {hostSs : SnapshotParams} (notSame : link ≠ pdev)
    (atLink : AtLink scenario pdev number link hostSs state) (count : WaitCount) :
    (calculateAtLink (scenario.params pdev number).globalTimestamp count link hostSs).wp
      (airContract scenario numMloLinks) (CoveredLink scenario pdev number count link)
      (AlgoStopped scenario) state := by
  unfold calculateAtLink
  split
  · rename_i seen
    obtain ⟨valid, gte⟩ := Bool.and_eq_true_iff.mp seen
    refine Prog.wp_call fun before step => ⟨trivial, fun _ after post => ?_⟩
    have atLink := (atLink.rely step).call rfl post
    refine Prog.wp_done fun last step => ?_
    have atLink := atLink.rely step
    exact .of_perLinkCount atLink.recorded rfl fun count _ =>
      covers_seen notSame atLink step.2.2.2.2.1 step.2.2.2.2.2 valid gte count
  · refine Prog.wp_bind _ (readSharedSnapshot_readAt link .macHw atLink.recorded)
      fun macHwSs one atOne _ => ?_
    obtain ⟨recorded, first, startFirst, firstOne, okFirst, stamped, macHw⟩ := atOne
    refine Prog.wp_bind _ (readSharedSnapshot_readAt link .fwConsumed recorded)
      fun fwConsumedSs two atTwo _ => ?_
    obtain ⟨recorded, second, oneSecond, secondTwo, okSecond, -, fwConsumed⟩ := atTwo
    refine Prog.wp_bind _ (readSharedSnapshot_readAt link .fwForwarded recorded)
      fun fwForwardedSs three atThree _ => ?_
    obtain ⟨recorded, third, twoThird, thirdThree, okThird, -, fwForwarded⟩ := atThree
    have firstSecond := firstOne.trans oneSecond
    have secondThird := secondTwo.trans twoThird
    have sameArrived := ((startFirst.trans firstSecond).trans secondThird).trans thirdThree
    have atLink : AtLink scenario pdev number link hostSs three :=
      ⟨recorded, by rw [sameArrived.arrived]; exact atLink.seen⟩
    refine Prog.wp_call fun before step => ⟨trivial, fun _ after post => ?_⟩
    have thirdBefore := thirdThree.trans step.2.2.2.1
    have atLink := (atLink.rely step).call rfl post
    rw [← post.2.1] at thirdBefore
    split
    · refine Prog.wp_done fun last step => ?_
      exact .of_perLinkCount (atLink.rely step).recorded rfl fun count isMax =>
        covers_uintMax (atLink.rely step).recorded step.2.2.2.2.1 step.2.2.2.2.2 isMax
    · rename_i isValid
      cases estimate : framesPending (scenario.params pdev number).globalTimestamp hostSs macHwSs
          fwConsumedSs fwForwardedSs with
      | none => exact Prog.wp_stop fun _ _ returns => absurd rfl returns
      | some pending =>
        refine Prog.wp_done fun last step => ?_
        have atLink := atLink.rely step
        obtain ⟨nonneg, small⟩ := framesPending_range estimate
        refine .of_perLinkCount atLink.recorded rfl fun count isPending => ?_
        refine estimate_covers notSame atLink step.2.2.2.2.1 step.2.2.2.2.2 firstSecond secondThird
          (thirdBefore.trans step.2.2.2.1) okFirst okSecond okThird stamped macHw fwConsumed
          fwForwarded (by simpa using isValid) estimate ?_
        rw [isPending, BitVec.toNat_ofInt, Int.emod_eq_of_lt nonneg (by omega)]
        omega

/-- **The body of the loop covers its link.** -/
theorem calculateLinkWaitCount_covers (recorded : Recorded scenario pdev number state)
    (count : WaitCount) (link : Link) :
    (calculateLinkWaitCount pdev (scenario.params pdev number).globalTimestamp count link).wp
      (airContract scenario numMloLinks) (CoveredLink scenario pdev number count link)
      (AlgoStopped scenario) state := by
  unfold calculateLinkWaitCount
  by_cases same : link = pdev
  · rw [if_pos same]
    refine Prog.wp_done fun last step => ?_
    have atEnd := recorded.rely step
    subst same
    exact .of_perLinkCount atEnd rfl fun count _ => covers_sameLink atEnd.frame step.2.2.2.2.1 count
  rw [if_neg same]
  refine Prog.wp_call fun before step => ⟨trivial, fun found after post => ?_⟩
  obtain ⟨recorded, -⟩ := (recorded.rely step).call rfl post
  cases found with
  | false => exact Prog.wp_stop fun last step _ => (recorded.rely step).hostSs
  | true =>
    refine Prog.wp_call fun before step => ⟨trivial, fun context afterContext post => ?_⟩
    obtain ⟨isContext, sameHost⟩ := post.2.2.1
    obtain ⟨recorded, -⟩ := (recorded.rely step).call rfl post
    cases context with
    | none =>
      refine Prog.wp_call fun before step => ⟨trivial, fun _ after post => ?_⟩
      obtain ⟨recorded, -⟩ := (recorded.rely step).call rfl post
      exact Prog.wp_stop fun last step _ => (recorded.rely step).hostSs
    | some hostSs =>
      have atLink : AtLink scenario pdev number link hostSs afterContext := by
        refine ⟨recorded, ?_⟩
        split at isContext
        · rename_i context
          rw [Option.some.inj isContext, ← sameHost]
          rw [← sameHost] at context
          exact recorded.hostSs link context
        · exact absurd isContext (by simp)
      exact calculateAtLink_covers same atLink count

/-- A link that is covered stays covered, whatever the air and the algorithm do. -/
def StaysCovered (scenario : Scenario) (pdev : Link) (number : Nat) (count : WaitCount)
    (link : Link) (state : Option Frame × World Frame Air) : Prop :=
  1 ≤ number ∧ number ≤ state.2.below.numbered pdev ∧
    Covers scenario (scenario.time pdev number) count link state

theorem StaysCovered.rely {count : WaitCount} {link : Link}
    (step : (airContract scenario numMloLinks).rely state later)
    (covered : StaysCovered scenario pdev number count link state) :
    StaysCovered scenario pdev number count link later := by
  obtain ⟨positive, numbered, covers⟩ := covered
  obtain ⟨ghost, -, -, le, -⟩ := step
  exact ⟨positive, numbered.trans (le.numbered pdev), covers.le ghost le
    fun other above below => le.newer link other above below pdev number positive numbered⟩

theorem StaysCovered.call {count : WaitCount} {link : Link} {op : HostOp Frame} {res : op.Res}
    (pre : (airContract scenario numMloLinks).pre op state)
    (post : (airContract scenario numMloLinks).post op state res later)
    (covered : StaysCovered scenario pdev number count link state) :
    StaysCovered scenario pdev number count link later := by
  obtain ⟨positive, numbered, covers⟩ := covered
  obtain ⟨ghost, below, -⟩ := post
  refine ⟨positive, by rw [below]; exact numbered, ?_⟩
  have listed_le : listed state.1 state.2.below link ≤ listed later.1 later.2.below link := by
    rw [ghost, below]
    cases op with
    | updateList desc newEntry =>
      obtain ⟨own, ownNumber, owes⟩ := pre
      have current := owes.frame.current
      rw [owes.frame.ghost]
      dsimp only [listed, pendingAfter]
      split
      · rename_i same
        subst same
        omega
      · exact le_refl _
    | _ => exact le_refl _
  exact covers.listed_le (by rw [below]) (by rw [below]) listed_le

/-- **The loop covers its links.** -/
theorem calculateWaitCountLoop_covers :
    ∀ (links : List Link), links.Nodup → ∀ (count : WaitCount)
      {state : Option Frame × World Frame Air}, Recorded scenario pdev number state →
      (calculateWaitCountLoop pdev (scenario.params pdev number).globalTimestamp links count).wp
        (airContract scenario numMloLinks) (fun extended last =>
          Recorded scenario pdev number last ∧
          (∀ link ∈ links, Covers scenario (scenario.time pdev number) extended link last) ∧
          ∀ other ∉ links, extended.perLinkCount other = count.perLinkCount other)
        (AlgoStopped scenario) state
  | [], _, count, state, recorded =>
    Prog.wp_done fun last step =>
      ⟨recorded.rely step, fun _ member => absurd member List.not_mem_nil, fun _ _ => rfl⟩
  | link :: rest, nodup, count, state, recorded => by
    obtain ⟨notInRest, nodupRest⟩ := List.nodup_cons.mp nodup
    refine Prog.wp_bind _ (calculateLinkWaitCount_covers recorded count link)
      fun middle later covered step => ?_
    obtain ⟨recorded, coversLink, othersSame⟩ := covered
    have kept : StaysCovered scenario pdev number middle link later :=
      ⟨recorded.frame.positive, (recorded.frame.live step.2.2.2.2.1).1, coversLink⟩
    refine Prog.wp_mono ?_ (fun _ _ bad => bad) _ (Prog.wp_frame StaysCovered.rely StaysCovered.call
      _ kept (calculateWaitCountLoop_covers rest nodupRest middle recorded))
    rintro extended last ⟨⟨recorded, coversRest, restSame⟩, -, -, coversHead⟩
    refine ⟨recorded, fun other member => ?_, fun other notMember => ?_⟩
    · rcases List.mem_cons.mp member with rfl | inRest
      · intro unlisted isUnlisted numbered older notConsumed
        rw [restSame other notInRest]
        exact coversHead unlisted isUnlisted numbered older notConsumed
      · exact coversRest other inRest
    · rw [List.mem_cons, not_or] at notMember
      rw [restSame other notMember.2, othersSame other notMember.1]

/-- A prepared entry takes over the frame's buffer and wait count. -/
theorem prepareListEntry_owes {desc : FrameDescriptor Frame}
    (recorded : Recorded scenario pdev number state) :
    (prepareListEntry desc).wp (airContract scenario numMloLinks)
      (fun result last => Recorded scenario pdev number last ∧
        ∀ entry, result = .ok entry → entry.nbuf = desc.nbuf ∧ entry.waitCount = desc.waitCount)
      (AlgoStopped scenario) state := by
  refine Prog.wp_call fun before step => ⟨trivial, fun found after post => ?_⟩
  obtain ⟨recorded, -⟩ := (recorded.rely step).call rfl post
  cases found with
  | false => exact Prog.wp_done fun _ step => ⟨recorded.rely step, fun _ failed => nomatch failed⟩
  | true =>
    refine Prog.wp_call fun before step => ⟨trivial, fun address after post => ?_⟩
    obtain ⟨recorded, -⟩ := (recorded.rely step).call rfl post
    cases address with
    | none =>
      refine Prog.wp_call fun before step => ⟨trivial, fun _ after post => ?_⟩
      obtain ⟨recorded, -⟩ := (recorded.rely step).call rfl post
      exact Prog.wp_done fun _ step => ⟨recorded.rely step, fun _ failed => nomatch failed⟩
    | some address =>
      refine Prog.wp_done fun _ step => ⟨recorded.rely step, fun entry isEntry => ?_⟩
      obtain rfl := Except.ok.inj isEntry
      exact ⟨rfl, rfl⟩

/-- The call that updates the list, as the last one. -/
theorem updateListCall_owes {desc : FrameDescriptor Frame} {newEntry : Option (ListEntry Frame)}
    (recorded : Recorded scenario pdev number state) (nbuf : desc.nbuf = (pdev, number))
    (params : desc.params = scenario.params pdev number)
    (entry : ∀ entry ∈ newEntry, entry.nbuf = desc.nbuf ∧ entry.waitCount = desc.waitCount)
    (covered : ∀ link, StaysCovered scenario pdev number desc.waitCount link state) :
    (perform (.updateList desc newEntry)).wp (airContract scenario numMloLinks)
      (fun _ last => AlgoEnded scenario last) (AlgoStopped scenario) state := by
  intro before step
  have recorded := recorded.rely step
  refine ⟨⟨pdev, number, recorded.frame, nbuf, params, entry,
    fun link => (StaysCovered.rely step (covered link)).2.2⟩, fun res after post => ?_⟩
  obtain ⟨-, below, effect, -⟩ := post
  obtain ⟨now, -, isAfter⟩ := effect
  intro last step link
  have atCall : HostSsOk scenario after.2 link :=
    (recorded.hostSs link).congr (by rw [isAfter]) (by rw [isAfter]) (by rw [below])
  exact atCall.congr step.2.1 step.2.2.1 step.2.2.2.1.arrived

/-- **The update of the list meets what the algorithm owes.** -/
theorem updateListProg_owes {desc : FrameDescriptor Frame}
    (recorded : Recorded scenario pdev number state) (nbuf : desc.nbuf = (pdev, number))
    (params : desc.params = scenario.params pdev number)
    (covered : ∀ link, StaysCovered scenario pdev number desc.waitCount link state) :
    (updateListProg desc).wp (airContract scenario numMloLinks)
      (fun _ last => AlgoEnded scenario last) (AlgoStopped scenario) state := by
  unfold updateListProg
  by_cases isHost : desc.type = .hostConsumed
  · rw [if_pos isHost]
    refine Prog.wp_bind _ (Prog.wp_frame
      (K := fun last => ∀ link, StaysCovered scenario pdev number desc.waitCount link last)
      (fun step covered link => StaysCovered.rely step (covered link))
      (fun pre post covered link => StaysCovered.call pre post (covered link)) _ covered
      (prepareListEntry_owes recorded)) fun result later prepared _ => ?_
    obtain ⟨⟨recorded, entryOk⟩, covered⟩ := prepared
    cases result with
    | error status => exact Prog.wp_stop fun _ step _ => (recorded.rely step).hostSs
    | ok newEntry =>
      refine updateListCall_owes recorded nbuf params (fun entry isNew => ?_) covered
      obtain rfl := Option.some.inj isNew
      exact entryOk newEntry rfl
  · rw [if_neg isHost]
    exact updateListCall_owes recorded nbuf params (fun _ isNew => nomatch isNew) covered

/-- **The algorithm meets its contract**, for any steps of hardware and firmware meanwhile. -/
theorem algoEntry_covers (type : FrameType) (frame : InFrame pdev number state)
    (hostSs : ∀ link, link ≠ pdev → HostSsOk scenario state.2 link) :
    (algoEntry numMloLinks pdev
      (.fresh type (pdev, number) (scenario.params pdev number))).wp
      (airContract scenario numMloLinks) (fun _ last => AlgoEnded scenario last)
      (AlgoStopped scenario) state := by
  refine Prog.wp_call fun before step => ⟨trivial, fun updated after post => ?_⟩
  obtain ⟨ghost, sameSs, samePriv, le, ok, span⟩ := step
  obtain ⟨ghostAfter, below, effect, -⟩ := post
  have frameAfter : InFrame pdev number after :=
    ⟨ghostAfter.trans (ghost.trans frame.ghost),
      (congrArg (fun air => Air.arrived air pdev) below).trans
        ((congrFun le.arrived pdev).trans frame.current), frame.positive⟩
  have others : ∀ link, link ≠ pdev → HostSsOk scenario before.2 link := fun link isOther =>
    (hostSs link isOther).congr sameSs samePriv le.arrived
  dsimp only [Effect] at effect
  cases isUpdated : updateHostSnapshot before.2.host pdev (scenario.params pdev number) with
  | error stop =>
    have effect : updated = .error stop ∧ after.2.host = before.2.host := by
      have isUpdated : updateHostSnapshot before.2.host pdev
        (FrameDescriptor.fresh type (pdev, number) (scenario.params pdev number)).params =
          .error stop := isUpdated
      rwa [isUpdated] at effect
    obtain ⟨rfl, sameHost⟩ := effect
    refine Prog.wp_stop fun last step returns link => ?_
    have atStop : HostSsOk scenario after.2 link := by
      by_cases own : link = pdev
      · subst own
        -- only a pdev without a context makes the update return
        intro context
        rw [sameHost] at context
        rcases updateHostSnapshot_error isUpdated rfl with asserted | noContext
        · exact absurd asserted returns
        · rw [context] at noContext
          exact absurd noContext (by decide)
      · exact (others link own).congr (by rw [sameHost]) (by rw [sameHost]) (by rw [below])
    exact atStop.congr step.2.1 step.2.2.1 step.2.2.2.1.arrived
  | ok result =>
    have effect : updated = .ok () ∧ after.2.host = result := by
      have isUpdated : updateHostSnapshot before.2.host pdev
        (FrameDescriptor.fresh type (pdev, number) (scenario.params pdev number)).params =
          .ok result := isUpdated
      rwa [isUpdated] at effect
    obtain ⟨rfl, isAfter⟩ := effect
    obtain ⟨-, -, isResult⟩ := updateHostSnapshot_ok isUpdated
    have recorded : Recorded scenario pdev number after := by
      refine ⟨frameAfter, fun link context => ?_⟩
      rw [isAfter, isResult] at context ⊢
      show Function.update before.2.host.hostSnapshot pdev _ link = _
      by_cases own : link = pdev
      · subst own
        rw [Function.update_self, frameAfter.current, hostRecorded,
          if_neg (Nat.one_le_iff_ne_zero.mp frame.positive)]
        rfl
      · rw [Function.update_of_ne own, below]
        exact others link own context
    refine Prog.wp_bind _ (calculateWaitCountLoop_covers (mloLinks numMloLinks)
      (nodup_mloLinks numMloLinks) .zero recorded) fun waitCount later counted step => ?_
    obtain ⟨recorded, covers, -⟩ := counted
    obtain ⟨numbered, -⟩ := recorded.frame.live step.2.2.2.2.1
    have covered : ∀ link, StaysCovered scenario pdev number waitCount link later := by
      refine fun link => ⟨frame.positive, numbered, ?_⟩
      by_cases used : link.val < numMloLinks
      · exact covers link (mem_mloLinks.mpr used)
      · intro other unlisted isNumbered
        have none := step.2.2.2.2.1.unused link (by omega)
        omega
    exact Prog.wp_bind _ (updateListProg_owes recorded rfl rfl covered) fun _ last ended step =>
      Prog.wp_done fun final step link =>
        (ended link).congr step.2.1 step.2.2.1 step.2.2.2.1.arrived

end Estimate

end Qsdk.MgmtRxReo
