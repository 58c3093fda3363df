/-
**Management Rx reorder: the hardware and the firmware under the host.**

MAC HW numbers the frames of each link 1, 2, 3, … and stamps them with a clock that all links share.
A FIFO takes them to FW, which consumes or forwards each frame and afterwards overwrites the
FW_CONSUMED or the FW_FORWARDED snapshot. A second FIFO takes both kinds to the host.

A `Scenario` fixes the true time of every frame and what FW will do with it; the moving parts
(`Air`) are then four counters on each link. Counters and timestamps in a snapshot or a frame are
the true values modulo `2 ^ 16` and `2 ^ 32`. A snapshot read may also fail or come back invalid, at
any time.

`framesPending_covers` is the soundness of the wait-count estimate on one link: no frame is older
than the incoming one, not consumed by FW, and beyond the estimate.
-/

import Qsdk.MgmtRxReo.Host
import Qsdk.MgmtRxReo.WaitCount

namespace Qsdk.MgmtRxReo

/-- A frame is named by its link and its number on that link. -/
abbrev Frame := Link × Nat

/-- The true times of the frames, and which of them FW consumes. -/
structure Scenario where
  time : Link → Nat → Nat
  consumed : Link → Nat → Bool

/-- How far each link is: frames numbered by MAC HW, frames that FW has decided on, decisions that
FW has written to its snapshots, frames handed to the host. -/
structure Air where
  numbered : Link → Nat
  decided : Link → Nat
  written : Link → Nat
  arrived : Link → Nat

/-- Nothing has been received. -/
def Air.init : Air := ⟨fun _ => 0, fun _ => 0, fun _ => 0, fun _ => 0⟩

/-- FW has consumed the frame. -/
def Air.Consumed (air : Air) (scenario : Scenario) (link : Link) (number : Nat) : Prop :=
  number ≤ air.decided link ∧ scenario.consumed link number = true

/-- What is recorded of a frame in a snapshot. -/
def Scenario.recorded (scenario : Scenario) (link : Link) (number : Nat) : SnapshotParams :=
  ⟨true, BitVec.ofNat 16 number, BitVec.ofNat 32 (scenario.time link number)⟩

/-- The REO parameters of a frame. -/
def Scenario.params (scenario : Scenario) (link : Link) (number : Nat) : ReoParams :=
  ⟨true, link, BitVec.ofNat 16 number, BitVec.ofNat 32 (scenario.time link number)⟩

/-- The frame is the last one that FW has written to the snapshot of its kind. -/
def Air.LastWritten (air : Air) (scenario : Scenario) (link : Link) (kind : Bool)
    (number : Nat) : Prop :=
  1 ≤ number ∧ number ≤ air.written link ∧ scenario.consumed link number = kind ∧
    ∀ later, number < later → later ≤ air.written link → scenario.consumed link later = !kind

/-- The frame that a snapshot records. -/
def Air.InSnapshot (air : Air) (scenario : Scenario) (link : Link) :
    SnapshotId → Nat → Prop
  | .macHw, number => 1 ≤ number ∧ number = air.numbered link
  | .fwConsumed, number => air.LastWritten scenario link true number
  | .fwForwarded, number => air.LastWritten scenario link false number

/-- One step of the hardware or the firmware. -/
inductive Air.Moves (scenario : Scenario) (numMloLinks : Nat) : Air → Air → Prop where
  /-- MAC HW numbers the next frame of a link; its time is not before the frames numbered so far. -/
  | number {air : Air} (link : Link) (used : link.val < numMloLinks)
      (later : ∀ other earlier, 1 ≤ earlier → earlier ≤ air.numbered other →
        scenario.time other earlier ≤ scenario.time link (air.numbered link + 1)) :
      Moves scenario numMloLinks air
        { air with numbered := Function.update air.numbered link (air.numbered link + 1) }
  /-- FW consumes or forwards the next frame. -/
  | decide {air : Air} (link : Link) (received : air.decided link < air.numbered link) :
      Moves scenario numMloLinks air
        { air with decided := Function.update air.decided link (air.decided link + 1) }
  /-- FW overwrites the snapshot of what it decided. -/
  | write {air : Air} (link : Link) (decided : air.written link < air.decided link) :
      Moves scenario numMloLinks air
        { air with written := Function.update air.written link (air.written link + 1) }

/-- The next frame of a link is handed to the host. -/
def Air.handOver (air : Air) (link : Link) : Air :=
  { air with arrived := Function.update air.arrived link (air.arrived link + 1) }

/-- A frame is handed to the host: the next one that FW has decided on. -/
inductive Air.Arrives (scenario : Scenario) :
    Air → Link → FrameType → Frame → ReoParams → Air → Prop where
  | frame {air : Air} (link : Link) (type : FrameType)
      (decided : air.arrived link < air.decided link)
      (kind : type = .fwConsumed ↔ scenario.consumed link (air.arrived link + 1) = true) :
      Arrives scenario air link type (link, air.arrived link + 1)
        (scenario.params link (air.arrived link + 1)) (air.handOver link)

theorem Air.Arrives.after {scenario : Scenario} {air after : Air} {link : Link} {type : FrameType}
    {frame : Frame} {params : ReoParams}
    (arrives : Air.Arrives scenario air link type frame params after) :
    after = air.handOver link := by
  cases arrives with
  | frame decided kind => rfl

/-- The hardware and firmware as an environment of the host. -/
def air (scenario : Scenario) (numMloLinks : Nat) : Environment Frame Air where
  init := fun air => air = .init
  arrive := Air.Arrives scenario
  snapshot := fun air link id res => ∀ params, res = .ok params → params.valid = true →
    ∃ number, air.InSnapshot scenario link id number ∧ params = scenario.recorded link number
  tick := Air.Moves scenario numMloLinks

/-! ### What holds of the counters in every run -/

/-- The order of the counters, and of the times. -/
structure Air.Ok (air : Air) (scenario : Scenario) (numMloLinks : Nat) : Prop where
  arrived_le : ∀ link, air.arrived link ≤ air.decided link
  written_le : ∀ link, air.written link ≤ air.decided link
  decided_le : ∀ link, air.decided link ≤ air.numbered link
  unused : ∀ link, numMloLinks ≤ link.val → air.numbered link = 0
  monotone : ∀ link first second, 1 ≤ first → first ≤ second → second ≤ air.numbered link →
    scenario.time link first ≤ scenario.time link second

theorem Air.ok_init (scenario : Scenario) (numMloLinks : Nat) :
    Air.init.Ok scenario numMloLinks where
  arrived_le := fun _ => le_refl _
  written_le := fun _ => le_refl _
  decided_le := fun _ => le_refl _
  unused := fun _ _ => rfl
  monotone := fun _ first second positive order numbered => by
    have none : second ≤ 0 := numbered
    omega

/-- What the host relies on while the air moves: the counters grow, frames numbered later are not
older, and nothing arrives by itself. -/
structure Air.Le (scenario : Scenario) (before later : Air) : Prop where
  numbered : ∀ link, before.numbered link ≤ later.numbered link
  decided : ∀ link, before.decided link ≤ later.decided link
  written : ∀ link, before.written link ≤ later.written link
  arrived : later.arrived = before.arrived
  newer : ∀ link number, before.numbered link < number → number ≤ later.numbered link →
    ∀ other earlier, 1 ≤ earlier → earlier ≤ before.numbered other →
      scenario.time other earlier ≤ scenario.time link number

theorem Air.Le.refl (scenario : Scenario) (air : Air) : Air.Le scenario air air where
  numbered := fun _ => le_refl _
  decided := fun _ => le_refl _
  written := fun _ => le_refl _
  arrived := rfl
  newer := fun _ _ above below => absurd below (by omega)

theorem Air.Le.trans {scenario : Scenario} {first second third : Air}
    (one : Air.Le scenario first second) (two : Air.Le scenario second third) :
    Air.Le scenario first third where
  numbered := fun link => (one.numbered link).trans (two.numbered link)
  decided := fun link => (one.decided link).trans (two.decided link)
  written := fun link => (one.written link).trans (two.written link)
  arrived := two.arrived.trans one.arrived
  newer := fun link number above below other earlier positive numbered => by
    rcases Nat.lt_or_ge (second.numbered link) number with later | sooner
    · exact two.newer link number later below other earlier positive
        (numbered.trans (one.numbered other))
    · exact one.newer link number above sooner other earlier positive numbered

theorem Air.Le.consumed {scenario : Scenario} {before later : Air}
    (le : Air.Le scenario before later) {link : Link} {number : Nat}
    (consumed : before.Consumed scenario link number) : later.Consumed scenario link number :=
  ⟨consumed.1.trans (le.decided link), consumed.2⟩

/-- **A step of the air** keeps the order of the counters and is what the host relies on. -/
theorem Air.Moves.ok {scenario : Scenario} {numMloLinks : Nat} {before later : Air}
    (moves : Air.Moves scenario numMloLinks before later) (ok : before.Ok scenario numMloLinks) :
    later.Ok scenario numMloLinks ∧ Air.Le scenario before later := by
  have grows : ∀ (counter : Link → Nat) (link other : Link),
      counter other ≤ Function.update counter link (counter link + 1) other := by
    intro counter link other
    by_cases same : other = link
    · subst same
      rw [Function.update_self]
      omega
    · rw [Function.update_of_ne same]
  have updated : ∀ (counter : Link → Nat) (link other : Link),
      Function.update counter link (counter link + 1) other =
        if other = link then counter link + 1 else counter other := fun counter link other =>
    Function.update_apply counter link (counter link + 1) other
  cases moves with
  | number link used later =>
    refine ⟨⟨ok.arrived_le, ok.written_le, fun other => ?_, fun other unused => ?_, ?_⟩,
      ⟨grows before.numbered link, fun _ => le_refl _, fun _ => le_refl _, rfl, ?_⟩⟩
    · exact (ok.decided_le other).trans (grows before.numbered link other)
    · have isOther : other ≠ link := by
        rintro rfl
        omega
      show Function.update before.numbered link _ other = 0
      rw [Function.update_of_ne isOther]
      exact ok.unused other unused
    · intro other first second positive order numbered
      dsimp only at numbered
      rw [updated] at numbered
      by_cases same : other = link
      · subst same
        rw [if_pos rfl] at numbered
        rcases Nat.lt_or_ge (before.numbered other) second with isNew | isOld
        · obtain rfl : second = before.numbered other + 1 := by omega
          rcases Nat.lt_or_ge (before.numbered other) first with firstNew | firstOld
          · obtain rfl : first = before.numbered other + 1 := by omega
            exact le_refl _
          · exact later other first positive firstOld
        · exact ok.monotone other first second positive order isOld
      · rw [if_neg same] at numbered
        exact ok.monotone other first second positive order numbered
    · intro other number above below third earlier positive numbered
      dsimp only at below
      rw [updated] at below
      by_cases same : other = link
      · subst same
        rw [if_pos rfl] at below
        obtain rfl : number = before.numbered other + 1 := by omega
        exact later third earlier positive numbered
      · rw [if_neg same] at below
        omega
  | decide link received =>
    refine ⟨⟨fun other => ?_, fun other => ?_, fun other => ?_, ok.unused, ok.monotone⟩,
      ⟨fun _ => le_refl _, grows before.decided link, fun _ => le_refl _, rfl, ?_⟩⟩
    · exact (ok.arrived_le other).trans (grows before.decided link other)
    · exact (ok.written_le other).trans (grows before.decided link other)
    · show Function.update before.decided link _ other ≤ before.numbered other
      rw [updated]
      have := ok.decided_le other
      split
      · rename_i same
        subst same
        exact received
      · exact this
    · exact fun other number above below => absurd below (by dsimp only; omega)
  | write link decided =>
    refine ⟨⟨ok.arrived_le, fun other => ?_, ok.decided_le, ok.unused, ok.monotone⟩,
      ⟨fun _ => le_refl _, fun _ => le_refl _, grows before.written link, rfl, ?_⟩⟩
    · show Function.update before.written link _ other ≤ before.decided other
      rw [updated]
      have := ok.written_le other
      split
      · rename_i same
        subst same
        exact decided
      · exact this
    · exact fun other number above below => absurd below (by dsimp only; omega)

/-! ### The estimate of one link is sound -/

/-- The time of a frame compares rightly with `inTime`. -/
def Near (scenario : Scenario) (link : Link) (inTime number : Nat) : Prop :=
  scenario.time link number < inTime + 2 ^ 31 ∧ inTime < scenario.time link number + 2 ^ 31

theorem gte_recorded {scenario : Scenario} {link : Link} {inTime number : Nat}
    (near : Near scenario link inTime number) :
    compareGlobalTimestampsGte (scenario.recorded link number).globalTimestamp
      (BitVec.ofNat 32 inTime) = true ↔ inTime ≤ scenario.time link number :=
  Serial.gte_ofNat (by decide) _ _ near.1 near.2

/-- The difference of two counters less than half the range apart. -/
theorem subtract_recorded (number host : Nat) (above : host ≤ number)
    (near : number < host + 2 ^ 15) :
    subtractPktCtrs (BitVec.ofNat 16 number) (BitVec.ofNat 16 host) = (number : Int) - host :=
  Serial.diff_ofNat (by decide) _ _ near (by omega)

/-- What a valid snapshot tells the algorithm: it records a frame whose time compares rightly. -/
def Records (scenario : Scenario) (link : Link) (inTime : Nat) (params : SnapshotParams)
    (About : Nat → Prop) : Prop :=
  params.valid = true → ∃ recorded, params = scenario.recorded link recorded ∧ 1 ≤ recorded ∧
    Near scenario link inTime recorded ∧ About recorded

section Estimate

variable {scenario : Scenario} {link : Link} {inTime host top number : Nat}
  {hostSs macHwSs fwConsumedSs fwForwardedSs : SnapshotParams} {before pending : Int}
  {written : Nat} {FwConsumed : Nat → Prop}

/-- A frame older than the incoming one is before every frame that is not. -/
theorem lt_of_older
    (monotone : ∀ first second, 1 ≤ first → first ≤ second → second ≤ top →
      scenario.time link first ≤ scenario.time link second)
    (numbered : number ≤ top) (older : scenario.time link number < inTime) {last : Nat}
    (positive : 1 ≤ last) (notOlder : inTime ≤ scenario.time link last) : number < last := by
  by_contra reached
  have order := monotone last number positive (by omega) numbered
  omega

/-- A snapshot that is not older than the incoming frame, read off the comparison. -/
theorem Records.notOlder {params : SnapshotParams} {About : Nat → Prop}
    (records : Records scenario link inTime params About)
    (compares : (params.valid &&
      compareGlobalTimestampsGte params.globalTimestamp (BitVec.ofNat 32 inTime)) = true) :
    ∃ recorded, params = scenario.recorded link recorded ∧ 1 ≤ recorded ∧ About recorded ∧
      inTime ≤ scenario.time link recorded := by
  obtain ⟨valid, gte⟩ := Bool.and_eq_true_iff.mp compares
  obtain ⟨recorded, rfl, positive, near, about⟩ := records valid
  exact ⟨recorded, rfl, positive, about, (gte_recorded near).mp gte⟩

theorem pendingBeforeConsumed_covers
    (monotone : ∀ first second, 1 ≤ first → first ≤ second → second ≤ top →
      scenario.time link first ≤ scenario.time link second)
    (hostCtr : hostSs.mgmtPktCtr = BitVec.ofNat 16 host) (near : top < host + 2 ^ 15)
    (consumed : Records scenario link inTime fwConsumedSs fun last => last ≤ top ∧ last ≤ written)
    (forwarded : Records scenario link inTime fwForwardedSs fun last => last ≤ top ∧
      ∀ later, last < later → later ≤ written → FwConsumed later)
    (estimate : pendingBeforeConsumed (BitVec.ofNat 32 inTime) hostSs fwConsumedSs fwForwardedSs
      before = some pending)
    (unseen : host < number) (numbered : number ≤ top)
    (older : scenario.time link number < inTime) (notConsumed : ¬FwConsumed number)
    (covered : (number : Int) ≤ host + before) : (number : Int) ≤ host + pending := by
  unfold pendingBeforeConsumed at estimate
  split at estimate
  · rename_i compares
    obtain ⟨last, isConsumed, positive, ⟨inTop, inWritten⟩, notOlder⟩ := consumed.notOlder compares
    have below := lt_of_older monotone numbered older positive notOlder
    rw [assertAlways_bind] at estimate
    obtain ⟨-, estimate⟩ := estimate
    split at estimate
    · rename_i forwardedOlder
      obtain ⟨valid, -⟩ := Bool.and_eq_true_iff.mp forwardedOlder
      obtain ⟨recorded, rfl, -, -, recordedIn, between⟩ := forwarded valid
      -- every frame between the last forwarded and the last consumed one has been consumed
      have reached : number ≤ recorded := by
        by_contra beyond
        exact notConsumed (between number (by omega) (by omega))
      obtain rfl := Option.some.inj estimate
      have difference := subtract_recorded recorded host (by omega) (by omega)
      rw [← hostCtr] at difference
      show (number : Int) ≤ host + (if subtractPktCtrs (BitVec.ofNat 16 recorded) _ < 0 then 0
        else subtractPktCtrs (BitVec.ofNat 16 recorded) _)
      rw [difference, if_neg (by omega)]
      omega
    · obtain rfl := Option.some.inj estimate
      have difference := subtract_recorded last host (by omega) (by omega)
      rw [← hostCtr] at difference
      rw [isConsumed]
      show (number : Int) ≤ host + (subtractPktCtrs (BitVec.ofNat 16 last) _ - 1)
      rw [difference]
      omega
  · obtain rfl := Option.some.inj estimate
    exact covered

theorem pendingBeforeForwarded_covers
    (monotone : ∀ first second, 1 ≤ first → first ≤ second → second ≤ top →
      scenario.time link first ≤ scenario.time link second)
    (hostCtr : hostSs.mgmtPktCtr = BitVec.ofNat 16 host) (near : top < host + 2 ^ 15)
    (forwarded : Records scenario link inTime fwForwardedSs fun last => last ≤ top ∧
      ∀ later, last < later → later ≤ written → FwConsumed later)
    (estimate : pendingBeforeForwarded (BitVec.ofNat 32 inTime) hostSs fwForwardedSs before =
      some pending)
    (unseen : host < number) (numbered : number ≤ top)
    (older : scenario.time link number < inTime)
    (covered : (number : Int) ≤ host + before) : (number : Int) ≤ host + pending := by
  unfold pendingBeforeForwarded at estimate
  split at estimate
  · rename_i compares
    obtain ⟨last, rfl, positive, ⟨inTop, -⟩, notOlder⟩ := forwarded.notOlder compares
    have below := lt_of_older monotone numbered older positive notOlder
    rw [assertAlways_bind, assertAlways_bind] at estimate
    obtain ⟨-, -, estimate⟩ := estimate
    obtain rfl := Option.some.inj estimate
    have difference := subtract_recorded last host (by omega) (by omega)
    rw [← hostCtr] at difference
    show (number : Int) ≤ host + min before (subtractPktCtrs (BitVec.ofNat 16 last) _ - 1)
    rw [difference]
    omega
  · obtain rfl := Option.some.inj estimate
    exact covered

/-- **The estimate covers every frame to wait for.** The host has seen `host` frames of the link,
MAC HW has numbered `top`; when the FW_FORWARDED snapshot was read, FW had written `written`
decisions. A frame beyond the host's, older than the incoming one and not consumed by FW, is within
the estimate. -/
theorem framesPending_covers (written : Nat) (FwConsumed : Nat → Prop)
    (monotone : ∀ first second, 1 ≤ first → first ≤ second → second ≤ top →
      scenario.time link first ≤ scenario.time link second)
    (hostCtr : hostSs.mgmtPktCtr = BitVec.ofNat 16 host) (near : top < host + 2 ^ 15)
    (macHw : Records scenario link inTime macHwSs fun seen => seen ≤ top ∧
      ∀ later, seen < later → later ≤ top → inTime ≤ scenario.time link later)
    (valid : macHwSs.valid = true)
    (consumed : Records scenario link inTime fwConsumedSs fun last => last ≤ top ∧ last ≤ written)
    (forwarded : Records scenario link inTime fwForwardedSs fun last => last ≤ top ∧
      ∀ later, last < later → later ≤ written → FwConsumed later)
    (estimate : framesPending (BitVec.ofNat 32 inTime) hostSs macHwSs fwConsumedSs fwForwardedSs =
      some pending)
    (unseen : host < number) (numbered : number ≤ top)
    (older : scenario.time link number < inTime) (notConsumed : ¬FwConsumed number) :
    (number : Int) ≤ host + pending := by
  obtain ⟨seen, rfl, positive, macNear, inTop, newer⟩ := macHw valid
  -- frames that MAC HW numbers after the snapshot are not older than the incoming one
  have bySeen : number ≤ seen := by
    by_contra beyond
    have notOlder := newer number (by omega) numbered
    omega
  have difference := subtract_recorded seen host (by omega) (by omega)
  rw [← hostCtr] at difference
  have seenByHw : subtractPktCtrs (scenario.recorded link seen).mgmtPktCtr hostSs.mgmtPktCtr =
      (seen : Int) - host := difference
  unfold framesPending at estimate
  rw [seenByHw, assertAlways_bind] at estimate
  obtain ⟨-, estimate⟩ := estimate
  split at estimate
  · rename_i compares
    have below := lt_of_older monotone numbered older positive ((gte_recorded macNear).mp compares)
    rw [assertAlways_bind] at estimate
    obtain ⟨-, estimate⟩ := estimate
    obtain ⟨middle, first, second⟩ := Option.bind_eq_some_iff.mp estimate
    have covered := pendingBeforeConsumed_covers monotone hostCtr near consumed forwarded first
      unseen numbered older notConsumed (by omega)
    exact pendingBeforeForwarded_covers monotone hostCtr near forwarded second unseen numbered older
      covered
  · obtain rfl := Option.some.inj estimate
    omega

end Estimate

end Qsdk.MgmtRxReo
