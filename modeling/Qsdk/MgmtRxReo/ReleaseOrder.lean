/-
**The list invariant over every run, and the order of release.**

The reorder list is shared by the algorithm (under `reo_algo_entry_lock`), the release loop (under
`frame_release_lock`) and the ageout timer. `releaseOrder` is the protocol that proves the list
invariant for every interleaving: the thread in the algorithm owes a coherent entry when it updates
the list and relies on nothing; the thread in the release loop relies on nobody else releasing, and
owes that what it sends up is the entry it took off the list.

The main result is `reorderList_run`: in every run whose lists each lie in a window of half the
timestamp range the list invariant holds, the assertions of the release loop cannot fail, and the
timestamps sent up never decrease.
-/

import Qsdk.MgmtRxReo.Host
import Qsdk.MgmtRxReo.ListInvariant
import Mathlib.Data.List.Chain

namespace Qsdk.MgmtRxReo

variable {Buf E : Type}

/-! ### The wait count of a frame is coherent -/

/-- What the thread in the algorithm owes: the entry it queues carries the frame's parameters and is
coherent. -/
def algoContract (G Buf E : Type) : Contract (HostOp Buf) HostOp.Res (G × World Buf E) where
  rely := fun _ _ => True
  pre := fun op _ =>
    match op with
    | .updateList desc newEntry => ∀ entry ∈ newEntry, entry.params = desc.params ∧ entry.Coherent
    | .releaseFirst => False
    | .processRxFrame _ _ => False
    | _ => True
  post := fun _ _ _ _ => True
  rely_trans := fun _ _ => trivial
  rely_settled := fun _ => trivial

section Algo

variable {G : Type} {state : G × World Buf E}

theorem readSharedSnapshot_coherent (link : Link) (id : SnapshotId) :
    (readSharedSnapshot link id).wp (algoContract G Buf E) (fun _ _ => True) (fun _ _ => True)
      state := by
  refine Prog.wp_call fun _ _ => ⟨trivial, fun res _ _ => ?_⟩
  cases res with
  | ok params => exact Prog.wp_done fun _ _ => trivial
  | error status =>
    exact Prog.wp_call fun _ _ => ⟨trivial, fun _ _ _ => Prog.wp_stop fun _ _ => trivial⟩

/-- The wait counts that the loop may reach from a count when it has passed the given links: still
coherent, and unchanged on the other links. -/
def Extends (count : WaitCount) (links : List Link) (extended : WaitCount) : Prop :=
  extended.Coherent ∧ ∀ link ∉ links, extended.perLinkCount link = count.perLinkCount link

theorem extends_record {count : WaitCount} (coherent : count.Coherent) {link : Link}
    (unset : count.perLinkCount link = 0) {pending : Int} (nonneg : 0 ≤ pending)
    (small : pending ≤ 2 ^ 15) : Extends count [link] (count.record link pending) := by
  refine ⟨coherent.record unset nonneg (by omega), fun other notLink => ?_⟩
  exact Function.update_of_ne (by simpa using notLink) _ _

/-- **One link**: the body of the loop sets that link's count and keeps the wait count coherent. -/
theorem calculateLinkWaitCount_coherent {count : WaitCount} (coherent : count.Coherent)
    (inFrameLink : Link) (inFrameTs : BitVec 32) {link : Link}
    (unset : count.perLinkCount link = 0) :
    (calculateLinkWaitCount inFrameLink inFrameTs count link).wp (algoContract G Buf E)
      (fun extended _ => Extends count [link] extended) (fun _ _ => True) state := by
  have zero : Extends count [link] (count.record link 0) :=
    extends_record coherent unset (le_refl _) (by decide)
  unfold calculateLinkWaitCount
  split
  · exact Prog.wp_done fun _ _ => zero
  refine Prog.wp_call fun _ _ => ⟨trivial, fun found _ _ => ?_⟩
  cases found with
  | false => exact Prog.wp_stop fun _ _ => trivial
  | true =>
    refine Prog.wp_call fun _ _ => ⟨trivial, fun context _ _ => ?_⟩
    cases context with
    | none =>
      exact Prog.wp_call fun _ _ => ⟨trivial, fun _ _ _ => Prog.wp_stop fun _ _ => trivial⟩
    | some hostSs =>
      unfold calculateAtLink
      dsimp only
      split
      · exact Prog.wp_call fun _ _ => ⟨trivial, fun _ _ _ => Prog.wp_done fun _ _ => zero⟩
      refine Prog.wp_bind _ (readSharedSnapshot_coherent link _) fun macHwSs _ _ _ => ?_
      refine Prog.wp_bind _ (readSharedSnapshot_coherent link _) fun fwConsumedSs _ _ _ => ?_
      refine Prog.wp_bind _ (readSharedSnapshot_coherent link _) fun fwForwardedSs _ _ _ => ?_
      refine Prog.wp_call fun _ _ => ⟨trivial, fun _ _ _ => ?_⟩
      split
      · refine Prog.wp_done fun _ _ => ⟨coherent.recordUintMax unset, fun other notLink => ?_⟩
        exact Function.update_of_ne (by simpa using notLink) _ _
      · cases estimate : framesPending inFrameTs hostSs macHwSs fwConsumedSs fwForwardedSs with
        | none => exact Prog.wp_stop fun _ _ => trivial
        | some pending =>
          obtain ⟨nonneg, small⟩ := framesPending_range estimate
          exact Prog.wp_done fun _ _ => extends_record coherent unset nonneg small

/-- **The loop over the links** keeps the wait count coherent. -/
theorem calculateWaitCountLoop_coherent (inFrameLink : Link) (inFrameTs : BitVec 32) :
    ∀ (links : List Link), links.Nodup → ∀ {count : WaitCount}, count.Coherent →
      (∀ link ∈ links, count.perLinkCount link = 0) → ∀ {state : G × World Buf E},
      (calculateWaitCountLoop inFrameLink inFrameTs links count).wp (algoContract G Buf E)
        (fun extended _ => extended.Coherent) (fun _ _ => True) state
  | [], _, _, coherent, _, _ => Prog.wp_done fun _ _ => coherent
  | link :: rest, nodup, count, coherent, unset, state => by
    obtain ⟨notInRest, nodupRest⟩ := List.nodup_cons.mp nodup
    refine Prog.wp_bind _ (calculateLinkWaitCount_coherent coherent inFrameLink inFrameTs
      (unset link List.mem_cons_self)) fun extended later extends' _ => ?_
    refine calculateWaitCountLoop_coherent inFrameLink inFrameTs rest nodupRest extends'.1
      fun other inRest => ?_
    have isOther : other ∉ [link] := by
      rw [List.mem_singleton]
      rintro rfl
      exact notInRest inRest
    rw [extends'.2 other isOther]
    exact unset other (List.mem_cons_of_mem _ inRest)

/-- A prepared entry takes over the frame's parameters and wait count. -/
theorem prepareListEntry_coherent (desc : FrameDescriptor Buf)
    (coherent : desc.waitCount.Coherent) :
    (prepareListEntry desc).wp (algoContract G Buf E)
      (fun prepared _ => ∀ entry, prepared = .ok entry →
        entry.params = desc.params ∧ entry.Coherent) (fun _ _ => True) state := by
  refine Prog.wp_call fun _ _ => ⟨trivial, fun found _ _ => ?_⟩
  cases found with
  | false => exact Prog.wp_done fun _ _ _ failed => nomatch failed
  | true =>
    refine Prog.wp_call fun _ _ => ⟨trivial, fun address _ _ => ?_⟩
    cases address with
    | none =>
      exact Prog.wp_call fun _ _ => ⟨trivial, fun _ _ _ =>
        Prog.wp_done fun _ _ _ failed => nomatch failed⟩
    | some address =>
      refine Prog.wp_done fun _ _ entry prepared => ?_
      obtain rfl := Except.ok.inj prepared
      exact ⟨rfl, coherent, decide_eq_true_iff⟩

/-- The update of the list meets its contract. -/
theorem updateListProg_coherent (desc : FrameDescriptor Buf) (coherent : desc.waitCount.Coherent) :
    (updateListProg desc).wp (algoContract G Buf E) (fun _ _ => True) (fun _ _ => True) state := by
  unfold updateListProg
  by_cases isHost : desc.type = .hostConsumed
  · rw [if_pos isHost]
    refine Prog.wp_bind _ (prepareListEntry_coherent _ coherent) fun prepared _ entryOk _ => ?_
    cases prepared with
    | error status => exact Prog.wp_stop fun _ _ => trivial
    | ok newEntry =>
      refine fun _ _ => ⟨fun entry isNew => ?_, fun _ _ _ => Prog.wp_done fun _ _ => trivial⟩
      obtain rfl := Option.some.inj isNew
      exact entryOk newEntry rfl
  · rw [if_neg isHost]
    exact fun _ _ => ⟨fun _ isNew => (nomatch isNew), fun _ _ _ => Prog.wp_done fun _ _ => trivial⟩

/-- **The algorithm meets its contract.** -/
theorem algoEntry_coherent (numMloLinks : Nat) (pdev : Link) (type : FrameType) (nbuf : Buf)
    (params : ReoParams) :
    (algoEntry numMloLinks pdev (.fresh type nbuf params)).wp (algoContract G Buf E)
      (fun _ _ => True) (fun _ _ => True) state := by
  refine Prog.wp_call fun _ _ => ⟨trivial, fun updated _ _ => ?_⟩
  cases updated with
  | error stop => exact Prog.wp_stop fun _ _ => trivial
  | ok _ =>
    refine Prog.wp_bind _ (calculateWaitCountLoop_coherent pdev params.globalTimestamp
      (mloLinks numMloLinks) (nodup_mloLinks numMloLinks) WaitCount.coherent_zero
      fun _ _ => rfl) fun waitCount _ coherent _ => ?_
    exact Prog.wp_bind _ (updateListProg_coherent _ coherent) fun _ _ _ _ =>
      Prog.wp_done fun _ _ => trivial

end Algo

/-! ### The release loop -/

/-- Between two releases: the frame sent up last is the one released last. -/
def Settled (host : Host Buf) : Prop :=
  ∀ last ∈ host.sentUp.getLast?, host.reoList.tsLastReleasedFrame = ⟨true, last.1.ts⟩

/-- Between a release and its delivery: `entry` was released last, and is not older than the frame
sent up last. -/
structure Released (host : Host Buf) (entry : ListEntry Buf) : Prop where
  last : host.reoList.tsLastReleasedFrame = ⟨true, entry.ts⟩
  order : ∀ last ∈ host.sentUp.getLast?, compareGlobalTimestampsGte entry.ts last.1.ts = true

/-- The timestamps sent up never decrease. -/
def Monotone (host : Host Buf) : Prop :=
  host.sentUp.IsChain fun older newer => compareGlobalTimestampsGte newer.1.ts older.1.ts = true

/-- What the thread in the release loop relies on, and owes. -/
def releaseContract (Buf E : Type) (numMloLinks : Nat) :
    Contract (HostOp Buf) HostOp.Res (Unit × World Buf E) where
  rely := fun before later =>
    later.2.host.sentUp = before.2.host.sentUp ∧
    later.2.host.reoList.tsLastReleasedFrame = before.2.host.reoList.tsLastReleasedFrame ∧
    ListOk later.2.host.reoList
  pre := fun op state =>
    match op with
    | .releaseFirst => True
    | .processRxFrame entry _ => Released state.2.host entry
    | .releasePdevRef _ => True
    | .free _ => True
    | _ => False
  post := fun op state res after => Effect numMloLinks op state.2.host res after.2.host
  rely_trans := fun one two => ⟨two.1.trans one.1, two.2.1.trans one.2.1, two.2.2⟩
  rely_settled := fun one => ⟨rfl, rfl, one.2.2⟩

theorem Settled.congr {host later : Host Buf} (settled : Settled host)
    (sameSent : later.sentUp = host.sentUp)
    (sameLast : later.reoList.tsLastReleasedFrame = host.reoList.tsLastReleasedFrame) :
    Settled later := by
  unfold Settled
  rw [sameSent, sameLast]
  exact settled

theorem Released.congr {host later : Host Buf} {entry : ListEntry Buf}
    (released : Released host entry) (sameSent : later.sentUp = host.sentUp)
    (sameLast : later.reoList.tsLastReleasedFrame = host.reoList.tsLastReleasedFrame) :
    Released later entry :=
  ⟨sameLast.trans released.last, sameSent ▸ released.order⟩

/-- Taking the first entry off the list opens a release. -/
theorem released_of_releaseFirst {host : Host Buf} (settled : Settled host)
    {after : ReoList Buf} {entry : ListEntry Buf}
    (round : releaseFirst host.reoList = some (after, some entry)) :
    Released { host with reoList := after } entry ∧
      (getReleaseReason entry.status).isZero = false := by
  rcases releaseFirst_cases round with ⟨nothing, -⟩ | ⟨first, rest, -, ready, fresh, isEntry, rfl⟩
  · exact absurd nothing (by simp)
  · obtain rfl := Option.some.inj isEntry
    refine ⟨⟨?_, fun last member => ?_⟩, getReleaseReason_markMaxSize ready⟩
    · rw [markMaxSize_ts]
    · rw [settled last member] at fresh
      rw [markMaxSize_ts]
      exact (notOlder_iff ⟨true, last.1.ts⟩ _).mpr fresh

/-- **A round of the release loop meets its contract**: it sends up what it released, and it never
fails an assertion. -/
theorem releaseEntries_ordered (numMloLinks : Nat) {state : Unit × World Buf E}
    (start : Settled state.2.host) :
    (releaseEntries : HostProg Buf Bool).wp (releaseContract Buf E numMloLinks)
      (fun _ last => Settled last.2.host) (fun _ _ => False) state := by
  refine Prog.wp_call fun before ⟨sent, last, listOk⟩ => ⟨trivial, fun round after effect => ?_⟩
  have settled : Settled before.2.host := start.congr sent last
  unfold releaseContract Effect at effect
  dsimp only at effect
  cases taken : releaseFirst before.2.host.reoList with
  | none => exact absurd taken listOk.releaseFirst_ne_none
  | some outcome =>
    obtain ⟨list, released⟩ := outcome
    rw [taken] at effect
    obtain ⟨rfl, isAfter⟩ := effect
    cases released with
    | none =>
      refine Prog.wp_done fun final ⟨sent, last, _⟩ => ?_
      rcases releaseFirst_cases taken with ⟨-, rfl⟩ | ⟨_, _, _, _, _, isEntry, _⟩
      · refine settled.congr ?_ ?_
        · rw [sent, isAfter]
        · rw [last, isAfter]
      · exact absurd isEntry (by simp)
    | some entry =>
      obtain ⟨opened, hasReason⟩ := released_of_releaseFirst settled taken
      rw [← isAfter] at opened
      dsimp only
      rw [if_neg (by rw [hasReason]; decide)]
      refine Prog.wp_call fun later ⟨sent, last, _⟩ =>
        ⟨opened.congr sent last, fun _ afterSent effect => ?_⟩
      have opened := opened.congr sent last
      have closed : Settled afterSent.2.host := by
        intro newest isNewest
        have effect : afterSent.2.host = { later.2.host with
          sentUp := later.2.host.sentUp ++ [(entry, getReleaseReason entry.status)] } := effect
        rw [effect] at isNewest ⊢
        simp only [List.getLast?_append, List.getLast?_singleton, Option.some_or] at isNewest
        obtain rfl := Option.some.inj isNewest
        exact opened.last
      refine Prog.wp_call fun beforeRef ⟨sent, last, _⟩ => ⟨trivial, fun _ afterRef effect => ?_⟩
      have effect : afterRef.2.host = beforeRef.2.host.addPdevRefs entry.pdev (-1) := effect
      have closed : Settled afterRef.2.host := by
        refine closed.congr ?_ ?_
        · rw [effect]; exact sent
        · rw [effect]; exact last
      refine Prog.wp_call fun beforeFree ⟨sent, last, _⟩ => ⟨trivial, fun _ afterFree effect => ?_⟩
      have effect : afterFree.2.host =
        { beforeFree.2.host with heap := beforeFree.2.host.heap.erase entry.address } := effect
      refine Prog.wp_done fun final ⟨sentFinal, lastFinal, _⟩ => closed.congr ?_ ?_
      · rw [sentFinal, effect]; exact sent
      · rw [lastFinal, effect]; exact last

/-! ### Every run -/

/-- The operations that change the list or deliver an entry. -/
def HostOp.changesList : HostOp Buf → Bool
  | .updateList _ _ => true
  | .releaseFirst => true
  | .processRxFrame _ _ => true
  | _ => false

/-- The other operations leave the list and the deliveries alone. -/
theorem effect_frame {numMloLinks : Nat} {op : HostOp Buf} {host after : Host Buf} {res : op.Res}
    (unchanged : op.changesList = false) (effect : Effect numMloLinks op host res after) :
    after.reoList = host.reoList ∧ after.sentUp = host.sentUp := by
  cases op with
  | updateHostSnapshot pdev params =>
    unfold Effect at effect
    dsimp only at effect
    cases isUpdated : updateHostSnapshot host pdev params with
    | error stop =>
      rw [isUpdated] at effect
      obtain ⟨-, rfl⟩ := effect
      exact ⟨rfl, rfl⟩
    | ok updated =>
      rw [isUpdated] at effect
      obtain ⟨-, rfl⟩ := effect
      obtain ⟨-, -, rfl⟩ := updateHostSnapshot_ok isUpdated
      exact ⟨rfl, rfl⟩
  | getPrivObject pdev =>
    obtain ⟨-, rfl⟩ := effect
    exact ⟨rfl, rfl⟩
  | getPdevFromLinkId link =>
    rcases effect with ⟨-, rfl⟩ | ⟨-, rfl⟩
    · exact ⟨rfl, rfl⟩
    · exact ⟨rfl, rfl⟩
  | releasePdevRef pdev =>
    obtain rfl : after = _ := effect
    exact ⟨rfl, rfl⟩
  | readSnapshot pdev id =>
    obtain rfl : after = _ := effect
    exact ⟨rfl, rfl⟩
  | malloc =>
    rcases effect with ⟨-, -, -, rfl⟩ | ⟨-, rfl⟩
    · exact ⟨rfl, rfl⟩
    · exact ⟨rfl, rfl⟩
  | free address =>
    obtain rfl : after = _ := effect
    exact ⟨rfl, rfl⟩
  | updateList desc newEntry => exact absurd unchanged (by simp [HostOp.changesList])
  | releaseFirst => exact absurd unchanged (by simp [HostOp.changesList])
  | processRxFrame entry reason => exact absurd unchanged (by simp [HostOp.changesList])

/-- The host whose lists each lie in a window of half the timestamp range. -/
def windowedSystem (environment : Environment Buf E) (numMloLinks : Nat) :
    System LockId (HostOp Buf) HostOp.Res Stop Bool (World Buf E) :=
  (system environment numMloLinks).restrict fun world => world.host.reoList.InWindow

/-- The protocol of the release order. -/
def releaseOrder (environment : Environment Buf E) (numMloLinks : Nat) :
    Protocol (windowedSystem environment numMloLinks) Unit where
  contract := fun
    | .algoEntry => algoContract Unit Buf E
    | .frameRelease => releaseContract Buf E numMloLinks
  inv := fun _ _ world => ListOk world.host.reoList ∧ Monotone world.host
  idle := fun
    | .algoEntry, _ => True
    | .frameRelease, state => Settled state.2.host
  ended := fun
    | .algoEntry, _ => True
    | .frameRelease, state => Settled state.2.host
  bad := fun
    | .algoEntry, _, _ => True
    | .frameRelease, _, _ => False

section Valid

variable {environment : Environment Buf E} {numMloLinks : Nat} {host after : Host Buf}

/-- What the thread in the algorithm does keeps the invariant, and is not noticed by the release
loop. -/
theorem algoCall_keeps {op : HostOp Buf} {res : op.Res} (listOk : ListOk host.reoList)
    (monotone : Monotone host) {state : Unit × World Buf E}
    (pre : (algoContract Unit Buf E).pre op state) (effect : Effect numMloLinks op host res after)
    (window : after.reoList.InWindow) :
    ListOk after.reoList ∧ Monotone after ∧ after.sentUp = host.sentUp ∧
      after.reoList.tsLastReleasedFrame = host.reoList.tsLastReleasedFrame := by
  cases changes : op.changesList with
  | false =>
    obtain ⟨sameList, sameSent⟩ := effect_frame changes effect
    unfold Monotone
    rw [sameList, sameSent]
    exact ⟨listOk, monotone, rfl, rfl⟩
  | true =>
    cases op with
    | updateList desc newEntry =>
      obtain ⟨now, -, rfl⟩ := effect
      exact ⟨listOk.updateList numMloLinks desc newEntry now pre window, monotone, rfl,
        updateList_tsLast numMloLinks host.reoList desc newEntry now⟩
    | releaseFirst => exact absurd pre id
    | processRxFrame entry reason => exact absurd pre id
    | _ => exact absurd changes (by simp [HostOp.changesList])

/-- What the thread in the release loop does keeps the invariant. -/
theorem releaseCall_keeps {op : HostOp Buf} {res : op.Res} (listOk : ListOk host.reoList)
    (monotone : Monotone host) {below : E}
    (pre : (releaseContract Buf E numMloLinks).pre op ((), ⟨host, below⟩))
    (effect : Effect numMloLinks op host res after) :
    ListOk after.reoList ∧ Monotone after := by
  cases changes : op.changesList with
  | false =>
    obtain ⟨sameList, sameSent⟩ := effect_frame changes effect
    unfold Monotone
    rw [sameList, sameSent]
    exact ⟨listOk, monotone⟩
  | true =>
    cases op with
    | updateList desc newEntry => exact absurd pre id
    | releaseFirst =>
      unfold Effect at effect
      dsimp only at effect
      cases round : releaseFirst host.reoList with
      | none => exact absurd round listOk.releaseFirst_ne_none
      | some outcome =>
        rw [round] at effect
        obtain ⟨-, rfl⟩ := effect
        exact ⟨listOk.releaseFirst round, monotone⟩
    | processRxFrame entry reason =>
      obtain rfl : after = { host with sentUp := host.sentUp ++ [(entry, reason)] } := effect
      refine ⟨listOk, List.isChain_append.mpr ⟨monotone, List.isChain_singleton _, ?_⟩⟩
      intro last isLast newest isNewest
      obtain rfl := Option.some.inj isNewest
      exact Released.order pre last isLast
    | _ => exact absurd changes (by simp [HostOp.changesList])

theorem releaseOrder_valid (environment : Environment Buf E) (numMloLinks : Nat) :
    (releaseOrder environment numMloLinks).Valid where
  settled := fun inv tid =>
    match tid with
    | .algoEntry => trivial
    | .frameRelease => ⟨rfl, rfl, inv.1⟩
  idle_rely := fun {tid _ _} rely idle =>
    match tid with
    | .algoEntry => trivial
    | .frameRelease => Settled.congr idle rely.1 rely.2.1
  ended_of_bad := fun {tid _ _} _ bad =>
    match tid with
    | .algoEntry => trivial
    | .frameRelease => absurd bad id
  init := fun {world} initial => by
    obtain ⟨⟨-, privObject, isInit⟩, -⟩ := initial
    refine ⟨fun _ => (), ?_, fun tid => ?_⟩
    · show ListOk world.host.reoList ∧ Monotone world.host
      rw [isInit]
      exact ⟨listOk_init, List.isChain_nil⟩
    · cases tid with
      | algoEntry => trivial
      | frameRelease =>
        show Settled world.host
        rw [isInit]
        exact fun _ member => nomatch member
  start := fun {history ghosts world tid program after} inv idle started => by
    obtain ⟨⟨sameHost, started⟩, -⟩ := started
    refine ⟨(), ?_, ?_, fun other _ => ?_⟩
    · show ListOk after.host.reoList ∧ Monotone after.host
      rw [sameHost]
      exact inv
    · cases tid with
      | algoEntry =>
        obtain ⟨pdev, type, nbuf, params, -, rfl⟩ := started
        exact algoEntry_coherent numMloLinks pdev type nbuf params
      | frameRelease =>
        obtain ⟨-, rfl⟩ := started
        refine releaseEntries_ordered numMloLinks ?_
        show Settled after.host
        rw [sameHost]
        exact idle
    · cases other with
      | algoEntry => trivial
      | frameRelease =>
        refine ⟨?_, ?_, ?_⟩ <;> show _ <;> rw [sameHost]
        exact inv.1
  call := fun {history ghosts world tid op res after} inv pre effect => by
    obtain ⟨⟨-, effect, -⟩, window⟩ := effect
    obtain ⟨listOk, monotone⟩ := inv
    cases tid with
    | algoEntry =>
      obtain ⟨listOk', monotone', sameSent, sameLast⟩ :=
        algoCall_keeps listOk monotone pre effect window
      refine ⟨(), ⟨listOk', monotone'⟩, trivial, fun other notSelf => ?_⟩
      cases other with
      | algoEntry => exact absurd rfl notSelf
      | frameRelease => exact ⟨sameSent, sameLast, listOk'⟩
    | frameRelease =>
      refine ⟨(), releaseCall_keeps listOk monotone pre effect, effect, fun other notSelf => ?_⟩
      cases other with
      | algoEntry => trivial
      | frameRelease => exact absurd rfl notSelf
  finish := fun inv ended => ⟨(), inv, ended⟩
  env := fun {history ghosts world after} inv moved => by
    obtain ⟨moved, -⟩ := moved
    rcases moved with ⟨sameHost, -⟩ | ⟨now, isAged, -⟩
    · refine ⟨?_, fun tid => ?_⟩
      · show ListOk after.host.reoList ∧ Monotone after.host
        rw [sameHost]
        exact inv
      · cases tid with
        | algoEntry => trivial
        | frameRelease =>
          refine ⟨?_, ?_, ?_⟩ <;> show _ <;> rw [sameHost]
          exact inv.1
    · refine ⟨?_, fun tid => ?_⟩
      · show ListOk after.host.reoList ∧ Monotone after.host
        rw [isAged]
        exact ⟨inv.1.ageout now, inv.2⟩
      · cases tid with
        | algoEntry => trivial
        | frameRelease =>
          refine ⟨?_, ?_, ?_⟩ <;> show _ <;> rw [isAged]
          · rfl
          · exact inv.1.ageout now

end Valid

/-- **The list invariant and the order of release, in every run.** At every point of every
interleaving the list is sorted, every wait count is the sum of its links' counts and agrees with
the waiting bit, no entry is older than the frame released last; so the assertions of the release
loop never fail, and the timestamps sent up never decrease. -/
theorem reorderList_run (environment : Environment Buf E) (numMloLinks : Nat)
    {history : List (World Buf E × HostLabel Buf)} {machine : Machine Buf E}
    (run : (windowedSystem environment numMloLinks).Run history machine) :
    SortedByTs (machine.state.host.reoList.list.map (·.ts)) ∧
    (∀ entry ∈ machine.state.host.reoList.list,
      entry.waitCount.totalCount.toNat = ∑ link, (entry.waitCount.perLinkCount link).toNat ∧
      (entry.status.waitForFrameOnOtherLinks = true ↔ entry.waitCount.totalCount ≠ 0)) ∧
    (∀ entry ∈ machine.state.host.reoList.list,
      isStaleFrame machine.state.host.reoList.tsLastReleasedFrame entry.ts = false) ∧
    releaseFirst machine.state.host.reoList ≠ none ∧
    machine.running .frameRelease ≠ some (.stop .assertion) ∧
    Monotone machine.state.host := by
  obtain ⟨ghosts, ⟨listOk, monotone⟩, threads⟩ :=
    (releaseOrder_valid environment numMloLinks).holds run
  refine ⟨listOk.sorted, fun entry member => ?_, listOk.notStale, listOk.releaseFirst_ne_none,
    fun stopped => ?_, monotone⟩
  · exact ⟨(listOk.coherent entry member).counts, (listOk.coherent entry member).waiting⟩
  · have thread := threads .frameRelease
    rw [stopped] at thread
    exact thread _ ⟨rfl, rfl, listOk⟩

/-- The host reads that link 1 has a frame of time 7, and the list stays in the window from 0. -/
def twoLinks : Strategy (windowedSystem (Environment.any Unit) 2) :=
  (hostStrategy (Environment.any Unit) 2
    (fun _ pdev _ => if pdev = 1 then ⟨true, 1, 7⟩ else ⟨true, 1, 9⟩) fun _ _ _ => trivial).restrict
      (fun world => world.host.reoList.InWindow)
      (fun world => world.host.reoList.list.all fun entry => decide (Serial.InWindow 0 entry.ts))
      fun checked => ⟨0, by simpa using checked⟩

def twoLinksStart : World Unit Unit := ⟨Host.init Unit fun _ => true, ()⟩

/-- A frame of link 0 with time 9 arrives and has to wait for the one of link 1. -/
def oneWaits : Machine Unit Unit :=
  ((⟨twoLinksStart, fun _ => none⟩ : Machine Unit Unit).begin .algoEntry
    (algoEntry 2 0 (.fresh .hostConsumed () ⟨true, 0, 1, 9⟩)) twoLinksStart).advances twoLinks
    .algoEntry 12

/-- The frame of link 1 with time 7 arrives, and goes in front. -/
def twoQueued : Machine Unit Unit :=
  (oneWaits.begin .algoEntry (algoEntry 2 1 (.fresh .hostConsumed () ⟨true, 1, 1, 7⟩))
    oneWaits.state).advances
    twoLinks .algoEntry 12

/-- The next entry is released. -/
def releasedOne (machine : Machine Unit Unit) : Machine Unit Unit :=
  (machine.begin .frameRelease releaseEntries machine.state).advances twoLinks .frameRelease 5

theorem oneWaits_reachable : (windowedSystem (Environment.any Unit) 2).Reachable oneWaits := by
  refine Config.advances_reachable _ _ 12 (Config.begin_reachable ?_ rfl ⟨⟨rfl, ?_⟩, ?_⟩)
  · exact ⟨[], .init ⟨⟨trivial, _, rfl⟩, 0, by simp [twoLinksStart, Host.init, ReoList.init]⟩⟩
  · exact ⟨0, .hostConsumed, (), ⟨true, 0, 1, 9⟩, trivial, rfl⟩
  · exact ⟨0, by simp [twoLinksStart, Host.init, ReoList.init]⟩

theorem twoQueued_reachable : (windowedSystem (Environment.any Unit) 2).Reachable twoQueued := by
  refine Config.advances_reachable _ _ 12
    (Config.begin_reachable oneWaits_reachable (by decide) ⟨⟨rfl, ?_⟩, ?_⟩)
  · exact ⟨1, .hostConsumed, (), ⟨true, 1, 1, 7⟩, trivial, rfl⟩
  · exact ⟨0, by decide⟩

theorem releasedOne_reachable {machine : Machine Unit Unit}
    (reachable : (windowedSystem (Environment.any Unit) 2).Reachable machine)
    (free : machine.running .frameRelease = none) (inWindow : machine.state.host.reoList.InWindow) :
    (windowedSystem (Environment.any Unit) 2).Reachable (releasedOne machine) :=
  Config.advances_reachable _ _ 5
    (Config.begin_reachable reachable free ⟨⟨rfl, rfl, rfl⟩, inWindow⟩)

/-- Two frames of two links: the earlier one arrives later, and is sent up first. -/
theorem reorderList_run_twoFrames :
    oneWaits.state.host.reoList.list.map (·.waitCount.totalCount) = [1] ∧
    twoQueued.state.host.reoList.list.map (·.ts) = [7, 9] ∧
    SortedByTs (twoQueued.state.host.reoList.list.map (·.ts)) ∧
    (∀ entry ∈ oneWaits.state.host.reoList.list, entry.status.waitForFrameOnOtherLinks = true) ∧
    (releasedOne (releasedOne twoQueued)).state.host.sentUp.map (·.1.ts) = [7, 9] ∧
    Monotone (releasedOne (releasedOne twoQueued)).state.host := by
  have once := releasedOne_reachable twoQueued_reachable (by decide) ⟨0, by decide⟩
  obtain ⟨waited, waits⟩ := oneWaits_reachable
  obtain ⟨arrived, queued⟩ := twoQueued_reachable
  obtain ⟨history, sent⟩ := releasedOne_reachable once (by decide) ⟨0, by decide⟩
  refine ⟨by decide, by decide, (reorderList_run _ 2 queued).1, fun entry member => ?_, by decide,
    (reorderList_run _ 2 sent).2.2.2.2.2⟩
  have coherent := ((reorderList_run _ 2 waits).2.1 entry member).2
  have waitsFor : ∀ entry ∈ oneWaits.state.host.reoList.list,
    entry.waitCount.totalCount ≠ 0 := by decide
  exact coherent.mpr (waitsFor entry member)

end Qsdk.MgmtRxReo
