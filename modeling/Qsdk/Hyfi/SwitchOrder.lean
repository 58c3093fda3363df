/-
**Order over path switches.**

Between two switches the receiver is settled: the data on the way is that of one interface and what
is sent behind it. Of a switch either the begin marker comes first, and the new interface's data is
buffered until the end marker has come, or the end marker, and the begin marker is next (`Stage`).
As long as the markers of the switches do not mix, and the buffer is empty when the next one is
filled, the data is forwarded in order (`in_order_of_separate`). A packet of the old interface that
comes while the buffer still holds older ones overtakes them (`overtaken_after_switch`).
-/

import Qsdk.Hyfi.PathSwitch

set_option linter.unusedSectionVars false

namespace Qsdk.PathSwitch

variable {Iface Packet : Type} [DecidableEq Iface] [DecidableEq Packet] {dev target : Iface}
    {last : Nat}
  {sends : List (Send Iface Packet)} {old sent : List Packet} {skb : Packet}
  {path next : Path Iface Packet}
  {param : PathSwitchParam} {now : Jiffies} {info : FlowInfo Iface Packet} {arrival : Arrival Iface}
  {X Y : List (Iface × Frame Packet)} {place : Iface × Frame Packet}

/-! ### What is on the way -/

/-- Data packets, one after another. -/
def allData (old : List Packet) : List (Send Iface Packet) := old.map fun skb => .data skb

/-- Data packets on an interface. -/
def onDev (dev : Iface) (old : List Packet) : List (Iface × Frame Packet) :=
    old.map fun skb => (dev, .data skb)

theorem dataOf_append (X Y : List (Iface × Frame Packet)) : dataOf (X ++ Y) =
    dataOf X ++ dataOf Y :=
  List.filterMap_append

theorem dataOf_onDev (dev : Iface) (old : List Packet) : dataOf (onDev dev old) = old := by
  unfold dataOf onDev
  rw [List.filterMap_map]
  exact List.filterMap_some

theorem emit_append (dev : Iface) (old : List Packet) (sends : List (Send Iface Packet)) :
    emit dev (allData old ++ sends) = onDev dev old ++ emit dev sends := by
  induction old with
  | nil => rfl
  | cons skb old ih => exact congrArg ((dev, Frame.data skb) :: ·) ih

/-- The sender sends data only, or data up to its next switch. -/
theorem split_sends (sends : List (Send Iface Packet)) :
    (∃ old, sends = allData old) ∨ ∃ old target mrkId rest, sends = allData old ++
        .switch target mrkId :: rest := by
  induction sends with
  | nil => exact .inl ⟨[], rfl⟩
  | cons send sends ih =>
    cases send with
    | switch target mrkId => exact .inr ⟨[], target, mrkId, sends, rfl⟩
    | data skb =>
      rcases ih with ⟨old, rfl⟩ | ⟨old, target, mrkId, rest, rfl⟩
      · exact .inl ⟨skb :: old, rfl⟩
      · exact .inr ⟨skb :: old, target, mrkId, rest, rfl⟩

theorem Fresh.of_append (fresh : Fresh dev last (allData old ++ sends)) : Fresh dev last sends := by
  induction old with
  | nil => exact fresh
  | cons skb old ih => exact ih fresh

theorem onDev_other {other : Iface} (isOther : other ≠ dev) : ∀ place ∈ onDev dev old,
    place.1 ≠ other := by
  intro place member
  obtain ⟨skb, _, rfl⟩ := List.mem_map.mp member
  exact Ne.symm isOther

/-- What comes first on another interface is a begin marker. -/
theorem first_is_begin {other : Iface} (isOther : other ≠ dev)
    (found : (emit dev sends).find? (fun place => decide (place.1 = other)) = some place) :
    ∃ mrkId, place.2 = .beginMarker mrkId := by
  induction sends generalizing dev with
  | nil => cases found
  | cons send sends ih =>
    cases send with
    | data skb =>
      unfold emit at found
      rw [List.find?_cons_of_neg (by simpa using Ne.symm isOther)] at found
      exact ih isOther found
    | switch target mrkId =>
      unfold emit at found
      rw [List.find?_cons_of_neg (by simpa using Ne.symm isOther)] at found
      by_cases here : target = other
      · rw [List.find?_cons_of_pos (by simpa using here)] at found
        obtain rfl := Option.some.inj found
        exact ⟨mrkId, rfl⟩
      · rw [List.find?_cons_of_neg (by simpa using here)] at found
        exact ih (Ne.symm here) found

/-! ### Arrivals -/

theorem find_append (others : ∀ place ∈ X, place.1 ≠ dev) :
    (X ++ Y).find? (fun place => decide (place.1 = dev)) = Y.find? fun place =>
        decide (place.1 = dev) := by
  rw [List.find?_append, List.find?_eq_none.mpr (by simpa using others)]
  rfl

theorem eraseP_append (others : ∀ place ∈ X, place.1 ≠ dev) :
    (X ++ Y).eraseP (fun place => decide (place.1 = dev)) = X ++ Y.eraseP fun place =>
        decide (place.1 = dev) :=
  List.eraseP_append_right _ (by simpa using others)

theorem takeWhile_append (others : ∀ place ∈ X, place.1 ≠ dev) :
    (X ++ Y).takeWhile (fun place => !decide (place.1 = dev)) = X ++ Y.takeWhile fun place =>
        !decide (place.1 = dev) :=
  List.takeWhile_append_of_pos (by simpa using others)

theorem Path.first_append (isWire : path.wire = X ++ Y) (others : ∀ place ∈ X, place.1 ≠ dev) :
    path.first dev = Y.find? fun place => decide (place.1 = dev) := by
  unfold Path.first
  rw [isWire, find_append others]

/-- What arrives, when the frames sent before are those of other interfaces. -/
theorem Path.first_eq (isWire : path.wire = X ++ place :: Y) (others : ∀ place ∈ X, place.1 ≠ dev)
    (isDev : place.1 = dev) :
    path.first dev = some place := by
  rw [Path.first_append isWire others, List.find?_cons_of_pos (by simpa using isDev)]

theorem Path.before_eq (isWire : path.wire = X ++ place :: Y) (others : ∀ place ∈ X, place.1 ≠ dev)
    (isDev : place.1 = dev) :
    path.before dev = X := by
  unfold Path.before
  rw [isWire, takeWhile_append others, List.takeWhile_cons_of_neg (by simpa using isDev),
    List.append_nil]

/-- And what the receiver is then. -/
theorem Path.arrive_eq (arrived : path.arrive param arrival = some next)
    (isWire : path.wire = X ++ place :: Y) (others : ∀ place ∈ X, place.1 ≠ arrival.dev)
    (isDev : place.1 = arrival.dev) :
    next = { path with wire := X ++ Y }.receive param arrival.dev arrival.now place.2 := by
  unfold Path.arrive at arrived
  rw [Path.first_eq isWire others isDev] at arrived
  dsimp only at arrived
  rw [isWire, eraseP_append others, List.eraseP_cons_of_pos (by simpa using isDev)] at arrived
  exact (Option.some.inj arrived).symm

/-- What is sent before, on other interfaces, is before what arrives. -/
theorem Path.mem_before (isWire : path.wire = X ++ Y) (others : ∀ place ∈ X, place.1 ≠ dev)
    (member : place ∈ X) :
    place ∈ path.before dev := by
  unfold Path.before
  rw [isWire, takeWhile_append others]
  exact List.mem_append_left _ member

theorem Path.first_of_arrive (arrived : path.arrive param arrival = some next) :
    ∃ place, path.first arrival.dev = some place := by
  unfold Path.arrive at arrived
  split at arrived
  · cases arrived
  · exact ⟨_, ‹_›⟩

/-- A begin marker that overtakes a marker of another switch is not separate. -/
theorem Path.Separate.not_begin (separate : path.Separate arrival) {mrkId : Nat}
    (found : path.first arrival.dev = some place) (isBegin : place.2 = .beginMarker mrkId) :
    ∀ place ∈ path.before arrival.dev, place.2 = .endMarker mrkId ∨ ∃ skb, place.2 = .data skb := by
  obtain ⟨_, frame⟩ := place
  obtain rfl : frame = .beginMarker mrkId := isBegin
  unfold Path.Separate at separate
  rw [found] at separate
  exact separate.1

/-- An end marker that overtakes another marker is not separate. -/
theorem Path.Separate.not_end (separate : path.Separate arrival) {mrkId : Nat}
    (found : path.first arrival.dev = some place) (isEnd : place.2 = .endMarker mrkId) :
    ∀ place ∈ path.before arrival.dev, ∃ skb, place.2 = .data skb := by
  obtain ⟨_, frame⟩ := place
  obtain rfl : frame = .endMarker mrkId := isEnd
  unfold Path.Separate at separate
  rw [found] at separate
  exact separate

/-- A begin marker that comes before older data finds an empty buffer. -/
theorem Path.Separate.of_begin (separate : path.Separate arrival) {mrkId : Nat}
    (found : path.first arrival.dev = some place) (isBegin : place.2 = .beginMarker mrkId) :
    path.info.skbBufQ = [] ∨ dataOf (path.before arrival.dev) = [] := by
  obtain ⟨_, frame⟩ := place
  obtain rfl : frame = .beginMarker mrkId := isBegin
  unfold Path.Separate at separate
  rw [found] at separate
  exact separate.2

/-! ### The receiver -/

/-- The receiver, as long as there is no timeout. -/
structure Quiet (info : FlowInfo Iface Packet) (last : Nat) : Prop where
  dupPkt : info.dupPkt = 0
  waitIdx : info.waitIdx < 0
  mseTimeout : info.mseTimeout = false
  bufPkt : info.bufPkt = info.skbBufQ.length
  lastMrkId : info.lastMrkId = last

/-- The receiver between two switches. -/
structure Idle (info : FlowInfo Iface Packet) (last : Nat) : Prop extends Quiet info last where
  msbRcv : info.msbRcv = false
  mseRcv : info.mseRcv = false

/-- The receiver behind a begin marker without its end marker. -/
structure Buffering (info : FlowInfo Iface Packet) (last : Nat) (target : Iface) :
    Prop extends Quiet info last where
  msbRcv : info.msbRcv = true
  mseRcv : info.mseRcv = false
  bufDevIdx : info.bufDevIdx = some target

/-- The receiver behind an end marker without its begin marker. -/
structure Ended (info : FlowInfo Iface Packet) (last : Nat) : Prop extends Quiet info last where
  msbRcv : info.msbRcv = false
  mseRcv : info.mseRcv = true

/-- **Between two switches** the packet goes behind the buffer. -/
theorem Idle.processPkt (idle : Idle info last) :
    Idle (info.processPkt param now dev skb).1 last ∧
      (info.processPkt param now dev skb).2 ++ (info.processPkt param now dev skb).1.skbBufQ =
          info.skbBufQ ++ [skb] := by
  have dupPkt := idle.dupPkt
  have waitIdx := idle.waitIdx
  have count := idle.bufPkt
  unfold FlowInfo.processPkt
  rw [if_neg (by omega), if_neg (by simp [idle.mseTimeout]), if_neg (by simp [idle.msbRcv])]
  split
  · unfold FlowInfo.forwardAndQueue
    dsimp only
    split
    · refine ⟨⟨⟨dupPkt, waitIdx, idle.mseTimeout, ?_, idle.lastMrkId⟩, idle.msbRcv, idle.mseRcv⟩,
        ?_⟩
      · show info.bufPkt - _ + 1 = (info.skbBufQ.drop reordFlushQuota ++ [skb]).length
        rw [count, List.length_take, List.length_append, List.length_drop, List.length_singleton]
        omega
      · show info.skbBufQ.take reordFlushQuota ++ (info.skbBufQ.drop reordFlushQuota ++ [skb]) = _
        rw [← List.append_assoc, List.take_append_drop]
    · rename_i empty
      have all : info.skbBufQ.drop reordFlushQuota = [] := not_not.mp empty
      refine ⟨⟨⟨dupPkt, waitIdx, rfl, ?_, idle.lastMrkId⟩, rfl, rfl⟩, ?_⟩
      · show info.bufPkt - _ = (info.skbBufQ.drop reordFlushQuota).length
        rw [count, List.length_take, List.length_drop]
        omega
      · show info.skbBufQ.take reordFlushQuota ++ [skb] ++ info.skbBufQ.drop reordFlushQuota = _
        rw [all, List.append_nil]
        rw [← List.take_append_drop reordFlushQuota info.skbBufQ, all, List.append_nil,
          List.take_take, Nat.min_self]
  · rename_i noBuffer
    have empty : info.skbBufQ = [] := List.eq_nil_of_length_eq_zero (by
      rw [← count]
      by_contra some
      exact noBuffer ⟨idle.mseRcv, some⟩)
    refine ⟨⟨⟨dupPkt, waitIdx, idle.mseTimeout, count, idle.lastMrkId⟩, idle.msbRcv, idle.mseRcv⟩,
      ?_⟩
    show [] ++ [skb] ++ info.skbBufQ = _
    rw [empty]
    rfl

/-- **While it is buffering** a packet of the old interface is forwarded. -/
theorem Buffering.processPkt_old (buffering : Buffering info last target) (isOld : target ≠ dev) :
    Buffering (info.processPkt param now dev skb).1 last target ∧
      (info.processPkt param now dev skb).1.skbBufQ = info.skbBufQ ∧
          (info.processPkt param now dev skb).2 = [skb] := by
  have dupPkt := buffering.dupPkt
  have waitIdx := buffering.waitIdx
  have isOther : info.bufDevIdx ≠ some dev := fun same =>
    isOld (Option.some.inj (buffering.bufDevIdx.symm.trans same))
  unfold FlowInfo.processPkt
  rw [if_neg (by omega), if_neg (by simp [buffering.mseTimeout]),
    if_pos ⟨buffering.msbRcv, buffering.mseRcv, buffering.mseTimeout⟩, if_neg isOther]
  exact ⟨⟨⟨dupPkt, waitIdx, buffering.mseTimeout, buffering.bufPkt, buffering.lastMrkId⟩,
    buffering.msbRcv, buffering.mseRcv,
    buffering.bufDevIdx⟩, rfl, rfl⟩

/-- And one of the new interface is buffered. -/
theorem Buffering.processPkt_new (buffering : Buffering info last target)
    (inTime : timeBefore now (info.lastJiffies + param.mseTimeoutVal) = true)
    (room : info.bufPkt < maxReordBuf)
    (heard : timeAfter now (info.oldIfJiffies + param.oldIfQuietTimeout) = false) :
    Buffering (info.processPkt param now target skb).1 last target ∧
      (info.processPkt param now target skb).1.skbBufQ = info.skbBufQ ++ [skb] ∧
      (info.processPkt param now target skb).2 = [] := by
  have dupPkt := buffering.dupPkt
  have waitIdx := buffering.waitIdx
  unfold FlowInfo.processPkt
  rw [if_neg (by omega), if_neg (by simp [buffering.mseTimeout]),
    if_pos ⟨buffering.msbRcv, buffering.mseRcv, buffering.mseTimeout⟩, if_pos buffering.bufDevIdx,
    if_pos ⟨inTime, room⟩]
  dsimp only
  rw [heard, if_neg (by simp)]
  refine ⟨⟨⟨dupPkt, waitIdx, buffering.mseTimeout, ?_, buffering.lastMrkId⟩, buffering.msbRcv,
    buffering.mseRcv,
    buffering.bufDevIdx⟩, rfl, rfl⟩
  rw [List.length_append, List.length_singleton]
  exact congrArg (· + 1) buffering.bufPkt

/-- The end marker comes first. -/
theorem Idle.handlePkt3 (idle : Idle info last) {mrkId : Nat} (isNew : mrkId ≠ last) :
    Ended (info.handlePkt3 now mrkId) mrkId ∧ (info.handlePkt3 now mrkId).skbBufQ =
        info.skbBufQ := by
  have dupPkt := idle.dupPkt
  have waitIdx := idle.waitIdx
  unfold FlowInfo.handlePkt3 FlowInfo.endMarked
  dsimp only
  rw [if_neg (by simp [idle.msbRcv]), if_pos (idle.lastMrkId ▸ isNew), if_pos (by omega)]
  exact ⟨⟨⟨dupPkt, waitIdx, rfl, idle.bufPkt, rfl⟩, idle.msbRcv, rfl⟩, rfl⟩

/-- The begin marker comes first. -/
theorem Idle.handlePkt4 (idle : Idle info last) (mrkId : Nat) :
    Buffering (info.handlePkt4 now mrkId dev) mrkId dev ∧ (info.handlePkt4 now mrkId dev).skbBufQ =
        info.skbBufQ := by
  have dupPkt := idle.dupPkt
  have waitIdx := idle.waitIdx
  unfold FlowInfo.handlePkt4 FlowInfo.beginMarked
  dsimp only
  rw [if_neg (by simp [idle.mseRcv]), if_pos (by omega)]
  exact ⟨⟨⟨rfl, waitIdx, rfl, idle.bufPkt, rfl⟩, rfl, idle.mseRcv, rfl⟩, rfl⟩

theorem Buffering.handlePkt3 (buffering : Buffering info last target) :
    Idle (info.handlePkt3 now last) last ∧ (info.handlePkt3 now last).skbBufQ = info.skbBufQ := by
  unfold FlowInfo.handlePkt3 FlowInfo.endMarked
  dsimp only
  rw [if_pos ⟨buffering.msbRcv, buffering.lastMrkId⟩, if_neg (by simp [buffering.mseTimeout])]
  exact ⟨⟨⟨buffering.dupPkt, buffering.waitIdx, buffering.mseTimeout, buffering.bufPkt,
    buffering.lastMrkId⟩, rfl, rfl⟩, rfl⟩

theorem Ended.handlePkt4 (ended : Ended info last) :
    Idle (info.handlePkt4 now last dev) last ∧ (info.handlePkt4 now last dev).skbBufQ =
        info.skbBufQ := by
  unfold FlowInfo.handlePkt4 FlowInfo.beginMarked
  dsimp only
  rw [if_pos ⟨ended.mseRcv, ended.lastMrkId⟩]
  exact ⟨⟨⟨ended.dupPkt, ended.waitIdx, rfl, ended.bufPkt, ended.lastMrkId⟩, rfl, rfl⟩, rfl⟩

/-! ### Stages of a run -/

/-- How far the receiver is with the switch it is at. -/
inductive Stage (sent : List Packet) (path : Path Iface Packet) : Prop
  /-- Both markers of the last switch have come. -/
  | settled (dev : Iface) (last : Nat) (sends : List (Send Iface Packet))
    (fresh : Fresh dev last sends)
    (wire : path.wire = emit dev sends) (idle : Idle path.info last)
    (all : path.forwarded ++ (path.info.skbBufQ ++ dataOf (emit dev sends)) = sent)
  /-- Only the begin marker has. -/
  | begun (dev target : Iface) (last : Nat) (old : List Packet) (sends : List (Send Iface Packet))
    (isOther : target ≠ dev)
    (fresh : Fresh target last sends) (wire : path.wire = onDev dev old ++ (dev, .endMarker last) ::
      emit target sends)
    (buffering : Buffering path.info last target)
    (all : path.forwarded ++ (old ++ (path.info.skbBufQ ++ dataOf (emit target sends))) = sent)
  /-- Only the end marker has. -/
  | ended (target : Iface) (last : Nat) (sends : List (Send Iface Packet))
    (fresh : Fresh target last sends)
    (wire : path.wire = (target, .beginMarker last) :: emit target sends)
    (ended : Ended path.info last)
    (all : path.forwarded ++ (path.info.skbBufQ ++ dataOf (emit target sends)) = sent)

/-- At every stage the data is in order. -/
theorem Stage.inOrder (stage : Stage sent path) : path.InOrder sent := by
  cases stage with
  | settled dev last sends fresh wire idle all =>
    refine ⟨⟨_, all⟩, ?_, idle.bufPkt⟩
    rw [wire, all]
  | begun dev target last old sends isOther fresh wire buffering all =>
    refine ⟨⟨_, all⟩, ?_, buffering.bufPkt⟩
    rw [wire, ← all, dataOf_append, dataOf_onDev]
    refine List.Perm.append_left _ ?_
    show (path.info.skbBufQ ++ (old ++ dataOf (emit target sends))).Perm _
    rw [← List.append_assoc, ← List.append_assoc]
    exact List.Perm.append_right _ List.perm_append_comm
  | ended target last sends fresh wire ended all =>
    refine ⟨⟨_, all⟩, ?_, ended.bufPkt⟩
    rw [wire, ← all]
    exact List.Perm.refl _

theorem Stage.step_settled (fresh : Fresh dev last sends) (wire : path.wire = emit dev sends)
    (idle : Idle path.info last)
    (all : path.forwarded ++ (path.info.skbBufQ ++ dataOf (emit dev sends)) = sent)
    (arrived : path.arrive param arrival = some next) (separate : path.Separate arrival) :
        Stage sent next := by
  obtain ⟨place, found⟩ := Path.first_of_arrive arrived
  by_cases own : dev = arrival.dev
  · -- The next frame of the interface that the receiver is at.
    cases sends with
    | nil =>
      unfold Path.first at found
      rw [wire] at found
      cases found
    | cons send sends =>
      cases send with
      | data skb =>
        obtain rfl := Path.arrive_eq arrived (show path.wire = [] ++ _ from wire) (by simp) own
        have processed : Idle (path.info.processPkt param arrival.now arrival.dev skb).1 last ∧ _ =
            path.info.skbBufQ ++ [skb] :=
          idle.processPkt
        refine .settled dev last sends fresh rfl processed.1 ?_
        show path.forwarded ++ (path.info.processPkt param arrival.now arrival.dev skb).2 ++
          ((path.info.processPkt param arrival.now arrival.dev skb).1.skbBufQ ++
            dataOf (emit dev sends)) = sent
        rw [← all, List.append_assoc, ← List.append_assoc _ _ (dataOf _), processed.2,
          List.append_assoc]
        rfl
      | switch target mrkId =>
        obtain rfl := Path.arrive_eq arrived (show path.wire = [] ++ _ from wire) (by simp) own
        have processed : Ended (path.info.handlePkt3 arrival.now mrkId) mrkId ∧ _ =
            path.info.skbBufQ :=
          idle.handlePkt3 fresh.2.1
        refine .ended target mrkId sends fresh.2.2 rfl processed.1 ?_
        show path.forwarded ++ ((path.info.handlePkt3 arrival.now mrkId).skbBufQ ++ _) = sent
        rw [processed.2, ← all]
        rfl
  · -- The first frame of another one is a begin marker.
    rcases split_sends sends with ⟨old, rfl⟩ | ⟨old, target, mrkId, rest, rfl⟩
    · have nothing : path.wire = onDev dev old ++ [] := by
        rw [wire, ← List.append_nil (allData old), emit_append]
        rfl
      rw [Path.first_append nothing (onDev_other (Ne.symm own))] at found
      cases found
    · rw [emit_append] at wire all
      have isFresh : target ≠ dev ∧ mrkId ≠ last ∧ Fresh target mrkId rest := Fresh.of_append fresh
      have others : ∀ place ∈ onDev dev old ++ [(dev, Frame.endMarker mrkId)],
          place.1 ≠ arrival.dev :=
        List.forall_mem_append.mpr ⟨onDev_other (Ne.symm own), List.forall_mem_singleton.mpr own⟩
      by_cases here : target = arrival.dev
      · have isWire : path.wire =
            (onDev dev old ++ [(dev, .endMarker mrkId)]) ++ (target, .beginMarker mrkId) ::
                emit target rest := by
          rw [wire, List.append_assoc]
          rfl
        obtain rfl := Path.arrive_eq arrived isWire others here
        have empty := separate.of_begin (Path.first_eq isWire others here) rfl
        rw [Path.before_eq isWire others here, dataOf_append, dataOf_onDev] at empty
        have processed : Buffering (path.info.handlePkt4 arrival.now mrkId arrival.dev) mrkId
          arrival.dev ∧
            _ = path.info.skbBufQ := idle.handlePkt4 mrkId
        refine .begun dev target mrkId old rest isFresh.1 isFresh.2.2 ?_ (here ▸ processed.1) ?_
        · exact List.append_assoc _ _ _
        · show path.forwarded ++
            (old ++ ((path.info.handlePkt4 arrival.now mrkId arrival.dev).skbBufQ ++ _)) = sent
          rw [processed.2, ← all, dataOf_append, dataOf_onDev]
          rcases empty with noBuffer | noOld
          · rw [noBuffer]
            rfl
          · obtain rfl : old = [] := List.append_eq_nil_iff.mp noOld |>.1
            rfl
      · -- Behind the begin marker of the next switch it is not separate.
        have isWire : path.wire =
            (onDev dev old ++ [(dev, .endMarker mrkId)] ++ [(target, .beginMarker mrkId)]) ++
                emit target rest := by
          rw [wire, List.append_assoc, List.append_assoc]
          rfl
        have others' :
          ∀ place ∈ onDev dev old ++ [(dev, .endMarker mrkId)] ++
          [(target, Frame.beginMarker mrkId)],
            place.1 ≠ arrival.dev :=
          List.forall_mem_append.mpr ⟨others, List.forall_mem_singleton.mpr here⟩
        have found' := found
        rw [Path.first_append isWire others'] at found'
        obtain ⟨other, isBegin⟩ := first_is_begin (Ne.symm here) found'
        have overtakes := separate.not_begin found isBegin _
          (Path.mem_before isWire others' (List.mem_append_right _ (List.mem_singleton_self _)))
        simp at overtakes

theorem Stage.step_begun (isOther : target ≠ dev) (fresh : Fresh target last sends)
    (wire : path.wire = onDev dev old ++ (dev, .endMarker last) :: emit target sends)
    (buffering : Buffering path.info last target)
    (all : path.forwarded ++ (old ++ (path.info.skbBufQ ++ dataOf (emit target sends))) = sent)
    (arrived : path.arrive param arrival = some next) (timely : path.Timely param arrival)
    (separate : path.Separate arrival) : Stage sent next := by
  obtain ⟨place, found⟩ := Path.first_of_arrive arrived
  by_cases isOld : dev = arrival.dev
  · cases old with
    | nil =>
      obtain rfl := Path.arrive_eq arrived (show path.wire = [] ++ _ from wire) (by simp) isOld
      have processed : Idle (path.info.handlePkt3 arrival.now last) last ∧ _ = path.info.skbBufQ :=
        buffering.handlePkt3
      refine .settled target last sends fresh rfl processed.1 ?_
      show path.forwarded ++ ((path.info.handlePkt3 arrival.now last).skbBufQ ++ _) = sent
      rw [processed.2, ← all]
      rfl
    | cons skb old =>
      obtain rfl := Path.arrive_eq arrived (show path.wire = [] ++ _ from wire) (by simp) isOld
      have processed : Buffering (path.info.processPkt param arrival.now arrival.dev skb).1
        last target ∧
          _ = path.info.skbBufQ ∧ _ = [skb] := buffering.processPkt_old (isOld ▸ isOther)
      refine .begun dev target last old sends isOther fresh rfl processed.1 ?_
      show path.forwarded ++ (path.info.processPkt param arrival.now arrival.dev skb).2 ++
        (old ++ ((path.info.processPkt param arrival.now arrival.dev skb).1.skbBufQ ++
          dataOf (emit target sends))) = sent
      rw [processed.2.1, processed.2.2, ← all, List.append_assoc]
      rfl
  · have others : ∀ place ∈ onDev dev old ++ [(dev, Frame.endMarker last)], place.1 ≠ arrival.dev :=
      List.forall_mem_append.mpr ⟨onDev_other (Ne.symm isOld), List.forall_mem_singleton.mpr isOld⟩
    have isWire : path.wire = (onDev dev old ++ [(dev, .endMarker last)]) ++ emit target sends := by
      rw [wire, List.append_assoc]
      rfl
    have endBefore : (dev, Frame.endMarker last) ∈ path.before arrival.dev :=
      Path.mem_before isWire others (List.mem_append_right _ (List.mem_singleton_self _))
    by_cases here : target = arrival.dev
    · cases sends with
      | nil =>
        rw [Path.first_append isWire others] at found
        cases found
      | cons send sends =>
        cases send with
        | data skb =>
          obtain rfl := Path.arrive_eq arrived isWire others here
          have isNew : Buffering path.info last arrival.dev := here ▸ buffering
          obtain ⟨inTime, room, heard⟩ := timely isNew.msbRcv isNew.bufDevIdx
          have processed :
            Buffering (path.info.processPkt param arrival.now arrival.dev skb).1 last arrival.dev ∧
              _ = path.info.skbBufQ ++ [skb] ∧ _ = [] := isNew.processPkt_new inTime room heard
          refine .begun dev target last old sends isOther fresh (List.append_assoc _ _ _)
            (here.symm ▸ processed.1) ?_
          show path.forwarded ++ (path.info.processPkt param arrival.now arrival.dev skb).2 ++
            (old ++ ((path.info.processPkt param arrival.now arrival.dev skb).1.skbBufQ ++
              dataOf (emit target sends))) = sent
          rw [processed.2.1, processed.2.2, ← all, List.append_nil, List.append_assoc _ [skb]]
          rfl
        | switch target' mrkId =>
          have overtakes := separate.not_end (Path.first_eq isWire others here) rfl _ endBefore
          simp at overtakes
    · -- The next switch has a new id, and the end marker of this one is still on its way.
      rcases split_sends sends with ⟨new, rfl⟩ | ⟨new, target', mrkId, rest, rfl⟩
      · rw [Path.first_append isWire others, ← List.append_nil (allData new), emit_append,
          find_append (onDev_other (Ne.symm here))] at found
        cases found
      · have isFresh : target' ≠ target ∧ mrkId ≠ last ∧ Fresh target' mrkId rest :=
          Fresh.of_append fresh
        have found' := found
        rw [Path.first_append isWire others] at found'
        obtain ⟨other, isBegin⟩ := first_is_begin (Ne.symm here) found'
        have overtakes := separate.not_begin found isBegin
        have isLast := overtakes _ endBefore
        have isWire' : path.wire =
            (onDev dev old ++ [(dev, .endMarker last)] ++
              (onDev target new ++ [(target, .endMarker mrkId)])) ++
              (target', .beginMarker mrkId) :: emit target' rest := by
          rw [isWire, emit_append, List.append_assoc _ (onDev target new ++ _),
            List.append_assoc (onDev target new)]
          rfl
        have others' : ∀ place ∈ onDev dev old ++ [(dev, .endMarker last)] ++
            (onDev target new ++ [(target, Frame.endMarker mrkId)]), place.1 ≠ arrival.dev :=
          List.forall_mem_append.mpr ⟨others,
            List.forall_mem_append.mpr ⟨onDev_other (Ne.symm here),
              List.forall_mem_singleton.mpr here⟩⟩
        have isNext := overtakes (target, .endMarker mrkId)
          (Path.mem_before isWire' others' (by simp))
        simp at isLast isNext
        exact (isFresh.2.1 (isNext.trans isLast.symm)).elim

theorem Stage.step_ended (fresh : Fresh target last sends)
    (wire : path.wire = (target, .beginMarker last) :: emit target sends)
    (ended : Ended path.info last)
    (all : path.forwarded ++ (path.info.skbBufQ ++ dataOf (emit target sends)) = sent)
    (arrived : path.arrive param arrival = some next) (separate : path.Separate arrival) :
        Stage sent next := by
  obtain ⟨place, found⟩ := Path.first_of_arrive arrived
  by_cases here : target = arrival.dev
  · obtain rfl := Path.arrive_eq arrived (show path.wire = [] ++ _ from wire) (by simp) here
    have processed : Idle (path.info.handlePkt4 arrival.now last arrival.dev) last ∧ _ =
      path.info.skbBufQ := ended.handlePkt4
    refine .settled target last sends fresh rfl processed.1 ?_
    show path.forwarded ++ ((path.info.handlePkt4 arrival.now last arrival.dev).skbBufQ ++ _) = sent
    rw [processed.2, all]
  · have isWire : path.wire = [(target, .beginMarker last)] ++ emit target sends := wire
    have others : ∀ place ∈ [(target, (Frame.beginMarker last : Frame Packet))],
        place.1 ≠ arrival.dev :=
      List.forall_mem_singleton.mpr here
    have found' := found
    rw [Path.first_append isWire others] at found'
    obtain ⟨other, isBegin⟩ := first_is_begin (Ne.symm here) found'
    have overtakes :=
      separate.not_begin found isBegin _ (Path.mem_before isWire others (List.mem_singleton_self _))
    simp at overtakes

/-- What an arrival keeps. -/
theorem Stage.step (stage : Stage sent path) (arrived : path.arrive param arrival = some next)
    (timely : path.Timely param arrival) (separate : path.Separate arrival) : Stage sent next := by
  cases stage with
  | settled dev last sends fresh wire idle all =>
    exact Stage.step_settled fresh wire idle all arrived separate
  | begun dev target last old sends isOther fresh wire buffering all =>
    exact Stage.step_begun isOther fresh wire buffering all arrived timely separate
  | ended target last sends fresh wire ended all =>
    exact Stage.step_ended fresh wire ended all arrived separate

theorem Stage.run {arrivals : List (Arrival Iface)} (stage : Stage sent path)
    (ran : path.run param arrivals = some next)
        (timely : path.Along param (Path.Timely param) arrivals)
        (separate : path.Along param Path.Separate arrivals) :
    Stage sent next := by
  induction arrivals generalizing path with
  | nil =>
    obtain rfl := Option.some.inj ran
    exact stage
  | cons arrival arrivals ih =>
    obtain ⟨after, arrived, rest⟩ := Option.bind_eq_some_iff.mp ran
    exact ih (stage.step arrived timely.1 separate.1) rest (timely.2 after arrived)
      (separate.2 after arrived)

/-- **In every run without a timeout in which switches stay separate** the data is forwarded in
order, none of it lost or twice, and `buf_pkt` is the length of the buffer. -/
theorem in_order_of_separate {arrivals : List (Arrival Iface)} (fresh : Fresh dev 0xFFFF sends)
    (ran : (Path.start dev sends).run param arrivals = some path)
    (timely : (Path.start dev sends).Along param (Path.Timely param) arrivals)
    (separate : (Path.start dev sends).Along param Path.Separate arrivals) :
    path.InOrder (dataOf (emit dev sends)) := by
  have idle : Idle (FlowInfo.init : FlowInfo Iface Packet) 0xFFFF :=
    ⟨⟨rfl, Int.negSucc_lt_zero 0, rfl, rfl, rfl⟩, rfl, rfl⟩
  have settled : Stage (dataOf (emit dev sends)) (Path.start dev sends) :=
    .settled dev 0xFFFF sends fresh rfl idle rfl
  exact (settled.run ran timely separate).inOrder

theorem Path.Along.cons {meets : Path Iface Packet → Arrival Iface → Prop}
    {arrivals : List (Arrival Iface)} (met : meets path arrival)
    (arrived : path.arrive param arrival = some next) (rest : next.Along param meets arrivals) :
    path.Along param meets (arrival :: arrivals) := by
  refine ⟨met, fun other isOther => ?_⟩
  obtain rfl := Option.some.inj (arrived.symm.trans isOther)
  exact rest

/-- A switch whose begin marker comes first: the packet behind it waits for the end marker. -/
theorem in_order_after_switch :
    ∃ path : Path Bool Nat,
      (Path.start false [.data 1, .switch true 7, .data 2]).run ⟨10, 10⟩
        [⟨false, 0⟩, ⟨true, 1⟩, ⟨true, 2⟩, ⟨false, 3⟩] = some path ∧
      path.forwarded = [1] ∧ path.info.skbBufQ = [2] ∧ path.InOrder [1, 2] := by
  refine ⟨_, rfl, rfl, rfl, ?_⟩
  refine @in_order_of_separate Bool Nat _ _ false [.data 1, .switch true 7, .data 2] _ ⟨10, 10⟩
    [⟨false, 0⟩, ⟨true, 1⟩, ⟨true, 2⟩, ⟨false, 3⟩] ⟨by decide, by decide, trivial⟩ rfl ?_ ?_
  · exact .cons (by decide) rfl
      (.cons (by decide) rfl (.cons (by decide) rfl (.cons (by decide) rfl trivial)))
  · refine .cons trivial rfl (.cons ?_ rfl (.cons trivial rfl (.cons ?_ rfl trivial)))
    · simp [Path.Separate, Path.first, Path.before, Path.start, emit, Path.receive,
        FlowInfo.processPkt, FlowInfo.init,
        FlowInfo.passOn]
    · simp [Path.Separate, Path.first, Path.before, Path.start, emit, Path.receive]

/-- **A packet overtakes the buffer of an earlier switch.** It comes to the first interface after
both switches, and on time; but the packets that wait on the second one have been sent before. -/
theorem overtaken_after_switch :
    ∃ (sends : List (Send Bool Nat)) (arrivals : List (Arrival Bool)) (path : Path Bool Nat),
      Fresh false 0xFFFF sends ∧
      (Path.start false sends).run ⟨10, 10⟩ arrivals = some path ∧
      (Path.start false sends).Along ⟨10, 10⟩ (Path.Timely ⟨10, 10⟩) arrivals ∧
      ¬ path.InOrder (dataOf (emit false sends)) := by
  refine ⟨[.switch true 1, .data 1, .data 2, .switch false 2],
    [⟨true, 0⟩, ⟨true, 1⟩, ⟨false, 2⟩, ⟨false, 3⟩, ⟨true, 4⟩],
    _, ⟨by decide, by decide, by decide, by decide, trivial⟩, rfl, ?_, ?_⟩
  · exact .cons (by decide) rfl (.cons (by decide) rfl (.cons (by decide) rfl (.cons (by decide) rfl
      (.cons (by decide) rfl trivial))))
  · intro inOrder
    have overtaken : [2] <+: [1, 2] := inOrder.order
    revert overtaken
    decide

end Qsdk.PathSwitch
