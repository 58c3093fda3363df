/-
**Management Rx reorder: the data and the lock-free functions.**

The reorder module of the Wi-Fi host driver (`wlan_mgmt_txrx_rx_reo.c`) receives the management
frames of several MLO links, each link in order, and delivers them in the order of a timestamp that
all links share. A frame waits until the frames it may have to wait for, counted link by link, have
been seen.

This module holds the structures and the functions that take no lock: the comparisons of counters
and timestamps, the wait-count estimate of one link (`framesPending`), the minimum of two wait
counts (`updateWaitCount`), and what the functions under `list_lock` compute
(`updateList`, `releaseFirst`, `ageout`). The buffer type `Buf` is a parameter: the module never
looks into a frame.

`qdf_assert_always` stops the driver; a function that asserts returns `none`, or the stop
`Stop.assertion`.
-/

import Qsdk.Lib.Serial
import Qsdk.Lib.Prog
import Mathlib.Logic.Function.Basic
import Mathlib.Algebra.BigOperators.Fin

namespace Qsdk.MgmtRxReo

/-! ### Links, counters and timestamps -/

/-- `MGMT_RX_REO_MAX_LINKS`. -/
abbrev maxLinks : Nat := 4

instance maxLinks_neZero : NeZero maxLinks := ⟨by decide⟩

/-- An MLO link id; the pdev of a link is named by it. -/
abbrev Link := Fin maxLinks

/-- The links below `num_mlo_links`, in the order in which the loops visit them. -/
def mloLinks (numMloLinks : Nat) : List Link :=
  (List.finRange maxLinks).filter fun link => link.val < numMloLinks

/-- `mgmt_rx_reo_subtract_pkt_ctrs`. -/
def subtractPktCtrs (ctr1 ctr2 : BitVec 16) : Int := Serial.diff ctr1 ctr2

/-- `mgmt_rx_reo_compare_global_timestamps_gte`. -/
def compareGlobalTimestampsGte (ts1 ts2 : BitVec 32) : Bool := Serial.gte ts1 ts2

/-- `struct mgmt_rx_reo_global_ts_info`. -/
structure GlobalTsInfo where
  valid : Bool
  globalTs : BitVec 32
  deriving DecidableEq

/-- `mgmt_rx_reo_is_stale_frame`. -/
def isStaleFrame (tsLastReleasedFrame : GlobalTsInfo) (globalTimestamp : BitVec 32) : Bool :=
  tsLastReleasedFrame.valid &&
    !compareGlobalTimestampsGte globalTimestamp tsLastReleasedFrame.globalTs

/-- The codes of `QDF_STATUS` that the module returns. -/
inductive QdfStatus where
  | success | eNullValue | eFailure | eNomem | eInval
  deriving DecidableEq, Repr

/-- Why a function of the module does not return normally. -/
inductive Stop where
  /-- A `qdf_assert_always` failed: the driver stops. -/
  | assertion
  /-- The function returns an error status. -/
  | status (status : QdfStatus)
  deriving DecidableEq, Repr

/-- `enum mgmt_rx_reo_shared_snapshot_id`, in the order in which they are read. -/
inductive SnapshotId where
  | macHw | fwConsumed | fwForwarded
  deriving DecidableEq, Repr

/-- `struct mgmt_rx_reo_snapshot_params`. -/
structure SnapshotParams where
  valid : Bool
  mgmtPktCtr : BitVec 16
  globalTimestamp : BitVec 32
  deriving DecidableEq

/-- `struct mgmt_rx_reo_params`. -/
structure ReoParams where
  valid : Bool
  linkId : Link
  mgmtPktCtr : BitVec 16
  globalTimestamp : BitVec 32
  deriving DecidableEq

/-! ### Wait counts -/

/-- `struct mgmt_rx_reo_wait_count`. -/
structure WaitCount where
  perLinkCount : Link → BitVec 32
  totalCount : BitVec 64

/-- The wait count of a descriptor that was initialised with `{0}`. -/
def WaitCount.zero : WaitCount := ⟨fun _ => 0, 0⟩

/-- `update_pending_frames`: a link's count is set, and added to the total. -/
def WaitCount.record (count : WaitCount) (link : Link) (framesPending : Int) : WaitCount where
  perLinkCount := Function.update count.perLinkCount link (BitVec.ofInt 32 framesPending)
  totalCount := count.totalCount + BitVec.ofInt 64 framesPending

/-- Without a MAC HW snapshot the worst is assumed: a wait for `UINT_MAX` frames. -/
def WaitCount.recordUintMax (count : WaitCount) (link : Link) : WaitCount where
  perLinkCount := Function.update count.perLinkCount link 0xFFFFFFFF
  totalCount := count.totalCount + 0xFFFFFFFF

/-- `qdf_min` on unsigned counts. -/
def qdfMin (first second : BitVec 32) : BitVec 32 := if first < second then first else second

/-- The body of the loop of `mgmt_rx_reo_update_wait_count`. -/
def updateWaitCountLink (newFrame oldFrame : WaitCount) (link : Link) : WaitCount :=
  if oldFrame.perLinkCount link ≠ 0 then
    let lowered := qdfMin (oldFrame.perLinkCount link) (newFrame.perLinkCount link)
    let waitCountDiff := oldFrame.perLinkCount link - lowered
    { perLinkCount := Function.update oldFrame.perLinkCount link lowered
      totalCount := oldFrame.totalCount - waitCountDiff.setWidth 64 }
  else oldFrame

/-- `mgmt_rx_reo_update_wait_count`: per link, the old frame's count is lowered to the new
frame's. -/
def updateWaitCount (numMloLinks : Nat) (oldFrame newFrame : WaitCount) : WaitCount :=
  (mloLinks numMloLinks).foldl (updateWaitCountLink newFrame) oldFrame

/-- A frame of `link` has arrived: one frame less to wait for on that link. -/
def WaitCount.decrement (count : WaitCount) (link : Link) : WaitCount :=
  if count.perLinkCount link ≠ 0 then
    { perLinkCount := Function.update count.perLinkCount link (count.perLinkCount link - 1)
      totalCount := count.totalCount - 1 }
  else count

/-- `qdf_assert_always`. -/
def assertAlways (condition : Bool) : Option Unit := if condition then some () else none

/-- The frames pending before the last frame consumed by FW, when that frame is not older than the
incoming one; `pending` is the estimate without it. -/
def pendingBeforeConsumed (inFrameTs : BitVec 32)
    (hostSs fwConsumedSs fwForwardedSs : SnapshotParams) (pending : Int) : Option Int :=
  if fwConsumedSs.valid && compareGlobalTimestampsGte fwConsumedSs.globalTimestamp inFrameTs then do
    let beforeConsumed := subtractPktCtrs fwConsumedSs.mgmtPktCtr hostSs.mgmtPktCtr - 1
    assertAlways (0 ≤ beforeConsumed)
    if fwForwardedSs.valid &&
        !compareGlobalTimestampsGte fwForwardedSs.globalTimestamp inFrameTs then
      -- the frames after the last forwarded one have been consumed by FW
      let upToForwarded := subtractPktCtrs fwForwardedSs.mgmtPktCtr hostSs.mgmtPktCtr
      pure (if upToForwarded < 0 then 0 else upToForwarded)
    else pure beforeConsumed
  else pure pending

/-- The frames pending before the last frame forwarded by FW, when that frame is not older than the
incoming one. -/
def pendingBeforeForwarded (inFrameTs : BitVec 32) (hostSs fwForwardedSs : SnapshotParams)
    (pending : Int) : Option Int :=
  if fwForwardedSs.valid && compareGlobalTimestampsGte fwForwardedSs.globalTimestamp
      inFrameTs then do
    let deltaFwdHost := subtractPktCtrs fwForwardedSs.mgmtPktCtr hostSs.mgmtPktCtr - 1
    assertAlways (0 ≤ deltaFwdHost)
    assertAlways (0 ≤ min pending deltaFwdHost)
    pure (min pending deltaFwdHost)
  else pure pending

/-- The estimate in `wlan_mgmt_rx_reo_algo_calculate_wait_count` of the frames of one link that a
frame with timestamp `inFrameTs` has to wait for, from the host snapshot of the link and the three
shared snapshots, the MAC HW one being valid. -/
def framesPending (inFrameTs : BitVec 32)
    (hostSs macHwSs fwConsumedSs fwForwardedSs : SnapshotParams) :
    Option Int := do
  let seenByHw := subtractPktCtrs macHwSs.mgmtPktCtr hostSs.mgmtPktCtr
  assertAlways (0 ≤ seenByHw)
  if compareGlobalTimestampsGte macHwSs.globalTimestamp inFrameTs then
    -- the last frame seen by MAC HW need not be waited for
    assertAlways (0 ≤ seenByHw - 1)
    let pending ← pendingBeforeConsumed inFrameTs hostSs fwConsumedSs fwForwardedSs (seenByHw - 1)
    pendingBeforeForwarded inFrameTs hostSs fwForwardedSs pending
  else pure seenByHw

/-! ### Frames and list entries -/

/-- `enum mgmt_rx_reo_frame_descriptor_type`. -/
inductive FrameType where
  | hostConsumed | fwConsumed | error
  deriving DecidableEq, Repr

/-- `struct mgmt_rx_reo_frame_descriptor`. -/
structure FrameDescriptor (Buf : Type) where
  type : FrameType
  nbuf : Buf
  params : ReoParams
  waitCount : WaitCount
  isStale : Bool
  zeroWaitCountRx : Bool
  immediateDelivery : Bool
  listSizeRx : BitVec 16
  listInsertionPos : BitVec 16

/-- The descriptor that the frame handlers fill in before they enter the algorithm. -/
def FrameDescriptor.fresh {Buf : Type} (type : FrameType) (nbuf : Buf) (params : ReoParams) :
    FrameDescriptor Buf where
  type := type
  nbuf := nbuf
  params := params
  waitCount := .zero
  isStale := false
  zeroWaitCountRx := false
  immediateDelivery := false
  listSizeRx := -1
  listInsertionPos := -1

/-- The bits of `status` in `struct mgmt_rx_reo_list_entry`. -/
structure EntryStatus where
  waitForFrameOnOtherLinks : Bool
  agedOut : Bool
  olderThanLatestAgedOutFrame : Bool
  listMaxSizeExceeded : Bool
  deriving DecidableEq

/-- `struct mgmt_rx_reo_list_entry`; `address` is where it was allocated. -/
structure ListEntry (Buf : Type) where
  address : Nat
  nbuf : Buf
  params : ReoParams
  pdev : Link
  waitCount : WaitCount
  insertionTs : BitVec 64
  status : EntryStatus

/-- `struct mgmt_rx_reo_list`. -/
structure ReoList (Buf : Type) where
  list : List (ListEntry Buf)
  maxListSize : BitVec 32
  listEntryTimeoutUs : BitVec 32
  tsLastReleasedFrame : GlobalTsInfo

/-- `mgmt_rx_reo_list_init`. -/
def ReoList.init {Buf : Type} : ReoList Buf where
  list := []
  maxListSize := 100
  listEntryTimeoutUs := 1000000
  tsLastReleasedFrame := ⟨false, 0⟩

/-- `mgmt_rx_reo_list_max_size_exceeded`. -/
def ReoList.maxSizeExceeded {Buf : Type} (reoList : ReoList Buf) : Bool :=
  decide (reoList.maxListSize.toNat < reoList.list.length)

/-- The release reasons, bit by bit. -/
structure ReleaseReason where
  zeroWaitCount : Bool
  agedOut : Bool
  olderThanAgedOutFrame : Bool
  listMaxSizeExceeded : Bool
  deriving DecidableEq

/-- `mgmt_rx_reo_list_entry_get_release_reason`. -/
def getReleaseReason (status : EntryStatus) : ReleaseReason where
  zeroWaitCount := !status.waitForFrameOnOtherLinks
  agedOut := status.agedOut
  olderThanAgedOutFrame := status.olderThanLatestAgedOutFrame
  listMaxSizeExceeded := status.listMaxSizeExceeded

/-- No bit of the release reason is set. -/
def ReleaseReason.isZero (reason : ReleaseReason) : Bool :=
  !(reason.zeroWaitCount || reason.agedOut || reason.olderThanAgedOutFrame ||
    reason.listMaxSizeExceeded)

section List

variable {Buf : Type}

/-- The waiting bit follows the total wait count: it is cleared when the total is zero. -/
def ListEntry.clearIfZero (entry : ListEntry Buf) : ListEntry Buf :=
  if entry.waitCount.totalCount = 0 then
    { entry with status := { entry.status with waitForFrameOnOtherLinks := false } }
  else entry

/-- An entry not newer than the frame takes over the frame's smaller counts. -/
def ListEntry.lower (numMloLinks : Nat) (count : WaitCount) (entry : ListEntry Buf) :
    ListEntry Buf :=
  { entry with waitCount := updateWaitCount numMloLinks entry.waitCount count }.clearIfZero

/-- An entry newer than a frame of `link` has one frame less to wait for. -/
def ListEntry.arrival (link : Link) (entry : ListEntry Buf) : ListEntry Buf :=
  if entry.waitCount.perLinkCount link ≠ 0 then
    { entry with waitCount := entry.waitCount.decrement link }.clearIfZero
  else entry

/-- The first loop of `mgmt_rx_reo_update_list`: the entries before the least greater entry, with
their counts lowered, and the entries from the least greater one on. -/
def splitAtLeastGreater (numMloLinks : Nat) (desc : FrameDescriptor Buf) :
    List (ListEntry Buf) → List (ListEntry Buf) × List (ListEntry Buf)
  | [] => ([], [])
  | cur :: rest =>
    if !compareGlobalTimestampsGte desc.params.globalTimestamp cur.params.globalTimestamp then
      ([], cur :: rest)
    else
      let (older, newer) := splitAtLeastGreater numMloLinks desc rest
      (cur.lower numMloLinks desc.waitCount :: older, newer)

/-- The new entry takes over the smaller counts of the least greater entry. -/
def ListEntry.lowerToLeastGreater (numMloLinks : Nat) (newEntry : ListEntry Buf) :
    List (ListEntry Buf) → ListEntry Buf
  | [] => newEntry
  | leastGreater :: _ => newEntry.lower numMloLinks leastGreater.waitCount

/-- The part of `mgmt_rx_reo_update_list` under `list_lock`. `newEntry` is the entry that was
prepared for a host-consumed frame. A stale frame updates the counts and is not queued. The list
operations and, in the production build, `mgmt_rx_reo_handle_stale_frame` cannot fail. -/
def updateList (numMloLinks : Nat) (reoList : ReoList Buf) (desc : FrameDescriptor Buf)
    (newEntry : Option (ListEntry Buf)) (now : BitVec 64) :
    ReoList Buf × FrameDescriptor Buf × Bool :=
  let (older, newer) := splitAtLeastGreater numMloLinks desc reoList.list
  let isStale := isStaleFrame reoList.tsLastReleasedFrame desc.params.globalTimestamp
  let desc := { desc with
    listSizeRx := BitVec.ofNat 16 reoList.list.length
    isStale := isStale }
  let decremented := newer.map (ListEntry.arrival desc.params.linkId)
  match newEntry, isStale with
  | some newEntry, false =>
    let queued := { newEntry.lowerToLeastGreater numMloLinks newer with insertionTs := now }
    let zeroWait := desc.zeroWaitCountRx || decide (queued.waitCount.totalCount = 0)
    ({ reoList with list := older ++ queued :: decremented },
     { desc with
       waitCount := queued.waitCount
       listInsertionPos := BitVec.ofNat 16 older.length
       zeroWaitCountRx := zeroWait
       immediateDelivery := desc.immediateDelivery || (zeroWait && older.isEmpty) },
     true)
  | _, _ => ({ reoList with list := older ++ decremented }, desc, false)

/-- `mgmt_rx_reo_list_is_ready_to_send_up_entry`. -/
def ReoList.isReadyToSendUp (reoList : ReoList Buf) (entry : ListEntry Buf) : Bool :=
  reoList.maxSizeExceeded || !entry.status.waitForFrameOnOtherLinks || entry.status.agedOut ||
    entry.status.olderThanLatestAgedOutFrame

/-- An entry that leaves a list above its maximum size is marked. -/
def ReoList.markMaxSize (reoList : ReoList Buf) (entry : ListEntry Buf) : ListEntry Buf :=
  if reoList.maxSizeExceeded then
    { entry with status := { entry.status with listMaxSizeExceeded := true } }
  else entry

/-- One round of the loop of `mgmt_rx_reo_list_release_entries` under `list_lock`: the first entry
is taken off the list if it may be sent up. The assertion is the one that "should never happen". -/
def releaseFirst (reoList : ReoList Buf) : Option (ReoList Buf × Option (ListEntry Buf)) :=
  match reoList.list with
  | [] => some (reoList, none)
  | first :: rest =>
    if !reoList.isReadyToSendUp first then some (reoList, none)
    else
      let last := reoList.tsLastReleasedFrame
      if !last.valid ||
          compareGlobalTimestampsGte first.params.globalTimestamp last.globalTs then
        some ({ reoList with
          list := rest
          tsLastReleasedFrame := ⟨true, first.params.globalTimestamp⟩ },
          some (reoList.markMaxSize first))
      else none

/-- The first loop of `mgmt_rx_reo_list_ageout_timer_handler` on one entry. -/
def ListEntry.expired (timeoutUs : BitVec 32) (now : BitVec 64) (entry : ListEntry Buf) : Bool :=
  decide (timeoutUs.setWidth 64 ≤ now - entry.insertionTs)

/-- The entries of the list after both loops of the ageout timer handler: an expired entry is
aged out, and every entry before the last expired one is older than it. -/
def ageoutEntries (timeoutUs : BitVec 32) (now : BitVec 64) :
    List (ListEntry Buf) → List (ListEntry Buf)
  | [] => []
  | cur :: rest =>
    { cur with status := { cur.status with
        agedOut := cur.status.agedOut || cur.expired timeoutUs now
        olderThanLatestAgedOutFrame := cur.status.olderThanLatestAgedOutFrame ||
          rest.any (·.expired timeoutUs now) } } :: ageoutEntries timeoutUs now rest

/-- `mgmt_rx_reo_list_ageout_timer_handler` under `list_lock`. -/
def ageout (reoList : ReoList Buf) (now : BitVec 64) : ReoList Buf :=
  { reoList with list := ageoutEntries reoList.listEntryTimeoutUs now reoList.list }

end List

end Qsdk.MgmtRxReo
