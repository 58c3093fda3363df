/-
**The receiver of a HyFi aggregated flow.**

The packets of a flow carry a sequence number of 14 bits and come over up to three interfaces. The
receiver hands the packet with the expected number to the bridge and queues later ones, one queue
for each interface; a queue keeps the number of its head in a field of its own. After a gap it goes
on with the closest number that is queued.

Every call of `hyfi_aggr_process_pkt` runs under `aggr_lock`. Whether the time stamp is too old is
decided by the clock, so it is an argument here. `hyfi_br_forward` and `kfree_skb` are recorded in
what a call returns. The destination `-1` is `false`, every other one is `true`.
-/

import Mathlib.Data.Fin.Basic
import Mathlib.Data.List.FinRange
import Mathlib.Algebra.Group.Nat.Defs

namespace Qsdk.Hyfi

/-- A packet, by the number that the sender gave it before it was cut to 14 bits, with the interface
that it came over. -/
structure Packet where
  index : Nat
  ifindex : Nat
deriving DecidableEq

/-- `struct hyfi_aggr_skb_buffer`. -/
structure SkbBuffer where
  pktSeq : Nat
  skb : Packet
deriving DecidableEq

/-- `struct hyfi_aggr_rx_info`. -/
structure RxInfo where
  ifindex : Nat
  seqValid : Bool
  seq : Nat
  skbAggrQ : List SkbBuffer
  pktCnt : Nat
deriving DecidableEq

/-- `struct hyfi_aggr_rx_entry`, with `HYFI_AGGR_MAX_IFACES` queues. -/
structure RxEntry where
  nextSeqValid : Bool
  aggrNextSeq : Nat
  numIfs : Nat
  hyfiIfaceInfo : Fin 3 → RxInfo

/-- `seq & 0x3FFF`. -/
def seqOf (seq : Nat) : Nat := seq % 2 ^ 14

/-- `HYFI_AGGR_REORD_FLUSH_QUOTA`. -/
def reordFlushQuota : Nat := 2

/-- `HYFI_AGGR_MAX_QUEUE_LEN`. -/
def maxQueueLen : Nat := 3000

/-- The queues that the loops over the first `num_ifs` queues visit. -/
def RxEntry.ifaces (entry : RxEntry) : List (Fin 3) := (List.finRange 3).filter fun i =>
    i.val < entry.numIfs

def RxEntry.setInfo (entry : RxEntry) (i : Fin 3) (info : RxInfo) : RxEntry :=
  { entry with hyfiIfaceInfo := Function.update entry.hyfiIfaceInfo i info }

/-! ### Dequeuing -/

/-- Where `hyfi_aggr_dequeue_pkts` has got to. -/
structure Dequeue where
  entry : RxEntry
  quota : Nat
  forwarded : List Packet

/-- What is left of a queue when its head is taken. -/
def RxInfo.pop (info : RxInfo) (rest : List SkbBuffer) : RxInfo :=
  match rest with
  | next :: _ => { info with skbAggrQ := rest, pktCnt := info.pktCnt - 1, seq := next.pktSeq }
  | [] => { info with skbAggrQ := [], pktCnt := 0, seqValid := false, ifindex := 0 }

/-- Some queue has a packet. -/
def RxEntry.morePackets (entry : RxEntry) : Bool :=
  entry.ifaces.any fun j => (entry.hyfiIfaceInfo j).pktCnt ≠ 0 && (entry.hyfiIfaceInfo j).seqValid

/-- The loop over the queues: what it leaves, the destination and the packet if it returns, and
whether it found a packet. -/
def dequeuePass (work : Dequeue) (found : Bool) : List (Fin 3) →
    Dequeue × Option (Bool × Option Packet) × Bool
  | [] => (work, none, found)
  | i :: more =>
    let info := work.entry.hyfiIfaceInfo i
    if info.pktCnt ≠ 0 ∧ info.seqValid = true ∧ info.seq = work.entry.aggrNextSeq then
      match info.skbAggrQ with
      | [] =>
        ({ work with entry :=
          work.entry.setInfo i { info with pktCnt := 0, seqValid := false, ifindex := 0 } },
          some (false, none), true)
      | buffer :: rest =>
        let entry := { work.entry.setInfo i (info.pop rest) with
          aggrNextSeq := seqOf (work.entry.aggrNextSeq + 1) }
        let quota := work.quota - 1
        if quota = 0 ∨ entry.morePackets = false then
          (⟨entry, quota, work.forwarded⟩, some (true, some buffer.skb), true)
        else dequeuePass ⟨entry, quota, work.forwarded ++ [buffer.skb]⟩ true more
    else dequeuePass work found more

/-- `hyfi_aggr_dequeue_pkts`, that loops as long as a pass finds a packet. A pass that does and does
not return uses up some of the quota, so it bounds the passes. -/
def dequeueLoop : Nat → Dequeue → Dequeue × Bool × Option Packet
  | 0, work => (work, false, none)
  | passes + 1, work =>
    match dequeuePass work false work.entry.ifaces with
    | (after, some (dst, skb), _) => (after, dst, skb)
    | (after, none, true) => dequeueLoop passes after
    | (after, none, false) => (after, false, none)

def RxEntry.dequeuePkts (entry : RxEntry) : Dequeue × Bool × Option Packet :=
  dequeueLoop reordFlushQuota ⟨entry, reordFlushQuota, []⟩

/-! ### Recovery after a gap -/

/-- The test of `hyfi_aggr_reset_queues` for a number before the expected one. -/
def expired (nextSeq pktSeq : Nat) : Bool :=
  (nextSeq > pktSeq && nextSeq - pktSeq < 2 ^ 13) || (pktSeq > nextSeq && pktSeq - nextSeq > 2 ^ 13)

/-- `hyfi_aggr_reset_queues` on one queue. The number of the head that the queue keeps is left as it
is. -/
def RxInfo.reset (info : RxInfo) (nextSeq : Nat) : RxInfo :=
  let kept := info.skbAggrQ.dropWhile fun buffer => expired nextSeq buffer.pktSeq
  let count := if kept = [] then 0 else info.pktCnt - (info.skbAggrQ.length - kept.length)
  { info with
    skbAggrQ := kept, pktCnt := count, seqValid := if count = 0 then false else info.seqValid }

/-- The packets that `hyfi_aggr_reset_queues` frees. -/
def RxEntry.expiredPkts (entry : RxEntry) : List Packet :=
  entry.ifaces.flatMap fun i => ((entry.hyfiIfaceInfo i).skbAggrQ.takeWhile fun buffer =>
    expired entry.aggrNextSeq buffer.pktSeq).map SkbBuffer.skb

/-- `hyfi_aggr_reset_queues`. -/
def RxEntry.resetQueues (entry : RxEntry) : RxEntry :=
  { entry with hyfiIfaceInfo := fun i =>
      if i.val < entry.numIfs then (entry.hyfiIfaceInfo i).reset entry.aggrNextSeq else
        entry.hyfiIfaceInfo i }

/-- One queue of `hyfi_aggr_find_next_seq`: the smallest distance so far and its number. -/
def RxEntry.closer (entry : RxEntry) (best : Nat × Option Nat) (i : Fin 3) : Nat × Option Nat :=
  let info := entry.hyfiIfaceInfo i
  if info.seqValid then
    let qSeq := if entry.aggrNextSeq > info.seq then info.seq + 2 ^ 14 else info.seq
    if qSeq - entry.aggrNextSeq ≤ best.1 then (qSeq - entry.aggrNextSeq, some info.seq) else best
  else best

/-- `hyfi_aggr_find_next_seq`. The value `~0` of no number is none. -/
def RxEntry.findNextSeq (entry : RxEntry) : Option Nat :=
  (entry.ifaces.foldl entry.closer (2 ^ 16 - 1, none)).2

/-- `hyfi_aggr_timeout`: the time is up, or every queue has a packet. -/
def RxEntry.timeout (entry : RxEntry) (timeUp : Bool) : Bool :=
  timeUp || decide (entry.numIfs ≤ entry.ifaces.countP fun i => (entry.hyfiIfaceInfo i).seqValid)

/-- The queues are reset, and the closest number is the next one. The second component says whether
there is one. -/
def RxEntry.recover (entry : RxEntry) : RxEntry × Bool :=
  match entry.resetQueues.findNextSeq with
  | some nextSeq => ({ entry.resetQueues with aggrNextSeq := nextSeq }, true)
  | none => ({ entry.resetQueues with nextSeqValid := false }, false)

/-! ### Queuing -/

/-- The queue of the interface, or else a free one. -/
def RxEntry.findQueue (entry : RxEntry) (ifindex : Nat) : Option (Fin 3) :=
  (entry.ifaces.find? fun i => (entry.hyfiIfaceInfo i).ifindex = ifindex).or
    (entry.ifaces.find? fun i => (entry.hyfiIfaceInfo i).ifindex = 0)

/-- The queue with its interface, when it was free. The field has 16 bits. -/
def RxInfo.assign (info : RxInfo) (ifindex : Nat) : RxInfo :=
  if info.ifindex = ifindex then info
  else { info with ifindex := ifindex % 2 ^ 16, pktCnt := 0, seqValid := false }

/-- A packet is queued at the tail. -/
def RxInfo.push (info : RxInfo) (buffer : SkbBuffer) : RxInfo :=
  { info with
    skbAggrQ := info.skbAggrQ ++ [buffer]
    pktCnt := info.pktCnt + 1
    seq := if info.pktCnt + 1 = 1 then buffer.pktSeq else info.seq
    seqValid := if info.pktCnt + 1 = 1 then true else info.seqValid }

/-- What a call leaves and what it did with packets: `skb` is what the caller is left with. -/
structure Result where
  entry : RxEntry
  dst : Bool
  skb : Option Packet
  forwarded : List Packet
  freed : List Packet

/-- `hyfi_aggr_queue_pkt`: `dst` says that it returns -1. -/
def RxEntry.queuePkt (entry : RxEntry) (skb : Packet) (seq : Nat) : Result :=
  match entry.findQueue skb.ifindex with
  | none => ⟨entry, true, some skb, [], []⟩
  | some idx =>
    let info := ((entry.hyfiIfaceInfo idx).assign skb.ifindex).push ⟨seqOf seq, skb⟩
    let entry := entry.setInfo idx info
    if info.pktCnt > maxQueueLen then
      let (after, found) := entry.recover
      ⟨after, !found, none, [], entry.expiredPkts⟩
    else ⟨entry, false, none, [], []⟩

/-! ### Processing -/

/-- `hyfi_aggr_process_pkt`. -/
def RxEntry.processPkt (entry : RxEntry) (timeUp : Bool) (skb : Packet) (seq : Nat) : Result :=
  if entry.nextSeqValid then
    if entry.aggrNextSeq = seqOf seq then
      ⟨{ entry with aggrNextSeq := seqOf (entry.aggrNextSeq + 1) }, true, some skb, [], []⟩
    else if entry.aggrNextSeq > seqOf seq ∧ entry.aggrNextSeq - seqOf seq < 2 ^ 13 then
      ⟨entry, false, none, [], [skb]⟩
    else
      let queued := entry.queuePkt skb seq
      if queued.dst then queued
      else
        let (work, dst, out) := queued.entry.dequeuePkts
        if dst then ⟨work.entry, true, out, work.forwarded, queued.freed⟩
        else if work.entry.timeout timeUp then
          ⟨work.entry.recover.1, false, none, work.forwarded, queued.freed ++
            work.entry.expiredPkts⟩
        else ⟨work.entry, false, none, work.forwarded, queued.freed⟩
  else
    ⟨{ entry with
       nextSeqValid := true, aggrNextSeq := seqOf (seqOf seq + 1), numIfs := seq / 2 ^ 14 % 4 },
      true, some skb, [], []⟩

/-- What a call hands to the bridge: what it forwards, and then what it returns with a
destination. -/
def Result.handed (result : Result) : List Packet :=
  result.forwarded ++ if result.dst then result.skb.toList else []

/-- `hyfi_aggr_init_entry`, for a flow whose first packet to come carries `seq`. -/
def RxEntry.initEntry (seq : Nat) : RxEntry :=
  ⟨true, 0, seq / 2 ^ 14 % 4, fun _ => ⟨0, false, 0, [], 0⟩⟩

end Qsdk.Hyfi
