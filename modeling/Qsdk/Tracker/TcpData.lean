/-
**What the TCP tracker keeps.**

The data of one sender, and the functions that change it: `segmentAdd` with the replay of the data
in the future, `bytesDiscard`, `datagramDiscard` and `discardAll`. `Kept` says that the lists of the
sender have the same buffers, that its counters are right, and what of the global totals is left for
the others. Each function keeps it.
-/

import Qsdk.Tracker.IpHeader
import Qsdk.Tracker.TcpLists

namespace Qsdk.Tracker

/-! ### The data -/

/-- The private fields of a buffer that are no links. -/
structure SkbCb where
  seqNo : BitVec 32
  numSeqs : BitVec 32
  offset : BitVec 32

/-- `struct ecm_tracker_tcp_host_data` without the MSS, and the private fields of its buffers. -/
structure HostData where
  seqNo : BitVec 32
  numSeqs : BitVec 32
  seqNoValid : Bool
  recvd : Recvd
  space : Space
  cb : SkBuff → SkbCb

/-- The global totals. A buffer is owned by the data it was cloned for, until it is freed. -/
structure Global (Owner : Type) where
  dataTotal : Int
  dataBufferTotal : Int
  owner : SkBuff → Option Owner

/-- The global limits, which are `int`s that are not negative. -/
structure Limits where
  dataLimit : Fin 2147483648
  dataBufferLimit : Fin 2147483648

/-- The value of an `int` that is compared with an unsigned one. -/
def u32 (x : Int) : Int := x % 4294967296

section Calls

variable {Owner : Type}

/-- `ecm_tracker_data_total_increase`. -/
def Global.increase (limits : Limits) (global : Global Owner) (skb : SkBuff) :
    Option (Global Owner) :=
  if u32 (global.dataBufferTotal + skb.truesize) > u32 limits.dataBufferLimit.val ∨
      u32 (global.dataTotal + skb.len) > u32 limits.dataLimit.val then none
  else
    some { global with
      dataTotal := global.dataTotal + skb.len, dataBufferTotal :=
        global.dataBufferTotal + skb.truesize }

/-- `ecm_tracker_data_total_decrease` and `dev_kfree_skb_any`. -/
def Global.drop (global : Global Owner) (skb : SkBuff) : Global Owner where
  dataTotal := global.dataTotal - skb.len
  dataBufferTotal := global.dataBufferTotal - skb.truesize
  owner := Function.update global.owner skb none

/-- A buffer is cloned and counted. -/
def Global.take (owner : Owner) (skb : SkBuff) (global : Global Owner) : Global Owner where
  dataTotal := global.dataTotal + skb.len
  dataBufferTotal := global.dataBufferTotal + skb.truesize
  owner := Function.update global.owner skb (some owner)

theorem Global.take_eq {limits : Limits} {owner : Owner} {skb : SkBuff}
    {global global' : Global Owner} (increased : global.increase limits skb = some global') :
    { global' with owner := Function.update global'.owner skb (some owner) } =
        global.take owner skb := by
  simp only [Global.increase, Option.ite_none_left_eq_some, Option.some.injEq] at increased
  rw [← increased.2]
  rfl

theorem Global.take_owner_of_ne {owner : Owner} {global : Global Owner} {skb other : SkBuff}
    (ne : other ≠ skb) :
    (global.take owner skb).owner other = global.owner other := Function.update_of_ne ne _ _

theorem Global.take_owner (owner : Owner) (global : Global Owner) (skb : SkBuff) :
    (global.take owner skb).owner skb = some owner := Function.update_self _ _ _

@[simp] theorem Global.take_dataTotal (owner : Owner) (global : Global Owner) (skb : SkBuff) :
    (global.take owner skb).dataTotal = global.dataTotal + skb.len := rfl

@[simp] theorem Global.take_dataBufferTotal (owner : Owner) (global : Global Owner) (skb : SkBuff) :
    (global.take owner skb).dataBufferTotal = global.dataBufferTotal + skb.truesize := rfl

@[simp] theorem Global.drop_dataTotal (global : Global Owner) (skb : SkBuff) :
    (global.drop skb).dataTotal = global.dataTotal - skb.len := rfl

@[simp] theorem Global.drop_dataBufferTotal (global : Global Owner) (skb : SkBuff) :
    (global.drop skb).dataBufferTotal = global.dataBufferTotal - skb.truesize := rfl

theorem Global.drop_owner_of_ne {global : Global Owner} {skb other : SkBuff} (ne : other ≠ skb) :
    (global.drop skb).owner other = global.owner other := Function.update_of_ne ne _ _

/-- The loop of `ecm_tracker_tcp_bytes_discard`. It has no result if there is no buffer in order:
the source goes through a null pointer. -/
def discardLoop : (fuel : Nat) → BitVec 32 → Global Owner × HostData →
    Option (Global Owner × HostData)
  | 0, _, _ => none
  | fuel + 1, n, (global, data) =>
    if n = 0 then some (global, data)
    else
      match data.space.inOrder with
      | none => none
      | some skb =>
        if n < (data.cb skb).numSeqs then
          some (global, { data with
            cb := Function.update data.cb skb
              ⟨(data.cb skb).seqNo + n, (data.cb skb).numSeqs - n, (data.cb skb).offset + n⟩ })
        else
          discardLoop fuel (n - (data.cb skb).numSeqs)
            (global.drop skb, { data
              with recvd := data.recvd.remove skb, space := data.space.popInOrder skb })

/-- `ecm_tracker_tcp_bytes_discard`. Each round but the last takes a buffer. -/
def bytesDiscard (n : BitVec 32) (global : Global Owner) (data : HostData) :
    Option (Global Owner × HostData) :=
  discardLoop (data.space.inOrderCount.toNat + 1) n
    (global, { data with numSeqs := data.numSeqs - n, seqNo := data.seqNo + n })

/-- The loop of `ecm_tracker_tcp_datagram_discard_callback` that adds up the sequences. -/
def datagramSeqs (data : HostData) : (n : Nat) → Option SkBuff → BitVec 32 → Option (BitVec 32)
  | 0, _, seqsDiscard => some seqsDiscard
  | _ + 1, none, _ => none
  | n + 1, some skb, seqsDiscard =>
    datagramSeqs data n (data.space.links.next skb) (seqsDiscard + (data.cb skb).numSeqs)

/-- `ecm_tracker_tcp_datagram_discard_callback`. -/
def datagramDiscard (n : Nat) (global : Global Owner) (data : HostData) :
    Option (Global Owner × HostData) :=
  match datagramSeqs data n data.space.inOrder 0 with
  | none => none
  | some seqsDiscard => bytesDiscard seqsDiscard global data

/-- The inner loop of `_ecm_tracker_tcp_discard_all`, while there are received buffers, with what is
left in `recvd_order`. -/
def discardRecvd (links : Links SkBuff) :
    (recvdCount : Nat) → Option SkBuff → Global Owner → Option (Option SkBuff × Global Owner)
  | 0, recvdOrder, global => some (recvdOrder, global)
  | _ + 1, none, _ => none
  | recvdCount + 1, some skb, global => discardRecvd links recvdCount (links.next skb)
    (global.drop skb)

/-- `_ecm_tracker_tcp_discard_all` for one sender. -/
def discardAll (global : Global Owner) (data : HostData) : Option (Global Owner × HostData) :=
  (discardRecvd data.recvd.links data.recvd.recvdCount.toNat data.recvd.recvdOrder global).map
      fun (recvdOrder, global) =>
    (global, { data with
      recvd := ⟨data.recvd.links, recvdOrder, none, 0, 0⟩
      space := ⟨data.space.links, none, none, 0, none⟩
      seqNoValid := false })

/-- `_ecm_tracker_tcp_data_future_replay`. -/
def futureReplay : (fuel : Nat) → Global Owner × HostData → Option (Global Owner × HostData)
  | 0, _ => none
  | fuel + 1, (global, data) =>
    match data.space.future with
    | none => some (global, data)
    | some skb =>
      let inSequence := (data.cb skb).seqNo - (data.seqNo + data.numSeqs)
      let newSeqs := (data.cb skb).numSeqs + inSequence
      if 0 < inSequence.toInt then some (global, data)
      else if newSeqs.toInt ≤ 0 then
        futureReplay fuel
          (global.drop skb, { data
            with recvd := data.recvd.remove skb, space := data.space.popFuture skb })
      else
        futureReplay fuel
          (global, { data with
            cb := Function.update data.cb skb
              ⟨(data.cb skb).seqNo - inSequence, newSeqs, (data.cb skb).offset - inSequence⟩
            space := (data.space.popFuture skb).pushInOrder skb
            numSeqs := data.numSeqs + newSeqs })

/-- A TCP segment, as the tracker sees it. -/
structure TcpSegment where
  rst : Bool
  syn : Bool
  seq : BitVec 32
  ecmTcpHeader : ProtocolHeader

/-- `data_offset`. -/
def TcpSegment.dataOffset (segment : TcpSegment) : BitVec 16 :=
  BitVec.ofNat 16 (segment.ecmTcpHeader.offset + segment.ecmTcpHeader.headerSize)

/-- `data_len`. -/
def TcpSegment.dataLen (segment : TcpSegment) : BitVec 16 :=
  BitVec.ofNat 16 segment.ecmTcpHeader.size - BitVec.ofNat 16 segment.ecmTcpHeader.headerSize

/-- The buffers in the future between which one with a sequence number is put: the walk of
`_ecm_tracker_tcp_stream_segment_add`. -/
def futurePlace (data : HostData) (seq : BitVec 32) :
    (fuel : Nat) → (pskb nskb : Option SkBuff) → Option SkBuff × Option SkBuff
  | 0, pskb, nskb => (pskb, nskb)
  | _ + 1, pskb, none => (pskb, none)
  | fuel + 1, pskb, some nskb =>
    if seq ≤ (data.cb nskb).seqNo then (pskb, some nskb)
    else futurePlace data seq fuel (some nskb) (data.space.links.next nskb)

/-- `_ecm_tracker_tcp_stream_segment_add` for a segment with data. -/
def streamDataAdd (segment : TcpSegment) (seq : BitVec 32) (skb : SkBuff) (global : Global Owner)
    (data : HostData) :
    Option (Global Owner × HostData × Bool) :=
  let numSeqs : BitVec 32 := segment.dataLen.zeroExtend 32
  let inSequence := seq - (data.seqNo + data.numSeqs)
  let newSeqs := numSeqs + inSequence
  if newSeqs.toInt ≤ 0 then some (global, data, false)
  else if 0 < inSequence.toInt then
    let place := futurePlace data seq data.recvd.recvdCount.toNat none data.space.future
    some (global, { data with
      cb := Function.update data.cb skb ⟨seq, numSeqs, segment.dataOffset.zeroExtend 32⟩
      space := data.space.insertFuture place.1 place.2 skb }, true)
  else
    (futureReplay (data.recvd.recvdCount.toNat + 1)
      (global, { data with
        cb := Function.update data.cb skb
          ⟨seq - inSequence, newSeqs, segment.dataOffset.zeroExtend 32 - inSequence⟩
        space := data.space.pushInOrder skb
        numSeqs := data.numSeqs + newSeqs })).map fun (global, data) => (global, data, true)

/-- `_ecm_tracker_tcp_stream_segment_add`. The last of the results tells whether the segment is
wanted. -/
def streamSegmentAdd (segment : TcpSegment) (skb : SkBuff) (global : Global Owner)
    (data : HostData) :
    Option (Global Owner × HostData × Bool) :=
  if segment.rst then some (global, data, false)
  else
    let seq := if segment.syn then segment.seq + 1 else segment.seq
    let data := if data.seqNoValid then data else
      { data with seqNo := seq, numSeqs := 0, seqNoValid := true }
    if segment.dataLen = 0 then some (global, data, false) else
      streamDataAdd segment seq skb global data

/-- `ecm_tracker_tcp_segment_add_callback` for a buffer that was cloned and is within the limit of
the instance. -/
def segmentAdd (limits : Limits) (owner : Owner) (segment : TcpSegment) (skbc : SkBuff)
    (global : Global Owner)
    (data : HostData) : Option (Global Owner × HostData) :=
  match global.increase limits skbc with
  | none => some (global, data)
  | some global =>
    match streamSegmentAdd segment skbc
      { global with owner := Function.update global.owner skbc (some owner) } data with
    | none => none
    | some (global, data, false) => some (global.drop skbc, data)
    | some (global, data, true) => some (global, { data with recvd := data.recvd.push skbc })

/-! ### What a call keeps -/

/-- The owner's lists of buffers. -/
structure Lists where
  recvd : List SkBuff
  inOrder : List SkBuff
  future : List SkBuff

/-- The lists have the same buffers, the counters are right, and of the global totals `len` and
`size` are those of the others. A pending buffer is not yet in the order of reception. -/
structure Kept (owner : Owner) (len size : Int) (pending : List SkBuff) (lists : Lists)
    (global : Global Owner) (data : HostData) : Prop where
  recvd : data.recvd.Holds lists.recvd
  space : data.space.Holds lists.inOrder lists.future
  perm : (pending ++ lists.recvd).Perm (lists.inOrder ++ lists.future)
  dataTotal : global.dataTotal = len + lens (pending ++ lists.recvd)
  dataBufferTotal : global.dataBufferTotal = size + truesizes (pending ++ lists.recvd)
  owned : ∀ skb ∈ pending ++ lists.recvd, global.owner skb = some owner

/-- The buffers of the others are left to them. -/
def Frame (owner : Owner) (global global' : Global Owner) : Prop :=
  ∀ other ≠ owner, ∀ skb, global.owner skb = some other → global'.owner skb = some other

/-- A call succeeded, and has kept what is to be kept. It keeps no more bytes than before. -/
def Keeps (owner : Owner) (len size : Int) (pending : List SkBuff) (lists : Lists)
    (global : Global Owner) (result : Global Owner × HostData) : Prop :=
  Frame owner global result.1 ∧ ∃ lists', Kept owner len size pending lists' result.1 result.2 ∧
    truesizes lists'.recvd ≤ truesizes lists.recvd

section Kept

variable {owner : Owner} {len size : Int} {pending : List SkBuff} {lists : Lists}
    {global global' : Global Owner}
  {data data' : HostData} {skb : SkBuff}

theorem Frame.refl : Frame owner global global := fun _ _ _ owned => owned

theorem Frame.trans {global'' : Global Owner} (first : Frame owner global global')
    (second : Frame owner global' global'') : Frame owner global global'' :=
  fun other ne skb owned => second other ne skb (first other ne skb owned)

/-- Only a buffer of its own is dropped. -/
theorem Frame.drop (owned : global.owner skb = some owner) :
    Frame owner global (global.drop skb) := by
  intro other ne skb' owned'
  have apart : skb' ≠ skb := by
    rintro rfl
    rw [owned] at owned'
    exact ne (Option.some.inj owned').symm
  rw [Global.drop_owner_of_ne apart, owned']

theorem Kept.nodup (kept : Kept owner len size pending lists global data) :
    (pending ++ lists.recvd).Nodup :=
  kept.perm.nodup_iff.mpr kept.space.nodup

/-- Other fields do not matter. -/
theorem Kept.congr (kept : Kept owner len size pending lists global data)
    (recvd : data'.recvd = data.recvd) (space : data'.space = data.space) :
        Kept owner len size pending lists global data' :=
  { kept with recvd := recvd ▸ kept.recvd, space := space ▸ kept.space }

theorem Keeps.of_kept (kept : Kept owner len size pending lists global data) :
    Keeps owner len size pending lists global (global, data) := ⟨Frame.refl, lists, kept, le_rfl⟩

/-- What is kept from a later state on is kept from an earlier one on. -/
theorem Keeps.after {lists' : Lists} {result : Global Owner × HostData}
    (frame : Frame owner global global') (fewer : truesizes lists'.recvd ≤ truesizes lists.recvd)
    (keeps : Keeps owner len size pending lists' global' result) :
    Keeps owner len size pending lists global result := by
  obtain ⟨frame', lists'', kept, fewer'⟩ := keeps
  exact ⟨frame.trans frame', lists'', kept, fewer'.trans fewer⟩

/-- **A buffer that leaves one of the lists in the sequence space is dropped.** -/
theorem Kept.release {space' : Space} {inOrder future : List SkBuff}
    (kept : Kept owner len size pending lists global data) (space : space'.Holds inOrder future)
    (left : (lists.inOrder ++ lists.future).Perm (skb :: (inOrder ++ future)))
    (here : skb ∉ pending) :
    skb ∈ lists.recvd ∧ Kept owner len size pending ⟨lists.recvd.erase skb, inOrder, future⟩
    (global.drop skb)
      { data with recvd := data.recvd.remove skb, space := space' } := by
  have moved := kept.perm.trans left
  have mem : skb ∈ lists.recvd :=
    (List.mem_append.mp (moved.mem_iff.mpr List.mem_cons_self)).resolve_left here
  have erased : (pending ++ lists.recvd).erase skb = pending ++ lists.recvd.erase skb :=
    List.erase_append_right _ here
  have all : skb ∈ pending ++ lists.recvd := List.mem_append_right _ mem
  refine ⟨mem, ?_⟩
  exact {
    recvd := kept.recvd.remove mem
    space := space
    perm := by
      have removed := moved.erase skb
      rwa [erased, List.erase_cons_head] at removed
    dataTotal := by
      rw [← erased, lens_erase all, Global.drop_dataTotal, kept.dataTotal]
      omega
    dataBufferTotal := by
      rw [← erased, truesizes_erase all, Global.drop_dataBufferTotal, kept.dataBufferTotal]
      omega
    owned := by
      intro other inLists
      rw [← erased, kept.nodup.mem_erase_iff] at inLists
      rw [Global.drop_owner_of_ne inLists.1, kept.owned other inLists.2] }

theorem truesizes_erase_le (skbs : List SkBuff) : truesizes (skbs.erase skb) ≤ truesizes skbs := by
  by_cases mem : skb ∈ skbs
  · rw [truesizes_erase mem]
    omega
  · rw [List.erase_of_not_mem mem]

/-- Discarding bytes takes buffers from the front of the data in order. -/
theorem discardLoop_keeps {fuel : Nat} {n : BitVec 32} {result : Global Owner × HostData}
    (kept : Kept owner len size [] lists global data)
    (ran : discardLoop fuel n (global, data) = some result) :
    Keeps owner len size [] lists global result := by
  induction fuel generalizing n global data lists with
  | zero => cases ran
  | succ fuel ih =>
    rw [discardLoop] at ran
    split at ran
    · cases ran
      exact Keeps.of_kept kept
    · split at ran
      · cases ran
      · rename_i skb head
        split at ran
        · cases ran
          exact Keeps.of_kept (kept.congr rfl rfl)
        · rw [kept.space.inOrder_eq] at head
          obtain ⟨inOrder, split⟩ : ∃ inOrder, lists.inOrder = skb :: inOrder :=
            List.head?_eq_some_iff.mp head
          have space := kept.space
          rw [split] at space
          obtain ⟨mem, kept'⟩ := kept.release space.popInOrder (by rw [split]; rfl) List.not_mem_nil
          exact Keeps.after (Frame.drop (kept.owned skb mem)) (truesizes_erase_le _) (ih kept' ran)

theorem bytesDiscard_keeps {n : BitVec 32} {result : Global Owner × HostData}
    (kept : Kept owner len size [] lists global data)
    (ran : bytesDiscard n global data = some result) :
    Keeps owner len size [] lists global result := by
  have kept' : Kept owner len size [] lists global
    { data with numSeqs := data.numSeqs - n, seqNo := data.seqNo + n } :=
    kept.congr rfl rfl
  exact discardLoop_keeps kept' ran

theorem datagramDiscard_keeps {n : Nat} {result : Global Owner × HostData}
    (kept : Kept owner len size [] lists global data)
    (ran : datagramDiscard n global data = some result) :
    Keeps owner len size [] lists global result := by
  unfold datagramDiscard at ran
  split at ran
  · cases ran
  · exact bytesDiscard_keeps kept ran

/-- The sequences that can be read from some buffers. -/
def seqs (cb : SkBuff → SkbCb) (skbs : List SkBuff) : Nat :=
    (skbs.map fun skb => (cb skb).numSeqs.toNat).sum

/-- Bytes that are there can be discarded. -/
theorem discardLoop_isSome {fuel : Nat} {n : BitVec 32}
    (kept : Kept owner len size [] lists global data)
    (available : n.toNat ≤ seqs data.cb lists.inOrder) (enough : lists.inOrder.length < fuel) :
    (discardLoop fuel n (global, data)).isSome := by
  induction fuel generalizing n global data lists with
  | zero => exact absurd enough (Nat.not_lt_zero _)
  | succ fuel ih =>
    rw [discardLoop]
    split
    · rfl
    · rename_i more
      obtain ⟨recvd, inOrder, future⟩ := lists
      cases inOrder with
      | nil =>
        have zero : n.toNat = 0 := Nat.le_zero.mp available
        exact absurd (BitVec.eq_of_toNat_eq zero) more
      | cons skb inOrder =>
        have head := kept.space.inOrder_eq
        rw [List.head?_cons] at head
        simp only [head]
        split
        · rfl
        · rename_i whole
          obtain ⟨mem, kept'⟩ := kept.release kept.space.popInOrder List.Perm.rfl List.not_mem_nil
          rw [BitVec.not_lt] at whole
          refine ih kept' ?_ (Nat.lt_of_succ_lt_succ enough)
          rw [BitVec.toNat_sub_of_le whole]
          simp only [seqs, List.map_cons, List.sum_cons] at available ⊢
          omega

/-- Discarding bytes succeeds if there are so many. -/
theorem bytesDiscard_isSome {n : BitVec 32} (kept : Kept owner len size [] lists global data)
    (available : n.toNat ≤ seqs data.cb lists.inOrder) : (bytesDiscard n global data).isSome := by
  have kept' : Kept owner len size [] lists global
    { data with numSeqs := data.numSeqs - n, seqNo := data.seqNo + n } :=
    kept.congr rfl rfl
  refine discardLoop_isSome kept' available ?_
  rw [kept.space.inOrderCount_eq, Int.toNat_natCast]
  exact Nat.lt_succ_self _

theorem datagramSeqs_spec {before : Option SkBuff} {skbs : List SkBuff} {n : Nat}
    (seqsDiscard : BitVec 32) (chained : data.space.links.Chained before skbs none)
    (available : n ≤ skbs.length) :
    ∃ total, datagramSeqs data n skbs.head? seqsDiscard = some total ∧
      total.toNat ≤ seqsDiscard.toNat + seqs data.cb skbs := by
  induction n generalizing before skbs seqsDiscard with
  | zero => exact ⟨seqsDiscard, rfl, Nat.le_add_right _ _⟩
  | succ n ih =>
    cases skbs with
    | nil => exact absurd available (Nat.not_succ_le_zero n)
    | cons skb skbs =>
      obtain ⟨-, next, chained⟩ := chained
      obtain ⟨total, ran, le⟩ := ih (seqsDiscard + (data.cb skb).numSeqs) chained
        (Nat.le_of_succ_le_succ available)
      refine ⟨total, ?_, ?_⟩
      · rw [List.head?_cons, datagramSeqs, next, Option.or_none]
        exact ran
      · have sum := Nat.mod_le (seqsDiscard.toNat + (data.cb skb).numSeqs.toNat) (2 ^ 32)
        rw [BitVec.toNat_add] at le
        simp only [seqs, List.map_cons, List.sum_cons] at le ⊢
        omega

/-- Discarding datagrams succeeds if there are so many. -/
theorem datagramDiscard_isSome {n : Nat} (kept : Kept owner len size [] lists global data)
    (available : n ≤ lists.inOrder.length) : (datagramDiscard n global data).isSome := by
  obtain ⟨total, ran, le⟩ := datagramSeqs_spec 0 kept.space.inOrderChained available
  rw [datagramDiscard, kept.space.inOrder_eq, ran]
  exact bytesDiscard_isSome kept (by simpa using le)

/-- The loop over all received buffers drops each of them. -/
theorem discardRecvd_spec {links : Links SkBuff} {before : Option SkBuff} {skbs : List SkBuff}
    (chained : links.Chained before skbs none) (nodup : skbs.Nodup)
    (owned : ∀ skb ∈ skbs, global.owner skb = some owner) :
    ∃ global', discardRecvd links skbs.length skbs.head? global = some (none, global') ∧
    Frame owner global global' ∧
      global'.dataTotal = global.dataTotal - lens skbs ∧
        global'.dataBufferTotal = global.dataBufferTotal - truesizes skbs := by
  induction skbs generalizing before global with
  | nil => exact ⟨global, rfl, Frame.refl, by simp [lens], by simp [truesizes]⟩
  | cons skb skbs ih =>
    obtain ⟨-, next, chained⟩ := chained
    obtain ⟨fresh, nodup⟩ := List.nodup_cons.mp nodup
    have owned' : ∀ other ∈ skbs, (global.drop skb).owner other = some owner := by
      intro other mem
      have apart : other ≠ skb := fun same => fresh (same ▸ mem)
      rw [Global.drop_owner_of_ne apart, owned other (List.mem_cons_of_mem _ mem)]
    obtain ⟨global', ran, frame, dataTotal, dataBufferTotal⟩ := ih chained nodup owned'
    refine ⟨global', ?_, (Frame.drop (owned skb List.mem_cons_self)).trans frame, ?_, ?_⟩
    · rw [List.length_cons, List.head?_cons, discardRecvd, next, Option.or_none]
      exact ran
    · rw [dataTotal, Global.drop_dataTotal]
      simp only [lens, List.map_cons, List.sum_cons]
      omega
    · rw [dataBufferTotal, Global.drop_dataBufferTotal]
      simp only [truesizes, List.map_cons, List.sum_cons]
      omega

theorem discardAll_keeps (kept : Kept owner len size [] lists global data) :
    ∃ result, discardAll global data = some result ∧
        Keeps owner len size [] lists global result := by
  obtain ⟨global', ran, frame, dataTotal, dataBufferTotal⟩ :=
    discardRecvd_spec kept.recvd.chained kept.recvd.nodup kept.owned
  have count : data.recvd.recvdCount.toNat = lists.recvd.length := by
    rw [kept.recvd.recvdCount, Int.toNat_natCast]
  refine ⟨_, by rw [discardAll, count, kept.recvd.recvdOrder, ran]; rfl, frame,
    ⟨[], [], []⟩, ?_, ?_⟩
  · exact {
      recvd := ⟨trivial, rfl, rfl, rfl, rfl, List.nodup_nil⟩
      space := ⟨trivial, rfl, rfl, rfl, trivial, rfl, List.nodup_nil⟩
      perm := List.Perm.refl _
      dataTotal := by
        simp only [dataTotal, kept.dataTotal, List.nil_append, lens, List.map_nil, List.sum_nil]
        omega
      dataBufferTotal := by
        simp only [dataBufferTotal, kept.dataBufferTotal, List.nil_append, truesizes, List.map_nil,
          List.sum_nil]
        omega
      owned := by simp }
  · exact truesizes_nonneg _

/-- The replay ends, and takes buffers from the front of the data in the future: it drops them, or
puts them at the end of the data in order. -/
theorem futureReplay_keeps {fuel : Nat} (kept : Kept owner len size pending lists global data)
    (apart : ∀ skb ∈ pending, skb ∉ lists.future) (enough : lists.future.length < fuel) :
    ∃ result, futureReplay fuel (global, data) = some result ∧
        Keeps owner len size pending lists global result := by
  induction fuel generalizing global data lists with
  | zero => exact absurd enough (Nat.not_lt_zero _)
  | succ fuel ih =>
    obtain ⟨recvd, inOrder, future⟩ := lists
    have head := kept.space.future_eq
    cases future with
    | nil => exact ⟨_, by rw [futureReplay]; simp only [head]; rfl, Keeps.of_kept kept⟩
    | cons skb future =>
      have space := kept.space
      have here : skb ∉ pending := fun mem => apart skb mem List.mem_cons_self
      have apart' : ∀ other ∈ pending, other ∉ future := fun other mem inFuture =>
        apart other mem (List.mem_cons_of_mem _ inFuture)
      rw [List.length_cons] at enough
      simp only [futureReplay, head, List.head?_cons]
      split
      · exact ⟨_, rfl, Keeps.of_kept kept⟩
      · split
        · -- The buffer is all old.
          obtain ⟨mem, kept'⟩ := kept.release space.popFuture List.perm_middle here
          obtain ⟨result, ran, keeps⟩ := ih kept' apart' (Nat.lt_of_succ_lt_succ enough)
          exact ⟨result, ran,
            Keeps.after (Frame.drop (kept.owned skb (List.mem_append_right _ mem)))
            (truesizes_erase_le _) keeps⟩
        · -- The buffer gets into order.
          have nodup : (skb :: (inOrder ++ future)).Nodup :=
            List.perm_middle.nodup_iff.mp space.nodup
          have pushed := space.popFuture.pushInOrder (List.nodup_cons.mp nodup).1
          refine (ih (?_ : Kept owner len size pending ⟨recvd, inOrder ++ [skb], future⟩ global _)
            apart'
            (Nat.lt_of_succ_lt_succ enough)).imp fun result ran =>
            ⟨ran.1, Keeps.after Frame.refl le_rfl ran.2⟩
          exact {
            recvd := kept.recvd
            space := pushed
            perm := by
              rw [List.append_assoc]
              exact kept.perm
            dataTotal := kept.dataTotal
            dataBufferTotal := kept.dataBufferTotal
            owned := kept.owned }

/-- The walk over the data in the future finds a place in it. -/
theorem futurePlace_spec (seq : BitVec 32) {before : Option SkBuff} {skbs : List SkBuff}
    {fuel : Nat} (chained : data.space.links.Chained before skbs none)
    (enough : skbs.length ≤ fuel) :
    ∃ front back, skbs = front ++ back ∧
      futurePlace data seq fuel before skbs.head? = (front.getLast?.or before, back.head?) := by
  induction fuel generalizing before skbs with
  | zero =>
    have empty := List.eq_nil_of_length_eq_zero (Nat.le_zero.mp enough)
    subst empty
    exact ⟨[], [], rfl, rfl⟩
  | succ fuel ih =>
    cases skbs with
    | nil => exact ⟨[], [], rfl, rfl⟩
    | cons skb skbs =>
      obtain ⟨-, next, chained⟩ := chained
      rw [List.head?_cons, futurePlace]
      split
      · exact ⟨[], skb :: skbs, rfl, rfl⟩
      · obtain ⟨front, back, rfl, place⟩ := ih chained (Nat.le_of_succ_le_succ enough)
        refine ⟨skb :: front, back, rfl, ?_⟩
        rw [next, Option.or_none, place]
        cases front <;> simp [List.getLast?_cons]

theorem Kept.length_future_le (kept : Kept owner len size [] lists global data) :
    lists.future.length ≤ data.recvd.recvdCount.toNat := by
  have same := kept.perm.length_eq
  rw [kept.recvd.recvdCount, Int.toNat_natCast]
  simp only [List.nil_append, List.length_append] at same
  omega

/-- A new buffer gets into the sequence space, and is pending. -/
theorem Kept.pend {space' : Space} {inOrder future : List SkBuff}
    (kept : Kept owner (len + skb.len) (size + skb.truesize) [] lists global data)
    (owned : global.owner skb = some owner) (space : space'.Holds inOrder future)
    (entered : (inOrder ++ future).Perm (skb :: (lists.inOrder ++ lists.future)))
    (recvd : data'.recvd = data.recvd) (here : data'.space = space') :
        Kept owner len size [skb] ⟨lists.recvd, inOrder, future⟩ global data' where
  recvd := recvd ▸ kept.recvd
  space := here ▸ space
  perm := (kept.perm.cons skb).trans entered.symm
  dataTotal := by
    change _ = len + lens ([skb] ++ lists.recvd)
    rw [kept.dataTotal, List.nil_append, lens_append [skb], lens_singleton]
    omega
  dataBufferTotal := by
    change _ = size + truesizes ([skb] ++ lists.recvd)
    rw [kept.dataBufferTotal, List.nil_append, truesizes_append [skb], truesizes_singleton]
    omega
  owned := by
    intro other mem
    rcases List.mem_cons.mp mem with rfl | mem
    · exact owned
    · exact kept.owned other mem

/-- A call on the stream succeeded: a wanted segment is pending, and for another one nothing has
changed. -/
def Adds (owner : Owner) (len size : Int) (lists : Lists) (skb : SkBuff) (global : Global Owner)
    (result : Global Owner × HostData × Bool) : Prop :=
  if result.2.2 then Keeps owner len size [skb] lists global (result.1, result.2.1)
  else result.1 = global ∧ Kept owner (len + skb.len) (size + skb.truesize)
    [] lists global result.2.1

theorem streamDataAdd_adds (segment : TcpSegment) (seq : BitVec 32)
    (kept : Kept owner (len + skb.len) (size + skb.truesize) [] lists global data)
    (fresh : skb ∉ lists.recvd) (owned : global.owner skb = some owner) :
    ∃ result, streamDataAdd segment seq skb global data = some result ∧
      Adds owner len size lists skb global result := by
  have fresh' : skb ∉ lists.inOrder ++ lists.future := fun mem => fresh (kept.perm.mem_iff.mpr mem)
  simp only [streamDataAdd]
  split
  · exact ⟨_, rfl, rfl, kept⟩
  · split
    · -- The segment is in the future.
      obtain ⟨front, back, split, place⟩ := futurePlace_spec seq kept.space.futureChained
        kept.length_future_le
      have space := kept.space
      rw [split] at space fresh'
      rw [kept.space.future_eq, place, Option.or_none]
      refine ⟨_, rfl, Frame.refl, ⟨lists.recvd, lists.inOrder, front ++ skb :: back⟩, ?_, le_rfl⟩
      refine kept.pend owned (space.insertFuture fresh') ?_ rfl rfl
      rw [split, ← List.append_assoc, ← List.append_assoc]
      exact List.perm_middle
    · -- The segment has data in order.
      have pending : Kept owner len size [skb]
        ⟨lists.recvd, lists.inOrder ++ [skb], lists.future⟩ global
          { data with space := data.space.pushInOrder skb } := by
        refine kept.pend owned (kept.space.pushInOrder fresh') ?_ rfl rfl
        rw [List.append_assoc]
        exact List.perm_middle
      have apart : ∀ other ∈ [skb], other ∉ lists.future := by
        intro other mem inFuture
        rw [List.mem_singleton.mp mem] at inFuture
        exact fresh' (List.mem_append_right _ inFuture)
      have replay (cb : SkBuff → SkbCb) (numSeqs : BitVec 32) :
          ∃ result, (futureReplay (data.recvd.recvdCount.toNat + 1) (global, { data with
              cb := cb, space := data.space.pushInOrder skb, numSeqs := numSeqs })).map
                (fun (global, data) => (global, data, true)) = some result ∧
            Adds owner len size lists skb global result := by
        have entered : Kept owner len size [skb]
          ⟨lists.recvd, lists.inOrder ++ [skb], lists.future⟩ global
            { data with cb := cb, space := data.space.pushInOrder skb, numSeqs := numSeqs } :=
            pending.congr rfl rfl
        obtain ⟨result, ran, keeps⟩ := futureReplay_keeps entered apart
          (Nat.lt_succ_of_le kept.length_future_le)
        exact ⟨(result.1, result.2, true), by rw [ran]; rfl, keeps⟩
      exact replay _ _

theorem streamSegmentAdd_adds (segment : TcpSegment)
    (kept : Kept owner (len + skb.len) (size + skb.truesize) [] lists global data)
    (fresh : skb ∉ lists.recvd) (owned : global.owner skb = some owner) :
    ∃ result, streamSegmentAdd segment skb global data = some result ∧
      Adds owner len size lists skb global result := by
  simp only [streamSegmentAdd]
  split
  · exact ⟨_, rfl, rfl, kept⟩
  · have valid (seq : BitVec 32) : Kept owner (len + skb.len) (size + skb.truesize) [] lists global
        (if data.seqNoValid then data else
          { data with seqNo := seq, numSeqs := 0, seqNoValid := true }) := by
      split
      · exact kept
      · exact kept.congr rfl rfl
    split
    · exact ⟨_, rfl, rfl, valid _⟩
    · exact streamDataAdd_adds segment _ (valid _) fresh owned

/-- A new buffer is not in the lists. -/
theorem Kept.not_mem (kept : Kept owner len size [] lists global data)
    (fresh : global.owner skb = none) :
    skb ∉ lists.recvd := by
  intro mem
  have owned := kept.owned skb mem
  rw [fresh] at owned
  cases owned

theorem Frame.take (fresh : global.owner skb = none) : Frame owner global
    (global.take owner skb) := by
  intro other ne skb' owned
  have apart : skb' ≠ skb := by
    rintro rfl
    rw [fresh] at owned
    cases owned
  rw [Global.take_owner_of_ne apart, owned]

/-- The owner of a new buffer does not count it in its lists, at first. -/
theorem Kept.take (kept : Kept owner len size [] lists global data)
    (fresh : global.owner skb = none) :
    Kept owner (len + skb.len) (size + skb.truesize) [] lists (global.take owner skb) data :=
  { kept with
    dataTotal := by
      rw [Global.take_dataTotal, kept.dataTotal]
      omega
    dataBufferTotal := by
      rw [Global.take_dataBufferTotal, kept.dataBufferTotal]
      omega
    owned := by
      intro other mem
      have apart : other ≠ skb := fun same => kept.not_mem fresh (same ▸ mem)
      rw [Global.take_owner_of_ne apart, kept.owned other mem] }

/-- A buffer that is not in the lists is dropped again. -/
theorem Kept.untake (kept : Kept owner (len + skb.len) (size + skb.truesize) [] lists global data)
    (fresh : skb ∉ lists.recvd) : Kept owner len size [] lists (global.drop skb) data :=
  { kept with
    dataTotal := by
      rw [Global.drop_dataTotal, kept.dataTotal]
      omega
    dataBufferTotal := by
      rw [Global.drop_dataBufferTotal, kept.dataBufferTotal]
      omega
    owned := by
      intro other mem
      have apart : other ≠ skb := fun same => fresh (same ▸ mem)
      rw [Global.drop_owner_of_ne apart, kept.owned other mem] }

/-- The pending buffer is put into the order of reception. -/
theorem Kept.push (kept : Kept owner len size [skb] lists global data) :
    Kept owner len size [] ⟨lists.recvd ++ [skb], lists.inOrder, lists.future⟩ global
      { data with recvd := data.recvd.push skb } := by
  have moved : (lists.recvd ++ [skb]).Perm ([skb] ++ lists.recvd) := List.perm_append_comm
  exact {
    recvd := kept.recvd.push (List.nodup_cons.mp kept.nodup).1
    space := kept.space
    perm := moved.trans kept.perm
    dataTotal := by
      rw [kept.dataTotal, List.nil_append, lens_append, lens_append]
      omega
    dataBufferTotal := by
      rw [kept.dataBufferTotal, List.nil_append, truesizes_append, truesizes_append]
      omega
    owned := fun other mem => kept.owned other (moved.mem_iff.mp mem) }

/-- **Adding a segment keeps everything.** The data is at most that of the buffer more. -/
theorem segmentAdd_keeps (limits : Limits) (segment : TcpSegment)
    (kept : Kept owner len size [] lists global data)
    (fresh : global.owner skb = none) :
    ∃ result, segmentAdd limits owner segment skb global data = some result ∧
    Frame owner global result.1 ∧
      ∃ lists', Kept owner len size [] lists' result.1 result.2 ∧
        truesizes lists'.recvd ≤ truesizes lists.recvd + skb.truesize := by
  unfold segmentAdd
  split
  · exact ⟨_, rfl, Frame.refl, lists, kept, by omega⟩
  · rename_i global' increased
    have notIn := kept.not_mem fresh
    have frame : Frame owner global (global.take owner skb) := Frame.take fresh
    obtain ⟨⟨global'', data', wanted⟩, ran, adds⟩ :=
      streamSegmentAdd_adds segment (kept.take fresh) notIn (global.take_owner owner skb)
    rw [Global.take_eq increased, ran]
    cases wanted with
    | false =>
      obtain ⟨rfl, kept'⟩ := adds
      exact ⟨_, rfl, frame.trans (Frame.drop (global.take_owner owner skb)), lists,
        kept'.untake notIn, by omega⟩
    | true =>
      obtain ⟨frame', lists', kept', fewer⟩ := adds
      refine ⟨_, rfl, frame.trans frame', _, kept'.push, ?_⟩
      rw [truesizes_append, truesizes_singleton]
      omega

end Kept

end Calls

end Qsdk.Tracker
