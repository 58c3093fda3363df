/-
**Aggregated packets leave the receiver in order.**

A run is a sequence of arrivals. Each interface delivers its packets in order, and fewer than `2^13`
packets are outstanding (`History.Allowed`). The receiver takes a packet before the expected one for
a late one only if its 14-bit number is smaller than the expected one, so a late packet from before
the numbers came round is queued and not freed. Without such a packet the order is restored
(`order_restored`); with one it can be lost for good (`disordered_across_wrap`).
-/

import Qsdk.Hyfi.Receiver
import Mathlib.Algebra.Order.BigOperators.Group.Finset

namespace Qsdk.Hyfi

variable {n : Nat} {entry : RxEntry} {flow : Flow}

/-! ### One packet -/

/-- Every packet of an interface between the expected packet and a queued one is queued. -/
def RxEntry.Gapless (flow : Flow) (n : Nat) (entry : RxEntry) : Prop :=
  ∀ i, ∀ buffer ∈ (entry.hyfiIfaceInfo i).skbAggrQ, ∀ index, n ≤ index → index < buffer.skb.index →
    flow.iface index = flow.iface buffer.skb.index → 0 < entry.queued (flow.packet index)

theorem RxEntry.queued_pos {skb : Packet} :
    0 < entry.queued skb ↔ ∃ i, ∃ buffer ∈ (entry.hyfiIfaceInfo i).skbAggrQ, buffer.skb = skb := by
  unfold RxEntry.queued
  rw [Nat.pos_iff_ne_zero, Ne, Finset.sum_eq_zero_iff]
  simp only [Finset.mem_univ, true_implies, not_forall, ← Ne.eq_def, ← Nat.pos_iff_ne_zero,
    List.count_pos_iff,
    List.mem_map]

theorem RxEntry.length_ifaces (few : entry.numIfs ≤ 3) : entry.ifaces.length = entry.numIfs := by
  unfold RxEntry.ifaces
  obtain count | count | count | count : entry.numIfs = 0 ∨ entry.numIfs = 1 ∨ entry.numIfs = 2 ∨
      entry.numIfs = 3 := by omega
  all_goals
    rw [count]
    rfl

/-- **Without a gap not every queue has a packet**: the interface of the expected packet has
none. -/
theorem RxEntry.Kept.not_all_valid (kept : entry.Kept flow.iface n)
    (numIfs : entry.numIfs = flow.numIfs) (gapless : entry.Gapless flow n)
    (notNext : ∀ i ∈ entry.ifaces, (entry.hyfiIfaceInfo i).seqValid = true →
      (entry.hyfiIfaceInfo i).seq ≠ entry.aggrNextSeq) : entry.timeout false = false := by
  have few : entry.numIfs ≤ 3 := numIfs ▸ flow.few
  unfold RxEntry.timeout
  rw [Bool.false_or, decide_eq_false_iff_not]
  intro all
  have count : entry.ifaces.countP (fun i => (entry.hyfiIfaceInfo i).seqValid) =
      entry.ifaces.length := by
    refine le_antisymm List.countP_le_length ?_
    rwa [RxEntry.length_ifaces few]
  have valid := List.countP_eq_length.mp count
  have used : ∀ i ∈ entry.ifaces, (entry.hyfiIfaceInfo i).ifindex ≠ 0 := by
    intro i visited
    rw [Ne, (kept.lane i).free]
    exact (kept.lane i).valid.mp (valid i visited)
  obtain ⟨i, visited, same⟩ := kept.all_used numIfs used (flow.member n)
  have lane := kept.lane i
  obtain ⟨buffer, rest, queue⟩ := List.exists_cons_of_ne_nil (lane.valid.mp (valid i visited))
  have member : buffer ∈ (entry.hyfiIfaceInfo i).skbAggrQ := queue ▸ List.mem_cons_self
  have later : n < buffer.skb.index := by
    refine lt_of_le_of_ne (lane.window buffer member).1 ?_
    intro equal
    refine notNext i visited (valid i visited) ?_
    rw [lane.head buffer (by rw [queue]; rfl), lane.seq buffer member, ← equal, kept.next]
  have sameIface : flow.iface n = flow.iface buffer.skb.index := by
    rw [kept.home i buffer member, lane.dev buffer member, same]
  obtain ⟨j, other, otherMember, isExpected⟩ :=
    RxEntry.queued_pos.mp (gapless i buffer member n (le_refl n) later sameIface)
  have isN : other.skb.index = n := by rw [isExpected]; rfl
  have sameQueue : j = i := by
    refine kept.apart j i ?_ (by rw [Ne, (kept.lane j).free]; exact List.ne_nil_of_mem otherMember)
    rw [same, ← (kept.lane j).dev other otherMember, isExpected]
    rfl
  subst sameQueue
  have sorted := lane.sorted
  rw [queue] at sorted otherMember
  rcases List.mem_cons.mp otherMember with rfl | inRest
  · omega
  · have := (List.pairwise_cons.mp sorted).1 other inRest
    omega

/-- What a call has handed over, and where that leaves the receiver. -/
structure Handled (flow : Flow) (n : Nat) (entry : RxEntry) (index : Nat) (m : Nat)
    (result : Result) : Prop where
  le : n ≤ m
  lt : m < n + 2 ^ 14
  kept : result.entry.Kept flow.iface m
  numIfs : result.entry.numIfs = entry.numIfs
  order : result.handed.Pairwise fun earlier later => earlier.index < later.index
  range : ∀ skb ∈ result.handed, n ≤ skb.index ∧ skb.index < m
  packet : result.dst = true → result.skb ≠ none
  freed : result.freed = if index < n then [flow.packet index] else []
  reached : m = n ∨ ∃ skb, m ≤ skb.index + 1 ∧ 0 < result.handed.count skb + result.entry.queued skb
  balance : ∀ skb, entry.queued skb + [flow.packet index].count skb =
    result.handed.count skb + result.freed.count skb + result.entry.queued skb

/-- Consecutive packets are in order. -/
theorem pairwise_of_indices {handed : List Packet} {m : Nat}
    (indices : handed.map Packet.index = List.range' n (m - n)) :
    (handed.Pairwise fun earlier later => earlier.index < later.index) ∧
      ∀ skb ∈ handed, n ≤ skb.index ∧ skb.index < m := by
  refine ⟨?_, ?_⟩
  · rw [← List.pairwise_map (f := Packet.index) (R := (· < ·)), indices]
    exact List.pairwise_lt_range'
  · intro skb member
    have inRange : skb.index ∈ List.range' n (m - n) := indices ▸ List.mem_map_of_mem member
    rw [List.mem_range'_1] at inRange
    omega

/-- No queued packet is before the expected one. -/
theorem RxEntry.Kept.reached (kept : entry.Kept flow.iface n) (busy : entry.Busy) :
    ∃ skb, n ≤ skb.index + 1 ∧ 0 < entry.queued skb := by
  obtain ⟨i, -, filled⟩ := busy
  obtain ⟨buffer, member⟩ := List.exists_mem_of_ne_nil _ filled
  have lower := ((kept.lane i).window buffer member).1
  exact ⟨buffer.skb, by omega, RxEntry.queued_pos.mpr ⟨i, buffer, member, rfl⟩⟩

/-- The expected packet is handed over. -/
theorem RxEntry.Kept.processPkt_expected (kept : entry.Kept flow.iface n)
    (later : ∀ i, ∀ buffer ∈ (entry.hyfiIfaceInfo i).skbAggrQ,
      buffer.skb.ifindex = flow.iface n → buffer.skb.index < n) (timeUp : Bool) :
    let result := entry.processPkt timeUp (flow.packet n) (flow.seq n)
    Handled flow n entry n (n + 1) result ∧ result.handed = [flow.packet n] := by
  intro result
  have unfolded : result = ⟨{ entry with aggrNextSeq := seqOf (entry.aggrNextSeq + 1) }, true,
      some (flow.packet n), [], []⟩ := by
    show entry.processPkt timeUp (flow.packet n) (flow.seq n) = _
    unfold RxEntry.processPkt
    rw [kept.valid, if_pos rfl, flow.seqOf_seq, kept.next, if_pos rfl]
  have moved : { entry with aggrNextSeq := seqOf (n + 1) }.Kept flow.iface (n + 1) := by
    refine kept.advance (Nat.le_succ n) ?_
    intro i buffer member
    have lower := ((kept.lane i).window buffer member).1
    have different : buffer.skb.index ≠ n := by
      intro same
      have sameIface : buffer.skb.ifindex = flow.iface n := by
        rw [← kept.home i buffer member, same]
      have := later i buffer member sameIface
      omega
    omega
  rw [unfolded, kept.next, seqOf_succ]
  refine ⟨⟨Nat.le_succ n, by omega, moved, rfl, ?_, ?_, ?_, ?_, ?_, ?_⟩, rfl⟩
  · exact List.pairwise_singleton _ _
  · intro skb member
    rw [List.mem_singleton.mp member]
    exact ⟨le_refl n, Nat.lt_succ_self n⟩
  · exact fun _ none => by cases none
  · rw [if_neg (lt_irrefl n)]
  · refine .inr ⟨flow.packet n, le_refl (n + 1), ?_⟩
    have : 0 < [flow.packet n].count (flow.packet n) :=
      List.count_pos_iff.mpr (List.mem_singleton_self _)
    exact Nat.add_pos_left this _
  · intro skb
    show entry.queued skb + _ =
      [flow.packet n].count skb + ([] : List Packet).count skb + entry.queued skb
    rw [List.count_nil]
    omega

/-- An expired packet is freed. -/
theorem RxEntry.Kept.processPkt_expired (kept : entry.Kept flow.iface n) {index : Nat}
    (old : index < n) (near : n < index + 2 ^ 13) (before : seqOf index < seqOf n) (timeUp : Bool) :
    let result := entry.processPkt timeUp (flow.packet index) (flow.seq index)
    Handled flow n entry index n result ∧ result.handed = [] := by
  intro result
  have notNext : entry.aggrNextSeq ≠ seqOf (flow.seq index) := by
    rw [flow.seqOf_seq, kept.next]
    exact Nat.ne_of_gt before
  have test : entry.aggrNextSeq > seqOf (flow.seq index) ∧
      entry.aggrNextSeq - seqOf (flow.seq index) < 2 ^ 13 := by
    rw [flow.seqOf_seq, kept.next]
    unfold seqOf at before ⊢
    omega
  have unfolded : result = ⟨entry, false, none, [], [flow.packet index]⟩ := by
    show entry.processPkt timeUp (flow.packet index) (flow.seq index) = _
    unfold RxEntry.processPkt
    rw [kept.valid, if_pos rfl, if_neg notNext, if_pos test]
  rw [unfolded]
  refine ⟨⟨le_refl n, by omega, kept, rfl, List.Pairwise.nil, ?_, ?_, ?_, .inl rfl, ?_⟩, rfl⟩
  · intro skb member
    cases member
  · intro dst
    cases dst
  · rw [if_pos old]
  · intro skb
    show entry.queued skb + _ =
      ([] : List Packet).count skb + [flow.packet index].count skb + entry.queued skb
    rw [List.count_nil]
    omega

/-- The end of a call that has queued its packet, after the queues are gone through. -/
def RxEntry.finish (timeUp : Bool) (freed : List Packet)
    (drained : Dequeue × Bool × Option Packet) :
    Result :=
  if drained.2.1 then ⟨drained.1.entry, true, drained.2.2, drained.1.forwarded, freed⟩
  else if drained.1.entry.timeout timeUp then
    ⟨drained.1.entry.recover.1, false, none, drained.1.forwarded, freed ++
      drained.1.entry.expiredPkts⟩
  else ⟨drained.1.entry, false, none, drained.1.forwarded, freed⟩

/-- A packet after the expected one is queued. -/
theorem RxEntry.Kept.processPkt_queues (kept : entry.Kept flow.iface n) {index : Nat}
    (future : n < index) (near : index < n + 2 ^ 13) (timeUp : Bool)
    (queues : (entry.queuePkt (flow.packet index) (flow.seq index)).dst = false) :
    entry.processPkt timeUp (flow.packet index) (flow.seq index) =
      RxEntry.finish timeUp (entry.queuePkt (flow.packet index) (flow.seq index)).freed
        (entry.queuePkt (flow.packet index) (flow.seq index)).entry.dequeuePkts := by
  have notNext : entry.aggrNextSeq ≠ seqOf (flow.seq index) := by
    rw [flow.seqOf_seq, kept.next]
    unfold seqOf
    omega
  have test : ¬(entry.aggrNextSeq > seqOf (flow.seq index) ∧
      entry.aggrNextSeq - seqOf (flow.seq index) < 2 ^ 13) := by
    rw [flow.seqOf_seq, kept.next]
    unfold seqOf
    omega
  unfold RxEntry.processPkt
  rw [kept.valid, if_pos rfl, if_neg notNext, if_neg test]
  simp only [queues, Bool.false_eq_true, if_false]
  rfl

/-- A packet has been queued, and the queues have been gone through. -/
structure Progress (flow : Flow) (n : Nat) (entry : RxEntry) (index m : Nat)
    (queued : RxEntry) (l : Nat) (work : RxEntry) (handed : List Packet) : Prop where
  future : n < index
  near : index < n + 2 ^ 13
  le : n ≤ m
  lt : m < n + 2 ^ 13
  sameIfs : queued.numIfs = entry.numIfs
  balance : ∀ skb, queued.queued skb = entry.queued skb + [flow.packet index].count skb
  drained : Drained flow.iface m queued l work handed
  bound : l ≤ m + 2

section Progress

variable {index m l : Nat} {queued work : RxEntry} {handed : List Packet}

/-- How the call ends decides only where the receiver goes on. -/
theorem Progress.handled (progress : Progress flow n entry index m queued l work handed)
    {out : Result} {k : Nat} (isHanded : out.handed = handed) (kept : out.entry.Kept flow.iface k)
    (ifs : out.entry.numIfs = work.numIfs) (since : l ≤ k) (till : k < n + 2 ^ 14)
    (noneFreed : out.freed = []) (same : ∀ skb, out.entry.queued skb = work.queued skb)
    (withPacket : out.dst = true → out.skb ≠ none)
    (reached : ∃ skb, k ≤ skb.index + 1 ∧ 0 < out.handed.count skb + out.entry.queued skb) :
    Handled flow n entry index k out := by
  obtain ⟨future, -, le, -, sameIfs, balance, drained, -⟩ := progress
  have further := drained.le
  obtain ⟨order, range⟩ := pairwise_of_indices drained.indices
  refine ⟨by omega, till, kept, (ifs.trans drained.numIfs).trans sameIfs, isHanded ▸ order, ?_,
    withPacket, ?_, .inr reached, ?_⟩
  · intro other member
    have := range other (isHanded ▸ member)
    omega
  · rw [noneFreed, if_neg (by omega)]
  · intro other
    rw [← balance, drained.balance, isHanded, noneFreed, same]
    simp

/-- What is still queued was queued before, or is the packet. -/
theorem Progress.wasQueued (progress : Progress flow n entry index m queued l work handed)
    {skb : Packet} (stillQueued : 0 < work.queued skb) :
        0 < entry.queued skb + [flow.packet index].count skb := by
  rw [← progress.balance, progress.drained.balance]
  omega

/-- What is still queued is not far ahead. -/
theorem Progress.till (progress : Progress flow n entry index m queued l work handed)
    (kept : entry.Kept flow.iface n) {skb : Packet} (stillQueued : 0 < work.queued skb) :
    skb.index < n + 2 ^ 14 := by
  have near := progress.near
  have was := progress.wasQueued stillQueued
  by_cases new : skb ∈ [flow.packet index]
  · rw [List.mem_singleton.mp new]
    show index < _
    omega
  · rw [List.count_eq_zero_of_not_mem new] at was
    obtain ⟨j, other, otherMember, rfl⟩ := RxEntry.queued_pos.mp was
    have before := ((kept.lane j).window other otherMember).2
    omega

/-- What goes through the queues leaves no gap. -/
theorem Progress.gapless (progress : Progress flow n entry index m queued l work handed)
    (gapless : queued.Gapless flow n) : work.Gapless flow l := by
  obtain ⟨-, -, le, -, -, -, drained, -⟩ := progress
  have further := drained.le
  intro i buffer member between after before same
  have inWork : 0 < work.queued buffer.skb := RxEntry.queued_pos.mpr ⟨i, buffer, member, rfl⟩
  have inQueued : 0 < queued.queued buffer.skb := by
    rw [drained.balance]
    omega
  obtain ⟨j, other, otherMember, isBuffer⟩ := RxEntry.queued_pos.mp inQueued
  have queuedBetween := gapless j other otherMember between (le_trans le (le_trans further after))
    (by rw [isBuffer]; exact before) (by rw [isBuffer]; exact same)
  rw [drained.balance] at queuedBetween
  have notHanded : handed.count (flow.packet between) = 0 := by
    rw [List.count_eq_zero]
    intro isMember
    have : between < l := ((pairwise_of_indices drained.indices).2 _ isMember).2
    omega
  omega

/-- The call returns a packet. -/
theorem Progress.returns {forwarded : List Packet} {out : Packet}
    (progress : Progress flow n entry index m queued l work (forwarded ++ [out])) :
    Handled flow n entry index l ⟨work, true, some out, forwarded, []⟩ := by
  have further := progress.drained.le
  have bound := progress.bound
  have lt := progress.lt
  have range := (pairwise_of_indices progress.drained.indices).2
  have isLast : out ∈ forwarded ++ [out] := List.mem_append_right _ (List.mem_singleton_self _)
  have some : l - 1 ∈ (forwarded ++ [out]).map Packet.index := by
    have inRange := range out isLast
    rw [progress.drained.indices, List.mem_range'_1]
    omega
  obtain ⟨last, member, isEnd⟩ := List.mem_map.mp some
  refine progress.handled rfl progress.drained.kept rfl (le_refl l) (by omega) rfl (fun _ => rfl)
    (fun _ none => by cases none) ⟨last, by omega, ?_⟩
  exact Nat.add_pos_left (List.count_pos_iff.mpr member) _

/-- The receiver recovers from a gap: it goes on with the first packet that is queued. -/
theorem Progress.recovers (progress : Progress flow n entry index m queued l work handed)
    (kept : entry.Kept flow.iface n) (busy : work.Busy) :
    ∃ k, Handled flow n entry index k ⟨work.recover.1, false, none, handed, work.expiredPkts⟩ := by
  obtain ⟨k, since, ⟨i, first, inWork, isFirst⟩, recovered, keptAfter⟩ :=
    progress.drained.kept.recover busy
  have till : k < n + 2 ^ 14 :=
    isFirst ▸ progress.till kept (RxEntry.queued_pos.mpr ⟨i, first, inWork, rfl⟩)
  obtain ⟨other, reached, isQueued⟩ := keptAfter.reached busy
  rw [recovered, (progress.drained.kept.resetQueues).2]
  refine ⟨k, progress.handled (List.append_nil _) keptAfter rfl since till rfl (fun _ => rfl) ?_
    ⟨other, reached, Nat.add_pos_right _ isQueued⟩⟩
  intro dst
  cases dst

/-- The receiver waits. -/
theorem Progress.waits (progress : Progress flow n entry index m queued l work handed)
    (busy : work.Busy) :
    Handled flow n entry index l ⟨work, false, none, handed, []⟩ := by
  have bound := progress.bound
  have lt := progress.lt
  obtain ⟨other, reached, isQueued⟩ := progress.drained.kept.reached busy
  refine progress.handled (List.append_nil _) progress.drained.kept rfl (le_refl l) (by omega) rfl
    (fun _ => rfl) ?_ ⟨other, reached, Nat.add_pos_right _ isQueued⟩
  intro dst
  cases dst

end Progress

/-- A packet after the expected one is queued, and what is next by then is handed over. -/
theorem RxEntry.Kept.processPkt_future (kept : entry.Kept flow.iface n)
    (numIfs : entry.numIfs = flow.numIfs) {index : Nat} (future : n < index)
    (near : index < n + 2 ^ 13)
    (later : ∀ i, ∀ buffer ∈ (entry.hyfiIfaceInfo i).skbAggrQ,
      buffer.skb.ifindex = flow.iface index → buffer.skb.index < index) (timeUp : Bool) :
    let result := entry.processPkt timeUp (flow.packet index) (flow.seq index)
    ∃ m, Handled flow n entry index m result ∧
      (timeUp = false → (∀ i, (entry.hyfiIfaceInfo i).pktCnt < maxQueueLen) →
        (∀ after : RxEntry,
          (∀ skb, after.queued skb = entry.queued skb + [flow.packet index].count skb) →
          after.Gapless flow n) →
        result.handed.map Packet.index = List.range' n (m - n)) := by
  intro result
  obtain ⟨m, le, lt, keptQueued, busy, sameIfs, dst, forwarded, freed, balance, room⟩ :=
    kept.queuePkt numIfs index ⟨by omega, near⟩ later
  have unfolded : result = _ := kept.processPkt_queues future near timeUp dst
  rw [freed] at unfolded
  generalize entry.queuePkt (flow.packet index) (flow.seq index) = queued at *
  obtain ⟨l, handed, forwards, drained, bound, packet, stop⟩ :=
    RxEntry.Kept.dequeueLoop ⟨queued.entry, reordFlushQuota, []⟩ keptQueued
      (by show 0 < reordFlushQuota; decide) busy (le_refl _)
  have start : queued.entry.dequeuePkts =
      Hyfi.dequeueLoop reordFlushQuota ⟨queued.entry, reordFlushQuota, []⟩ := rfl
  rw [← start] at forwards drained packet stop
  generalize queued.entry.dequeuePkts = dequeued at *
  obtain ⟨work, back, skb⟩ := dequeued
  dsimp only [RxEntry.finish] at forwards drained packet stop unfolded
  rw [List.nil_append] at forwards
  have progress : Progress flow n entry index m queued.entry l work.entry
      (handed ++ returned (some (back, skb))) :=
    ⟨future, near, le, lt, sameIfs, balance, drained, bound⟩
  cases back with
  | true =>
    obtain ⟨out, rfl⟩ := packet rfl
    rw [if_pos rfl, forwards] at unfolded
    rw [unfolded]
    refine ⟨l, progress.returns, fun _ full _ => ?_⟩
    rw [← room full]
    exact drained.indices
  | false =>
    obtain ⟨stillBusy, others⟩ := stop rfl
    have none : handed ++ returned (some (false, skb)) = handed := List.append_nil handed
    rw [none] at progress
    rw [if_neg Bool.false_ne_true, forwards, List.nil_append] at unfolded
    by_cases timeout : work.entry.timeout timeUp = true
    · rw [if_pos timeout] at unfolded
      rw [unfolded]
      obtain ⟨k, handled⟩ := progress.recovers kept stillBusy
      refine ⟨k, handled, fun notUp full gapless => ?_⟩
      have notAll := progress.drained.kept.not_all_valid
        ((progress.drained.numIfs.trans sameIfs).trans numIfs)
        (progress.gapless (gapless queued.entry balance)) others
      rw [notUp, notAll] at timeout
      cases timeout
    · rw [if_neg timeout] at unfolded
      rw [unfolded]
      refine ⟨l, progress.waits stillBusy, fun _ full _ => ?_⟩
      rw [← room full]
      exact (congrArg _ (List.append_nil handed)).trans progress.drained.indices

/-- **What one packet does.** If nothing is wrong (the time is not up, no queue is full, and no
interface has left out a packet), consecutive packets are handed over. -/
theorem RxEntry.Kept.processPkt (kept : entry.Kept flow.iface n)
    (numIfs : entry.numIfs = flow.numIfs) {index : Nat}
    (window : n < index + 2 ^ 13 ∧ index < n + 2 ^ 13) (inTime : index < n → seqOf index < seqOf n)
    (later : ∀ i, ∀ buffer ∈ (entry.hyfiIfaceInfo i).skbAggrQ,
      buffer.skb.ifindex = flow.iface index → buffer.skb.index < index) (timeUp : Bool) :
    let result := entry.processPkt timeUp (flow.packet index) (flow.seq index)
    ∃ m, Handled flow n entry index m result ∧
      (timeUp = false → (∀ i, (entry.hyfiIfaceInfo i).pktCnt < maxQueueLen) →
        (∀ after : RxEntry,
          (∀ skb, after.queued skb = entry.queued skb + [flow.packet index].count skb) →
          after.Gapless flow n) →
        result.handed.map Packet.index = List.range' n (m - n)) := by
  rcases lt_trichotomy index n with old | rfl | future
  · obtain ⟨handled, isHanded⟩ := kept.processPkt_expired old window.1 (inTime old) timeUp
    refine ⟨n, handled, fun _ _ _ => ?_⟩
    rw [isHanded, Nat.sub_self]
    rfl
  · obtain ⟨handled, isHanded⟩ := kept.processPkt_expected later timeUp
    refine ⟨index + 1, handled, fun _ _ _ => ?_⟩
    rw [isHanded, Nat.add_sub_cancel_left]
    rfl
  · exact kept.processPkt_future numIfs future window.2 later timeUp

/-! ### Runs -/

/-- A packet of the flow that arrives, and whether the time stamp is too old by then. -/
structure Arrival where
  index : Nat
  timeUp : Bool

/-- A run: the receiver, the number that it expects before that is cut to 14 bits, and what became
of the packets. In one call the expected number moves on by less than `2^14`. -/
structure History where
  entry : RxEntry
  expected : Nat
  arrived : List Packet
  handed : List Packet
  freed : List Packet

/-- The call of `hyfi_aggr_process_pkt` for an arrival. -/
def History.result (flow : Flow) (history : History) (arrival : Arrival) : Result :=
  history.entry.processPkt arrival.timeUp (flow.packet arrival.index) (flow.seq arrival.index)

def History.arrive (flow : Flow) (history : History) (arrival : Arrival) : History :=
  let result := history.result flow arrival
  ⟨result.entry,
    history.expected + (result.entry.aggrNextSeq + 2 ^ 14 - history.entry.aggrNextSeq) % 2 ^ 14,
    history.arrived ++ [flow.packet arrival.index], history.handed ++ result.handed,
    history.freed ++ result.freed⟩

/-- A flow whose first packet to arrive is the one with this number. -/
def History.start (flow : Flow) (first : Nat) : History :=
    ⟨.initEntry (flow.seq first), 0, [], [], []⟩

def History.run (flow : Flow) (history : History) (arrivals : List Arrival) : History :=
  arrivals.foldl (History.arrive flow) history

/-- Every arrival follows the rule. -/
def History.Along (flow : Flow) (rule : History → Arrival → Prop) (history : History) :
    List Arrival → Prop
  | [] => True
  | arrival :: arrivals => rule history arrival ∧
    History.Along flow rule (history.arrive flow arrival) arrivals

/-- An interface delivers in order, and fewer than `2^13` packets are outstanding: from the packet
that arrives to every one that has arrived, and after the last packet that was handed over up to the
one that arrives. -/
structure History.Allowed (flow : Flow) (history : History) (arrival : Arrival) : Prop where
  inOrder : ∀ skb ∈ history.arrived, skb.ifindex = flow.iface arrival.index →
    skb.index < arrival.index
  late : ∀ skb ∈ history.arrived, skb.index + 1 < arrival.index + 2 ^ 13
  ahead : arrival.index + 1 < 2 ^ 13 ∨ ∃ skb ∈ history.handed, arrival.index < skb.index + 2 ^ 13

/-- The packet is not a late one from before the numbers came round. -/
def History.InTime (history : History) (arrival : Arrival) : Prop :=
  arrival.index < history.expected → seqOf arrival.index < seqOf history.expected

/-- Nothing goes wrong: the time is not up, no queue is full, and the interface has left out no
packet. -/
structure History.Undisturbed (flow : Flow) (history : History) (arrival : Arrival) : Prop where
  notUp : arrival.timeUp = false
  room : ∀ i, (history.entry.hyfiIfaceInfo i).pktCnt < maxQueueLen
  complete : ∀ index < arrival.index, flow.iface index = flow.iface arrival.index →
    flow.packet index ∈ history.arrived

/-- What holds after every arrival. -/
structure History.Ordered (flow : Flow) (history : History) : Prop where
  kept : history.entry.Kept flow.iface history.expected
  numIfs : history.entry.numIfs = flow.numIfs
  order : history.handed.Pairwise fun earlier later => earlier.index < later.index
  below : ∀ skb ∈ history.handed, skb.index < history.expected
  balance : ∀ skb, history.arrived.count skb =
    history.handed.count skb + history.freed.count skb + history.entry.queued skb
  packets : ∀ skb ∈ history.arrived, skb = flow.packet skb.index
  reached : history.expected = 0 ∨ ∃ skb ∈ history.arrived, history.expected ≤ skb.index + 1

/-- What holds as long as nothing goes wrong. -/
structure History.Lossless (flow : Flow) (history : History) : Prop where
  freed : history.freed = []
  handed : history.handed.map Packet.index = List.range history.expected
  complete : ∀ skb ∈ history.arrived, ∀ index < skb.index, flow.iface index = flow.iface skb.index →
    flow.packet index ∈ history.arrived

variable {history : History}

theorem History.start_ordered (flow : Flow) (first : Nat) :
    (History.start flow first).Ordered flow := by
  have few := flow.few
  refine ⟨⟨rfl, rfl, fun _ => Lane.empty 0, ?_, ?_, fun _ _ => rfl⟩, ?_, List.Pairwise.nil,
    ?_, ?_, ?_, ?_⟩
  · intro _ _ member
    cases member
  · exact fun _ _ _ used => absurd rfl used
  · show flow.seq first / 2 ^ 14 % 4 = flow.numIfs
    unfold Flow.seq seqOf
    omega
  · intro _ member
    cases member
  · intro skb
    have none : (History.start flow first).entry.queued skb = 0 := Finset.sum_eq_zero fun _ _ => rfl
    rw [none]
    rfl
  · intro _ member
    cases member
  · exact .inl rfl

theorem History.start_lossless (flow : Flow) (first : Nat) :
    (History.start flow first).Lossless flow :=
  ⟨rfl, rfl, fun _ member => by cases member⟩

/-- A queued packet has arrived. -/
theorem History.Ordered.arrived (ordered : history.Ordered flow) {i : Fin 3} {buffer : SkbBuffer}
    (member : buffer ∈ (history.entry.hyfiIfaceInfo i).skbAggrQ) :
        buffer.skb ∈ history.arrived := by
  rw [← List.count_pos_iff, ordered.balance]
  have := RxEntry.queued_pos.mpr ⟨i, buffer, member, rfl⟩
  omega

/-- What the call for an arrival does. -/
theorem History.Ordered.result (ordered : history.Ordered flow) {arrival : Arrival}
    (allowed : history.Allowed flow arrival) (inTime : history.InTime arrival) :
    ∃ m, Handled flow history.expected history.entry arrival.index m (history.result flow arrival) ∧
      (history.arrive flow arrival).expected = m ∧
      (arrival.timeUp = false → (∀ i, (history.entry.hyfiIfaceInfo i).pktCnt < maxQueueLen) →
        (∀ after : RxEntry,
          (∀ skb, after.queued skb = history.entry.queued skb +
            [flow.packet arrival.index].count skb) →
          after.Gapless flow history.expected) →
        (history.result flow arrival).handed.map Packet.index =
          List.range' history.expected (m - history.expected)) := by
  have window : history.expected < arrival.index + 2 ^ 13 ∧ arrival.index <
      history.expected + 2 ^ 13 := by
    constructor
    · rcases ordered.reached with zero | ⟨skb, member, reached⟩
      · omega
      · have := allowed.late skb member
        omega
    · rcases allowed.ahead with few | ⟨skb, member, ahead⟩
      · omega
      · have := ordered.below skb member
        omega
  obtain ⟨m, handled, consecutive⟩ := ordered.kept.processPkt ordered.numIfs window inTime
    (fun i buffer member => allowed.inOrder _ (ordered.arrived member)) arrival.timeUp
  refine ⟨m, handled, ?_, consecutive⟩
  show history.expected + ((history.result flow arrival).entry.aggrNextSeq + 2 ^ 14 -
    history.entry.aggrNextSeq) % 2 ^ 14 = m
  have le := handled.le
  have lt := handled.lt
  have next : (history.result flow arrival).entry.aggrNextSeq = seqOf m := handled.kept.next
  rw [next, ordered.kept.next]
  unfold seqOf
  omega

/-- **Every arrival keeps the order and the balance.** -/
theorem History.Ordered.arrive (ordered : history.Ordered flow) {arrival : Arrival}
    (allowed : history.Allowed flow arrival) (inTime : history.InTime arrival) :
    (history.arrive flow arrival).Ordered flow := by
  obtain ⟨m, handled, expected, -⟩ := ordered.result allowed inTime
  have le := handled.le
  refine ⟨?_, handled.numIfs.trans ordered.numIfs, ?_, ?_, ?_, ?_, ?_⟩
  · rw [expected]
    exact handled.kept
  · refine List.pairwise_append.mpr ⟨ordered.order, handled.order, ?_⟩
    intro earlier isEarlier later isLater
    exact lt_of_lt_of_le (ordered.below earlier isEarlier) (handled.range later isLater).1
  · intro skb member
    rw [expected]
    rcases List.mem_append.mp member with old | new
    · exact lt_of_lt_of_le (ordered.below skb old) le
    · exact (handled.range skb new).2
  · intro skb
    have before := ordered.balance skb
    have now := handled.balance skb
    show (history.arrived ++ _).count skb = (history.handed ++ _).count skb +
      (history.freed ++ _).count skb + _
    rw [List.count_append, List.count_append, List.count_append]
    show _ = _ + _ + (history.result flow arrival).entry.queued skb
    omega
  · intro skb member
    rcases List.mem_append.mp member with old | new
    · exact ordered.packets skb old
    · rw [List.mem_singleton.mp new]
      rfl
  · rw [expected]
    rcases handled.reached with same | ⟨skb, reached, isThere⟩
    · rw [same]
      exact ordered.reached.imp_right fun ⟨skb, member, reached⟩ =>
        ⟨skb, List.mem_append_left _ member, reached⟩
    · refine .inr ⟨skb, ?_, reached⟩
      have before := ordered.balance skb
      have now := handled.balance skb
      show skb ∈ history.arrived ++ [flow.packet arrival.index]
      rw [← List.count_pos_iff, List.count_append]
      omega

/-- **As long as nothing goes wrong, no packet is freed**, and the packets that were handed over are
the first ones of the flow. -/
theorem History.Lossless.arrive (lossless : history.Lossless flow) (ordered : history.Ordered flow)
    {arrival : Arrival} (allowed : history.Allowed flow arrival) (inTime : history.InTime arrival)
    (undisturbed : history.Undisturbed flow arrival) :
        (history.arrive flow arrival).Lossless flow := by
  obtain ⟨m, handled, expected, consecutive⟩ := ordered.result allowed inTime
  have le := handled.le
  have complete : ∀ skb ∈ history.arrived ++ [flow.packet arrival.index], ∀ index < skb.index,
      flow.iface index = flow.iface skb.index → flow.packet index ∈ history.arrived := by
    intro skb member index before same
    rcases List.mem_append.mp member with old | new
    · exact lossless.complete skb old index before same
    · rw [List.mem_singleton.mp new] at before same
      exact undisturbed.complete index before same
  have gapless : ∀ after : RxEntry,
      (∀ skb, after.queued skb = history.entry.queued skb + [flow.packet arrival.index].count skb) →
      after.Gapless flow history.expected := by
    intro after queued i buffer member index from_ before same
    have inAfter : 0 < after.queued buffer.skb := RxEntry.queued_pos.mpr ⟨i, buffer, member, rfl⟩
    have isArrived : buffer.skb ∈ history.arrived ++ [flow.packet arrival.index] := by
      rw [queued] at inAfter
      rw [← List.count_pos_iff, List.count_append, ordered.balance]
      omega
    have wasArrived := complete buffer.skb isArrived index before same
    rw [← List.count_pos_iff, ordered.balance, lossless.freed] at wasArrived
    have notHanded : history.handed.count (flow.packet index) = 0 := by
      rw [List.count_eq_zero]
      intro isHanded
      have : index < history.expected := ordered.below _ isHanded
      omega
    rw [notHanded, List.count_nil] at wasArrived
    rw [queued]
    omega
  have indices := consecutive undisturbed.notUp undisturbed.room gapless
  refine ⟨?_, ?_, ?_⟩
  · have notOld : ¬arrival.index < history.expected := by
      intro old
      have inRange : arrival.index ∈ history.handed.map Packet.index := by
        rw [lossless.handed]
        exact List.mem_range.mpr old
      obtain ⟨skb, isHanded, sameIndex⟩ := List.mem_map.mp inRange
      have isArrived : skb ∈ history.arrived := by
        rw [← List.count_pos_iff, ordered.balance]
        have := List.count_pos_iff.mpr isHanded
        omega
      have isPacket := ordered.packets skb isArrived
      have := allowed.inOrder skb isArrived (by rw [isPacket, sameIndex]; rfl)
      omega
    show history.freed ++ (history.result flow arrival).freed = []
    rw [handled.freed, if_neg notOld, lossless.freed]
    rfl
  · show (history.handed ++ (history.result flow arrival).handed).map Packet.index = List.range _
    rw [List.map_append, lossless.handed, indices, expected, List.range_eq_range',
      List.range_eq_range']
    have whole := @List.range'_append 0 history.expected (m - history.expected) 1
    rw [Nat.zero_add, Nat.one_mul] at whole
    rw [whole]
    congr 1
    omega
  · intro skb member index before same
    exact List.mem_append_left _ (complete skb member index before same)

theorem History.along_append {rule : History → Arrival → Prop} {before after : List Arrival} :
    history.Along flow rule (before ++ after) ↔
      history.Along flow rule before ∧ (history.run flow before).Along flow rule after := by
  induction before generalizing history with
  | nil => exact ⟨fun along => ⟨trivial, along⟩, fun along => along.2⟩
  | cons arrival before ih =>
    simp only [List.cons_append, History.Along, ih]
    exact and_assoc.symm

/-- Every arrival is allowed and in time. -/
def History.Legal (flow : Flow) (history : History) (arrivals : List Arrival) : Prop :=
  history.Along flow (fun history arrival => history.Allowed flow arrival ∧
    history.InTime arrival) arrivals

theorem History.Ordered.run (ordered : history.Ordered flow) {arrivals : List Arrival}
    (legal : history.Legal flow arrivals) : (history.run flow arrivals).Ordered flow := by
  induction arrivals generalizing history with
  | nil => exact ordered
  | cons arrival arrivals ih =>
    obtain ⟨⟨allowed, inTime⟩, legal⟩ := legal
    exact ih (ordered.arrive allowed inTime) legal

theorem History.Lossless.run (lossless : history.Lossless flow) (ordered : history.Ordered flow)
    {arrivals : List Arrival} (legal : history.Legal flow arrivals)
    (undisturbed : history.Along flow (History.Undisturbed flow) arrivals) :
    (history.run flow arrivals).Lossless flow := by
  induction arrivals generalizing history with
  | nil => exact lossless
  | cons arrival arrivals ih =>
    obtain ⟨⟨allowed, inTime⟩, legal⟩ := legal
    obtain ⟨now, later⟩ := undisturbed
    exact ih (lossless.arrive ordered allowed inTime now)
      (ordered.arrive allowed inTime) legal later

/-- **Aggregated packets leave the receiver in order**, in every run in which no late packet from
before the numbers came round arrives. Each arrival is handed over, freed or queued exactly once; a
destination comes with a packet; and if nothing goes wrong, no packet is freed. -/
theorem order_restored (flow : Flow) (first : Nat) {arrivals : List Arrival}
    (legal : (History.start flow first).Legal flow arrivals) :
    let history := (History.start flow first).run flow arrivals
    (history.handed.Pairwise fun earlier later => earlier.index < later.index) ∧
      (∀ skb, history.arrived.count skb =
        history.handed.count skb + history.freed.count skb + history.entry.queued skb) ∧
      (∀ before arrival after, arrivals = before ++ arrival :: after →
        let result := ((History.start flow first).run flow before).result flow arrival
        result.dst = true → result.skb ≠ none) ∧
      ((History.start flow first).Along flow (History.Undisturbed flow) arrivals →
          history.freed = []) := by
  have start := History.start_ordered flow first
  have ordered := start.run legal
  refine ⟨ordered.order, ordered.balance, ?_, ?_⟩
  · rintro before arrival after rfl
    obtain ⟨legal, ⟨allowed, inTime⟩, -⟩ := History.along_append.mp legal
    obtain ⟨m, handled, -⟩ := (start.run legal).result allowed inTime
    exact handled.packet
  · intro undisturbed
    exact ((History.start_lossless flow first).run start legal undisturbed).freed

/-! ### Fixed runs -/

instance (history : History) (arrival : Arrival) : Decidable (history.Allowed flow arrival) :=
  decidable_of_iff
    ((∀ skb ∈ history.arrived, skb.ifindex = flow.iface arrival.index → skb.index < arrival.index) ∧
    (∀ skb ∈ history.arrived, skb.index + 1 < arrival.index + 2 ^ 13) ∧
    (arrival.index + 1 < 2 ^ 13 ∨ ∃ skb ∈ history.handed, arrival.index < skb.index + 2 ^ 13))
    ⟨fun ⟨inOrder, late, ahead⟩ => ⟨inOrder, late, ahead⟩, fun ⟨inOrder, late, ahead⟩ =>
      ⟨inOrder, late, ahead⟩⟩

instance (history : History) (arrival : Arrival) : Decidable (history.InTime arrival) :=
  inferInstanceAs (Decidable (_ → _))

instance decidableAlong (flow : Flow) (rule : History → Arrival → Prop)
    [∀ history, DecidablePred (rule history)] :
    (history : History) → (arrivals : List Arrival) → Decidable (history.Along flow rule arrivals)
  | _, [] => isTrue trivial
  | history, arrival :: arrivals =>
    have := decidableAlong flow rule (history.arrive flow arrival) arrivals
    inferInstanceAs
    (Decidable (rule history arrival ∧
      History.Along flow rule (history.arrive flow arrival) arrivals))

/-- A flow over two interfaces, that is about to come round. -/
def wrapping : Flow where
  iface index := if index < 16384 ∨ index = 16386 then 1 else 2
  devices := {1, 2}
  numIfs := 2
  few := by decide
  enough := by decide
  member index := by split_ifs <;> decide
  range := by decide

/-- The packets 1 and 0 of a flow, in this order. -/
theorem order_restored_two :
    (((History.start ⟨fun index => index % 2 + 1, {1, 2}, 2, by decide, by decide,
      fun index => by rcases Nat.mod_two_eq_zero_or_one index with even | odd <;>
      simp [*], by decide⟩ 1).run
        ⟨fun index => index % 2 + 1, {1, 2}, 2, by decide, by decide,
          fun index => by rcases Nat.mod_two_eq_zero_or_one index with even | odd <;>
          simp [*], by decide⟩
        [⟨1, false⟩, ⟨0, false⟩, ⟨2, false⟩]).handed.Pairwise fun earlier later =>
            earlier.index < later.index) :=
  (order_restored _ 1 (by show History.Along _ _ _ _; decide +kernel)).1

/-- The first packets of a flow, in order. -/
def firstArrivals (count : Nat) : List Arrival := (List.range count).map fun index => ⟨index, false⟩

theorem run_firstArrivals (flow : Flow) (count : Nat) :
    let packets := (List.range count).map flow.packet
    let start := History.start flow 0
    start.Along flow (History.Allowed flow) (firstArrivals count) ∧
      start.run flow (firstArrivals count) =
        ⟨{ start.entry with aggrNextSeq := seqOf count }, count, packets, packets, []⟩ := by
  induction count with
  | zero => exact ⟨trivial, rfl⟩
  | succ count ih =>
    intro packets start
    obtain ⟨along, run⟩ := ih
    have split : firstArrivals (count + 1) = firstArrivals count ++ [⟨count, false⟩] := by
      unfold firstArrivals
      rw [List.range_succ, List.map_append]
      rfl
    have last : packets = (List.range count).map flow.packet ++ [flow.packet count] := by
      show (List.range (count + 1)).map flow.packet = _
      rw [List.range_succ, List.map_append]
      rfl
    have result : (start.run flow (firstArrivals count)).result flow ⟨count, false⟩ =
        ⟨{ start.entry with aggrNextSeq := seqOf (count + 1) }, true, some (flow.packet count),
            [], []⟩ := by
      rw [run]
      have number : seqOf count = seqOf (flow.seq count) := (flow.seqOf_seq count).symm
      show RxEntry.processPkt { start.entry with aggrNextSeq := seqOf count } _ _ _ = _
      unfold RxEntry.processPkt
      rw [if_pos
        (show ({ start.entry with aggrNextSeq := seqOf count } : RxEntry).nextSeqValid = true
          from rfl),
        if_pos (show ({ start.entry with aggrNextSeq := seqOf count } : RxEntry).aggrNextSeq =
          seqOf (flow.seq count) from number)]
      show (⟨{ start.entry with aggrNextSeq := seqOf (seqOf count + 1) }, true, _, [], []⟩ :
        Result) = _
      rw [seqOf_succ]
    rw [split]
    refine ⟨History.along_append.mpr ⟨along, ?_, trivial⟩, ?_⟩
    · rw [run]
      have before : ∀ skb ∈ (List.range count).map flow.packet, skb.index < count := by
        intro skb member
        obtain ⟨index, inRange, rfl⟩ := List.mem_map.mp member
        exact List.mem_range.mp inRange
      refine ⟨fun skb member _ => before skb member, ?_, ?_⟩
      · intro skb member
        have : skb.index < count := before skb member
        show skb.index + 1 < count + 2 ^ 13
        omega
      · show count + 1 < 2 ^ 13 ∨ ∃ skb ∈ (List.range count).map flow.packet,
          count < skb.index + 2 ^ 13
        by_cases zero : count = 0
        · exact .inl (by omega)
        · refine .inr ⟨flow.packet (count - 1), List.mem_map_of_mem (List.mem_range.mpr (by omega)),
            ?_⟩
          show count < count - 1 + 2 ^ 13
          omega
    · have step : start.run flow (firstArrivals count ++ [⟨count, false⟩]) =
          (start.run flow (firstArrivals count)).arrive flow ⟨count, false⟩ := List.foldl_append
      rw [step]
      unfold History.arrive
      rw [result, run, last]
      have next : count + (seqOf (count + 1) + 2 ^ 14 - seqOf count) % 2 ^ 14 = count + 1 := by
        unfold seqOf
        omega
      simp only [next, List.append_nil]
      rfl

/-- A history with an earlier one before it. -/
def History.prepend (earlier history : History) : History :=
  { history with
    arrived := earlier.arrived ++ history.arrived
    handed := earlier.handed ++ history.handed
    freed := earlier.freed ++ history.freed }

/-- An earlier history of packets that all come before, and that left fewer than `2^13` outstanding,
changes nothing. -/
theorem History.prepend_run (earlier : History) {arrivals : List Arrival}
    (before : ∀ skb ∈ earlier.arrived, ∀ arrival ∈ arrivals, skb.index < arrival.index)
    (ahead : ∀ arrival ∈ arrivals, ∃ skb ∈ earlier.handed, arrival.index < skb.index + 2 ^ 13)
    (along : history.Along flow (fun history arrival => ∀ skb ∈ history.arrived,
      (skb.ifindex = flow.iface arrival.index → skb.index < arrival.index) ∧
        skb.index + 1 < arrival.index + 2 ^ 13) arrivals) :
    (earlier.prepend history).Along flow (History.Allowed flow) arrivals ∧
      (earlier.prepend history).run flow arrivals = earlier.prepend
          (history.run flow arrivals) := by
  induction arrivals generalizing history with
  | nil => exact ⟨trivial, rfl⟩
  | cons arrival arrivals ih =>
    obtain ⟨allowed, along⟩ := along
    have step : (earlier.prepend history).arrive flow arrival =
        earlier.prepend (history.arrive flow arrival) := by
      simp only [History.arrive, History.prepend, History.result, List.append_assoc]
    obtain ⟨rest, run⟩ :=
      ih (fun skb member later inRest => before skb member later (List.mem_cons_of_mem _ inRest))
      (fun later inRest => ahead later (List.mem_cons_of_mem _ inRest)) along
    refine ⟨⟨⟨?_, ?_, ?_⟩, step ▸ rest⟩, ?_⟩
    · intro skb member same
      rcases List.mem_append.mp member with old | new
      · exact before skb old arrival List.mem_cons_self
      · exact (allowed skb new).1 same
    · intro skb member
      rcases List.mem_append.mp member with old | new
      · have := before skb old arrival List.mem_cons_self
        omega
      · exact (allowed skb new).2
    · obtain ⟨skb, member, near⟩ := ahead arrival List.mem_cons_self
      exact .inr ⟨skb, List.mem_append_left _ member, near⟩
    · show ((earlier.prepend history).arrive flow arrival).run flow arrivals = _
      rw [step, run]
      rfl

/-- A run that comes to such a history goes on as the later part does on its own. -/
theorem History.continue_prepend {first : Nat} {old arrivals : List Arrival}
    {earlier late : History}
    (oldAlong : (History.start flow first).Along flow (History.Allowed flow) old)
    (reached : (History.start flow first).run flow old = earlier.prepend late)
    (before : ∀ skb ∈ earlier.arrived, ∀ arrival ∈ arrivals, skb.index < arrival.index)
    (ahead : ∀ arrival ∈ arrivals, ∃ skb ∈ earlier.handed, arrival.index < skb.index + 2 ^ 13)
    (along : late.Along flow (fun history arrival => ∀ skb ∈ history.arrived,
      (skb.ifindex = flow.iface arrival.index → skb.index < arrival.index) ∧
        skb.index + 1 < arrival.index + 2 ^ 13) arrivals) :
    (History.start flow first).Along flow (History.Allowed flow) (old ++ arrivals) ∧
      ((History.start flow first).run flow (old ++ arrivals)).handed =
        earlier.handed ++ (late.run flow arrivals).handed := by
  obtain ⟨rest, run⟩ := History.prepend_run earlier before ahead along
  refine ⟨History.along_append.mpr ⟨oldAlong, ?_⟩, ?_⟩
  · rw [reached]
    exact rest
  · have joined : (History.start flow first).run flow (old ++ arrivals) =
        ((History.start flow first).run flow old).run flow arrivals := List.foldl_append
    rw [joined, reached, run]
    rfl

/-- The last of the arrivals that hand over packets in disorder. The packet 16380 comes late. -/
def lateArrivals : List Arrival :=
  [⟨16384, true⟩, ⟨16380, false⟩, ⟨16386, true⟩, ⟨16385, false⟩, ⟨16387, true⟩, ⟨16388, false⟩]

/-- **A late packet from before the numbers came round disorders the flow**: it is queued, its
number stays with the queue when it is freed, and a recovery goes on with this number. -/
theorem disordered_across_wrap :
    ¬∀ (flow : Flow) (first : Nat) (arrivals : List Arrival),
      (History.start flow first).Along flow (History.Allowed flow) arrivals →
        ((History.start flow first).run flow arrivals).handed.Pairwise fun earlier later =>
          earlier.index < later.index := by
  intro ordered
  -- kept apart from its value, so that no step computes with the list of all the packets
  obtain ⟨count, isCount⟩ : ∃ count, count = 16380 := ⟨_, rfl⟩
  obtain ⟨along, run⟩ := run_firstArrivals wrapping count
  let late : History :=
    ⟨{ (History.start wrapping 0).entry with aggrNextSeq := seqOf 16380 }, 16380, [], [], []⟩
  have lateAlong : late.Along wrapping (fun history arrival => ∀ skb ∈ history.arrived,
      (skb.ifindex = wrapping.iface arrival.index → skb.index < arrival.index) ∧
        skb.index + 1 < arrival.index + 2 ^ 13) lateArrivals := by decide +kernel
  have lateHanded : (late.run wrapping lateArrivals).handed.map Packet.index =
      [16384, 16386, 16385] := by
    decide +kernel
  have large : ∀ arrival ∈ lateArrivals, 16380 ≤ arrival.index ∧ arrival.index ≤ 16388 := by decide
  have before : ∀ skb ∈ (List.range count).map wrapping.packet, ∀ arrival ∈ lateArrivals,
      skb.index < arrival.index := by
    intro skb member arrival isLate
    obtain ⟨index, inRange, rfl⟩ := List.mem_map.mp member
    have small : index < count := List.mem_range.mp inRange
    have := large arrival isLate
    show index < arrival.index
    omega
  have ahead : ∀ arrival ∈ lateArrivals, ∃ skb ∈ (List.range count).map wrapping.packet,
      arrival.index < skb.index + 2 ^ 13 := by
    intro arrival isLate
    refine ⟨wrapping.packet (count - 1), List.mem_map_of_mem (List.mem_range.mpr (by omega)), ?_⟩
    have := large arrival isLate
    show arrival.index < count - 1 + 2 ^ 13
    omega
  have joined : (History.start wrapping 0).run wrapping (firstArrivals count) =
      (History.mk late.entry 0 ((List.range count).map wrapping.packet)
        ((List.range count).map wrapping.packet) []).prepend late := by
    rw [run, isCount]
    simp only [History.prepend, List.append_nil, late]
  obtain ⟨allowed, handed⟩ := History.continue_prepend along joined before ahead lateAlong
  have disorder := ordered wrapping 0 (firstArrivals count ++ lateArrivals) allowed
  rw [handed] at disorder
  have lateOrder := (List.pairwise_append.mp disorder).2.1
  have indices : ([16384, 16386, 16385] : List Nat).Pairwise (· < ·) := by
    rw [← lateHanded]
    exact List.pairwise_map.mpr lateOrder
  revert indices
  decide

end Qsdk.Hyfi
