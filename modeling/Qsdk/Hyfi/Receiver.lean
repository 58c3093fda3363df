/-
**What the functions of the receiver keep.**

A packet has one interface, so it can be in one queue only, and taking the expected packet from a
queue leaves later ones in all of them. Handing over goes on without a gap (`Drained`): dequeuing
hands over consecutive packets, and a recovery hands over nothing and moves the expected number to
the first packet that is queued.
-/

import Qsdk.Hyfi.Lanes
import Mathlib.Algebra.BigOperators.Group.Finset.Basic

namespace Qsdk.Hyfi

/-- The queues of a receiver that expects the packet `n`. `iface` is the interface of every packet
of the flow. -/
structure RxEntry.Kept (iface : Nat → Nat) (n : Nat) (entry : RxEntry) : Prop where
  valid : entry.nextSeqValid = true
  next : entry.aggrNextSeq = seqOf n
  lane : ∀ i, Lane n (entry.hyfiIfaceInfo i)
  home : ∀ i, ∀ buffer ∈ (entry.hyfiIfaceInfo i).skbAggrQ, iface buffer.skb.index =
    buffer.skb.ifindex
  apart : ∀ i j, (entry.hyfiIfaceInfo i).ifindex = (entry.hyfiIfaceInfo j).ifindex →
    (entry.hyfiIfaceInfo i).ifindex ≠ 0 → i = j
  unused : ∀ i : Fin 3, entry.numIfs ≤ i.val → (entry.hyfiIfaceInfo i).skbAggrQ = []

/-- How many times a packet is queued. -/
def RxEntry.queued (entry : RxEntry) (skb : Packet) : Nat :=
  ∑ i, ((entry.hyfiIfaceInfo i).skbAggrQ.map SkbBuffer.skb).count skb

/-- Some queue has a packet. -/
def RxEntry.Busy (entry : RxEntry) : Prop := ∃ i ∈ entry.ifaces,
    (entry.hyfiIfaceInfo i).skbAggrQ ≠ []

theorem RxEntry.mem_ifaces {entry : RxEntry} {i : Fin 3} : i ∈ entry.ifaces ↔
    i.val < entry.numIfs := by
  unfold RxEntry.ifaces
  simp

variable {iface : Nat → Nat} {n : Nat} {entry : RxEntry}

@[simp]
theorem RxEntry.setInfo_self (entry : RxEntry) (i : Fin 3) (info : RxInfo) :
    (entry.setInfo i info).hyfiIfaceInfo i = info :=
  Function.update_self _ _ _

theorem RxEntry.setInfo_of_ne {i j : Fin 3} (info : RxInfo) (different : j ≠ i) :
    (entry.setInfo i info).hyfiIfaceInfo j = entry.hyfiIfaceInfo j :=
    Function.update_of_ne different _ _

/-- A queue with a packet is one that the loops visit. -/
theorem RxEntry.Kept.visited (kept : entry.Kept iface n) {i : Fin 3}
    (some : (entry.hyfiIfaceInfo i).skbAggrQ ≠ []) : i ∈ entry.ifaces := by
  rw [RxEntry.mem_ifaces]
  by_contra outside
  exact some (kept.unused i (by omega))

theorem RxEntry.Kept.morePackets (kept : entry.Kept iface n) : entry.morePackets = true ↔
    entry.Busy := by
  unfold RxEntry.morePackets RxEntry.Busy
  rw [List.any_eq_true]
  refine exists_congr fun i => and_congr_right fun _ => ?_
  have lane := kept.lane i
  rw [Bool.and_eq_true, lane.valid, decide_eq_true_eq, lane.count]
  constructor
  · exact fun both => both.2
  · exact fun some => ⟨by simpa using some, some⟩

/-- A packet is queued once. -/
theorem RxEntry.Kept.unique (kept : entry.Kept iface n) {i j : Fin 3} {buffer other : SkbBuffer}
    (member : buffer ∈ (entry.hyfiIfaceInfo i).skbAggrQ)
    (otherMember : other ∈ (entry.hyfiIfaceInfo j).skbAggrQ)
    (same : buffer.skb.index = other.skb.index) : i = j := by
  have lane := kept.lane i
  refine kept.apart i j ?_ ?_
  · rw [← lane.dev buffer member, ← (kept.lane j).dev other otherMember, ← kept.home i
      buffer member,
      ← kept.home j other otherMember, same]
  · rw [Ne, lane.free]
    exact List.ne_nil_of_mem member

/-- A queue is replaced by another one for the same interface, for none, or for one that no other
queue has. -/
theorem RxEntry.Kept.setInfo (kept : entry.Kept iface n) {i : Fin 3} {info : RxInfo}
    (lane : Lane n info) (home : ∀ buffer ∈ info.skbAggrQ, iface buffer.skb.index =
      buffer.skb.ifindex)
    (apart : ∀ j, j ≠ i → (entry.hyfiIfaceInfo j).ifindex = info.ifindex → info.ifindex = 0)
    (visited : i ∈ entry.ifaces) : (entry.setInfo i info).Kept iface n := by
  have own := entry.setInfo_self i info
  have others : ∀ j, j ≠ i → (entry.setInfo i info).hyfiIfaceInfo j = entry.hyfiIfaceInfo j :=
    fun j different => RxEntry.setInfo_of_ne info different
  refine ⟨kept.valid, kept.next, ?_, ?_, ?_, ?_⟩
  · intro j
    by_cases same : j = i
    · rw [same, own]
      exact lane
    · rw [others j same]
      exact kept.lane j
  · intro j
    by_cases same : j = i
    · rw [same, own]
      exact home
    · rw [others j same]
      exact kept.home j
  · intro j k equal some
    by_cases isJ : j = i
    · by_cases isK : k = i
      · rw [isJ, isK]
      · rw [isJ, own] at equal some
        rw [others k isK] at equal
        exact absurd (apart k isK equal.symm) some
    · rw [others j isJ] at equal some
      by_cases isK : k = i
      · rw [isK, own] at equal
        exact absurd (equal.trans (apart j isJ equal)) some
      · rw [others k isK] at equal
        exact kept.apart j k equal some
  · intro j outside
    have different : j ≠ i := by
      rintro rfl
      have := RxEntry.mem_ifaces.mp visited
      have : entry.numIfs ≤ j.val := outside
      omega
    rw [others j different]
    exact kept.unused j outside

theorem RxEntry.queued_setInfo (entry : RxEntry) (i : Fin 3) (info : RxInfo) (skb : Packet) :
    (entry.setInfo i info).queued skb +
    ((entry.hyfiIfaceInfo i).skbAggrQ.map SkbBuffer.skb).count skb =
      entry.queued skb + (info.skbAggrQ.map SkbBuffer.skb).count skb := by
  have others : ∑ j ∈ Finset.univ.erase i, (((entry.setInfo i info).hyfiIfaceInfo j).skbAggrQ.map
      SkbBuffer.skb).count skb =
        ∑ j ∈ Finset.univ.erase i,
            ((entry.hyfiIfaceInfo j).skbAggrQ.map SkbBuffer.skb).count skb := by
    refine Finset.sum_congr rfl fun j member => ?_
    rw [RxEntry.setInfo_of_ne info (Finset.ne_of_mem_erase member)]
  unfold RxEntry.queued
  rw [← Finset.add_sum_erase _ _ (Finset.mem_univ i), ← Finset.add_sum_erase
    _ _ (Finset.mem_univ i), others, RxEntry.setInfo_self]
  omega

/-- The expected number moves on, past no packet that is queued. -/
theorem RxEntry.Kept.advance (kept : entry.Kept iface n) {m : Nat} (le : n ≤ m)
    (after : ∀ i, ∀ buffer ∈ (entry.hyfiIfaceInfo i).skbAggrQ, m ≤ buffer.skb.index) :
    { entry with aggrNextSeq := seqOf m }.Kept iface m :=
  { kept with next := rfl, lane := fun i => (kept.lane i).advance le (after i) }

theorem seqOf_succ (n : Nat) : seqOf (seqOf n + 1) = seqOf (n + 1) := by
  unfold seqOf
  omega

/-! ### Dequeuing -/

/-- From one entry to another, consecutive packets are handed over, from the expected one on. -/
structure Drained (iface : Nat → Nat) (n : Nat) (entry : RxEntry) (m : Nat) (after : RxEntry)
    (handed : List Packet) : Prop where
  kept : after.Kept iface m
  numIfs : after.numIfs = entry.numIfs
  indices : handed.map Packet.index = List.range' n (m - n)
  le : n ≤ m
  balance : ∀ skb, entry.queued skb = handed.count skb + after.queued skb

theorem Drained.refl (kept : entry.Kept iface n) : Drained iface n entry n entry [] :=
  ⟨kept, rfl, by simp, le_refl n, fun _ => by simp⟩

theorem Drained.trans {m l : Nat} {middle last : RxEntry} {first second : List Packet}
    (drained : Drained iface n entry m middle first) (more : Drained iface m middle l last second) :
    Drained iface n entry l last (first ++ second) := by
  have le := drained.le
  have moreLe := more.le
  refine ⟨more.kept, more.numIfs.trans drained.numIfs, ?_, le_trans le moreLe, ?_⟩
  · have split : l - n = (m - n) + (l - m) := by omega
    have start : m = n + 1 * (m - n) := by omega
    rw [List.map_append, drained.indices, more.indices, split]
    conv_lhs => rw [start]
    rw [show n + 1 * (m - n) - n = m - n by omega, show l - (n + 1 * (m - n)) = l - m by omega]
    exact List.range'_append
  · intro skb
    rw [drained.balance, more.balance, List.count_append]
    omega

/-- **What is taken from a queue for its number is the expected packet.** -/
theorem RxEntry.Kept.pop (kept : entry.Kept iface n) {i : Fin 3} {buffer : SkbBuffer}
    {rest : List SkbBuffer}
    (queue : (entry.hyfiIfaceInfo i).skbAggrQ = buffer :: rest)
    (expected : (entry.hyfiIfaceInfo i).seq = entry.aggrNextSeq) :
    Drained iface n entry (n + 1)
      { entry.setInfo i ((entry.hyfiIfaceInfo i).pop rest)
        with aggrNextSeq := seqOf (entry.aggrNextSeq + 1) }
      [buffer.skb] := by
  have lane := kept.lane i
  have member : buffer ∈ (entry.hyfiIfaceInfo i).skbAggrQ := queue ▸ List.mem_cons_self
  have head : (entry.hyfiIfaceInfo i).seq = buffer.pktSeq := lane.head buffer (by rw [queue]; rfl)
  have isNext : buffer.skb.index = n := by
    refine seqOf_inj (lane.window buffer member) ?_
    rw [← lane.seq buffer member, ← head, expected, kept.next]
  obtain ⟨popped, left, ifindex⟩ := lane.pop queue
  have sub : ∀ other ∈ rest, other ∈ (entry.hyfiIfaceInfo i).skbAggrQ :=
    fun other inRest => queue ▸ List.mem_cons_of_mem _ inRest
  have keptPopped : (entry.setInfo i ((entry.hyfiIfaceInfo i).pop rest)).Kept iface n := by
    refine kept.setInfo popped ?_ ?_ (kept.visited (List.ne_nil_of_mem member))
    · rw [left]
      exact fun other inRest => kept.home i other (sub other inRest)
    · intro j different same
      by_contra some
      rcases ifindex with unchanged | none
      · rw [unchanged] at same some
        exact different (kept.apart j i same (same ▸ some))
      · exact some none
  have later : ∀ j,
    ∀ other ∈ ((entry.setInfo i ((entry.hyfiIfaceInfo i).pop rest)).hyfiIfaceInfo j).skbAggrQ,
      n + 1 ≤ other.skb.index := by
    intro j other inQueue
    have window := (keptPopped.lane j).window other inQueue
    have different : other.skb.index ≠ n := by
      intro same
      by_cases own : j = i
      · subst own
        have inRest : other ∈ rest := by
          rw [RxEntry.setInfo_self, left] at inQueue
          exact inQueue
        have sorted := lane.sorted
        rw [queue] at sorted
        have order := (List.pairwise_cons.mp sorted).1 other inRest
        omega
      · rw [RxEntry.setInfo_of_ne _ own] at inQueue
        exact own (kept.unique inQueue member (same.trans isNext.symm))
    omega
  refine ⟨?_, rfl, ?_, Nat.le_succ n, ?_⟩
  · have moved := keptPopped.advance (Nat.le_succ n) later
    rw [kept.next, seqOf_succ]
    exact moved
  · simp [isNext]
  · intro skb
    have balance := entry.queued_setInfo i ((entry.hyfiIfaceInfo i).pop rest) skb
    rw [left, queue, List.map_cons, List.count_cons] at balance
    rw [List.count_singleton]
    show entry.queued skb = _ + (entry.setInfo i ((entry.hyfiIfaceInfo i).pop rest)).queued skb
    omega

/-- What a pass or the whole of `hyfi_aggr_dequeue_pkts` returns to be handed over. -/
def returned (result : Option (Bool × Option Packet)) : List Packet :=
  match result with
  | some (true, some skb) => [skb]
  | _ => []

/-- A pass that has found a packet says so. -/
theorem dequeuePass_found (work : Dequeue) (more : List (Fin 3)) :
    (dequeuePass work true more).2.2 = true := by
  induction more generalizing work with
  | nil => rfl
  | cons i more ih =>
    rw [dequeuePass]
    dsimp only
    split_ifs
    · split
      · rfl
      · split_ifs
        · rfl
        · exact ih _
    · exact ih work

/-- **A pass over the queues hands over consecutive packets.** It returns only with a packet; if it
does not, there is quota left and some queue has a packet. If it finds nothing, it leaves everything
as it is, and no queue that it visits has the expected packet in front. -/
theorem RxEntry.Kept.dequeuePass {work : Dequeue} (kept : work.entry.Kept iface n)
    (quota : 0 < work.quota)
    (busy : work.entry.Busy) (found : Bool) (more : List (Fin 3)) :
    ∃ m forwarded, (dequeuePass work found more).1.forwarded = work.forwarded ++ forwarded ∧
      Drained iface n work.entry m (dequeuePass work found more).1.entry
        (forwarded ++ returned (dequeuePass work found more).2.1) ∧
      m + (dequeuePass work found more).1.quota = n + work.quota ∧
      (∀ result, (dequeuePass work found more).2.1 = some result →
        ∃ skb, result = (true, some skb)) ∧
      ((dequeuePass work found more).2.1 = none →
        0 < (dequeuePass work found more).1.quota ∧ (dequeuePass work found more).1.entry.Busy ∧
        ((dequeuePass work found more).2.2 = true → found = true ∨ n < m) ∧
        ((dequeuePass work found more).2.2 = false → (dequeuePass work found more).1 = work ∧
          ∀ i ∈ more, (work.entry.hyfiIfaceInfo i).seqValid = true →
            (work.entry.hyfiIfaceInfo i).seq ≠ work.entry.aggrNextSeq)) := by
  induction more generalizing work n found with
  | nil =>
    refine ⟨n, [], (List.append_nil _).symm, Drained.refl kept, rfl, ?_, ?_⟩
    · rintro result ⟨⟩
    · exact fun _ => ⟨quota, busy, fun isFound => .inl isFound, fun _ =>
        ⟨rfl, fun i member => by cases member⟩⟩
  | cons i more ih =>
    have lane := kept.lane i
    by_cases matched : (work.entry.hyfiIfaceInfo i).pktCnt ≠ 0 ∧
      (work.entry.hyfiIfaceInfo i).seqValid = true ∧
        (work.entry.hyfiIfaceInfo i).seq = work.entry.aggrNextSeq
    · obtain ⟨buffer, rest, queue⟩ := List.exists_cons_of_ne_nil (lane.valid.mp matched.2.1)
      have popped := kept.pop queue matched.2.2
      generalize entryIs : ({ work.entry.setInfo i ((work.entry.hyfiIfaceInfo i).pop rest) with
        aggrNextSeq := seqOf (work.entry.aggrNextSeq + 1) } : RxEntry) = entry at popped
      by_cases last : work.quota - 1 = 0 ∨ entry.morePackets = false
      · have result : Hyfi.dequeuePass work found (i :: more) =
            (⟨entry, work.quota - 1, work.forwarded⟩, some (true, some buffer.skb), true) := by
          rw [Hyfi.dequeuePass]
          simp only [matched, queue, entryIs, last, if_true, ne_eq, not_false_eq_true, and_self]
        rw [result]
        refine ⟨n + 1, [], (List.append_nil _).symm, popped, ?_, ?_, ?_⟩
        · show n + 1 + (work.quota - 1) = n + work.quota
          omega
        · rintro _ ⟨⟩
          exact ⟨buffer.skb, rfl⟩
        · intro none
          cases none
      · have result : Hyfi.dequeuePass work found (i :: more) =
            Hyfi.dequeuePass ⟨entry, work.quota - 1, work.forwarded ++ [buffer.skb]⟩ true more := by
          rw [Hyfi.dequeuePass]
          simp only [matched, queue, entryIs, last, if_true, if_false, ne_eq,
            not_false_eq_true, and_self]
        obtain ⟨notLast, anyMore⟩ := not_or.mp last
        have stillBusy : entry.Busy := popped.kept.morePackets.mp (by simpa using anyMore)
        obtain ⟨m, forwarded, forwards, drained, used, returns, goesOn⟩ :=
          @ih (n + 1) ⟨entry, work.quota - 1, work.forwarded ++ [buffer.skb]⟩ popped.kept
            (Nat.pos_of_ne_zero notLast) stillBusy true
        rw [result]
        refine ⟨m, buffer.skb :: forwarded, ?_, popped.trans drained, ?_, returns, ?_⟩
        · rw [forwards, List.append_assoc]
          rfl
        · rw [used]
          show n + 1 + (work.quota - 1) = n + work.quota
          omega
        · intro none
          obtain ⟨left, busy, -, nothing⟩ := goesOn none
          refine ⟨left, busy, fun _ => .inr drained.le, ?_⟩
          intro notFound
          obtain ⟨same, -⟩ := nothing notFound
          rw [dequeuePass_found] at notFound
          cases notFound
    · have result : Hyfi.dequeuePass work found (i :: more) = Hyfi.dequeuePass work found more := by
        rw [Hyfi.dequeuePass]
        simp only [matched, if_false]
      obtain ⟨m, forwarded, forwards, drained, used, returns, goesOn⟩ := ih kept quota busy found
      rw [result]
      refine ⟨m, forwarded, forwards, drained, used, returns, ?_⟩
      intro none
      obtain ⟨left, busy, isFound, nothing⟩ := goesOn none
      refine ⟨left, busy, isFound, ?_⟩
      intro notFound
      obtain ⟨same, others⟩ := nothing notFound
      refine ⟨same, ?_⟩
      intro j member valid equal
      rcases List.mem_cons.mp member with rfl | inMore
      · refine matched ⟨?_, valid, equal⟩
        rw [lane.count]
        have := List.length_pos_of_ne_nil (lane.valid.mp valid)
        omega
      · exact others j inMore valid equal

/-- **Dequeuing hands over consecutive packets**, from the expected one on. Unless it returns a
packet, some queue has one, and no queue has the expected packet in front. -/
theorem RxEntry.Kept.dequeueLoop (work : Dequeue) (kept : work.entry.Kept iface n)
    (quota : 0 < work.quota) (busy : work.entry.Busy) {passes : Nat}
    (enough : work.quota ≤ passes) :
    ∃ m forwarded, (dequeueLoop passes work).1.forwarded = work.forwarded ++ forwarded ∧
      Drained iface n work.entry m (dequeueLoop passes work).1.entry
        (forwarded ++ returned (some (dequeueLoop passes work).2)) ∧
      m ≤ n + work.quota ∧
      ((dequeueLoop passes work).2.1 = true → ∃ skb, (dequeueLoop passes work).2.2 = some skb) ∧
      ((dequeueLoop passes work).2.1 = false → (dequeueLoop passes work).1.entry.Busy ∧
        ∀ i ∈ (dequeueLoop passes work).1.entry.ifaces,
          ((dequeueLoop passes work).1.entry.hyfiIfaceInfo i).seqValid = true →
            ((dequeueLoop passes work).1.entry.hyfiIfaceInfo i).seq ≠
              (dequeueLoop passes work).1.entry.aggrNextSeq) := by
  induction passes generalizing work n with
  | zero => omega
  | succ passes ih =>
    obtain ⟨m, forwarded, forwards, drained, used, returns, goesOn⟩ :=
      kept.dequeuePass quota busy false work.entry.ifaces
    rw [Hyfi.dequeueLoop]
    generalize Hyfi.dequeuePass work false work.entry.ifaces = pass at *
    obtain ⟨after, result, found⟩ := pass
    have moved := drained.le
    cases result with
    | some result =>
      obtain ⟨skb, rfl⟩ := returns result rfl
      refine ⟨m, forwarded, forwards, drained, by dsimp only at used; omega, fun _ =>
        ⟨skb, rfl⟩, ?_⟩
      intro dst
      cases dst
    | none =>
      obtain ⟨left, stillBusy, isFound, nothing⟩ := goesOn rfl
      dsimp only at forwards drained used left stillBusy isFound nothing
      simp only [returned, List.append_nil] at drained
      cases found with
      | true =>
        have further : n < m := (isFound rfl).resolve_left Bool.false_ne_true
        obtain ⟨l, more, moreForwards, moreDrained, bound, back, stop⟩ :=
          ih _ drained.kept left stillBusy (by omega)
        refine ⟨l, forwarded ++ more, ?_, ?_, by omega, back, stop⟩
        · show (Hyfi.dequeueLoop passes after).1.forwarded = _
          rw [moreForwards, forwards, List.append_assoc]
        · rw [List.append_assoc]
          exact drained.trans moreDrained
      | false =>
        obtain ⟨rfl, others⟩ := nothing rfl
        refine ⟨m, forwarded, forwards, by simpa [returned] using drained, by omega, ?_, fun _ =>
          ⟨stillBusy, others⟩⟩
        intro dst
        cases dst

/-! ### Recovery -/

/-- Resetting the queues does nothing. -/
theorem RxEntry.Kept.resetQueues (kept : entry.Kept iface n) :
    entry.resetQueues = entry ∧ entry.expiredPkts = [] := by
  refine ⟨?_, ?_⟩
  · have same : (fun i : Fin 3 => if i.val < entry.numIfs then
        (entry.hyfiIfaceInfo i).reset entry.aggrNextSeq else entry.hyfiIfaceInfo i) =
            entry.hyfiIfaceInfo := by
      funext i
      rw [kept.next, (kept.lane i).reset.1, ite_self]
    unfold RxEntry.resetQueues
    rw [same]
  · unfold RxEntry.expiredPkts
    rw [List.flatMap_eq_nil_iff]
    intro i _
    rw [kept.next, (kept.lane i).reset.2]
    rfl

/-- The distance that `closer` computes is the true one. -/
theorem RxEntry.Kept.distance (kept : entry.Kept iface n) {i : Fin 3} {buffer : SkbBuffer}
    (first : buffer ∈ (entry.hyfiIfaceInfo i).skbAggrQ.head?) :
    (if entry.aggrNextSeq > (entry.hyfiIfaceInfo i).seq then (entry.hyfiIfaceInfo i).seq + 2 ^ 14
      else (entry.hyfiIfaceInfo i).seq) - entry.aggrNextSeq = buffer.skb.index - n := by
  have lane := kept.lane i
  have member : buffer ∈ (entry.hyfiIfaceInfo i).skbAggrQ := List.mem_of_mem_head? first
  have window := lane.window buffer member
  rw [lane.head buffer first, lane.seq buffer member, kept.next]
  unfold seqOf
  split_ifs <;> omega

/-- What the search over some of the queues has found: the first packet of them all. -/
def Closest (entry : RxEntry) (n : Nat) (visited : List (Fin 3)) (best : Nat × Option Nat) : Prop :=
  (best.2 = none ∧ ∀ i ∈ visited, (entry.hyfiIfaceInfo i).skbAggrQ = []) ∨
    (best.2 = some (seqOf (n + best.1)) ∧
      (∃ i, ∃ buffer ∈ (entry.hyfiIfaceInfo i).skbAggrQ, buffer.skb.index = n + best.1) ∧
      ∀ i ∈ visited, ∀ buffer ∈ (entry.hyfiIfaceInfo i).skbAggrQ, n + best.1 ≤ buffer.skb.index)

theorem RxEntry.Kept.closer (kept : entry.Kept iface n) {visited : List (Fin 3)}
    {best : Nat × Option Nat} (closest : Closest entry n visited best)
    (start : best.2 = none → best.1 = 2 ^ 16 - 1) (i : Fin 3) :
    Closest entry n (visited ++ [i]) (entry.closer best i) ∧
      ((entry.closer best i).2 = none → (entry.closer best i).1 = 2 ^ 16 - 1) := by
  have lane := kept.lane i
  cases queue : (entry.hyfiIfaceInfo i).skbAggrQ with
  | nil =>
    have invalid : (entry.hyfiIfaceInfo i).seqValid = false := by
      rw [← Bool.not_eq_true, lane.valid, queue]
      exact fun some => some rfl
    have same : entry.closer best i = best := by
      unfold RxEntry.closer
      simp [invalid]
    rw [same]
    refine ⟨?_, start⟩
    rcases closest with ⟨none, empty⟩ | ⟨isSome, reached, after⟩
    · refine .inl ⟨none, ?_⟩
      intro j member
      rcases List.mem_append.mp member with old | new
      · exact empty j old
      · rw [List.mem_singleton.mp new]
        exact queue
    · refine .inr ⟨isSome, reached, ?_⟩
      intro j member buffer inQueue
      rcases List.mem_append.mp member with old | new
      · exact after j old buffer inQueue
      · rw [List.mem_singleton.mp new, queue] at inQueue
        cases inQueue
  | cons buffer rest =>
    have first : buffer ∈ (entry.hyfiIfaceInfo i).skbAggrQ.head? := by rw [queue]; rfl
    have member : buffer ∈ (entry.hyfiIfaceInfo i).skbAggrQ := queue ▸ List.mem_cons_self
    have window := lane.window buffer member
    have valid : (entry.hyfiIfaceInfo i).seqValid = true :=
      lane.valid.mpr (List.ne_nil_of_mem member)
    have distance := kept.distance first
    have number : (entry.hyfiIfaceInfo i).seq = seqOf buffer.skb.index :=
      (lane.head buffer first).trans (lane.seq buffer member)
    have behind : ∀ other ∈ (entry.hyfiIfaceInfo i).skbAggrQ, buffer.skb.index ≤
        other.skb.index := by
      intro other inQueue
      have sorted := lane.sorted
      rw [queue] at sorted inQueue
      rcases List.mem_cons.mp inQueue with rfl | inRest
      · exact le_refl _
      · exact le_of_lt ((List.pairwise_cons.mp sorted).1 other inRest)
    have unfolded : entry.closer best i = if buffer.skb.index - n ≤ best.1 then
        (buffer.skb.index - n, some (entry.hyfiIfaceInfo i).seq) else best := by
      unfold RxEntry.closer
      simp only [valid, if_true, distance]
    rw [unfolded]
    split_ifs with nearer
    · refine ⟨.inr ⟨?_, ?_, ?_⟩, fun none => by cases none⟩
      · rw [number]
        exact congrArg (fun index => some (seqOf index))
          (by show _ = n + (buffer.skb.index - n); omega)
      · refine ⟨i, buffer, member, ?_⟩
        show _ = n + (buffer.skb.index - n)
        omega
      · intro j inVisited other inQueue
        show n + (buffer.skb.index - n) ≤ _
        rcases List.mem_append.mp inVisited with old | new
        · rcases closest with ⟨-, empty⟩ | ⟨-, -, after⟩
          · rw [empty j old] at inQueue
            cases inQueue
          · have := after j old other inQueue
            omega
        · rw [List.mem_singleton.mp new] at inQueue
          have := behind other inQueue
          omega
    · refine ⟨?_, start⟩
      rcases closest with ⟨none, -⟩ | ⟨isSome, reached, after⟩
      · have := start none
        omega
      · refine .inr ⟨isSome, reached, ?_⟩
        intro j inVisited other inQueue
        rcases List.mem_append.mp inVisited with old | new
        · exact after j old other inQueue
        · rw [List.mem_singleton.mp new] at inQueue
          have := behind other inQueue
          omega

/-- **A recovery goes on with the first packet that is queued**, and frees none. -/
theorem RxEntry.Kept.recover (kept : entry.Kept iface n) (busy : entry.Busy) :
    ∃ m, n ≤ m ∧ (∃ i, ∃ buffer ∈ (entry.hyfiIfaceInfo i).skbAggrQ, buffer.skb.index = m) ∧
      entry.recover = ({ entry with aggrNextSeq := seqOf m }, true) ∧
      { entry with aggrNextSeq := seqOf m }.Kept iface m := by
  obtain ⟨same, -⟩ := kept.resetQueues
  have search : ∀ (more visited : List (Fin 3)) (best : Nat × Option Nat),
    Closest entry n visited best →
      (best.2 = none → best.1 = 2 ^ 16 - 1) →
          Closest entry n (visited ++ more) (more.foldl entry.closer best) := by
    intro more
    induction more with
    | nil =>
      intro visited best closest _
      rwa [List.append_nil]
    | cons i more ih =>
      intro visited best closest start
      obtain ⟨next, nextStart⟩ := kept.closer closest start i
      have all := ih _ _ next nextStart
      rwa [List.append_assoc] at all
  have closest := search entry.ifaces [] (2 ^ 16 - 1, none)
    (.inl ⟨rfl, fun _ member => by cases member⟩) fun _ => rfl
  rw [List.nil_append] at closest
  obtain ⟨i, visited, filled⟩ := busy
  rcases closest with ⟨-, empty⟩ | ⟨number, reached, after⟩
  · exact absurd (empty i visited) filled
  · generalize found : entry.ifaces.foldl entry.closer (2 ^ 16 - 1, none) =
      best at number reached after
    refine ⟨n + best.1, Nat.le_add_right _ _, reached, ?_, kept.advance (Nat.le_add_right _ _) ?_⟩
    · have next : entry.findNextSeq = some (seqOf (n + best.1)) := by
        unfold RxEntry.findNextSeq
        rw [found, number]
      unfold RxEntry.recover
      rw [same, next]
    · intro j buffer member
      exact after j (kept.visited (List.ne_nil_of_mem member)) buffer member

/-! ### Queuing -/

/-- A flow: the interface of each of its packets, and the number of interfaces that its packets
carry. There are no more interfaces than that, and an interface has an index of 16 bits. -/
structure Flow where
  iface : Nat → Nat
  devices : Finset Nat
  numIfs : Nat
  few : numIfs ≤ 3
  enough : devices.card ≤ numIfs
  member : ∀ index, iface index ∈ devices
  range : ∀ dev ∈ devices, 0 < dev ∧ dev < 2 ^ 16

/-- The packet of the flow with this number. -/
def Flow.packet (flow : Flow) (index : Nat) : Packet := ⟨index, flow.iface index⟩

/-- What the packet carries: its number and the number of interfaces. -/
def Flow.seq (flow : Flow) (index : Nat) : Nat := seqOf index + flow.numIfs * 2 ^ 14

theorem Flow.seqOf_seq (flow : Flow) (index : Nat) : seqOf (flow.seq index) = seqOf index := by
  unfold Flow.seq seqOf
  omega

variable {flow : Flow}

/-- The interface of a queue that is in use is one of the flow. -/
theorem RxEntry.Kept.device (kept : entry.Kept flow.iface n) {i : Fin 3}
    (used : (entry.hyfiIfaceInfo i).ifindex ≠ 0) : (entry.hyfiIfaceInfo i).ifindex ∈
        flow.devices := by
  have lane := kept.lane i
  obtain ⟨buffer, member⟩ := List.exists_mem_of_ne_nil _ fun empty => used (lane.free.mpr empty)
  rw [← lane.dev buffer member, ← kept.home i buffer member]
  exact flow.member _

/-- When every queue is in use, each interface of the flow has one. -/
theorem RxEntry.Kept.all_used (kept : entry.Kept flow.iface n) (numIfs : entry.numIfs = flow.numIfs)
    (used : ∀ i ∈ entry.ifaces, (entry.hyfiIfaceInfo i).ifindex ≠ 0) {dev : Nat}
    (member : dev ∈ flow.devices) :
    ∃ i ∈ entry.ifaces, (entry.hyfiIfaceInfo i).ifindex = dev := by
  by_contra none
  have few := flow.few
  have count : (Finset.univ.filter fun i : Fin 3 => i.val < flow.numIfs).card = flow.numIfs := by
    obtain numIfs | numIfs | numIfs | numIfs : flow.numIfs = 0 ∨ flow.numIfs = 1 ∨ flow.numIfs = 2 ∨
        flow.numIfs = 3 := by omega
    all_goals
      rw [numIfs]
      rfl
  have others : ((Finset.univ.filter fun i : Fin 3 => i.val < flow.numIfs).image fun i =>
      (entry.hyfiIfaceInfo i).ifindex) ⊆ flow.devices.erase dev := by
    intro ifindex isOne
    obtain ⟨i, visited, rfl⟩ := Finset.mem_image.mp isOne
    have inIfaces : i ∈ entry.ifaces :=
      RxEntry.mem_ifaces.mpr (numIfs ▸ (Finset.mem_filter.mp visited).2)
    refine Finset.mem_erase.mpr ⟨fun same => none ⟨i, inIfaces, same⟩,
      kept.device (used i inIfaces)⟩
  have injective : Set.InjOn (fun i => (entry.hyfiIfaceInfo i).ifindex)
      (Finset.univ.filter fun i : Fin 3 => i.val < flow.numIfs) := by
    intro i visited j _ same
    have inIfaces : i ∈ entry.ifaces :=
      RxEntry.mem_ifaces.mpr (numIfs ▸ (Finset.mem_filter.mp visited).2)
    exact kept.apart i j same (used i inIfaces)
  have card := Finset.card_le_card others
  rw [Finset.card_image_of_injOn injective, count, Finset.card_erase_of_mem member] at card
  have pos := Finset.card_pos.mpr ⟨dev, member⟩
  have enough := flow.enough
  omega

/-- There is a queue for every packet of the flow, and no other queue is that of its interface. -/
theorem RxEntry.Kept.findQueue (kept : entry.Kept flow.iface n)
    (numIfs : entry.numIfs = flow.numIfs) {dev : Nat} (member : dev ∈ flow.devices) :
    ∃ idx ∈ entry.ifaces, entry.findQueue dev = some idx ∧
      (dev = (entry.hyfiIfaceInfo idx).ifindex ∨ (entry.hyfiIfaceInfo idx).ifindex = 0) ∧
      ∀ j, j ≠ idx → (entry.hyfiIfaceInfo j).ifindex ≠ dev := by
  have range := flow.range dev member
  unfold RxEntry.findQueue
  cases own : entry.ifaces.find? fun i => (entry.hyfiIfaceInfo i).ifindex = dev with
  | some idx =>
    have isOwn : (entry.hyfiIfaceInfo idx).ifindex = dev := by simpa using List.find?_some own
    refine ⟨idx, List.mem_of_find?_eq_some own, rfl, .inl isOwn.symm, ?_⟩
    intro j different same
    exact different (kept.apart j idx (same.trans isOwn.symm) (by omega))
  | none =>
    have notOwn : ∀ j ∈ entry.ifaces, (entry.hyfiIfaceInfo j).ifindex ≠ dev := by
      intro j visited
      have := List.find?_eq_none.mp own j visited
      simpa using this
    have nowhere : ∀ j, (entry.hyfiIfaceInfo j).ifindex ≠ dev := by
      intro j same
      refine notOwn j (kept.visited fun empty => ?_) same
      have := (kept.lane j).free.mpr empty
      omega
    cases unused : entry.ifaces.find? fun i => (entry.hyfiIfaceInfo i).ifindex = 0 with
    | some idx =>
      have isFree : (entry.hyfiIfaceInfo idx).ifindex = 0 := by simpa using List.find?_some unused
      exact ⟨idx, List.mem_of_find?_eq_some unused, rfl, .inr isFree, fun j _ => nowhere j⟩
    | none =>
      have used : ∀ i ∈ entry.ifaces, (entry.hyfiIfaceInfo i).ifindex ≠ 0 := by
        intro i visited
        have := List.find?_eq_none.mp unused i visited
        simpa using this
      obtain ⟨i, visited, same⟩ := kept.all_used numIfs used member
      exact absurd same (notOwn i visited)

/-- **A later packet is queued.** Only a full queue makes the receiver go on with another packet
than the expected one. -/
theorem RxEntry.Kept.queuePkt (kept : entry.Kept flow.iface n) (numIfs : entry.numIfs = flow.numIfs)
    (index : Nat) (window : n ≤ index ∧ index < n + 2 ^ 13)
    (later : ∀ i, ∀ buffer ∈ (entry.hyfiIfaceInfo i).skbAggrQ,
      buffer.skb.ifindex = flow.iface index → buffer.skb.index < index) :
    let result := entry.queuePkt (flow.packet index) (flow.seq index)
    ∃ m, n ≤ m ∧ m < n + 2 ^ 13 ∧ result.entry.Kept flow.iface m ∧ result.entry.Busy ∧
      result.entry.numIfs = entry.numIfs ∧ result.dst = false ∧ result.forwarded = [] ∧
      result.freed = [] ∧
      (∀ skb, result.entry.queued skb = entry.queued skb + [flow.packet index].count skb) ∧
      ((∀ i, (entry.hyfiIfaceInfo i).pktCnt < maxQueueLen) → m = n) := by
  intro result
  have member : flow.iface index ∈ flow.devices := flow.member index
  obtain ⟨idx, visited, found, own, others⟩ := kept.findQueue numIfs member
  have lane := kept.lane idx
  have laneLater : ∀ buffer ∈ (entry.hyfiIfaceInfo idx).skbAggrQ, buffer.skb.index < index := by
    intro buffer inQueue
    refine later idx buffer inQueue ?_
    rcases own with same | unused
    · rw [lane.dev buffer inQueue, same]
    · rw [lane.free.mp unused] at inQueue
      cases inQueue
  obtain ⟨pushed, queue, ifindex⟩ := lane.push (flow.packet index) (flow.seqOf_seq index) window own
    (flow.range _ member) laneLater
  generalize infoIs : ((entry.hyfiIfaceInfo idx).assign (flow.packet index).ifindex).push
    ⟨seqOf (flow.seq index), flow.packet index⟩ = info at pushed queue ifindex
  have keptNext : (entry.setInfo idx info).Kept flow.iface n := by
    refine kept.setInfo pushed ?_ ?_ visited
    · rw [queue]
      intro buffer inQueue
      rcases List.mem_append.mp inQueue with old | new
      · exact kept.home idx buffer old
      · rw [List.mem_singleton.mp new]
        rfl
    · intro j different same
      rw [ifindex] at same
      exact absurd same (others j different)
  have busy : (entry.setInfo idx info).Busy := by
    refine ⟨idx, visited, ?_⟩
    rw [RxEntry.setInfo_self, queue]
    simp
  have balance : ∀ skb, (entry.setInfo idx info).queued skb =
      entry.queued skb + [flow.packet index].count skb := by
    intro skb
    have sum := entry.queued_setInfo idx info skb
    rw [queue, List.map_append, List.count_append] at sum
    have new :
      List.count skb (List.map SkbBuffer.skb [⟨seqOf (flow.seq index), flow.packet index⟩]) =
        [flow.packet index].count skb := rfl
    omega
  have unfolded : result = if info.pktCnt > maxQueueLen then
      ⟨(entry.setInfo idx info).recover.1, !(entry.setInfo idx info).recover.2, none, [],
        (entry.setInfo idx info).expiredPkts⟩
      else ⟨entry.setInfo idx info, false, none, [], []⟩ := by
    show entry.queuePkt (flow.packet index) (flow.seq index) = _
    have foundPacket : entry.findQueue (flow.packet index).ifindex = some idx := found
    unfold RxEntry.queuePkt
    rw [foundPacket]
    simp only [infoIs]
  rw [unfolded]
  split_ifs with full
  · obtain ⟨m, le, ⟨i, buffer, inQueue, isFirst⟩, recovered, keptAfter⟩ := keptNext.recover busy
    rw [recovered, keptNext.resetQueues.2]
    refine ⟨m, le, isFirst ▸ ((keptNext.lane i).window buffer inQueue).2, keptAfter, busy, rfl, rfl,
      rfl, rfl, balance, ?_⟩
    intro room
    have count := pushed.count
    rw [queue, List.length_append, ← lane.count] at count
    have := room idx
    have : [(⟨seqOf (flow.seq index), flow.packet index⟩ : SkbBuffer)].length = 1 := rfl
    omega
  · exact ⟨n, le_refl n, by omega, keptNext, busy, rfl, rfl, rfl, rfl, balance, fun _ => rfl⟩

end Qsdk.Hyfi
