/-
**The queues of the receiver, by the numbers before they are cut.**

As long as every queued packet lies within `2^13` packets after the expected one (`Lane.window`), a
14-bit number says which packet it is. So the packet that is taken from a queue is the expected one,
nothing is expired when the queues are reset, and the number that a recovery goes on with is that of
the first packet that is queued.
-/

import Qsdk.Hyfi.Aggr
import Mathlib.Algebra.BigOperators.Fin
import Mathlib.Data.List.Range

namespace Qsdk.Hyfi

/-! ### One queue -/

/-- A queue holds packets of its interface in their order, none of them before the expected packet
`n`, and its other fields tell of them. -/
structure Lane (n : Nat) (info : RxInfo) : Prop where
  count : info.pktCnt = info.skbAggrQ.length
  seq : ∀ buffer ∈ info.skbAggrQ, buffer.pktSeq = seqOf buffer.skb.index
  dev : ∀ buffer ∈ info.skbAggrQ, buffer.skb.ifindex = info.ifindex
  window : ∀ buffer ∈ info.skbAggrQ, n ≤ buffer.skb.index ∧ buffer.skb.index < n + 2 ^ 13
  sorted : info.skbAggrQ.Pairwise fun earlier later => earlier.skb.index < later.skb.index
  valid : info.seqValid = true ↔ info.skbAggrQ ≠ []
  head : ∀ buffer ∈ info.skbAggrQ.head?, info.seq = buffer.pktSeq
  free : info.ifindex = 0 ↔ info.skbAggrQ = []

variable {n : Nat} {info : RxInfo}

theorem Lane.empty (n : Nat) : Lane n ⟨0, false, 0, [], 0⟩ := by
  constructor <;> simp

/-- A queue without its head. -/
theorem Lane.pop (lane : Lane n info) {buffer : SkbBuffer} {rest : List SkbBuffer}
    (queue : info.skbAggrQ = buffer :: rest) :
    Lane n (info.pop rest) ∧ (info.pop rest).skbAggrQ = rest ∧
      ((info.pop rest).ifindex = info.ifindex ∨ (info.pop rest).ifindex = 0) := by
  obtain ⟨count, seq, dev, window, sorted, valid, head, free⟩ := lane
  rw [queue] at count seq dev window sorted valid head free
  cases rest with
  | nil => exact ⟨by constructor <;> simp [RxInfo.pop], rfl, .inr rfl⟩
  | cons next rest =>
    refine ⟨⟨?_, ?_, ?_, ?_, ?_, ?_, ?_, ?_⟩, rfl, .inl rfl⟩
    · show info.pktCnt - 1 = (next :: rest).length
      rw [count]
      rfl
    · exact fun other member => seq other (List.mem_cons_of_mem _ member)
    · exact fun other member => dev other (List.mem_cons_of_mem _ member)
    · exact fun other member => window other (List.mem_cons_of_mem _ member)
    · exact (List.pairwise_cons.mp sorted).2
    · show info.seqValid = true ↔ next :: rest ≠ []
      rw [valid]
      simp
    · rintro other ⟨⟩
      rfl
    · show info.ifindex = 0 ↔ next :: rest = []
      rw [free]
      simp

/-- A queue with one more packet, that comes after the others. -/
theorem Lane.push (lane : Lane n info) (skb : Packet) {seq : Nat}
    (number : seqOf seq = seqOf skb.index) (window : n ≤ skb.index ∧ skb.index < n + 2 ^ 13)
    (dev : skb.ifindex = info.ifindex ∨ info.ifindex = 0)
    (range : 0 < skb.ifindex ∧ skb.ifindex < 2 ^ 16)
    (later : ∀ buffer ∈ info.skbAggrQ, buffer.skb.index < skb.index) :
    Lane n ((info.assign skb.ifindex).push ⟨seqOf seq, skb⟩) ∧
      ((info.assign skb.ifindex).push ⟨seqOf seq, skb⟩).skbAggrQ = info.skbAggrQ ++
      [⟨seqOf seq, skb⟩] ∧
      ((info.assign skb.ifindex).push ⟨seqOf seq, skb⟩).ifindex = skb.ifindex := by
  have cut : skb.ifindex % 2 ^ 16 = skb.ifindex := Nat.mod_eq_of_lt range.2
  by_cases own : info.ifindex = skb.ifindex
  · have assigned : info.assign skb.ifindex = info := if_pos own
    rw [assigned]
    have some : info.skbAggrQ ≠ [] := by
      intro empty
      have := lane.free.mpr empty
      omega
    have counted : info.pktCnt + 1 ≠ 1 := by
      rw [lane.count]
      have := List.length_pos_of_ne_nil some
      omega
    refine ⟨⟨?_, ?_, ?_, ?_, ?_, ?_, ?_, ?_⟩, rfl, own⟩
    · show info.pktCnt + 1 = (info.skbAggrQ ++ [_]).length
      rw [lane.count, List.length_append]
      rfl
    · intro buffer member
      rcases List.mem_append.mp member with old | new
      · exact lane.seq buffer old
      · rw [List.mem_singleton.mp new]
        exact number
    · intro buffer member
      rcases List.mem_append.mp member with old | new
      · exact lane.dev buffer old
      · rw [List.mem_singleton.mp new]
        exact own.symm
    · intro buffer member
      rcases List.mem_append.mp member with old | new
      · exact lane.window buffer old
      · rw [List.mem_singleton.mp new]
        exact window
    · refine List.pairwise_append.mpr ⟨lane.sorted, List.pairwise_singleton _ _, ?_⟩
      intro buffer member new isNew
      rw [List.mem_singleton.mp isNew]
      exact later buffer member
    · show (if info.pktCnt + 1 = 1 then true else info.seqValid) = true ↔ info.skbAggrQ ++ [_] ≠ []
      rw [if_neg counted, lane.valid]
      simp [some]
    · intro buffer first
      show (if info.pktCnt + 1 = 1 then _ else info.seq) = _
      rw [if_neg counted]
      refine lane.head buffer ?_
      have first : buffer ∈ (info.skbAggrQ ++ [SkbBuffer.mk (seqOf seq) skb]).head? := first
      obtain ⟨front, rest, split⟩ := List.exists_cons_of_ne_nil some
      rw [split] at first ⊢
      exact first
    · show info.ifindex = 0 ↔ info.skbAggrQ ++ [_] = []
      simp only [List.append_eq_nil_iff, List.cons_ne_self, and_false, iff_false]
      omega
  · have zero : info.ifindex = 0 := dev.resolve_left fun equal => own equal.symm
    have empty : info.skbAggrQ = [] := lane.free.mp zero
    have assigned : info.assign skb.ifindex =
        { info with ifindex := skb.ifindex % 2 ^ 16, pktCnt := 0, seqValid := false } := if_neg own
    rw [assigned, cut]
    have queue : (RxInfo.push { info with ifindex := skb.ifindex, pktCnt := 0, seqValid := false }
        ⟨seqOf seq, skb⟩).skbAggrQ = [⟨seqOf seq, skb⟩] := by
      show info.skbAggrQ ++ [_] = _
      rw [empty]
      rfl
    refine ⟨⟨?_, ?_, ?_, ?_, ?_, ?_, ?_, ?_⟩, rfl, rfl⟩ <;> rw [queue]
    · rfl
    · intro buffer member
      rw [List.mem_singleton.mp member]
      exact number
    · intro buffer member
      rw [List.mem_singleton.mp member]
      rfl
    · intro buffer member
      rw [List.mem_singleton.mp member]
      exact window
    · exact List.pairwise_singleton _ _
    · simp [RxInfo.push]
    · rintro buffer ⟨⟩
      rfl
    · show skb.ifindex = 0 ↔ _
      simp
      omega

/-- A queue whose packets all come after a later expected one. -/
theorem Lane.advance (lane : Lane n info) {m : Nat} (le : n ≤ m)
    (after : ∀ buffer ∈ info.skbAggrQ, m ≤ buffer.skb.index) : Lane m info :=
  { lane with window := fun buffer member => ⟨after buffer member, by
      have := (lane.window buffer member).2
      omega⟩ }

/-- Within the window, equal numbers are equal packets. -/
theorem seqOf_inj {index : Nat} (window : n ≤ index ∧ index < n + 2 ^ 13)
    (same : seqOf index = seqOf n) :
    index = n := by
  unfold seqOf at same
  omega

/-- Nothing is expired. -/
theorem Lane.reset (lane : Lane n info) :
    info.reset (seqOf n) = info ∧
      (info.skbAggrQ.takeWhile fun buffer => expired (seqOf n) buffer.pktSeq) = [] := by
  have fresh : ∀ buffer ∈ info.skbAggrQ, expired (seqOf n) buffer.pktSeq = false := by
    intro buffer member
    have window := lane.window buffer member
    rw [lane.seq buffer member]
    unfold expired seqOf
    simp only [Bool.or_eq_false_iff, Bool.and_eq_false_iff, decide_eq_false_iff_not]
    omega
  have kept : (info.skbAggrQ.dropWhile fun buffer => expired (seqOf n) buffer.pktSeq) =
      info.skbAggrQ := by
    cases queue : info.skbAggrQ with
    | nil => rfl
    | cons buffer rest =>
      refine List.dropWhile_cons_of_neg ?_
      rw [fresh buffer (queue ▸ List.mem_cons_self)]
      decide
  refine ⟨?_, ?_⟩
  · have count :
      (if info.skbAggrQ = [] then 0 else info.pktCnt -
        (info.skbAggrQ.length - info.skbAggrQ.length)) =
        info.pktCnt := by
      split_ifs with empty
      · rw [lane.count, empty]
        rfl
      · omega
    have valid : (if info.pktCnt = 0 then false else info.seqValid) = info.seqValid := by
      split_ifs with zero
      · have empty : info.skbAggrQ = [] := List.eq_nil_of_length_eq_zero (lane.count ▸ zero)
        have invalid : info.seqValid ≠ true := fun valid => lane.valid.mp valid empty
        simpa using invalid.symm
      · rfl
    unfold RxInfo.reset
    simp only [kept, count, valid]
  · cases queue : info.skbAggrQ with
    | nil => rfl
    | cons buffer rest =>
      refine List.takeWhile_cons_of_neg ?_
      rw [fresh buffer (queue ▸ List.mem_cons_self)]
      decide

end Qsdk.Hyfi
