/-
**The reader of a TCP stream.**

A reader has a buffer of the data in order, where it is in it and how much of it remains, its
position from the start, and how much it has discarded. It is compared with a cursor in the stream
(`Cursor`): whatever the cursor may do, the reader does without a null pointer and without a freed
buffer, and with the same bytes (`reader_follows`). But its position is a number of 32 bits
(`position_wraps`).
-/

import Qsdk.Tracker.TcpData

namespace Qsdk.Tracker

/-- `struct ecm_tracker_tcp_reader_instance`. The private fields of the segment are found through
it. -/
structure Reader where
  offset : BitVec 32
  discarded : BitVec 32
  segmentOffset : BitVec 32
  segmentRemain : BitVec 32
  segment : Option SkBuff

/-! ### The functions of the source -/

section Functions

variable (live : SkBuff → Bool) (data : HostData)

/-- The reader starts with a segment, which must be there. -/
def Reader.load (reader : Reader) (segment : Option SkBuff) : Option Reader :=
  match segment with
  | none => none
  | some skb =>
    if live skb then
      some { reader with
        segment := some skb, segmentRemain := (data.cb skb).numSeqs, segmentOffset :=
          (data.cb skb).offset }
    else none

/-- The reader moves onto the next segment, or onto the first one. -/
def Reader.nextSegment (reader : Reader) : Option Reader :=
  match reader.segment with
  | none => reader.load live data data.space.inOrder
  | some skb => if live skb then reader.load live data (data.space.links.next skb) else none

/-- The end of `ecm_tracker_tcp_reader_fwd_read_u8`: the byte is read. -/
def Reader.readHere (bytes : SkBuff → Nat → BitVec 8) (reader : Reader) :
    Option (Reader × BitVec 8) :=
  match reader.segment with
  | none => none
  | some skb =>
    if live skb then
      some ({ reader with
        segmentOffset := reader.segmentOffset + 1
        segmentRemain := reader.segmentRemain - 1
        offset := reader.offset + 1 }, bytes skb reader.segmentOffset.toNat)
    else none

/-- `ecm_tracker_tcp_reader_fwd_read_u8`. -/
def Reader.fwdReadU8 (bytes : SkBuff → Nat → BitVec 8) (reader : Reader) :
    Option (Reader × BitVec 8) :=
  match (if reader.segmentRemain = 0 then reader.nextSegment live data else some reader) with
  | none => none
  | some reader => reader.readHere live bytes

/-- `_ecm_tracker_tcp_reader_retreat`. -/
def Reader.retreatLoop : (fuel : Nat) → BitVec 32 → Reader → Option Reader
  | 0, _, _ => none
  | fuel + 1, retreatment, reader =>
    if retreatment = 0 then some reader
    else
      match reader.segment with
      | none => none
      | some skb =>
        if !live skb then none
        else
          let segPriorData := reader.segmentOffset - (data.cb skb).offset
          if retreatment ≤ segPriorData then
            some { reader with
              segmentRemain := reader.segmentRemain + retreatment
              segmentOffset := reader.segmentOffset - retreatment }
          else
            match data.space.links.prev skb with
            | none => none
            | some prior =>
              if !live prior then none
              else
                Reader.retreatLoop fuel (retreatment - segPriorData)
                  { reader with
                    segment := some prior
                    segmentRemain := 0
                    segmentOffset := (data.cb prior).numSeqs + (data.cb prior).offset }

/-- `_ecm_tracker_tcp_reader_advance`. -/
def Reader.advanceLoop : (fuel : Nat) → BitVec 32 → Reader → Option Reader
  | 0, _, _ => none
  | fuel + 1, advancement, reader =>
    if advancement = 0 then some reader
    else if advancement ≤ reader.segmentRemain then
      some { reader with
        segmentRemain := reader.segmentRemain - advancement
        segmentOffset := reader.segmentOffset + advancement }
    else
      match reader.nextSegment live data with
      | none => none
      | some next => Reader.advanceLoop fuel (advancement - reader.segmentRemain) next

/-- As many rounds as there are segments, and one more, are enough for the loops. -/
def rounds : Nat := data.space.inOrderCount.toNat + 1

/-- `ecm_tracker_tcp_reader_retreat`. That there is a segment is only asserted, in a debug build. -/
def Reader.retreat (retreatment : BitVec 32) (reader : Reader) : Option Reader :=
  (Reader.retreatLoop live data (rounds data) retreatment reader).map fun reader =>
    { reader with offset := reader.offset - retreatment }

/-- `ecm_tracker_tcp_reader_advance`. -/
def Reader.advance (advancement : BitVec 32) (reader : Reader) : Option Reader :=
  (Reader.advanceLoop live data (rounds data) advancement reader).map fun reader =>
    { reader with offset := reader.offset + advancement }

/-- `ecm_tracker_tcp_reader_position_set`. -/
def Reader.positionSet (offset : BitVec 32) (reader : Reader) : Option Reader :=
  let delta := offset - reader.offset
  (if delta.toInt ≤ 0 then Reader.retreatLoop live data (rounds data) (-delta) reader
    else Reader.advanceLoop live data (rounds data) delta reader).map fun reader =>
      { reader with offset := offset }

/-- `ecm_tracker_tcp_reader_remain_get`. -/
def Reader.remainGet (reader : Reader) : BitVec 32 :=
    data.numSeqs - (reader.offset - reader.discarded)

/-- What `ecm_tracker_tcp_reader_discard_preceding` does to the reader. -/
def Reader.forget (reader : Reader) : Reader :=
  { reader with
    discarded := reader.discarded + (reader.offset - reader.discarded)
    segment := if reader.segmentRemain = 0 then none else reader.segment }

end Functions

/-! ### The bytes of the segments -/

/-- The bytes that can be read from a segment. -/
def segmentBytes (bytes : SkBuff → Nat → BitVec 8) (cb : SkbCb) (skb : SkBuff) : List (BitVec 8) :=
  (List.range cb.numSeqs.toNat).map fun i => bytes skb (cb.offset.toNat + i)

/-- The bytes that can be read from some segments. -/
def content (bytes : SkBuff → Nat → BitVec 8) (cb : SkBuff → SkbCb) (skbs : List SkBuff) :
    List (BitVec 8) :=
  skbs.flatMap fun skb => segmentBytes bytes (cb skb) skb

/-- A segment has data, and its offsets do not wrap around. -/
structure SkbCb.Valid (cb : SkbCb) : Prop where
  pos : 0 < cb.numSeqs.toNat
  lt : cb.offset.toNat + cb.numSeqs.toNat < 4294967296

section Content

variable {bytes : SkBuff → Nat → BitVec 8} {cb : SkBuff → SkbCb}

@[simp] theorem seqs_nil : seqs cb [] = 0 := rfl

@[simp] theorem seqs_cons (skb : SkBuff) (skbs : List SkBuff) :
    seqs cb (skb :: skbs) = (cb skb).numSeqs.toNat + seqs cb skbs := by
  simp [seqs]

@[simp] theorem seqs_append (skbs others : List SkBuff) : seqs cb (skbs ++ others) =
    seqs cb skbs + seqs cb others := by
  simp [seqs]

theorem content_append (skbs others : List SkBuff) :
    content bytes cb (skbs ++ others) = content bytes cb skbs ++ content bytes cb others := by
  simp [content]

theorem content_cons (skb : SkBuff) (skbs : List SkBuff) :
    content bytes cb (skb :: skbs) = segmentBytes bytes (cb skb) skb ++ content bytes cb skbs := by
  simp [content]

@[simp] theorem length_segmentBytes (fields : SkbCb) (skb : SkBuff) :
    (segmentBytes bytes fields skb).length = fields.numSeqs.toNat := by
  simp [segmentBytes]

theorem length_content (bytes : SkBuff → Nat → BitVec 8) (skbs : List SkBuff) :
    (content bytes cb skbs).length = seqs cb skbs := by
  induction skbs with
  | nil => rfl
  | cons skb skbs ih => rw [content_cons, List.length_append, length_segmentBytes, ih, seqs_cons]

/-- Only the fields of the segments matter. -/
theorem seqs_congr {cb' : SkBuff → SkbCb} {skbs : List SkBuff}
    (same : ∀ skb ∈ skbs, cb' skb = cb skb) :
    seqs cb' skbs = seqs cb skbs := by
  unfold seqs
  exact congrArg List.sum (List.map_congr_left fun skb mem => by rw [same skb mem])

theorem content_congr {cb' : SkBuff → SkbCb} {skbs : List SkBuff}
    (same : ∀ skb ∈ skbs, cb' skb = cb skb) :
    content bytes cb' skbs = content bytes cb skbs := by
  induction skbs with
  | nil => rfl
  | cons skb skbs ih =>
    rw [content_cons, content_cons, same skb List.mem_cons_self,
      ih fun other mem => same other (List.mem_cons_of_mem _ mem)]

end Content

/-! ### Where the reader is -/

/-- The reader has come to the last of the segments `front`, and `at_` bytes after the start of them
all. It has no segment at the start. -/
structure Reader.At (reader : Reader) (cb : SkBuff → SkbCb) (front : List SkBuff) (at_ : Nat) :
    Prop where
  segment : reader.segment = front.getLast?
  remain : at_ + reader.segmentRemain.toNat = seqs cb front
  within : ∀ skb ∈ front.getLast?, reader.segmentRemain.toNat ≤ (cb skb).numSeqs.toNat ∧
    reader.segmentOffset.toNat + reader.segmentRemain.toNat =
    (cb skb).offset.toNat + (cb skb).numSeqs.toNat

/-- The data in order can be read. -/
structure Window (live : SkBuff → Bool) (data : HostData) (inOrder future : List SkBuff) :
    Prop where
  space : data.space.Holds inOrder future
  alive : ∀ skb ∈ inOrder, live skb = true
  valid : ∀ skb ∈ inOrder, (data.cb skb).Valid

section At

variable {live : SkBuff → Bool} {data : HostData} {reader : Reader}
    {front back future : List SkBuff} {at_ : Nat}
  {skb : SkBuff}

/-- Behind the start, and before bytes that remain, the reader has a segment. -/
theorem Reader.At.exists_segment {cb : SkBuff → SkbCb} (here : reader.At cb front at_)
    (some_ : 0 < at_ + reader.segmentRemain.toNat) :
    ∃ others skb, front = others ++ [skb] ∧ reader.segment = some skb ∧
      at_ + reader.segmentRemain.toNat = seqs cb others + (cb skb).numSeqs.toNat ∧
        reader.segmentRemain.toNat ≤ (cb skb).numSeqs.toNat ∧
          reader.segmentOffset.toNat + reader.segmentRemain.toNat =
              (cb skb).offset.toNat + (cb skb).numSeqs.toNat := by
  have remain := here.remain
  rcases front.eq_nil_or_concat with rfl | ⟨others, skb, rfl⟩
  · rw [seqs_nil] at remain
    omega
  · rw [List.concat_eq_append] at *
    have last : (others ++ [skb]).getLast? = some skb := by simp
    refine ⟨others, skb, rfl, here.segment.trans last, ?_, here.within skb last⟩
    rw [remain, seqs_append, seqs_cons, seqs_nil, Nat.add_zero]

/-- The next segment is the first one that is left. -/
theorem Reader.At.nextSegment (here : reader.At data.cb front at_)
    (window : Window live data (front ++ skb :: back) future) :
    ∃ next, reader.nextSegment live data = some next ∧
      next.At data.cb (front ++ [skb]) (at_ + reader.segmentRemain.toNat) ∧
      next.segmentRemain = (data.cb skb).numSeqs ∧ next.offset = reader.offset ∧
          next.discarded = reader.discarded := by
  have loaded : reader.load live data (some skb) = some { reader with
      segment := some skb, segmentRemain := (data.cb skb).numSeqs, segmentOffset :=
          (data.cb skb).offset } :=
    if_pos (window.alive skb (by simp))
  refine ⟨{ reader with
    segment := some skb, segmentRemain := (data.cb skb).numSeqs, segmentOffset :=
      (data.cb skb).offset },
    ?_, ⟨by simp, ?_, ?_⟩, rfl, rfl, rfl⟩
  · rw [Reader.nextSegment, here.segment]
    rcases front.eq_nil_or_concat with rfl | ⟨others, last, rfl⟩
    · rw [window.space.inOrder_eq]
      exact loaded
    · rw [List.concat_eq_append] at *
      have chained := window.space.inOrderChained
      rw [List.append_assoc] at chained
      have next := chained.fields.2
      rw [List.getLast?_append_cons, List.getLast?_singleton]
      simp only [window.alive last (by simp), if_true, next]
      exact loaded
  · rw [here.remain, seqs_append, seqs_cons, seqs_nil]
    rfl
  · intro other last
    rw [List.getLast?_append_cons, List.getLast?_singleton] at last
    cases Option.some.inj last
    exact ⟨le_rfl, rfl⟩

/-- A move within the segment, forwards. -/
theorem Reader.At.forward {n : BitVec 32} (offset : BitVec 32) (here : reader.At data.cb front at_)
    (window : Window live data (front ++ back) future) (le : n.toNat ≤ reader.segmentRemain.toNat) :
    Reader.At { reader with
      segmentRemain := reader.segmentRemain - n
      segmentOffset := reader.segmentOffset + n
      offset := offset } data.cb front (at_ + n.toNat) where
  segment := here.segment
  remain := by
    have remain := here.remain
    simp only [BitVec.toNat_sub_of_le (BitVec.le_def.mpr le)]
    omega
  within := by
    intro skb last
    obtain ⟨most, ends⟩ := here.within skb last
    have bound := (window.valid skb (List.mem_append_left _ (List.mem_of_getLast? last))).lt
    simp only [BitVec.toNat_sub_of_le (BitVec.le_def.mpr le), BitVec.toNat_add]
    omega

/-- **Advancing succeeds if there are so many bytes ahead.** -/
theorem Reader.At.advanceLoop (fuel : Nat) (n : BitVec 32) (here : reader.At data.cb front at_)
    (window : Window live data (front ++ back) future)
    (available : n.toNat ≤ reader.segmentRemain.toNat + seqs data.cb back)
    (enough : back.length < fuel) :
    ∃ next, Reader.advanceLoop live data fuel n reader = some next ∧ next.offset = reader.offset ∧
      next.discarded = reader.discarded ∧
        ∃ front' back', front' ++ back' = front ++ back ∧
            next.At data.cb front' (at_ + n.toNat) := by
  induction fuel generalizing n reader front back at_ with
  | zero => exact absurd enough (Nat.not_lt_zero _)
  | succ fuel ih =>
    rw [Reader.advanceLoop]
    split
    · rename_i none_
      exact ⟨reader, rfl, rfl, rfl, front, back, rfl, by simpa [none_] using here⟩
    · split
      · rename_i le
        exact ⟨_, rfl, rfl, rfl, front, back, rfl, here.forward reader.offset window
          (BitVec.le_def.mp le)⟩
      · rename_i more
        rw [BitVec.not_le] at more
        have more' : reader.segmentRemain.toNat < n.toNat := BitVec.lt_def.mp more
        have rest : (n - reader.segmentRemain).toNat = n.toNat - reader.segmentRemain.toNat :=
          BitVec.toNat_sub_of_le (BitVec.le_of_lt more)
        cases back with
        | nil =>
          rw [seqs_nil] at available
          omega
        | cons skb back =>
          obtain ⟨next, moved, here', remain, offset, discarded⟩ := here.nextSegment window
          rw [List.append_cons] at window
          rw [seqs_cons] at available
          obtain ⟨last, advanced, offset', discarded', front', back', split, there⟩ :=
            ih _ here' window (by rw [remain, rest]; omega) (Nat.lt_of_succ_lt_succ enough)
          refine ⟨last, ?_, offset'.trans offset, discarded'.trans discarded, front', back', ?_, ?_⟩
          · simp only [moved]
            exact advanced
          · rw [split, List.append_assoc, List.singleton_append]
          · have same : at_ + reader.segmentRemain.toNat + (n - reader.segmentRemain).toNat =
              at_ + n.toNat := by omega
            rw [← same]
            exact there

/-- A move within the segment, backwards. -/
theorem Reader.At.backward {n : BitVec 32} (here : reader.At data.cb (front ++ [skb]) at_)
    (valid : (data.cb skb).Valid) (available : n.toNat ≤ at_)
    (le : n.toNat + reader.segmentRemain.toNat ≤ (data.cb skb).numSeqs.toNat) :
    Reader.At { reader with
      segmentRemain := reader.segmentRemain + n
      segmentOffset := reader.segmentOffset - n } data.cb (front ++ [skb]) (at_ - n.toNat) := by
  have last : (front ++ [skb]).getLast? = some skb := by simp
  have remain := here.remain
  obtain ⟨most, ends⟩ := here.within skb last
  have bound := valid.lt
  refine ⟨here.segment, ?_, ?_⟩
  · simp only [BitVec.toNat_add]
    omega
  · intro other isLast
    rw [last] at isLast
    cases Option.some.inj isLast
    simp only [BitVec.toNat_add, BitVec.toNat_sub]
    omega

/-- At the end of a segment all bytes up to it are behind. -/
theorem Reader.at_end (reader : Reader) (front : List SkBuff) (valid : (data.cb skb).Valid) :
    Reader.At { reader with
      segment := some skb
      segmentRemain := 0
      segmentOffset := (data.cb skb).numSeqs + (data.cb skb).offset } data.cb (front ++ [skb])
      (seqs data.cb (front ++ [skb])) := by
  have bound := valid.lt
  refine ⟨by simp, rfl, ?_⟩
  intro other isLast
  rw [List.getLast?_append_cons, List.getLast?_singleton] at isLast
  cases Option.some.inj isLast
  have zero : (0 : BitVec 32).toNat = 0 := rfl
  simp only [BitVec.toNat_add, zero]
  omega

/-- **Retreating succeeds if so many bytes are behind.** -/
theorem Reader.At.retreatLoop (fuel : Nat) (n : BitVec 32) (here : reader.At data.cb front at_)
    (window : Window live data (front ++ back) future) (available : n.toNat ≤ at_)
    (enough : front.length < fuel) :
    ∃ next, Reader.retreatLoop live data fuel n reader = some next ∧ next.offset = reader.offset ∧
      next.discarded = reader.discarded ∧
        ∃ front' back', front' ++ back' = front ++ back ∧
            next.At data.cb front' (at_ - n.toNat) := by
  induction fuel generalizing n reader front back at_ with
  | zero => exact absurd enough (Nat.not_lt_zero _)
  | succ fuel ih =>
    rw [Reader.retreatLoop]
    split
    · rename_i none_
      exact ⟨reader, rfl, rfl, rfl, front, back, rfl, by simpa [none_] using here⟩
    · rename_i some_
      have positive : 0 < n.toNat := Nat.pos_of_ne_zero fun zero =>
        some_ (BitVec.eq_of_toNat_eq zero)
      obtain ⟨others, skb, rfl, segment, remain, most, ends⟩ := here.exists_segment (by omega)
      have valid := window.valid skb (by simp)
      have prior : (reader.segmentOffset - (data.cb skb).offset).toNat =
          (data.cb skb).numSeqs.toNat - reader.segmentRemain.toNat := by
        rw [BitVec.toNat_sub_of_le (BitVec.le_def.mpr (by omega))]
        omega
      simp only [segment, window.alive skb (by simp), Bool.not_true, Bool.false_eq_true, if_false]
      split
      · rename_i le
        have le' := BitVec.le_def.mp le
        refine ⟨_, rfl, rfl, rfl, others ++ [skb], back, rfl, ?_⟩
        rw [← segment]
        exact here.backward valid available (by omega)
      · rename_i more
        rw [BitVec.not_le] at more
        have more' := BitVec.lt_def.mp more
        have rest := BitVec.toNat_sub_of_le (BitVec.le_of_lt more)
        rcases others.eq_nil_or_concat with rfl | ⟨others', before, rfl⟩
        · rw [seqs_nil] at remain
          omega
        · rw [List.concat_eq_append] at *
          rw [List.append_assoc _ [skb] back, List.singleton_append] at window ⊢
          have isPrev := window.space.inOrderChained.fields.1
          rw [List.getLast?_append_cons, List.getLast?_singleton] at isPrev
          obtain ⟨next, retreated, offset, discarded, front', back', split, there⟩ :=
            ih (n - (reader.segmentOffset - (data.cb skb).offset))
              (reader.at_end others' (window.valid before (by simp))) window (by rw [rest]; omega)
              (by simp only [List.length_append, List.length_singleton] at *; omega)
          refine ⟨next, ?_, offset, discarded, front', back', split, ?_⟩
          · simp only [isPrev, window.alive before (by simp), Bool.not_true,
              Bool.false_eq_true, if_false]
            exact retreated
          · have same : seqs data.cb (others' ++ [before]) -
                (n - (reader.segmentOffset - (data.cb skb).offset)).toNat =
                at_ - n.toNat := by omega
            rw [← same]
            exact there

/-- Reading from a segment of which something remains. -/
theorem Reader.At.readHere (bytes : SkBuff → Nat → BitVec 8) (here : reader.At data.cb front at_)
    (window : Window live data (front ++ back) future) (some_ : 0 < reader.segmentRemain.toNat) :
    ∃ next byte, reader.readHere live bytes = some (next, byte) ∧
      (content bytes data.cb (front ++ back))[at_]? = some byte ∧ next.offset = reader.offset + 1 ∧
        next.discarded = reader.discarded ∧ next.At data.cb front (at_ + 1) := by
  obtain ⟨others, skb, rfl, segment, remain, most, ends⟩ := here.exists_segment (by omega)
  have moved := here.forward (reader.offset + 1) window (show (1 : BitVec 32).toNat ≤ _ from some_)
  refine ⟨_, bytes skb reader.segmentOffset.toNat, ?_, ?_, ?_, ?_, moved⟩
  · simp only [Reader.readHere, segment, window.alive skb (by simp), if_true]
  · have start : (content bytes data.cb others).length ≤ at_ := by
      rw [length_content]
      omega
    rw [List.append_assoc, content_append, List.getElem?_append_right start, List.singleton_append,
      content_cons,
      List.getElem?_append_left (by rw [length_segmentBytes, length_content]; omega), segmentBytes,
      List.getElem?_map, List.getElem?_range (by rw [length_content]; omega), length_content,
      Option.map_some]
    congr 2
    omega
  · rfl
  · rfl

/-- **Reading succeeds if there is a byte ahead.** -/
theorem Reader.At.fwdReadU8 (bytes : SkBuff → Nat → BitVec 8) (here : reader.At data.cb front at_)
    (window : Window live data (front ++ back) future)
    (available : at_ < seqs data.cb (front ++ back)) :
    ∃ next byte, reader.fwdReadU8 live data bytes = some (next, byte) ∧
      (content bytes data.cb (front ++ back))[at_]? = some byte ∧ next.offset = reader.offset + 1 ∧
        next.discarded = reader.discarded ∧
          ∃ front' back', front' ++ back' = front ++ back ∧ next.At data.cb front' (at_ + 1) := by
  have remain := here.remain
  rw [Reader.fwdReadU8]
  by_cases empty : reader.segmentRemain = 0
  · rw [if_pos empty]
    rw [empty] at remain
    cases back with
    | nil =>
      rw [List.append_nil] at available
      simp at remain
      omega
    | cons skb back =>
      obtain ⟨next, moved, here', full, offset, discarded⟩ := here.nextSegment window
      have positive := (window.valid skb (by simp)).pos
      rw [List.append_cons] at window ⊢
      have zero : reader.segmentRemain.toNat = 0 := by rw [empty]; rfl
      rw [zero, Nat.add_zero] at here'
      obtain ⟨last, byte, read, same, offset', discarded', there⟩ :=
        here'.readHere bytes window (by rw [full]; exact positive)
      rw [moved]
      exact ⟨last, byte, read, same, by rw [offset', offset], discarded'.trans discarded, _,
        back, rfl, there⟩
  · rw [if_neg empty]
    have positive : 0 < reader.segmentRemain.toNat := Nat.pos_of_ne_zero fun zero =>
      empty (BitVec.eq_of_toNat_eq zero)
    obtain ⟨next, byte, read, same, offset, discarded, there⟩ := here.readHere bytes window positive
    exact ⟨next, byte, read, same, offset, discarded, front, back, rfl, there⟩

/-! ### Discarding -/

/-- A segment of which some bytes are discarded. -/
def SkbCb.skip (cb : SkbCb) (k : Nat) : SkbCb :=
  ⟨cb.seqNo + BitVec.ofNat 32 k, cb.numSeqs - BitVec.ofNat 32 k, cb.offset + BitVec.ofNat 32 k⟩

variable {Owner : Type} {global : Global Owner}

/-- **Discarding takes the first segments, and some bytes of the one behind them.** -/
theorem discardLoop_spec {fuel k : Nat} {n : BitVec 32} (data : HostData)
    (space : data.space.Holds (front ++ back) future)
    (valid : ∀ skb ∈ front ++ back, (data.cb skb).Valid) (total : n.toNat = seqs data.cb front + k)
    (part : k = 0 ∨ ∃ skb ∈ back.head?, k < (data.cb skb).numSeqs.toNat)
    (enough : front.length < fuel) :
    ∃ global' data', discardLoop fuel n (global, data) = some (global', data') ∧
    data'.space.Holds back future ∧
      data'.numSeqs = data.numSeqs ∧ (∀ skb ∉ front, global'.owner skb = global.owner skb) ∧
        (∀ skb ∈ back.head?, data'.cb skb = (data.cb skb).skip k) ∧
          ∀ skb ∉ back.head?, data'.cb skb = data.cb skb := by
  induction fuel generalizing n data global front with
  | zero => exact absurd enough (Nat.not_lt_zero _)
  | succ fuel ih =>
    rw [discardLoop]
    cases front with
    | nil =>
      rw [seqs_nil, Nat.zero_add] at total
      split
      · rename_i none_
        have zero : k = 0 := by rw [← total, none_]; rfl
        refine ⟨global, data, rfl, space, rfl, fun _ _ => rfl, fun skb _ => ?_, fun _ _ => rfl⟩
        simp [SkbCb.skip, zero]
      · rename_i some_
        have positive : 0 < k := by
          rw [← total]
          exact Nat.pos_of_ne_zero fun zero => some_ (BitVec.eq_of_toNat_eq zero)
        obtain ⟨skb, head, less⟩ := part.resolve_left (by omega)
        have isN : n = BitVec.ofNat 32 k := by rw [← total, BitVec.ofNat_toNat, BitVec.setWidth_eq]
        have first : data.space.inOrder = some skb := by
          rw [space.inOrder_eq, List.nil_append]
          exact head
        simp only [first]
        rw [if_pos (BitVec.lt_def.mpr (by omega))]
        refine ⟨global, _, rfl, space, rfl, fun _ _ => rfl, ?_, ?_⟩
        · intro other isHead
          rw [Option.mem_unique isHead head, isN]
          exact Function.update_self _ _ _
        · intro other notHead
          have apart : other ≠ skb := by
            rintro rfl
            exact notHead head
          exact Function.update_of_ne apart _ _
    | cons skb front =>
      have first := space.inOrder_eq
      rw [List.cons_append, List.head?_cons] at first
      have positive := (valid skb (by simp)).pos
      rw [seqs_cons] at total
      rw [if_neg (by rintro rfl; simp at total; omega)]
      simp only [first]
      rw [if_neg (by rw [BitVec.not_lt, BitVec.le_def]; omega)]
      have le : (data.cb skb).numSeqs ≤ n := BitVec.le_def.mpr (by omega)
      have total' : (n - (data.cb skb).numSeqs).toNat = seqs data.cb front + k := by
        rw [BitVec.toNat_sub_of_le le]
        omega
      have rest : ∃ global' data', discardLoop fuel (n - (data.cb skb).numSeqs)
          (global.drop skb, { data with
          recvd := data.recvd.remove skb, space := data.space.popInOrder skb }) =
              some (global', data') ∧ _ :=
        ih _ space.popInOrder (fun other mem => valid other (List.mem_cons_of_mem _ mem)) total'
          part
          (Nat.lt_of_succ_lt_succ enough)
      obtain ⟨global', data', ran, space', numSeqs, owner, heads, others⟩ := rest
      refine ⟨global', data', ran, space', numSeqs, ?_, heads, others⟩
      intro other absent
      rw [List.mem_cons, not_or] at absent
      rw [owner other absent.2, Global.drop_owner_of_ne absent.1]

end At

/-! ### What is left after discarding -/

theorem SkbCb.skip_numSeqs {cb : SkbCb} {k : Nat} (part : k < cb.numSeqs.toNat) :
    (cb.skip k).numSeqs.toNat = cb.numSeqs.toNat - k := by
  simp only [SkbCb.skip, BitVec.toNat_sub, BitVec.toNat_ofNat]
  omega

theorem SkbCb.skip_offset {cb : SkbCb} {k : Nat} (valid : cb.Valid) (part : k < cb.numSeqs.toNat) :
    (cb.skip k).offset.toNat = cb.offset.toNat + k := by
  have bound := valid.lt
  simp only [SkbCb.skip, BitVec.toNat_add, BitVec.toNat_ofNat]
  omega

theorem SkbCb.Valid.skip {cb : SkbCb} {k : Nat} (valid : cb.Valid) (part : k < cb.numSeqs.toNat) :
    (cb.skip k).Valid where
  pos := by
    rw [SkbCb.skip_numSeqs part]
    omega
  lt := by
    have bound := valid.lt
    rw [SkbCb.skip_numSeqs part, SkbCb.skip_offset valid part]
    omega

theorem segmentBytes_skip {bytes : SkBuff → Nat → BitVec 8} {cb : SkbCb} {skb : SkBuff} {k : Nat}
    (valid : cb.Valid) (part : k < cb.numSeqs.toNat) : segmentBytes bytes (cb.skip k) skb =
        (segmentBytes bytes cb skb).drop k := by
  apply List.ext_getElem
  · rw [List.length_drop, length_segmentBytes, length_segmentBytes, SkbCb.skip_numSeqs part]
  · intro i _ _
    simp [segmentBytes, SkbCb.skip_offset valid part, Nat.add_assoc]

/-- **The bytes that are skipped are no longer read.** -/
theorem content_skip (bytes : SkBuff → Nat → BitVec 8) {cb cb' : SkBuff → SkbCb} {k : Nat}
    {back : List SkBuff} (nodup : back.Nodup) (valid : ∀ skb ∈ back, (cb skb).Valid)
    (part : k = 0 ∨ ∃ skb ∈ back.head?, k < (cb skb).numSeqs.toNat)
    (head : ∀ skb ∈ back.head?, cb' skb = (cb skb).skip k)
    (others : ∀ skb ∉ back.head?, cb' skb = cb skb) :
    content bytes cb' back = (content bytes cb back).drop k ∧ ∀ skb ∈ back, (cb' skb).Valid := by
  cases back with
  | nil => exact ⟨by simp [content], by simp⟩
  | cons skb back =>
    have valid' := valid skb List.mem_cons_self
    have part' : k < (cb skb).numSeqs.toNat := by
      rcases part with rfl | ⟨other, isHead, less⟩
      · exact valid'.pos
      · cases Option.some.inj isHead
        exact less
    have same : ∀ other ∈ back, cb' other = cb other := by
      intro other mem
      refine others other fun isHead => ?_
      cases Option.some.inj isHead
      exact (List.nodup_cons.mp nodup).1 mem
    constructor
    · rw [content_cons, content_cons, head skb rfl, segmentBytes_skip valid' part',
        content_congr same,
        List.drop_append_of_le_length (by rw [length_segmentBytes]; omega)]
    · intro other mem
      rcases List.mem_cons.mp mem with rfl | mem'
      · rw [head other rfl]
        exact valid'.skip part'
      · rw [same other mem']
        exact valid other mem

/-! ### The cursor -/

/-- A cursor in a stream of bytes: the bytes so far, where it is, and what was discarded. -/
structure Cursor where
  stream : List (BitVec 8)
  pos : Nat
  base : Nat

/-- What can be called. Further segments in order come from the tracker: `append` is for a new one,
and `replay` is for the first one of those in the future. -/
inductive ReaderCall
  | fwdReadU8
  | advance (n : Nat)
  | retreat (n : Nat)
  | positionSet (pos : Nat)
  | positionGet
  | remainGet
  | discardPreceding
  | append (skb : SkBuff) (cb : SkbCb)
  | replay (skb : SkBuff) (cb : SkbCb)

/-- What a call returns. -/
inductive Returned (Position : Type)
  | nothing
  | byte (b : BitVec 8)
  | position (pos : Position)

/-- The value of a position in 32 bits. -/
def Returned.wrap : Returned Nat → Returned (BitVec 32)
  | nothing => nothing
  | byte b => byte b
  | position pos => position (BitVec.ofNat 32 pos)

/-- What the cursor does, and what it returns. It stays in what is there and not discarded, of which
there are less than 2^31 bytes, as the limit of the instance is an `int`. -/
def Cursor.step (bytes : SkBuff → Nat → BitVec 8) (cursor : Cursor) : ReaderCall →
    Option (Cursor × Returned Nat)
  | .fwdReadU8 => cursor.stream[cursor.pos]?.map fun b =>
    ({ cursor with pos := cursor.pos + 1 }, .byte b)
  | .advance n =>
    if cursor.pos + n ≤ cursor.stream.length then
      some ({ cursor with pos := cursor.pos + n }, .nothing) else none
  | .retreat n =>
    if cursor.base + n ≤ cursor.pos then some ({ cursor with pos := cursor.pos - n }, .nothing) else
      none
  | .positionSet pos =>
    if cursor.base ≤ pos ∧ pos ≤ cursor.stream.length then
      some ({ cursor with pos := pos }, .nothing) else none
  | .positionGet => some (cursor, .position cursor.pos)
  | .remainGet => some (cursor, .position (cursor.stream.length - cursor.pos))
  | .discardPreceding => some ({ cursor with base := cursor.pos }, .nothing)
  | .append skb cb | .replay skb cb =>
    if cursor.stream.length - cursor.base + cb.numSeqs.toNat < 2147483648 then
      some ({ cursor with stream := cursor.stream ++ segmentBytes bytes cb skb }, .nothing)
    else none

/-- The reader, and the tracker that it reads from. -/
structure Reading (Owner : Type) where
  reader : Reader
  global : Global Owner
  data : HostData

variable {Owner : Type}

/-- A buffer that is not freed. -/
def Global.live (global : Global Owner) (skb : SkBuff) : Bool := (global.owner skb).isSome

/-- A segment is put at the end of the data in order. -/
def HostData.append (data : HostData) (skb : SkBuff) (cb : SkbCb) : HostData :=
  { data with
    cb := Function.update data.cb skb cb
    space := data.space.pushInOrder skb
    numSeqs := data.numSeqs + cb.numSeqs }

/-- The first segment in the future is put at the end of the data in order. -/
def HostData.replay (data : HostData) (skb : SkBuff) (cb : SkbCb) : HostData :=
  { data with space := data.space.popFuture skb }.append skb cb

/-- What the replay does with a segment that has new data in order. -/
theorem futureReplay_replay {fuel : Nat} {global : Global Owner} {data : HostData} {skb : SkBuff}
    {inSequence : BitVec 32} (first : data.space.future = some skb)
    (behind : inSequence = (data.cb skb).seqNo - (data.seqNo + data.numSeqs))
    (notAhead : inSequence.toInt ≤ 0) (new : 0 < ((data.cb skb).numSeqs + inSequence).toInt) :
    futureReplay (fuel + 1) (global, data) = futureReplay fuel (global, data.replay skb
      ⟨(data.cb skb).seqNo - inSequence, (data.cb skb).numSeqs + inSequence,
          (data.cb skb).offset - inSequence⟩) := by
  subst behind
  rw [futureReplay]
  simp only [first]
  rw [if_neg (Int.not_lt.mpr notAhead), if_neg (Int.not_le.mpr new)]
  rfl

/-- What is done with a received segment that has new data in order. -/
theorem streamDataAdd_append {segment : TcpSegment} {seq numSeqs inSequence : BitVec 32}
    {global : Global Owner} {data : HostData} {skb : SkBuff}
    (behind : inSequence = seq - (data.seqNo + data.numSeqs))
    (size : numSeqs = segment.dataLen.zeroExtend 32) (notAhead : inSequence.toInt ≤ 0)
    (new : 0 < (numSeqs + inSequence).toInt) :
    streamDataAdd segment seq skb global data =
      (futureReplay (data.recvd.recvdCount.toNat + 1) (global, data.append skb
        ⟨seq - inSequence, numSeqs + inSequence, segment.dataOffset.zeroExtend 32 -
          inSequence⟩)).map
          fun (global, data) => (global, data, true) := by
  subst behind size
  simp only [streamDataAdd]
  rw [if_neg (Int.not_le.mpr new), if_neg (Int.not_lt.mpr notAhead)]
  rfl

/-- The reader has moved. -/
def Reading.moved (reading : Reading Owner) (reader : Option Reader) :
    Option (Reading Owner × Returned (BitVec 32)) :=
  reader.map fun reader => ({ reading with reader := reader }, .nothing)

/-- What the reader and the tracker do. -/
def Reading.step (owner : Owner) (bytes : SkBuff → Nat → BitVec 8) (reading : Reading Owner) :
    ReaderCall → Option (Reading Owner × Returned (BitVec 32))
  | .fwdReadU8 =>
    (reading.reader.fwdReadU8 reading.global.live reading.data bytes).map fun result =>
      ({ reading with reader := result.1 }, .byte result.2)
  | .advance n =>
    reading.moved (reading.reader.advance reading.global.live reading.data (BitVec.ofNat 32 n))
  | .retreat n =>
    reading.moved (reading.reader.retreat reading.global.live reading.data (BitVec.ofNat 32 n))
  | .positionSet pos =>
    reading.moved (reading.reader.positionSet reading.global.live reading.data
      (BitVec.ofNat 32 pos))
  | .positionGet => some (reading, .position reading.reader.offset)
  | .remainGet => some (reading, .position (reading.reader.remainGet reading.data))
  | .discardPreceding =>
    (bytesDiscard (reading.reader.offset - reading.reader.discarded) reading.global
        reading.data).map fun result =>
      (⟨reading.reader.forget, result.1, result.2⟩, .nothing)
  | .append skb cb =>
    some (⟨reading.reader, reading.global.take owner skb, reading.data.append skb cb⟩, .nothing)
  | .replay skb cb => some ({ reading with data := reading.data.replay skb cb }, .nothing)

/-- A buffer that is appended is a new one or the first one in the future, and its fields are
right. -/
def ReaderCall.Possible (reading : Reading Owner) : ReaderCall → Prop
  | append skb cb => reading.global.owner skb = none ∧ cb.Valid
  | replay skb cb => reading.data.space.future = some skb ∧ cb.Valid
  | _ => True

/-- The reader and the cursor are at the same place of the same bytes. -/
structure Follows (bytes : SkBuff → Nat → BitVec 8) (reading : Reading Owner) (cursor : Cursor)
    (inOrder future : List SkBuff) : Prop where
  window : Window reading.global.live reading.data inOrder future
  aliveFuture : ∀ skb ∈ future, reading.global.live skb = true
  numSeqs : reading.data.numSeqs = BitVec.ofNat 32 (seqs reading.data.cb inOrder)
  small : seqs reading.data.cb inOrder < 2147483648
  content : cursor.stream.drop cursor.base = content bytes reading.data.cb inOrder
  base_le : cursor.base ≤ cursor.pos
  pos_le : cursor.pos ≤ cursor.stream.length
  offset : reading.reader.offset = BitVec.ofNat 32 cursor.pos
  discarded : reading.reader.discarded = BitVec.ofNat 32 cursor.base
  at_ : ∃ front back, front ++ back = inOrder ∧
    reading.reader.At reading.data.cb front (cursor.pos - cursor.base)

section Follows

variable {bytes : SkBuff → Nat → BitVec 8} {reading : Reading Owner} {cursor : Cursor}
    {inOrder future : List SkBuff}

theorem Follows.length_eq (follows : Follows bytes reading cursor inOrder future) :
    cursor.stream.length = cursor.base + seqs reading.data.cb inOrder := by
  have length := congrArg List.length follows.content
  have base_le := follows.base_le
  have pos_le := follows.pos_le
  rw [List.length_drop, length_content] at length
  omega

theorem Follows.rounds_eq (follows : Follows bytes reading cursor inOrder future) :
    rounds reading.data = inOrder.length + 1 := by
  rw [rounds, follows.window.space.inOrderCount_eq, Int.toNat_natCast]

/-- The reader and the cursor have moved to the same place. -/
theorem Follows.move (follows : Follows bytes reading cursor inOrder future)
    {reader : Reader} {pos : Nat} (base_le : cursor.base ≤ pos)
    (pos_le : pos ≤ cursor.stream.length) (offset : reader.offset = BitVec.ofNat 32 pos)
    (discarded : reader.discarded = reading.reader.discarded)
    (at_ : ∃ front back, front ++ back = inOrder ∧
        reader.At reading.data.cb front (pos - cursor.base)) :
    Follows bytes { reading with reader := reader } { cursor with pos := pos } inOrder future :=
  { follows with
    base_le := base_le
    pos_le := pos_le
    offset := offset
    discarded := discarded.trans follows.discarded
    at_ := at_ }

/-- The offset of a reader is not part of where it is. -/
theorem Reader.At.offset {reader : Reader} {cb : SkBuff → SkbCb} {front : List SkBuff} {at_ : Nat}
    (here : reader.At cb front at_) (offset : BitVec 32) :
        Reader.At { reader with offset := offset } cb front at_ :=
  ⟨here.segment, here.remain, here.within⟩

/-- A move forwards to a position. -/
theorem Follows.advances (follows : Follows bytes reading cursor inOrder future) {n : Nat}
    (within : cursor.pos + n ≤ cursor.stream.length) (offset : BitVec 32)
    (same : offset = BitVec.ofNat 32 (cursor.pos + n)) :
    ∃ next, Reader.advanceLoop reading.global.live reading.data (rounds reading.data)
    (BitVec.ofNat 32 n)
        reading.reader = some next ∧ next.offset = reading.reader.offset ∧
      Follows bytes { reading with reader := { next with offset := offset } }
      { cursor with pos := cursor.pos + n }
        inOrder future := by
  obtain ⟨front, back, rfl, here⟩ := follows.at_
  have length := follows.length_eq
  have small := follows.small
  have base_le := follows.base_le
  have remain := here.remain
  have exact_ : (BitVec.ofNat 32 n).toNat = n := Nat.mod_eq_of_lt (by omega)
  rw [seqs_append] at length small
  obtain ⟨next, ran, offset', discarded, front', back', split, there⟩ :=
    here.advanceLoop (rounds reading.data)
    (BitVec.ofNat 32 n) follows.window (by rw [exact_]; omega)
    (by rw [follows.rounds_eq, List.length_append]; omega)
  refine ⟨next, ran, offset', follows.move (by omega) within same discarded
    ⟨front', back', split, ?_⟩⟩
  rw [exact_] at there
  have moved : cursor.pos + n - cursor.base = cursor.pos - cursor.base + n := by omega
  rw [moved]
  exact there.offset offset

/-- A move backwards to a position. -/
theorem Follows.retreats (follows : Follows bytes reading cursor inOrder future) {n : Nat}
    (within : cursor.base + n ≤ cursor.pos) (offset : BitVec 32)
    (same : offset = BitVec.ofNat 32 (cursor.pos - n)) :
    ∃ next, Reader.retreatLoop reading.global.live reading.data (rounds reading.data)
    (BitVec.ofNat 32 n)
        reading.reader = some next ∧ next.offset = reading.reader.offset ∧
      Follows bytes { reading with reader := { next with offset := offset } }
      { cursor with pos := cursor.pos - n }
        inOrder future := by
  obtain ⟨front, back, rfl, here⟩ := follows.at_
  have length := follows.length_eq
  have small := follows.small
  have pos_le := follows.pos_le
  have exact_ : (BitVec.ofNat 32 n).toNat = n := Nat.mod_eq_of_lt (by omega)
  obtain ⟨next, ran, offset', discarded, front', back', split, there⟩ :=
    here.retreatLoop (rounds reading.data)
    (BitVec.ofNat 32 n) follows.window (by rw [exact_]; omega)
    (by rw [follows.rounds_eq, List.length_append]; omega)
  refine ⟨next, ran, offset', follows.move (by omega) (by omega) same discarded
    ⟨front', back', split, ?_⟩⟩
  rw [exact_] at there
  have moved : cursor.pos - n - cursor.base = cursor.pos - cursor.base - n := by omega
  rw [moved]
  exact there.offset offset

theorem Follows.fwdReadU8 (follows : Follows bytes reading cursor inOrder future) {b : BitVec 8}
    (here : cursor.stream[cursor.pos]? = some b) :
    ∃ next, reading.reader.fwdReadU8 reading.global.live reading.data bytes = some (next, b) ∧
      Follows bytes { reading with reader := next }
        { cursor with pos := cursor.pos + 1 } inOrder future := by
  obtain ⟨front, back, rfl, at_⟩ := follows.at_
  have length := follows.length_eq
  have base_le := follows.base_le
  obtain ⟨less, -⟩ := List.getElem?_eq_some_iff.mp here
  obtain ⟨next, byte, read, same, offset, discarded, front', back', split, there⟩ :=
    at_.fwdReadU8 bytes follows.window (by omega)
  rw [← follows.content, List.getElem?_drop, Nat.add_sub_cancel' base_le, here] at same
  cases Option.some.inj same
  refine ⟨next, read, follows.move (by omega) less ?_ discarded ⟨front', back', split, ?_⟩⟩
  · rw [offset, follows.offset, BitVec.ofNat_add]
    rfl
  · have moved : cursor.pos + 1 - cursor.base = cursor.pos - cursor.base + 1 := by omega
    rw [moved]
    exact there

theorem Follows.remainGet (follows : Follows bytes reading cursor inOrder future) :
    reading.reader.remainGet reading.data = BitVec.ofNat 32
        (cursor.stream.length - cursor.pos) := by
  have length := follows.length_eq
  have base_le := follows.base_le
  have pos_le := follows.pos_le
  rw [Reader.remainGet, follows.numSeqs, follows.offset, follows.discarded]
  apply BitVec.eq_of_toNat_eq
  simp only [BitVec.toNat_sub, BitVec.toNat_ofNat]
  omega

/-- The way that a position is set. -/
theorem Follows.positionSet (follows : Follows bytes reading cursor inOrder future) {pos : Nat}
    (base_le : cursor.base ≤ pos) (pos_le : pos ≤ cursor.stream.length) :
    ∃ next, reading.reader.positionSet reading.global.live reading.data (BitVec.ofNat 32 pos) =
    some next ∧
      Follows bytes { reading with reader := next } { cursor with pos := pos } inOrder future := by
  have length := follows.length_eq
  have small := follows.small
  have base_le' := follows.base_le
  have pos_le' := follows.pos_le
  simp only [Reader.positionSet, follows.offset]
  by_cases back : pos ≤ cursor.pos
  · have delta : BitVec.ofNat 32 pos - BitVec.ofNat 32 cursor.pos =
        -BitVec.ofNat 32 (cursor.pos - pos) := by
      apply BitVec.eq_of_toNat_eq
      simp only [BitVec.toNat_sub, BitVec.toNat_neg, BitVec.toNat_ofNat]
      omega
    have notPositive : (-BitVec.ofNat 32 (cursor.pos - pos)).toInt ≤ 0 := by
      rw [BitVec.toInt_eq_toNat_cond]
      simp only [BitVec.toNat_neg, BitVec.toNat_ofNat]
      split <;> omega
    have there : cursor.pos - (cursor.pos - pos) = pos := by omega
    obtain ⟨next, ran, -, follows'⟩ := follows.retreats (n := cursor.pos - pos) (by omega)
      (BitVec.ofNat 32 pos)
      (by rw [there])
    rw [there] at follows'
    rw [delta, if_pos notPositive, BitVec.neg_neg, ran]
    exact ⟨_, rfl, follows'⟩
  · have delta : BitVec.ofNat 32 pos - BitVec.ofNat 32 cursor.pos =
        BitVec.ofNat 32 (pos - cursor.pos) := by
      apply BitVec.eq_of_toNat_eq
      simp only [BitVec.toNat_sub, BitVec.toNat_ofNat]
      omega
    have positive : ¬ (BitVec.ofNat 32 (pos - cursor.pos)).toInt ≤ 0 := by
      rw [BitVec.toInt_eq_toNat_cond]
      simp only [BitVec.toNat_ofNat]
      split <;> omega
    have there : cursor.pos + (pos - cursor.pos) = pos := by omega
    obtain ⟨next, ran, -, follows'⟩ := follows.advances (n := pos - cursor.pos) (by omega)
      (BitVec.ofNat 32 pos)
      (by rw [there])
    rw [there] at follows'
    rw [delta, if_neg positive, ran]
    exact ⟨_, rfl, follows'⟩

/-- The bytes before the reader are discarded, the reader apart. -/
theorem Follows.discard {front back : List SkBuff} {k : Nat}
    (follows : Follows bytes reading cursor (front ++ back) future)
    (total : cursor.pos - cursor.base = seqs reading.data.cb front + k)
    (part : k = 0 ∨ ∃ skb ∈ back.head?, k < (reading.data.cb skb).numSeqs.toNat) :
    ∃ global data, bytesDiscard (reading.reader.offset - reading.reader.discarded) reading.global
    reading.data =
        some (global, data) ∧
      (∀ skb ∉ front, global.owner skb = reading.global.owner skb) ∧
      (∀ skb ∈ back.head?, data.cb skb = (reading.data.cb skb).skip k) ∧
      ∀ reader : Reader, reader.offset = BitVec.ofNat 32 cursor.pos →
      reader.discarded = BitVec.ofNat 32 cursor.pos →
        (∃ front' back', front' ++ back' = back ∧ reader.At data.cb front' 0) →
          Follows bytes ⟨reader, global, data⟩ { cursor with base := cursor.pos } back future := by
  have length := follows.length_eq
  have small := follows.small
  have base_le := follows.base_le
  have pos_le := follows.pos_le
  have nodup := follows.window.space.nodup
  have exact_ : (reading.reader.offset - reading.reader.discarded).toNat =
      seqs reading.data.cb front + k := by
    rw [follows.offset, follows.discarded, ← total]
    clear part
    simp only [BitVec.toNat_sub, BitVec.toNat_ofNat]
    omega
  have enough : front.length < reading.data.space.inOrderCount.toNat + 1 := by
    rw [follows.window.space.inOrderCount_eq, Int.toNat_natCast, List.length_append]
    omega
  obtain ⟨global, data, ran, space, numSeqs, owner, head, others⟩ :=
    discardLoop_spec { reading.data with
      numSeqs := reading.data.numSeqs - (reading.reader.offset - reading.reader.discarded)
      seqNo := reading.data.seqNo + (reading.reader.offset - reading.reader.discarded) }
      follows.window.space follows.window.valid exact_ part enough
  have backNodup : back.Nodup := (List.nodup_append.mp (List.nodup_append.mp nodup).1).2.1
  obtain ⟨content_, valid⟩ := content_skip bytes backNodup
    (fun skb mem => follows.window.valid skb (List.mem_append_right _ mem)) part head others
  have left : seqs data.cb back = seqs reading.data.cb back - k := by
    rw [← length_content bytes, content_, List.length_drop, length_content]
  have apart : ∀ skb ∈ back ++ future, skb ∉ front := by
    rw [List.append_assoc] at nodup
    exact fun skb mem inFront => (List.nodup_append.mp nodup).2.2 skb inFront skb mem rfl
  rw [seqs_append] at length small
  refine ⟨global, data, ran, owner, head, fun reader offset discarded at_ => ?_⟩
  exact {
    window := {
      space := space
      alive := by
        intro skb mem
        have alive := follows.window.alive skb (List.mem_append_right _ mem)
        rwa [Global.live, ← owner skb (apart skb (List.mem_append_left _ mem))] at alive
      valid := valid }
    aliveFuture := by
      intro skb mem
      have alive := follows.aliveFuture skb mem
      rwa [Global.live, ← owner skb (apart skb (List.mem_append_right _ mem))] at alive
    numSeqs := by
      rw [numSeqs, left]
      clear part
      apply BitVec.eq_of_toNat_eq
      simp only [BitVec.toNat_sub, exact_, follows.numSeqs, seqs_append, BitVec.toNat_ofNat]
      omega
    small := by
      clear part
      simp only [left]
      omega
    content := by
      have there : cursor.pos = cursor.base + (seqs reading.data.cb front + k) := by
        clear part
        omega
      rw [content_, there, ← List.drop_drop, follows.content,
        content_append, ← length_content bytes,
        List.drop_length_add_append]
    base_le := le_rfl
    pos_le := pos_le
    offset := offset
    discarded := discarded
    at_ := by
      rw [Nat.sub_self]
      exact at_ }

/-- **Discarding leaves the reader at the first byte that is left.** -/
theorem Follows.discardPreceding (follows : Follows bytes reading cursor inOrder future) :
    ∃ global data back, bytesDiscard (reading.reader.offset - reading.reader.discarded)
    reading.global reading.data =
        some (global, data) ∧
      (∀ skb ∉ inOrder, global.owner skb = reading.global.owner skb) ∧
      Follows bytes ⟨reading.reader.forget, global, data⟩
          { cursor with base := cursor.pos } back future := by
  obtain ⟨front, back, rfl, here⟩ := follows.at_
  have remain := here.remain
  have discarded : reading.reader.forget.discarded = BitVec.ofNat 32 cursor.pos := by
    rw [Reader.forget, ← follows.offset, BitVec.add_comm, BitVec.sub_add_cancel]
  by_cases empty : reading.reader.segmentRemain = 0
  · -- The segment of the reader is discarded too.
    have zero : reading.reader.segmentRemain.toNat = 0 := by rw [empty]; rfl
    obtain ⟨global, data, ran, owner, -, follows'⟩ :=
      follows.discard (k := 0) (by omega) (Or.inl rfl)
    refine ⟨global, data, back, ran, fun skb absent => owner skb fun mem =>
      absent (List.mem_append_left _ mem),
      follows' _ follows.offset discarded ⟨[], back, rfl, ?_⟩⟩
    refine ⟨if_pos empty, ?_, by simp⟩
    rw [Reader.forget, zero]
    rfl
  · -- The reader stays in its segment.
    have positive : 0 < reading.reader.segmentRemain.toNat :=
      Nat.pos_of_ne_zero fun zero => empty (BitVec.eq_of_toNat_eq zero)
    obtain ⟨others, skb, rfl, segment, remain, most, ends⟩ := here.exists_segment (by omega)
    have valid := follows.window.valid skb (by simp)
    rw [List.append_assoc, List.singleton_append] at follows
    have part : (reading.data.cb skb).numSeqs.toNat - reading.reader.segmentRemain.toNat <
        (reading.data.cb skb).numSeqs.toNat := by omega
    obtain ⟨global, data, ran, owner, head, follows'⟩ :=
      follows.discard (k := (reading.data.cb skb).numSeqs.toNat -
        reading.reader.segmentRemain.toNat) (by omega)
        (Or.inr ⟨skb, rfl, part⟩)
    refine ⟨global, data, skb :: back, ran, ?_, follows' _ follows.offset discarded
      ⟨[skb], back, rfl, ?_⟩⟩
    · intro other absent
      simp only [List.mem_append, not_or] at absent
      exact owner other absent.1.1
    · have numSeqs := SkbCb.skip_numSeqs part
      have offset := SkbCb.skip_offset valid part
      rw [← head skb rfl] at numSeqs offset
      refine ⟨?_, ?_, ?_⟩
      · rw [Reader.forget, segment]
        exact if_neg empty
      · rw [seqs_cons, seqs_nil, numSeqs]
        change 0 + reading.reader.segmentRemain.toNat = _
        omega
      · intro other isLast
        rw [List.getLast?_singleton] at isLast
        cases Option.some.inj isLast
        rw [numSeqs, offset]
        change reading.reader.segmentRemain.toNat ≤ _ ∧
          reading.reader.segmentOffset.toNat + reading.reader.segmentRemain.toNat = _
        omega

/-- Where the reader is depends on the segments up to it only. -/
theorem Reader.At.congr {reader : Reader} {cb cb' : SkBuff → SkbCb}
    {front : List SkBuff} {at_ : Nat} (here : reader.At cb front at_)
        (same : ∀ skb ∈ front, cb' skb = cb skb) : reader.At cb' front at_ where
  segment := here.segment
  remain := by rw [here.remain, seqs_congr same]
  within := by
    intro skb last
    rw [same skb (List.mem_of_getLast? last)]
    exact here.within skb last

/-- **A further segment is behind all that the reader knows.** -/
theorem Follows.append (follows : Follows bytes reading cursor inOrder future)
    {global : Global Owner} {skb : SkBuff} {cb : SkbCb} (fresh : skb ∉ inOrder ++ future)
    (taken : global.live skb = true) (alive : ∀ other, reading.global.live other = true →
      global.live other = true) (valid : cb.Valid)
    (small : cursor.stream.length - cursor.base + cb.numSeqs.toNat < 2147483648) :
    Follows bytes ⟨reading.reader, global, reading.data.append skb cb⟩
      { cursor with stream := cursor.stream ++ segmentBytes bytes cb skb }
          (inOrder ++ [skb]) future := by
  have length := follows.length_eq
  have base_le := follows.base_le
  have pos_le := follows.pos_le
  have same : ∀ other ∈ inOrder, (reading.data.append skb cb).cb other = reading.data.cb other := by
    intro other mem
    refine Function.update_of_ne ?_ _ _
    rintro rfl
    exact fresh (List.mem_append_left _ mem)
  have here : (reading.data.append skb cb).cb skb = cb := Function.update_self _ _ _
  have total : seqs (reading.data.append skb cb).cb (inOrder ++ [skb]) =
      seqs reading.data.cb inOrder + cb.numSeqs.toNat := by
    rw [seqs_append, seqs_cons, seqs_nil, seqs_congr same, here, Nat.add_zero]
  exact {
    window := {
      space := follows.window.space.pushInOrder fresh
      alive := by
        intro other mem
        rcases List.mem_append.mp mem with mem | mem
        · exact alive other (follows.window.alive other mem)
        · rw [List.mem_singleton.mp mem]
          exact taken
      valid := by
        intro other mem
        rcases List.mem_append.mp mem with mem | mem
        · rw [same other mem]
          exact follows.window.valid other mem
        · rw [List.mem_singleton.mp mem, here]
          exact valid }
    aliveFuture := fun other mem => alive other (follows.aliveFuture other mem)
    numSeqs := by
      rw [total, BitVec.ofNat_add, ← follows.numSeqs, BitVec.ofNat_toNat, BitVec.setWidth_eq]
      rfl
    small := by
      rw [total]
      omega
    content := by
      have single : Tracker.content bytes (reading.data.append skb cb).cb [skb] =
          segmentBytes bytes cb skb := by
        rw [content_cons, here]
        exact List.append_nil _
      rw [content_append, content_congr same, single, ← follows.content]
      exact List.drop_append_of_le_length (base_le.trans pos_le)
    base_le := base_le
    pos_le := by
      rw [List.length_append]
      exact pos_le.trans (Nat.le_add_right _ _)
    offset := follows.offset
    discarded := follows.discarded
    at_ := by
      obtain ⟨front, back, rfl, at_⟩ := follows.at_
      exact ⟨front, back ++ [skb], (List.append_assoc _ _ _).symm,
        at_.congr fun other mem => same other (List.mem_append_left _ mem)⟩ }

theorem Follows.take (follows : Follows bytes reading cursor inOrder future) (owner : Owner)
    {skb : SkBuff} {cb : SkbCb} (free : reading.global.owner skb = none) (valid : cb.Valid)
    (small : cursor.stream.length - cursor.base + cb.numSeqs.toNat < 2147483648) :
    Follows bytes ⟨reading.reader, reading.global.take owner skb, reading.data.append skb cb⟩
      { cursor with stream := cursor.stream ++ segmentBytes bytes cb skb }
          (inOrder ++ [skb]) future := by
  have dead : ¬ reading.global.live skb = true := by simp [Global.live, free]
  refine follows.append ?_ ?_ ?_ valid small
  · intro mem
    rcases List.mem_append.mp mem with mem | mem
    · exact dead (follows.window.alive skb mem)
    · exact dead (follows.aliveFuture skb mem)
  · rw [Global.live, Global.take_owner]
    rfl
  · intro other alive
    have apart : other ≠ skb := by
      rintro rfl
      exact dead alive
    rw [Global.live, Global.take_owner_of_ne apart]
    exact alive

theorem Follows.replay (follows : Follows bytes reading cursor inOrder future) {skb : SkBuff}
    {cb : SkbCb} (first : reading.data.space.future = some skb) (valid : cb.Valid)
    (small : cursor.stream.length - cursor.base + cb.numSeqs.toNat < 2147483648) :
    ∃ future', Follows bytes { reading with data := reading.data.replay skb cb }
      { cursor with stream := cursor.stream ++ segmentBytes bytes cb skb }
          (inOrder ++ [skb]) future' := by
  have space := follows.window.space
  rw [space.future_eq] at first
  obtain ⟨future', rfl⟩ := List.head?_eq_some_iff.mp first
  have popped : Follows bytes
      { reading with data := { reading.data with space := reading.data.space.popFuture skb } }
          cursor inOrder future' :=
    { follows with
      window := { follows.window with space := space.popFuture }
      aliveFuture := fun other mem => follows.aliveFuture other (List.mem_cons_of_mem _ mem) }
  have nodup : (skb :: (inOrder ++ future')).Nodup := List.perm_middle.nodup_iff.mp space.nodup
  exact ⟨future', popped.append (List.nodup_cons.mp nodup).1
    (follows.aliveFuture skb List.mem_cons_self)
    (fun _ alive => alive) valid small⟩

/-- **The reader follows the cursor.** -/
theorem Follows.step (follows : Follows bytes reading cursor inOrder future) (owner : Owner)
    {call : ReaderCall} {cursor' : Cursor} {out : Returned Nat}
    (moved : cursor.step bytes call = some (cursor', out)) (possible : call.Possible reading) :
    ∃ reading', reading.step owner bytes call = some (reading', out.wrap) ∧
      (∀ skb, reading.global.owner skb = none → (∀ cb, call ≠ .append skb cb) →
        reading'.global.owner skb = none) ∧
      ∃ inOrder' future', Follows bytes reading' cursor' inOrder' future' := by
  cases call with
  | fwdReadU8 =>
    rw [Cursor.step, Option.map_eq_some_iff] at moved
    obtain ⟨b, here, same⟩ := moved
    cases same
    obtain ⟨next, read, follows'⟩ := follows.fwdReadU8 here
    exact ⟨{ reading with reader := next }, by rw [Reading.step, read]; rfl, fun _ free _ => free,
      inOrder, future, follows'⟩
  | advance n =>
    simp only [Cursor.step, Option.ite_none_right_eq_some, Option.some.injEq, Prod.mk.injEq]
      at moved
    obtain ⟨within, rfl, rfl⟩ := moved
    obtain ⟨next, ran, offset, follows'⟩ :=
      follows.advances within (reading.reader.offset + BitVec.ofNat 32 n)
      (by rw [follows.offset, BitVec.ofNat_add])
    rw [← offset] at follows'
    exact ⟨{ reading with reader := { next with offset := next.offset + BitVec.ofNat 32 n } },
      by rw [Reading.step, Reader.advance, ran]; rfl, fun _ free _ => free, inOrder,
      future, follows'⟩
  | retreat n =>
    simp only [Cursor.step, Option.ite_none_right_eq_some, Option.some.injEq, Prod.mk.injEq]
      at moved
    obtain ⟨within, rfl, rfl⟩ := moved
    have offset_ : reading.reader.offset - BitVec.ofNat 32 n =
        BitVec.ofNat 32 (cursor.pos - n) := by
      rw [follows.offset]
      apply BitVec.eq_of_toNat_eq
      simp only [BitVec.toNat_sub, BitVec.toNat_ofNat]
      omega
    obtain ⟨next, ran, offset, follows'⟩ := follows.retreats within _ offset_
    rw [← offset] at follows'
    exact ⟨{ reading with reader := { next with offset := next.offset - BitVec.ofNat 32 n } },
      by rw [Reading.step, Reader.retreat, ran]; rfl, fun _ free _ => free, inOrder,
      future, follows'⟩
  | positionSet pos =>
    simp only [Cursor.step, Option.ite_none_right_eq_some, Option.some.injEq, Prod.mk.injEq]
      at moved
    obtain ⟨⟨base_le, pos_le⟩, rfl, rfl⟩ := moved
    obtain ⟨next, ran, follows'⟩ := follows.positionSet base_le pos_le
    exact ⟨{ reading with reader := next }, by rw [Reading.step, ran]; rfl, fun _ free _ => free,
      inOrder, future, follows'⟩
  | positionGet =>
    cases moved
    exact ⟨reading, by rw [Reading.step, follows.offset]; rfl, fun _ free _ => free, inOrder,
      future, follows⟩
  | remainGet =>
    cases moved
    exact ⟨reading, by rw [Reading.step, follows.remainGet]; rfl, fun _ free _ => free, inOrder,
      future, follows⟩
  | discardPreceding =>
    cases moved
    obtain ⟨global, data, back, ran, same, follows'⟩ := follows.discardPreceding
    refine ⟨_, by rw [Reading.step, ran]; rfl, fun skb free _ =>
      (same skb fun mem => ?_).trans free, back, future, follows'⟩
    have alive := follows.window.alive skb mem
    rw [Global.live, free] at alive
    cases alive
  | append skb cb =>
    simp only [Cursor.step, Option.ite_none_right_eq_some, Option.some.injEq, Prod.mk.injEq]
      at moved
    obtain ⟨small, rfl, rfl⟩ := moved
    refine ⟨_, rfl, fun other free apart => ?_, inOrder ++ [skb], future,
      follows.take owner possible.1 possible.2 small⟩
    have ne : other ≠ skb := by
      rintro rfl
      exact apart cb rfl
    exact (Global.take_owner_of_ne ne).trans free
  | replay skb cb =>
    simp only [Cursor.step, Option.ite_none_right_eq_some, Option.some.injEq, Prod.mk.injEq]
      at moved
    obtain ⟨small, rfl, rfl⟩ := moved
    obtain ⟨future', follows'⟩ := follows.replay possible.1 possible.2 small
    exact ⟨{ reading with data := reading.data.replay skb cb }, rfl, fun _ free _ => free,
      inOrder ++ [skb], future',
      follows'⟩

end Follows

/-! ### Every run -/

/-- How far a call moves. -/
def ReaderCall.move (cursor : Cursor) : ReaderCall → Int
  | fwdReadU8 => 1
  | advance n => n
  | retreat n => -n
  | positionSet pos => pos - cursor.pos
  | _ => 0

theorem Cursor.step_pos {bytes : SkBuff → Nat → BitVec 8} {cursor cursor' : Cursor}
    {call : ReaderCall} {out : Returned Nat}
    (moved : cursor.step bytes call = some (cursor', out)) :
    (cursor'.pos : Int) = cursor.pos + call.move cursor := by
  cases call with
  | fwdReadU8 =>
    rw [Cursor.step, Option.map_eq_some_iff] at moved
    obtain ⟨b, -, same⟩ := moved
    cases same
    rfl
  | advance n =>
    simp only [Cursor.step, Option.ite_none_right_eq_some, Option.some.injEq, Prod.mk.injEq]
      at moved
    obtain ⟨-, rfl, -⟩ := moved
    exact Int.natCast_add _ _
  | retreat n =>
    simp only [Cursor.step, Option.ite_none_right_eq_some, Option.some.injEq, Prod.mk.injEq]
      at moved
    obtain ⟨within, rfl, -⟩ := moved
    simp only [ReaderCall.move]
    omega
  | positionSet pos =>
    simp only [Cursor.step, Option.ite_none_right_eq_some, Option.some.injEq, Prod.mk.injEq]
      at moved
    obtain ⟨-, rfl, -⟩ := moved
    simp only [ReaderCall.move]
    omega
  | append skb cb | replay skb cb =>
    simp only [Cursor.step, Option.ite_none_right_eq_some, Option.some.injEq, Prod.mk.injEq]
      at moved
    obtain ⟨-, rfl, -⟩ := moved
    exact (Int.add_zero _).symm
  | _ =>
    cases moved
    exact (Int.add_zero _).symm

/-- A new reader. The stream starts with the data that is in order. -/
structure Starts (bytes : SkBuff → Nat → BitVec 8) (reading : Reading Owner)
    (stream : List (BitVec 8)) (inOrder future : List SkBuff) : Prop where
  reader : reading.reader = ⟨0, 0, 0, 0, none⟩
  window : Window reading.global.live reading.data inOrder future
  aliveFuture : ∀ skb ∈ future, reading.global.live skb = true
  numSeqs : reading.data.numSeqs = BitVec.ofNat 32 (seqs reading.data.cb inOrder)
  small : seqs reading.data.cb inOrder < 2147483648
  stream_eq : stream = content bytes reading.data.cb inOrder

/-- What comes from a new reader by calls, with a cursor to which the same calls were made, and with
the sum of their moves. -/
inductive Reached (owner : Owner) (bytes : SkBuff → Nat → BitVec 8) : Reading Owner →
    Cursor → Int → Prop
  | start {reading : Reading Owner} {stream : List (BitVec 8)} {inOrder future : List SkBuff}
      (starts : Starts bytes reading stream inOrder future) :
      Reached owner bytes reading ⟨stream, 0, 0⟩ 0
  | step {reading reading' : Reading Owner} {cursor cursor' : Cursor} {moves : Int}
    {call : ReaderCall}
      {out : Returned Nat} {returned : Returned (BitVec 32)}
      (reached : Reached owner bytes reading cursor moves)
      (moved : cursor.step bytes call = some (cursor', out)) (possible : call.Possible reading)
      (stepped : reading.step owner bytes call = some (reading', returned)) :
      Reached owner bytes reading' cursor' (moves + call.move cursor)

section Reached

variable {bytes : SkBuff → Nat → BitVec 8} {reading : Reading Owner} {cursor : Cursor} {moves : Int}
    {owner : Owner}

theorem Starts.follows {stream : List (BitVec 8)} {inOrder future : List SkBuff}
    (starts : Starts bytes reading stream inOrder future) :
        Follows bytes reading ⟨stream, 0, 0⟩ inOrder future where
  window := starts.window
  aliveFuture := starts.aliveFuture
  numSeqs := starts.numSeqs
  small := starts.small
  content := starts.stream_eq
  base_le := le_rfl
  pos_le := Nat.zero_le _
  offset := by rw [starts.reader]; rfl
  discarded := by rw [starts.reader]; rfl
  at_ := ⟨[], inOrder, rfl, by rw [starts.reader]; exact ⟨rfl, rfl, by simp⟩⟩

theorem Reached.follows (reached : Reached owner bytes reading cursor moves) :
    (cursor.pos : Int) = moves ∧ ∃ inOrder future, Follows bytes reading cursor inOrder future := by
  induction reached with
  | start starts => exact ⟨rfl, _, _, starts.follows⟩
  | step reached moved possible stepped ih =>
    obtain ⟨pos, inOrder, future, follows⟩ := ih
    obtain ⟨_, same, -, inOrder', future', follows'⟩ := follows.step _ moved possible
    rw [stepped] at same
    cases same
    exact ⟨by rw [Cursor.step_pos moved, pos], inOrder', future', follows'⟩

/-- A call that the cursor may make can be made. -/
theorem Reached.next (reached : Reached owner bytes reading cursor moves) {call : ReaderCall}
    {cursor' : Cursor} {out : Returned Nat} (moved : cursor.step bytes call = some (cursor', out))
    (possible : call.Possible reading) :
    ∃ reading', Reached owner bytes reading' cursor' (moves + call.move cursor) ∧
      ∀ skb, reading.global.owner skb = none → (∀ cb, call ≠ .append skb cb) →
          reading'.global.owner skb = none := by
  obtain ⟨-, inOrder, future, follows⟩ := reached.follows
  obtain ⟨reading', stepped, free, -⟩ := follows.step owner moved possible
  exact ⟨reading', reached.step moved possible stepped, free⟩

end Reached

/-- The number of a byte in its buffer. -/
def numbers (_ : SkBuff) (i : Nat) : BitVec 8 := BitVec.ofNat 8 i

/-- The n-th buffer that is received. -/
def received (n : Nat) : SkBuff := ⟨n, 65535, 66000, by decide, by decide, by decide⟩

/-- The fields of a buffer that is full. -/
def full : SkbCb := ⟨0, 65535, 54⟩

end Qsdk.Tracker
