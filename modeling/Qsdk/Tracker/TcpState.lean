/-
**The TCP tracker's view of the two senders.**

`ecm_tracker_tcp_state_update_callback` moves the states of the sender and of its peer at each
segment. A sender closes when the peer acknowledges more than the sequence number recorded at its
FIN. This is the sequence number of the segment that had the FIN: the data of the segment, which
comes before the FIN, is not counted. So the tracking is sound as long as each FIN that is recorded
comes without data (`run_sound`), and not otherwise (`closed_before_fin`).
-/

import Mathlib.Data.BitVec
import Mathlib.Data.List.Induction
import Mathlib.Order.Basic

namespace Qsdk.Tracker

/-- `enum ecm_tracker_sender_types`. -/
inductive SenderType
  | src
  | dest
  deriving DecidableEq, Repr

/-- `!sender`. -/
def SenderType.peer : SenderType → SenderType
  | src => dest
  | dest => src

/-- `enum ecm_tracker_sender_states`. -/
inductive SenderState
  | unknown
  | establishing
  | established
  | closing
  | closed
  | fault
  deriving DecidableEq, Repr

/-- The numerical value that the logic depends on. -/
def SenderState.value : SenderState → Nat
  | unknown => 0
  | establishing => 1
  | established => 2
  | closing => 3
  | closed => 4
  | fault => 5

/-- `enum ecm_tracker_connection_states`. -/
inductive ConnectionState
  | establishing
  | established
  | closing
  | closed
  | fault
  deriving DecidableEq, Repr

/-- `struct ecm_tracker_tcp_sender_state`. -/
structure TcpSenderState where
  state : SenderState
  synSeq : BitVec 32
  finSeq : BitVec 32
  deriving DecidableEq, Repr

/-- `sender_states` of an instance. -/
abbrev SenderStates := SenderType → TcpSenderState

/-- The states of a new instance, which is zeroed. -/
def SenderStates.init : SenderStates := fun _ => ⟨.unknown, 0, 0⟩

/-- `ecm_tracker_tcp_connection_state_matrix`, row by row. -/
def connectionStateMatrix : SenderState → SenderState → ConnectionState
  | .unknown => fun
    | .unknown => .establishing | .establishing => .establishing | .established => .established
    | .closing => .fault | .closed => .fault | .fault => .fault
  | .establishing => fun
    | .unknown => .establishing | .establishing => .establishing | .established => .establishing
    | .closing => .fault | .closed => .fault | .fault => .fault
  | .established => fun
    | .unknown => .established | .establishing => .establishing | .established => .established
    | .closing => .closing | .closed => .closing | .fault => .fault
  | .closing => fun
    | .unknown => .fault | .establishing => .fault | .established => .closing
    | .closing => .closing | .closed => .closing | .fault => .fault
  | .closed => fun
    | .unknown => .fault | .establishing => .fault | .established => .closing
    | .closing => .closing | .closed => .closed | .fault => .fault
  | .fault => fun
    | .unknown => .fault | .establishing => .fault | .established => .fault
    | .closing => .fault | .closed => .fault | .fault => .fault

/-- The connection's state in `ecm_tracker_tcp_state_get_callback`. -/
def SenderStates.connectionState (states : SenderStates) : ConnectionState :=
  connectionStateMatrix (states .src).state (states .dest).state

/-! ### Segments -/

/-- A segment: what `ecm_tracker_tcp_check_header_and_read` learns from the IP header (of the record
of the TCP header, its size alone and with the payload, and its offset), and the TCP header. -/
structure Segment where
  headerSize : Nat
  size : Nat
  headerOffset : Nat
  totalLength : Nat
  /-- `skb_header_pointer` can read the TCP header. -/
  readable : Bool
  doff : Nat
  flags : Nat
  seq : BitVec 32
  ackSeq : BitVec 32
  deriving DecidableEq, Repr

def tcfFin : Nat := 0x01
def tcfSyn : Nat := 0x02
def tcfRst : Nat := 0x04
def tcfPsh : Nat := 0x08
def tcfAck : Nat := 0x10
def tcfUrg : Nat := 0x20

/-- `ecm_tracker_tcp_valid_flags`. -/
def validFlags : List Nat :=
  [tcfFin ||| tcfRst ||| tcfAck, tcfFin ||| tcfPsh ||| tcfAck,
    tcfFin ||| tcfPsh ||| tcfAck ||| tcfUrg,
    tcfFin ||| tcfAck, tcfFin ||| tcfAck ||| tcfUrg, tcfSyn, tcfSyn ||| tcfAck, tcfRst,
    tcfRst ||| tcfPsh ||| tcfAck, tcfRst ||| tcfAck, tcfPsh ||| tcfAck,
    tcfPsh ||| tcfAck ||| tcfUrg, tcfAck,
    tcfAck ||| tcfUrg]

namespace Segment

def fin (segment : Segment) : Bool := segment.flags.testBit 0
def syn (segment : Segment) : Bool := segment.flags.testBit 1
def rst (segment : Segment) : Bool := segment.flags.testBit 2
def ack (segment : Segment) : Bool := segment.flags.testBit 4

/-- `ecm_tracker_tcp_check_header_and_read` returns the header. -/
def checkHeader (segment : Segment) : Bool :=
  decide (segment.size ≠ 0) && segment.readable && decide (20 ≤ segment.doff <<< 2) &&
    decide (segment.headerOffset + segment.size ≤ segment.totalLength) &&
    decide (segment.flags &&& 0x3f ∈ validFlags)

/-- The number of bytes after the TCP header. -/
def payload (segment : Segment) : Nat := segment.size - segment.headerSize

/-- The sequence number that the FIN of the segment has. -/
def finSeq (segment : Segment) : BitVec 32 := segment.seq + BitVec.ofNat 32 segment.payload

end Segment

/-- A segment and who sent it. -/
abbrev Arrival := SenderType × Segment

/-! ### The update -/

namespace TcpSenderState

/-- What an acknowledgement does to the state of the peer. -/
def onAck (ackSeq : BitVec 32) (peer : TcpSenderState) : TcpSenderState :=
  match peer.state with
  | .unknown => { peer with state := .established, synSeq := ackSeq - 1 }
  | .establishing => if (ackSeq - peer.synSeq).toInt ≤ 0 then peer else
    { peer with state := .established }
  | .closing => if (ackSeq - peer.finSeq).toInt ≤ 0 then peer else { peer with state := .closed }
  | .established | .closed | .fault => peer

/-- What a SYN does to the state of the sender. -/
def onSyn (seq : BitVec 32) (sender : TcpSenderState) : TcpSenderState :=
  match sender.state with
  | .unknown => { sender with state := .establishing, synSeq := seq }
  | .closing | .closed => { sender with state := .fault }
  | .established | .establishing | .fault => sender

/-- What a FIN does to the state of the sender. -/
def onFin (seq : BitVec 32) (syn : Bool) (sender : TcpSenderState) : TcpSenderState :=
  match sender.state with
  | .unknown =>
    if syn then { state := .closing, synSeq := seq, finSeq := seq + 1 }
    else { state := .closing, synSeq := seq - 1, finSeq := seq }
  | .established => { sender with state := .closing, finSeq := seq }
  | .establishing =>
    -- The source computes a sequence number for the FIN here, and does not store it.
    if !syn || decide ((seq - sender.synSeq).toInt ≤ 0) then { sender with state := .fault }
    else { sender with state := .closing }
  | .closing | .closed | .fault => sender

end TcpSenderState

/-- `ecm_tracker_tcp_state_update_callback`. -/
def SenderStates.update (states : SenderStates) (arrival : Arrival) : SenderStates :=
  let (sender, segment) := arrival
  if !segment.checkHeader || segment.rst then fun who => { states who with state := .fault }
  else fun who =>
    if who = sender then
      let afterSyn := if segment.syn then (states who).onSyn segment.seq else states who
      if segment.fin then afterSyn.onFin segment.seq segment.syn else afterSyn
    else if segment.ack then (states who).onAck segment.ackSeq else states who

/-- The states after some segments. -/
def run (arrivals : List Arrival) : SenderStates := arrivals.foldl SenderStates.update .init

theorem run_append_singleton (before : List Arrival) (arrival : Arrival) :
    run (before ++ [arrival]) = (run before).update arrival := by
  rw [run, List.foldl_append]
  rfl

/-! ### Soundness -/

/-- The first sequence number is serially beyond the second. -/
def Beyond (ackSeq seq : BitVec 32) : Prop := 0 < (ackSeq - seq).toInt

/-- The segment with which a sender went into the closing state. -/
def ClosingBy (who : SenderType) (arrivals : List Arrival) (fin : Segment) : Prop :=
  ∃ first last, arrivals = first ++ (who, fin) :: last ∧ fin.fin = true ∧
    (run first who).state ≠ .closing ∧
    (run (first ++ [(who, fin)]) who).state = .closing

/-- The tracking is sound at a step: states move forward, or to fault; a sender closes only after
the peer has acknowledged its FIN; and the connection is closed only if both senders are. -/
structure SoundAt (before : List Arrival) (arrival : Arrival) : Prop where
  forward : ∀ who, (run before who).state.value ≤ (run (before ++ [arrival]) who).state.value
  closes : ∀ who, (run before who).state ≠ .closed →
    (run (before ++ [arrival]) who).state = .closed →
    arrival.1 = who.peer ∧ arrival.2.ack = true ∧
      ∃ fin, ClosingBy who before fin ∧ Beyond arrival.2.ackSeq fin.finSeq
  closed : (run (before ++ [arrival])).connectionState = .closed →
    ∀ who, (run (before ++ [arrival]) who).state = .closed

/-- The FIN of a segment is recorded: the segment is valid, and its sender has not closed. -/
def Records (states : SenderStates) (arrival : Arrival) : Prop :=
  (arrival.2.checkHeader = true ∧ arrival.2.rst = false ∧ arrival.2.fin = true) ∧
    ((states arrival.1).state = .unknown ∨ (states arrival.1).state = .established)

/-- Each FIN of the run that is recorded comes without data. -/
def NoDataWithFin (arrivals : List Arrival) : Prop :=
  ∀ before arrival after, arrivals = before ++ arrival :: after → Records (run before) arrival →
    arrival.2.payload = 0

variable {segment : Segment} {states : SenderStates} {arrival : Arrival} {who : SenderType}
    {before : List Arrival}

/-- No valid segment has both a SYN and a FIN. -/
theorem Segment.not_syn_of_fin (valid : segment.checkHeader = true) (fin : segment.fin = true) :
    segment.syn = false := by
  have listed : segment.flags &&& 0x3f ∈ validFlags := by
    simp only [checkHeader, Bool.and_eq_true, decide_eq_true_eq] at valid
    exact valid.2
  have noPair : ∀ flags ∈ validFlags, flags.testBit 0 = true → flags.testBit 1 = false := by decide
  have masked := noPair _ listed
  rw [Nat.testBit_and, Nat.testBit_and] at masked
  rw [Segment.fin] at fin
  have narrow : Nat.testBit 0x3f 0 = true ∧ Nat.testBit 0x3f 1 = true := by decide
  rw [narrow.1, narrow.2, Bool.and_true, Bool.and_true] at masked
  exact masked fin

theorem onAck_value_le (ackSeq : BitVec 32) (peer : TcpSenderState) :
    peer.state.value ≤ (peer.onAck ackSeq).state.value := by
  unfold TcpSenderState.onAck
  split <;> rename_i state
  all_goals first | (split_ifs <;> simp [state, SenderState.value]) | simp [state,
    SenderState.value]

theorem onSyn_value_le (seq : BitVec 32) (sender : TcpSenderState) :
    sender.state.value ≤ (sender.onSyn seq).state.value := by
  unfold TcpSenderState.onSyn
  split <;> rename_i state <;> simp [state, SenderState.value]

theorem onFin_value_le (seq : BitVec 32) (syn : Bool) (sender : TcpSenderState) :
    sender.state.value ≤ (sender.onFin seq syn).state.value := by
  unfold TcpSenderState.onFin
  split <;> rename_i state
  all_goals first | (split_ifs <;> simp [state, SenderState.value]) | simp [state,
    SenderState.value]

theorem SenderState.value_le_fault (state : SenderState) : state.value ≤
    SenderState.fault.value := by
  cases state <;> decide

theorem SenderType.eq_peer {sender : SenderType} (other : who ≠ sender) : sender = who.peer := by
  cases who <;> cases sender <;> simp [peer] at other ⊢

/-- **What a segment can do to a sender's state.** -/
theorem SenderStates.update_cases (states : SenderStates) (arrival : Arrival) (who : SenderType) :
    states.update arrival who = { states who with state := .fault } ∨
    (arrival.2.checkHeader = true ∧ arrival.2.rst = false ∧ arrival.1 = who ∧ arrival.2.fin = true ∧
      states.update arrival who = (states who).onFin arrival.2.seq false) ∨
    (arrival.1 = who ∧ states.update arrival who = (states who).onSyn arrival.2.seq) ∨
    (arrival.1 = who.peer ∧ arrival.2.ack = true ∧
      states.update arrival who = (states who).onAck arrival.2.ackSeq) ∨
    states.update arrival who = states who := by
  obtain ⟨sender, segment⟩ := arrival
  by_cases bad : (!segment.checkHeader || segment.rst) = true
  · left
    simp only [SenderStates.update, bad, if_true]
  · right
    simp only [SenderStates.update, bad, if_false, Bool.false_eq_true]
    simp only [Bool.or_eq_true, Bool.not_eq_true', not_or, Bool.not_eq_false, Bool.not_eq_true]
      at bad
    by_cases own : who = sender
    · subst own
      rw [if_pos rfl]
      cases fin : segment.fin with
      | true =>
        have noSyn := Segment.not_syn_of_fin bad.1 fin
        simp only [noSyn, Bool.false_eq_true, if_false, if_true]
        exact .inl ⟨bad.1, bad.2, trivial, trivial, trivial⟩
      | false =>
        simp only [Bool.false_eq_true, if_false]
        split_ifs
        · exact .inr (.inl ⟨trivial, rfl⟩)
        · exact .inr (.inr (.inr rfl))
    · rw [if_neg own]
      split_ifs with ack
      · exact .inr (.inr (.inl ⟨SenderType.eq_peer own, ack, rfl⟩))
      · exact .inr (.inr (.inr rfl))

/-- **States move forward, or to fault.** -/
theorem SenderStates.update_value_le (states : SenderStates) (arrival : Arrival)
    (who : SenderType) :
    (states who).state.value ≤ (states.update arrival who).state.value := by
  rcases states.update_cases arrival who with same | ⟨-, -, -, -, same⟩ | ⟨-, same⟩ | ⟨-, -,
    same⟩ | same <;> rw [same]
  · exact SenderState.value_le_fault _
  · exact onFin_value_le _ _ _
  · exact onSyn_value_le _ _
  · exact onAck_value_le _ _

/-- **What closes a sender**: an acknowledgement from its peer beyond the sequence number that is
recorded. -/
theorem SenderStates.update_closed (notYet : (states who).state ≠ .closed)
    (closed : (states.update arrival who).state = .closed) :
    (states who).state = .closing ∧ arrival.1 = who.peer ∧ arrival.2.ack = true ∧
      Beyond arrival.2.ackSeq (states who).finSeq := by
  rcases states.update_cases arrival who with same | ⟨-, -, -, -, same⟩ | ⟨-, same⟩ | ⟨peer, ack,
      same⟩ | same <;>
    rw [same] at closed
  · cases closed
  · unfold TcpSenderState.onFin at closed
    split at closed <;> (try split_ifs at closed) <;>
      first | cases closed | exact absurd closed notYet
  · unfold TcpSenderState.onSyn at closed
    split at closed <;> first | cases closed | exact absurd closed notYet
  · unfold TcpSenderState.onAck at closed
    split at closed
    · cases closed
    · split_ifs at closed
      · exact absurd closed notYet
    · rename_i closing
      split_ifs at closed with early
      · exact absurd closed notYet
      · exact ⟨closing, peer, ack, Int.not_le.mp early⟩
    all_goals exact absurd closed notYet
  · exact absurd closed notYet

/-- **What brings a sender into the closing state**: a FIN of its own that is recorded, with the
sequence number of the segment. -/
theorem SenderStates.update_closing (notYet : (states who).state ≠ .closing)
    (closing : (states.update arrival who).state = .closing) :
    arrival.1 = who ∧ Records states arrival ∧ (states.update arrival who).finSeq =
        arrival.2.seq := by
  rcases states.update_cases arrival who with same | ⟨valid, rst, own, fin, same⟩ | ⟨-,
      same⟩ | ⟨-, -, same⟩ | same <;>
    rw [same] at closing ⊢
  · cases closing
  · have records : (states who).state = .unknown ∨ (states who).state = .established →
        Records states arrival := fun state => ⟨⟨valid, rst, fin⟩, own ▸ state⟩
    unfold TcpSenderState.onFin at closing ⊢
    split at closing
    · exact ⟨own, records (.inl ‹_›), rfl⟩
    · exact ⟨own, records (.inr ‹_›), rfl⟩
    · cases closing
    all_goals exact absurd closing notYet
  · unfold TcpSenderState.onSyn at closing
    split at closing <;> first | cases closing | exact absurd closing notYet
  · unfold TcpSenderState.onAck at closing
    split at closing <;> (try split_ifs at closing) <;>
      first | cases closing | exact absurd closing notYet
  · exact absurd closing notYet

/-- A sender that is closing keeps the sequence number of its FIN. -/
theorem SenderStates.update_finSeq (closing : (states who).state = .closing) :
    (states.update arrival who).finSeq = (states who).finSeq := by
  rcases states.update_cases arrival who with same | ⟨-, -, -, -, same⟩ | ⟨-, same⟩ | ⟨-, -,
      same⟩ | same <;>
    rw [same]
  · simp only [TcpSenderState.onFin, closing]
  · simp only [TcpSenderState.onSyn, closing]
  · simp only [TcpSenderState.onAck, closing]
    split_ifs <;> rfl

/-- **The connection is closed only if both senders are.** -/
theorem SenderStates.connectionState_closed (closed : states.connectionState = .closed)
    (who : SenderType) :
    (states who).state = .closed := by
  have matrix : ∀ src dest, connectionStateMatrix src dest = .closed →
      src = .closed ∧ dest = .closed := by
    intro src dest
    cases src <;> cases dest <;> simp [connectionStateMatrix]
  obtain ⟨src, dest⟩ := matrix _ _ closed
  cases who with
  | src => exact src
  | dest => exact dest

theorem NoDataWithFin.of_append {arrivals : List Arrival}
    (noData : NoDataWithFin (before ++ arrivals)) :
    NoDataWithFin before := by
  intro first next last same
  refine noData first next (last ++ arrivals) ?_
  rw [same, List.append_assoc, List.cons_append]

/-- A sender that is closing is so by a FIN of its own, whose sequence number is the one that is
recorded. -/
theorem closingBy_of_closing (noData : NoDataWithFin before)
    (closing : (run before who).state = .closing) :
    ∃ fin, ClosingBy who before fin ∧ (run before who).finSeq = fin.finSeq := by
  induction before using List.reverseRecOn with
  | nil => cases closing
  | append_singleton before arrival ih =>
    by_cases already : (run before who).state = .closing
    · obtain ⟨fin, ⟨first, last, same, rest⟩, seq⟩ := ih noData.of_append already
      refine ⟨fin, ⟨first, last ++ [arrival], ?_, rest⟩, ?_⟩
      · rw [same, List.append_assoc, List.cons_append]
      · rw [run_append_singleton] at closing ⊢
        rw [SenderStates.update_finSeq already, seq]
    · have step := closing
      rw [run_append_singleton] at step
      obtain ⟨rfl, records, seq⟩ := SenderStates.update_closing already step
      have empty := noData before arrival [] rfl records
      refine ⟨arrival.2, ⟨before, [], rfl, records.1.2.2, already, closing⟩, ?_⟩
      rw [run_append_singleton, seq, Segment.finSeq, empty]
      exact (BitVec.add_zero _).symm

/-- **In every run where the FINs that are recorded come without data, the tracking is sound at
every step.** -/
theorem run_sound (arrivals : List Arrival) (noData : NoDataWithFin arrivals) :
    ∀ before arrival after, arrivals = before ++ arrival :: after → SoundAt before arrival := by
  intro before arrival after same
  have noDataBefore : NoDataWithFin before := by
    rw [same] at noData
    exact noData.of_append
  refine ⟨?_, ?_, ?_⟩
  · intro who
    rw [run_append_singleton]
    exact SenderStates.update_value_le _ _ _
  · intro who notYet closed
    rw [run_append_singleton] at closed
    obtain ⟨closing, peer, ack, beyond⟩ := SenderStates.update_closed notYet closed
    obtain ⟨fin, byFin, seq⟩ := closingBy_of_closing noDataBefore closing
    exact ⟨peer, ack, fin, byFin, seq ▸ beyond⟩
  · exact SenderStates.connectionState_closed

/-! ### A close with and without data -/

/-- A segment of the connection, with some bytes of data. -/
def segmentOf (flags : Nat) (seq ackSeq : BitVec 32) (data : Nat) : Segment :=
  ⟨20, 20 + data, 20, 40 + data, true, 5, flags, seq, ackSeq⟩

/-- The handshake, and a FIN of the source after some bytes of data. -/
def closeAfter (data : Nat) : List Arrival :=
  [(.src, segmentOf tcfSyn 99 0 0), (.dest, segmentOf (tcfSyn ||| tcfAck) 499 100 0),
    (.src, segmentOf tcfAck 100 500 0),
    (.src, segmentOf (tcfFin ||| tcfPsh ||| tcfAck) 100 500 data)]

theorem run_sound_no_data : SoundAt (closeAfter 0) (.dest, segmentOf tcfAck 500 101 0) := by
  refine run_sound (closeAfter 0 ++ [(.dest, segmentOf tcfAck 500 101 0)]) ?_ _ _ [] rfl
  intro before arrival after same _
  have empty : ∀ arrival ∈ closeAfter 0 ++ [(.dest, segmentOf tcfAck 500 101 0)],
    arrival.2.payload = 0 := by decide
  refine empty arrival ?_
  rw [same]
  exact List.mem_append_right before List.mem_cons_self

/-- **A sender closes before its FIN is acknowledged**: the acknowledgement covers half of the ten
bytes that come with the FIN. -/
theorem closed_before_fin : ¬SoundAt (closeAfter 10) (.dest, segmentOf tcfAck 500 105 0) := by
  intro sound
  obtain ⟨-, -, fin, ⟨first, last, same, isFin, -⟩, beyond⟩ :=
    sound.closes .src (by decide) (by decide)
  have only : ∀ arrival ∈ closeAfter 10, arrival.2.fin = true → arrival.2.finSeq = 110 := by decide
  have seq := only (.src, fin) (same ▸ List.mem_append_right first List.mem_cons_self) isFin
  rw [seq] at beyond
  exact absurd beyond (by unfold Beyond; decide)

end Qsdk.Tracker
