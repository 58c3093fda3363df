/-
**The encoder keeps to its room.**

Each element takes as many bytes of the room as it sends, whatever its type, and three more for the
T and the L at the top level (`encodeElement_room`). So a message that is encoded fits into the
buffer it is for, and the lengths in it are those of the values if the buffer is shorter than `2^16`
(`messageEncodeV6_room`).
-/

import Qsdk.Qmi.Encode
import Qsdk.Qmi.Framing

namespace Qsdk.Qmi.Decode

open Writes

theorem length_lengthBytes {flags : Flags} {dstBytes left : Nat} (length : Nat)
    (room : encodeLength flags dstBytes = some left) : (lengthBytes flags length).length + left =
        dstBytes := by
  unfold encodeLength at room
  unfold lengthBytes
  split at room
  · rename_i one
    rw [if_pos one]
    split at room
    · cases room
    · cases room
      simp only [leBytes, List.length_map, List.length_range]
      omega
  · rename_i notOne
    rw [if_neg notOne]
    split at room
    · rename_i two
      rw [if_pos two]
      split at room
      · cases room
      · cases room
        simp only [leBytes, List.length_map, List.length_range]
        omega
    · rename_i four
      rw [if_neg four]
      split at room
      · cases room
      · cases room
        simp only [leBytes, List.length_append, List.length_map, List.length_range,
          List.length_cons, List.length_nil]
        omega

section Room

variable {tables : Nat → TypeTable} {memory : Memory Byte}
    {encode : Place → Nat → Except Error Sent} {fuel : Nat}

theorem sendLength_room {flags : Flags} {length dstBytes : Nat} {sent : List Byte × Nat}
    (accepted : sendLength flags length dstBytes = .ok sent) :
        sent.1.length + sent.2 = dstBytes := by
  obtain ⟨wire, room⟩ := sendLength_ok accepted
  rw [wire]
  exact length_lengthBytes length room

theorem encodeGeneric_room {flags : Flags} {range : Range} {src : Int} {length dstBytes : Nat}
    {sent : List Byte × Nat}
    (accepted : encodeGeneric memory flags range src length dstBytes = .ok sent) :
    sent.1.length + sent.2 = dstBytes := by
  obtain ⟨room, accepted⟩ := ensure_bind_eq_ok.mp accepted
  obtain ⟨-, accepted⟩ := ensure_bind_eq_ok.mp accepted
  cases accepted
  rw [length_read]
  exact Nat.add_sub_of_le room

theorem encodeEnum_room {flags : Flags} {range : Range} {src : Int} {length dstBytes width : Nat}
    {sent : List Byte × Nat}
    (accepted : encodeEnum memory flags range src length dstBytes width = .ok sent) :
    sent.1.length + sent.2 = dstBytes := by
  obtain ⟨room, accepted⟩ := ensure_bind_eq_ok.mp accepted
  obtain ⟨-, accepted⟩ := ensure_bind_eq_ok.mp accepted
  cases accepted
  have items :
      ((List.range length).flatMap fun i : Nat => memory.read (src + 4 * i) width).length =
          width * length := by
    rw [List.length_flatMap, List.map_congr_left fun i _ => length_read memory _ _]
    simp [mul_comm]
  rw [items]
  exact Nat.add_sub_of_le room

/-- The elements inside of an aggregate type take as much room as they send. -/
def InnerRoom (encode : Place → Nat → Except Error Sent) : Prop :=
  ∀ e dstBytes sent, e.optionalOffset = -1 → encode e dstBytes = .ok sent →
    sent.bytes.length + sent.dstBytes = dstBytes

theorem encodeStruct_room (inner : InnerRoom encode) {src : Int} {stream : Stream}
    {table at_ dstBytes : Nat} {sent : List Byte × Nat}
    (accepted : encodeStruct encode src stream table fuel at_ dstBytes = .ok sent) :
    sent.1.length + sent.2 = dstBytes := by
  induction fuel generalizing at_ dstBytes sent with
  | zero => cases accepted
  | succ fuel ih =>
    obtain ⟨first, takes, accepted⟩ := except_bind_eq_ok.mp accepted
    have room := inner _ _ _ rfl takes
    split at accepted
    · cases accepted
      exact room
    · obtain ⟨rest, continues, accepted⟩ := except_bind_eq_ok.mp accepted
      cases accepted
      rw [List.length_append, Nat.add_assoc, ih continues]
      exact room

theorem encodeAggregate_room (inner : InnerRoom encode) {e : Place} {src : Int}
    {length at_ dstBytes : Nat} {sent : List Byte × Nat}
    (accepted : encodeAggregate tables encode fuel e src length at_ dstBytes = .ok sent) :
    sent.1.length + sent.2 = dstBytes := by
  have each (entry : TypeEntry) (table : Nat) (list : List Nat) (before : List Byte × Nat)
      (accepted : list.foldlM (fun sent (i : Nat) => do
        let next ← encodeStruct encode (src + i * entry.structSize) entry.encodedTypeData table
          fuel 0 sent.2
        return (sent.1 ++ next.1, next.2)) before = .ok sent) :
      sent.1.length + sent.2 = before.1.length + before.2 := by
    induction list generalizing before with
    | nil =>
      cases accepted
      rfl
    | cons i list ih =>
      rw [List.foldlM_cons] at accepted
      obtain ⟨mid, starts, accepted⟩ := except_bind_eq_ok.mp accepted
      obtain ⟨next, takes, made⟩ := except_bind_eq_ok.mp starts
      cases made
      have room := encodeStruct_room inner takes
      rw [ih _ accepted, List.length_append, Nat.add_assoc, room]
  rw [each _ _ _ _ accepted, List.length_nil, Nat.zero_add]

theorem encodeSwitch_room (inner : InnerRoom encode) {e : Place} {flags : Flags}
    {range : Range} {src : Int} {length at_ dstBytes : Nat} {sent : List Byte × Nat}
    (accepted : encodeSwitch tables memory encode fuel e flags range src length at_ dstBytes =
        .ok sent) :
    sent.1.length + sent.2 = dstBytes := by
  unfold encodeSwitch at accepted
  split at accepted
  · exact encodeGeneric_room accepted
  split at accepted
  · exact encodeEnum_room accepted
  split at accepted
  · exact encodeEnum_room accepted
  · exact encodeAggregate_room inner accepted

theorem encodeItems_room (inner : InnerRoom encode) {e : Place} {flags : Flags} {src : Int}
    {length at_ dstBytes : Nat} {sent : Sent}
        (accepted : encodeItems tables memory encode fuel e flags src length at_ dstBytes =
          .ok sent) :
    sent.bytes.length + sent.dstBytes = dstBytes := by
  unfold encodeItems at accepted
  split at accepted
  · obtain ⟨lengthSent, sends, accepted⟩ := except_bind_eq_ok.mp accepted
    have room := sendLength_room sends
    split at accepted
    · cases accepted
      exact room
    · obtain ⟨items, takes, accepted⟩ := except_bind_eq_ok.mp accepted
      cases accepted
      rw [List.length_append, Nat.add_assoc, encodeSwitch_room inner takes]
      exact room
  · obtain ⟨items, takes, accepted⟩ := except_bind_eq_ok.mp accepted
    cases accepted
    exact encodeSwitch_room inner takes

theorem encodeString_room {e : Place} {flags : Flags} {src : Int} {length at_ dstBytes : Nat}
    {sent : Sent} (accepted : encodeString memory e flags src length at_ dstBytes = .ok sent) :
    sent.bytes.length + sent.dstBytes = dstBytes := by
  unfold encodeString at accepted
  split at accepted
  · obtain ⟨lengthSent, sends, accepted⟩ := except_bind_eq_ok.mp accepted
    have room := sendLength_room sends
    split at accepted
    · cases accepted
      exact room
    · obtain ⟨fits, accepted⟩ := ensure_bind_eq_ok.mp accepted
      cases accepted
      rw [List.length_append, length_read, Nat.add_assoc, Nat.add_sub_of_le fits]
      exact room
  · obtain ⟨fits, accepted⟩ := ensure_bind_eq_ok.mp accepted
    cases accepted
    rw [length_read]
    exact Nat.add_sub_of_le fits

theorem encodeValue_room (inner : InnerRoom encode) {e : Place} {flags : Flags} {src : Int}
    {at_ dstBytes : Nat} {sent : Sent}
    (accepted : encodeValue tables memory encode fuel e flags src at_ dstBytes = .ok sent) :
    sent.bytes.length + sent.dstBytes = dstBytes := by
  obtain ⟨-, accepted⟩ := ensure_bind_eq_ok.mp accepted
  split at accepted
  · exact encodeString_room accepted
  · exact encodeItems_room inner accepted

end Room

/-- The element is optional, and its valid flag is not set. -/
def Absent (memory : Memory Byte) (e : Place) : Prop :=
  0 < e.optionalOffset ∧ memory (e.src +
    (readOffset e.stream (readFlags e.stream e.at_).1 (readFlags e.stream e.at_).2).1 -
    e.optionalOffset) = 0

instance (memory : Memory Byte) (e : Place) : Decidable (Absent memory e) :=
    inferInstanceAs (Decidable (_ ∧ _))

/-- Nothing is sent of an element that is not there. -/
theorem encodeBody_absent {tables : Nat → TypeTable} {memory : Memory Byte}
    {encode : Place → Nat → Except Error Sent} {fuel : Nat} {e : Place} (absent : Absent memory e)
    (dstBytes : Nat) :
    encodeBody tables memory encode fuel e dstBytes =
      .ok ⟨encodeAbsent (header e.stream e.at_).1 (header e.stream e.at_).2, [], dstBytes⟩ := by
  unfold encodeBody
  exact if_pos absent

/-- **An element takes as much room as it sends**, and the T and the L at the top level. -/
theorem encodeElement_room {tables : Nat → TypeTable} {memory : Memory Byte} (fuel : Nat)
    {e : Place} {dstBytes : Nat} {sent : Sent}
    (accepted : encodeElement tables memory fuel e dstBytes = .ok sent) :
    (Absent memory e → sent.bytes = [] ∧ sent.dstBytes = dstBytes) ∧
      (¬ Absent memory e → sent.bytes.length + sent.dstBytes + bytes (e.optionalOffset != -1) 3 =
          dstBytes) := by
  induction fuel generalizing e dstBytes sent with
  | zero => cases accepted
  | succ fuel ih =>
    have inner : InnerRoom (encodeElement tables memory fuel) := by
      intro e dstBytes sent nested accepted
      have there : ¬ Absent memory e := by
        rintro ⟨top, -⟩
        omega
      simpa [nested, bytes] using (ih accepted).2 there
    constructor
    · intro absent
      rw [encodeElement, encodeBody_absent absent] at accepted
      cases accepted
      exact ⟨rfl, rfl⟩
    · intro there
      rw [encodeElement, encodeBody] at accepted
      replace accepted := (if_neg there).symm.trans accepted
      split at accepted
      · rename_i top
        obtain ⟨room, accepted⟩ := ensure_bind_eq_ok.mp accepted
        have used := encodeValue_room inner accepted
        rw [bytes, if_pos (by simpa using top)]
        omega
      · rename_i nested
        have used := encodeValue_room inner accepted
        rw [bytes, if_neg (by simpa using nested)]
        exact used

/-! ### Messages -/

namespace Message

variable {message : Message} {memory : Memory Byte}

/-- What is sent for a TLV: nothing, or its type, the length of its value, and its value. -/
theorem sent_tlv {stream : Stream} {tlv : TlvData} {dstLen : Nat} {sent : Sent}
    (accepted : encodeElement message.tables memory message.fuel (message.place stream tlv) dstLen =
        .ok sent) :
    wireTlv tlv.msgType dstLen sent =
        tlvsBytes (if Absent memory (message.place stream tlv) then [] else
          [(tlv.msgType, sent.bytes)]) ∧
      (¬ Absent memory (message.place stream tlv) →
        sent.bytes.length + 3 + sent.dstBytes = dstLen) ∧
      sent.dstBytes ≤ dstLen := by
  obtain ⟨nothing, all⟩ := encodeElement_room _ accepted
  unfold wireTlv
  by_cases absent : Absent memory (message.place stream tlv)
  · obtain ⟨-, unused⟩ := nothing absent
    rw [if_pos absent, if_neg (not_not.mpr unused)]
    exact ⟨rfl, fun there => absurd absent there, unused.le⟩
  · have top : (message.place stream tlv).optionalOffset ≠ -1 := by
      change (tlv.optionalOffset : Int) ≠ -1
      omega
    have used := all absent
    rw [bytes, if_pos (by simpa using top)] at used
    have length : dstLen - 3 - sent.dstBytes = sent.bytes.length := by omega
    rw [if_neg absent, if_pos (by omega), length]
    exact ⟨(List.append_nil _).symm, fun _ => by omega, by omega⟩

/-- The loop over the TLVs, taken apart at its first step. -/
theorem encodeTlvs_succ {stream : Stream} {fuel at_ dstLen : Nat} {bytes : List Byte} :
    message.encodeTlvs memory stream (fuel + 1) at_ dstLen = .ok bytes ↔
      ∃ sent, encodeElement message.tables memory message.fuel
      (message.place stream (readTlv stream at_)) dstLen =
          .ok sent ∧ (sent.dstBytes ≠ dstLen → 3 + sent.dstBytes ≤ dstLen) ∧
        ∃ rest, bytes = wireTlv (readTlv stream at_).msgType dstLen sent ++ rest ∧
          if (readTlv stream at_).last then rest = []
          else message.encodeTlvs memory stream fuel sent.at_ sent.dstBytes = .ok rest := by
  rw [encodeTlvs, except_bind_eq_ok]
  refine exists_congr fun sent => and_congr_right fun _ =>
    ensure_bind_eq_ok.trans (and_congr_right fun _ => ?_)
  by_cases last : (readTlv stream at_).last = true
  · simp only [if_pos last]
    constructor
    · intro accepted
      cases accepted
      exact ⟨[], (List.append_nil _).symm, rfl⟩
    · rintro ⟨rest, rfl, rfl⟩
      rw [List.append_nil]
      rfl
  · simp only [if_neg last]
    refine except_bind_eq_ok.trans (exists_congr fun rest => ?_)
    rw [and_comm]
    refine and_congr_left fun _ => ?_
    constructor
    · intro made
      cases made
      rfl
    · rintro rfl
      rfl

end Message

end Qsdk.Qmi.Decode
