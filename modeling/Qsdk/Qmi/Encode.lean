/-
**Encoding a QMI message.**

`qmi_idl_message_encode_v6` goes through the TLVs of a message and encodes the field of each from
the C structure, which is memory that it only reads. Each element takes what it sends out of the
room that is left (`dst_bytes`); the T and the L of a TLV are filled in once its value is there.
-/

import Qsdk.Qmi.Decode

namespace Qsdk.Qmi.Decode

open Writes

/-- A test of the encoder. -/
def ensure (condition : Prop) [Decidable condition] (e : Error) : Except Error Unit :=
  if condition then .ok ⟨⟩ else .error e

theorem ensure_bind_eq_ok {α : Type} {condition : Prop} [Decidable condition] {e : Error}
    {rest : Unit → Except Error α} {a : α} : (ensure condition e >>= rest) = .ok a ↔
        condition ∧ rest ⟨⟩ = .ok a := by
  by_cases so : condition
  · rw [ensure, if_pos so]
    exact ⟨fun equal => ⟨so, equal⟩, And.right⟩
  · rw [ensure, if_neg so]
    constructor
    · intro equal
      cases equal
    · exact fun holds => absurd holds.1 so

theorem except_bind_eq_ok {ε α β : Type} {x : Except ε α} {f : α → Except ε β} {b : β} :
    (x >>= f) = .ok b ↔ ∃ a, x = .ok a ∧ f a = .ok b := by
  cases x with
  | error e =>
    constructor
    · intro equal
      cases equal
    · rintro ⟨_, equal, -⟩
      cases equal
  | ok a =>
    constructor
    · exact fun equal => ⟨a, rfl, equal⟩
    · rintro ⟨_, same, equal⟩
      cases same
      exact equal

/-- The 32-bit number at an address. -/
def word32 (memory : Memory Byte) (address : Int) : BitVec 32 :=
    BitVec.ofNat 32 (ofLe (memory.read address 4))

/-- `strlen`, up to one more than `limit`. -/
def strlen (memory : Memory Byte) (limit : Nat) (address : Int) : Nat :=
  ((List.range (limit + 1)).find? fun i : Nat => memory (address + i) = 0).getD (limit + 1)

/-- The number of characters before the zero in a UTF-16 string, up to one more than `limit`. -/
def utf16Length (memory : Memory Byte) (limit : Nat) (address : Int) : Nat :=
  ((List.range (limit + 1)).find? fun i : Nat =>
    memory (address + 2 * i) = 0 ∧ memory (address + 2 * i + 1) = 0).getD (limit + 1)

/-- An element and the field of the C structure it is for. -/
structure Place where
  src : Int
  optionalOffset : Int
  stream : Stream
  at_ : Nat
  table : Nat

/-- Where the next element is, the bytes that are sent, and the room that is left. -/
structure Sent where
  at_ : Nat
  bytes : List Byte
  dstBytes : Nat

/-- The bytes of a length, as `qmi_idl_encode_length` sends them. -/
def lengthBytes (flags : Flags) (length : Nat) : List Byte :=
  if !flags.has (szIs16 ||| szIs32) then leBytes 1 length
  else if flags.has szIs16 then leBytes 2 length
  else leBytes 2 length ++ [0, 0]

/-- `qmi_idl_encode_length`: what is sent and the room that is left. -/
def sendLength (flags : Flags) (length dstBytes : Nat) : Except Error (List Byte × Nat) :=
  match encodeLength flags dstBytes with
  | none => .error .lengthInconsistency
  | some left => .ok (lengthBytes flags length, left)

/-- The bytes of the length are sent if there is room for them. -/
theorem sendLength_ok {flags : Flags} {length dstBytes : Nat} {sent : List Byte × Nat}
    (accepted : sendLength flags length dstBytes = .ok sent) :
    sent.1 = lengthBytes flags length ∧ encodeLength flags dstBytes = some sent.2 := by
  unfold sendLength at accepted
  split at accepted
  · cases accepted
  · rename_i left room
    cases accepted
    exact ⟨rfl, room⟩

/-- An array of variable length sends its length first. -/
def sendsLength (flags : Flags) : Bool :=
  flags.has isArray && flags.has isVariableLen && !flags.has (arrayDataOnly ||| arrayIsLengthless)

section Values

variable (memory : Memory Byte) (flags : Flags) (range : Range) (src : Int) (length dstBytes : Nat)

/-- The case of the generic types. `p_src` does not move while the items are checked: it is the
first one each time. -/
def encodeGeneric : Except Error (List Byte × Nat) := do
  let width := 2 ^ flags.type.toNat
  ensure (length * width ≤ dstBytes) .lengthInconsistency
  ensure (flags.has rangeChecked → length = 0 ∨
    (range.check64 (BitVec.ofNat 64 (ofLe (memory.read src width)))).1 = 0)
    .rangeFailure
  return (memory.read src (length * width), dstBytes - length * width)

/-- The cases of the enumerations: the low bytes of each. -/
def encodeEnum (width : Nat) : Except Error (List Byte × Nat) := do
  ensure (width * length ≤ dstBytes) .lengthInconsistency
  ensure (flags.has rangeChecked →
    ∀ i : Nat, i ∈ List.range length → (range.check32 (word32 memory (src + 4 * i))).1 = 0)
    .rangeFailure
  return ((List.range length).flatMap fun i : Nat => memory.read (src + 4 * i) width,
    dstBytes - width * length)

end Values

/-- The number of items of a value, and where the element goes on behind what says so. -/
def itemCount (memory : Memory Byte) (stream : Stream) (flags : Flags) (src : Int) (at_ : Nat) :
    Nat × Nat :=
  let arraySize := get8Or16 stream (flags.has maxSzIs16) at_
  let after := arraySize.2 + bytes (flags.has szIs32) 2
  if flags.type = string then (strlen memory arraySize.1 src, after)
  else if flags.has utf16String then (utf16Length memory arraySize.1 src, after)
  else if flags.has isArray then
    if flags.has isVariableLen then ((word32 memory (src - (stream after).toNat)).toNat, after + 1)
    else (arraySize.1, after)
  else (1, at_)

section Encode

variable (tables : Nat → TypeTable) (memory : Memory Byte)

/-- The elements of an aggregate type, one after the other. -/
def encodeStruct (encode : Place → Nat → Except Error Sent) (src : Int) (stream : Stream)
    (table : Nat) :
    (fuel at_ dstBytes : Nat) → Except Error (List Byte × Nat)
  | 0, _, _ => .error .endless
  | fuel + 1, at_, dstBytes => do
    let sent ← encode { src, optionalOffset := -1, stream, at_, table } dstBytes
    if stream sent.at_ = 0x20 then return (sent.bytes, sent.dstBytes)
    else
      let rest ← encodeStruct encode src stream table fuel sent.at_ sent.dstBytes
      return (sent.bytes ++ rest.1, rest.2)

/-- The case of an aggregate type. -/
def encodeAggregate (encode : Place → Nat → Except Error Sent) (fuel : Nat) (e : Place) (src : Int)
    (length at_ dstBytes : Nat) : Except Error (List Byte × Nat) :=
  let agType := get16 e.stream at_
  let table := (tables e.table).referencedTables (agType / 256 % 16)
  let entry := (tables table).types (agType % 256 + agType / 4096 * 256)
  (List.range length).foldlM (fun sent (i : Nat) => do
    let next ← encodeStruct encode (src + i * entry.structSize) entry.encodedTypeData table
      fuel 0 sent.2
    return (sent.1 ++ next.1, next.2)) ([], dstBytes)

/-- The switch over the type at the end of `qmi_idl_encode_element`, after the length. -/
def encodeSwitch (encode : Place → Nat → Except Error Sent) (fuel : Nat) (e : Place) (flags : Flags)
    (range : Range) (src : Int) (length at_ dstBytes : Nat) : Except Error (List Byte × Nat) :=
  if flags.type.toNat < 4 then encodeGeneric memory flags range src length dstBytes
  else if flags.type = oneByteEnum then encodeEnum memory flags range src length dstBytes 1
  else if flags.type = twoByteEnum then encodeEnum memory flags range src length dstBytes 2
  else encodeAggregate tables encode fuel e src length at_ dstBytes

/-- A value that is no string: its range index, its length if it sends it, its items, and its
aggregate type. -/
def encodeItems (encode : Place → Nat → Except Error Sent) (fuel : Nat) (e : Place)
    (flags : Flags) (src : Int) (length at_ dstBytes : Nat) : Except Error Sent :=
  let range := (tables e.table).ranges (get16 e.stream at_ + get16 e.stream (at_ + 2) * 65536)
  let at_ := at_ + bytes (flags.has rangeChecked) 4
  let end_ := at_ + bytes (flags.type == aggregate) 2
  if sendsLength flags then do
    let lengthSent ← sendLength flags length dstBytes
    if flags.has arrayLengthOnly then return ⟨end_, lengthSent.1, lengthSent.2⟩
    else
      let sent ← encodeSwitch tables memory encode fuel e flags range src length at_ lengthSent.2
      return ⟨end_, lengthSent.1 ++ sent.1, sent.2⟩
  else do
    let sent ← encodeSwitch tables memory encode fuel e flags range src length at_ dstBytes
    return ⟨end_, sent.1, sent.2⟩

/-- A string: at the top level, or if only its data are to be sent, without its length. -/
def encodeString (e : Place) (flags : Flags) (src : Int) (length at_ dstBytes : Nat) :
    Except Error Sent :=
  let end_ := at_ + bytes (flags.has rangeChecked) 4
  if e.optionalOffset = -1 ∧ !flags.has arrayDataOnly then do
    let lengthSent ← sendLength flags length dstBytes
    if flags.has arrayLengthOnly then return ⟨at_, lengthSent.1, lengthSent.2⟩
    else
      ensure (length ≤ lengthSent.2) .lengthInconsistency
      return ⟨end_, lengthSent.1 ++ memory.read src length, lengthSent.2 - length⟩
  else do
    ensure (length ≤ dstBytes) .lengthInconsistency
    return ⟨end_, memory.read src length, dstBytes - length⟩

/-- `qmi_idl_encode_element` for a value that is there. The number of items is tested where it is
not fixed. -/
def encodeValue (encode : Place → Nat → Except Error Sent) (fuel : Nat) (e : Place)
    (flags : Flags) (src : Int) (at_ dstBytes : Nat) : Except Error Sent := do
  let count := itemCount memory e.stream flags src at_
  ensure (flags.type = string ∨ flags.has utf16String ∨
    (flags.has isArray ∧ flags.has isVariableLen) →
    count.1 ≤ (get8Or16 e.stream (flags.has maxSzIs16) at_).1) .arrayTooBig
  if flags.type = string then encodeString memory e flags src count.1 count.2 dstBytes
  else encodeItems tables memory encode fuel e flags src count.1 count.2 dstBytes

/-- The body of `qmi_idl_encode_element`. At the top level room is left for the T and the L. -/
def encodeBody (encode : Place → Nat → Except Error Sent) (fuel : Nat) (e : Place)
    (dstBytes : Nat) :
    Except Error Sent :=
  let flags := (readFlags e.stream e.at_).1
  let offset := readOffset e.stream flags (readFlags e.stream e.at_).2
  let src := e.src + offset.1
  if 0 < e.optionalOffset ∧ memory (src - e.optionalOffset) = 0 then
    .ok ⟨encodeAbsent flags offset.2, [], dstBytes⟩
  else if e.optionalOffset ≠ -1 then do
    ensure (3 ≤ dstBytes) .bufferTooSmall
    encodeValue tables memory encode fuel e flags src offset.2 (dstBytes - 3)
  else encodeValue tables memory encode fuel e flags src offset.2 dstBytes

/-- `qmi_idl_encode_element`. -/
def encodeElement : Nat → Place → Nat → Except Error Sent
  | 0, _, _ => .error .endless
  | fuel + 1, e, dstBytes => encodeBody tables memory (encodeElement fuel) fuel e dstBytes

end Encode

/-! ### Messages -/

namespace Message

variable (message : Message) (memory : Memory Byte)

/-- The element of a TLV of the message. -/
def place (stream : Stream) (tlv : TlvData) : Place :=
  { src := 0, optionalOffset := tlv.optionalOffset, stream, at_ := tlv.element, table :=
    message.table }

/-- The T, the L and the value of a TLV, if anything was sent of it. -/
def wireTlv (msgType : Byte) (dstLen : Nat) (sent : Sent) : List Byte :=
  if sent.dstBytes ≠ dstLen then msgType ::
    (leBytes 2 (dstLen - 3 - sent.dstBytes) ++ sent.bytes) else []

/-- The loop over the TLVs. A TLV of which nothing was sent has no T and L either. -/
def encodeTlvs (stream : Stream) : (fuel at_ dstLen : Nat) → Except Error (List Byte)
  | 0, _, _ => .error .endless
  | fuel + 1, at_, dstLen => do
    let tlv := readTlv stream at_
    let sent ← encodeElement message.tables memory message.fuel (message.place stream tlv) dstLen
    ensure (sent.dstBytes ≠ dstLen → 3 + sent.dstBytes ≤ dstLen) .lengthInconsistency
    if tlv.last then return wireTlv tlv.msgType dstLen sent
    else
      let rest ← encodeTlvs stream fuel sent.at_ sent.dstBytes
      return wireTlv tlv.msgType dstLen sent ++ rest

/-- `qmi_idl_message_encode_v6`: the bytes that are sent, for a C structure of `srcLen` bytes. -/
def messageEncodeV6 (srcLen dstLen : Nat) : Except Error (List Byte) := do
  ensure (message.entry.structSize ≤ srcLen) .bufferTooSmall
  match message.entry.encodedTlvData with
  | none => return []
  | some stream =>
    if message.entry.structSize = 0 ∨ dstLen = 0 then return []
    else message.encodeTlvs memory stream message.fuel 0 dstLen

end Message

end Qsdk.Qmi.Decode
