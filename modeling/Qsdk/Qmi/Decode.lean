/-
**Decoding a QMI message.**

`qmi_idl_message_decode_v6` takes a message apart into its TLVs and decodes each into the C
structure of the message, after the type elements of its tables. The structure is memory from
address 0 on; a type element says where in it a field is. What is decoded comes from somebody else,
the type tables are generated.

An error ends the decoding (`longjmp`); what was written stays. The tables refer to each other by
pointers, so nothing stops one from leading nowhere: the depth of the types and the length of the
walks is bounded by `fuel`.
-/

import Mathlib.Logic.Function.Basic
import Qsdk.Lib.Writes
import Qsdk.Qmi.Element

namespace Qsdk.Qmi.Decode

open Writes

abbrev Byte := BitVec 8

/-! ### The type tables -/

/-- `qmi_idl_range_table_entry`: what `range_check` answers for a number of 64 bits or an
enumeration of 32 bits, and what it leaves in its place. -/
structure Range where
  check64 : BitVec 64 → Int × BitVec 64
  check32 : BitVec 32 → Int × BitVec 32

/-- `QMI_IDL_RANGE_RESPONSE_IGNORE` and `QMI_IDL_RANGE_RESPONSE_DEFAULT`. -/
def responseIgnore : Int := -2

def responseDefault : Int := -1

/-- `qmi_idl_type_table_entry`. -/
structure TypeEntry where
  structSize : Nat
  encodedTypeData : Stream

/-- `struct qmi_idl_type_table_object`. The tables have numbers. -/
structure TypeTable where
  types : Nat → TypeEntry
  ranges : Nat → Range
  referencedTables : Nat → Nat

/-- `qmi_idl_message_table_entry`. -/
structure MessageEntry where
  structSize : Nat
  encodedTlvData : Option Stream

/-! ### What a decoder does -/

inductive Error
  | bufferTooSmall
  | lengthInconsistency
  | rangeFailure
  | arrayTooBig
  | tlvDuplicated
  | missingTlv
  | unknownMandatoryTlv
  /-- The error of a range check. -/
  | range (response : Int)
  /-- The type tables lead nowhere. -/
  | endless
deriving DecidableEq

/-- The C structure, and `range_err`. -/
structure State where
  memory : Memory Byte
  rangeErrorIgnore : Bool

abbrev Decoder := Writing Error State

/-- A number of some bytes, the lowest first. -/
def leBytes (count n : Nat) : List Byte := (List.range count).map fun i =>
    BitVec.ofNat 8 (n / 256 ^ i)

def ofLe : List Byte → Nat
  | [] => 0
  | byte :: bytes => byte.toNat + 256 * ofLe bytes

/-- `QMI_IDL_BUF_RANGE`, for a structure of `size` bytes. -/
def bufRange (size : Nat) (address : Int) (len : Nat) : Decoder Unit :=
  check (0 ≤ address ∧ address + len ≤ size) .lengthInconsistency

def store (address : Int) (bytes : List Byte) : Decoder Unit :=
  modify fun s => { s with memory := s.memory.write address bytes }

def load32 (address : Int) : Decoder (BitVec 32) := do
  let s ← get
  return BitVec.ofNat 32 (ofLe (s.memory.read address 4))

/-! ### Elements -/

/-- The arguments of `qmi_idl_decode_element`. `wire` is what is at `*pp_src`, of length
`src_len`. -/
structure Element where
  dst : Int
  wire : List Byte
  optionalOffset : Int
  stream : Stream
  at_ : Nat
  table : Nat

def enumIsUnsigned : Flags := 0x04 <<< 8

def oneByteEnum : Flags := 4

/-- What is done with the answer of a range check. -/
def answered (optionalOffset validFlag response : Int) (replace : Decoder Unit) : Decoder Unit :=
  if response = responseIgnore then
    if 0 < optionalOffset then store validFlag [0] else modify fun s =>
      { s with rangeErrorIgnore := true }
  else if 0 < response then throw (.range response)
  else if response = responseDefault then replace
  else pure ⟨⟩

/-- The bytes of item `i`, of `width` bytes each. -/
def item (wire : List Byte) (width i : Nat) : List Byte := (wire.drop (i * width)).take width

section Values

variable (size : Nat) (flags : Flags) (range : Range) (optionalOffset validFlag dst : Int)
    (length : Nat)
  (wire : List Byte)

/-- The case of the generic types, whose items have `2 ^ type` bytes. The zero after a UTF-16 string
is one byte, and comes too early if the string is range checked. -/
def decodeGeneric : Decoder (List Byte) := do
  let width := 2 ^ flags.type.toNat
  check (length * width ≤ wire.length) .lengthInconsistency
  bufRange size dst (length * width)
  store dst (wire.take (length * width))
  when (flags.has rangeChecked) <| (List.range length).forM fun i : Nat =>
    let answer := range.check64 (BitVec.ofNat 64 (ofLe (item wire width i)))
    answered optionalOffset validFlag answer.1 do
      bufRange size (dst + i * width) width
      store (dst + i * width) (leBytes width answer.2.toNat)
  when (flags.has utf16String) do
    let last := if flags.has rangeChecked then length else length * width
    bufRange size dst last
    store (dst + last) [0]
  return wire.drop (length * width)

/-- An enumeration in the C structure. -/
def enumValue (width : Nat) (bytes : List Byte) : BitVec 32 :=
  if flags.has enumIsUnsigned then BitVec.ofNat 32 (ofLe bytes)
  else (BitVec.ofNat (8 * width) (ofLe bytes)).signExtend 32

/-- The cases of the enumerations, of one or two bytes. `p_dst` moves on with the items while they
are checked, and a default is put as far again behind it. -/
def decodeEnum (width : Nat) : Decoder (List Byte) := do
  check (width * length ≤ wire.length) .lengthInconsistency
  bufRange size dst (length * 4)
  (List.range length).forM fun i : Nat =>
    store (dst + 4 * i) (leBytes 4 (enumValue flags width (item wire width i)).toNat)
  when (flags.has rangeChecked) <| (List.range length).forM fun i : Nat => do
    let value ← load32 (dst + 4 * i)
    answered optionalOffset validFlag (range.check32 value).1 do
      store (dst + 4 * i + 4 * i) (leBytes 4 (range.check32 value).2.toNat)
  return wire.drop (width * length)

/-- The case of a string. -/
def decodeString : Decoder (List Byte) := do
  check (length ≤ wire.length) .lengthInconsistency
  bufRange size dst length
  store dst (wire.take length)
  store (dst + length) [0]
  return wire.drop length

end Values

/-- `GET_16`. -/
def get16 (stream : Stream) (at_ : Nat) : Nat := (stream at_).toNat + (stream (at_ + 1)).toNat * 256

section Decode

variable (tables : Nat → TypeTable) (size : Nat)

/-- The elements of an aggregate type, one after the other up to `QMI_IDL_FLAG_END_VALUE`. After
each, a range error takes back the valid flag of the TLV. -/
def structLoop (decode : Element → Decoder (Nat × List Byte)) (optionalOffset validFlag dst : Int)
    (stream : Stream) (table : Nat) : (fuel at_ : Nat) → List Byte → Decoder (List Byte)
  | 0, _, _ => throw .endless
  | fuel + 1, at_, wire => do
    let next ← decode { dst, wire, optionalOffset := -1, stream, at_, table }
    let s ← get
    when (s.rangeErrorIgnore ∧ 0 < optionalOffset) (store validFlag [0])
    if stream next.1 = 0x20 then return next.2
    else structLoop decode optionalOffset validFlag dst stream table fuel next.1 next.2

/-- The case of an aggregate type. -/
def decodeAggregate (decode : Element → Decoder (Nat × List Byte)) (fuel : Nat) (e : Element)
    (validFlag dst : Int) (length at_ : Nat) (wire : List Byte) : Decoder (List Byte) :=
  let agType := get16 e.stream at_
  let table := (tables e.table).referencedTables (agType / 256 % 16)
  let entry := (tables table).types (agType % 256 + agType / 4096 * 256)
  (List.range length).foldlM (fun wire (i : Nat) =>
    structLoop decode e.optionalOffset validFlag (dst + i * entry.structSize) entry.encodedTypeData
      table fuel 0 wire)
    wire

/-- The switch over the type at the end of `qmi_idl_decode_element`. -/
def decodeSwitch (decode : Element → Decoder (Nat × List Byte)) (fuel : Nat) (e : Element)
    (flags : Flags) (range : Range) (dst : Int) (length at_ : Nat) (wire : List Byte) :
        Decoder (List Byte) :=
  let validFlag := dst - e.optionalOffset
  if flags.type.toNat < 4 then decodeGeneric size flags range e.optionalOffset validFlag
    dst length wire
  else if flags.type = oneByteEnum then decodeEnum size flags range e.optionalOffset validFlag dst
    length wire 1
  else if flags.type = twoByteEnum then decodeEnum size flags range e.optionalOffset validFlag dst
    length wire 2
  else if flags.type = string then decodeString size dst length wire
  else decodeAggregate tables decode fuel e validFlag dst length at_ wire

/-- The range index, the value, and the index of an aggregate type. -/
def decodeValue (decode : Element → Decoder (Nat × List Byte)) (fuel : Nat) (e : Element)
    (flags : Flags) (dst : Int) (length at_ : Nat) (wire : List Byte) :
        Decoder (Nat × List Byte) := do
  let range := (tables e.table).ranges (get16 e.stream at_ + get16 e.stream (at_ + 2) * 65536)
  let at_ := at_ + bytes (flags.has rangeChecked) 4
  let left ← decodeSwitch tables size decode fuel e flags range dst length at_ wire
  return (at_ + bytes (flags.type == aggregate) 2, left)

/-- The part for a variable length array: the length goes into the C structure, but for strings. -/
def decodeVariable (decode : Element → Decoder (Nat × List Byte)) (fuel : Nat) (e : Element)
    (flags : Flags) (dst : Int) (arrayMaxSize at_ : Nat) : Decoder (Nat × List Byte) := do
  let stored ← load32 (dst - (e.stream at_).toNat)
  match wireLength flags e.optionalOffset e.wire stored.toNat with
  | none => throw .lengthInconsistency
  | some (length, wire) =>
    when (flags.type ≠ string ∧ !flags.has utf16String) do
      bufRange size (dst - (e.stream at_).toNat) 4
      store (dst - (e.stream at_).toNat) (leBytes 4 length)
    check (length ≤ arrayMaxSize) .arrayTooBig
    let at_ := at_ + bytes (flags.type != string && !flags.has utf16String) 1
    if flags.has arrayLengthOnly then return (at_ + bytes (flags.type == aggregate) 2, wire)
    else decodeValue tables size decode fuel e flags dst length at_ wire

/-- The rest of `qmi_idl_decode_element` after the valid flag. -/
def decodeArray (decode : Element → Decoder (Nat × List Byte)) (fuel : Nat) (e : Element)
    (flags : Flags) (dst : Int) (at_ : Nat) : Decoder (Nat × List Byte) :=
  let arraySize := get8Or16 e.stream (flags.has maxSzIs16) at_
  let after := arraySize.2 + bytes (flags.has szIs32) 2
  if flags.has isArray then
    if flags.has isVariableLen then decodeVariable tables size decode fuel e flags dst
      arraySize.1 after
    else decodeValue tables size decode fuel e flags dst arraySize.1 after e.wire
  else decodeValue tables size decode fuel e flags dst 1 at_ e.wire

/-- The body of `qmi_idl_decode_element`, given what decodes the elements of an aggregate type. -/
def decodeBody (decode : Element → Decoder (Nat × List Byte)) (fuel : Nat) (e : Element) :
    Decoder (Nat × List Byte) :=
  let flags := (readFlags e.stream e.at_).1
  let offset := readOffset e.stream flags (readFlags e.stream e.at_).2
  let dst := e.dst + offset.1
  if 0 < e.optionalOffset then do
    bufRange size (dst - e.optionalOffset) 0
    store (dst - e.optionalOffset) [1]
    decodeArray tables size decode fuel e flags dst offset.2
  else decodeArray tables size decode fuel e flags dst offset.2

/-- `qmi_idl_decode_element`: where the next element is and what is left of the wire stream. -/
def decodeElement : Nat → Element → Decoder (Nat × List Byte)
  | 0, _ => throw .endless
  | fuel + 1, e => decodeBody tables size (decodeElement fuel) fuel e

end Decode

/-! ### Messages -/

/-- What stands before an element in `p_encoded_tlv_data`: the type of the TLV, whether it is
optional, the offset to its valid flag, and whether it is the last one. -/
structure TlvData where
  msgType : Byte
  optional : Bool
  optionalOffset : Nat
  last : Bool
  element : Nat

def readTlv (stream : Stream) (at_ : Nat) : TlvData :=
  let tlvFlags := stream at_
  let last := tlvFlags &&& 0x80 != 0
  if tlvFlags &&& 0x40 ≠ 0 then ⟨stream (at_ + 1), true, (tlvFlags &&& 0x0F).toNat, last, at_ + 2⟩
  else ⟨tlvFlags &&& 0x0F, false, 0, last, at_ + 1⟩

/-- `qmi_idl_decode_find_tlv`. -/
def decodeFindTlv (stream : Stream) (msgType : Byte) : (fuel at_ : Nat) →
    Except Error (Option TlvData)
  | 0, _ => .error .endless
  | fuel + 1, at_ =>
    let tlv := readTlv stream at_
    if msgType = tlv.msgType then .ok (some tlv)
    else if tlv.last then .ok none
    else decodeFindTlv stream msgType fuel (nextElement stream tlv.element)

/-- `qmi_idl_decode_verify_mandatory`. -/
def decodeVerifyMandatory (stream : Stream) (found : Byte → Bool) : (fuel at_ : Nat) →
    Except Error Unit
  | 0, _ => .error .endless
  | fuel + 1, at_ =>
    let tlv := readTlv stream at_
    if tlv.optional then .ok ⟨⟩
    else if !found tlv.msgType then .error .missingTlv
    else if tlv.last then .ok ⟨⟩
    else decodeVerifyMandatory stream found fuel (nextElement stream tlv.element)

/-- What a message is decoded by: its entry and its tables, whether it is a response, and what is in
memory behind it. -/
structure Message where
  tables : Nat → TypeTable
  table : Nat
  entry : MessageEntry
  response : Bool
  behind : Byte
  fuel : Nat

/-- `found` and `resp_error`. -/
structure Progress where
  found : Byte → Bool
  respError : Byte

/-- The first TLV of a message: its type, its value, and the rest. -/
def splitTlv : List Byte → Option (Byte × List Byte × List Byte)
  | msgType :: low :: high :: rest =>
    let msgLen := low.toNat + high.toNat * 256
    if rest.length < msgLen then none else some (msgType, rest.take msgLen, rest.drop msgLen)
  | _ => none

theorem splitTlv_length {src value rest : List Byte} {msgType : Byte}
    (split : splitTlv src = some (msgType, value, rest)) : rest.length < src.length := by
  unfold splitTlv at split
  split at split
  · simp only [Option.ite_none_left_eq_some, Option.some.injEq, Prod.mk.injEq] at split
    rw [← split.2.2.2, List.length_drop]
    simp only [List.length_cons]
    omega
  · cases split

namespace Message

variable (message : Message)

/-- The TLV of a type, if the message has one. -/
def find (msgType : Byte) : Except Error (Option TlvData) :=
  match message.entry.encodedTlvData with
  | none => .ok none
  | some stream => decodeFindTlv stream msgType message.fuel 0

/-- One TLV. The first byte of the result is read before its length is known to be right. -/
def decodeTlv (msgType : Byte) (value rest : List Byte) (progress : Progress) :
    Decoder Progress := do
  match ← given (message.find msgType) with
  | some tlv =>
    check (progress.found msgType = false) .tlvDuplicated
    let left ← decodeElement message.tables message.entry.structSize message.fuel
      { dst := 0, wire := value, optionalOffset := tlv.optionalOffset, stream :=
        message.entry.encodedTlvData.getD 0,
        at_ := tlv.element, table := message.table }
    check (left.2 = []) .lengthInconsistency
    return {
      found := Function.update progress.found msgType true
      respError :=
        if message.response && msgType == 2 then (value ++ rest ++ [message.behind]).headD 0 else
          progress.respError }
  | none =>
    check (0x10 ≤ msgType) .unknownMandatoryTlv
    return progress

/-- The loop over the TLVs. -/
def decodeTlvs (src : List Byte) (progress : Progress) : Decoder Progress :=
  if src = [] then pure progress
  else
    match _split : splitTlv src with
    | none => throw .lengthInconsistency
    | some (msgType, value, rest) => do
      let progress ← message.decodeTlv msgType value rest progress
      decodeTlvs rest progress
termination_by src.length
decreasing_by exact splitTlv_length _split

/-- `qmi_idl_message_decode_v6`. -/
def messageDecodeV6 (dstLen : Nat) (src : List Byte) : Decoder Unit := do
  check (message.entry.structSize ≤ dstLen) .bufferTooSmall
  modify fun s => { s with rangeErrorIgnore := false }
  store 0 (List.replicate message.entry.structSize 0)
  let progress ← message.decodeTlvs src ⟨fun _ => false, 0⟩
  match message.entry.encodedTlvData with
  | none => pure ⟨⟩
  | some stream =>
    when (progress.respError = 0)
      (given (decodeVerifyMandatory stream progress.found message.fuel 0))

end Message

end Qsdk.Qmi.Decode
