/-
**The walkers of QMI type elements.**

A type element is some bytes that say what a field of a message is: flags, an offset, and what the
flags ask for. They are gone through by `qmi_idl_next_element`, by `qmi_idl_decode_element`, and in
two ways by `qmi_idl_encode_element`. Each is compared here with the size of an element after its
grammar (`bodySize`). The element of a value that is not there is left too early if its array size
has 32 bits, and an element that only sends a length is left before its range index:
`walkers_agree_iff`.
-/

import Mathlib.Data.BitVec
import Mathlib.Data.List.Basic
import Mathlib.Algebra.Ring.Int.Defs

namespace Qsdk.Qmi

/-! ### The flags -/

/-- The bytes of an element and of those that follow. -/
abbrev Stream := Nat → BitVec 8

abbrev Flags := BitVec 32

def offsetIs16 : Flags := 0x80
def isArray : Flags := 0x40
def szIs16 : Flags := 0x20
def isVariableLen : Flags := 0x10
def firstExtended : Flags := 0x08
def secondExtended : Flags := 0x80 <<< 8
def szIs32 : Flags := 0x40 <<< 8
def arrayDataOnly : Flags := 0x20 <<< 8
def arrayLengthOnly : Flags := 0x10 <<< 8
def arrayIsLengthless : Flags := 0x08 <<< 8
def extendedOffset : Flags := 0x02 <<< 8
def utf16String : Flags := 0x01 <<< 8
def rangeChecked : Flags := 0x40 <<< 16
def maxSzIs16 : Flags := szIs16 ||| szIs32
def endValue : Flags := 0x20

/-- `flags & mask`, as a condition. -/
def Flags.has (flags mask : Flags) : Bool := flags &&& mask != 0

/-- `flags & QMI_IDL_FLAGS_TYPE`. -/
def Flags.type (flags : Flags) : Flags := flags &&& 0x07

def twoByteEnum : Flags := 5
def string : Flags := 6
def aggregate : Flags := 7

theorem Flags.has_or (flags a b : Flags) : flags.has (a ||| b) = (flags.has a || flags.has b) := by
  simp only [Flags.has, BitVec.and_or_distrib_left, bne, ← Bool.not_and]
  congr 1
  rw [Bool.eq_iff_iff]
  simp [BitVec.or_eq_zero_iff]

/-- The number of bytes for a condition. -/
def bytes (condition : Bool) (n : Nat) : Nat := if condition then n else 0

/-- The flags, and where they end. The first and the second byte tell whether another one
follows. -/
def readFlags (stream : Stream) (at_ : Nat) : Flags × Nat :=
  let first : Flags × Nat := ((stream at_).zeroExtend 32, at_ + 1)
  let second : Flags × Nat :=
    if first.1.has firstExtended then
      (first.1 ||| (stream first.2).zeroExtend 32 <<< 8, first.2 + 1) else first
  if second.1.has secondExtended then
    (second.1 ||| (stream second.2).zeroExtend 32 <<< 16, second.2 + 1) else second

/-- The offset in the C structure, and where it ends. -/
def readOffset (stream : Stream) (flags : Flags) (at_ : Nat) : Nat × Nat :=
  if flags.has offsetIs16 then ((stream at_).toNat + (stream (at_ + 1)).toNat * 256, at_ + 2)
  else if flags.has extendedOffset then
    ((stream at_).toNat + (stream (at_ + 1)).toNat * 256 + (stream (at_ + 2)).toNat * 65536,
      at_ + 3)
  else ((stream at_).toNat, at_ + 1)

/-- `GET_8_OR_16`. -/
def get8Or16 (stream : Stream) (is16 : Bool) (at_ : Nat) : Nat × Nat :=
  if is16 then ((stream at_).toNat + (stream (at_ + 1)).toNat * 256, at_ + 2) else
    ((stream at_).toNat, at_ + 1)

/-! ### The walkers -/

/-- `qmi_idl_next_element`. -/
def nextElement (stream : Stream) (at_ : Nat) : Nat :=
  let (flags, at_) := readFlags stream at_
  if flags = endValue then at_
  else
    at_ + 1 + (if flags.has offsetIs16 then 1 else if flags.has extendedOffset then 2 else 0) +
      bytes (flags.has isArray) 1 + bytes (flags.has maxSzIs16) 1 + bytes (flags.has szIs32) 2 +
      bytes (flags.has isVariableLen && flags.type != string && !flags.has utf16String) 1 +
      bytes (flags.type == aggregate) 2 + bytes (flags.has rangeChecked) 4

/-- What decoding reads besides the element. `src_len` is the length of the wire stream. Offsets are
from `p_dst`. -/
structure DecodeInput where
  wire : List (BitVec 8)
  optionalOffset : Int
  /-- `QMI_IDL_BUF_RANGE` does not raise an error. -/
  inRange : (offset : Int) → (len : Nat) → Bool
  /-- The 32-bit number at an offset, which is an array length that was decoded before. -/
  stored : (offset : Int) → Nat

/-- The length of a variable length array in the wire stream. -/
def wireLength (flags : Flags) (optionalOffset : Int) (wire : List (BitVec 8)) (stored : Nat) :
    Option (Nat × List (BitVec 8)) :=
  if optionalOffset ≠ -1 ∧ flags.type = string then some (wire.length, wire)
  else if !flags.has (szIs16 ||| szIs32 ||| arrayDataOnly ||| arrayIsLengthless) then
    match wire with
    | low :: wire => some (low.toNat, wire)
    | _ => none
  else if !flags.has (szIs32 ||| arrayDataOnly ||| arrayIsLengthless) then
    match wire with
    | low :: high :: wire => some (low.toNat + high.toNat * 256, wire)
    | _ => none
  else if !flags.has (arrayDataOnly ||| arrayIsLengthless) then
    match wire with
    | low :: high :: _ :: _ :: wire => some (low.toNat + high.toNat * 256, wire)
    | _ => none
  else if !flags.has arrayIsLengthless then some (stored, wire)
  else if flags.type.toNat < 4 then some (wire.length >>> flags.type.toNat, wire)
  else if flags.type = twoByteEnum then some (wire.length >>> 1, wire)
  else some (wire.length, wire)

/-- The switch over the type in `qmi_idl_decode_element`. It has the element from the range index
on. It does not move in it, except over an aggregate type, and either fails or takes something from
the wire stream. -/
abbrev DecodeValue := Flags → (length at_ : Nat) → DecodeInput → List (BitVec 8) →
    Option (List (BitVec 8))

/-- The end of `qmi_idl_decode_element`: the range index and the value. -/
def decodeRest (value : DecodeValue) (input : DecodeInput) (flags : Flags) (length at_ : Nat)
    (wire : List (BitVec 8)) : Option (Nat × List (BitVec 8)) :=
  (value flags length at_ input wire).map fun wire =>
    (at_ + bytes (flags.has rangeChecked) 4 + bytes (flags.type == aggregate) 2, wire)

/-- The part of `qmi_idl_decode_element` for a variable length array. -/
def decodeVariable (value : DecodeValue) (input : DecodeInput) (stream : Stream) (flags : Flags)
    (offset arrayMaxSize at_ : Nat) : Option (Nat × List (BitVec 8)) :=
  match wireLength flags input.optionalOffset input.wire
      (input.stored (offset - (stream at_).toNat)) with
  | none => none
  | some (length, wire) =>
    if flags.type ≠ string ∧ !flags.has utf16String ∧
      !input.inRange (offset - (stream at_).toNat) 4 then none
    else if arrayMaxSize < length then none
    else
      let end_ := at_ + bytes (flags.type != string && !flags.has utf16String) 1
      if flags.has arrayLengthOnly then some (end_ + bytes (flags.type == aggregate) 2, wire)
      else decodeRest value input flags length end_ wire

/-- `qmi_idl_decode_element` after the flags and the offset. -/
def decodeBody (value : DecodeValue) (input : DecodeInput) (stream : Stream) (flags : Flags)
    (offset at_ : Nat) :
    Option (Nat × List (BitVec 8)) :=
  if 0 < input.optionalOffset ∧ !input.inRange (offset - input.optionalOffset) 0 then none
  else if flags.has isArray then
    let arraySize := get8Or16 stream (flags.has maxSzIs16) at_
    if flags.has isVariableLen then
      decodeVariable value input stream flags offset arraySize.1
        (arraySize.2 + bytes (flags.has szIs32) 2)
    else decodeRest value input flags arraySize.1
      (arraySize.2 + bytes (flags.has szIs32) 2) input.wire
  else decodeRest value input flags 1 at_ input.wire

/-- `qmi_idl_decode_element`: where the next element is and what is left of the wire stream. -/
def decodeElement (value : DecodeValue) (stream : Stream) (at_ : Nat) (input : DecodeInput) :
    Option (Nat × List (BitVec 8)) :=
  let (flags, at_) := readFlags stream at_
  let (offset, at_) := readOffset stream flags at_
  decodeBody value input stream flags offset at_

/-- What encoding reads besides the element. -/
structure EncodeInput where
  /-- The bytes that are left for the message. -/
  dstBytes : Nat
  optionalOffset : Int
  /-- The valid flag of an optional TLV. -/
  valid : Bool
  /-- The length of a string and of a UTF-16 string, and the number of items of an array, in the C
  structure. -/
  strlen : Nat
  utf16Length : Nat
  stored : Nat

/-- `qmi_idl_encode_length`. -/
def encodeLength (flags : Flags) (dstBytes : Nat) : Option Nat :=
  if !flags.has (szIs16 ||| szIs32) then if dstBytes = 0 then none else some (dstBytes - 1)
  else if flags.has szIs16 then if dstBytes < 2 then none else some (dstBytes - 2)
  else if dstBytes < 4 then none
  else some (dstBytes - 4)

/-- The switch over the type in `qmi_idl_encode_element`, after the length. -/
abbrev EncodeValue := Flags → (length at_ : Nat) → EncodeInput → (dstBytes : Nat) → Option Nat

/-- The end of `qmi_idl_encode_element`: the range index, the length of a variable length array, and
the value. Each type but a string sends its length in the same way, and an aggregate type is always
left behind. -/
def encodeRest (value : EncodeValue) (input : EncodeInput) (flags : Flags)
    (length at_ dstBytes : Nat) :
    Option (Nat × Nat) :=
  let end_ := at_ + bytes (flags.has rangeChecked) 4 + bytes (flags.type == aggregate) 2
  if flags.type = string then some (end_, dstBytes)
  else if flags.has isArray && flags.has isVariableLen && !flags.has
      (arrayDataOnly ||| arrayIsLengthless) then
    match encodeLength flags dstBytes with
    | none => none
    | some dstBytes =>
      if flags.has arrayLengthOnly then some (end_, dstBytes)
      else (value flags length at_ input dstBytes).map fun dstBytes => (end_, dstBytes)
  else (value flags length at_ input dstBytes).map fun dstBytes => (end_, dstBytes)

/-- The part of `qmi_idl_encode_element` for a string. -/
def encodeString (value : EncodeValue) (input : EncodeInput) (flags : Flags)
    (arrayMaxSize at_ dstBytes : Nat) :
    Option (Nat × Nat) :=
  if arrayMaxSize < input.strlen then none
  else if input.optionalOffset = -1 ∧ !flags.has arrayDataOnly then
    match encodeLength flags dstBytes with
    | none => none
    | some dstBytes =>
      if flags.has arrayLengthOnly then some (at_, dstBytes)
      else if dstBytes < input.strlen then none
      else encodeRest value input flags input.strlen at_ (dstBytes - input.strlen)
  else if dstBytes < input.strlen then none
  else encodeRest value input flags input.strlen at_ (dstBytes - input.strlen)

/-- `qmi_idl_encode_element` for a value that is there. -/
def encodePresent (value : EncodeValue) (stream : Stream) (flags : Flags) (at_ : Nat)
    (input : EncodeInput) :
    Option (Nat × Nat) :=
  if input.optionalOffset ≠ -1 ∧ input.dstBytes < 3 then none
  else
    let dstBytes := if input.optionalOffset ≠ -1 then input.dstBytes - 3 else input.dstBytes
    let (arrayMaxSize, afterSize) := get8Or16 stream (flags.has maxSzIs16) at_
    let afterSize := afterSize + bytes (flags.has szIs32) 2
    if flags.type = string then encodeString value input flags arrayMaxSize afterSize dstBytes
    else if flags.has utf16String then
      if arrayMaxSize < input.utf16Length then none
      else encodeRest value input flags input.utf16Length afterSize dstBytes
    else if flags.has isArray then
      if flags.has isVariableLen then
        if arrayMaxSize < input.stored then none
        else encodeRest value input flags input.stored (afterSize + 1) dstBytes
      else encodeRest value input flags arrayMaxSize afterSize dstBytes
    else encodeRest value input flags 1 at_ dstBytes

/-- `qmi_idl_encode_element` for an optional value that is not there: the rest of the element is
skipped. -/
def encodeAbsent (flags : Flags) (at_ : Nat) : Nat :=
  at_ +
      bytes (flags.has isArray)
        ((if flags.has maxSzIs16 then 2 else 1) +
          bytes (flags.has isVariableLen && flags.type != string && !flags.has utf16String) 1) +
    bytes (flags.type == aggregate) 2 + bytes (flags.has rangeChecked) 4

/-- `qmi_idl_encode_element`: where the next element is and how many bytes are left for the
message. -/
def encodeElement (value : EncodeValue) (stream : Stream) (at_ : Nat) (input : EncodeInput) :
    Option (Nat × Nat) :=
  let (flags, at_) := readFlags stream at_
  let (_, at_) := readOffset stream flags at_
  if 0 < input.optionalOffset ∧ !input.valid then some (encodeAbsent flags at_, input.dstBytes)
  else encodePresent value stream flags at_ input

/-! ### The grammar -/

/-- The flags of an element, and where its offset ends. -/
def header (stream : Stream) (at_ : Nat) : Flags × Nat :=
  ((readFlags stream at_).1,
    (readOffset stream (readFlags stream at_).1 (readFlags stream at_).2).2)

/-- There is a size offset: a string has none. -/
def Flags.hasSizeOffset (flags : Flags) : Bool :=
  flags.has isVariableLen && flags.type != string && !flags.has utf16String

/-- What comes after the offset: array size, size offset, aggregate type and range index. -/
def bodySize (flags : Flags) : Nat :=
  bytes (flags.has isArray) 1 + bytes (flags.has maxSzIs16) 1 + bytes (flags.has szIs32) 2 +
    bytes flags.hasSizeOffset 1 + bytes (flags.type == aggregate) 2 +
    bytes (flags.has rangeChecked) 4

/-- The flags are those of an element, and only an array has the flags for what arrays have. -/
structure WellFormed (flags : Flags) : Prop where
  notEnd : flags ≠ endValue
  array : flags.has maxSzIs16 = true ∨ flags.has isVariableLen = true ∨ flags.type = string ∨
    flags.has utf16String = true → flags.has isArray = true

theorem szIs32_maxSzIs16 {flags : Flags} (is32 : flags.has szIs32 = true) :
    flags.has maxSzIs16 = true := by
  rw [maxSzIs16, Flags.has_or, is32, Bool.or_true]

/-- What is no array has nothing that only arrays have. -/
theorem WellFormed.of_not_isArray {flags : Flags} (wf : WellFormed flags)
    (single : flags.has isArray = false) :
    flags.has maxSzIs16 = false ∧ flags.has szIs32 = false ∧ flags.has isVariableLen = false ∧
    flags.type ≠ string ∧
      flags.has utf16String = false := by
  have none_of := mt wf.array (by rw [single]; exact Bool.false_ne_true)
  simp only [not_or, Bool.not_eq_true] at none_of
  refine ⟨none_of.1, ?_, none_of.2⟩
  by_contra is32
  rw [szIs32_maxSzIs16 (by simpa using is32)] at none_of
  exact Bool.noConfusion none_of.1

/-! ### Where the walkers stop -/

section Stops

variable {stream : Stream} {at_ stop : Nat} {flags : Flags}

@[simp] theorem bytes_false (n : Nat) : bytes false n = 0 := rfl

@[simp] theorem bytes_true (n : Nat) : bytes true n = n := rfl

theorem readOffset_snd :
    (readOffset stream flags at_).2 =
      at_ + 1 + (if flags.has offsetIs16 then 1 else if flags.has extendedOffset then
          2 else 0) := by
  unfold readOffset
  split
  · rfl
  · split <;> rfl

theorem get8Or16_snd (is16 : Bool) : (get8Or16 stream is16 at_).2 = at_ + 1 + bytes is16 1 := by
  cases is16 <;> rfl

/-- `qmi_idl_next_element` goes by the grammar. -/
theorem nextElement_eq (notEnd : (header stream at_).1 ≠ endValue) :
    nextElement stream at_ = (header stream at_).2 + bodySize (header stream at_).1 := by
  simp only [nextElement, header, bodySize, Flags.hasSizeOffset, readOffset_snd] at *
  rw [if_neg notEnd]
  omega

theorem decodeRest_stop {value : DecodeValue} {input : DecodeInput} {length : Nat}
    {wire rest : List (BitVec 8)} (accepted : decodeRest value input flags length at_ wire =
        some (stop, rest)) :
    stop = at_ + bytes (flags.has rangeChecked) 4 + bytes (flags.type == aggregate) 2 := by
  obtain ⟨_, -, same⟩ := Option.map_eq_some_iff.mp accepted
  exact (congrArg Prod.fst same).symm

/-- With the flag for length only, the range index is not passed. -/
theorem decodeVariable_stop {value : DecodeValue} {input : DecodeInput} {offset arrayMaxSize : Nat}
    {rest : List (BitVec 8)} (variable_ : flags.has isVariableLen = true)
    (accepted : decodeVariable value input stream flags offset arrayMaxSize at_ =
        some (stop, rest)) :
    stop + bytes (flags.has arrayLengthOnly && flags.has rangeChecked) 4 =
      at_ + bytes flags.hasSizeOffset 1 + bytes (flags.type == aggregate) 2 +
          bytes (flags.has rangeChecked) 4 := by
  unfold decodeVariable at accepted
  rw [Flags.hasSizeOffset, variable_, Bool.true_and]
  split at accepted
  · cases accepted
  · simp only [Option.ite_none_left_eq_some] at accepted
    obtain ⟨-, -, accepted⟩ := accepted
    split at accepted
    · rename_i lengthOnly
      have same : _ = stop := congrArg Prod.fst (Option.some.inj accepted)
      rw [lengthOnly, Bool.true_and, ← same]
    · rename_i whole
      rw [Bool.not_eq_true] at whole
      rw [whole, decodeRest_stop accepted, Bool.false_and, bytes_false]
      omega

/-- `qmi_idl_decode_element` goes by the grammar, but for the range index of an element that is
length only. -/
theorem decodeBody_stop {value : DecodeValue} {input : DecodeInput} {offset : Nat}
    {rest : List (BitVec 8)} (wf : WellFormed flags)
    (accepted : decodeBody value input stream flags offset at_ = some (stop, rest)) :
    stop + bytes (flags.has isVariableLen && flags.has arrayLengthOnly && flags.has rangeChecked)
    4 =
      at_ + bodySize flags := by
  obtain ⟨-, accepted⟩ := Option.ite_none_left_eq_some.mp accepted
  rw [bodySize]
  split at accepted
  · rename_i array
    simp only [get8Or16_snd] at accepted
    rw [array, bytes_true]
    split at accepted
    · rename_i variable_
      have stops := decodeVariable_stop variable_ accepted
      rw [variable_, Bool.true_and]
      omega
    · rename_i fixed
      rw [Bool.not_eq_true] at fixed
      rw [decodeRest_stop accepted, Flags.hasSizeOffset, fixed]
      simp only [Bool.false_and, bytes_false]
      omega
  · rename_i single
    rw [Bool.not_eq_true] at single
    obtain ⟨size, is32, fixed, -⟩ := wf.of_not_isArray single
    rw [decodeRest_stop accepted, Flags.hasSizeOffset, single, size, is32, fixed]
    simp only [Bool.false_and, bytes_false]
    omega

theorem decodeElement_eq {value : DecodeValue} {input : DecodeInput} :
    decodeElement value stream at_ input =
      decodeBody value input stream (header stream at_).1
        (readOffset stream (readFlags stream at_).1 (readFlags stream at_).2).1
        (header stream at_).2 := rfl

theorem encodeRest_stop {value : EncodeValue} {input : EncodeInput} {length dstBytes rest : Nat}
    (accepted : encodeRest value input flags length at_ dstBytes = some (stop, rest)) :
    stop = at_ + bytes (flags.has rangeChecked) 4 + bytes (flags.type == aggregate) 2 := by
  have of_map (dstBytes : Nat)
      (accepted : (value flags length at_ input dstBytes).map (fun dstBytes =>
      (at_ + bytes (flags.has rangeChecked) 4 + bytes (flags.type == aggregate) 2, dstBytes)) =
          some (stop, rest)) :
      stop = at_ + bytes (flags.has rangeChecked) 4 + bytes (flags.type == aggregate) 2 := by
    obtain ⟨_, -, same⟩ := Option.map_eq_some_iff.mp accepted
    exact (congrArg Prod.fst same).symm
  simp only [encodeRest] at accepted
  split at accepted
  · exact (congrArg Prod.fst (Option.some.inj accepted)).symm
  · split at accepted
    · split at accepted
      · cases accepted
      · split at accepted
        · exact (congrArg Prod.fst (Option.some.inj accepted)).symm
        · exact of_map _ accepted
    · exact of_map _ accepted

/-- A string whose length only is sent, inside of another value. -/
def EncodeInput.LengthOnly (input : EncodeInput) (flags : Flags) : Bool :=
  flags.type == string && input.optionalOffset == -1 && !flags.has arrayDataOnly &&
    flags.has arrayLengthOnly

theorem encodeString_stop {value : EncodeValue} {input : EncodeInput}
    {arrayMaxSize dstBytes rest : Nat} (isString : flags.type = string)
    (accepted : encodeString value input flags arrayMaxSize at_ dstBytes = some (stop, rest)) :
    stop + bytes (input.LengthOnly flags && flags.has rangeChecked) 4 =
        at_ + bytes (flags.has rangeChecked) 4 := by
  have noAggregate : (flags.type == aggregate) = false := by rw [isString]; rfl
  simp only [encodeString, Option.ite_none_left_eq_some] at accepted
  obtain ⟨-, accepted⟩ := accepted
  split at accepted
  · rename_i nested
    split at accepted
    · cases accepted
    · split at accepted
      · rename_i lengthOnly
        have same : at_ = stop := congrArg Prod.fst (Option.some.inj accepted)
        simp [EncodeInput.LengthOnly, isString, nested.1, nested.2, lengthOnly, same]
      · rename_i whole
        rw [Option.ite_none_left_eq_some] at accepted
        rw [encodeRest_stop accepted.2, noAggregate, EncodeInput.LengthOnly]
        simp [whole]
  · rename_i outer
    rw [Option.ite_none_left_eq_some] at accepted
    rw [encodeRest_stop accepted.2, noAggregate]
    have notOnly : input.LengthOnly flags = false := by
      simp only [EncodeInput.LengthOnly, isString]
      grind
    simp [notOnly]

/-- `qmi_idl_encode_element` goes by the grammar when the value is there, but for the range index of
a string that is length only. -/
theorem encodePresent_stop {value : EncodeValue} {input : EncodeInput} {rest : Nat}
    (wf : WellFormed flags) (accepted : encodePresent value stream flags at_ input =
        some (stop, rest)) :
    stop + bytes (input.LengthOnly flags && flags.has rangeChecked) 4 = at_ + bodySize flags := by
  obtain ⟨-, accepted⟩ := Option.ite_none_left_eq_some.mp accepted
  simp only [get8Or16_snd] at accepted
  split at accepted
  · rename_i isString
    have array := wf.array (.inr (.inr (.inl isString)))
    have stops := encodeString_stop isString accepted
    have noAggregate : (flags.type == aggregate) = false := by rw [isString]; rfl
    have noOffset : flags.hasSizeOffset = false := by simp [Flags.hasSizeOffset, isString]
    rw [bodySize, array, noAggregate, noOffset, bytes_true, bytes_false, bytes_false]
    omega
  · rename_i noString
    have notOnly : input.LengthOnly flags = false := by simp [EncodeInput.LengthOnly, noString]
    rw [notOnly, Bool.false_and, bytes_false, bodySize]
    split at accepted
    · rename_i utf16
      have array := wf.array (.inr (.inr (.inr utf16)))
      have noOffset : flags.hasSizeOffset = false := by simp [Flags.hasSizeOffset, utf16]
      rw [Option.ite_none_left_eq_some] at accepted
      rw [encodeRest_stop accepted.2, array, noOffset, bytes_true, bytes_false]
      omega
    · rename_i noUtf16
      split at accepted
      · rename_i array
        split at accepted
        · rename_i variable_
          have sizeOffset : flags.hasSizeOffset = true := by
            simp [Flags.hasSizeOffset, variable_, noString, noUtf16]
          rw [Option.ite_none_left_eq_some] at accepted
          rw [encodeRest_stop accepted.2, array, sizeOffset, bytes_true]
          omega
        · rename_i fixed
          have noOffset : flags.hasSizeOffset = false := by simp [Flags.hasSizeOffset, fixed]
          rw [encodeRest_stop accepted, array, noOffset, bytes_true, bytes_false]
          omega
      · rename_i single
        rw [Bool.not_eq_true] at single
        obtain ⟨size, is32, fixed, -⟩ := wf.of_not_isArray single
        have noOffset : flags.hasSizeOffset = false := by simp [Flags.hasSizeOffset, fixed]
        rw [encodeRest_stop accepted, single, size, is32, noOffset]
        simp only [bytes_false]
        omega

/-- An element that is skipped goes by the grammar, but for the two bytes more of an array size of
32 bits. -/
theorem encodeAbsent_stop (at_ : Nat) (wf : WellFormed flags) :
    encodeAbsent flags at_ + bytes (flags.has szIs32) 2 = at_ + bodySize flags := by
  rw [encodeAbsent, bodySize, ← Flags.hasSizeOffset]
  cases array : flags.has isArray with
  | true =>
    have size : (if flags.has maxSzIs16 then 2 else 1) = 1 + bytes (flags.has maxSzIs16) 1 := by
      cases flags.has maxSzIs16 <;> rfl
    rw [size, bytes_true, bytes_true]
    omega
  | false =>
    obtain ⟨size, is32, fixed, -⟩ := wf.of_not_isArray array
    rw [size, is32, Flags.hasSizeOffset, fixed]
    simp only [Bool.false_and, bytes_false]
    omega

theorem encodeElement_absent {value : EncodeValue} {input : EncodeInput}
    (optional : 0 < input.optionalOffset) (absent : input.valid = false) :
    encodeElement value stream at_ input =
      some (encodeAbsent (header stream at_).1 (header stream at_).2, input.dstBytes) :=
  if_pos ⟨optional, by rw [absent]; rfl⟩

theorem encodeElement_present {value : EncodeValue} {input : EncodeInput}
    (present : ¬ (0 < input.optionalOffset ∧ input.valid = false)) :
    encodeElement value stream at_ input =
      encodePresent value stream (header stream at_).1 (header stream at_).2 input :=
  if_neg (by simpa using present)

end Stops

/-! ### Whether the walkers agree -/

/-- The position after an element is the same for all walkers. -/
structure Agree (decodeValue : DecodeValue) (encodeValue : EncodeValue) (stream : Stream)
    (at_ : Nat) : Prop where
  decode : ∀ input stop rest, decodeElement decodeValue stream at_ input = some (stop, rest) →
    stop = nextElement stream at_
  present : ∀ input stop rest, ¬ (0 < input.optionalOffset ∧ input.valid = false) →
    encodeElement encodeValue stream at_ input = some (stop, rest) → stop = nextElement stream at_
  absent : ∀ input stop rest, 0 < input.optionalOffset → input.valid = false →
    encodeElement encodeValue stream at_ input = some (stop, rest) → stop = nextElement stream at_

/-- The array size has no 32 bits. With a range index, no length is sent alone: neither that of a
variable length array, nor that of a string with its data. -/
structure Plain (flags : Flags) : Prop where
  not32 : flags.has szIs32 = false
  notLengthOnly : flags.has rangeChecked = true → flags.has arrayLengthOnly = true →
    flags.has isVariableLen = false ∧ (flags.type = string → flags.has arrayDataOnly = true)

section Agree

variable {decodeValue : DecodeValue} {encodeValue : EncodeValue} {stream : Stream} {at_ : Nat}

/-- Some wire stream has an array of no items. -/
theorem wireLength_zero (flags : Flags) : ∃ wire rest, wireLength flags (-1) wire 0 =
    some (0, rest) := by
  by_cases lengthless : flags.has arrayIsLengthless = true
  · refine ⟨[], [], ?_⟩
    simp [wireLength, Flags.has_or, lengthless]
  · rw [Bool.not_eq_true] at lengthless
    refine ⟨[0, 0, 0, 0], ?_⟩
    simp only [wireLength, Flags.has_or, lengthless, ne_eq, not_true_eq_false, false_and, if_false]
    split
    · exact ⟨_, rfl⟩
    · split
      · exact ⟨_, rfl⟩
      · split <;> exact ⟨_, rfl⟩

/-- A variable length array that is length only can be decoded. -/
theorem decodeElement_accepts (decodeValue : DecodeValue)
    (array : (header stream at_).1.has isArray = true)
    (variable_ : (header stream at_).1.has isVariableLen = true)
    (lengthOnly : (header stream at_).1.has arrayLengthOnly = true) :
    ∃ input stop rest, decodeElement decodeValue stream at_ input = some (stop, rest) := by
  obtain ⟨wire, rest, read⟩ := wireLength_zero (header stream at_).1
  refine ⟨⟨wire, -1, fun _ _ => true, fun _ => 0⟩, ?_⟩
  simp [decodeElement_eq, decodeBody, array, variable_, decodeVariable, read, lengthOnly]

theorem encodeLength_four (flags : Flags) : ∃ rest, encodeLength flags 4 = some rest := by
  unfold encodeLength
  split
  · exact ⟨3, rfl⟩
  · split
    · exact ⟨2, rfl⟩
    · exact ⟨0, rfl⟩

/-- A string that is length only can be encoded. -/
theorem encodeElement_accepts (encodeValue : EncodeValue)
    (isString : (header stream at_).1.type = string)
    (dataToo : (header stream at_).1.has arrayDataOnly = false)
    (lengthOnly : (header stream at_).1.has arrayLengthOnly = true) :
    ∃ stop rest, encodeElement encodeValue stream at_ ⟨4, -1, true, 0, 0, 0⟩ =
        some (stop, rest) := by
  obtain ⟨rest, sent⟩ := encodeLength_four (header stream at_).1
  rw [encodeElement_present (by simp)]
  simp [encodePresent, isString, encodeString, dataToo, lengthOnly, sent]

/-- **The walkers of a well-formed element agree if and only if its array size does not have 32
bits, and it has no range index or does not send its length alone.** -/
theorem walkers_agree_iff (wf : WellFormed (header stream at_).1) :
    Agree decodeValue encodeValue stream at_ ↔ Plain (header stream at_).1 := by
  have next := nextElement_eq wf.notEnd
  constructor
  · intro agree
    constructor
    · -- An optional element without its value shows the two bytes.
      by_contra is32
      rw [Bool.not_eq_false] at is32
      have same := agree.absent ⟨0, 1, false, 0, 0, 0⟩ _ _ (by decide) rfl
        (encodeElement_absent (by decide) rfl)
      have stops := encodeAbsent_stop (header stream at_).2 wf
      rw [is32, bytes_true, ← next] at stops
      omega
    · intro range lengthOnly
      constructor
      · by_contra variable_
        rw [Bool.not_eq_false] at variable_
        obtain ⟨input, stop, rest, accepted⟩ :=
          decodeElement_accepts decodeValue (wf.array (.inr (.inl variable_))) variable_ lengthOnly
        have same := agree.decode input stop rest accepted
        rw [decodeElement_eq] at accepted
        have stops := decodeBody_stop wf accepted
        rw [variable_, lengthOnly, range, ← next] at stops
        change stop + 4 = _ at stops
        omega
      · intro isString
        by_contra dataToo
        rw [Bool.not_eq_true] at dataToo
        obtain ⟨stop, rest, accepted⟩ :=
          encodeElement_accepts encodeValue isString dataToo lengthOnly
        have same := agree.present _ stop rest (by decide) accepted
        rw [encodeElement_present (by decide)] at accepted
        have stops := encodePresent_stop wf accepted
        rw [EncodeInput.LengthOnly, isString, dataToo, lengthOnly, range, ← next] at stops
        change stop + 4 = _ at stops
        omega
  · intro plain
    have alone (length : Bool) (only : length = true →
        (header stream at_).1.has rangeChecked = true → False) :
        bytes (length && (header stream at_).1.has rangeChecked) 4 = 0 := by
      cases length with
      | false => rfl
      | true =>
        have noRange : (header stream at_).1.has rangeChecked = false := by
          simpa using only rfl
        rw [noRange]
        rfl
    constructor
    · intro input stop rest accepted
      rw [decodeElement_eq] at accepted
      have stops := decodeBody_stop wf accepted
      rw [alone, ← next] at stops
      · exact stops
      · intro only range
        rw [Bool.and_eq_true] at only
        rw [(plain.notLengthOnly range only.2).1] at only
        exact Bool.noConfusion only.1
    · intro input stop rest present accepted
      rw [encodeElement_present present] at accepted
      have stops := encodePresent_stop wf accepted
      rw [alone, ← next] at stops
      · exact stops
      · intro only range
        simp only [EncodeInput.LengthOnly, Bool.and_eq_true, beq_iff_eq, Bool.not_eq_true'] at only
        rw [(plain.notLengthOnly range only.2).2 only.1.1.1] at only
        exact Bool.noConfusion only.1.2
    · intro input stop rest optional absent skipped
      rw [encodeElement_absent optional absent] at skipped
      have same : _ = stop := congrArg Prod.fst (Option.some.inj skipped)
      have stops := encodeAbsent_stop (header stream at_).2 wf
      rw [plain.not32, bytes_false, ← next] at stops
      exact same.symm.trans stops

end Agree

/-- Bytes are taken from the wire stream as they are. -/
def decodeBytes : DecodeValue := fun _ length _ _ wire =>
  if length ≤ wire.length then some (wire.drop length) else none

/-- Bytes are put into the message as they are. -/
def encodeBytes : EncodeValue := fun _ length _ _ dstBytes =>
  if length ≤ dstBytes then some (dstBytes - length) else none

/-- A variable length array of bytes, with a size of 8 bits. -/
def smallArray : Stream := fun i => [0x50, 8, 255, 4].getD i 0

theorem smallArray_agree : Agree decodeBytes encodeBytes smallArray 0 :=
  (walkers_agree_iff ⟨by decide, fun _ => by decide⟩).mpr
    ⟨by decide, fun range => absurd range (by decide)⟩

/-- A variable length array of bytes, with a size of 32 bits. -/
def largeArray : Stream := fun i => [0x58, 0x40, 8, 0, 1, 0, 0, 4].getD i 0

/-- Without its value the element of an optional array is left two bytes before its end. -/
theorem largeArray_skipped :
    WellFormed (header largeArray 0).1 ∧ nextElement largeArray 0 = 8 ∧
      encodeElement encodeBytes largeArray 0 ⟨100, 4, false, 0, 0, 0⟩ = some (6, 100) ∧
        ¬ Agree decodeBytes encodeBytes largeArray 0 := by
  refine ⟨⟨by decide, fun _ => by decide⟩, by decide, rfl, fun agree => ?_⟩
  have same := agree.absent ⟨100, 4, false, 0, 0, 0⟩ 6 100 (by decide) rfl rfl
  exact absurd same (by decide)

end Qsdk.Qmi
