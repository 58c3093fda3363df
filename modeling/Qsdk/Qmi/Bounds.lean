/-
**What decoding a QMI message writes.**

Whatever is received, and whatever the type tables say, decoding changes nothing outside of the C
structure but the byte behind it, where a string that fills the structure is ended, and except for
one case: the default of an enumeration that fails its range check is written without a test, up to
as far again behind the structure (`decodeElement_keeps`).
-/

import Qsdk.Qmi.Decode

namespace Qsdk.Qmi.Decode

open Writes

@[simp] theorem length_leBytes (count n : Nat) : (leBytes count n).length = count := by
    simp [leBytes]

/-- No range check of an enumeration answers with a default. -/
def NoEnumDefault (tables : Nat → TypeTable) : Prop :=
  ∀ table i value, (((tables table).ranges i).check32 value).1 ≠ responseDefault

/-- Nothing is changed outside of the addresses from 0 to `last`. -/
def Inside (last : Int) (before : Memory Byte) (s : State) : Prop :=
    SameOutside 0 (last + 1) before s.memory

section Keeps

variable {tables : Nat → TypeTable} {size : Nat} {last : Int} {before : Memory Byte} {α : Type}

theorem keeps_store {address : Int} {bytes : List Byte} (low : 0 ≤ address)
    (high : address + bytes.length ≤ last + 1) :
    Keeps (Inside last before) (store address bytes) :=
  keeps_modify fun _ inside => inside.write low high

theorem keeps_load32 (address : Int) : Keeps (Inside last before) (load32 address) :=
  keeps_get.bind fun _ => keeps_pure _

/-- What follows a range test may rely on it. -/
theorem keeps_bufRange {address : Int} {len : Nat} {rest : Unit → Decoder α}
    (second : 0 ≤ address → address + len ≤ size → Keeps (Inside last before) (rest ⟨⟩)) :
    Keeps (Inside last before) (bufRange size address len >>= rest) :=
  keeps_check fun inside => second inside.1 inside.2

/-- The valid flag, if there is one, is in the structure or behind it. -/
def FlagInside (size : Nat) (optionalOffset validFlag : Int) : Prop :=
  0 < optionalOffset → 0 ≤ validFlag ∧ validFlag ≤ size

variable {optionalOffset validFlag : Int}

theorem FlagInside.keeps (inside : FlagInside size optionalOffset validFlag) (fits : size ≤ last)
    (byte : Byte) (optional : 0 < optionalOffset) :
        Keeps (Inside last before) (store validFlag [byte]) := by
  obtain ⟨low, high⟩ := inside optional
  apply keeps_store low
  rw [List.length_singleton]
  omega

theorem keeps_answered {response : Int} {replace : Decoder Unit}
    (flag : FlagInside size optionalOffset validFlag) (fits : size ≤ last)
    (replaces : response = responseDefault → Keeps (Inside last before) replace) :
    Keeps (Inside last before) (answered optionalOffset validFlag response replace) :=
  Keeps.ite
    (fun _ => Keeps.ite (flag.keeps fits 0) fun _ => keeps_modify fun _ inside => inside)
    fun _ => Keeps.ite (fun _ => keeps_throw _) fun _ => Keeps.ite replaces fun _ => keeps_pure _

variable {flags : Flags} {range : Range} {dst : Int} {length : Nat} {wire : List Byte}

theorem keeps_decodeGeneric (flag : FlagInside size optionalOffset validFlag) (fits : size ≤ last) :
    Keeps (Inside last before)
        (decodeGeneric size flags range optionalOffset validFlag dst length wire) := by
  unfold decodeGeneric
  refine keeps_check fun enough => keeps_bufRange fun low high => ?_
  refine Keeps.bind (keeps_store low ?_) fun _ => Keeps.bind (keeps_when fun _ => ?_) fun _ =>
    Keeps.bind (keeps_when fun _ => ?_) fun _ => keeps_pure _
  · rw [List.length_take]
    omega
  · refine keeps_forM _ fun i _ => keeps_answered flag fits fun _ => ?_
    refine keeps_bufRange fun low high => keeps_store low ?_
    rw [length_leBytes]
    omega
  · refine keeps_bufRange fun low high => keeps_store (by omega) ?_
    rw [List.length_singleton]
    omega

/-- The default of an enumeration is the only write that is not tested: item `i` is at `4 * i`, its
default at `8 * i`. -/
theorem keeps_decodeEnum {width : Nat} (flag : FlagInside size optionalOffset validFlag)
    (fits : size ≤ last) (defaults : (∀ value, (range.check32 value).1 ≠ responseDefault) ∨
        2 * size ≤ last) :
    Keeps (Inside last before)
        (decodeEnum size flags range optionalOffset validFlag dst length wire width) := by
  unfold decodeEnum
  refine keeps_check fun enough => keeps_bufRange fun low high => ?_
  refine Keeps.bind (keeps_forM _ fun i inside => ?_) fun _ =>
    Keeps.bind (keeps_when fun _ => keeps_forM _ fun i inside => ?_) fun _ => keeps_pure _
  · rw [List.mem_range] at inside
    apply keeps_store (by omega)
    rw [length_leBytes]
    omega
  · rw [List.mem_range] at inside
    refine (keeps_load32 _).bind fun value => keeps_answered flag fits fun isDefault => ?_
    obtain noDefault | wide := defaults
    · exact absurd isDefault (noDefault value)
    · apply keeps_store (by omega)
      rw [length_leBytes]
      omega

theorem keeps_decodeString (fits : size ≤ last) :
    Keeps (Inside last before) (decodeString size dst length wire) := by
  unfold decodeString
  refine keeps_check fun enough => keeps_bufRange fun low high => ?_
  refine Keeps.bind (keeps_store low ?_) fun _ => Keeps.bind (keeps_store (by omega) ?_) fun _ =>
    keeps_pure _
  · rw [List.length_take]
    omega
  · rw [List.length_singleton]
    omega

variable {decode : Element → Decoder (Nat × List Byte)} {fuel at_ : Nat}

theorem keeps_structLoop (flag : FlagInside size optionalOffset validFlag) (fits : size ≤ last)
    (keeps : ∀ e, Keeps (Inside last before) (decode e)) {stream : Stream} {table : Nat} :
    Keeps (Inside last before)
        (structLoop decode optionalOffset validFlag dst stream table fuel at_ wire) := by
  induction fuel generalizing at_ wire with
  | zero => exact keeps_throw _
  | succ fuel ih =>
    refine (keeps _).bind fun next => keeps_get.bind fun s =>
        Keeps.bind (keeps_when fun set => ?_) fun _ =>
      Keeps.ite (fun _ => keeps_pure _) fun _ => ih
    exact flag.keeps fits 0 set.2

/-- How far a decoder may write. -/
structure Reach (tables : Nat → TypeTable) (size : Nat) (last : Int) : Prop where
  fits : size ≤ last
  defaults : NoEnumDefault tables ∨ 2 * size ≤ last

variable (reach : Reach tables size last) (keeps : ∀ e, Keeps (Inside last before) (decode e))
    {e : Element}

include reach keeps

theorem keeps_decodeValue (flag : FlagInside size e.optionalOffset (dst - e.optionalOffset)) :
    Keeps (Inside last before)
        (decodeValue tables size decode fuel e flags dst length at_ wire) := by
  have fits := reach.fits
  have defaults (i : Nat) := reach.defaults.imp_left fun none value => none e.table i value
  refine Keeps.bind ?_ fun _ => keeps_pure _
  refine Keeps.ite (fun _ => keeps_decodeGeneric flag fits) fun _ => ?_
  refine Keeps.ite (fun _ => keeps_decodeEnum flag fits (defaults _)) fun _ => ?_
  refine Keeps.ite (fun _ => keeps_decodeEnum flag fits (defaults _)) fun _ => ?_
  refine Keeps.ite (fun _ => keeps_decodeString fits) fun _ => ?_
  exact keeps_foldlM _ _ fun _ _ _ => keeps_structLoop flag fits keeps

theorem keeps_decodeVariable {arrayMaxSize : Nat}
    (flag : FlagInside size e.optionalOffset (dst - e.optionalOffset)) :
    Keeps (Inside last before)
        (decodeVariable tables size decode fuel e flags dst arrayMaxSize at_) := by
  refine (keeps_load32 _).bind fun stored => ?_
  split
  · exact keeps_throw _
  · refine Keeps.bind (keeps_when fun _ => ?_) fun _ => keeps_check fun _ =>
      Keeps.ite (fun _ => keeps_pure _) fun _ => keeps_decodeValue reach keeps flag
    refine keeps_bufRange fun low high => keeps_store low ?_
    have fits := reach.fits
    rw [length_leBytes]
    omega

theorem keeps_decodeBody : Keeps (Inside last before) (decodeBody tables size decode fuel e) := by
  have array (flags : Flags) (dst : Int) (at_ : Nat)
      (flag : FlagInside size e.optionalOffset (dst - e.optionalOffset)) :
      Keeps (Inside last before) (decodeArray tables size decode fuel e flags dst at_) :=
    Keeps.ite
      (fun _ => Keeps.ite (fun _ => keeps_decodeVariable reach keeps flag)
        fun _ => keeps_decodeValue reach keeps flag)
      fun _ => keeps_decodeValue reach keeps flag
  refine Keeps.ite (fun optional => keeps_bufRange fun low high => ?_) fun noFlag =>
    array _ _ _ fun optional => absurd optional noFlag
  have inside : FlagInside size e.optionalOffset _ := fun _ => ⟨low, by simpa using high⟩
  exact (inside.keeps reach.fits 1 optional).bind fun _ => array _ _ _ inside

end Keeps

/-- No types, and every number passes its range check. -/
def noTypes : TypeTable :=
    ⟨fun _ => ⟨0, fun _ => 0⟩, fun _ => ⟨fun value => (0, value), fun value => (0, value)⟩, id⟩

/-- Decoding an element writes no further than that. -/
theorem decodeElement_keeps {tables : Nat → TypeTable} {size : Nat} {last : Int}
    {before : Memory Byte} (reach : Reach tables size last) (fuel : Nat) (e : Element) :
    Keeps (Inside last before) (decodeElement tables size fuel e) := by
  induction fuel generalizing e with
  | zero => exact keeps_throw _
  | succ fuel ih => exact keeps_decodeBody reach ih

/-- The zero after a string that fills the structure is behind it. -/
example :
    ((decodeElement (fun _ => noTypes) 1 1 ⟨0, [65], 0, fun i => [0x56, 0, 1].getD i 0, 0, 0⟩).on
    ⟨fun _ => 7, false⟩).2.memory 1 = 0 := rfl

/-- The default of the second of two enumerations is behind both. -/
example : ((decodeElement
    (fun _ =>
      { noTypes with ranges :=
        fun _ => ⟨fun value => (0, value), fun value => (if value = 5 then -1 else 0, 9)⟩ })
    8 1 ⟨0, [0, 5], 0, fun i => [0x4C, 0x80, 0x40, 0, 2].getD i 0, 0, 0⟩).on
    ⟨fun _ => 7, false⟩).2.memory 8 = 9 := rfl

/-! ### Messages -/

namespace Message

variable {message : Message} {last : Int} {before : Memory Byte}

theorem keeps_decodeTlv (reach : Reach message.tables message.entry.structSize last)
    {msgType : Byte} {value rest : List Byte} {progress : Progress} :
    Keeps (Inside last before) (message.decodeTlv msgType value rest progress) := by
  refine (keeps_given _).bind fun found => ?_
  split
  · exact keeps_check fun _ => (decodeElement_keeps reach _ _).bind fun _ => keeps_check fun _ =>
      keeps_pure _
  · exact keeps_check fun _ => keeps_pure _

theorem keeps_decodeTlvs (reach : Reach message.tables message.entry.structSize last)
    (src : List Byte) (progress : Progress) : Keeps (Inside last before)
        (message.decodeTlvs src progress) := by
  induction len : src.length using Nat.strong_induction_on generalizing src progress with
  | _ n ih =>
    rw [decodeTlvs]
    refine Keeps.ite (fun _ => keeps_pure _) fun _ => ?_
    split
    · exact keeps_throw _
    · rename_i split
      exact (keeps_decodeTlv reach).bind fun _ => ih _ (len ▸ splitTlv_length split) _ _ rfl

theorem keeps_messageDecodeV6 (reach : Reach message.tables message.entry.structSize last)
    (dstLen : Nat) (src : List Byte) : Keeps (Inside last before)
        (message.messageDecodeV6 dstLen src) := by
  have fits := reach.fits
  refine keeps_check fun _ => Keeps.bind (keeps_modify fun _ inside => inside) fun _ =>
    Keeps.bind (keeps_store le_rfl ?_) fun _ => (keeps_decodeTlvs reach _ _).bind fun _ => ?_
  · rw [List.length_replicate]
    omega
  · split
    · exact keeps_pure _
    · exact keeps_when fun _ => keeps_given _

/-- **Whatever is received and whatever the type tables say, decoding changes nothing before the C
structure, nor further behind it than the structure is long; and if no enumeration has a default, it
changes nothing behind it but the next byte.** -/
theorem messageDecodeV6_bounded (message : Message) (dstLen : Nat) (src : List Byte) (s : State) :
    SameOutside 0 (2 * message.entry.structSize + 1) s.memory
    ((message.messageDecodeV6 dstLen src).on s).2.memory ∧
      (NoEnumDefault message.tables →
        SameOutside 0 (message.entry.structSize + 1) s.memory
          ((message.messageDecodeV6 dstLen src).on s).2.memory) := by
  constructor
  · exact keeps_messageDecodeV6 ⟨by omega, .inr le_rfl⟩ dstLen src s fun _ _ => rfl
  · intro noDefault
    exact keeps_messageDecodeV6 ⟨le_rfl, .inl noDefault⟩ dstLen src s fun _ _ => rfl

/-- A request with one mandatory byte, in a TLV of type 1. -/
def oneByte : Message where
  tables := fun _ => noTypes
  table := 0
  entry := ⟨1, some fun i => [0x81, 0, 0].getD i 0⟩
  response := false
  behind := 0
  fuel := 1

theorem oneByte_bounded :
    let after := ((oneByte.messageDecodeV6 1 [1, 1, 0, 42]).on ⟨fun _ => 0xFF, false⟩).2.memory
    after 0 = 42 ∧ SameOutside 0 2 (fun _ => 0xFF) after := by
  intro after
  have value : oneByte.decodeTlvs [1, 1, 0, 42] ⟨fun _ => false, 0⟩ =
      oneByte.decodeTlv 1 [42] [] ⟨fun _ => false, 0⟩ >>= pure := by
    have isSplit : splitTlv [1, 1, 0, 42] = some (1, [42], []) := by simp [splitTlv]
    rw [decodeTlvs, if_neg (List.cons_ne_nil _ _)]
    split
    · rename_i none
      exact absurd (isSplit.symm.trans none) (Option.some_ne_none _)
    · rename_i parts
      cases isSplit.symm.trans parts
      refine bind_congr fun progress => ?_
      rw [decodeTlvs, if_pos rfl]
  constructor
  · show ((oneByte.messageDecodeV6 1 [1, 1, 0, 42]).on ⟨fun _ => 0xFF, false⟩).2.memory 0 = 42
    simp only [messageDecodeV6, value]
    rfl
  · exact (messageDecodeV6_bounded oneByte 1 [1, 1, 0, 42] ⟨fun _ => 0xFF, false⟩).2
      fun _ _ _ => show (0 : Int) ≠ -1 by decide

end Message

end Qsdk.Qmi.Decode
