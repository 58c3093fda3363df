/-
**What is encoded is decoded again.**

An element of a C structure that is encoded is decoded to the same bytes at the same place, whatever
is there before, and what was decoded is encoded to the same bytes again (`element_trips`). The
element is ordinary: it sends its length with its data, in one or two bytes, and is no UTF-16
string. The C structure suits it (`Suits`): its field is inside, its items pass their range checks,
and its enumerations fit into the bytes they are sent in.
-/

import Qsdk.Qmi.Items

namespace Qsdk.Qmi.Decode

open Writes

/-- Elements that send their length with their data, and no UTF-16 strings. -/
structure Ordinary (flags : Flags) : Prop where
  wellFormed : WellFormed flags
  not32 : flags.has szIs32 = false
  notDataOnly : flags.has arrayDataOnly = false
  notLengthOnly : flags.has arrayLengthOnly = false
  notLengthless : flags.has arrayIsLengthless = false
  notUtf16 : flags.has utf16String = false
  stringVariable : flags.type = string → flags.has isVariableLen = true

section Ordinary

variable {flags : Flags} (ordinary : Ordinary flags)

include ordinary

theorem Ordinary.maxSzIs16_eq : flags.has maxSzIs16 = flags.has szIs16 := by
  rw [maxSzIs16, Flags.has_or, ordinary.not32, Bool.or_false]

theorem Ordinary.isArray_of_variable (isVariable : flags.has isVariableLen = true) :
    flags.has isArray = true :=
  ordinary.wellFormed.array (.inr (.inl isVariable))

theorem Ordinary.sendsLength_eq : sendsLength flags = flags.has isVariableLen := by
  rw [sendsLength, Flags.has_or, ordinary.notDataOnly, ordinary.notLengthless]
  cases isVariable : flags.has isVariableLen with
  | true => rw [ordinary.isArray_of_variable isVariable]; rfl
  | false => rw [Bool.and_false, Bool.false_and]

/-- The length is read as it was sent. -/
theorem Ordinary.wireLength_eq {n stored : Nat} {optionalOffset : Int} {stream : Stream} {at_ : Nat}
    (rest : List Byte) (fits : n ≤ (get8Or16 stream (flags.has maxSzIs16) at_).1)
    (sent : optionalOffset = -1 ∨ flags.type ≠ string) :
    wireLength flags optionalOffset (lengthBytes flags n ++ rest) stored = some (n, rest) := by
  have outer : ¬ (optionalOffset ≠ -1 ∧ flags.type = string) := by
    rintro ⟨top, isString⟩
    exact sent.elim top fun notString => notString isString
  rw [ordinary.maxSzIs16_eq] at fits
  unfold wireLength lengthBytes
  simp only [if_neg outer, Flags.has_or, ordinary.not32, ordinary.notDataOnly,
    ordinary.notLengthless, Bool.or_false]
  cases wide : flags.has szIs16 with
  | false =>
    have small : n < 256 := by
      rw [wide] at fits
      exact lt_of_le_of_lt fits (stream at_).isLt
    have low : (BitVec.ofNat 8 n).toNat = n := by rw [BitVec.toNat_ofNat, Nat.mod_eq_of_lt small]
    simp [leBytes, low]
  | true =>
    have small : n < 65536 := by
      rw [wide] at fits
      have low := (stream at_).isLt
      have high := (stream (at_ + 1)).isLt
      simp only [get8Or16, if_true] at fits
      omega
    obtain ⟨low, high, bytes, number⟩ := leBytes_two_eq small
    simp [bytes, number]

/-- Where the items of a value begin. -/
theorem Ordinary.itemCount_snd (memory : Memory Byte) (stream : Stream) (src : Int) (at_ : Nat) :
    (itemCount memory stream flags src at_).2 =
      at_ + bytes (flags.has isArray) 1 + bytes (flags.has maxSzIs16) 1 +
      bytes (flags.has szIs32) 2 +
        bytes flags.hasSizeOffset 1 := by
  unfold itemCount
  simp only [get8Or16_snd, ordinary.notUtf16, Bool.false_eq_true, if_false]
  by_cases isString : flags.type = string
  · have array := ordinary.wellFormed.array (.inr (.inr (.inl isString)))
    simp [isString, array, Flags.hasSizeOffset]
  · rw [if_neg isString]
    have offset : flags.hasSizeOffset = flags.has isVariableLen := by
      simp [Flags.hasSizeOffset, isString, ordinary.notUtf16]
    rw [offset]
    cases array : flags.has isArray with
    | true => cases isVariable : flags.has isVariableLen <;> simp
    | false =>
      obtain ⟨size, is32, fixed, -⟩ := ordinary.wellFormed.of_not_isArray array
      simp [size, is32, fixed]

/-- The length of an array of variable length is in the C structure. -/
theorem Ordinary.itemCount_variable (memory : Memory Byte) (stream : Stream) (src : Int) (at_ : Nat)
    (notString : flags.type ≠ string) (isVariable : flags.has isVariableLen = true) :
    itemCount memory stream flags src at_ =
      ((word32 memory (src -
          (stream ((get8Or16 stream (flags.has maxSzIs16) at_).2 +
            bytes (flags.has szIs32) 2)).toNat)).toNat,
        (get8Or16 stream (flags.has maxSzIs16) at_).2 + bytes (flags.has szIs32) 2 + 1) := by
  simp only [itemCount, if_neg notString, ordinary.notUtf16, Bool.false_eq_true, if_false,
    ordinary.isArray_of_variable isVariable, isVariable, if_true]

/-- The number of other items is fixed. -/
theorem Ordinary.itemCount_fixed (memory : Memory Byte) (stream : Stream) (src : Int) (at_ : Nat)
    (notString : flags.type ≠ string) (fixed : flags.has isVariableLen = false) :
    itemCount memory stream flags src at_ =
      if flags.has isArray then ((get8Or16 stream (flags.has maxSzIs16) at_).1,
        (get8Or16 stream (flags.has maxSzIs16) at_).2 + bytes (flags.has szIs32) 2)
      else (1, at_) := by
  simp only [itemCount, if_neg notString, ordinary.notUtf16, Bool.false_eq_true, if_false, fixed]

/-- The next element is where the items, the range index and the aggregate type end. -/
theorem Ordinary.nextElement_eq {memory : Memory Byte} {stream : Stream} {src : Int} {at_ : Nat}
    (same : flags = (header stream at_).1) :
    nextElement stream at_ =
      (itemCount memory stream flags src (header stream at_).2).2 +
      bytes (flags.has rangeChecked) 4 +
        bytes (flags.type == aggregate) 2 := by
  rw [Qmi.nextElement_eq (same ▸ ordinary.wellFormed.notEnd), ordinary.itemCount_snd,
    bodySize, ← same]
  omega

end Ordinary

/-! ### C structures that suit the elements -/

/-- The elements of an aggregate type from `at_` on. -/
def SuitsStruct (suits : Place → Prop) (src : Int) (stream : Stream) (table : Nat) :
    (fuel at_ : Nat) → Prop
  | 0, _ => True
  | fuel + 1, at_ =>
    suits { src, optionalOffset := -1, stream, at_, table } ∧
      (stream (nextElement stream at_) ≠ 0x20 →
        SuitsStruct suits src stream table fuel (nextElement stream at_))

/-- The items of a value suit their type; `inner` is what an aggregate type asks for. -/
structure SwitchSuits (m : Memory Byte) (size : Nat) (flags : Flags) (range : Range) (dst : Int)
    (length : Nat) (inner : Prop) : Prop where
  generic : flags.type.toNat < 4 → GenericSuits m size flags range dst length
  oneByte : flags.type = oneByteEnum → EnumSuits m size flags range dst length 1
  twoByte : flags.type = twoByteEnum → EnumSuits m size flags range dst length 2
  text : flags.type = string → 0 ≤ dst ∧ dst + length ≤ size
  nested : ¬ flags.type.toNat < 4 → flags.type ≠ oneByteEnum → flags.type ≠ twoByteEnum →
    flags.type ≠ string →
    inner

/-- Items of a generic type that are not range checked only have to be inside. -/
theorem SwitchSuits.of_generic {m : Memory Byte} {size : Nat} {flags : Flags} {range : Range}
    {dst : Int} {length : Nat} {inner : Prop} (generic : flags.type.toNat < 4)
    (unchecked : flags.has rangeChecked = false) (low : 0 ≤ dst)
    (high : dst + (length * 2 ^ flags.type.toNat : Nat) ≤ size) :
    SwitchSuits m size flags range dst length inner := by
  have other {type : Flags} (large : 4 ≤ type.toNat) : flags.type ≠ type := by
    rintro rfl
    omega
  constructor
  · exact fun _ =>
      ⟨low, high, fun checked => absurd (unchecked.symm.trans checked) Bool.false_ne_true⟩
  · exact fun same => absurd same (other (by decide))
  · exact fun same => absurd same (other (by decide))
  · exact fun same => absurd same (other (by decide))
  · exact fun notGeneric => absurd generic notGeneric

section Suits

variable (tables : Nat → TypeTable) (m : Memory Byte) (size : Nat)

/-- What the aggregate type of an element asks for. -/
def InnerSuits (suits : Place → Prop) (fuel : Nat) (e : Place) (dst : Int) (length at_ : Nat) :
    Prop :=
  let agType := get16 e.stream at_
  let table := (tables e.table).referencedTables (agType / 256 % 16)
  let entry := (tables table).types (agType % 256 + agType / 4096 * 256)
  ∀ i ∈ List.range length, SuitsStruct suits (dst + (i : Nat) * entry.structSize)
  entry.encodedTypeData table fuel 0

/-- An element and its field: the valid flag is there and set to one, the length is inside of the
structure, and so are the items. -/
structure BodySuits (suits : Place → Prop) (fuel : Nat) (e : Place) (flags : Flags) (dst : Int)
    (at_ : Nat) :
    Prop where
  ordinary : Ordinary flags
  flag : 0 < e.optionalOffset → 0 ≤ dst - e.optionalOffset ∧ dst - e.optionalOffset ≤ size ∧
    m (dst - e.optionalOffset) = 1
  count : flags.has isVariableLen = true → flags.type ≠ string → ∀ offset,
    offset = (e.stream ((get8Or16 e.stream (flags.has maxSzIs16) at_).2 +
      bytes (flags.has szIs32) 2)).toNat →
      0 ≤ dst - offset ∧ dst - offset + 4 ≤ size
  value : ∀ count, count = itemCount m e.stream flags dst at_ →
    SwitchSuits m size flags
    ((tables e.table).ranges (get16 e.stream count.2 + get16 e.stream (count.2 + 2) * 65536))
      dst count.1
      (InnerSuits tables suits fuel e dst count.1 (count.2 + bytes (flags.has rangeChecked) 4))

/-- The C structure suits an element, to the depth of its types. -/
def Suits : Nat → Place → Prop
  | 0, _ => True
  | fuel + 1, e =>
    let flags := (readFlags e.stream e.at_).1
    let offset := readOffset e.stream flags (readFlags e.stream e.at_).2
    BodySuits tables m size (Suits fuel) fuel e flags (e.src + offset.1) offset.2

end Suits

/-- The arguments of the decoder for a place. -/
def Place.element (e : Place) (wire : List Byte) : Element :=
  { dst := e.src, wire, optionalOffset := e.optionalOffset, stream := e.stream, at_ :=
    e.at_, table := e.table }

/-- What was sent for an element is decoded to the bytes `W` of the C structure, on which it depends
alone. At the top level there is nothing behind it. -/
def Trips (m : Memory Byte) (encode : Memory Byte → Place → Nat → Except Error Sent)
    (decode : Element → Decoder (Nat × List Byte)) (e : Place) (dstBytes : Nat) (sent : Sent) :
        Prop :=
  ∃ W, (∀ rest, e.optionalOffset = -1 ∨ rest = [] →
      Restores m ∅ W (sent.at_, rest) (decode (e.element (sent.bytes ++ rest)))) ∧
    ∀ m', Like W m m' → encode m' e dstBytes = .ok sent

section Trips

variable {tables : Nat → TypeTable} {m : Memory Byte} {size fuel : Nat}
  {encode : Memory Byte → Place → Nat → Except Error Sent}
  {decode : Element → Decoder (Nat × List Byte)}
  {suits : Place → Prop} {optionalOffset validFlag : Int}

/-- Each element inside of an aggregate type makes its trip. -/
def InnerTrips (m : Memory Byte) (encode : Memory Byte → Place → Nat → Except Error Sent)
    (decode : Element → Decoder (Nat × List Byte)) (suits : Place → Prop) : Prop :=
  ∀ e dstBytes sent, encode m e dstBytes = .ok sent → suits e →
    sent.at_ = nextElement e.stream e.at_ ∧ Trips m encode decode e dstBytes sent

/-- The elements of an aggregate type. -/
theorem struct_trips (inner : InnerTrips m encode decode suits) {src : Int} {stream : Stream}
    {table at_ dstBytes : Nat}
    {sent : List Byte × Nat}
    (accepted : encodeStruct (encode m) src stream table fuel at_ dstBytes = .ok sent)
    (fits : SuitsStruct suits src stream table fuel at_) :
    ∃ W, (∀ rest, Restores m ∅ W rest
        (structLoop decode optionalOffset validFlag src stream table fuel at_ (sent.1 ++ rest))) ∧
      ∀ m', Like W m m' → encodeStruct (encode m') src stream table fuel at_ dstBytes =
          .ok sent := by
  induction fuel generalizing at_ dstBytes sent with
  | zero => cases accepted
  | succ fuel ih =>
    obtain ⟨first, takes, accepted⟩ := except_bind_eq_ok.mp accepted
    obtain ⟨next, V, restores, likes⟩ := inner _ _ _ takes fits.1
    have nested (rest : List Byte) := restores rest (.inl rfl)
    change first.at_ = nextElement stream at_ at next
    by_cases ends : stream first.at_ = 0x20
    · rw [if_pos ends] at accepted
      cases accepted
      refine ⟨V, fun rest => ?_, fun m' like => ?_⟩
      · have returns (s : State) (valid : s.rangeErrorIgnore = false) :
            Restores m (∅ ∪ V) ∅ rest (do
            when (s.rangeErrorIgnore ∧ 0 < optionalOffset) (store validFlag [0])
            if stream first.at_ = 0x20 then return rest
            else structLoop decode optionalOffset validFlag src stream table fuel first.at_ rest) :=
              by
          refine Restores.when_not (fun set => Bool.false_ne_true (valid.symm.trans set.1)) ?_
          rw [if_pos ends]
          exact Restores.pure rest
        refine Restores.of_eq ((nested rest).bind ?_) (Set.union_empty V)
        exact Restores.get returns
      · rw [encodeStruct, likes m' like]
        change (if stream first.at_ = 0x20 then _ else _) = _
        rw [if_pos ends]
        rfl
    · rw [if_neg ends] at accepted
      obtain ⟨later, continues, accepted⟩ := except_bind_eq_ok.mp accepted
      cases accepted
      rw [next] at continues
      obtain ⟨W, restoresRest, likesRest⟩ := ih continues (fits.2 (next ▸ ends))
      refine ⟨V ∪ W, fun rest => ?_, fun m' like => ?_⟩
      · rw [List.append_assoc]
        have goesOn (s : State) (valid : s.rangeErrorIgnore = false) : Restores m (∅ ∪ V) W rest (do
            when (s.rangeErrorIgnore ∧ 0 < optionalOffset) (store validFlag [0])
            if stream first.at_ = 0x20 then return (later.1 ++ rest)
            else structLoop decode optionalOffset validFlag src stream table fuel first.at_
                  (later.1 ++ rest)) := by
          refine Restores.when_not (fun set => Bool.false_ne_true (valid.symm.trans set.1)) ?_
          rw [if_neg ends, next]
          exact (restoresRest rest).any
        refine (nested _).bind ?_
        exact Restores.get goesOn
      · rw [encodeStruct, likes m' like.left]
        change (if stream first.at_ = 0x20 then _ else _) = _
        rw [if_neg ends, next, likesRest m' like.right]
        rfl

/-- The items of an aggregate type. -/
theorem structs_trip (inner : InnerTrips m encode decode suits) {dst : Int} {entry : TypeEntry}
    {table : Nat} (list : List Nat) {before sent : List Byte × Nat}
    (accepted : list.foldlM (fun sent (i : Nat) => do
      let next ← encodeStruct (encode m) (dst + (i : Nat) * entry.structSize) entry.encodedTypeData
        table fuel 0 sent.2
      return (sent.1 ++ next.1, next.2)) before = .ok sent)
    (fits : ∀ i ∈ list, SuitsStruct suits (dst + (i : Nat) * entry.structSize) entry.encodedTypeData
        table fuel 0) :
    ∃ bytes W, sent.1 = before.1 ++ bytes ∧
      (∀ rest, Restores m ∅ W rest (list.foldlM (fun wire (i : Nat) =>
        structLoop decode optionalOffset validFlag (dst + (i : Nat) * entry.structSize)
          entry.encodedTypeData table fuel
          0 wire) (bytes ++ rest))) ∧
      ∀ m', Like W m m' → list.foldlM (fun sent (i : Nat) => do
        let next ←
          encodeStruct (encode m') (dst + (i : Nat) * entry.structSize) entry.encodedTypeData table
          fuel 0 sent.2
        return (sent.1 ++ next.1, next.2)) before = Except.ok sent := by
  induction list generalizing before with
  | nil =>
    cases accepted
    exact ⟨[], ∅, (List.append_nil _).symm, fun rest => Restores.pure rest, fun m' _ => rfl⟩
  | cons i list ih =>
    rw [List.forall_mem_cons] at fits
    rw [List.foldlM_cons] at accepted
    obtain ⟨mid, starts, accepted⟩ := except_bind_eq_ok.mp accepted
    obtain ⟨next, takes, made⟩ := except_bind_eq_ok.mp starts
    cases made
    obtain ⟨V, restores, likes⟩ := struct_trips inner takes fits.1
    obtain ⟨bytes, W, sentEq, restoresRest, likesRest⟩ := ih accepted fits.2
    refine ⟨next.1 ++ bytes, V ∪ W, ?_, fun rest => ?_, fun m' like => ?_⟩
    · rw [sentEq, List.append_assoc]
    · rw [List.foldlM_cons, List.append_assoc]
      exact (restores _).bind (restoresRest rest).any
    · rw [List.foldlM_cons, likes m' like.left]
      exact likesRest m' like.right

/-- The items of a value that is no string. -/
theorem switch_trips (wire : List Byte) (inner : InnerTrips m encode decode suits) {e : Place}
    {flags : Flags} {range : Range} {dst : Int} {length at_ dstBytes : Nat} {sent : List Byte × Nat}
    (ordinary : Ordinary flags) (notString : flags.type ≠ string)
    (fits : SwitchSuits m size flags range dst length
      (InnerSuits tables suits fuel e dst length at_))
    (accepted : encodeSwitch tables m (encode m) fuel e flags range dst length at_ dstBytes =
        .ok sent) :
    ∃ W, (∀ rest, Restores m ∅ W rest
      (decodeSwitch tables size decode fuel (e.element wire) flags range dst length at_
        (sent.1 ++ rest))) ∧
      ∀ m', Like W m m' →
        encodeSwitch tables m' (encode m') fuel e flags range dst length at_ dstBytes =
            .ok sent := by
  unfold encodeSwitch at accepted ⊢
  unfold decodeSwitch
  by_cases generic : flags.type.toNat < 4
  · simp only [if_pos generic] at accepted ⊢
    rw [encodeGeneric_ok accepted]
    exact ⟨_, restores_generic (fits.generic generic) ordinary.notUtf16,
      fun m' like => (encodeGeneric_like like).trans accepted⟩
  simp only [if_neg generic] at accepted ⊢
  by_cases oneByte : flags.type = oneByteEnum
  · simp only [if_pos oneByte] at accepted ⊢
    rw [encodeEnum_ok accepted]
    exact ⟨_, restores_enum (fits.oneByte oneByte), fun m' like =>
      (encodeEnum_like (by decide) like).trans accepted⟩
  simp only [if_neg oneByte] at accepted ⊢
  by_cases twoByte : flags.type = twoByteEnum
  · simp only [if_pos twoByte] at accepted ⊢
    rw [encodeEnum_ok accepted]
    exact ⟨_, restores_enum (fits.twoByte twoByte), fun m' like =>
      (encodeEnum_like (by decide) like).trans accepted⟩
  simp only [if_neg twoByte, if_neg notString, encodeAggregate, decodeAggregate] at accepted ⊢
  obtain ⟨bytes, W, sentEq, restores, likes⟩ := structs_trip inner _ accepted
    (fits.nested generic oneByte twoByte notString)
  rw [sentEq]
  exact ⟨W, restores, likes⟩

/-- The range index, the items and the aggregate type. -/
theorem restores_value {P W : Set Int} {e : Element} {flags : Flags} {dst : Int} {length at_ : Nat}
    {wire rest : List Byte}
    (restores : Restores m P W rest (decodeSwitch tables size decode fuel e flags
      ((tables e.table).ranges (get16 e.stream at_ + get16 e.stream (at_ + 2) * 65536)) dst length
      (at_ + bytes (flags.has rangeChecked) 4) wire)) :
    Restores m P W (at_ + bytes (flags.has rangeChecked) 4 + bytes (flags.type == aggregate) 2,
      rest)
      (decodeValue tables size decode fuel e flags dst length at_ wire) := by
  unfold decodeValue
  refine Restores.of_eq (restores.bind ?_) (Set.union_empty W)
  exact Restores.pure _

/-- What `encodeItems` sends for an array with a length, and what it depends on. -/
theorem encodeItems_ok {e : Place} {flags : Flags} {dst : Int} {length at_ dstBytes : Nat}
    {sent : Sent} (ordinary : Ordinary flags)
    (accepted : encodeItems tables m (encode m) fuel e flags dst length at_ dstBytes = .ok sent) :
    sent.at_ = at_ + bytes (flags.has rangeChecked) 4 + bytes (flags.type == aggregate) 2 ∧
      ∃ room items, encodeSwitch tables m (encode m) fuel e flags
          ((tables e.table).ranges (get16 e.stream at_ + get16 e.stream (at_ + 2) * 65536)) dst
          length
          (at_ + bytes (flags.has rangeChecked) 4) room = .ok items ∧
        sent.bytes = (if flags.has isVariableLen then lengthBytes flags length else []) ++ items.1 ∧
        ∀ m', encodeSwitch tables m' (encode m') fuel e flags
            ((tables e.table).ranges (get16 e.stream at_ + get16 e.stream (at_ + 2) * 65536)) dst
            length
            (at_ + bytes (flags.has rangeChecked) 4) room = .ok items →
          encodeItems tables m' (encode m') fuel e flags dst length at_ dstBytes = .ok sent := by
  unfold encodeItems at accepted ⊢
  rw [ordinary.sendsLength_eq] at accepted ⊢
  cases isVariable : flags.has isVariableLen with
  | true =>
    simp only [isVariable, if_true] at accepted ⊢
    obtain ⟨lengthSent, sends, accepted⟩ := except_bind_eq_ok.mp accepted
    simp only [ordinary.notLengthOnly, Bool.false_eq_true, if_false] at accepted ⊢
    obtain ⟨items, takes, made⟩ := except_bind_eq_ok.mp accepted
    cases made
    refine ⟨rfl, lengthSent.2, items, takes, ?_, fun m' same => ?_⟩
    · rw [(sendLength_ok sends).1]
    · rw [sends]
      change (encodeSwitch tables m' (encode m') fuel e flags _ dst length _ lengthSent.2 >>= _) = _
      rw [same]
      rfl
  | false =>
    simp only [isVariable, Bool.false_eq_true, if_false] at accepted ⊢
    obtain ⟨items, takes, made⟩ := except_bind_eq_ok.mp accepted
    cases made
    refine ⟨rfl, dstBytes, items, takes, rfl, fun m' same => ?_⟩
    rw [same]
    rfl

theorem Restores.load32 {P W : Set Int} {β : Type} {b : β} {address : Int}
    {rest : BitVec 32 → Decoder β} (each : ∀ value, Restores m P W b (rest value)) :
        Restores m P W b (Decode.load32 address >>= rest) :=
  fun s valid before => each _ s valid before

/-- An array of variable length, whose length is stored first, but for a string. -/
theorem restores_variable {V W : Set Int} {e : Element} {flags : Flags} {dst : Int}
    {n max at_ : Nat} {a : Nat × List Byte} (wire : List Byte) (ordinary : Ordinary flags)
    (reads : ∀ stored, wireLength flags e.optionalOffset e.wire stored = some (n, wire))
    (short : n ≤ max)
        (stores : Restores m ∅ V () (when (flags.type ≠ string ∧ !flags.has utf16String) do
      bufRange size (dst - (e.stream at_).toNat) 4
      store (dst - (e.stream at_).toNat) (leBytes 4 n)))
    (value : Restores m ∅ W a (decodeValue tables size decode fuel e flags dst n
      (at_ + bytes (flags.type != string && !flags.has utf16String) 1) wire)) :
    Restores m ∅ (V ∪ W) a (decodeVariable tables size decode fuel e flags dst max at_) := by
  unfold decodeVariable
  refine Restores.load32 fun stored => ?_
  simp only [reads]
  refine stores.bind (Restores.check short ?_)
  rw [ordinary.notLengthOnly]
  exact value.any

/-- What `encodeString` sends, and what it depends on. -/
theorem encodeString_ok {e : Place} {flags : Flags} {dst : Int} {length at_ dstBytes : Nat}
    {sent : Sent} (ordinary : Ordinary flags)
    (accepted : encodeString m e flags dst length at_ dstBytes = .ok sent) :
    sent.at_ = at_ + bytes (flags.has rangeChecked) 4 ∧
      sent.bytes = (if e.optionalOffset = -1 then lengthBytes flags length else []) ++
      m.read dst length ∧
      ∀ m' : Memory Byte, m'.read dst length = m.read dst length →
        encodeString m' e flags dst length at_ dstBytes = .ok sent := by
  unfold encodeString at accepted ⊢
  simp only [ordinary.notDataOnly, ordinary.notLengthOnly, Bool.not_false, and_true,
    Bool.false_eq_true, if_false]
    at accepted ⊢
  by_cases nested : e.optionalOffset = -1
  · simp only [if_pos nested] at accepted ⊢
    obtain ⟨lengthSent, sends, accepted⟩ := except_bind_eq_ok.mp accepted
    obtain ⟨room, made⟩ := ensure_bind_eq_ok.mp accepted
    cases made
    refine ⟨rfl, ?_, fun m' same => ?_⟩
    · rw [(sendLength_ok sends).1]
    · rw [sends]
      change (ensure (length ≤ lengthSent.2) .lengthInconsistency >>= _) = _
      rw [ensure, if_pos room, ← same]
      rfl
  · simp only [if_neg nested] at accepted ⊢
    obtain ⟨room, made⟩ := ensure_bind_eq_ok.mp accepted
    cases made
    refine ⟨rfl, rfl, fun m' same => ?_⟩
    rw [ensure, if_pos room, ← same]
    rfl

/-- The trip of a value that is there, whose element begins after its offset at `at_`. -/
def ValueTrips (tables : Nat → TypeTable) (m : Memory Byte) (size fuel : Nat)
    (encode : Memory Byte → Place → Nat → Except Error Sent)
    (decode : Element → Decoder (Nat × List Byte)) (e : Place) (flags : Flags) (dst : Int)
    (at_ dstBytes : Nat) (sent : Sent) : Prop :=
  ∃ W, (∀ rest, e.optionalOffset = -1 ∨ rest = [] → Restores m ∅ W (sent.at_, rest)
      (decodeArray tables size decode fuel (e.element (sent.bytes ++ rest)) flags dst at_)) ∧
    ∀ m', Like W m m' → encodeValue tables m' (encode m') fuel e flags dst at_ dstBytes = .ok sent

theorem bytes_false (n : Nat) : bytes false n = 0 := rfl

/-- A string. At the top level it goes up to the end. -/
theorem string_trips {e : Place} {flags : Flags} {dst : Int} {at_ dstBytes : Nat} {sent : Sent}
    (ordinary : Ordinary flags) (isString : flags.type = string)
    (fits : 0 ≤ dst ∧ dst + (itemCount m e.stream flags dst at_).1 ≤ size)
    (accepted : encodeValue tables m (encode m) fuel e flags dst at_ dstBytes = .ok sent) :
    sent.at_ = (itemCount m e.stream flags dst at_).2 + bytes (flags.has rangeChecked) 4 ∧
      ValueTrips tables m size fuel encode decode e flags dst at_ dstBytes sent := by
  have isArray := ordinary.wellFormed.array (.inr (.inr (.inl isString)))
  have isVariable := ordinary.stringVariable isString
  unfold ValueTrips
  unfold encodeValue at accepted ⊢
  simp only [itemCount, if_pos isString] at fits accepted ⊢
  obtain ⟨short, accepted⟩ := ensure_bind_eq_ok.mp accepted
  replace short := short (.inl isString)
  obtain ⟨next, bytesEq, likes⟩ := encodeString_ok ordinary accepted
  obtain ⟨ends, -⟩ := (strlen_eq_iff short).mp rfl
  obtain ⟨n, length⟩ : ∃ n, strlen m (get8Or16 e.stream (flags.has maxSzIs16) at_).1 dst = n :=
    ⟨_, rfl⟩
  have like_length (m' : Memory Byte) (like : Like (span dst n ∪ span (dst + n) 1) m m') :
      strlen m' (get8Or16 e.stream (flags.has maxSzIs16) at_).1 dst = n := by
    rw [strlen_like short (length ▸ like), length]
  rw [length] at fits short bytesEq likes ends
  refine ⟨next, ∅ ∪ (span dst n ∪ span (dst + n) 1), fun rest top => ?_, fun m' like => ?_⟩
  · unfold decodeArray
    simp only [isArray, isVariable, if_true]
    refine restores_variable (m.read dst n ++ rest) ordinary (fun stored => ?_) short ?_ ?_
    · by_cases nested : e.optionalOffset = -1
      · rw [Place.element, bytesEq, if_pos nested, List.append_assoc]
        exact ordinary.wireLength_eq _ short (.inl nested)
      · obtain rfl : rest = [] := top.resolve_left nested
        rw [Place.element, bytesEq, if_neg nested, List.nil_append, List.append_nil]
        unfold wireLength
        rw [if_pos ⟨nested, isString⟩, length_read]
    · rw [Writes.when, if_neg (by simp [isString])]
      exact Restores.pure ()
    · have noAggregate : (flags.type == aggregate) = false := by rw [isString]; rfl
      have noOffset : (flags.type != string && !flags.has utf16String) = false := by simp [isString]
      have ending : sent.at_ = (get8Or16 e.stream (flags.has maxSzIs16) at_).2 +
        bytes (flags.has szIs32) 2 +
          bytes (flags.has rangeChecked) 4 + bytes (flags.type == aggregate) 2 := by
        rw [next, noAggregate, bytes_false, Nat.add_zero]
      rw [noOffset, bytes_false, Nat.add_zero, ending]
      apply restores_value
      unfold decodeSwitch
      rw [isString]
      exact restores_string fits.1 fits.2 ends rest
  · have same := like_length m' like.right
    rw [same]
    change (ensure _ _ >>= _) = _
    rw [ensure, if_pos fun _ => short]
    exact likes m' (like.right.left.read (le_refl _))

/-- Any other value. -/
theorem items_trip (inner : InnerTrips m encode decode suits) {e : Place}
    {flags : Flags} {dst : Int} {at_ dstBytes : Nat} {sent : Sent} (ordinary : Ordinary flags)
    (notString : flags.type ≠ string) (count : flags.has isVariableLen = true → ∀ offset,
      offset = (e.stream ((get8Or16 e.stream (flags.has maxSzIs16) at_).2 +
        bytes (flags.has szIs32) 2)).toNat →
        0 ≤ dst - offset ∧ dst - offset + 4 ≤ size)
    (fits : ∀ count, count = itemCount m e.stream flags dst at_ → SwitchSuits m size flags
      ((tables e.table).ranges (get16 e.stream count.2 + get16 e.stream (count.2 + 2) * 65536)) dst
      count.1
      (InnerSuits tables suits fuel e dst count.1 (count.2 + bytes (flags.has rangeChecked) 4)))
    (accepted : encodeValue tables m (encode m) fuel e flags dst at_ dstBytes = .ok sent) :
    sent.at_ = (itemCount m e.stream flags dst at_).2 + bytes (flags.has rangeChecked) 4 +
        bytes (flags.type == aggregate) 2 ∧
      ValueTrips tables m size fuel encode decode e flags dst at_ dstBytes sent := by
  replace fits := fits _ rfl
  unfold ValueTrips
  unfold encodeValue at accepted ⊢
  obtain ⟨short, accepted⟩ := ensure_bind_eq_ok.mp accepted
  rw [if_neg notString] at accepted
  obtain ⟨next, room, items, takes, bytesEq, likes⟩ := encodeItems_ok ordinary accepted
  obtain ⟨W, restores, likesItems⟩ := switch_trips [] inner ordinary notString fits takes
  refine ⟨next, ?_⟩
  by_cases isVariable : flags.has isVariableLen = true
  · have isArray := ordinary.isArray_of_variable isVariable
    obtain ⟨low, high⟩ := count isVariable _ rfl
    have counted (memory : Memory Byte) :=
      ordinary.itemCount_variable memory e.stream dst at_ notString isVariable
    generalize isOffset :
      (e.stream ((get8Or16 e.stream (flags.has maxSzIs16) at_).2 +
        bytes (flags.has szIs32) 2)).toNat = offset
        at low high counted
    rw [counted] at short next takes bytesEq likes restores likesItems
    replace short := short (.inr (.inr ⟨isArray, isVariable⟩))
    refine ⟨span (dst - offset) 4 ∪ W, fun rest _ => ?_, fun m' like => ?_⟩
    · unfold decodeArray
      simp only [isArray, isVariable, if_true]
      refine restores_variable (items.1 ++ rest) ordinary (fun stored => ?_) short ?_ ?_
      · rw [Place.element, bytesEq, isVariable, if_pos rfl, List.append_assoc]
        exact ordinary.wireLength_eq _ short (.inr notString)
      · simp only [Place.element, isOffset, leBytes_word32]
        rw [Writes.when, if_pos ⟨notString, by simp [ordinary.notUtf16]⟩]
        exact Restores.bufRange low high (Restores.store _ 4)
      · have offset : (flags.type != string && !flags.has utf16String) = true := by
          simp [notString, ordinary.notUtf16]
        rw [offset, next]
        exact restores_value (restores rest)
    · have same : word32 m' (dst - offset) = word32 m (dst - offset) := like.left.word32 (le_refl _)
      rw [counted m', same]
      change (ensure _ _ >>= _) = _
      rw [ensure, if_pos fun _ => short]
      change (if flags.type = string then _ else _) = _
      rw [if_neg notString]
      exact likes m' (likesItems m' like.right)
  · rw [Bool.not_eq_true] at isVariable
    have counted (memory : Memory Byte) :=
      ordinary.itemCount_fixed memory e.stream dst at_ notString isVariable
    refine ⟨W, fun rest _ => ?_, fun m' like => ?_⟩
    · rw [bytesEq, isVariable, if_neg Bool.false_ne_true, List.nil_append, next]
      rw [counted] at restores ⊢
      unfold decodeArray
      simp only [isVariable, Bool.false_eq_true, if_false]
      cases isArray : flags.has isArray with
      | true =>
        simp only [isArray, if_true] at restores ⊢
        exact restores_value (restores rest)
      | false =>
        simp only [isArray, Bool.false_eq_true, if_false] at restores ⊢
        exact restores_value (restores rest)
    · have same : itemCount m' e.stream flags dst at_ = itemCount m e.stream flags dst at_ := by
        rw [counted, counted]
      rw [same]
      change (ensure _ _ >>= _) = _
      rw [ensure, if_pos short]
      change (if flags.type = string then _ else _) = _
      rw [if_neg notString]
      exact likes m' (likesItems m' like)

theorem value_trips (inner : InnerTrips m encode decode suits) {e : Place}
    {flags : Flags} {dst : Int} {at_ dstBytes : Nat} {sent : Sent}
    (fits : BodySuits tables m size suits fuel e flags dst at_)
    (accepted : encodeValue tables m (encode m) fuel e flags dst at_ dstBytes = .ok sent) :
    sent.at_ = (itemCount m e.stream flags dst at_).2 + bytes (flags.has rangeChecked) 4 +
        bytes (flags.type == aggregate) 2 ∧
      ValueTrips tables m size fuel encode decode e flags dst at_ dstBytes sent := by
  by_cases isString : flags.type = string
  · obtain ⟨next, trips⟩ := string_trips fits.ordinary isString
      ((fits.value _ rfl).text isString) accepted
    refine ⟨?_, trips⟩
    rw [next, isString]
    rfl
  · exact items_trip inner fits.ordinary isString (fun isVariable => fits.count isVariable isString)
      fits.value accepted

/-- What `encodeBody` makes of an element that is there. -/
theorem encodeBody_ok {e : Place} {dstBytes : Nat} {sent : Sent} {flags : Flags × Nat}
    {offset : Nat × Nat} (isFlags : readFlags e.stream e.at_ = flags)
    (isOffset : readOffset e.stream flags.1 flags.2 = offset)
    (valid : 0 < e.optionalOffset → m (e.src + offset.1 - e.optionalOffset) = 1)
    (accepted : encodeBody tables m (encode m) fuel e dstBytes = .ok sent) :
    ∃ room, encodeValue tables m (encode m) fuel e flags.1 (e.src + offset.1) offset.2 room =
    .ok sent ∧
      ∀ m' : Memory Byte, (0 < e.optionalOffset → m' (e.src + offset.1 - e.optionalOffset) = 1) →
        encodeValue tables m' (encode m') fuel e flags.1 (e.src + offset.1) offset.2 room =
        .ok sent →
          encodeBody tables m' (encode m') fuel e dstBytes = .ok sent := by
  have there (memory : Memory Byte) (set : 0 < e.optionalOffset →
      memory (e.src + offset.1 - e.optionalOffset) = 1) :
      ¬ (0 < e.optionalOffset ∧ memory (e.src + offset.1 - e.optionalOffset) = 0) := by
    rintro ⟨top, zero⟩
    rw [set top] at zero
    exact absurd zero (by decide)
  simp only [encodeBody, isFlags, isOffset] at accepted ⊢
  rw [if_neg (there m valid)] at accepted
  by_cases top : e.optionalOffset = -1
  · refine ⟨dstBytes, ?_, fun m' set same => ?_⟩
    · rwa [if_neg (not_not.mpr top)] at accepted
    · rwa [if_neg (there m' set), if_neg (not_not.mpr top)]
  · rw [if_pos top] at accepted
    obtain ⟨room, accepted⟩ := ensure_bind_eq_ok.mp accepted
    refine ⟨dstBytes - 3, accepted, fun m' set same => ?_⟩
    rw [if_neg (there m' set), if_pos top, ensure, if_pos room]
    exact same

/-- An element that is there, with its valid flag. -/
theorem body_trips (inner : InnerTrips m encode decode suits) {e : Place} {dstBytes : Nat}
    {sent : Sent} (accepted : encodeBody tables m (encode m) fuel e dstBytes = .ok sent)
    (fits : BodySuits tables m size suits fuel e (readFlags e.stream e.at_).1
      (e.src + (readOffset e.stream (readFlags e.stream e.at_).1 (readFlags e.stream e.at_).2).1)
      (readOffset e.stream (readFlags e.stream e.at_).1 (readFlags e.stream e.at_).2).2) :
    sent.at_ = nextElement e.stream e.at_ ∧
      Trips m (fun m' => encodeBody tables m' (encode m') fuel)
      (decodeBody tables size decode fuel) e dstBytes
        sent := by
  obtain ⟨room, takes, likes⟩ := encodeBody_ok rfl rfl (fun top => (fits.flag top).2.2) accepted
  obtain ⟨next, W, restores, same⟩ := value_trips inner fits takes
  refine ⟨next.trans (fits.ordinary.nextElement_eq rfl).symm, ?_⟩
  by_cases top : 0 < e.optionalOffset
  · obtain ⟨low, high, one⟩ := fits.flag top
    obtain ⟨validFlag, isFlag⟩ : ∃ validFlag, e.src +
      (readOffset e.stream (readFlags e.stream e.at_).1 (readFlags e.stream e.at_).2).1 -
      e.optionalOffset =
        validFlag := ⟨_, rfl⟩
    rw [isFlag] at low high one likes
    refine ⟨span validFlag 1 ∪ W, fun rest end_ => ?_, fun m' like => ?_⟩
    · have flag : [1] = m.read validFlag 1 := by simp [Memory.read, one]
      unfold decodeBody
      rw [if_pos (show 0 < (e.element (sent.bytes ++ rest)).optionalOffset from top)]
      simp only [Place.element, isFlag, flag] at restores ⊢
      refine Restores.bufRange low (by simpa using high) ?_
      exact (Restores.store _ 1).bind (restores rest end_).any
    · exact likes m' (fun _ => (like.left _ ⟨le_refl _, by simp⟩).trans one) (same m' like.right)
  · refine ⟨W, fun rest end_ => ?_, fun m' like => ?_⟩
    · unfold decodeBody
      rw [if_neg (show ¬ 0 < (e.element (sent.bytes ++ rest)).optionalOffset from top)]
      exact restores rest end_
    · exact likes m' (fun set => absurd set top) (same m' like)

/-- **An element is decoded as it was encoded**, and what was decoded is encoded in the same way
again. -/
theorem element_trips (fuel : Nat) :
    InnerTrips m (fun m' => encodeElement tables m' fuel) (decodeElement tables size fuel)
      (Suits tables m size fuel) := by
  induction fuel with
  | zero =>
    intro e dstBytes sent accepted
    cases accepted
  | succ fuel ih =>
    intro e dstBytes sent accepted fits
    exact body_trips ih accepted fits

end Trips

end Qsdk.Qmi.Decode
