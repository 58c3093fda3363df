/-
**The values of QMI elements, encoded and decoded again.**

For each type of value: what the encoder sends is decoded to the same bytes of the C structure, if
the field is inside of it, every item passes its range check, and every enumeration fits into the
bytes that are sent.
-/

import Qsdk.Qmi.Restore

namespace Qsdk.Qmi.Decode

open Writes

section Restores

variable {m : Memory Byte} {P V W : Set Int} {α β : Type} {a : α} {b : β}

/-- A part that changes nothing when it runs. -/
theorem Restores.when {condition : Prop} [Decidable condition] {p : Decoder Unit}
    {rest : Unit → Decoder β} (runs : condition → Restores m P ∅ () p)
    (second : Restores m P W b (rest ⟨⟩)) :
    Restores m P W b (Writes.when condition p >>= rest) := by
  by_cases so : condition
  · rw [Writes.when, if_pos so]
    exact ((runs so).bind (second.of_subset Set.subset_union_left)).of_eq (Set.empty_union W)
  · exact Restores.when_not so second

/-- A range that is inside of the structure. -/
theorem Restores.bufRange {size len : Nat} {address : Int} {rest : Unit → Decoder β}
    (low : 0 ≤ address) (high : address + len ≤ size) (second : Restores m P W b (rest ⟨⟩)) :
    Restores m P W b (Decode.bufRange size address len >>= rest) :=
  Restores.check ⟨low, high⟩ second

theorem Restores.get {rest : State → Decoder β}
    (each : ∀ s : State, s.rangeErrorIgnore = false → Restores m P W b (rest s)) :
    Restores m P W b (MonadState.get >>= rest) :=
  fun s valid before => each s valid s valid before

end Restores

/-! ### Items on the wire -/

/-- Item `i` of items of the same width. -/
theorem item_flatMap {width count i : Nat} {f : Nat → List Byte}
    (widths : ∀ j, (f j).length = width) (inside : i < count) (rest : List Byte) :
        item ((List.range count).flatMap f ++ rest) width i = f i := by
  obtain ⟨more, rfl⟩ := Nat.exists_eq_add_of_lt inside
  have front : ((List.range i).flatMap f).length = i * width := by
    rw [List.length_flatMap, List.map_congr_left fun j _ => widths j]
    simp
  rw [show i + more + 1 = i + (more + 1) by omega, List.range_add, List.flatMap_append,
    List.append_assoc, item,
    List.drop_left' front, List.range_succ_eq_map, List.map_cons, List.flatMap_cons,
    List.append_assoc, add_zero,
    List.take_left' (widths i)]

theorem read_add (m : Memory Byte) (address : Int) (count more : Nat) :
    m.read address (count + more) = m.read address count ++ m.read (address + count) more := by
  rw [Memory.read, List.range_add, List.map_append, List.map_map]
  congr 1
  apply List.map_congr_left
  intro i _
  simp [add_assoc]

/-- Items that follow each other in memory. -/
theorem read_mul (m : Memory Byte) (address : Int) (count width : Nat) :
    m.read address (count * width) =
      (List.range count).flatMap fun i : Nat => m.read (address + i * width) width := by
  induction count with
  | zero => simp [Memory.read]
  | succ count ih =>
    rw [Nat.succ_mul, read_add, ih, List.range_succ, List.flatMap_append]
    simp

/-! ### Generic types -/

section Values

variable {m : Memory Byte} {P : Set Int} {size : Nat} {flags : Flags} {range : Range}
  {optionalOffset validFlag dst : Int} {length : Nat}

/-- A field for items of a generic type: inside of the structure, and every item passes its range
check. -/
structure GenericSuits (m : Memory Byte) (size : Nat) (flags : Flags) (range : Range) (dst : Int)
    (length : Nat) :
    Prop where
  low : 0 ≤ dst
  high : dst + (length * 2 ^ flags.type.toNat : Nat) ≤ size
  passes : flags.has rangeChecked = true → ∀ i < length, (range.check64 (BitVec.ofNat 64
    (ofLe (m.read (dst + i * (2 ^ flags.type.toNat : Nat)) (2 ^ flags.type.toNat))))).1 = 0

theorem restores_generic (suits : GenericSuits m size flags range dst length)
    (notUtf16 : flags.has utf16String = false) (rest : List Byte) :
    Restores m P (span dst (length * 2 ^ flags.type.toNat)) rest
      (decodeGeneric size flags range optionalOffset validFlag dst length
        (m.read dst (length * 2 ^ flags.type.toNat) ++ rest)) := by
  have sent := length_read m dst (length * 2 ^ flags.type.toNat)
  unfold decodeGeneric
  refine Restores.check (by rw [List.length_append, sent]; exact Nat.le_add_right _ _) ?_
  refine Restores.bufRange suits.low suits.high ?_
  rw [List.take_left' sent, List.drop_left' sent]
  refine ((Restores.store dst _).bind (Restores.when (fun checked => ?_)
    (Restores.when_not (by simp [notUtf16]) (Restores.pure rest)))).of_eq (Set.union_empty _)
  refine Restores.idle _ fun i inside s _ => ?_
  rw [List.mem_range] at inside
  rw [read_mul, item_flatMap (fun j => length_read m _ _) inside]
  simp only [suits.passes checked i inside]
  rfl

/-- What the encoder sends depends on the field only. -/
theorem encodeGeneric_like {m' : Memory Byte} {dstBytes : Nat}
    (like : Like (span dst (length * 2 ^ flags.type.toNat)) m m') :
    encodeGeneric m' flags range dst length dstBytes =
        encodeGeneric m flags range dst length dstBytes := by
  have all := like.read (le_refl (span dst (length * 2 ^ flags.type.toNat)))
  have first :
    (length = 0 ∨
      (range.check64 (BitVec.ofNat 64 (ofLe (m'.read dst (2 ^ flags.type.toNat))))).1 = 0) =
      (length = 0 ∨
          (range.check64 (BitVec.ofNat 64 (ofLe (m.read dst (2 ^ flags.type.toNat))))).1 = 0) := by
    cases length with
    | zero => simp
    | succ length =>
      have less : 2 ^ flags.type.toNat ≤ (length + 1) * 2 ^ flags.type.toNat :=
        Nat.le_mul_of_pos_left _ length.succ_pos
      rw [like.read fun x inside => ⟨inside.1, lt_of_lt_of_le inside.2 ?_⟩]
      exact Int.add_le_add_left (Int.ofNat_le.mpr less) dst
  simp only [encodeGeneric, all, first]

theorem encodeGeneric_ok {dstBytes : Nat} {sent : List Byte × Nat}
    (accepted : encodeGeneric m flags range dst length dstBytes = .ok sent) :
    sent.1 = m.read dst (length * 2 ^ flags.type.toNat) := by
  obtain ⟨-, accepted⟩ := ensure_bind_eq_ok.mp accepted
  obtain ⟨-, accepted⟩ := ensure_bind_eq_ok.mp accepted
  cases accepted
  rfl

/-! ### Enumerations -/

/-- A field for enumerations: inside of the structure, each with a value of `width` bytes that
passes its range check. -/
structure EnumSuits (m : Memory Byte) (size : Nat) (flags : Flags) (range : Range) (dst : Int)
    (length width : Nat) :
    Prop where
  low : 0 ≤ dst
  high : dst + (length * 4 : Nat) ≤ size
  fits : ∀ i : Nat, i < length → enumValue flags width (m.read (dst + 4 * i) width) =
    word32 m (dst + 4 * i)
  passes : flags.has rangeChecked = true → ∀ i : Nat, i < length →
    (range.check32 (word32 m (dst + 4 * i))).1 = 0

/-- The addresses of enumerations. -/
def enumSpan (dst : Int) (length : Nat) : Set Int := ⋃ i ∈ List.range length,
    span (dst + 4 * (i : Nat)) 4

theorem span_subset_enumSpan {i : Nat} (inside : i < length) :
    span (dst + 4 * i) 4 ⊆ enumSpan dst length :=
  Set.subset_biUnion_of_mem (u := fun i : Nat => span (dst + 4 * i) 4) (List.mem_range.mpr inside)

/-- What the encoder sends of enumerations. -/
def enumBytes (m : Memory Byte) (dst : Int) (length width : Nat) : List Byte :=
  (List.range length).flatMap fun i : Nat => m.read (dst + 4 * i) width

theorem length_enumBytes (m : Memory Byte) (dst : Int) (length width : Nat) :
    (enumBytes m dst length width).length = width * length := by
  rw [enumBytes, List.length_flatMap, List.map_congr_left fun j _ => length_read m _ _]
  simp [mul_comm]

theorem restores_enum {width : Nat} (suits : EnumSuits m size flags range dst length width)
    (rest : List Byte) :
    Restores m P (enumSpan dst length) rest
      (decodeEnum size flags range optionalOffset validFlag dst length
        (enumBytes m dst length width ++ rest)
        width) := by
  have sent := length_enumBytes m dst length width
  unfold decodeEnum
  refine Restores.check (by rw [List.length_append, sent]; exact Nat.le_add_right _ _) ?_
  refine Restores.bufRange suits.low suits.high ?_
  rw [List.drop_left' sent]
  refine ((Restores.forM _ fun i inside => ?_).bind (Restores.when (fun checked => ?_)
    (Restores.pure rest))).of_eq (Set.union_empty _)
  · rw [List.mem_range] at inside
    rw [enumBytes, item_flatMap (fun j => length_read m _ _) inside, suits.fits i inside,
      leBytes_word32]
    exact Restores.store _ 4
  · refine Restores.idle _ fun i inside s already => ?_
    rw [List.mem_range] at inside
    have value : word32 s.memory (dst + 4 * i) = word32 m (dst + 4 * i) := by
      rw [word32, word32]
      congr 2
      apply List.map_congr_left
      intro j short
      rw [List.mem_range] at short
      exact already _ (.inr (span_subset_enumSpan inside ⟨by omega, by omega⟩))
    rw [on_bind]
    change (answered optionalOffset validFlag
      (range.check32 (word32 s.memory (dst + 4 * i))).1 _).on s = _
    rw [value, suits.passes checked i inside]
    rfl

theorem encodeEnum_like {m' : Memory Byte} {width dstBytes : Nat} (narrow : width ≤ 4)
    (like : Like (enumSpan dst length) m m') :
    encodeEnum m' flags range dst length dstBytes width =
        encodeEnum m flags range dst length dstBytes width := by
  have each (i : Nat) (inside : i ∈ List.range length) :
      m'.read (dst + 4 * i) width = m.read (dst + 4 * i) width := by
    rw [List.mem_range] at inside
    exact (like.of_subset (span_subset_enumSpan inside)).read fun x within =>
      ⟨within.1, lt_of_lt_of_le within.2 (by omega)⟩
  have bytes : (List.range length).flatMap (fun i : Nat => m'.read (dst + 4 * i) width) =
      (List.range length).flatMap fun i : Nat => m.read (dst + 4 * i) width := by
    rw [List.flatMap_def, List.flatMap_def, List.map_congr_left each]
  have checks : (∀ i ∈ List.range length, (range.check32 (word32 m' (dst + 4 * (i : Nat)))).1 = 0) =
      ∀ i ∈ List.range length, (range.check32 (word32 m (dst + 4 * (i : Nat)))).1 = 0 := by
    apply propext
    apply forall₂_congr
    intro i inside
    rw [List.mem_range] at inside
    rw [like.word32 (span_subset_enumSpan inside)]
  simp only [encodeEnum, bytes, checks]

theorem encodeEnum_ok {width dstBytes : Nat} {sent : List Byte × Nat}
    (accepted : encodeEnum m flags range dst length dstBytes width = .ok sent) :
    sent.1 = enumBytes m dst length width := by
  obtain ⟨-, accepted⟩ := ensure_bind_eq_ok.mp accepted
  obtain ⟨-, accepted⟩ := ensure_bind_eq_ok.mp accepted
  cases accepted
  rfl

/-! ### Strings -/

/-- A string is sent without its zero. -/
theorem restores_string (low : 0 ≤ dst) (high : dst + length ≤ size) (ends : m (dst + length) = 0)
    (rest : List Byte) :
    Restores m P (span dst length ∪ span (dst + length) 1) rest
      (decodeString size dst length (m.read dst length ++ rest)) := by
  have sent := length_read m dst length
  have zero : [0] = m.read (dst + length) 1 := by simp [Memory.read, ends]
  unfold decodeString
  refine Restores.check (by rw [List.length_append, sent]; exact Nat.le_add_right _ _) ?_
  refine Restores.bufRange low high ?_
  rw [List.take_left' sent, List.drop_left' sent, zero]
  exact (Restores.store dst length).bind
    (((Restores.store _ 1).bind (Restores.pure rest)).of_eq (Set.union_empty _))

end Values

/-- `strlen` finds the first zero. -/
theorem strlen_eq_iff {m : Memory Byte} {limit n : Nat} {address : Int} (short : n ≤ limit) :
    strlen m limit address = n ↔ m (address + n) = 0 ∧ ∀ i < n, m (address + (i : Nat)) ≠ 0 := by
  have first : (List.range (limit + 1)).find? (fun i : Nat => decide (m (address + i) = 0)) =
    some n ↔
      m (address + n) = 0 ∧ ∀ i < n, m (address + (i : Nat)) ≠ 0 := by
    rw [List.find?_range_eq_some]
    simp only [decide_eq_true_eq, List.mem_range, Bool.not_eq_true', decide_eq_false_iff_not]
    exact ⟨fun found => ⟨found.1, found.2.2⟩, fun found => ⟨found.1, by omega, found.2⟩⟩
  rw [← first, strlen]
  cases (List.range (limit + 1)).find? fun i : Nat => decide (m (address + i) = 0) with
  | none =>
    rw [Option.getD_none]
    exact ⟨fun equal => by omega, fun equal => by cases equal⟩
  | some i =>
    rw [Option.getD_some, Option.some_inj]

/-- `strlen` reads up to the zero. -/
theorem strlen_like {m m' : Memory Byte} {limit : Nat} {address : Int}
    (short : strlen m limit address ≤ limit)
        (like : Like (span address (strlen m limit address) ∪ span
          (address + strlen m limit address) 1) m m') :
    strlen m' limit address = strlen m limit address := by
  obtain ⟨ends, nonzero⟩ := (strlen_eq_iff short).mp rfl
  refine (strlen_eq_iff short).mpr ⟨?_, fun i before => ?_⟩
  · rw [like.right _ ⟨le_refl _, by simp⟩]
    exact ends
  · rw [like.left _ ⟨by omega, by omega⟩]
    exact nonzero i before

end Qsdk.Qmi.Decode
