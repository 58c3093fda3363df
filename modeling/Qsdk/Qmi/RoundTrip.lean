/-
**A QMI message is decoded as it was encoded.**

The TLVs of a message stand one after the other in its data, each with a type of its own (`Fits`).
What is encoded of a C structure that suits them is decoded without an error. The structure that
comes out has the bytes of the one that was encoded, or zeros in their place, and is encoded to the
same message again (`message_round_trip`).
-/

import Qsdk.Qmi.ElementTrip
import Qsdk.Qmi.Room

namespace Qsdk.Qmi.Decode

open Writes

namespace Message

/-- The TLVs of a message from `at_` on, if the last one is found. -/
def listTlvs (stream : Stream) : (fuel at_ : Nat) → Option (List TlvData)
  | 0, _ => none
  | fuel + 1, at_ =>
    let tlv := readTlv stream at_
    if tlv.last then some [tlv]
    else (listTlvs stream fuel (nextElement stream tlv.element)).map (tlv :: ·)

theorem listTlvs_eq_some {stream : Stream} {fuel at_ : Nat} {tlvs : List TlvData}
    (chain : listTlvs stream (fuel + 1) at_ = some tlvs) :
    ∃ rest, tlvs = readTlv stream at_ :: rest ∧
      if (readTlv stream at_).last then rest = []
      else listTlvs stream fuel (nextElement stream (readTlv stream at_).element) = some rest := by
  rw [listTlvs] at chain
  change (if (readTlv stream at_).last then _ else _) = _ at chain
  by_cases last : (readTlv stream at_).last = true
  · rw [if_pos last] at chain
    cases chain
    exact ⟨[], rfl, by rw [if_pos last]⟩
  · rw [if_neg last] at chain
    obtain ⟨rest, continues, rfl⟩ := Option.map_eq_some_iff.mp chain
    exact ⟨rest, rfl, by rwa [if_neg last]⟩

/-- The first TLV of a type is found. -/
theorem decodeFindTlv_eq {stream : Stream} {fuel at_ : Nat} {tlvs : List TlvData}
    (chain : listTlvs stream fuel at_ = some tlvs) (distinct : (tlvs.map TlvData.msgType).Nodup)
    {tlv : TlvData} (inside : tlv ∈ tlvs) : decodeFindTlv stream tlv.msgType fuel at_ =
        .ok (some tlv) := by
  induction fuel generalizing at_ tlvs with
  | zero => cases chain
  | succ fuel ih =>
    obtain ⟨rest, rfl, continues⟩ := listTlvs_eq_some chain
    rw [List.map_cons, List.nodup_cons] at distinct
    rw [decodeFindTlv]
    obtain rfl | later := List.mem_cons.mp inside
    · rw [if_pos rfl]
    · have other : tlv.msgType ≠ (readTlv stream at_).msgType := fun same =>
        distinct.1 (same ▸ List.mem_map_of_mem later)
      rw [if_neg other]
      split at continues
      · rw [continues] at later
        cases later
      · rename_i more
        rw [if_neg more]
        exact ih continues distinct.2 later

/-- Nothing is missing if every mandatory TLV was found. -/
theorem decodeVerifyMandatory_eq {stream : Stream} {found : Byte → Bool} {fuel at_ : Nat}
    {tlvs : List TlvData} (chain : listTlvs stream fuel at_ = some tlvs)
    (all : ∀ tlv ∈ tlvs, tlv.optional = false → found tlv.msgType = true) :
    decodeVerifyMandatory stream found fuel at_ = .ok ⟨⟩ := by
  induction fuel generalizing at_ tlvs with
  | zero => cases chain
  | succ fuel ih =>
    obtain ⟨rest, rfl, continues⟩ := listTlvs_eq_some chain
    rw [List.forall_mem_cons] at all
    rw [decodeVerifyMandatory]
    cases optional : (readTlv stream at_).optional with
    | true => rfl
    | false =>
      rw [all.1 optional]
      split at continues
      · rename_i last
        simp [last]
      · rename_i more
        simp only [Bool.false_eq_true, if_false, Bool.not_true, if_neg more]
        exact ih continues all.2

/-! ### C structures that suit the message -/

variable {message : Message} {m : Memory Byte} {stream : Stream}

/-- A C structure suits a TLV: its field does if it is there, and else its valid flag is inside. -/
structure TlvSuits (message : Message) (m : Memory Byte) (stream : Stream) (tlv : TlvData) :
    Prop where
  ordinary : Ordinary (readFlags stream tlv.element).1
  there : ¬ Absent m (message.place stream tlv) →
    Suits message.tables m message.entry.structSize message.fuel (message.place stream tlv)
  flag : ∀ flag : Int, flag =
      (readOffset stream (readFlags stream tlv.element).1 (readFlags stream tlv.element).2).1 -
      tlv.optionalOffset →
    Absent m (message.place stream tlv) → 0 ≤ flag ∧ flag < message.entry.structSize

/-- The TLVs that are sent, with their values, and the addresses of what they bring back. -/
inductive Travels (message : Message) (m : Memory Byte) (stream : Stream) :
    List (TlvData × List Byte) → Set Int → Prop
  | nil : Travels message m stream [] ∅
  | cons {tlv : TlvData} {value : List Byte} {stop : Nat} {V W : Set Int}
      {rest : List (TlvData × List Byte)} :
      value.length < 65536 →
      Restores m ∅ V (stop, []) (decodeElement message.tables message.entry.structSize message.fuel
        ((message.place stream tlv).element value)) →
      Travels message m stream rest W → Travels message m stream ((tlv, value) :: rest) (V ∪ W)

/-- A TLV on the wire. -/
def onWire (sent : TlvData × List Byte) : Byte × List Byte := (sent.1.msgType, sent.2)

/-- Where the encoder goes on, whether the TLV is there or not. -/
theorem encodeElement_next {tlv : TlvData} {dstLen : Nat} {sent : Sent}
    (suits : TlvSuits message m stream tlv)
        (accepted : encodeElement message.tables m message.fuel (message.place stream tlv) dstLen =
          .ok sent) :
    sent.at_ = nextElement stream tlv.element := by
  by_cases absent : Absent m (message.place stream tlv)
  · cases fuel : message.fuel with
    | zero =>
      rw [fuel] at accepted
      cases accepted
    | succ fuel' =>
      rw [fuel, encodeElement, encodeBody_absent absent] at accepted
      cases accepted
      have stops := encodeAbsent_stop (header stream tlv.element).2 suits.ordinary.wellFormed
      rw [suits.ordinary.not32] at stops
      rw [Qmi.nextElement_eq suits.ordinary.wellFormed.notEnd]
      exact stops
  · exact (element_trips _ _ _ _ accepted (suits.there absent)).1

/-- What is sent of some TLVs travels: all that are there, in their order. It is sent of any C
structure with the same bytes at the addresses that are brought back, and the same TLVs absent. -/
def TlvsTrip (message : Message) (m : Memory Byte) (stream : Stream) (tlvs : List TlvData)
    (bytes : List Byte) (encodes : Memory Byte → Prop) : Prop :=
  ∃ sents W, bytes = tlvsBytes (sents.map onWire) ∧ (sents.map Prod.fst).Sublist tlvs ∧
    (∀ tlv ∈ tlvs, ¬ Absent m (message.place stream tlv) → tlv ∈ sents.map Prod.fst) ∧
    Travels message m stream sents W ∧
    ∀ m', Like W m m' →
      (∀ tlv ∈ tlvs, Absent m (message.place stream tlv) → Absent m' (message.place stream tlv)) →
      encodes m'

/-- One TLV more at the front. -/
theorem TlvsTrip.cons {tlv : TlvData} {tlvs : List TlvData} {rest : List Byte} {dstLen : Nat}
    {sent : Sent} {encodes : Memory Byte → Prop}
    (trip : TlvsTrip message m stream tlvs rest encodes) (suits : TlvSuits message m stream tlv)
    (small : dstLen < 65536)
        (accepted : encodeElement message.tables m message.fuel (message.place stream tlv) dstLen =
          .ok sent) :
    TlvsTrip message m stream (tlv :: tlvs) (wireTlv tlv.msgType dstLen sent ++ rest) fun m' =>
      encodeElement message.tables m' message.fuel (message.place stream tlv) dstLen = .ok sent ∧
          encodes m' := by
  obtain ⟨sents, W, rfl, sub, all, travels, likes⟩ := trip
  obtain ⟨bytesEq, used, -⟩ := sent_tlv accepted
  rw [bytesEq]
  by_cases absent : Absent m (message.place stream tlv)
  · rw [if_pos absent]
    refine ⟨sents, W, rfl, sub.cons tlv, ?_, travels, fun m' like same => ?_⟩
    · exact List.forall_mem_cons.mpr ⟨fun there => absurd absent there, all⟩
    · rw [List.forall_mem_cons] at same
      refine ⟨?_, likes m' like same.2⟩
      cases fuel : message.fuel with
      | zero =>
        rw [fuel] at accepted
        cases accepted
      | succ fuel' =>
        rw [fuel, encodeElement, encodeBody_absent absent] at accepted
        rw [encodeElement, encodeBody_absent (same.1 absent)]
        exact accepted
  · rw [if_neg absent]
    obtain ⟨-, V, restores, likesFirst⟩ := element_trips _ _ _ _ accepted (suits.there absent)
    have length := used absent
    have alone := restores [] (.inr rfl)
    rw [List.append_nil] at alone
    refine ⟨(tlv, sent.bytes) :: sents, V ∪ W, by simp [tlvsBytes, onWire], sub.cons_cons tlv, ?_,
      .cons (by omega) alone travels, fun m' like same => ?_⟩
    · refine List.forall_mem_cons.mpr ⟨fun _ => .head _, fun other inside there => ?_⟩
      exact .tail _ (all other inside there)
    · rw [List.forall_mem_cons] at same
      exact ⟨likesFirst m' like.left, likes m' like.right same.2⟩

theorem TlvsTrip.imp {tlvs : List TlvData} {bytes : List Byte} {encodes again : Memory Byte → Prop}
    (trip : TlvsTrip message m stream tlvs bytes encodes) (imp : ∀ m', encodes m' → again m') :
    TlvsTrip message m stream tlvs bytes again := by
  obtain ⟨sents, W, bytesEq, sub, all, travels, likes⟩ := trip
  exact ⟨sents, W, bytesEq, sub, all, travels, fun m' like same => imp m' (likes m' like same)⟩

/-- What the encoder sends travels. -/
theorem encodeTlvs_trips {fuel at_ dstLen : Nat} {bytes : List Byte} {tlvs : List TlvData}
    (chain : listTlvs stream fuel at_ = some tlvs)
    (suits : ∀ tlv ∈ tlvs, TlvSuits message m stream tlv)
    (small : dstLen < 65536) (accepted : message.encodeTlvs m stream fuel at_ dstLen = .ok bytes) :
    TlvsTrip message m stream tlvs bytes fun m' => message.encodeTlvs m' stream fuel at_ dstLen =
        .ok bytes := by
  induction fuel generalizing at_ dstLen bytes tlvs with
  | zero => cases chain
  | succ fuel ih =>
    obtain ⟨later, rfl, follows⟩ := listTlvs_eq_some chain
    rw [List.forall_mem_cons] at suits
    obtain ⟨sent, takes, room, rest, rfl, continues⟩ := encodeTlvs_succ.mp accepted
    have less := (sent_tlv takes).2.2
    have next := encodeElement_next suits.1 takes
    by_cases last : (readTlv stream at_).last = true
    · rw [if_pos last] at follows continues
      subst follows continues
      have none : TlvsTrip message m stream [] [] fun _ => True :=
        ⟨[], ∅, rfl, List.Sublist.refl _, by simp, .nil, by simp⟩
      refine (none.cons suits.1 small takes).imp fun m' encodes => ?_
      exact encodeTlvs_succ.mpr ⟨sent, encodes.1, room, [], rfl, by rw [if_pos last]⟩
    · rw [if_neg last] at follows continues
      rw [next] at continues
      have trip := ih follows suits.2 (lt_of_le_of_lt less small) continues
      refine (trip.cons suits.1 small takes).imp fun m' encodes => ?_
      exact encodeTlvs_succ.mpr ⟨sent, encodes.1, room, rest, rfl, by
        rw [if_neg last, next]; exact encodes.2⟩

/-! ### Decoding what was sent -/

/-- A TLV that was sent is taken. -/
theorem decodeTlv_restores {tlv : TlvData} {value : List Byte} {stop : Nat} {V : Set Int}
    {progress : Progress} (rest : List Byte) (data : message.entry.encodedTlvData = some stream)
    (known : message.find tlv.msgType = .ok (some tlv)) (fresh : progress.found tlv.msgType = false)
    (restores : Restores m ∅ V (stop, [])
      (decodeElement message.tables message.entry.structSize message.fuel
      ((message.place stream tlv).element value))) :
    ∃ next, Restores m ∅ V next (message.decodeTlv tlv.msgType value rest progress) ∧
      next.found = Function.update progress.found tlv.msgType true := by
  refine ⟨⟨Function.update progress.found tlv.msgType true,
      if message.response && tlv.msgType == 2 then
    (value ++ rest ++ [message.behind]).headD 0 else progress.respError⟩, ?_, rfl⟩
  simp only [decodeTlv, known, data, Option.getD_some, given, pure_bind]
  refine Restores.check fresh (Restores.of_eq (restores.bind ?_) (Set.union_empty V))
  refine Restores.check rfl ?_
  exact Restores.pure _

/-- What travels is decoded, and all of it is found. -/
theorem decodeTlvs_restores {sents : List (TlvData × List Byte)} {W : Set Int} (progress : Progress)
    (data : message.entry.encodedTlvData = some stream)
    (known : ∀ sent ∈ sents, message.find sent.1.msgType = .ok (some sent.1))
    (distinct : (sents.map fun sent => sent.1.msgType).Nodup)
    (fresh : ∀ sent ∈ sents, progress.found sent.1.msgType = false)
    (travels : Travels message m stream sents W) :
    ∃ next, Restores m ∅ W next (message.decodeTlvs (tlvsBytes (sents.map onWire)) progress) ∧
      (∀ msgType, progress.found msgType = true → next.found msgType = true) ∧
      ∀ sent ∈ sents, next.found sent.1.msgType = true := by
  induction travels generalizing progress with
  | nil =>
    refine ⟨progress, ?_, fun _ before => before, by simp⟩
    change Restores m ∅ ∅ progress (message.decodeTlvs [] progress)
    rw [decodeTlvs_nil]
    exact Restores.pure progress
  | @cons tlv value stop V W rest short restores _ ih =>
    rw [List.forall_mem_cons] at known fresh
    rw [List.map_cons, List.nodup_cons] at distinct
    obtain ⟨mid, first, found⟩ :=
      decodeTlv_restores (tlvsBytes (rest.map onWire)) data known.1 fresh.1 restores
    have later : ∀ sent ∈ rest, mid.found sent.1.msgType = false := by
      intro sent inside
      have other : sent.1.msgType ≠ tlv.msgType := fun same =>
        distinct.1 (same ▸ List.mem_map_of_mem (f := fun sent => sent.1.msgType) inside)
      rw [found, Function.update_of_ne other]
      exact fresh.2 sent inside
    obtain ⟨next, second, kept, all⟩ := ih mid known.2 distinct.2 later
    refine ⟨next, ?_, fun msgType before => kept msgType ?_,
      List.forall_mem_cons.mpr ⟨kept _ ?_, all⟩⟩
    · change Restores m ∅ (V ∪ W) next
        (message.decodeTlvs (tlvBytes (onWire (tlv, value)) ++ _) progress)
      rw [decodeTlvs_cons short]
      exact first.bind second.any
    · rw [found]
      by_cases same : msgType = tlv.msgType
      · rw [same, Function.update_self]
      · rw [Function.update_of_ne same, before]
    · rw [found, Function.update_self]

/-- The data of the message are a sequence of TLVs, each with a type of its own, and the C structure
suits them. -/
structure Fits (message : Message) (m : Memory Byte) (tlvs : List TlvData) (stream : Stream) :
    Prop where
  data : message.entry.encodedTlvData = some stream
  chain : listTlvs stream message.fuel 0 = some tlvs
  distinct : (tlvs.map TlvData.msgType).Nodup
  suits : ∀ tlv ∈ tlvs, TlvSuits message m stream tlv

theorem readTlv_mandatory {stream : Stream} {at_ : Nat}
    (mandatory : (readTlv stream at_).optional = false) :
    (readTlv stream at_).optionalOffset = 0 := by
  by_cases optional : stream at_ &&& 0x40 ≠ 0
  · rw [show readTlv stream at_ = _ from if_pos optional] at mandatory
    cases mandatory
  · rw [show readTlv stream at_ = _ from if_neg optional]

theorem listTlvs_mandatory {stream : Stream} {fuel at_ : Nat} {tlvs : List TlvData}
    (chain : listTlvs stream fuel at_ = some tlvs) :
    ∀ tlv ∈ tlvs, tlv.optional = false → tlv.optionalOffset = 0 := by
  induction fuel generalizing at_ tlvs with
  | zero => cases chain
  | succ fuel ih =>
    obtain ⟨later, rfl, follows⟩ := listTlvs_eq_some chain
    refine List.forall_mem_cons.mpr ⟨readTlv_mandatory, ?_⟩
    split at follows
    · simp [follows]
    · exact ih follows

/-- **A message is decoded as it was encoded.** What is encoded of a C structure is decoded without
an error, into a structure with the same bytes, or zeros where nothing was sent, that is encoded to
the same message again. -/
theorem message_round_trip {tlvs : List TlvData} {srcLen dstLen structLen : Nat}
    {sent : List Byte} {s : State} (fits : Fits message m tlvs stream)
    (nonempty : 0 < message.entry.structSize) (room : 0 < dstLen) (small : dstLen < 65536)
    (large : message.entry.structSize ≤ structLen)
    (encoded : message.messageEncodeV6 m srcLen dstLen = .ok sent) :
    ∃ after, (message.messageDecodeV6 structLen sent).on s = (.ok ⟨⟩, after) ∧
      (∀ x : Int, 0 ≤ x → x < message.entry.structSize → after.memory x = m x ∨
        after.memory x = 0) ∧
      message.messageEncodeV6 after.memory srcLen dstLen = .ok sent := by
  obtain ⟨source, encoded⟩ := ensure_bind_eq_ok.mp encoded
  have notNone : ¬ (message.entry.structSize = 0 ∨ dstLen = 0) := by omega
  simp only [fits.data, if_neg notNone] at encoded
  obtain ⟨sents, W, rfl, sub, all, travels, likes⟩ :=
    encodeTlvs_trips fits.chain fits.suits small encoded
  have inside : ∀ sent ∈ sents, sent.1 ∈ tlvs := fun sent there =>
    sub.subset (List.mem_map_of_mem there)
  have known : ∀ sent ∈ sents, message.find sent.1.msgType = .ok (some sent.1) := by
    intro sent there
    rw [find, fits.data]
    exact decodeFindTlv_eq fits.chain fits.distinct (inside sent there)
  have distinct : (sents.map fun sent => sent.1.msgType).Nodup := by
    have less := (sub.map TlvData.msgType).nodup fits.distinct
    rwa [List.map_map] at less
  obtain ⟨next, restores, -, found⟩ :=
    decodeTlvs_restores ⟨fun _ => false, 0⟩ fits.data known distinct
    (fun _ _ => rfl) travels
  obtain ⟨after, runs, -, sets, keeps⟩ := restores
    ⟨s.memory.write 0 (List.replicate message.entry.structSize 0), false⟩ rfl fun _ none =>
    none.elim
  have zero (x : Int) (outside : x ∉ W) (low : 0 ≤ x) (high : x < message.entry.structSize) :
      after.memory x = 0 := by
    rw [keeps x outside]
    change (if 0 ≤ x then (List.replicate message.entry.structSize (0 : Byte)).getD
      (x - 0).toNat _ else _) = 0
    rw [if_pos low, List.getD_eq_getElem?_getD, List.getElem?_replicate, if_pos (by omega),
      Option.getD_some]
  have mandatory : ∀ tlv ∈ tlvs, tlv.optional = false → next.found tlv.msgType = true := by
    intro tlv there isMandatory
    have present : ¬ Absent m (message.place stream tlv) := by
      rintro ⟨top, -⟩
      rw [place, listTlvs_mandatory fits.chain tlv there isMandatory] at top
      exact lt_irrefl _ top
    obtain ⟨sent, isSent, rfl⟩ := List.mem_map.mp (all tlv there present)
    exact found sent isSent
  refine ⟨after, ?_, fun x low high => ?_, ?_⟩
  · refine (on_bind_eq_ok s).mpr ⟨⟨⟩, s, (on_check_eq_ok s).mpr ⟨large, rfl⟩, ?_⟩
    refine (on_bind_eq_ok s).mpr ⟨⟨⟩, _, on_modify s _, (on_bind_eq_ok _).mpr ⟨⟨⟩, _, rfl, ?_⟩⟩
    refine (on_bind_eq_ok _).mpr ⟨next, after, runs, ?_⟩
    have verified := decodeVerifyMandatory_eq fits.chain mandatory
    simp only [fits.data, verified, Writes.when]
    split
    · rfl
    · rfl
  · by_cases brought : x ∈ W
    · exact .inl (sets x brought)
    · exact .inr (zero x brought low high)
  · refine ensure_bind_eq_ok.mpr ⟨source, ?_⟩
    simp only [fits.data, if_neg notNone]
    refine likes after.memory sets fun tlv there absent => ⟨absent.1, ?_⟩
    obtain ⟨low, high⟩ := (fits.suits tlv there).flag _ rfl absent
    have unset := absent.2
    change m ((0 : Int) + _ - _) = 0 at unset
    change after.memory ((0 : Int) + _ - _) = 0
    rw [zero_add] at unset ⊢
    by_cases brought :
      (readOffset stream (readFlags stream tlv.element).1 (readFlags stream tlv.element).2).1 -
      (tlv.optionalOffset : Int) ∈ W
    · exact (sets _ brought).trans unset
    · exact zero _ brought low high

/-- A mandatory byte, and an optional array of up to four bytes: the byte is at 0, the valid flag at
1, the length at 4 and the array at 8. -/
def byteAndArray : Message where
  tables := fun _ => noTypes
  table := 0
  entry := ⟨12, some fun i => [0x01, 0x00, 0, 0xC7, 0x10, 0x50, 8, 4, 4].getD i 0⟩
  response := false
  behind := 0
  fuel := 2

/-- The byte 42, and an array of three bytes. -/
def someBytes : Memory Byte := fun x => [42, 1, 0, 0, 3, 0, 0, 0, 7, 8, 9, 0].getD x.toNat 0

theorem byteAndArray_fits : Fits byteAndArray someBytes
    [⟨1, false, 0, false, 1⟩, ⟨0x10, true, 7, true, 5⟩]
    fun i => [0x01, 0x00, 0, 0xC7, 0x10, 0x50, 8, 4, 4].getD i 0 := by
  refine ⟨rfl, rfl, by decide, ?_⟩
  simp only [List.forall_mem_cons, List.not_mem_nil, false_imp_iff, implies_true, and_true]
  constructor
  · have ordinary : Ordinary 0 :=
      ⟨⟨by decide, by decide⟩, by decide, by decide, by decide, by decide, by decide, by decide⟩
    refine ⟨ordinary, fun _ =>
      ⟨ordinary, by decide, fun isVariable => absurd isVariable (by decide), ?_⟩, ?_⟩
    · rintro _ rfl
      exact .of_generic (by decide) (by decide) (by decide) (by decide)
    · rintro _ rfl
      decide
  · have ordinary : Ordinary 0x50 :=
      ⟨⟨by decide, by decide⟩, by decide, by decide, by decide, by decide, by decide, by decide⟩
    refine ⟨ordinary, fun _ => ⟨ordinary, fun _ => by decide, fun _ _ => ?_, ?_⟩, ?_⟩
    · rintro _ rfl
      decide
    · rintro _ rfl
      exact .of_generic (by decide) (by decide) (by decide) (by decide)
    · rintro _ rfl
      decide

theorem byteAndArray_round_trip :
    ∃ after, (byteAndArray.messageDecodeV6 12 [1, 1, 0, 42, 0x10, 4, 0, 3, 7, 8, 9]).on
    ⟨fun _ => 0xFF, false⟩ =
        (.ok ⟨⟩, after) ∧
      (∀ x : Int, 0 ≤ x → x < (12 : Nat) → after.memory x = someBytes x ∨ after.memory x = 0) ∧
      byteAndArray.messageEncodeV6 after.memory 12 64 = .ok [1, 1, 0, 42, 0x10, 4, 0, 3, 7, 8, 9] :=
  message_round_trip byteAndArray_fits (by decide) (by decide) (by decide) (le_refl _) rfl

end Message

end Qsdk.Qmi.Decode
