/-
**What QMI messages are accepted.**

A message that is decoded without an error consists of TLVs, each at most once if it is known, with
every mandatory one among them unless the result is an error (`messageDecodeV6_accepts`). A TLV that
is not known and not mandatory may stand anywhere and makes no difference (`messageDecodeV6_skips`).
-/

import Qsdk.Qmi.Bounds

namespace Qsdk.Qmi.Decode

open Writes

/-! ### TLVs on the wire -/

/-- A TLV on the wire. -/
def tlvBytes (tlv : Byte × List Byte) : List Byte := tlv.1 :: (leBytes 2 tlv.2.length ++ tlv.2)

def tlvsBytes (tlvs : List (Byte × List Byte)) : List Byte := tlvs.flatMap tlvBytes

theorem leBytes_two (low high : Byte) : leBytes 2 (low.toNat + high.toNat * 256) = [low, high] := by
  have lowBound := low.isLt
  have second : (low.toNat + high.toNat * 256) / 256 = high.toNat := by omega
  have first : BitVec.ofNat 8 (low.toNat + high.toNat * 256) = low := by
    apply BitVec.eq_of_toNat_eq
    rw [BitVec.toNat_ofNat]
    omega
  simp [leBytes, List.range_succ, first, second]

/-- A length of 16 bits is read as it was written. -/
theorem leBytes_two_eq {n : Nat} (short : n < 65536) :
    ∃ low high : Byte, leBytes 2 n = [low, high] ∧ low.toNat + high.toNat * 256 = n := by
  refine ⟨BitVec.ofNat 8 n, BitVec.ofNat 8 (n / 256), by simp [leBytes, List.range_succ], ?_⟩
  rw [BitVec.toNat_ofNat, BitVec.toNat_ofNat]
  omega

/-- What is split off is a TLV. -/
theorem splitTlv_eq {src value rest : List Byte} {msgType : Byte}
    (split : splitTlv src = some (msgType, value, rest)) :
    src = tlvBytes (msgType, value) ++ rest ∧ value.length < 65536 := by
  unfold splitTlv at split
  split at split
  · rename_i low high tail
    simp only [Option.ite_none_left_eq_some, Option.some.injEq, Prod.mk.injEq, not_lt] at split
    obtain ⟨enough, rfl, rfl, rfl⟩ := split
    have lowBound := low.isLt
    have highBound := high.isLt
    have length : (tail.take (low.toNat + high.toNat * 256)).length =
        low.toNat + high.toNat * 256 := by
      rw [List.length_take]
      omega
    constructor
    · rw [tlvBytes, length, leBytes_two]
      simp
    · rw [length]
      omega
  · cases split

/-- A TLV is split off whole. -/
theorem splitTlv_tlvBytes {tlv : Byte × List Byte} (short : tlv.2.length < 65536)
    (rest : List Byte) :
    splitTlv (tlvBytes tlv ++ rest) = some (tlv.1, tlv.2, rest) := by
  obtain ⟨low, high, sent, received⟩ := leBytes_two_eq short
  rw [tlvBytes, sent]
  change (if (tlv.2 ++ rest).length < low.toNat + high.toNat * 256 then none
    else some (tlv.1, (tlv.2 ++ rest).take (low.toNat + high.toNat * 256),
      (tlv.2 ++ rest).drop (low.toNat + high.toNat * 256))) = _
  rw [received, if_neg (by rw [List.length_append]; omega), List.take_left, List.drop_left]

/-! ### The loop over the TLVs -/

namespace Message

variable (message : Message)

/-- The message has a TLV of this type. -/
def knows (msgType : Byte) : Bool := (message.find msgType).toOption.join.isSome

/-- The types of the known TLVs. -/
def knownTypes (tlvs : List (Byte × List Byte)) : List Byte :=
    (tlvs.map Prod.fst).filter message.knows

/-- The result of a response says that there was an error: its value starts with something else than
zero, or it has no value and what comes next is taken for it. -/
def ReportsError (tlvs : List (Byte × List Byte)) : Prop :=
  message.response = true ∧ ∃ value, (2, value) ∈ tlvs ∧ value.head? ≠ some 0

variable {message} {s after : State} {progress next : Progress} {src : List Byte}

/-- What is taken from one TLV. -/
theorem decodeTlv_ok {msgType : Byte} {value rest : List Byte}
    (accepted : (message.decodeTlv msgType value rest progress).on s = (.ok next, after)) :
    (message.knows msgType = true ∧ progress.found msgType = false ∧
      next.found = Function.update progress.found msgType true ∧
      (next.respError ≠ 0 → progress.respError ≠ 0 ∨
        message.response = true ∧ msgType = 2 ∧ value.head? ≠ some 0)) ∨
    (message.knows msgType = false ∧ 0x10 ≤ msgType ∧ next = progress) := by
  rw [decodeTlv, on_bind, on_given] at accepted
  cases found : message.find msgType with
  | error e => simp [found] at accepted
  | ok tlv =>
    simp only [found] at accepted
    cases tlv with
    | none =>
      right
      obtain ⟨_, mid, tested, returned⟩ := (on_bind_eq_ok s).mp accepted
      simp only [on_pure, Prod.mk.injEq, Except.ok.injEq] at returned
      exact ⟨by simp [knows, found, Except.toOption], ((on_check_eq_ok s).mp tested).1,
        returned.1.symm⟩
    | some tlv =>
      left
      obtain ⟨_, mid, tested, accepted⟩ := (on_bind_eq_ok s).mp accepted
      obtain ⟨left, mid, -, accepted⟩ := (on_bind_eq_ok _).mp accepted
      obtain ⟨_, mid, -, returned⟩ := (on_bind_eq_ok _).mp accepted
      simp only [on_pure, Prod.mk.injEq, Except.ok.injEq] at returned
      obtain ⟨rfl, -⟩ := returned
      refine ⟨by simp [knows, found, Except.toOption], ((on_check_eq_ok s).mp tested).1, rfl,
        fun isError => ?_⟩
      by_cases result : message.response = true ∧ msgType = 2
      · refine .inr ⟨result.1, result.2, fun zero => isError ?_⟩
        obtain ⟨tail, rfl⟩ := List.head?_eq_some_iff.mp zero
        simp [result.1, result.2]
      · refine .inl fun zero => isError ?_
        simp only [Bool.and_eq_true, beq_iff_eq, if_neg result]
        exact zero

/-- What the loop has found out about the TLVs it went through. -/
structure Gone (message : Message) (progress next : Progress) (tlvs : List (Byte × List Byte)) :
    Prop where
  short : ∀ tlv ∈ tlvs, tlv.2.length < 65536
  optional : ∀ tlv ∈ tlvs, message.knows tlv.1 = false → 0x10 ≤ tlv.1
  distinct : (message.knownTypes tlvs).Nodup
  fresh : ∀ msgType ∈ message.knownTypes tlvs, progress.found msgType = false
  found : ∀ msgType, next.found msgType = true → progress.found msgType = true ∨
    msgType ∈ message.knownTypes tlvs
  reports : next.respError ≠ 0 → progress.respError ≠ 0 ∨ message.ReportsError tlvs

theorem ReportsError.cons {tlv : Byte × List Byte} {tlvs : List (Byte × List Byte)}
    (reports : message.ReportsError tlvs) : message.ReportsError (tlv :: tlvs) := by
  obtain ⟨response, value, inside, nonzero⟩ := reports
  exact ⟨response, value, .tail _ inside, nonzero⟩

/-- One TLV more at the front. -/
theorem Gone.cons {mid : Progress} {tlv : Byte × List Byte} {tlvs : List (Byte × List Byte)}
    {rest : List Byte} (gone : Gone message mid next tlvs) (short : tlv.2.length < 65536)
    (accepted : (message.decodeTlv tlv.1 tlv.2 rest progress).on s = (.ok mid, after)) :
    Gone message progress next (tlv :: tlvs) := by
  obtain ⟨known, fresh, sets, reports⟩ | ⟨unknown, optional, rfl⟩ := decodeTlv_ok accepted
  · have types : message.knownTypes (tlv :: tlvs) = tlv.1 :: message.knownTypes tlvs := by
      simp [knownTypes, known]
    have later : ∀ msgType ∈ message.knownTypes tlvs, msgType ≠ tlv.1 ∧
        progress.found msgType = false := by
      intro msgType inside
      have notYet := gone.fresh msgType inside
      rw [sets] at notYet
      by_cases same : msgType = tlv.1
      · rw [same, Function.update_self] at notYet
        cases notYet
      · rw [Function.update_of_ne same] at notYet
        exact ⟨same, notYet⟩
    constructor
    · exact List.forall_mem_cons.mpr ⟨short, gone.short⟩
    · exact List.forall_mem_cons.mpr ⟨fun unknown => absurd (known.symm.trans unknown) (by decide),
        gone.optional⟩
    · rw [types]
      exact List.nodup_cons.mpr ⟨fun inside => (later _ inside).1 rfl, gone.distinct⟩
    · rw [types]
      exact List.forall_mem_cons.mpr ⟨fresh, fun msgType inside => (later msgType inside).2⟩
    · intro msgType isFound
      rw [types]
      obtain before | inside := gone.found msgType isFound
      · rw [sets] at before
        by_cases same : msgType = tlv.1
        · exact .inr (same ▸ .head _)
        · rw [Function.update_of_ne same] at before
          exact .inl before
      · exact .inr (.tail _ inside)
    · intro isError
      obtain before | said := gone.reports isError
      · obtain earlier | ⟨response, result, nonzero⟩ := reports before
        · exact .inl earlier
        · exact .inr ⟨response, tlv.2, result ▸ .head _, nonzero⟩
      · exact .inr said.cons
  · have types : message.knownTypes (tlv :: tlvs) = message.knownTypes tlvs := by
      simp [knownTypes, unknown]
    constructor
    · exact List.forall_mem_cons.mpr ⟨short, gone.short⟩
    · exact List.forall_mem_cons.mpr ⟨fun _ => optional, gone.optional⟩
    · rw [types]
      exact gone.distinct
    · rw [types]
      exact gone.fresh
    · rw [types]
      exact gone.found
    · exact fun isError => (gone.reports isError).imp_right ReportsError.cons

/-- What the loop goes through are TLVs. -/
theorem decodeTlvs_ok (accepted : (message.decodeTlvs src progress).on s = (.ok next, after)) :
    ∃ tlvs, src = tlvsBytes tlvs ∧ Gone message progress next tlvs := by
  induction len : src.length using Nat.strong_induction_on generalizing src progress s with
  | _ n ih =>
    rw [decodeTlvs] at accepted
    split at accepted
    · rename_i empty
      simp only [on_pure, Prod.mk.injEq, Except.ok.injEq] at accepted
      obtain ⟨rfl, -⟩ := accepted
      exact ⟨[], empty, by simp, by simp, by simp [knownTypes], by simp [knownTypes],
        fun _ => .inl, .inl⟩
    · split at accepted
      · simp at accepted
      · rename_i msgType value rest split
        obtain ⟨mid, between, first, accepted⟩ := (on_bind_eq_ok s).mp accepted
        obtain ⟨tlvs, rfl, gone⟩ := ih _ (len ▸ splitTlv_length split) accepted rfl
        obtain ⟨rfl, short⟩ := splitTlv_eq split
        exact ⟨(msgType, value) :: tlvs, rfl, gone.cons short first⟩

/-! ### Mandatory TLVs -/

/-- Where the mandatory TLVs of a message stand in its data: up to the first optional one. -/
inductive Mandatory (stream : Stream) : Nat → Prop
  | first : (readTlv stream 0).optional = false → Mandatory stream 0
  | next {at_ : Nat} : Mandatory stream at_ → (readTlv stream at_).last = false →
      (readTlv stream (nextElement stream (readTlv stream at_).element)).optional = false →
        Mandatory stream (nextElement stream (readTlv stream at_).element)

/-- The walk over the mandatory TLVs from one of them on comes to all that follow. -/
theorem decodeVerifyMandatory_step {stream : Stream} {found : Byte → Bool} {at_ : Nat}
    (mandatory : (readTlv stream at_).optional = false)
    (verified : ∃ fuel, decodeVerifyMandatory stream found fuel at_ = .ok ⟨⟩) :
    found (readTlv stream at_).msgType = true ∧ ((readTlv stream at_).last = false →
      ∃ fuel, decodeVerifyMandatory stream found fuel
          (nextElement stream (readTlv stream at_).element) = .ok ⟨⟩) := by
  obtain ⟨fuel, verified⟩ := verified
  cases fuel with
  | zero => cases verified
  | succ fuel =>
    simp only [decodeVerifyMandatory, mandatory, Bool.false_eq_true, if_false] at verified
    split at verified
    · cases verified
    · rename_i isFound
      refine ⟨by simpa using isFound, fun more => ⟨fuel, ?_⟩⟩
      rw [if_neg (by rw [more]; exact Bool.false_ne_true)] at verified
      exact verified

theorem decodeVerifyMandatory_ok {stream : Stream} {found : Byte → Bool} {fuel : Nat}
    (verified : decodeVerifyMandatory stream found fuel 0 = .ok ⟨⟩) {at_ : Nat}
    (mandatory : Mandatory stream at_) :
    found (readTlv stream at_).msgType = true := by
  suffices all : (readTlv stream at_).optional = false ∧
      ∃ fuel, decodeVerifyMandatory stream found fuel at_ = .ok ⟨⟩ from
    (decodeVerifyMandatory_step all.1 all.2).1
  induction mandatory with
  | first mandatory => exact ⟨mandatory, fuel, verified⟩
  | next _ more mandatory ih => exact ⟨mandatory, (decodeVerifyMandatory_step ih.1 ih.2).2 more⟩

/-- **An accepted message**: the lengths are those of the values, no known TLV is there twice, what
is not known is optional, and every mandatory TLV is there, unless the result says that there was an
error. -/
structure Accepted (message : Message) (tlvs : List (Byte × List Byte)) : Prop where
  short : ∀ tlv ∈ tlvs, tlv.2.length < 65536
  optional : ∀ tlv ∈ tlvs, message.knows tlv.1 = false → 0x10 ≤ tlv.1
  distinct : (message.knownTypes tlvs).Nodup
  complete : ¬ message.ReportsError tlvs → ∀ stream, message.entry.encodedTlvData = some stream →
    ∀ at_, Mandatory stream at_ → (readTlv stream at_).msgType ∈ message.knownTypes tlvs

/-- **A message that is decoded without an error is made of TLVs that may be there, and of all that
must be.** -/
theorem messageDecodeV6_accepts {dstLen : Nat}
    (accepted : (message.messageDecodeV6 dstLen src).on s = (.ok ⟨⟩, after)) :
    ∃ tlvs, src = tlvsBytes tlvs ∧ Accepted message tlvs := by
  obtain ⟨_, _, -, accepted⟩ := (on_bind_eq_ok s).mp accepted
  obtain ⟨_, _, -, accepted⟩ := (on_bind_eq_ok _).mp accepted
  obtain ⟨_, _, -, accepted⟩ := (on_bind_eq_ok _).mp accepted
  obtain ⟨progress, mid, decoded, verified⟩ := (on_bind_eq_ok _).mp accepted
  obtain ⟨tlvs, rfl, gone⟩ := decodeTlvs_ok decoded
  refine ⟨tlvs, rfl, gone.short, gone.optional, gone.distinct,
    fun noError stream data at_ mandatory => ?_⟩
  have noRespError : progress.respError = 0 := by
    by_contra isError
    exact (gone.reports isError).elim (fun start => start rfl) noError
  simp only [data, when, noRespError, if_true, on_given, Prod.mk.injEq] at verified
  have isFound := decodeVerifyMandatory_ok verified.1 mandatory
  exact (gone.found _ isFound).resolve_left Bool.false_ne_true

/-! ### Unknown TLVs -/

theorem decodeTlvs_nil : message.decodeTlvs [] progress = pure progress := by
    rw [decodeTlvs, if_pos rfl]

/-- A TLV is taken, and then what follows. -/
theorem decodeTlvs_cons {tlv : Byte × List Byte} (short : tlv.2.length < 65536) (rest : List Byte) :
    message.decodeTlvs (tlvBytes tlv ++ rest) progress =
      message.decodeTlv tlv.1 tlv.2 rest progress >>= fun progress =>
          message.decodeTlvs rest progress := by
  rw [decodeTlvs, if_neg (by simp [tlvBytes])]
  split
  · rename_i split
    rw [splitTlv_tlvBytes short] at split
    cases split
  · rename_i split
    rw [splitTlv_tlvBytes short] at split
    cases split
    rfl

/-- What follows a TLV matters only to a result without a value. -/
theorem decodeTlv_rest {tlv : Byte × List Byte}
    (value : message.response = true → tlv.1 = 2 → tlv.2 ≠ []) (rest rest' : List Byte) :
    message.decodeTlv tlv.1 tlv.2 rest progress = message.decodeTlv tlv.1 tlv.2 rest' progress := by
  have same : (if message.response && tlv.1 == 2 then (tlv.2 ++ rest ++ [message.behind]).headD 0
      else progress.respError) = if message.response && tlv.1 == 2 then
        (tlv.2 ++ rest' ++ [message.behind]).headD 0
      else progress.respError := by
    by_cases result : message.response = true ∧ tlv.1 = 2
    · obtain ⟨byte, bytes, there⟩ := List.exists_cons_of_ne_nil (value result.1 result.2)
      simp [there]
    · simp only [Bool.and_eq_true, beq_iff_eq, if_neg result]
  simp only [decodeTlv, same]

/-- An unknown TLV is passed over. -/
theorem decodeTlv_unknown {tlv : Byte × List Byte} (unknown : message.find tlv.1 = .ok none)
    (optional : 0x10 ≤ tlv.1) (rest : List Byte) : message.decodeTlv tlv.1 tlv.2 rest progress =
        pure progress := by
  simp only [decodeTlv, unknown]
  change (check (0x10 ≤ tlv.1) Error.unknownMandatoryTlv >>= fun _ => pure progress) = _
  rw [check, if_pos optional]
  rfl

/-- An unknown TLV makes no difference to the loop, wherever it is. -/
theorem decodeTlvs_skips {front : List (Byte × List Byte)} {tlv : Byte × List Byte}
    (rest : List Byte) (unknown : message.find tlv.1 = .ok none) (optional : 0x10 ≤ tlv.1)
    (short : tlv.2.length < 65536) (shorts : ∀ tlv ∈ front, tlv.2.length < 65536)
    (values : message.response = true → ∀ tlv ∈ front, tlv.1 = 2 → tlv.2 ≠ []) :
    message.decodeTlvs (tlvsBytes front ++ (tlvBytes tlv ++ rest)) progress =
      message.decodeTlvs (tlvsBytes front ++ rest) progress := by
  induction front generalizing progress with
  | nil =>
    change message.decodeTlvs (tlvBytes tlv ++ rest) progress = message.decodeTlvs rest progress
    rw [decodeTlvs_cons short, decodeTlv_unknown unknown optional, pure_bind]
  | cons first front ih =>
    rw [List.forall_mem_cons] at shorts
    change message.decodeTlvs (tlvBytes first ++ tlvsBytes front ++ _) progress =
      message.decodeTlvs (tlvBytes first ++ tlvsBytes front ++ rest) progress
    rw [List.append_assoc, List.append_assoc, decodeTlvs_cons shorts.1, decodeTlvs_cons shorts.1,
      decodeTlv_rest (fun response => values response first (.head _)) _ (tlvsBytes front ++ rest)]
    congr 1
    funext progress
    exact ih shorts.2 fun response tlv later => values response tlv (.tail _ later)

/-- **A TLV that is not known and not mandatory may stand before anything, and makes no difference**
to what is decoded, to the error, or to what is written: the sender may have a newer version of the
message. -/
theorem messageDecodeV6_skips {front : List (Byte × List Byte)} {tlv : Byte × List Byte}
    (dstLen : Nat) (rest : List Byte) (unknown : message.find tlv.1 = .ok none)
    (optional : 0x10 ≤ tlv.1) (short : tlv.2.length < 65536)
    (shorts : ∀ tlv ∈ front, tlv.2.length < 65536) (values : message.response = true →
        ∀ tlv ∈ front, tlv.1 = 2 → tlv.2 ≠ []) :
    message.messageDecodeV6 dstLen (tlvsBytes front ++ (tlvBytes tlv ++ rest)) =
      message.messageDecodeV6 dstLen (tlvsBytes front ++ rest) := by
  simp only [messageDecodeV6, decodeTlvs_skips rest unknown optional short shorts values]

theorem oneByte_skips :
    oneByte.messageDecodeV6 1 (tlvsBytes [(1, [42])] ++ (tlvBytes (0x20, [7]) ++ [])) =
      oneByte.messageDecodeV6 1 (tlvsBytes [(1, [42])] ++ []) :=
  messageDecodeV6_skips 1 [] rfl (by decide) (by decide) (by decide) fun isResponse =>
    absurd isResponse (by decide)

theorem oneByte_decoded (s : State) :
    ((oneByte.messageDecodeV6 1 (tlvBytes (1, [42]) ++ [])).on s).1 = .ok ⟨⟩ := by
  simp only [messageDecodeV6,
    decodeTlvs_cons (show ((1, [42]) : Byte × List Byte).2.length < 65536 by decide),
    decodeTlvs_nil]
  rfl

theorem oneByte_accepted : ∃ tlvs, [1, 1, 0, 42] = tlvsBytes tlvs ∧ Accepted oneByte tlvs :=
  messageDecodeV6_accepts (Prod.ext (oneByte_decoded ⟨fun _ => 0, false⟩) rfl)

end Message

end Qsdk.Qmi.Decode
