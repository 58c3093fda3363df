/-
**LACPDUs as bytes.**

A port sends 124 bytes: an Ethernet header, and a `struct lacpdu` with the information of the actor
and of the partner, in network order. What is read from them is what was written
(`getPortInfo_setPortInfo`, `read_pkt`), and writing what was read changes nothing
(`setPortInfo_getPortInfo`).
-/

import Qsdk.Lacp.Machines
import Qsdk.Lib.Splice

namespace Qsdk.Lacpd

open Splice (splice)

abbrev Byte := BitVec 8

/-! ### The state of a port in a byte -/

namespace InfoState

/-- The bits `LACPDU_STATE_*`. -/
def toByte (state : InfoState) : Byte :=
  (if state.activity then 1 <<< 0 else 0) ||| (if state.timeout then 1 <<< 1 else 0) |||
    (if state.aggregation then 1 <<< 2 else 0) |||
    (if state.synchronization then 1 <<< 3 else 0) |||
    (if state.collecting then 1 <<< 4 else 0) ||| (if state.distributing then 1 <<< 5 else 0) |||
    (if state.defaulted then 1 <<< 6 else 0) ||| (if state.expired then 1 <<< 7 else 0)

def ofByte (byte : Byte) : InfoState where
  activity := byte &&& 1 <<< 0 != 0
  timeout := byte &&& 1 <<< 1 != 0
  aggregation := byte &&& 1 <<< 2 != 0
  synchronization := byte &&& 1 <<< 3 != 0
  collecting := byte &&& 1 <<< 4 != 0
  distributing := byte &&& 1 <<< 5 != 0
  defaulted := byte &&& 1 <<< 6 != 0
  expired := byte &&& 1 <<< 7 != 0

theorem ofByte_toByte (state : InfoState) : ofByte state.toByte = state := by
  obtain ⟨activity, timeout, aggregation, synchronization, collecting, distributing, defaulted,
    expired⟩ := state
  revert activity timeout aggregation synchronization collecting distributing defaulted expired
  decide

/-- Writing the state that is there changes nothing. -/
theorem or_toByte_ofByte (byte : Byte) : byte ||| (ofByte byte).toByte = byte := by
  revert byte
  decide

end InfoState

/-! ### Port information -/

/-- The bytes of a MAC address. -/
def macBytes (mac : BitVec 48) : List Byte :=
  [mac.extractLsb' 40 8, mac.extractLsb' 32 8, mac.extractLsb' 24 8, mac.extractLsb' 16 8,
    mac.extractLsb' 8 8,
    mac.extractLsb' 0 8]

/-- `htons`. -/
def htons (word : BitVec 16) : List Byte := [word.extractLsb' 8 8, word.extractLsb' 0 8]

/-- The bytes from `system_priority` to `state`. -/
def infoBytes (info : PortInfo) (state : Byte) : List Byte :=
  htons info.systemPriority ++
    (macBytes info.system ++ (htons info.key ++ (htons info.portPriority ++
    (htons info.port ++ [state ||| info.state.toByte]))))

def byteAt (pkt : List Byte) (pos : Nat) : Byte := pkt[pos]?.getD 0

/-- Where the `struct lacpdu_port_info` of the actor and of the partner begin in a
`struct lacp_pkt`. -/
def infoPos (isActor : Bool) : Nat := if isActor then 16 else 36

/-- `lacpdu_set_port_info`. -/
def setPortInfo (info : PortInfo) (pkt : List Byte) (isActor : Bool) : List Byte :=
  splice pkt (infoPos isActor + 2) 15 (infoBytes info (byteAt pkt (infoPos isActor + 16)))

/-- `lacpdu_get_port_info`, from the bytes of a `struct lacpdu_port_info`. -/
def infoOf (bytes : Nat → Byte) : PortInfo where
  systemPriority := bytes 2 ++ bytes 3
  system := bytes 4 ++ (bytes 5 ++ (bytes 6 ++ (bytes 7 ++ (bytes 8 ++ bytes 9))))
  key := bytes 10 ++ bytes 11
  portPriority := bytes 12 ++ bytes 13
  port := bytes 14 ++ bytes 15
  state := .ofByte (bytes 16)

/-- `lacpdu_get_port_info`. -/
def getPortInfo (pkt : List Byte) (isActor : Bool) : PortInfo :=
    infoOf fun i => byteAt pkt (infoPos isActor + i)

/-- `lacpdu_init`. -/
def lacpduInit : List Byte :=
  [0x01, 0x80, 0xc2, 0x00, 0x00, 0x02] ++ List.replicate 6 0 ++ [0x88, 0x09] ++ [1, 1] ++
    ([1, 20] ++ List.replicate 18 0) ++ ([2, 20] ++ List.replicate 18 0) ++
    ([3, 16] ++ List.replicate 14 0) ++
    ([0, 0] ++ List.replicate 50 0)

/-- The packet of `lacpd_fsm_transmit_act_send_lacpdu`. -/
def Port.pkt (port : Port) (mac : BitVec 48) : List Byte :=
  setPortInfo port.partnerPortInfo
    (setPortInfo port.actorPortInfo (splice lacpduInit 6 6 (macBytes mac)) true) false

/-- The LACPDU in a packet, as `lacpdu_validate` and `lacpdu_get_port_info` read it. -/
def readLacpdu (pkt : List Byte) : Lacpdu where
  subtype := byteAt pkt 14
  versionNumber := byteAt pkt 15
  actorType := byteAt pkt 16
  actorLength := byteAt pkt 17
  actor := getPortInfo pkt true
  partnerType := byteAt pkt 36
  partnerLength := byteAt pkt 37
  partner := getPortInfo pkt false

/-! ### What is read is what was written -/

variable {pkt : List Byte} {info : PortInfo} {isActor : Bool}

theorem length_infoBytes (info : PortInfo) (state : Byte) : (infoBytes info state).length = 15 :=
    rfl

theorem word_bytes (word : BitVec 16) : word.extractLsb' 8 8 ++ word.extractLsb' 0 8 = word :=
  BitVec.extractLsb'_append_extractLsb'

theorem mac_bytes (mac : BitVec 48) : mac.extractLsb' 40 8 ++
    (mac.extractLsb' 32 8 ++ (mac.extractLsb' 24 8 ++
    (mac.extractLsb' 16 8 ++ (mac.extractLsb' 8 8 ++ mac.extractLsb' 0 8)))) = mac := by
  have join (len : Nat) : mac.extractLsb' len 8 ++ mac.extractLsb' 0 len =
      mac.extractLsb' 0 (8 + len) :=
    BitVec.extractLsb'_append_extractLsb'_eq_extractLsb' (Nat.zero_add len).symm
  rw [join 8, join 16, join 24, join 32, join 40]
  exact BitVec.extractLsb'_eq_self

theorem infoOf_infoBytes (info : PortInfo) : infoOf (fun i => (infoBytes info 0)[i - 2]?.getD 0) =
    info := by
  have state : InfoState.ofByte (0 ||| info.state.toByte) = info.state := by
    rw [show (0 : Byte) ||| info.state.toByte = info.state.toByte from BitVec.zero_or,
      InfoState.ofByte_toByte]
  show PortInfo.mk _ _ _ _ _ (InfoState.ofByte (0 ||| info.state.toByte)) = _
  rw [state]
  refine congr (congr (congr (congr (congrArg₂ PortInfo.mk ?_ ?_) ?_) ?_) ?_) rfl
  · exact word_bytes _
  · exact mac_bytes _
  · exact word_bytes _
  · exact word_bytes _
  · exact word_bytes _

theorem htons_append (first second : Byte) : htons (first ++ second) = [first, second] := by
  unfold htons
  rw [BitVec.extractLsb'_append_eq_left, BitVec.extractLsb'_append_eq_right]

theorem macBytes_append (a b c d e f : Byte) : macBytes (a ++ (b ++ (c ++ (d ++ (e ++ f))))) =
    [a, b, c, d, e, f] := by
  have skip {n : Nat} (byte : Byte) (rest : BitVec n) (start : Nat) (le : start + 8 ≤ n) :
      (byte ++ rest).extractLsb' start 8 = rest.extractLsb' start 8 :=
      BitVec.extractLsb'_append_eq_of_add_le le
  unfold macBytes
  rw [BitVec.extractLsb'_append_eq_left, skip a _ 32 (by decide), BitVec.extractLsb'_append_eq_left,
    skip a _ 24 (by decide), skip b _ 24 (by decide), BitVec.extractLsb'_append_eq_left,
    skip a _ 16 (by decide),
    skip b _ 16 (by decide), skip c _ 16 (by decide), BitVec.extractLsb'_append_eq_left,
    skip a _ 8 (by decide),
    skip b _ 8 (by decide), skip c _ 8 (by decide), skip d _ 8 (by decide),
    BitVec.extractLsb'_append_eq_left,
    skip a _ 0 (by decide), skip b _ 0 (by decide), skip c _ 0 (by decide), skip d _ 0 (by decide),
    BitVec.extractLsb'_append_eq_right]

theorem infoBytes_infoOf (bytes : Nat → Byte) :
    infoBytes (infoOf bytes) (bytes 16) = (List.range' 2 15).map bytes := by
  unfold infoBytes infoOf
  dsimp only
  rw [htons_append, htons_append, htons_append, htons_append, macBytes_append,
    InfoState.or_toByte_ofByte]
  rfl

/-- The bytes that `lacpdu_set_port_info` writes. -/
theorem byteAt_setPortInfo (long : infoPos isActor + 20 ≤ pkt.length) {i : Nat} (le : 2 ≤ i)
    (lt : i < 17) :
    byteAt (setPortInfo info pkt isActor) (infoPos isActor + i) =
      (infoBytes info (byteAt pkt (infoPos isActor + 16)))[i - 2]?.getD 0 := by
  have place : infoPos isActor + i = infoPos isActor + 2 + (i - 2) := by omega
  unfold byteAt setPortInfo
  rw [place, Splice.getElem?_splice_mid (by omega) (by rw [length_infoBytes]; omega)]
  rfl

theorem byteAt_setPortInfo_of_ne (long : infoPos isActor + 20 ≤ pkt.length) {pos : Nat}
    (out : pos < infoPos isActor + 2 ∨ infoPos isActor + 17 ≤ pos) :
    byteAt (setPortInfo info pkt isActor) pos = byteAt pkt pos := by
  unfold setPortInfo
  generalize byteAt pkt (infoPos isActor + 16) = state
  unfold byteAt
  rcases out with before | behind
  · rw [Splice.getElem?_splice_left (by omega) before]
  · rw [show 15 = (infoBytes info state).length from rfl,
      Splice.getElem?_splice_right (by rw [length_infoBytes]; omega)
      (by rw [length_infoBytes]; omega)]

theorem length_setPortInfo (long : infoPos isActor + 20 ≤ pkt.length) :
    (setPortInfo info pkt isActor).length = pkt.length := by
  unfold setPortInfo
  rw [show 15 = (infoBytes info (byteAt pkt (infoPos isActor + 16))).length from rfl]
  exact Splice.length_splice (by rw [length_infoBytes]; omega)

theorem infoOf_congr {bytes other : Nat → Byte} (same : ∀ i, 2 ≤ i → i < 17 → bytes i = other i) :
    infoOf bytes = infoOf other := by
  unfold infoOf
  simp only [same, Nat.reduceLeDiff, Nat.reduceLT]

/-- **What is read is what was written**, if the state was zero before. -/
theorem getPortInfo_setPortInfo (long : infoPos isActor + 20 ≤ pkt.length)
    (zero : byteAt pkt (infoPos isActor + 16) = 0) :
    getPortInfo (setPortInfo info pkt isActor) isActor = info := by
  refine Eq.trans (infoOf_congr fun i le lt => ?_) (infoOf_infoBytes info)
  rw [byteAt_setPortInfo long le lt, zero]

/-- **Writing what was read changes nothing.** -/
theorem setPortInfo_getPortInfo (long : infoPos isActor + 20 ≤ pkt.length) :
    setPortInfo (getPortInfo pkt isActor) pkt isActor = pkt := by
  have bytes : infoBytes (getPortInfo pkt isActor) (byteAt pkt (infoPos isActor + 16)) = _ :=
    infoBytes_infoOf fun i => byteAt pkt (infoPos isActor + i)
  have part : (pkt.drop (infoPos isActor + 2)).take 15 =
      infoBytes (getPortInfo pkt isActor) (byteAt pkt (infoPos isActor + 16)) := by
    rw [bytes]
    refine List.ext_getElem? fun i => ?_
    by_cases lt : i < 15
    · rw [List.getElem?_map, List.getElem?_take_of_lt lt, List.getElem?_drop,
        List.getElem?_range' lt, Option.map_some]
      unfold byteAt
      rw [Nat.one_mul, Nat.add_assoc, List.getElem?_eq_getElem (by omega), Option.getD_some]
    · rw [List.getElem?_eq_none (by rw [List.length_take]; omega), List.getElem?_eq_none]
      rw [List.length_map, List.length_range']
      omega
  exact (Splice.splice_eq_self (by rw [length_infoBytes]; omega)).mpr part

/-- What a port that collects sends. -/
def builtPkt : List (BitVec 8) :=
  { (default : Port) with
    actorPortInfo := ⟨1, 5, 81, 255, 1, ⟨true, true, true, true, true, true, false, false⟩⟩
    partnerPortInfo :=
      ⟨1, 9, 3, 255, 2, ⟨true, false, true, true, false, false, false, false⟩⟩ }.pkt 0x0123456789ab

theorem setPortInfo_getPortInfo_built : setPortInfo (getPortInfo builtPkt true) builtPkt true =
    builtPkt :=
  setPortInfo_getPortInfo (by decide +kernel)

/-- The information of the other side is left alone. -/
theorem getPortInfo_setPortInfo_other (long : 56 ≤ pkt.length) :
    getPortInfo (setPortInfo info pkt isActor) (!isActor) = getPortInfo pkt (!isActor) := by
  refine infoOf_congr fun i le lt => byteAt_setPortInfo_of_ne ?_ ?_ <;> cases isActor <;>
    simp only [infoPos, Bool.not_true, Bool.not_false, if_true, Bool.false_eq_true, if_false] <;>
      omega

/-- **An LACPDU is received as it was sent.** -/
theorem readLacpdu_pkt (port : Port) (mac : BitVec 48) : (port.pkt mac).length = 124 ∧
    readLacpdu (port.pkt mac) = port.lacpdu ∧
        lacpduValidate (readLacpdu (port.pkt mac)) = true := by
  have length : (splice lacpduInit 6 6 (macBytes mac)).length = 124 := rfl
  have lengthActor :
      (setPortInfo port.actorPortInfo (splice lacpduInit 6 6 (macBytes mac)) true).length = 124 :=
    length_setPortInfo (by rw [length]; decide)
  have actorLong : infoPos true + 20 ≤ (splice lacpduInit 6 6 (macBytes mac)).length := by
    rw [length]; decide
  have partnerLong : infoPos false + 20 ≤
      (setPortInfo port.actorPortInfo (splice lacpduInit 6 6 (macBytes mac)) true).length := by
    rw [lengthActor]
    decide
  -- What neither information covers is as it was initialized.
  have other (pos : Nat) (actor : pos < 18 ∨ 33 ≤ pos) (partner : pos < 38 ∨ 53 ≤ pos) :
      byteAt (port.pkt mac) pos = byteAt (splice lacpduInit 6 6 (macBytes mac)) pos :=
    (byteAt_setPortInfo_of_ne partnerLong partner).trans (byteAt_setPortInfo_of_ne actorLong actor)
  have actor : getPortInfo (port.pkt mac) true = port.actorPortInfo :=
    (getPortInfo_setPortInfo_other (by rw [lengthActor]; decide)).trans
      (getPortInfo_setPortInfo actorLong rfl)
  have partner : getPortInfo (port.pkt mac) false = port.partnerPortInfo :=
    getPortInfo_setPortInfo partnerLong (byteAt_setPortInfo_of_ne actorLong (.inr (by decide)))
  have read : readLacpdu (port.pkt mac) = port.lacpdu := by
    unfold readLacpdu
    rw [actor, partner, other 14 (by decide) (by decide), other 15 (by decide) (by decide),
      other 16 (by decide) (by decide), other 17 (by decide) (by decide),
      other 36 (by decide) (by decide),
      other 37 (by decide) (by decide)]
    rfl
  exact ⟨(length_setPortInfo partnerLong).trans lengthActor, read, read ▸ rfl⟩

end Qsdk.Lacpd
