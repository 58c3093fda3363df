/-
**The tag of an aggregated packet.**

The sender puts its tag behind the options of the IPv4 header, which `hyfi_aggr_tag_packet` moves
down by four bytes together with the Ethernet header; `hyfi_aggr_untag_packet` takes it out again.
Memory is a function of the position from `skb->head`, and the CPU is little-endian.

Two such peers undo each other's work (`untag_tag`). But the total length is a big-endian field to
which four is added as to a number of the CPU, which adds four to its upper byte: no tagged packet
has its own length in the header (`transparent_iff`).
-/

import Qsdk.Lib.OnesComplement
import Mathlib.Algebra.Order.Ring.Int

namespace Qsdk.Tagging

/-! ### Memory -/

/-- The bytes behind `skb->head`. -/
abbrev Memory := Int → BitVec 8

namespace Memory

/-- A load of two bytes by the CPU. -/
def load16 (mem : Memory) (pos : Int) : BitVec 16 := mem (pos + 1) ++ mem pos

def store16 (mem : Memory) (pos : Int) (value : BitVec 16) : Memory :=
  Function.update (Function.update mem pos (value.setWidth 8)) (pos + 1) ((value >>> 8).setWidth 8)

def memmove (mem : Memory) (dst src : Int) (count : Nat) : Memory :=
  fun pos => if dst ≤ pos ∧ pos < dst + count then mem (pos - dst + src) else mem pos

/-- `ihl` of the header at this position. -/
def ihl (mem : Memory) (iph : Int) : BitVec 4 := (mem iph).setWidth 4

/-- A write to `ihl`. -/
def setIhl (mem : Memory) (iph : Int) (value : BitVec 4) : Memory :=
  Function.update mem iph ((mem iph >>> 4).setWidth 4 ++ value)

/-- The words of a header, summed up. -/
def headerSum (mem : Memory) (iph : Int) (ihl : BitVec 4) : Nat :=
  ((List.range (2 * ihl.toNat)).map fun i : Nat => (mem.load16 (iph + (2 * i : Nat))).toNat).sum

/-- `ip_fast_csum`. -/
def ipFastCsum (mem : Memory) (iph : Int) (ihl : BitVec 4) : BitVec 16 :=
  ~~~ BitVec.ofNat 16 (OnesComplement.fold 16 (OnesComplement.fold 16 (mem.headerSum iph ihl)))

/-- `ip_send_check`. -/
def ipSendCheck (mem : Memory) (iph : Int) : Memory :=
  let mem := mem.store16 (iph + 10) 0
  mem.store16 (iph + 10) (mem.ipFastCsum iph (mem.ihl iph))

end Memory

/-! ### Packets -/

/-- `struct sk_buff`. The network header is at `data`. -/
structure Skb where
  protocol : BitVec 16
  mem : Memory
  data : Int
  tail : Int
  macHeader : Int
  macLen : Nat

/-- `struct hyfi_aggr_seq_data`, of which a tag is made. -/
structure SeqData where
  aggrCurSeq : BitVec 14
  numIfs : BitVec 16

/-- `ETH_P_IP` and `HYFI_AGGR_HEADER_LEN`. -/
def ethPIp : BitVec 16 := 0x0800

def aggrHeaderLen : Nat := 4

/-- The longer header, with the tag behind its old end. -/
def Memory.insertTag (mem : Memory) (iph : Int) (ihl : Nat) (ha : SeqData) : Memory :=
  let mem := mem.setIhl iph (mem.ihl iph + 1)
  let mem := mem.store16 (iph + 2) (mem.load16 (iph + 2) + BitVec.ofNat 16 aggrHeaderLen)
  let mem : Memory := Function.update (Function.update mem (iph + ihl) 0x88) (iph + ihl + 1) 4
  mem.store16 (iph + ihl + 2) (ha.aggrCurSeq.setWidth 16 ||| ha.numIfs <<< 14)

/-- The shorter header. -/
def Memory.stripTag (mem : Memory) (iph : Int) : Memory :=
  let mem := mem.setIhl iph (mem.ihl iph - 1)
  mem.store16 (iph + 2) (mem.load16 (iph + 2) - BitVec.ofNat 16 aggrHeaderLen)

namespace Skb

def ihl (skb : Skb) : BitVec 4 := skb.mem.ihl skb.data

/-- `hyfi_aggr_tag_packet`. Without headroom the tail is expanded, and `skb_push` panics. -/
def tagPacket (ha : SeqData) (skb : Skb) : Option (SeqData × Skb) :=
  if skb.protocol ≠ ethPIp then some (ha, skb)
  else if skb.data < aggrHeaderLen then none
  else
    let ihl := 4 * skb.ihl.toNat
    let mem := skb.mem.memmove (skb.macHeader - aggrHeaderLen) skb.macHeader (skb.macLen + ihl)
    let iph := skb.data - aggrHeaderLen
    some ({ ha with aggrCurSeq := ha.aggrCurSeq + 1 },
      { skb with
        mem := (mem.insertTag iph ihl ha).ipSendCheck iph, data := iph,
        macHeader := iph - skb.macLen })

/-- `hyfi_aggr_untag_packet`. -/
def untagPacket (skb : Skb) : Skb :=
  if skb.protocol ≠ ethPIp then skb
  else if skb.tail - skb.data < 20 then skb
  else
    let ihl := 4 * skb.ihl.toNat
    if ihl < 24 ∨ skb.tail - skb.data < ihl then skb
    else
      let ihl := ihl - aggrHeaderLen
      let mem := ((skb.mem.stripTag skb.data).ipSendCheck skb.data).memmove
        (skb.macHeader + aggrHeaderLen)
        skb.macHeader (skb.macLen + ihl)
      let data := skb.data + aggrHeaderLen
      { skb with mem := mem, data := data, macHeader := data - skb.macLen }

/-- A well-formed IPv4 packet behind its Ethernet header. -/
structure WellFormed (skb : Skb) : Prop where
  placed : skb.macHeader + skb.macLen = skb.data
  version : (skb.mem skb.data) >>> 4 = 4
  headerLength : 5 ≤ skb.ihl.toNat
  fits : skb.data + (4 * skb.ihl.toNat : Nat) ≤ skb.tail
  totLen : ((skb.mem (skb.data + 2) ++ skb.mem (skb.data + 3)).toNat : Int) = skb.tail - skb.data
  check : 65535 ∣ skb.mem.headerSum skb.data skb.ihl

/-- The same packet, byte for byte. -/
structure Same (skb other : Skb) : Prop where
  protocol : skb.protocol = other.protocol
  data : skb.data = other.data
  tail : skb.tail = other.tail
  macHeader : skb.macHeader = other.macHeader
  bytes : ∀ pos, skb.macHeader ≤ pos → pos < skb.tail → skb.mem pos = other.mem pos

/-- What a tagged packet has to be. -/
structure TaggedFrom (tagged skb : Skb) : Prop where
  wellFormed : tagged.WellFormed
  covers : 4 * tagged.ihl.toNat = 4 * skb.ihl.toNat + aggrHeaderLen
  restored : tagged.untagPacket.Same skb

/-- **Tagging is transparent and standard.** -/
def Transparent (skb : Skb) (ha : SeqData) : Prop :=
  ∃ ha' tagged, skb.tagPacket ha = some (ha', tagged) ∧ (tagged = skb ∨ tagged.TaggedFrom skb)

end Skb

/-! ### What the stores leave -/

namespace Memory

variable {mem : Memory} {pos at' : Int} {value : BitVec 16}

theorem store16_of_ne (low : at' ≠ pos) (high : at' ≠ pos + 1) :
    mem.store16 pos value at' = mem at' := by
  unfold store16
  rw [Function.update_of_ne high, Function.update_of_ne low]

theorem store16_low : mem.store16 pos value pos = value.setWidth 8 := by
  unfold store16
  rw [Function.update_of_ne (by omega), Function.update_self]

theorem store16_high : mem.store16 pos value (pos + 1) = (value >>> 8).setWidth 8 :=
    Function.update_self ..

theorem append_toNat (high low : BitVec 8) : (high ++ low).toNat =
    256 * high.toNat + low.toNat := by
  rw [BitVec.toNat_append, Nat.shiftLeft_eq, Nat.mul_comm, Nat.two_pow_add_eq_or_of_lt low.isLt]

theorem load16_store16 : (mem.store16 pos value).load16 pos = value := by
  unfold load16
  rw [store16_low, store16_high, ← BitVec.toNat_inj, append_toNat]
  bv_omega

theorem load16_congr {mem' : Memory} {pos' : Int} (low : mem pos = mem' pos')
    (high : mem (pos + 1) = mem' (pos' + 1)) :
    mem.load16 pos = mem'.load16 pos' := by
  unfold load16
  rw [low, high]

/-- The two bytes of a load. -/
theorem eq_of_load16 {mem' : Memory} {pos' : Int} (same : mem.load16 pos = mem'.load16 pos') :
    mem pos = mem' pos' ∧ mem (pos + 1) = mem' (pos' + 1) := by
  have numbers := congrArg BitVec.toNat same
  unfold load16 at numbers
  rw [append_toNat, append_toNat] at numbers
  have low := (mem pos).isLt
  have low' := (mem' pos').isLt
  exact ⟨BitVec.eq_of_toNat_eq (by omega), BitVec.eq_of_toNat_eq (by omega)⟩

theorem memmove_in {dst src : Int} {count : Nat} (low : dst ≤ at') (high : at' < dst + count) :
    mem.memmove dst src count at' = mem (at' - dst + src) := if_pos ⟨low, high⟩

theorem memmove_out {dst src : Int} {count : Nat} (out : dst + count ≤ at') :
    mem.memmove dst src count at' = mem at' := if_neg (by omega)

/-! ### The header -/

variable {iph : Int} {length : Nat} {ha : SeqData}

/-- The checksum is that of the bytes of the header. -/
theorem headerSum_congr {mem' : Memory} {iph' : Int} {ihl : BitVec 4}
    (same : ∀ i : Nat, i < 4 * ihl.toNat → mem (iph + i) = mem' (iph' + i)) :
    mem.headerSum iph ihl = mem'.headerSum iph' ihl := by
  unfold headerSum
  refine congrArg List.sum (List.map_congr_left fun i inside => congrArg BitVec.toNat ?_)
  have bound := List.mem_range.mp inside
  have low := same (2 * i) (by omega)
  have high := same (2 * i + 1) (by omega)
  rw [Nat.cast_add, ← add_assoc, ← add_assoc] at high
  exact load16_congr low high

/-- The header with its checksum cleared. -/
theorem ipFastCsum_congr {mem' : Memory} {iph' : Int} {ihl : BitVec 4}
    (same : ∀ i : Nat, i < 4 * ihl.toNat → i ≠ 10 → i ≠ 11 → mem (iph + i) = mem' (iph' + i)) :
    (mem.store16 (iph + 10) 0).ipFastCsum iph ihl =
        (mem'.store16 (iph' + 10) 0).ipFastCsum iph' ihl := by
  unfold ipFastCsum
  rw [headerSum_congr fun i inside => ?_]
  rcases eq_or_ne i 10 with rfl | notLow
  · exact store16_low.trans store16_low.symm
  rcases eq_or_ne i 11 with rfl | notHigh
  · have high : ∀ base : Int, base + ((11 : Nat) : Int) = base + 10 + 1 := fun base => by omega
    rw [high, high, store16_high, store16_high]
  · rw [store16_of_ne (by omega) (by omega), store16_of_ne (by omega) (by omega)]
    exact same i inside notLow notHigh

theorem setIhl_self {ihl : BitVec 4} : (mem.setIhl iph ihl).ihl iph = ihl := by
  unfold Memory.ihl setIhl
  rw [Function.update_self]
  exact BitVec.setWidth_append_eq_right

theorem upper_append (head : BitVec 8) (ihl : BitVec 4) : ((head >>> 4).setWidth 4 ++ ihl) >>> 4 =
    head >>> 4 := by
  ext i inside
  simp
  grind

theorem upper_append_lower (head : BitVec 8) : (head >>> 4).setWidth 4 ++
    head.setWidth 4 = head := by
  ext i inside
  simp
  grind

/-- A change of the header length that is taken back. -/
theorem setIhl_back {mem' : Memory} {ihl : BitVec 4} (isHead : mem' iph = mem.setIhl iph ihl iph) :
    mem'.setIhl iph (mem.ihl iph) iph = mem iph := by
  unfold setIhl at isHead ⊢
  rw [Function.update_self] at isHead ⊢
  rw [isHead, upper_append]
  exact upper_append_lower _

theorem ipSendCheck_of_ne (low : at' ≠ iph + 10) (high : at' ≠ iph + 11) :
    mem.ipSendCheck iph at' = mem at' := by
  unfold ipSendCheck
  rw [store16_of_ne low (by omega), store16_of_ne low (by omega)]

theorem ipSendCheck_check : (mem.ipSendCheck iph).load16 (iph + 10) =
    (mem.store16 (iph + 10) 0).ipFastCsum iph (mem.ihl iph) := by
  unfold ipSendCheck
  rw [load16_store16]
  unfold Memory.ihl
  rw [store16_of_ne (by omega) (by omega)]

/-- Behind the first four bytes of the header the tag is all that is written. -/
theorem insertTag_of_ne (long : 20 ≤ length) (head : at' ≠ iph) (low : at' ≠ iph + 2)
    (high : at' ≠ iph + 3) (apart : at' < iph + length ∨ iph + length + aggrHeaderLen ≤ at') :
    mem.insertTag iph length ha at' = mem at' := by
  unfold aggrHeaderLen at apart
  unfold insertTag
  rw [store16_of_ne (by omega) (by omega), Function.update_of_ne (by omega),
    Function.update_of_ne (by omega),
    store16_of_ne low (by omega)]
  unfold setIhl
  rw [Function.update_of_ne head]

theorem insertTag_head (long : 20 ≤ length) :
    mem.insertTag iph length ha iph = mem.setIhl iph (mem.ihl iph + 1) iph := by
  unfold insertTag
  rw [store16_of_ne (by omega) (by omega), Function.update_of_ne (by omega),
    Function.update_of_ne (by omega),
    store16_of_ne (by omega) (by omega)]

theorem insertTag_totLen (long : 20 ≤ length) :
    (mem.insertTag iph length ha).load16 (iph + 2) = mem.load16 (iph + 2) +
        BitVec.ofNat 16 aggrHeaderLen := by
  have same : (mem.setIhl iph (mem.ihl iph + 1)).load16 (iph + 2) = mem.load16 (iph + 2) :=
    load16_congr (Function.update_of_ne (by omega) ..) (Function.update_of_ne (by omega) ..)
  rw [← same]
  refine Eq.trans ?_ (@load16_store16 (mem.setIhl iph (mem.ihl iph + 1)) (iph + 2) _)
  unfold insertTag
  refine load16_congr ?_ ?_
  · rw [store16_of_ne (by omega) (by omega), Function.update_of_ne (by omega),
      Function.update_of_ne (by omega)]
  · rw [store16_of_ne (by omega) (by omega), Function.update_of_ne (by omega),
      Function.update_of_ne (by omega)]

theorem stripTag_of_ne (head : at' ≠ iph) (low : at' ≠ iph + 2) (high : at' ≠ iph + 3) :
    mem.stripTag iph at' = mem at' := by
  unfold stripTag
  rw [store16_of_ne low (by omega)]
  exact Function.update_of_ne head ..

theorem stripTag_head : mem.stripTag iph iph = mem.setIhl iph (mem.ihl iph - 1) iph := by
  unfold stripTag
  rw [store16_of_ne (by omega) (by omega)]

theorem stripTag_totLen :
    (mem.stripTag iph).load16 (iph + 2) = mem.load16 (iph + 2) - BitVec.ofNat 16 aggrHeaderLen := by
  have same : (mem.setIhl iph (mem.ihl iph - 1)).load16 (iph + 2) = mem.load16 (iph + 2) :=
    load16_congr (Function.update_of_ne (by omega) ..) (Function.update_of_ne (by omega) ..)
  rw [← same]
  exact load16_store16

/-- The header with the tag. -/
def tagged (mem : Memory) (iph : Int) (length : Nat) (ha : SeqData) : Memory :=
  (mem.insertTag iph length ha).ipSendCheck iph

theorem tagged_ihl (long : 20 ≤ length) : (mem.tagged iph length ha).ihl iph = mem.ihl iph + 1 := by
  unfold tagged Memory.ihl
  rw [ipSendCheck_of_ne (by omega) (by omega), insertTag_head long]
  exact setIhl_self

theorem tagged_totLen (long : 20 ≤ length) :
    (mem.tagged iph length ha).load16 (iph + 2) = mem.load16 (iph + 2) +
        BitVec.ofNat 16 aggrHeaderLen := by
  rw [← insertTag_totLen long]
  exact load16_congr (ipSendCheck_of_ne (by omega) (by omega))
    (ipSendCheck_of_ne (by omega) (by omega))

/-- **Stripping undoes tagging** on the bytes that are not of the tag or the checksum. -/
theorem strip_tagged (long : 20 ≤ length)
    (apart : at' < iph + length ∨ iph + length + aggrHeaderLen ≤ at') (low : at' ≠ iph + 10)
    (high : at' ≠ iph + 11) :
    (mem.tagged iph length ha).stripTag iph at' = mem at' := by
  have totLen : ((mem.tagged iph length ha).stripTag iph).load16 (iph + 2) =
      mem.load16 (iph + 2) := by
    rw [stripTag_totLen, tagged_totLen long, BitVec.add_sub_cancel]
  obtain ⟨totLow, totHigh⟩ := eq_of_load16 totLen
  rcases eq_or_ne at' iph with rfl | notHead
  · rw [stripTag_head, tagged_ihl long, BitVec.add_sub_cancel]
    exact setIhl_back ((ipSendCheck_of_ne low high).trans (insertTag_head long))
  rcases eq_or_ne at' (iph + 2) with rfl | notLow
  · exact totLow
  rcases eq_or_ne at' (iph + 3) with rfl | notHigh
  · rw [show iph + 3 = iph + 2 + 1 by omega]
    exact totHigh
  rw [stripTag_of_ne notHead notLow notHigh]
  exact (ipSendCheck_of_ne low high).trans (insertTag_of_ne long notHead notLow notHigh apart)

/-- The checksum is the one that `ip_send_check` fills in. -/
def Checked (mem : Memory) (iph : Int) : Prop :=
  mem.load16 (iph + 10) = (mem.store16 (iph + 10) 0).ipFastCsum iph (mem.ihl iph)

/-- The checksum is computed again, over what it was computed over before. -/
theorem check_strip_tagged (isLength : length = 4 * (mem.ihl iph).toNat) (long : 20 ≤ length)
    (checked : mem.Checked iph) :
    (((mem.tagged iph length ha).stripTag iph).ipSendCheck iph).load16 (iph + 10) =
        mem.load16 (iph + 10) := by
  have stripped : ∀ i : Nat, i < length → i ≠ 10 → i ≠ 11 →
      (mem.tagged iph length ha).stripTag iph (iph + i) = mem (iph + i) :=
          fun i inside notLow notHigh =>
    strip_tagged long (by omega) (by omega) (by omega)
  have sameIhl : ((mem.tagged iph length ha).stripTag iph).ihl iph = mem.ihl iph := by
    have head := stripped 0 (by omega) (by omega) (by omega)
    rw [Nat.cast_zero, add_zero] at head
    exact congrArg (BitVec.setWidth 4) head
  rw [ipSendCheck_check, sameIhl, checked]
  exact ipFastCsum_congr fun i inside => stripped i (isLength ▸ inside)

/-- **Stripping undoes tagging**, with the checksum. -/
theorem send_strip_tagged (isLength : length = 4 * (mem.ihl iph).toNat) (long : 20 ≤ length)
    (checked : mem.Checked iph) (apart : at' < iph + length ∨ iph + length + aggrHeaderLen ≤ at') :
    ((mem.tagged iph length ha).stripTag iph).ipSendCheck iph at' = mem at' := by
  have sameCheck : (((mem.tagged iph length ha).stripTag iph).ipSendCheck iph).load16 (iph + 10) =
      mem.load16 (iph + 10) := check_strip_tagged isLength long checked
  obtain ⟨checkLow, checkHigh⟩ := eq_of_load16 sameCheck
  rcases eq_or_ne at' (iph + 10) with rfl | low
  · exact checkLow
  rcases eq_or_ne at' (iph + 11) with rfl | high
  · rw [show iph + 11 = iph + 10 + 1 by omega]
    exact checkHigh
  rw [ipSendCheck_of_ne low high]
  exact strip_tagged long apart low high

end Memory

/-! ### Packets -/

namespace Skb

variable {skb : Skb} {ha : SeqData}

/-- The headers, four bytes further down. -/
def moved (skb : Skb) : Memory :=
  skb.mem.memmove (skb.macHeader - aggrHeaderLen) skb.macHeader (skb.macLen + 4 * skb.ihl.toNat)

theorem moved_in (placed : skb.macHeader + skb.macLen = skb.data) {pos : Int}
    (low : skb.macHeader ≤ pos) (high : pos < skb.data + (4 * skb.ihl.toNat : Nat)) :
        skb.moved (pos - aggrHeaderLen) = skb.mem pos := by
  unfold moved aggrHeaderLen
  rw [Memory.memmove_in (by omega) (by omega)]
  exact congrArg skb.mem (by omega)

theorem moved_out (placed : skb.macHeader + skb.macLen = skb.data) {pos : Int}
    (out : skb.data + (4 * skb.ihl.toNat : Nat) ≤ pos) : skb.moved pos = skb.mem pos :=
  Memory.memmove_out (by unfold aggrHeaderLen; omega)

/-- The tagged packet. -/
def tagged (skb : Skb) (ha : SeqData) : Skb :=
  { skb with
    mem := skb.moved.tagged (skb.data - aggrHeaderLen) (4 * skb.ihl.toNat) ha
    data := skb.data - aggrHeaderLen
    macHeader := skb.data - aggrHeaderLen - skb.macLen }

theorem tagPacket_eq (isIp : skb.protocol = ethPIp) (room : aggrHeaderLen ≤ skb.data) :
    skb.tagPacket ha = some ({ ha with aggrCurSeq := ha.aggrCurSeq + 1 }, skb.tagged ha) := by
  unfold tagPacket
  rw [if_neg (not_not.mpr isIp), if_neg (by omega)]
  rfl

theorem untagPacket_eq (isIp : skb.protocol = ethPIp) (long : 24 ≤ 4 * skb.ihl.toNat)
    (fits : (4 * skb.ihl.toNat : Nat) ≤ skb.tail - skb.data) :
    skb.untagPacket = { skb with
      mem := ((skb.mem.stripTag skb.data).ipSendCheck skb.data).memmove
        (skb.macHeader + aggrHeaderLen) skb.macHeader
        (skb.macLen + (4 * skb.ihl.toNat - aggrHeaderLen))
      data := skb.data + aggrHeaderLen
      macHeader := skb.data + aggrHeaderLen - skb.macLen } := by
  unfold untagPacket
  rw [if_neg (not_not.mpr isIp), if_neg (by omega)]
  exact if_neg (by omega)

theorem WellFormed.moved_ihl (wellFormed : skb.WellFormed) :
    skb.moved.ihl (skb.data - aggrHeaderLen) = skb.ihl := by
  have headerLength := wellFormed.headerLength
  have placed := wellFormed.placed
  exact congrArg (BitVec.setWidth 4) (moved_in placed (by omega) (by omega))

theorem WellFormed.moved_load16 (wellFormed : skb.WellFormed) {offset : Int} (low : 0 ≤ offset)
    (high : offset < 19) :
    skb.moved.load16 (skb.data - aggrHeaderLen + offset) = skb.mem.load16 (skb.data + offset) := by
  have headerLength := wellFormed.headerLength
  have placed := wellFormed.placed
  refine Memory.load16_congr ?_ ?_
  · rw [show skb.data - aggrHeaderLen + offset = skb.data + offset - aggrHeaderLen by omega]
    exact moved_in placed (by omega) (by omega)
  · rw [show skb.data - aggrHeaderLen + offset + 1 = skb.data + offset + 1 - aggrHeaderLen by omega]
    exact moved_in placed (by omega) (by omega)

/-- **No tagged packet has its own length in the header.** -/
theorem WellFormed.tagged_totLen_ne (wellFormed : skb.WellFormed) :
    (((skb.tagged ha).mem ((skb.tagged ha).data + 2) ++ (skb.tagged ha).mem
      ((skb.tagged ha).data + 3)).toNat : Int) ≠
      (skb.tagged ha).tail - (skb.tagged ha).data := by
  have totLen := wellFormed.totLen
  have headerLength := wellFormed.headerLength
  have stored : (skb.tagged ha).mem.load16 ((skb.tagged ha).data + 2) =
      skb.mem.load16 (skb.data + 2) + BitVec.ofNat 16 aggrHeaderLen := by
    rw [← wellFormed.moved_load16 (by omega) (by omega)]
    exact Memory.tagged_totLen (by omega)
  have third : ∀ base : Int, base + 2 + 1 = base + 3 := fun base => by omega
  have numbers := congrArg BitVec.toNat stored
  unfold Memory.load16 at numbers
  rw [BitVec.toNat_add, Memory.append_toNat, Memory.append_toNat, third, third] at numbers
  rw [Memory.append_toNat] at totLen ⊢
  show _ ≠ skb.tail - (skb.data - aggrHeaderLen)
  rw [show (BitVec.ofNat 16 aggrHeaderLen).toNat = 4 from rfl] at numbers
  unfold aggrHeaderLen
  generalize (skb.tagged ha).mem ((skb.tagged ha).data + 2) = first at numbers ⊢
  generalize (skb.tagged ha).mem ((skb.tagged ha).data + 3) = second at numbers ⊢
  have boundFirst := first.isLt
  have boundSecond := second.isLt
  have boundLow := (skb.mem (skb.data + 2)).isLt
  have boundHigh := (skb.mem (skb.data + 3)).isLt
  omega

/-- **Two peers undo each other's work** where the header has room for the tag and a checksum as
`ip_send_check` makes it. -/
theorem WellFormed.untag_tag (wellFormed : skb.WellFormed) (isIp : skb.protocol = ethPIp)
    (short : skb.ihl.toNat < 15) (checked : skb.mem.Checked skb.data) :
        (skb.tagged ha).untagPacket.Same skb := by
  have placed := wellFormed.placed
  have headerLength := wellFormed.headerLength
  have fits := wellFormed.fits
  have ihl : (skb.tagged ha).ihl.toNat = skb.ihl.toNat + 1 := by
    have longer : (skb.tagged ha).ihl = skb.ihl + 1 := by
      rw [← wellFormed.moved_ihl]
      exact Memory.tagged_ihl (by omega)
    rw [longer]
    bv_omega
  have movedChecked : skb.moved.Checked (skb.data - aggrHeaderLen) := by
    unfold Memory.Checked
    rw [wellFormed.moved_load16 (by omega) (by omega), checked, wellFormed.moved_ihl]
    refine (Memory.ipFastCsum_congr fun i inside _ _ => ?_).symm
    rw [show skb.data - aggrHeaderLen + i = skb.data + i - aggrHeaderLen by omega]
    exact moved_in placed (by omega) (by unfold Skb.ihl; omega)
  have back : ∀ pos, pos < skb.data - aggrHeaderLen + (4 * skb.ihl.toNat : Nat) ∨
      skb.data + (4 * skb.ihl.toNat : Nat) ≤ pos →
        (((skb.tagged ha).mem.stripTag (skb.data - aggrHeaderLen)).ipSendCheck
          (skb.data - aggrHeaderLen)) pos =
          skb.moved pos := fun pos apart =>
    Memory.send_strip_tagged (by rw [wellFormed.moved_ihl]) (by omega) movedChecked (by omega)
  have tail : (skb.tagged ha).tail - (skb.tagged ha).data = skb.tail - skb.data + 4 :=
    show skb.tail - (skb.data - 4) = _ by omega
  have data : (skb.tagged ha).data + aggrHeaderLen = skb.data := Int.sub_add_cancel ..
  have macHeader : skb.macHeader = skb.data - skb.macLen := by omega
  rw [@untagPacket_eq (skb.tagged ha) isIp (by omega) (by omega), ihl]
  refine ⟨rfl, data, rfl, (congrArg (· - _) data).trans macHeader.symm, fun pos low high => ?_⟩
  have low : (skb.tagged ha).data + aggrHeaderLen - skb.macLen ≤ pos := low
  have macHeader' : (skb.tagged ha).macHeader = skb.macHeader - aggrHeaderLen :=
    show skb.data - aggrHeaderLen - skb.macLen = _ by omega
  dsimp only
  rw [macHeader', show skb.macHeader - aggrHeaderLen + aggrHeaderLen = skb.macHeader by omega,
    show (skb.tagged ha).macLen = skb.macLen from rfl]
  by_cases inside : pos < skb.data + (4 * skb.ihl.toNat : Nat)
  · rw [Memory.memmove_in (by omega) (by unfold aggrHeaderLen; omega),
      show pos - skb.macHeader + (skb.macHeader - aggrHeaderLen) = pos - aggrHeaderLen by omega]
    exact (back _ (.inl (by omega))).trans (moved_in placed (by omega) inside)
  · rw [Memory.memmove_out (by unfold aggrHeaderLen; omega)]
    exact (back _ (.inr (by omega))).trans (moved_out placed (by omega))

/-- **Tagging is transparent and standard exactly for the packets that it leaves alone**, those that
are not marked as IPv4. -/
theorem transparent_iff (wellFormed : skb.WellFormed) (room : aggrHeaderLen ≤ skb.data) :
    skb.Transparent ha ↔ skb.protocol ≠ ethPIp := by
  constructor
  · rintro ⟨ha', tagged, ran, outcome⟩ isIp
    obtain rfl := congrArg Prod.snd (Option.some.inj ((tagPacket_eq isIp room).symm.trans ran))
    rcases outcome with same | ⟨standard, _, _⟩
    · have data : skb.data - aggrHeaderLen = skb.data := congrArg Skb.data same
      unfold aggrHeaderLen at data
      omega
    · exact wellFormed.tagged_totLen_ne standard.totLen
  · intro notIp
    exact ⟨ha, skb, if_pos notIp, .inl rfl⟩

/-- A packet of 20 bytes with 18 bytes before it. -/
def bare (protocol : BitVec 16) : Skb where
  protocol := protocol
  mem pos := [0x45, 0, 0, 20, 0, 1, 0, 0, 64, 17, 0x66, 0xd6, 10, 0, 0, 1, 10, 0, 0, 2].getD
    (pos - 18).toNat 0
  data := 18
  tail := 38
  macHeader := 4
  macLen := 14

theorem bare_wellFormed (protocol : BitVec 16) : (bare protocol).WellFormed where
  placed := rfl
  version := show (bare 0).mem (bare 0).data >>> 4 = 4 by decide
  headerLength := show 5 ≤ (bare 0).ihl.toNat by decide
  fits := show (bare 0).data + (4 * (bare 0).ihl.toNat : Nat) ≤ (bare 0).tail by decide
  totLen :=
    show (((bare 0).mem ((bare 0).data + 2) ++ (bare 0).mem ((bare 0).data + 3)).toNat : Int) =
    (bare 0).tail - (bare 0).data by decide
  check := show 65535 ∣ (bare 0).mem.headerSum (bare 0).data (bare 0).ihl by decide

/-- The header of the tagged packet says 1044 bytes, and it has 24. -/
theorem bare_not_transparent : ¬ (bare ethPIp).Transparent ⟨0, 1⟩ := by
  rintro ⟨ha', tagged, ran, outcome⟩
  obtain rfl := congrArg Prod.snd (Option.some.inj ((tagPacket_eq rfl (by decide)).symm.trans ran))
  rcases outcome with same | ⟨standard, _, _⟩
  · exact absurd (congrArg Skb.data same) (by decide)
  · exact (bare_wellFormed ethPIp).tagged_totLen_ne standard.totLen

/-- The same bytes under the protocol number of a VLAN tag. -/
theorem bare_transparent : (bare 0x8100).Transparent ⟨0, 1⟩ :=
  (transparent_iff (bare_wellFormed 0x8100) (by decide)).mpr (by decide)

end Skb

end Qsdk.Tagging
