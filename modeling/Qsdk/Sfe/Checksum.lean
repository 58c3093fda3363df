/-
**When forwarding keeps a checksum right.**

The checksum of a segment is a sum in ones' complement, so it is computed in the integers modulo
65535 (`word`). A rule precomputes what the translation of an endpoint adds to it
(`csumAdjustment_word`, `partialCsumAdjustment_word`), and a handler adds that to the field
(`adjust_word`), unless a device computes the checksum. `Ipv4.checksum_kept_iff` says for every
packet that is forwarded, and every device that can do that, when the packet leaves with a right
checksum exactly if it came with one.

Three things go wrong. A device that is asked computes a right checksum whatever the packet came
with, also for UDP without one. The TCP handler takes a packet that the device should complete for
verified. And a UDP packet that is found by the lookup without its source port is adjusted as if it
had the source port zero.
-/

import Mathlib.Tactic.LinearCombination
import Mathlib.Tactic.Ring
import Qsdk.Lib.OnesComplement
import Qsdk.Sfe.Translate

namespace Qsdk.Sfe

open OnesComplement

/-! ### Words modulo 65535 -/

/-- A word as a number in ones' complement. -/
def word (field : BitVec 16) : ZMod 65535 := field.toNat

/-- An address as a number in ones' complement: the sum of its two words. -/
def addrWords (ip : Ipv4Addr) : ZMod 65535 := ip.toNat

namespace Ipv4

theorem fold_toNat (sum : BitVec 32) : (fold sum).toNat = OnesComplement.fold 16 sum.toNat := by
  have low : (sum &&& ((0xffff : Nat) : BitVec 32)).toNat = sum.toNat % 2 ^ 16 := by
    rw [BitVec.toNat_and]
    exact Nat.and_two_pow_sub_one_eq_mod sum.toNat 16
  have high : (sum >>> 16).toNat = sum.toNat / 2 ^ 16 := by
    rw [BitVec.toNat_ushiftRight, Nat.shiftRight_eq_div_pow]
  have bound := sum.isLt
  rw [fold, BitVec.toNat_add, low, high, OnesComplement.fold]
  exact Nat.mod_eq_of_lt (by omega)

/-- Two folds and a truncation keep a sum. -/
theorem folded_toNat (sum : BitVec 32) :
    ((fold (fold sum)).truncate 16).toNat =
      OnesComplement.fold 16 (OnesComplement.fold 16 sum.toNat) := by
  rw [BitVec.truncate_eq_setWidth, BitVec.toNat_setWidth, fold_toNat, fold_toNat]
  exact Nat.mod_eq_of_lt (fold_fold_lt sum.isLt)

theorem folded_word (sum : BitVec 32) :
    word ((fold (fold sum)).truncate 16) = (sum.toNat : ZMod 65535) := by
  rw [word, folded_toNat]
  exact (ZMod.natCast_eq_natCast_iff _ _ 65535).mpr
    ((fold_modEq (w := 16)).trans (fold_modEq (w := 16)))

/-- One fold and a truncation keep the sum of two words. -/
theorem adjust_toNat (check adjustment : BitVec 16) :
    (adjust check adjustment).toNat = OnesComplement.fold 16 (check.toNat + adjustment.toNat) := by
  have one := check.isLt
  have two := adjustment.isLt
  have sum : (check.zeroExtend 32 + adjustment.zeroExtend 32).toNat =
      check.toNat + adjustment.toNat := by
    rw [BitVec.toNat_add, BitVec.toNat_setWidth, BitVec.toNat_setWidth]
    omega
  rw [adjust, BitVec.truncate_eq_setWidth, BitVec.toNat_setWidth, fold_toNat, sum]
  exact Nat.mod_eq_of_lt (fold_lt_of_two (by omega))

/-- An adjustment is added. -/
theorem adjust_word (check adjustment : BitVec 16) :
    word (adjust check adjustment) = word check + word adjustment := by
  rw [word, adjust_toNat, word, word, ← Nat.cast_add]
  exact (ZMod.natCast_eq_natCast_iff _ _ 65535).mpr (fold_modEq (w := 16))

/-- A checksum field that is not zero does not become zero. -/
theorem adjust_ne_zero {check adjustment : BitVec 16} (nonzero : check ≠ 0) :
    adjust check adjustment ≠ 0 := by
  intro zero
  have pos : 0 < check.toNat := Nat.pos_of_ne_zero fun same => nonzero (BitVec.eq_of_toNat_eq same)
  have folded := fold_pos (w := 16) (Nat.add_pos_left pos adjustment.toNat)
  rw [← adjust_toNat, zero] at folded
  exact absurd folded (by decide)

theorem complement_word (field : BitVec 16) : word (~~~field) = -word field := by
  have bound := field.isLt
  have sum : (~~~field).toNat + field.toNat = 65535 := by
    rw [BitVec.toNat_not]
    omega
  have cast : word (~~~field) + word field = ((65535 : Nat) : ZMod 65535) := by
    rw [word, word, ← Nat.cast_add, sum]
  rw [ZMod.natCast_self] at cast
  exact eq_neg_of_add_eq_zero_left cast

/-- The two words of an address add up to it. -/
theorem addr_halves (ip : Ipv4Addr) :
    word ((ip >>> 16).truncate 16) + word (ip.truncate 16) = addrWords ip := by
  have high : ((ip >>> 16).truncate 16).toNat = ip.toNat / 2 ^ 16 := by
    rw [BitVec.truncate_eq_setWidth, BitVec.toNat_setWidth, BitVec.toNat_ushiftRight,
      Nat.shiftRight_eq_div_pow]
    have bound := ip.isLt
    exact Nat.mod_eq_of_lt (by omega)
  have low : (ip.truncate 16).toNat = ip.toNat % 2 ^ 16 := by
    rw [BitVec.truncate_eq_setWidth, BitVec.toNat_setWidth]
  rw [word, word, addrWords, high, low, ← Nat.cast_add, add_comm]
  exact (ZMod.natCast_eq_natCast_iff _ _ 65535).mpr (fold_modEq (w := 16))

theorem complement_addr (ip : Ipv4Addr) : addrWords (~~~ip) = -addrWords ip := by
  have bound := ip.isLt
  have sum : (~~~ip).toNat + ip.toNat = 65535 * 65537 := by
    rw [BitVec.toNat_not]
    omega
  have cast : addrWords (~~~ip) + addrWords ip = ((65535 * 65537 : Nat) : ZMod 65535) := by
    rw [addrWords, addrWords, ← Nat.cast_add, sum]
  rw [Nat.cast_mul, ZMod.natCast_self, zero_mul] at cast
  exact eq_neg_of_add_eq_zero_left cast

theorem masked_truncate (ip : Ipv4Addr) : (ip &&& 0xffff).truncate 16 = ip.truncate 16 := by
  refine BitVec.eq_of_toNat_eq ?_
  have mask : ip.toNat &&& 65535 = ip.toNat % 2 ^ 16 := Nat.and_two_pow_sub_one_eq_mod ip.toNat 16
  rw [BitVec.truncate_eq_setWidth, BitVec.truncate_eq_setWidth, BitVec.toNat_setWidth,
    BitVec.toNat_setWidth, BitVec.toNat_and]
  show (ip.toNat &&& 65535) % 2 ^ 16 = _
  rw [mask, Nat.mod_mod]

/-- The sum of six words does not overflow. -/
theorem six_toNat (one two three four five six : BitVec 16) :
    (one.zeroExtend 32 + two.zeroExtend 32 + three.zeroExtend 32 + four.zeroExtend 32 +
        five.zeroExtend 32 + six.zeroExtend 32).toNat =
      one.toNat + two.toNat + three.toNat + four.toNat + five.toNat + six.toNat := by
  have bounds := And.intro one.isLt (And.intro two.isLt (And.intro three.isLt
    (And.intro four.isLt (And.intro five.isLt six.isLt))))
  simp only [BitVec.toNat_add, BitVec.toNat_setWidth, BitVec.zeroExtend_eq_setWidth]
  omega

/-- What the translation of an endpoint adds to a checksum: the old words, less the new ones. -/
theorem csumAdjustment_word (matchIp xlateIp : Ipv4Addr) (matchPort xlatePort : BitVec 16) :
    word (csumAdjustment matchIp matchPort xlateIp xlatePort) =
      addrWords matchIp + word matchPort - (addrWords xlateIp + word xlatePort) := by
  have old := addr_halves matchIp
  have new := addr_halves (~~~xlateIp)
  rw [complement_addr] at new
  have port := complement_word xlatePort
  unfold csumAdjustment
  dsimp only
  rw [folded_word, six_toNat, masked_truncate, masked_truncate]
  simp only [word, Nat.cast_add] at old new port ⊢
  linear_combination old + new + port

/-- What the translation of an address adds to the sum of a pseudo header: the new words, less the
old ones. -/
theorem partialCsumAdjustment_word (matchIp xlateIp : Ipv4Addr) :
    word (partialCsumAdjustment matchIp xlateIp) = addrWords xlateIp - addrWords matchIp := by
  have complement := complement_addr matchIp
  unfold partialCsumAdjustment
  dsimp only
  rw [folded_word]
  -- the carry of the sum is added to it, which keeps it modulo 2 ^ 32 - 1
  have around : (((if (~~~matchIp + xlateIp).ult xlateIp then ~~~matchIp + xlateIp + 1
      else ~~~matchIp + xlateIp).toNat : Nat) : ZMod 65535) =
        ((~~~matchIp).toNat + xlateIp.toNat : Nat) := by
    have one := (~~~matchIp).isLt
    have two := xlateIp.isLt
    have sum : (~~~matchIp + xlateIp).toNat = ((~~~matchIp).toNat + xlateIp.toNat) % 2 ^ 32 :=
      BitVec.toNat_add _ _
    by_cases carry : (~~~matchIp + xlateIp).toNat < xlateIp.toNat
    · have wrapped : (~~~matchIp + xlateIp + 1).toNat + 65535 * 65537 =
          (~~~matchIp).toNat + xlateIp.toNat := by
        rw [BitVec.toNat_add, sum]
        rw [sum] at carry
        show (_ + 1) % 2 ^ 32 + _ = _
        omega
      rw [if_pos (BitVec.ult_iff_lt.mpr carry), ← wrapped, Nat.cast_add _ (65535 * 65537),
        Nat.cast_mul, ZMod.natCast_self, zero_mul, add_zero]
    · rw [if_neg fun ult => carry (BitVec.ult_iff_lt.mp ult), sum]
      rw [sum] at carry
      rw [Nat.mod_eq_of_lt (by omega)]
  rw [around, Nat.cast_add]
  rw [addrWords] at complement
  rw [complement, addrWords, addrWords]
  exact neg_add_eq_sub _ _

/-! ### The header -/

/-- The sum of a few words does not overflow. -/
theorem words_toNat (words : List (BitVec 16)) (short : words.length ≤ 16) :
    ((words.map fun field => BitVec.zeroExtend 32 field).sum).toNat = (words.map BitVec.toNat).sum ∧
      (words.map BitVec.toNat).sum ≤ words.length * 65535 := by
  induction words with
  | nil => exact ⟨rfl, Nat.zero_le _⟩
  | cons field words ih =>
      rw [List.length_cons] at short
      obtain ⟨sum, bound⟩ := ih (by omega)
      have one := field.isLt
      have field32 : (field.zeroExtend 32).toNat = field.toNat := by
        rw [BitVec.zeroExtend_eq_setWidth, BitVec.toNat_setWidth]
        omega
      simp only [List.map_cons, List.sum_cons, List.length_cons]
      rw [BitVec.toNat_add, sum, field32]
      omega

/-- The two words that stand for zero are zero and the word of ones. -/
theorem eq_ones_of_word {field : BitVec 16} (zero : word field = 0) (nonzero : field ≠ 0) :
    field = 0xffff := by
  have bound := field.isLt
  have divides : 65535 ∣ field.toNat := (ZMod.natCast_eq_zero_iff _ _).mp zero
  have pos : 0 < field.toNat := Nat.pos_of_ne_zero fun same => nonzero (BitVec.eq_of_toNat_eq same)
  refine BitVec.eq_of_toNat_eq ?_
  show field.toNat = 65535
  omega

theorem folded_ne_zero {sum : BitVec 32} (nonzero : sum ≠ 0) :
    (fold (fold sum)).truncate 16 ≠ (0 : BitVec 16) := by
  intro zero
  have pos : 0 < sum.toNat := Nat.pos_of_ne_zero fun same => nonzero (BitVec.eq_of_toNat_eq same)
  have folded := fold_pos (w := 16) (fold_pos (w := 16) pos)
  rw [← folded_toNat, zero] at folded
  exact absurd folded (by decide)

/-- A header with the checksum that is computed for it passes the check of a header. -/
theorem ipFastCsum_of_genIpCsum {packet : Ipv4Packet}
    (computed : packet.ipCheck = genIpCsum packet) :
    ipFastCsum packet = 0 := by
  obtain ⟨sum, bound⟩ := words_toNat (headerWords packet) (Nat.le_of_ble_eq_true rfl)
  have nine : (headerWords packet).length = 9 := rfl
  rw [nine] at bound
  rw [genIpCsum] at computed
  rw [ipFastCsum, List.map_cons, List.sum_cons]
  generalize ((headerWords packet).map fun field => field.zeroExtend 32).sum = total at *
  have complement : packet.ipCheck = ~~~((fold (fold total)).truncate 16) := by
    rw [computed]
    exact BitVec.xor_allOnes
  have check := packet.ipCheck.isLt
  have whole : (packet.ipCheck.zeroExtend 32 + total).toNat =
      packet.ipCheck.toNat + total.toNat := by
    rw [BitVec.toNat_add, BitVec.zeroExtend_eq_setWidth, BitVec.toNat_setWidth]
    omega
  have zero : word ((fold (fold (packet.ipCheck.zeroExtend 32 + total))).truncate 16) = 0 := by
    have part := folded_word total
    have negated := complement_word ((fold (fold total)).truncate 16)
    rw [← complement, part, word] at negated
    rw [folded_word, whole, Nat.cast_add, negated]
    exact neg_add_cancel _
  have nonzero : packet.ipCheck.zeroExtend 32 + total ≠ 0 := by
    intro none
    have nothing := congrArg BitVec.toNat none
    rw [whole] at nothing
    have noSum : total = 0 := BitVec.eq_of_toNat_eq (Nat.add_eq_zero_iff.mp nothing).2
    have noCheck : packet.ipCheck.toNat = 0 := (Nat.add_eq_zero_iff.mp nothing).1
    rw [complement, noSum] at noCheck
    exact absurd noCheck (by decide)
  rw [eq_ones_of_word zero (folded_ne_zero nonzero)]
  rfl

end Ipv4

/-! ### The checksum of a segment -/

namespace Segment

/-- The words of the pseudo header of a segment. -/
def pseudoWords (segment : Segment) : List (BitVec 16) :=
  [(segment.saddr >>> 16).truncate 16, segment.saddr.truncate 16,
    (segment.daddr >>> 16).truncate 16, segment.daddr.truncate 16,
    segment.protocol ++ (0 : BitVec 8), segment.segmentLen]

/-- The sum of the pseudo header of a segment. -/
def pseudoSum (segment : Segment) : Nat := (segment.pseudoWords.map BitVec.toNat).sum

/-- The sum of a segment without its checksum, with its pseudo header. -/
def sum (segment : Segment) : Nat :=
  segment.pseudoSum + (segment.source.toNat + segment.dest.toNat +
    (segment.words.map BitVec.toNat).sum)

/-- The checksum of a segment is right: it makes the sum zero. -/
def ChecksumRight (segment : Segment) : Prop := 65535 ∣ segment.sum + segment.check.toNat

instance (segment : Segment) : Decidable segment.ChecksumRight :=
  inferInstanceAs (Decidable (_ ∣ _))

/-- The checksum field holds the sum of the pseudo header, so that a device can complete it. -/
def SeedRight (segment : Segment) : Prop := segment.check.toNat ≡ segment.pseudoSum [MOD 65535]

instance (segment : Segment) : Decidable segment.SeedRight :=
  inferInstanceAs (Decidable (_ % _ = _ % _))

/-- The checksum field holds what it should when the segment is received. -/
def Right (segment : Segment) : Prop :=
  if segment.ipSummed = .incomplete then segment.SeedRight else segment.ChecksumRight

instance (segment : Segment) : Decidable segment.Right :=
  inferInstanceAs
    (Decidable (if segment.ipSummed = .incomplete then segment.SeedRight else
      segment.ChecksumRight))

/-- Whether a segment of UDP has no checksum. -/
def Bare (segment : Segment) : Prop := segment.protocol = ipprotoUdp ∧ segment.check = 0

instance (segment : Segment) : Decidable segment.Bare := inferInstanceAs (Decidable (_ ∧ _))

end Segment

/-- The addresses of a packet as a number in ones' complement. -/
def Endpoints.addrSum (ends : Endpoints) : ZMod 65535 := addrWords ends.saddr + addrWords ends.daddr

/-- The addresses and ports of a packet as a number in ones' complement. -/
def Endpoints.sum (ends : Endpoints) : ZMod 65535 :=
    ends.addrSum + (word ends.source + word ends.dest)

namespace Segment

variable (segment : Segment)

theorem pseudoSum_ends (ends : Endpoints) :
    (({ segment with toEndpoints := ends } : Segment).pseudoSum : ZMod 65535) =
      segment.pseudoSum + (ends.addrSum - segment.toEndpoints.addrSum) := by
  have newSource := Ipv4.addr_halves ends.saddr
  have newDest := Ipv4.addr_halves ends.daddr
  have oldSource := Ipv4.addr_halves segment.saddr
  have oldDest := Ipv4.addr_halves segment.daddr
  simp only [word] at newSource newDest oldSource oldDest
  simp only [pseudoSum, pseudoWords, Endpoints.addrSum, List.map_cons, List.map_nil, List.sum_cons,
    List.sum_nil, Nat.cast_add, Nat.cast_zero]
  linear_combination newSource + newDest - oldSource - oldDest

theorem sum_ends (ends : Endpoints) :
    (({ segment with toEndpoints := ends } : Segment).sum : ZMod 65535) =
      segment.sum + (ends.sum - segment.toEndpoints.sum) := by
  have pseudo := pseudoSum_ends segment ends
  simp only [sum, Endpoints.sum, Nat.cast_add, word]
  linear_combination pseudo

theorem checksumRight_iff : segment.ChecksumRight ↔
    (segment.sum : ZMod 65535) + word segment.check = 0 := by
  rw [ChecksumRight, word, ← Nat.cast_add, ZMod.natCast_eq_zero_iff]

end Segment

/-! ### The adjustments of a match -/

/-- A match holds the adjustments for what it translates. -/
structure ConnectionMatch.Adjusted (cm : ConnectionMatch Ipv4Addr) : Prop where
  src : cm.flags.xlateSrc = true →
    cm.xlateSrcCsumAdjustment =
        Ipv4.csumAdjustment cm.matchSrcIp cm.matchSrcPort cm.xlateSrcIp cm.xlateSrcPort ∧
      cm.xlateSrcPartialCsumAdjustment = Ipv4.partialCsumAdjustment cm.matchSrcIp cm.xlateSrcIp
  dest : cm.flags.xlateDest = true →
    cm.xlateDestCsumAdjustment =
        Ipv4.csumAdjustment cm.matchDestIp cm.matchDestPort cm.xlateDestIp cm.xlateDestPort ∧
      cm.xlateDestPartialCsumAdjustment = Ipv4.partialCsumAdjustment cm.matchDestIp cm.xlateDestIp

theorem Ipv4.computeTranslations_adjusted (cm : ConnectionMatch Ipv4Addr) :
    (Ipv4.computeTranslations cm).Adjusted := by
  unfold Ipv4.computeTranslations
  cases source : cm.flags.xlateSrc <;> cases target : cm.flags.xlateDest <;>
    constructor <;> simp [source, target]

theorem ConnectionMatch.Adjusted.withUp {cm : ConnectionMatch Ipv4Addr} (adjusted : cm.Adjusted)
    (up : Option Nat) : (cm.withUp up).Adjusted := by
  cases up with
  | none => exact adjusted
  | some sk => exact ⟨adjusted.src, adjusted.dest⟩

theorem ConnectionMatch.Adjusted.congr {before after : ConnectionMatch Ipv4Addr}
    (adjusted : before.Adjusted) (same : before.SameRoute after) : after.Adjusted := by
  have srcIp : after.matchSrcIp = before.matchSrcIp := congrArg MatchKey.srcIp same.key
  have srcPort : after.matchSrcPort = before.matchSrcPort := congrArg MatchKey.srcPort same.key
  have destIp : after.matchDestIp = before.matchDestIp := congrArg MatchKey.destIp same.key
  have destPort : after.matchDestPort = before.matchDestPort := congrArg MatchKey.destPort same.key
  constructor
  · rw [same.xlateSrc, same.xlateSrcCsumAdjustment, same.xlateSrcPartialCsumAdjustment,
      same.xlateSrcIp, same.xlateSrcPort, srcIp, srcPort]
    exact adjusted.src
  · rw [same.xlateDest, same.xlateDestCsumAdjustment, same.xlateDestPartialCsumAdjustment,
      same.xlateDestIp, same.xlateDestPort, destIp, destPort]
    exact adjusted.dest

/-- In every engine that can be reached, the matches of a connection in use hold their
adjustments. -/
theorem Engine.Reachable.adjusted {engine : Engine Ipv4Addr}
    (reachable : Engine.Reachable Ipv4.copy engine) {c : Ptr} (live : engine.connLive c = true) :
    ∀ cm ∈ engine.table.cmsOf c, (engine.table.cms cm).Adjusted := by
  induction reachable generalizing c with
  | initial initial =>
      obtain ⟨-, -, -, -, -, -, -, connLive, -⟩ := initial
      rw [connLive] at live
      cases live
  | step reachable step ih =>
      refine Engine.step_matches
        (P := fun table c => ∀ cm ∈ table.cmsOf c, (table.cms cm).Adjusted)
        reachable step ?_ ?_ (fun c old => ih old) live
      · intro table changed c originalMatch replyMatch original reply adjusted cm own
        rw [Table.cmsOf, originalMatch, replyMatch, List.mem_cons, List.mem_singleton] at own
        rcases own with rfl | rfl
        · exact (adjusted _ (List.mem_cons_self ..)).congr original
        · exact (adjusted _ (List.mem_cons_of_mem _ (List.mem_singleton.mpr rfl))).congr reply
      · intro net alloc msg nowJiffies isCreate table c original reply src dest
          originalCm replyCm up
          holds cm own
        rw [Table.cmsOf, holds.originalMatch, holds.replyMatch, List.mem_cons,
          List.mem_singleton] at own
        rcases own with rfl | rfl
        · rw [holds.original]
          exact Ipv4.computeTranslations_adjusted _
        · rw [holds.reply]
          exact (Ipv4.computeTranslations_adjusted _).withUp up

/-! ### What is adjusted -/

namespace Ipv4

section Adjusted

variable {cm : ConnectionMatch Ipv4Addr} {packet : Ipv4Packet}

/-- What both adjustments add to the checksum of a packet. -/
def adjustment (cm : ConnectionMatch Ipv4Addr) (packet : Ipv4Packet) : ZMod 65535 :=
  (if cm.flags.xlateSrc then word (srcAdjustment cm packet) else 0) +
    if cm.flags.xlateDest then word (destAdjustment cm packet) else 0

/-- They add the words of the key, less the words that it is translated to. -/
theorem adjustment_full (adjusted : cm.Adjusted) (full : packet.ipSummed ≠ .incomplete) :
    adjustment cm packet = cm.key.ends.sum - (cm.translate cm.key.ends).sum := by
  have partly : (packet.ipSummed == IpSummed.incomplete) = false := beq_eq_false_iff_ne.mpr full
  unfold adjustment srcAdjustment destAdjustment ConnectionMatch.translate Endpoints.sum
    Endpoints.addrSum MatchKey.ends
  rw [partly]
  have source := adjusted.src
  have dest := adjusted.dest
  cases xlateSrc : cm.flags.xlateSrc <;> cases xlateDest : cm.flags.xlateDest <;>
    simp only [xlateSrc, xlateDest, if_true, if_false, Bool.false_eq_true] at source dest ⊢
  · ring
  · rw [(dest trivial).1, csumAdjustment_word]
    ring
  · rw [(source trivial).1, csumAdjustment_word]
    ring
  · rw [(source trivial).1, (dest trivial).1, csumAdjustment_word, csumAdjustment_word]
    ring

/-- For the sum of a pseudo header, they add the addresses that the key is translated to, less its
own. -/
theorem adjustment_incomplete (adjusted : cm.Adjusted) (seeded : packet.ipSummed = .incomplete) :
    adjustment cm packet = (cm.translate cm.key.ends).addrSum - cm.key.ends.addrSum := by
  unfold adjustment srcAdjustment destAdjustment ConnectionMatch.translate Endpoints.addrSum
    MatchKey.ends
  rw [seeded]
  have source := adjusted.src
  have dest := adjusted.dest
  cases xlateSrc : cm.flags.xlateSrc <;> cases xlateDest : cm.flags.xlateDest <;>
    simp only [xlateSrc, xlateDest, if_true, if_false, Bool.false_eq_true, beq_self_eq_true]
      at source dest ⊢
  · ring
  · rw [(dest trivial).2, partialCsumAdjustment_word]
    ring
  · rw [(source trivial).2, partialCsumAdjustment_word]
    ring
  · rw [(source trivial).2, (dest trivial).2, partialCsumAdjustment_word,
      partialCsumAdjustment_word]
    ring

theorem udpAdjusted_ne_zero {applies : Bool} {check delta : BitVec 16} (nonzero : check ≠ 0) :
    udpAdjusted applies check delta ≠ 0 := by
  unfold udpAdjusted
  split_ifs
  · exact adjust_ne_zero nonzero
  · exact nonzero

theorem udpAdjusted_word {applies : Bool} {check delta : BitVec 16} (nonzero : check ≠ 0) :
    word (udpAdjusted applies check delta) = word check + if applies then word delta else 0 := by
  have isNonzero : (check != 0) = true := bne_iff_ne.mpr nonzero
  rw [udpAdjusted, isNonzero, Bool.and_true]
  cases applies
  · exact (add_zero _).symm
  · exact adjust_word check delta

theorem tcpAdjusted_word {applies : Bool} {check delta : BitVec 16} :
    word (tcpAdjusted applies check delta) = word check + if applies then word delta else 0 := by
  rw [tcpAdjusted]
  cases applies
  · exact (add_zero _).symm
  · exact adjust_word check delta

/-- A checksum field that the handlers adjust gets both adjustments. -/
theorem forwardCheck_word (software : hwCsum cm packet = false) (full : ¬packet.segment.Bare) :
    word (forwardCheck cm packet) = word packet.check + adjustment cm packet := by
  unfold forwardCheck adjustment
  by_cases isUdp : packet.protocol = ipprotoUdp
  · have nonzero : packet.check ≠ 0 := fun zero => full ⟨isUdp, zero⟩
    rw [if_pos isUdp, software, udpCheck, Bool.not_false, Bool.and_true, Bool.and_true,
      udpAdjusted_word (udpAdjusted_ne_zero nonzero), udpAdjusted_word nonzero, add_assoc]
  · rw [if_neg isUdp, software, tcpCheck, Bool.not_false, Bool.and_true, Bool.and_true,
      tcpAdjusted_word, tcpAdjusted_word, add_assoc]

/-- A UDP checksum that the handlers adjust is zero if and only if it was. -/
theorem forwardCheck_zero_iff (isUdp : packet.protocol = ipprotoUdp) :
    forwardCheck cm packet = 0 ↔ packet.check = 0 := by
  rw [forwardCheck, if_pos isUdp, udpCheck]
  constructor
  · intro zero
    by_contra nonzero
    exact udpAdjusted_ne_zero (udpAdjusted_ne_zero nonzero) zero
  · intro zero
    rw [zero]
    simp [udpAdjusted]

end Adjusted

end Ipv4

/-! ### What leaves the device -/

/-- A device that computes checksums when it is asked to: the checksum of the segment, which in UDP
is not zero, and the one of the header. -/
structure Device where
  complete : Ipv4Packet → Ipv4Packet
  keeps : ∀ packet,
    (complete packet).segment = { packet.segment with check := (complete packet).check }
  right : ∀ packet, (complete packet).segment.ChecksumRight
  nonzero : ∀ packet, packet.protocol = ipprotoUdp → (complete packet).check ≠ 0
  header : ∀ packet, Ipv4.ipFastCsum (complete packet) = 0

/-- The device computes the checksums of a packet if it is asked to, and sends any other packet as
it is. -/
def Device.transmit (device : Device) (packet : Ipv4Packet) : Ipv4Packet :=
  if packet.ipSummed = .incomplete then device.complete packet else packet

/-- A packet leaves with a right checksum if and only if it came with one, UDP leaves without a
checksum if and only if it came without, and the header is right. -/
structure Ipv4Packet.Kept (packet out : Ipv4Packet) : Prop where
  checksum : ¬packet.segment.Bare → (out.segment.ChecksumRight ↔ packet.segment.Right)
  bare : packet.protocol = ipprotoUdp → (out.check = 0 ↔ packet.check = 0)
  header : Ipv4.ipFastCsum out = 0

namespace Ipv4

/-- Whether the device computes the checksum of a packet that is forwarded: it does so for a
verified one, and for UDP that came with the sum of its pseudo header. -/
def DeviceCompletes (cm : ConnectionMatch Ipv4Addr) (packet : Ipv4Packet) : Prop :=
  hwCsum cm packet = true ∨ packet.protocol = ipprotoUdp ∧ packet.ipSummed = .incomplete

instance (cm : ConnectionMatch Ipv4Addr) (packet : Ipv4Packet) :
    Decidable (DeviceCompletes cm packet) := inferInstanceAs (Decidable (_ ∨ _))

/-- The sum of a pseudo header, moved to the new addresses, is a right checksum by chance. -/
def RightByChance (cm : ConnectionMatch Ipv4Addr) (packet : Ipv4Packet) : Prop :=
  let moved : Segment := { packet.segment with toEndpoints := cm.translate packet.toEndpoints }
  moved.sum + moved.pseudoSum + packet.check.toNat ≡ packet.segment.pseudoSum [MOD 65535]

/-- When forwarding keeps the checksum of a packet. -/
def KeepsChecksum (cm : ConnectionMatch Ipv4Addr) (packet : Ipv4Packet) : Prop :=
  if DeviceCompletes cm packet then packet.segment.Right ∧ ¬packet.segment.Bare
  else if packet.ipSummed = .incomplete then
    packet.segment.SeedRight ↔ RightByChance cm packet
  else
    packet.segment.Bare ∨ (cm.flags.xlateSrc = true →
      (packet.segment.ChecksumRight ↔
        ({ packet.segment with source := cm.matchSrcPort } : Segment).ChecksumRight))

section Kept

variable {cm : ConnectionMatch Ipv4Addr} {packet : Ipv4Packet} (tunOuter : Bool)

theorem forwardSummed_iff : forwardSummed cm packet = .incomplete ↔ DeviceCompletes cm packet := by
  unfold forwardSummed DeviceCompletes
  cases hwCsum cm packet
  · by_cases isUdp : packet.protocol = ipprotoUdp
    · simp [isUdp]
    · simp [isUdp]
  · simp

/-- What a device computes is right, whatever it was given. -/
theorem kept_of_device (device : Device) (completes : DeviceCompletes cm packet) :
    packet.Kept (device.transmit (forward cm tunOuter packet)) ↔
      packet.segment.Right ∧ ¬packet.segment.Bare := by
  have summed : (forward cm tunOuter packet).ipSummed = .incomplete :=
    (congrArg Segment.ipSummed (forward_segment cm tunOuter packet)).trans
      (forwardSummed_iff.mpr completes)
  have protocol := forward_protocol cm tunOuter packet
  rw [Device.transmit, if_pos summed]
  generalize forward cm tunOuter packet = sent at protocol ⊢
  constructor
  · intro kept
    have full : ¬packet.segment.Bare := by
      rintro ⟨isUdp, zero⟩
      exact device.nonzero sent (protocol.trans isUdp) ((kept.bare isUdp).mpr zero)
    exact ⟨(kept.checksum full).mp (device.right sent), full⟩
  · rintro ⟨right, full⟩
    refine ⟨fun _ => iff_of_true (device.right sent) right, fun isUdp => ?_, device.header sent⟩
    exact iff_of_false (device.nonzero sent (protocol.trans isUdp)) fun zero => full ⟨isUdp, zero⟩

/-- A packet that the handlers adjust is sent as it is, with a right header. -/
theorem sent_of_software (device : Device) (adjusts : ¬DeviceCompletes cm packet) :
    device.transmit (forward cm tunOuter packet) = forward cm tunOuter packet ∧
      ipFastCsum (forward cm tunOuter packet) = 0 := by
  have software : hwCsum cm packet = false := by
    cases hw : hwCsum cm packet with
    | false => rfl
    | true => exact absurd (.inl hw) adjusts
  have summed : (forward cm tunOuter packet).ipSummed ≠ .incomplete := by
    intro incomplete
    have same := congrArg Segment.ipSummed (forward_segment cm tunOuter packet)
    exact adjusts (forwardSummed_iff.mp (same.symm.trans incomplete))
  rw [Device.transmit, if_neg summed]
  exact ⟨rfl, ipFastCsum_of_genIpCsum (forward_ipCheck cm tunOuter packet software)⟩

/-- What is left to ask of a packet that the handlers adjust is whether its checksum is still
right. -/
theorem kept_of_software (device : Device) (adjusts : ¬DeviceCompletes cm packet) :
    packet.Kept (device.transmit (forward cm tunOuter packet)) ↔
      (¬packet.segment.Bare →
        ((forward cm tunOuter packet).segment.ChecksumRight ↔ packet.segment.Right)) := by
  obtain ⟨asIs, header⟩ := sent_of_software tunOuter device adjusts
  rw [asIs]
  refine ⟨Ipv4Packet.Kept.checksum, fun checksum => ⟨checksum, fun isUdp => ?_, header⟩⟩
  have check : (forward cm tunOuter packet).check = forwardCheck cm packet :=
    congrArg Segment.check (forward_segment cm tunOuter packet)
  rw [check]
  exact forwardCheck_zero_iff isUdp

/-- The handlers adjust a checksum as if the packet had the source port of the key, if they
translate that. -/
theorem forward_right_iff (adjusted : cm.Adjusted)
    (ends : cm.key.ends = { packet.toEndpoints with source := cm.matchSrcPort })
    (software : hwCsum cm packet = false) (full : packet.ipSummed ≠ .incomplete)
    (summed : ¬packet.segment.Bare) :
    (forward cm tunOuter packet).segment.ChecksumRight ↔
      (if cm.flags.xlateSrc then { packet.segment with source := cm.matchSrcPort }
        else packet.segment : Segment).ChecksumRight := by
  have moved := packet.segment.sum_ends (cm.translate packet.toEndpoints)
  have ported := packet.segment.sum_ends { packet.toEndpoints with source := cm.matchSrcPort }
  have check := forwardCheck_word software summed
  rw [adjustment_full adjusted full, ends] at check
  rw [forward_segment, Segment.checksumRight_iff, Segment.checksumRight_iff]
  cases translated : cm.flags.xlateSrc with
  | true =>
      have sameSource : cm.translate { packet.toEndpoints with source := cm.matchSrcPort } =
          cm.translate packet.toEndpoints := by
        rw [ConnectionMatch.translate, ConnectionMatch.translate, translated]
        rfl
      rw [sameSource] at check
      refine Eq.congr_left ?_
      refine (congrArg₂ (· + ·) moved check).trans (Eq.trans ?_
        (congrArg (· + word packet.check) ported).symm)
      dsimp only [Ipv4Packet.segment]
      ring
  | false =>
      refine Eq.congr_left ?_
      refine (congrArg₂ (· + ·) moved check).trans ?_
      show _ = (packet.segment.sum : ZMod 65535) + word packet.check
      unfold ConnectionMatch.translate Endpoints.sum Endpoints.addrSum
      rw [translated]
      simp only [Ipv4Packet.segment, Bool.false_eq_true, if_false]
      ring

/-- A TCP packet with the sum of its pseudo header goes out with the sum of its new one, which is
its checksum by chance alone. -/
theorem forward_right_iff_chance (adjusted : cm.Adjusted) (ends : cm.key.ends = packet.toEndpoints)
    (seeded : packet.ipSummed = .incomplete) (software : hwCsum cm packet = false)
    (summed : ¬packet.segment.Bare) :
    (forward cm tunOuter packet).segment.ChecksumRight ↔ RightByChance cm packet := by
  have moved := packet.segment.pseudoSum_ends (cm.translate packet.toEndpoints)
  have check := forwardCheck_word software summed
  rw [adjustment_incomplete adjusted seeded, ends] at check
  rw [forward_segment, Segment.checksumRight_iff, RightByChance, ← ZMod.natCast_eq_natCast_iff,
    Nat.cast_add, Nat.cast_add, ← sub_eq_zero (b := (packet.segment.pseudoSum : ZMod 65535))]
  refine Eq.congr_left ?_
  rw [moved]
  refine (congrArg ((({ packet.segment with toEndpoints := cm.translate packet.toEndpoints } :
    Segment).sum : ZMod 65535) + ·) check).trans ?_
  dsimp only [Ipv4Packet.segment, word]
  ring

end Kept

/-- **When forwarding keeps a checksum.** For every packet that a reachable table forwards, and
every device: it leaves with a right checksum exactly if it came with one, with none in UDP exactly
if it came without, and with a right header, if and only if `KeepsChecksum` holds. -/
theorem checksum_kept_iff {engine : Engine Ipv4Addr} (reachable : Engine.Reachable Ipv4.copy engine)
    (device : Device) {reception : Reception} {packet sent : Ipv4Packet} {at_ : Ptr}
    (received : recv engine.table reception packet = some (at_, sent)) :
    packet.Kept (device.transmit sent) ↔ KeepsChecksum (engine.table.cms at_) packet := by
  have forwards := recv_forwards received
  obtain ⟨⟨c, live, -, own⟩, -⟩ := lookup_sound reachable forwards.found
  have adjusted := reachable.adjusted live at_ own
  obtain ⟨-, ends, port⟩ := forwards.key reachable
  rw [forwards.sent]
  unfold KeepsChecksum
  by_cases completes : DeviceCompletes (engine.table.cms at_) packet
  · rw [if_pos completes]
    exact kept_of_device _ device completes
  · rw [if_neg completes]
    rw [kept_of_software _ device completes]
    have software : hwCsum (engine.table.cms at_) packet = false := by
      by_contra hw
      exact completes (.inl (Bool.eq_true_of_not_eq_false hw))
    by_cases seeded : packet.ipSummed = .incomplete
    · have notUdp : packet.protocol ≠ ipprotoUdp := fun isUdp => completes (.inr ⟨isUdp, seeded⟩)
      have full : ¬packet.segment.Bare := fun bare => notUdp bare.1
      have samePort := port.resolve_right notUdp
      rw [samePort] at ends
      have right : packet.segment.Right ↔ packet.segment.SeedRight :=
        iff_of_eq (if_pos seeded)
      rw [if_pos seeded, forward_right_iff_chance _ adjusted ends seeded software full, right]
      exact ⟨fun same => (same full).symm, fun same _ => same.symm⟩
    · have right : packet.segment.Right ↔ packet.segment.ChecksumRight :=
        iff_of_eq (if_neg seeded)
      rw [if_neg seeded]
      by_cases bare : packet.segment.Bare
      · exact iff_of_true (fun full => absurd bare full) (.inl bare)
      · rw [forward_right_iff _ adjusted ends software seeded bare, right]
        cases (engine.table.cms at_).flags.xlateSrc with
        | true => exact ⟨fun same => .inr fun _ => (same bare).symm,
            fun same _ => ((same.resolve_left bare) rfl).symm⟩
        | false => exact iff_of_true (fun _ => Iff.rfl) (.inr fun translated => by cases translated)

end Ipv4

/-! ### A device and two packets -/

/-- A device that computes the two checksums from scratch. -/
def Device.computing : Device where
  complete packet :=
    let packet := { packet with check := BitVec.ofNat 16 (65535 - packet.segment.sum % 65535) }
    { packet with ipCheck := Ipv4.genIpCsum packet }
  keeps _ := rfl
  right packet := by
    have check : (BitVec.ofNat 16 (65535 - packet.segment.sum % 65535)).toNat =
        65535 - packet.segment.sum % 65535 := by
      rw [BitVec.toNat_ofNat]
      omega
    show 65535 ∣ packet.segment.sum + (BitVec.ofNat 16 (65535 - packet.segment.sum % 65535)).toNat
    rw [check]
    omega
  nonzero packet _ := by
    intro zero
    have value := congrArg BitVec.toNat zero
    rw [BitVec.toNat_ofNat] at value
    have none : (65535 - packet.segment.sum % 65535) % 2 ^ 16 = 0 := value
    omega
  header _ := Ipv4.ipFastCsum_of_genIpCsum rfl

/-- A segment of the telnet connection with no data, whose checksum field is given. -/
def telnetSegment (ipSummed : IpSummed) (check : BitVec 16) : Ipv4Packet :=
  let packet := { Ipv4.shortPacket ipprotoTcp ⟨0x0100000a, 0x3930, 0x0200000a, 0x1700⟩ with
    ipSummed := ipSummed
    check := check }
  { packet with ipCheck := Ipv4.genIpCsum packet }

/-- A verified segment of the translated telnet connection keeps its checksum. -/
theorem Ipv4.checksum_kept_telnet :
    let engine := Engine.withRule Ipv4.copy (Ipv4.ruleFor telnet telnetBehind)
    let packet := telnetSegment .unnecessary 0x92bb
    let sent := Ipv4.forward (engine.table.cms 2) false packet
    packet.segment.ChecksumRight ∧ sent.check ≠ packet.check ∧
      packet.Kept (Device.computing.transmit sent) := by
  intro engine packet sent
  have reachable : Engine.Reachable Ipv4.copy engine :=
    Engine.after_reachable (by decide +kernel)
  have received : Ipv4.recv engine.table shortReception packet = some (2, sent) := by decide +kernel
  have right : packet.segment.ChecksumRight := by decide +kernel
  refine ⟨right, by decide +kernel, ?_⟩
  refine (Ipv4.checksum_kept_iff reachable Device.computing received).mpr ?_
  unfold Ipv4.KeepsChecksum
  rw [if_neg (by decide +kernel), if_neg (by decide +kernel)]
  exact .inr fun _ => iff_of_true right (by decide +kernel)

/-- A segment that the device should complete is sent as it is, with the sum of its new pseudo
header. -/
theorem Ipv4.not_kept_incomplete :
    ¬ ∀ engine : Engine Ipv4Addr, Engine.Reachable Ipv4.copy engine →
      ∀ (device : Device) (reception : Reception) (packet sent : Ipv4Packet) (at_ : Ptr),
        Ipv4.recv engine.table reception packet = some (at_, sent) →
        packet.Kept (device.transmit sent) := by
  intro always
  have kept := always (Engine.withRule Ipv4.copy (Ipv4.ruleFor telnet telnetBehind))
    (Engine.after_reachable (by decide +kernel)) Device.computing shortReception
    (telnetSegment .incomplete 0x1d14)
    (Ipv4.forward ((Engine.withRule Ipv4.copy (Ipv4.ruleFor telnet telnetBehind)).table.cms 2)
      false (telnetSegment .incomplete 0x1d14)) 2 (by decide +kernel)
  have sentRight := (kept.checksum (by decide +kernel)).mpr (by decide +kernel)
  revert sentRight
  decide +kernel

end Qsdk.Sfe
