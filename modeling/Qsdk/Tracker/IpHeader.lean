/-
**The walk over the headers of an IP packet.**

`ecm_tracker_ip_check_header_and_read` records where the headers of a packet are. An IPv4 packet has
one after its IP header, an IPv6 packet a chain of extension headers. Each header has a helper for
its protocol, which is told where it starts and how much of the packet remains. For IPv4 this
remainder is a 16-bit difference, and nothing says that the total length is not below the header
length. The helpers that compare with the total length catch this, the others record what is not in
the packet: `checkHeaderAndRead_right_iff`.
-/

import Mathlib.Data.BitVec
import Mathlib.Data.Fintype.Basic
import Mathlib.Data.List.Chain
import Mathlib.Data.List.Nodup
import Mathlib.Data.Fintype.Card
import Mathlib.Algebra.Group.Nat.Defs
import Mathlib.Algebra.Ring.Int.Defs

namespace Qsdk.Tracker

/-! ### What is in the packet -/

/-- The bytes of a socket buffer. -/
abbrev Skb := List (BitVec 8)

/-- `skb_header_pointer`. -/
def Skb.headerPointer (skb : Skb) (offset len : Nat) : Option Skb :=
  if offset + len ≤ skb.length then some ((skb.drop offset).take len) else none

def octet (bytes : Skb) (i : Nat) : Nat := (bytes.getD i 0).toNat

/-- `ntohs` of two bytes. -/
def be16 (bytes : Skb) (i : Nat) : Nat := octet bytes i * 256 + octet bytes (i + 1)

/-- `ntohl` of four bytes. -/
def be32 (bytes : Skb) (i : Nat) : Nat := be16 bytes i * 65536 + be16 bytes (i + 2)

theorem octet_lt (bytes : Skb) (i : Nat) : octet bytes i < 256 := (bytes.getD i 0).isLt

theorem be16_lt (bytes : Skb) (i : Nat) : be16 bytes i < 65536 := by
  have high := octet_lt bytes i
  have low := octet_lt bytes (i + 1)
  unfold be16
  omega

theorem Skb.headerPointer_eq_some {skb bytes : Skb} {offset len : Nat} :
    skb.headerPointer offset len = some bytes ↔ offset + len ≤ skb.length ∧
        (skb.drop offset).take len = bytes := by
  unfold Skb.headerPointer
  split <;> simp_all

/-! ### What is recorded -/

/-- `enum ecm_tracker_ip_protocol_types`. -/
inductive ProtocolType
  | unknown
  | icmp
  | udp
  | tcp
  | gre
  | ipv6Routing
  | ipv6Fragment
  | ah
  | ipv6Icmp
  | ipv6Do
  | ipv6Hbh
  deriving DecidableEq, Repr

instance : Fintype ProtocolType where
  elems := {.unknown, .icmp, .udp, .tcp, .gre, .ipv6Routing, .ipv6Fragment, .ah, .ipv6Icmp,
    .ipv6Do, .ipv6Hbh}
  complete type := by cases type <;> decide

/-- `struct ecm_tracker_ip_protocol_header`. -/
structure ProtocolHeader where
  protocolNumber : Nat := 0
  headerSize : Nat := 0
  size : Nat := 0
  offset : Nat := 0
  deriving DecidableEq, Repr

/-- `struct ecm_tracker_ip_header`. -/
structure IpHeader where
  isV4 : Bool := false
  protocol : Int := 0
  fragmented : Bool := false
  dscp : Nat := 0
  ds : Nat := 0
  ttl : Nat := 0
  ipHeaderLength : Nat := 0
  totalLength : Nat := 0
  headers : ProtocolType → ProtocolHeader := fun _ => {}

/-- What a helper writes to `etiph`. All but the protocol number are of 16 bits. -/
def IpHeader.record (ip : IpHeader) (type : ProtocolType) (protocol headerSize size offset : Nat) :
    IpHeader :=
  { ip with
    headers := Function.update ip.headers type
      ⟨protocol, headerSize % 65536, size % 65536, offset % 65536⟩ }

/-! ### The helpers -/

/-- `ecm_tracker_ip_header_helper_method_t`. It returns what it has recorded and the header that
follows, or -1. -/
abbrev HeaderHelper := IpHeader → Skb → (protocol : Nat) → ProtocolType → (offset remain : Nat) →
    Option (IpHeader × Int)

/-- `ecm_tracker_ip_header_helper_ipv6_generic`. -/
def headerHelperIpv6Generic : HeaderHelper := fun ip skb protocol type offset remain =>
  if remain < 8 then none
  else
    match skb.headerPointer offset 2 with
    | none => none
    | some genHeader =>
      let hdrSize := octet genHeader 1 * 8 + 8
      if remain < hdrSize then none
      else if ip.totalLength < offset + hdrSize then none
      else some (ip.record type protocol hdrSize hdrSize offset, octet genHeader 0)

/-- `ecm_tracker_ip_header_helper_ipv6_fragment`. With `ECM_INTERFACE_MAP_T_ENABLE` a dummy header
is no fragment. -/
def headerHelperIpv6Fragment (mapT : Bool) : HeaderHelper :=
    fun ip skb protocol type offset remain =>
  if remain < 8 then none
  else
    match skb.headerPointer offset (if mapT then 4 else 2) with
    | none => none
    | some genHeader =>
      if ip.totalLength < offset + 8 then none
      else
        some ({ ip.record type protocol 8 8 offset with
          fragmented := !(mapT && be16 genHeader 2 &&& 0xfff9 == 0) }, octet genHeader 0)

/-- `ecm_tracker_ip_header_helper_ah`. -/
def headerHelperAh : HeaderHelper := fun ip skb protocol type offset remain =>
  if remain < 8 then none
  else
    match skb.headerPointer offset 2 with
    | none => none
    | some genHeader =>
      let hdrSize := (octet genHeader 1 + 2) * 4
      if ip.isV4 = false ∧ hdrSize % 8 ≠ 0 then none
      else if remain < hdrSize then none
      else if ip.totalLength < offset + hdrSize then none
      else some (ip.record type protocol hdrSize hdrSize offset, octet genHeader 0)

/-- `ecm_tracker_ip_header_helper_ipv6_icmp`. -/
def headerHelperIpv6Icmp : HeaderHelper := fun ip _ protocol type offset remain =>
  if remain < 4 then none else some (ip.record type protocol 4 remain offset, -1)

/-- `ecm_tracker_ip_header_helper_tcp`. -/
def headerHelperTcp : HeaderHelper := fun ip skb protocol type offset remain =>
  if remain < 20 then none
  else
    match skb.headerPointer offset 20 with
    | none => none
    | some tcpHeader =>
      let hdrSize := octet tcpHeader 12 / 16 * 4
      if hdrSize < 20 then none
      else if remain < hdrSize then none
      else if ip.totalLength < offset + hdrSize then none
      else some (ip.record type protocol hdrSize remain offset, -1)

/-- The size of a GRE header: a checksum, a key and a sequence number may be there. -/
def greHdrSize (greHdr : Nat) : Nat :=
  4 + (if greHdr &&& 0x80000000 ≠ 0 then 4 else 0) + (if greHdr &&& 0x20000000 ≠ 0 then 4 else 0) +
    (if greHdr &&& 0x10000000 ≠ 0 then 4 else 0)

/-- `ecm_tracker_ip_header_helper_gre`. -/
def headerHelperGre : HeaderHelper := fun ip skb protocol type offset remain =>
  if remain < 4 then none
  else
    match skb.headerPointer offset 4 with
    | none => none
    | some greHdr =>
      let hdrSize := greHdrSize (be32 greHdr 0)
      if remain < hdrSize then none
      else if ip.totalLength < offset + hdrSize then none
      else some (ip.record type protocol hdrSize remain offset, -1)

/-- `ecm_tracker_ip_header_helper_udp`. -/
def headerHelperUdp : HeaderHelper := fun ip _ protocol type offset remain =>
  if remain < 8 then none else some (ip.record type protocol 8 remain offset, -1)

/-- `ecm_tracker_ip_header_helper_unknown`. -/
def headerHelperUnknown : HeaderHelper := fun ip _ protocol type offset remain =>
  some (ip.record type protocol remain remain offset, -1)

/-- The least remainder for a type of ICMP message, and the size of its header. -/
def icmpSizes : (type : Nat) → Nat × Nat
  | 3 | 4 | 5 | 11 => (28, 8)
  | 13 | 17 | 18 => (12, 12)
  | 14 => (20, 20)
  | _ => (8, 8)

/-- `ecm_tracker_ip_header_helper_icmp`. -/
def headerHelperIcmp : HeaderHelper := fun ip skb protocol type offset remain =>
  if remain < 8 then none
  else
    match skb.headerPointer offset 8 with
    | none => none
    | some icmpHeader =>
      if remain < (icmpSizes (octet icmpHeader 0)).1 then none
      else some (ip.record type protocol (icmpSizes (octet icmpHeader 0)).2 remain offset, -1)

/-- The types of `ecm_tracker_ip_protocols_known`. The ICMP of IPv6 stands at 56 there. -/
def protocolsKnown : (protocol : Nat) → ProtocolType
  | 0 => .ipv6Hbh
  | 1 => .icmp
  | 6 => .tcp
  | 17 => .udp
  | 43 => .ipv6Routing
  | 44 => .ipv6Fragment
  | 47 => .gre
  | 51 => .ah
  | 56 => .ipv6Icmp
  | 60 => .ipv6Do
  | _ => .unknown

/-- The helpers of `ecm_tracker_ip_protocols_known`. -/
def ProtocolType.headerHelper (mapT : Bool) : ProtocolType → HeaderHelper
  | unknown => headerHelperUnknown
  | icmp => headerHelperIcmp
  | udp => headerHelperUdp
  | tcp => headerHelperTcp
  | gre => headerHelperGre
  | ipv6Routing => headerHelperIpv6Generic
  | ipv6Fragment => headerHelperIpv6Fragment mapT
  | ah => headerHelperAh
  | ipv6Icmp => headerHelperIpv6Icmp
  | ipv6Do => headerHelperIpv6Generic
  | ipv6Hbh => headerHelperIpv6Generic

/-! ### The walk -/

/-- The variables of the loop over the headers of an IPv6 packet. -/
structure Walk where
  ip : IpHeader
  offset : Nat
  remain : Nat
  thisHeader : Int
  prevHeader : Int

/-- The loop goes on. -/
def Walk.Goes (walk : Walk) : Prop := 0 < walk.remain ∧ 0 ≤ walk.thisHeader ∧ walk.thisHeader ≠ 59

instance (walk : Walk) : Decidable walk.Goes := inferInstanceAs (Decidable (_ ∧ _ ∧ _))

/-- The body of the loop. `remain` is of 16 bits. -/
def Walk.step (mapT : Bool) (skb : Skb) (walk : Walk) : Option Walk :=
  let type := protocolsKnown walk.thisHeader.toNat
  if (walk.ip.headers type).size ≠ 0 then none
  else
    match type.headerHelper mapT walk.ip skb walk.thisHeader.toNat type walk.offset walk.remain with
    | none => none
    | some (ip, nextHeader) =>
      some ⟨ip, walk.offset + (ip.headers type).size,
        (walk.remain + 65536 - (ip.headers type).size) % 65536,
        nextHeader, walk.thisHeader⟩

/-- The loop. It has no result if the fuel does not suffice, and `none` is its result when a header
is refused. -/
def Walk.run (mapT : Bool) (skb : Skb) : (fuel : Nat) → Walk → Option (Option Walk)
  | 0, _ => none
  | fuel + 1, walk =>
    if walk.Goes then
      match walk.step mapT skb with
      | none => some none
      | some next => Walk.run mapT skb fuel next
    else some (some walk)

/-- What is read from the header of an IPv4 packet. -/
def readV4 (v4Hdr : Skb) : IpHeader where
  isV4 := true
  protocol := octet v4Hdr 9
  fragmented := be16 v4Hdr 6 &&& 0x3fff != 0
  dscp := octet v4Hdr 1 / 4
  ds := octet v4Hdr 1
  ttl := octet v4Hdr 8
  ipHeaderLength := octet v4Hdr 0 % 16 * 4
  totalLength := be16 v4Hdr 2

/-- What is read from the header of an IPv6 packet. -/
def readV6 (v6Hdr : Skb) : IpHeader where
  isV4 := false
  dscp := octet v6Hdr 0 % 16 * 4 ||| octet v6Hdr 1 / 64
  ds := octet v6Hdr 0 % 16 * 16 + octet v6Hdr 1 / 16
  ttl := octet v6Hdr 7
  ipHeaderLength := 40
  totalLength := be16 v6Hdr 4 + 40

/-- The IPv4 part of `ecm_tracker_ip_check_header_and_read`. -/
def checkV4 (mapT : Bool) (skb v4Hdr : Skb) : Option IpHeader :=
  let ip := readV4 v4Hdr
  if ip.ipHeaderLength < 20 then none
  else if skb.length < ip.totalLength then none
  else
    ((protocolsKnown (octet v4Hdr 9)).headerHelper mapT ip skb (octet v4Hdr 9)
      (protocolsKnown (octet v4Hdr 9))
      ip.ipHeaderLength ((ip.totalLength + 65536 - ip.ipHeaderLength) % 65536)).map Prod.fst

/-- The IPv6 part. -/
def checkV6 (mapT : Bool) (fuel : Nat) (skb v6Hdr : Skb) : Option (Option IpHeader) :=
  let ip := readV6 v6Hdr
  if skb.length < ip.totalLength then some none
  else
    (Walk.run mapT skb fuel ⟨ip, 40, be16 v6Hdr 4, octet v6Hdr 6, octet v6Hdr 6⟩).map fun walk =>
      walk.map fun walk => { walk.ip with protocol := walk.prevHeader }

/-- A header of version 4 can be read. -/
def isV4 (skb : Skb) : Bool :=
  match skb.headerPointer 0 20 with
  | none => false
  | some v4Hdr => octet v4Hdr 0 / 16 == 4

/-- `ecm_tracker_ip_check_header_and_read`. The result is `none` where the function returns
false. -/
def checkHeaderAndRead (mapT : Bool) (fuel : Nat) (skb : Skb) : Option (Option IpHeader) :=
  if isV4 skb then some (checkV4 mapT skb (skb.take 20))
  else
    match skb.headerPointer 0 40 with
    | none => some none
    | some v6Hdr => if octet v6Hdr 0 / 16 = 6 then checkV6 mapT fuel skb v6Hdr else some none

/-! ### What a helper records -/

/-- What a helper that accepts has changed. Another header may follow one of at most 2048 bytes. -/
structure Recorded (ip ip' : IpHeader) (protocol : Nat) (type : ProtocolType) (offset remain : Nat)
    (next : Int) :
    Prop where
  frame : ip' = { ip with
    fragmented := ip'.fragmented, headers := Function.update ip.headers type (ip'.headers type) }
  protocolNumber : (ip'.headers type).protocolNumber = protocol
  offset_eq : (ip'.headers type).offset = offset % 65536
  headerSize_le : (ip'.headers type).headerSize ≤ (ip'.headers type).size
  size_le : (ip'.headers type).size ≤ remain
  next_or_last : 0 ≤ next ∧ 8 ≤ (ip'.headers type).size ∧ (ip'.headers type).size ≤ 2048 ∨
    next = -1 ∧ (ip'.headers type).size = remain

section Recorded

variable {ip ip' : IpHeader} {skb : Skb} {protocol offset remain : Nat} {type : ProtocolType}
    {next : Int} {mapT : Bool}

theorem Recorded.totalLength (recorded : Recorded ip ip' protocol type offset remain next) :
    ip'.totalLength = ip.totalLength := by rw [recorded.frame]

theorem Recorded.ipHeaderLength (recorded : Recorded ip ip' protocol type offset remain next) :
    ip'.ipHeaderLength = ip.ipHeaderLength := by rw [recorded.frame]

theorem Recorded.isV4 (recorded : Recorded ip ip' protocol type offset remain next) :
    ip'.isV4 = ip.isV4 := by
  rw [recorded.frame]

theorem Recorded.protocol_eq (recorded : Recorded ip ip' protocol type offset remain next) :
    ip'.protocol = ip.protocol := by rw [recorded.frame]

theorem Recorded.headers (recorded : Recorded ip ip' protocol type offset remain next) :
    ip'.headers = Function.update ip.headers type (ip'.headers type) :=
    congrArg IpHeader.headers recorded.frame

theorem recorded_next {size : Nat} {f : Bool} (least : 8 ≤ size) (most : size ≤ 2048)
    (fits : size ≤ remain) (header : Nat) :
    Recorded ip
      { ip.record type protocol size size offset with
        fragmented := f } protocol type offset remain header := by
  constructor <;> simp [IpHeader.record] <;> omega

theorem recorded_last {headerSize : Nat} (fits : headerSize ≤ remain) (short : remain < 65536) :
    Recorded ip (ip.record type protocol headerSize remain offset) protocol type offset remain
        (-1) := by
  constructor <;> simp [IpHeader.record] <;> omega

theorem headerHelperIpv6Generic_recorded
    (accepted : headerHelperIpv6Generic ip skb protocol type offset remain = some (ip', next)) :
    Recorded ip ip' protocol type offset remain next ∧ offset ≤ ip.totalLength := by
  simp only [headerHelperIpv6Generic, Option.ite_none_left_eq_some] at accepted
  obtain ⟨-, accepted⟩ := accepted
  split at accepted
  · cases accepted
  · rename_i genHeader _
    have small := octet_lt genHeader 1
    simp only [Option.ite_none_left_eq_some, Option.some.injEq, Prod.mk.injEq] at accepted
    obtain ⟨fits, within, rfl, rfl⟩ := accepted
    exact ⟨recorded_next (by omega) (by omega) (by omega) _, by omega⟩

theorem headerHelperIpv6Fragment_recorded
    (accepted : headerHelperIpv6Fragment mapT ip skb protocol type offset remain =
        some (ip', next)) :
    Recorded ip ip' protocol type offset remain next ∧ offset ≤ ip.totalLength := by
  simp only [headerHelperIpv6Fragment, Option.ite_none_left_eq_some] at accepted
  obtain ⟨least, accepted⟩ := accepted
  split at accepted
  · cases accepted
  · simp only [Option.ite_none_left_eq_some, Option.some.injEq, Prod.mk.injEq] at accepted
    obtain ⟨within, rfl, rfl⟩ := accepted
    exact ⟨recorded_next (by omega) (by omega) (by omega) _, by omega⟩

theorem headerHelperAh_recorded
    (accepted : headerHelperAh ip skb protocol type offset remain = some (ip', next)) :
    Recorded ip ip' protocol type offset remain next ∧ offset ≤ ip.totalLength := by
  simp only [headerHelperAh, Option.ite_none_left_eq_some] at accepted
  obtain ⟨-, accepted⟩ := accepted
  split at accepted
  · cases accepted
  · rename_i genHeader _
    have small := octet_lt genHeader 1
    simp only [Option.ite_none_left_eq_some, Option.some.injEq, Prod.mk.injEq] at accepted
    obtain ⟨-, fits, within, rfl, rfl⟩ := accepted
    exact ⟨recorded_next (by omega) (by omega) (by omega) _, by omega⟩

theorem headerHelperTcp_recorded (short : remain < 65536)
    (accepted : headerHelperTcp ip skb protocol type offset remain = some (ip', next)) :
    Recorded ip ip' protocol type offset remain next ∧ offset ≤ ip.totalLength := by
  simp only [headerHelperTcp, Option.ite_none_left_eq_some] at accepted
  obtain ⟨-, accepted⟩ := accepted
  split at accepted
  · cases accepted
  · simp only [Option.ite_none_left_eq_some, Option.some.injEq, Prod.mk.injEq] at accepted
    obtain ⟨-, fits, within, rfl, rfl⟩ := accepted
    exact ⟨recorded_last (by omega) short, by omega⟩

theorem headerHelperGre_recorded (short : remain < 65536)
    (accepted : headerHelperGre ip skb protocol type offset remain = some (ip', next)) :
    Recorded ip ip' protocol type offset remain next ∧ offset ≤ ip.totalLength := by
  simp only [headerHelperGre, Option.ite_none_left_eq_some] at accepted
  obtain ⟨-, accepted⟩ := accepted
  split at accepted
  · cases accepted
  · simp only [Option.ite_none_left_eq_some, Option.some.injEq, Prod.mk.injEq] at accepted
    obtain ⟨fits, within, rfl, rfl⟩ := accepted
    exact ⟨recorded_last (by omega) short, by omega⟩

theorem icmpSizes_le (type : Nat) : (icmpSizes type).2 ≤ (icmpSizes type).1 ∧
    (icmpSizes type).1 ≤ 28 := by
  unfold icmpSizes
  split <;> simp

theorem headerHelperIcmp_recorded (short : remain < 65536)
    (accepted : headerHelperIcmp ip skb protocol type offset remain = some (ip', next)) :
    Recorded ip ip' protocol type offset remain next := by
  simp only [headerHelperIcmp, Option.ite_none_left_eq_some] at accepted
  obtain ⟨-, accepted⟩ := accepted
  split at accepted
  · cases accepted
  · rename_i icmpHeader _
    have sizes := (icmpSizes_le (octet icmpHeader 0)).1
    simp only [Option.ite_none_left_eq_some, Option.some.injEq, Prod.mk.injEq] at accepted
    obtain ⟨fits, rfl, rfl⟩ := accepted
    exact recorded_last (by omega) short

/-- The types with a helper that does not look at the total length. -/
def ProtocolType.Unchecked (type : ProtocolType) : Prop :=
  type = .unknown ∨ type = .icmp ∨ type = .udp ∨ type = .ipv6Icmp

/-- **What a helper does when it accepts.** All but four have compared the start of the header with
the total length. -/
theorem headerHelper_recorded (short : remain < 65536)
    (accepted : type.headerHelper mapT ip skb protocol type offset remain = some (ip', next)) :
    Recorded ip ip' protocol type offset remain next ∧
        (offset ≤ ip.totalLength ∨ type.Unchecked) := by
  have small (headerSize least : Nat) (enough : headerSize ≤ least)
      (accepted :
        (if remain < least then none else
          some (ip.record type protocol headerSize remain offset, (-1 : Int))) =
        some (ip', next)) : Recorded ip ip' protocol type offset remain next := by
    simp only [Option.ite_none_left_eq_some, Option.some.injEq, Prod.mk.injEq] at accepted
    obtain ⟨fits, rfl, rfl⟩ := accepted
    exact recorded_last (by omega) short
  cases type with
  | unknown =>
    simp only [ProtocolType.headerHelper, headerHelperUnknown, Option.some.injEq, Prod.mk.injEq]
      at accepted
    obtain ⟨rfl, rfl⟩ := accepted
    exact ⟨recorded_last le_rfl short, .inr (.inl rfl)⟩
  | icmp => exact ⟨headerHelperIcmp_recorded short accepted, .inr (.inr (.inl rfl))⟩
  | udp => exact ⟨small 8 8 le_rfl accepted, .inr (.inr (.inr (.inl rfl)))⟩
  | tcp => exact (headerHelperTcp_recorded short accepted).imp_right .inl
  | gre => exact (headerHelperGre_recorded short accepted).imp_right .inl
  | ipv6Routing => exact (headerHelperIpv6Generic_recorded accepted).imp_right .inl
  | ipv6Fragment => exact (headerHelperIpv6Fragment_recorded accepted).imp_right .inl
  | ah => exact (headerHelperAh_recorded accepted).imp_right .inl
  | ipv6Icmp => exact ⟨small 4 4 le_rfl accepted, .inr (.inr (.inr (.inr rfl)))⟩
  | ipv6Do => exact (headerHelperIpv6Generic_recorded accepted).imp_right .inl
  | ipv6Hbh => exact (headerHelperIpv6Generic_recorded accepted).imp_right .inl

end Recorded

/-! ### A chain of headers -/

/-- The headers that are recorded, in their order. They are between `start` and `stop`, each one
after the other. -/
structure HeaderChain (headers : ProtocolType → ProtocolHeader) (start stop : Nat)
    (chain : List (ProtocolType × ProtocolHeader)) : Prop where
  nodup : (chain.map Prod.fst).Nodup
  recorded : ∀ entry ∈ chain, headers entry.1 = entry.2
  unrecorded : ∀ type, type ∉ chain.map Prod.fst → headers type = {}
  within : ∀ entry ∈ chain,
    start ≤ entry.2.offset ∧ entry.2.headerSize ≤ entry.2.size ∧
    entry.2.offset + entry.2.size ≤ stop
  consecutive : chain.IsChain fun a b => b.2.offset = a.2.offset + a.2.size
  disjoint : chain.Pairwise fun a b => a.2.offset + a.2.size ≤ b.2.offset

theorem HeaderChain.nil (start stop : Nat) : HeaderChain (fun _ => {}) start stop [] := by
  constructor <;> simp

theorem HeaderChain.mono {headers : ProtocolType → ProtocolHeader} {start stop stop' : Nat}
    {chain : List (ProtocolType × ProtocolHeader)} (valid : HeaderChain headers start stop chain)
    (le : stop ≤ stop') :
    HeaderChain headers start stop' chain :=
  { valid with within := fun entry member => by have := valid.within entry member; omega }

/-- A header that starts where the last one ends is put behind it. -/
theorem HeaderChain.append {headers : ProtocolType → ProtocolHeader} {start stop : Nat}
    {chain : List (ProtocolType × ProtocolHeader)} (valid : HeaderChain headers start stop chain)
    (ends : ∀ entry ∈ chain.getLast?, entry.2.offset + entry.2.size = stop) {type : ProtocolType}
    {header : ProtocolHeader} (new : type ∉ chain.map Prod.fst) (here : header.offset = stop)
    (after : start ≤ stop) (sizes : header.headerSize ≤ header.size) :
    HeaderChain (Function.update headers type header) start (stop + header.size)
        (chain ++ [(type, header)]) where
  nodup := by
    rw [List.map_append, List.nodup_append]
    refine ⟨valid.nodup, by simp, ?_⟩
    rintro other member _ same rfl
    simp only [List.map_cons, List.map_nil, List.mem_singleton] at same
    exact new (same ▸ member)
  recorded := by
    intro entry member
    rcases List.mem_append.mp member with member | member
    · have other : entry.1 ≠ type := fun same => new (same ▸ List.mem_map_of_mem member)
      rw [Function.update_of_ne other, valid.recorded entry member]
    · rw [List.mem_singleton.mp member, Function.update_self]
  unrecorded := by
    intro other absent
    simp only [List.map_append, List.map_cons, List.map_nil, List.mem_append, List.mem_singleton,
      not_or] at absent
    rw [Function.update_of_ne absent.2, valid.unrecorded other absent.1]
  within := by
    intro entry member
    rcases List.mem_append.mp member with member | member
    · have := valid.within entry member
      omega
    · rw [List.mem_singleton.mp member]
      exact ⟨here ▸ after, sizes, by rw [here]⟩
  consecutive := by
    rw [List.isChain_append]
    refine ⟨valid.consecutive, List.isChain_singleton _, ?_⟩
    intro entry member last same
    cases Option.some.inj same
    exact here.trans (ends entry member).symm
  disjoint := by
    rw [List.pairwise_append]
    refine ⟨valid.disjoint, List.pairwise_singleton _ _, ?_⟩
    rintro entry member _ same
    rw [List.mem_singleton.mp same, here]
    exact (valid.within entry member).2.2

/-- The only header of a packet. -/
theorem HeaderChain.single {start : Nat} (type : ProtocolType) {header : ProtocolHeader}
    (here : header.offset = start) (sizes : header.headerSize ≤ header.size) :
    HeaderChain (Function.update (fun _ => {}) type header) start (start + header.size)
        [(type, header)] :=
  (HeaderChain.nil start start).append (by simp) List.not_mem_nil here le_rfl sizes

/-- A type with a size is in the chain. -/
theorem HeaderChain.mem_of_size {headers : ProtocolType → ProtocolHeader} {start stop : Nat}
    {chain : List (ProtocolType × ProtocolHeader)} (valid : HeaderChain headers start stop chain)
    (type : ProtocolType) (size : (headers type).size ≠ 0) : (type, headers type) ∈ chain := by
  by_cases member : type ∈ chain.map Prod.fst
  · obtain ⟨entry, inside, rfl⟩ := List.mem_map.mp member
    rw [valid.recorded entry inside]
    exact inside
  · exact absurd (congrArg ProtocolHeader.size (valid.unrecorded type member)) size

/-- No type is in a chain twice. -/
theorem HeaderChain.length_le {headers : ProtocolType → ProtocolHeader} {start stop : Nat}
    {chain : List (ProtocolType × ProtocolHeader)} (valid : HeaderChain headers start stop chain) :
        chain.length ≤ 11 := by
  have short := valid.nodup.length_le_card
  rwa [List.length_map] at short

/-! ### The walk over an IPv6 packet -/

section Walk

variable {mapT : Bool} {skb : Skb} {total : Nat} {walk next : Walk}
    {chain : List (ProtocolType × ProtocolHeader)}

/-- What the loop keeps. While it goes on all headers were small, so that an offset fits into 16
bits. -/
structure Walk.Inv (total : Nat) (chain : List (ProtocolType × ProtocolHeader)) (walk : Walk) :
    Prop where
  isV4 : walk.ip.isV4 = false
  ipHeaderLength : walk.ip.ipHeaderLength = 40
  totalLength : walk.ip.totalLength = total
  total_eq : walk.offset + walk.remain = total
  remain_lt : walk.remain < 65536
  offset_ge : 40 ≤ walk.offset
  valid : HeaderChain walk.ip.headers 40 walk.offset chain
  ends : ∀ entry ∈ chain.getLast?, entry.2.offset + entry.2.size = walk.offset
  last : ∀ entry ∈ chain.getLast?, (entry.2.protocolNumber : Int) = walk.prevHeader
  positive : ∀ entry ∈ chain, 0 < entry.2.size
  small : walk.Goes → walk.offset ≤ 40 + 2048 * chain.length

/-- The header that is recorded in a round is put behind the chain, and less remains. -/
theorem Walk.Inv.step (inv : walk.Inv total chain) (goes : walk.Goes)
    (stepped : walk.step mapT skb = some next) :
    next.remain < walk.remain ∧ ∃ entry, next.Inv total (chain ++ [entry]) := by
  simp only [Walk.step, Option.ite_none_left_eq_some, ne_eq, not_not] at stepped
  generalize protocolsKnown walk.thisHeader.toNat = type at stepped
  obtain ⟨fresh, stepped⟩ := stepped
  split at stepped
  · cases stepped
  · rename_i ip nextHeader accepted
    cases Option.some.inj stepped
    obtain ⟨recorded, -⟩ := headerHelper_recorded inv.remain_lt accepted
    have new : type ∉ chain.map Prod.fst := by
      intro old
      obtain ⟨entry, member, rfl⟩ := List.mem_map.mp old
      have positive := inv.positive entry member
      rw [← inv.valid.recorded entry member] at positive
      omega
    have offset_le := inv.small goes
    have length_le := inv.valid.length_le
    have total_eq := inv.total_eq
    have remain_lt := inv.remain_lt
    have offset_eq : (ip.headers type).offset = walk.offset := by
      rw [recorded.offset_eq, Nat.mod_eq_of_lt (by omega)]
    have size_le := recorded.size_le
    have positive : 0 < (ip.headers type).size := by
      have remain := goes.1
      have sizes := recorded.next_or_last
      omega
    have remain_eq : (walk.remain + 65536 - (ip.headers type).size) % 65536 =
        walk.remain - (ip.headers type).size := by omega
    refine ⟨by simp only [remain_eq]; omega, (type, ip.headers type), ?_⟩
    exact {
      isV4 := recorded.isV4.trans inv.isV4
      ipHeaderLength := recorded.ipHeaderLength.trans inv.ipHeaderLength
      totalLength := recorded.totalLength.trans inv.totalLength
      total_eq := by
        simp only [remain_eq]
        omega
      remain_lt := by
        simp only [remain_eq]
        omega
      offset_ge := inv.offset_ge.trans (Nat.le_add_right _ _)
      valid := by
        rw [recorded.headers]
        simpa using inv.valid.append inv.ends new offset_eq inv.offset_ge recorded.headerSize_le
      ends := by simp [offset_eq]
      last := by simp [recorded.protocolNumber, Int.toNat_of_nonneg goes.2.1]
      positive := by
        intro entry member
        rcases List.mem_append.mp member with member | member
        · exact inv.positive entry member
        · rw [List.mem_singleton.mp member]
          exact positive
      small := by
        rintro ⟨-, again, -⟩
        have sizes := recorded.next_or_last
        simp only [List.length_append, List.length_singleton] at *
        omega }

/-- The whole loop: it ends, and a result keeps what the loop keeps. -/
theorem Walk.Inv.run (inv : walk.Inv total chain) {fuel : Nat} :
    (walk.remain < fuel → Walk.run mapT skb fuel walk ≠ none) ∧
      ∀ next, Walk.run mapT skb fuel walk = some (some next) → ∃ chain, next.Inv total chain := by
  induction fuel generalizing walk chain with
  | zero => exact ⟨fun less => absurd less (Nat.not_lt_zero _), fun _ ran => by cases ran⟩
  | succ fuel ih =>
    by_cases goes : walk.Goes
    · cases stepped : walk.step mapT skb with
      | none => simp [Walk.run, goes, stepped]
      | some following =>
        obtain ⟨less, entry, inv'⟩ := inv.step goes stepped
        simp only [Walk.run, goes, stepped, if_true]
        exact ⟨fun enough => (ih inv').1 (by omega), (ih inv').2⟩
    · simp only [Walk.run, goes, if_false]
      exact ⟨fun _ ran => (by cases ran), fun next same => ⟨chain, by cases same; exact inv⟩⟩

end Walk

/-! ### The result -/

/-- The recorded headers are in the packet and follow each other, and the protocol is that of the
last one. -/
structure Within (skb : Skb) (ip : IpHeader) (chain : List (ProtocolType × ProtocolHeader)) :
    Prop where
  valid : HeaderChain ip.headers ip.ipHeaderLength ip.totalLength chain
  totalLength_le : ip.totalLength ≤ skb.length
  protocol : ∀ entry ∈ chain.getLast?, ip.protocol = entry.2.protocolNumber
  totalLength_v6 : ip.isV4 = false → ip.totalLength = be16 skb 4 + 40

/-- The walk ends, and what it reports is in the packet. -/
structure Right (mapT : Bool) (skb : Skb) : Prop where
  ends : ∃ enough, ∀ fuel ≥ enough, checkHeaderAndRead mapT fuel skb ≠ none
  within : ∀ fuel ip, checkHeaderAndRead mapT fuel skb = some (some ip) →
    ∃ chain, Within skb ip chain

/-- The type of the header in an IPv4 packet. -/
def typeV4 (skb : Skb) : ProtocolType := protocolsKnown (octet (skb.take 20) 9)

/-- An IPv4 packet with a total length below its header length, and a protocol that lets it pass.
For ICMP there must be 8 bytes behind the header all the same. -/
structure Underflows (skb : Skb) : Prop where
  version : isV4 skb = true
  ipHeaderLength_ge : 20 ≤ (readV4 (skb.take 20)).ipHeaderLength
  totalLength_le : (readV4 (skb.take 20)).totalLength ≤ skb.length
  less : (readV4 (skb.take 20)).totalLength < (readV4 (skb.take 20)).ipHeaderLength
  unchecked : (typeV4 skb).Unchecked
  readable : typeV4 skb = .icmp → (readV4 (skb.take 20)).ipHeaderLength + 8 ≤ skb.length

theorem octet_take {skb : Skb} {i len : Nat} (less : i < len) :
    octet (skb.take len) i = octet skb i := by
  simp [octet, List.getD_eq_getElem?_getD, less]

theorem readV4_ipHeaderLength_le (v4Hdr : Skb) : (readV4 v4Hdr).ipHeaderLength ≤ 60 := by
  simp only [readV4]
  omega

theorem readV4_totalLength_lt (v4Hdr : Skb) : (readV4 v4Hdr).totalLength < 65536 := be16_lt v4Hdr 2

/-- The helper for ICMP has read 8 bytes. -/
theorem headerHelper_readable {mapT : Bool} {ip ip' : IpHeader} {skb : Skb}
    {protocol offset remain : Nat} {next : Int}
        (accepted : ProtocolType.icmp.headerHelper mapT ip skb protocol .icmp offset remain =
          some (ip', next)) :
    offset + 8 ≤ skb.length := by
  simp only [ProtocolType.headerHelper, headerHelperIcmp, Option.ite_none_left_eq_some] at accepted
  obtain ⟨-, accepted⟩ := accepted
  split at accepted
  · cases accepted
  · rename_i icmpHeader pointer
    exact (Skb.headerPointer_eq_some.mp pointer).1

/-- The helpers that do not look at the total length accept any long remainder, and record it. -/
theorem headerHelper_unchecked (mapT : Bool) (ip : IpHeader) {skb : Skb} (protocol : Nat)
    {offset : Nat} (remain : Nat) {type : ProtocolType} (unchecked : type.Unchecked)
    (readable : type = .icmp → offset + 8 ≤ skb.length) (long : 28 ≤ remain) :
    ∃ headerSize, type.headerHelper mapT ip skb protocol type offset remain =
      some (ip.record type protocol headerSize remain offset, -1) := by
  rcases unchecked with rfl | rfl | rfl | rfl
  · exact ⟨remain, rfl⟩
  · have pointer := Skb.headerPointer_eq_some.mpr ⟨readable rfl, rfl⟩
    have sizes := icmpSizes_le (octet ((skb.drop offset).take 8) 0)
    refine ⟨(icmpSizes (octet ((skb.drop offset).take 8) 0)).2, ?_⟩
    simp only [ProtocolType.headerHelper, headerHelperIcmp, pointer]
    rw [if_neg (by omega), if_neg (by omega)]
  · exact ⟨8, if_neg (by omega)⟩
  · exact ⟨4, if_neg (by omega)⟩

theorem checkHeaderAndRead_v4 {mapT : Bool} {fuel : Nat} {skb : Skb} (version : isV4 skb = true) :
    checkHeaderAndRead mapT fuel skb = some (checkV4 mapT skb (skb.take 20)) := by
  rw [checkHeaderAndRead, if_pos version]

theorem checkV4_eq {mapT : Bool} {skb v4Hdr : Skb}
    (ipHeaderLength_ge : 20 ≤ (readV4 v4Hdr).ipHeaderLength)
    (totalLength_le : (readV4 v4Hdr).totalLength ≤ skb.length) :
    checkV4 mapT skb v4Hdr =
      ((protocolsKnown (octet v4Hdr 9)).headerHelper mapT (readV4 v4Hdr) skb (octet v4Hdr 9)
        (protocolsKnown (octet v4Hdr 9)) (readV4 v4Hdr).ipHeaderLength
        (((readV4 v4Hdr).totalLength + 65536 - (readV4 v4Hdr).ipHeaderLength) % 65536)).map
            Prod.fst := by
  rw [checkV4, if_neg (by omega), if_neg (by omega)]

/-- An IPv4 packet that does not underflow. -/
theorem checkV4_within {mapT : Bool} {skb : Skb} {ip : IpHeader} (version : isV4 skb = true)
    (fits : ¬ Underflows skb) (accepted : checkV4 mapT skb (skb.take 20) = some ip) :
        ∃ chain, Within skb ip chain := by
  simp only [checkV4, Option.ite_none_left_eq_some, Option.map_eq_some_iff] at accepted
  obtain ⟨ipHeaderLength_ge, totalLength_le, ⟨_, next⟩, accepted, rfl⟩ := accepted
  change (typeV4 skb).headerHelper _ _ _ _ (typeV4 skb) _ _ = _ at accepted
  have ipHeaderLength_le := readV4_ipHeaderLength_le (skb.take 20)
  have totalLength_lt := readV4_totalLength_lt (skb.take 20)
  obtain ⟨recorded, checked⟩ := headerHelper_recorded (Nat.mod_lt _ (by decide)) accepted
  have enough : (readV4 (skb.take 20)).ipHeaderLength ≤ (readV4 (skb.take 20)).totalLength := by
    by_contra less
    refine fits ⟨version, by omega, by omega, by omega, checked.resolve_left less, fun icmp => ?_⟩
    rw [icmp] at accepted
    exact headerHelper_readable accepted
  rename_i ip
  have headers : ip.headers = Function.update (fun _ => {}) (typeV4 skb)
      (ip.headers (typeV4 skb)) :=
    recorded.headers
  have size_le := recorded.size_le
  have offset_eq : (ip.headers (typeV4 skb)).offset = (readV4 (skb.take 20)).ipHeaderLength := by
    rw [recorded.offset_eq, Nat.mod_eq_of_lt (by omega)]
  have one := HeaderChain.single (typeV4 skb) offset_eq recorded.headerSize_le
  rw [← headers] at one
  refine ⟨[(typeV4 skb, ip.headers (typeV4 skb))], ?_⟩
  exact {
    valid := by
      rw [recorded.ipHeaderLength, recorded.totalLength]
      exact one.mono (by omega)
    totalLength_le := by
      rw [recorded.totalLength]
      omega
    protocol := by
      intro entry same
      cases Option.some.inj same
      rw [recorded.protocol_eq, List.getLast_singleton, recorded.protocolNumber]
      rfl
    totalLength_v6 := by
      rw [recorded.isV4]
      exact fun v6 => Bool.noConfusion v6 }

/-- The loop over an IPv6 packet starts with an empty chain. -/
theorem inv_readV6 (v6Hdr : Skb) :
    (Walk.mk (readV6 v6Hdr) 40 (be16 v6Hdr 4) (octet v6Hdr 6) (octet v6Hdr 6)).Inv
        (be16 v6Hdr 4 + 40) [] where
  isV4 := rfl
  ipHeaderLength := rfl
  totalLength := rfl
  total_eq := Nat.add_comm _ _
  remain_lt := be16_lt v6Hdr 4
  offset_ge := le_rfl
  valid := HeaderChain.nil 40 40
  ends := by simp
  last := by simp
  positive := by simp
  small := fun _ => le_rfl

theorem checkV6_ends {mapT : Bool} {fuel : Nat} {skb v6Hdr : Skb} (enough : 65536 ≤ fuel) :
    checkV6 mapT fuel skb v6Hdr ≠ none := by
  simp only [checkV6]
  split
  · exact Option.some_ne_none _
  · rw [Ne, Option.map_eq_none_iff]
    exact (inv_readV6 v6Hdr).run.1 ((be16_lt v6Hdr 4).trans_le enough)

/-- What is reported of an IPv6 packet is in it. -/
theorem checkV6_within {mapT : Bool} {fuel : Nat} {skb : Skb} {ip : IpHeader}
    (accepted : checkV6 mapT fuel skb (skb.take 40) = some (some ip)) :
        ∃ chain, Within skb ip chain := by
  simp only [checkV6] at accepted
  split at accepted
  · cases accepted
  · rename_i long
    obtain ⟨result, ran, accepted⟩ := Option.map_eq_some_iff.mp accepted
    obtain ⟨walk, rfl, rfl⟩ := Option.map_eq_some_iff.mp accepted
    obtain ⟨chain, inv⟩ := (inv_readV6 (skb.take 40)).run.2 walk ran
    have total_eq := inv.total_eq
    refine ⟨chain, ?_⟩
    exact {
      valid := by
        rw [inv.ipHeaderLength, inv.totalLength]
        exact inv.valid.mono (by omega)
      totalLength_le := by
        rw [inv.totalLength]
        exact Nat.le_of_not_lt long
      protocol := fun entry last => (inv.last entry last).symm
      totalLength_v6 := by
        intro _
        rw [inv.totalLength, be16, octet_take (by decide), octet_take (by decide)]
        rfl }

/-- What is reported of a packet that underflows ends behind it. -/
theorem not_within_of_underflows (mapT : Bool) {skb : Skb} (underflows : Underflows skb) :
    ∃ ip, checkV4 mapT skb (skb.take 20) = some ip ∧ ¬ ∃ chain, Within skb ip chain := by
  have ipHeaderLength_le := readV4_ipHeaderLength_le (skb.take 20)
  have ipHeaderLength_ge := underflows.ipHeaderLength_ge
  have totalLength_le := underflows.totalLength_le
  have less := underflows.less
  obtain ⟨headerSize, accepted⟩ := headerHelper_unchecked mapT (readV4 (skb.take 20))
    (octet (skb.take 20) 9)
    (((readV4 (skb.take 20)).totalLength + 65536 - (readV4 (skb.take 20)).ipHeaderLength) % 65536)
    underflows.unchecked underflows.readable (by omega)
  refine ⟨_, (checkV4_eq ipHeaderLength_ge totalLength_le).trans
    (congrArg (Option.map Prod.fst) accepted), ?_⟩
  rintro ⟨chain, within⟩
  have member := within.valid.mem_of_size (typeV4 skb)
    (by simp only [IpHeader.record, Function.update_self]; omega)
  have inside := (within.valid.within _ member).2.2
  simp only [IpHeader.record, Function.update_self] at inside
  omega

/-- **The walk ends, and reports nothing outside the packet, if and only if the packet is not an
IPv4 packet with a total length below its header length that its helper lets pass.** -/
theorem checkHeaderAndRead_right_iff (mapT : Bool) (skb : Skb) : Right mapT skb ↔
    ¬ Underflows skb := by
  constructor
  · intro right underflows
    obtain ⟨ip, accepted, outside⟩ := not_within_of_underflows mapT underflows
    exact outside (right.within 0 ip (by rw [checkHeaderAndRead_v4 underflows.version, accepted]))
  · intro fits
    constructor
    · refine ⟨65536, fun fuel enough => ?_⟩
      unfold checkHeaderAndRead
      split
      · exact Option.some_ne_none _
      · split
        · exact Option.some_ne_none _
        · split
          · exact checkV6_ends enough
          · exact Option.some_ne_none _
    · intro fuel ip accepted
      unfold checkHeaderAndRead at accepted
      split at accepted
      · rename_i version
        exact checkV4_within version fits (Option.some.inj accepted)
      · split at accepted
        · cases accepted
        · rename_i v6Hdr pointer
          split at accepted
          · obtain ⟨-, rfl⟩ := Skb.headerPointer_eq_some.mp pointer
            exact checkV6_within accepted
          · cases accepted

/-- An IPv4 header of 20 bytes, with a total length of 10, for UDP. -/
def shortPacket : Skb := [0x45, 0, 0, 10, 0, 0, 0, 0, 64, 17, 0, 0, 10, 0, 0, 1, 10, 0, 0, 2]

theorem underflows_shortPacket : Underflows shortPacket where
  version := by decide
  ipHeaderLength_ge := by decide
  totalLength_le := by decide
  less := by decide
  unchecked := .inr (.inr (.inl rfl))
  readable := fun icmp => by cases icmp

/-- A datagram of 65526 bytes is reported in a packet of 20. -/
theorem datagram_behind_packet :
    (checkHeaderAndRead false 0 shortPacket).map
    (·.map fun ip => (ip.totalLength, ip.headers .udp)) =
        some (some (10, ⟨17, 8, 65526, 20⟩)) ∧ ¬ Right false shortPacket := by
  refine ⟨by decide, fun right => ?_⟩
  obtain ⟨ip, accepted, outside⟩ := not_within_of_underflows false underflows_shortPacket
  exact outside
    (right.within 0 ip (by rw [checkHeaderAndRead_v4 underflows_shortPacket.version, accepted]))

end Qsdk.Tracker
