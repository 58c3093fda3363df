/-
**What forwarding leaves of a packet.**

A handler edits a packet in steps. `Segment` is the part that its sender and its receiver see: the
endpoints, the protocol, the segment with its checksum, and what is known of that checksum. The type
of service, the time to live and the marks are no part of it. Every step changes it in one way, and
`Ipv4.forward_segment` puts them together: the endpoints are translated
(`ConnectionMatch.translate`), the checksum field is adjusted (`Ipv4.udpCheck`, `Ipv4.tcpCheck`),
and nothing else of the segment changes. The checksum of the header is computed last, unless the
device does that (`Ipv4.forward_ipCheck`).
-/

import Qsdk.Sfe.Forward

namespace Qsdk.Sfe

/-- The part of a packet that its sender and its receiver see. -/
structure Segment extends Endpoints where
  versionIhl : BitVec 8
  protocol : BitVec 8
  check : BitVec 16
  segmentLen : BitVec 16
  words : List (BitVec 16)
  ipSummed : IpSummed
deriving DecidableEq

def Ipv4Packet.segment (packet : Ipv4Packet) : Segment where
  toEndpoints := packet.toEndpoints
  versionIhl := packet.versionIhl
  protocol := packet.protocol
  check := packet.check
  segmentLen := packet.segmentLen
  words := packet.words
  ipSummed := packet.ipSummed

/-- What a match makes of the endpoints of a packet. -/
def ConnectionMatch.translate (cm : ConnectionMatch Ipv4Addr) (ends : Endpoints) : Endpoints where
  saddr := if cm.flags.xlateSrc then cm.xlateSrcIp else ends.saddr
  source := if cm.flags.xlateSrc then cm.xlateSrcPort else ends.source
  daddr := if cm.flags.xlateDest then cm.xlateDestIp else ends.daddr
  dest := if cm.flags.xlateDest then cm.xlateDestPort else ends.dest

namespace Ipv4

/-- The checksum field of a UDP packet after one translation. -/
def udpAdjusted (applies : Bool) (check adjustment : BitVec 16) : BitVec 16 :=
  if applies && check != 0 then adjust check adjustment else check

/-- The checksum field of a TCP packet after one translation. -/
def tcpAdjusted (applies : Bool) (check adjustment : BitVec 16) : BitVec 16 :=
  if applies then adjust check adjustment else check

section Forward

variable (cm : ConnectionMatch Ipv4Addr) (hw tunOuter : Bool) (packet : Ipv4Packet)

/-- The checksum field of a UDP packet after both translations. -/
def udpCheck : BitVec 16 :=
  udpAdjusted (cm.flags.xlateDest && !hw)
    (udpAdjusted (cm.flags.xlateSrc && !hw) packet.check (srcAdjustment cm packet))
    (destAdjustment cm packet)

/-- The checksum field of a TCP packet after both translations. -/
def tcpCheck : BitVec 16 :=
  tcpAdjusted (cm.flags.xlateDest && !hw)
    (tcpAdjusted (cm.flags.xlateSrc && !hw) packet.check (srcAdjustment cm packet))
    (destAdjustment cm packet)

/-! ### The steps -/

theorem udpXlateSrc_segment :
    (udpXlateSrc cm hw packet).segment =
      { packet.segment with
        saddr := if cm.flags.xlateSrc then cm.xlateSrcIp else packet.saddr
        source := if cm.flags.xlateSrc then cm.xlateSrcPort else packet.source
        check := udpAdjusted (cm.flags.xlateSrc && !hw) packet.check
            (srcAdjustment cm packet) } := by
  unfold udpXlateSrc udpAdjusted
  dsimp only
  cases cm.flags.xlateSrc <;> cases hw <;> cases packet.check != 0 <;> rfl

theorem udpXlateDest_segment :
    (udpXlateDest cm hw packet).segment =
      { packet.segment with
        daddr := if cm.flags.xlateDest then cm.xlateDestIp else packet.daddr
        dest := if cm.flags.xlateDest then cm.xlateDestPort else packet.dest
        check := udpAdjusted (cm.flags.xlateDest && !hw) packet.check
            (destAdjustment cm packet) } := by
  unfold udpXlateDest udpAdjusted
  dsimp only
  cases cm.flags.xlateDest <;> cases hw <;> cases packet.check != 0 <;> rfl

theorem tcpXlateSrc_segment :
    (tcpXlateSrc cm hw packet).segment =
      { packet.segment with
        saddr := if cm.flags.xlateSrc then cm.xlateSrcIp else packet.saddr
        source := if cm.flags.xlateSrc then cm.xlateSrcPort else packet.source
        check := tcpAdjusted (cm.flags.xlateSrc && !hw) packet.check
            (srcAdjustment cm packet) } := by
  unfold tcpXlateSrc tcpAdjusted
  dsimp only
  cases cm.flags.xlateSrc <;> cases hw <;> rfl

theorem tcpXlateDest_segment :
    (tcpXlateDest cm hw packet).segment =
      { packet.segment with
        daddr := if cm.flags.xlateDest then cm.xlateDestIp else packet.daddr
        dest := if cm.flags.xlateDest then cm.xlateDestPort else packet.dest
        check := tcpAdjusted (cm.flags.xlateDest && !hw) packet.check
            (destAdjustment cm packet) } := by
  unfold tcpXlateDest tcpAdjusted
  dsimp only
  cases cm.flags.xlateDest <;> cases hw <;> rfl

theorem remarkTos_segment : (remarkTos cm packet).segment = packet.segment := by
  unfold remarkTos
  cases cm.flags.dscpRemark <;> rfl

theorem age_segment (bridge : Bool) (ttl : BitVec 8) :
    (if bridge then packet else { packet with ttl := ttl }).segment = packet.segment := by
  cases bridge <;> rfl

/-! ### All of them -/

/-- What is known of the checksum chooses the adjustment, and the segment tells it. -/
theorem destAdjustment_congr {packet other : Ipv4Packet} (same : other.ipSummed = packet.ipSummed) :
    destAdjustment cm other = destAdjustment cm packet := by
  rw [destAdjustment, same, destAdjustment]

theorem udpXlate_segment :
    (udpXlateDest cm hw (udpXlateSrc cm hw packet)).segment =
      { packet.segment with
        toEndpoints := cm.translate packet.toEndpoints
        check := udpCheck cm hw packet } := by
  have first := udpXlateSrc_segment cm hw packet
  generalize udpXlateSrc cm hw packet = middle at first ⊢
  have check : middle.check =
      udpAdjusted (cm.flags.xlateSrc && !hw) packet.check (srcAdjustment cm packet) :=
    congrArg Segment.check first
  have ipSummed : middle.ipSummed = packet.ipSummed := congrArg Segment.ipSummed first
  have daddr : middle.daddr = packet.daddr := congrArg (fun s => s.daddr) first
  have dest : middle.dest = packet.dest := congrArg (fun s => s.dest) first
  rw [udpXlateDest_segment, first, check, destAdjustment_congr cm ipSummed, daddr, dest]
  rfl

theorem tcpXlate_segment :
    (tcpXlateDest cm hw (tcpXlateSrc cm hw packet)).segment =
      { packet.segment with
        toEndpoints := cm.translate packet.toEndpoints
        check := tcpCheck cm hw packet } := by
  have first := tcpXlateSrc_segment cm hw packet
  generalize tcpXlateSrc cm hw packet = middle at first ⊢
  have check : middle.check =
      tcpAdjusted (cm.flags.xlateSrc && !hw) packet.check (srcAdjustment cm packet) :=
    congrArg Segment.check first
  have ipSummed : middle.ipSummed = packet.ipSummed := congrArg Segment.ipSummed first
  have daddr : middle.daddr = packet.daddr := congrArg (fun s => s.daddr) first
  have dest : middle.dest = packet.dest := congrArg (fun s => s.dest) first
  rw [tcpXlateDest_segment, first, check, destAdjustment_congr cm ipSummed, daddr, dest]
  rfl

/-- A UDP packet goes out with its endpoints translated and its checksum field adjusted. -/
theorem udpForward_segment :
    (udpForward cm tunOuter packet).segment =
      { packet.segment with
        toEndpoints := cm.translate packet.toEndpoints
        check := udpCheck cm (hwCsum cm packet) packet
        ipSummed := if hwCsum cm packet then .incomplete else packet.ipSummed } := by
  unfold udpForward
  generalize hwCsum cm packet = hw
  dsimp only
  have translated := udpXlate_segment cm hw packet
  generalize udpXlateDest cm hw (udpXlateSrc cm hw packet) = middle at translated ⊢
  have aged := age_segment middle cm.flags.bridgeFlow (middle.ttl - if tunOuter then 0 else 1)
  generalize (if cm.flags.bridgeFlow then middle
    else { middle with ttl := middle.ttl - if tunOuter then 0 else 1 }) = old at aged ⊢
  have remarked := remarkTos_segment cm old
  generalize remarkTos cm old = last at remarked ⊢
  have whole := remarked.trans (aged.trans translated)
  cases hw
  · exact whole
  · show { last.segment with ipSummed := .incomplete } = _
    rw [whole]
    rfl

/-- The choices of a handler depend on the segment alone. -/
theorem hwCsum_congr {packet other : Ipv4Packet} (same : other.segment = packet.segment) :
    hwCsum cm other = hwCsum cm packet := by
  have ipSummed : other.ipSummed = packet.ipSummed := congrArg Segment.ipSummed same
  rw [hwCsum, ipSummed, hwCsum]

theorem tcpCheck_congr {packet other : Ipv4Packet} (same : other.segment = packet.segment) :
    tcpCheck cm hw other = tcpCheck cm hw packet := by
  have ipSummed : other.ipSummed = packet.ipSummed := congrArg Segment.ipSummed same
  have check : other.check = packet.check := congrArg Segment.check same
  rw [tcpCheck, srcAdjustment, destAdjustment, ipSummed, check, tcpCheck, srcAdjustment,
    destAdjustment]

/-- A TCP packet goes out with its endpoints translated and its checksum field adjusted, and its
checksum counts as verified. -/
theorem tcpForward_segment :
    (tcpForward cm packet).segment =
      { packet.segment with
        toEndpoints := cm.translate packet.toEndpoints
        check := tcpCheck cm (hwCsum cm packet) packet
        ipSummed := if hwCsum cm packet then .incomplete else .unnecessary } := by
  unfold tcpForward
  dsimp only
  have remarked := remarkTos_segment cm packet
  generalize remarkTos cm packet = middle at remarked ⊢
  have aged := age_segment middle cm.flags.bridgeFlow (middle.ttl - 1)
  generalize (if cm.flags.bridgeFlow then middle else { middle with ttl := middle.ttl - 1 }) = old
    at aged ⊢
  have whole : old.segment = packet.segment := aged.trans remarked
  have ends : old.toEndpoints = packet.toEndpoints := congrArg Segment.toEndpoints whole
  rw [hwCsum_congr cm whole]
  generalize hwCsum cm packet = hw
  have translated := tcpXlate_segment cm hw old
  rw [whole, ends, tcpCheck_congr cm hw whole] at translated
  generalize tcpXlateDest cm hw (tcpXlateSrc cm hw old) = last at translated ⊢
  cases hw
  · show { last.segment with ipSummed := .unnecessary } = _
    rw [translated]
    rfl
  · show { last.segment with ipSummed := .incomplete } = _
    rw [translated]
    rfl

/-- The checksum field of a packet after forwarding. -/
def forwardCheck : BitVec 16 :=
  if packet.protocol = ipprotoUdp then udpCheck cm (hwCsum cm packet) packet
  else tcpCheck cm (hwCsum cm packet) packet

/-- What is known of the checksum after forwarding. -/
def forwardSummed : IpSummed :=
  if hwCsum cm packet then .incomplete
  else if packet.protocol = ipprotoUdp then packet.ipSummed
  else .unnecessary

/-- **A packet goes out with its endpoints translated and its checksum field adjusted.** -/
theorem forward_segment :
    (forward cm tunOuter packet).segment =
      { packet.segment with
        toEndpoints := cm.translate packet.toEndpoints
        check := forwardCheck cm packet
        ipSummed := forwardSummed cm packet } := by
  unfold forward forwardCheck forwardSummed
  by_cases isUdp : packet.protocol = ipprotoUdp
  · rw [if_pos isUdp, if_pos isUdp, if_pos isUdp]
    exact udpForward_segment cm tunOuter packet
  · rw [if_neg isUdp, if_neg isUdp, if_neg isUdp]
    exact tcpForward_segment cm packet

theorem forward_ends :
    (forward cm tunOuter packet).toEndpoints = cm.translate packet.toEndpoints :=
  congrArg Segment.toEndpoints (forward_segment cm tunOuter packet)

theorem forward_protocol : (forward cm tunOuter packet).protocol = packet.protocol :=
  congrArg Segment.protocol (forward_segment cm tunOuter packet)

theorem forward_versionIhl : (forward cm tunOuter packet).versionIhl = packet.versionIhl :=
  congrArg Segment.versionIhl (forward_segment cm tunOuter packet)

/-- Unless the device does it, the checksum of the header is computed last. -/
theorem forward_ipCheck (software : hwCsum cm packet = false) :
    (forward cm tunOuter packet).ipCheck = genIpCsum (forward cm tunOuter packet) := by
  unfold forward
  by_cases isUdp : packet.protocol = ipprotoUdp
  · rw [if_pos isUdp]
    unfold udpForward
    rw [software]
    rfl
  · rw [if_neg isUdp]
    have same : hwCsum cm (if cm.flags.bridgeFlow then remarkTos cm packet
        else { remarkTos cm packet with ttl := (remarkTos cm packet).ttl - 1 }) = false := by
      rw [← software]
      exact hwCsum_congr cm ((age_segment _ _ _).trans (remarkTos_segment cm packet))
    unfold tcpForward
    dsimp only
    rw [same]
    rfl

end Forward

/-! ### What is forwarded -/

/-- What is known of a packet that was forwarded. -/
structure Forwards (table : Table Ipv4Addr) (reception : Reception)
    (packet : Ipv4Packet) (at_ : Ptr) (sent : Ipv4Packet) : Prop where
  protocol : packet.protocol = ipprotoUdp ∨ packet.protocol = ipprotoTcp
  version : packet.versionIhl >>> 4 = 4
  found : lookup table reception.dev packet.protocol packet.toEndpoints = some at_
  sent : sent = forward (table.cms at_) reception.tunOuter packet

theorem recvUdp_forwards {table : Table Ipv4Addr} {reception : Reception} {syncOnFind : Bool}
    {packet sent : Ipv4Packet} {at_ : Ptr}
    (received : recvUdp table reception syncOnFind packet = some (at_, sent)) :
    udpLookup table reception.dev packet.toEndpoints = some at_ ∧
      sent = udpForward (table.cms at_) reception.tunOuter packet := by
  unfold recvUdp at received
  cases found : udpLookup table reception.dev packet.toEndpoints with
  | none =>
      rw [found] at received
      cases received
  | some cm =>
      rw [found] at received
      dsimp only at received
      split_ifs at received
      cases received
      exact ⟨rfl, rfl⟩

theorem recvTcp_forwards {table : Table Ipv4Addr} {reception : Reception} {syncOnFind : Bool}
    {packet sent : Ipv4Packet} {at_ : Ptr}
    (received : recvTcp table reception syncOnFind packet = some (at_, sent)) :
    tcpLookup table reception.dev packet.toEndpoints = some at_ ∧
      sent = tcpForward (table.cms at_) packet := by
  unfold recvTcp at received
  cases found : tcpLookup table reception.dev packet.toEndpoints with
  | none =>
      rw [found] at received
      cases received
  | some cm =>
      rw [found] at received
      dsimp only at received
      split_ifs at received
      cases received
      exact ⟨rfl, rfl⟩

/-- A packet that goes out was looked up to the match that edited it. -/
theorem recv_forwards {table : Table Ipv4Addr} {reception : Reception} {packet sent : Ipv4Packet}
    {at_ : Ptr} (received : recv table reception packet = some (at_, sent)) :
    Forwards table reception packet at_ sent := by
  unfold recv at received
  dsimp only at received
  split_ifs at received with header short version _ _ isUdp isTcp
  · obtain ⟨found, isSent⟩ := recvUdp_forwards received
    refine ⟨.inl isUdp, by simpa using version, ?_, ?_⟩
    · rw [lookup, if_pos isUdp]
      exact found
    · rw [forward, if_pos isUdp]
      exact isSent
  · obtain ⟨found, isSent⟩ := recvTcp_forwards received
    refine ⟨.inr isTcp, by simpa using version, ?_, ?_⟩
    · rw [lookup, if_neg isUdp, if_pos isTcp]
      exact found
    · rw [forward, if_neg isUdp]
      exact isSent

end Ipv4

end Qsdk.Sfe
