/-
**Forwarding a TCP or UDP packet over IPv4.**

`sfe_ipv4_recv` checks the header of a packet (`Ipv4.recv`) and calls the handler of its protocol.
The handlers for TCP and UDP look a packet up, decide whether it may take the fast path, and then
edit it: its addresses and ports, the checksum of its segment, the time to live, the marks and the
checksum of its header. They do the same things in a different order and with different exceptions,
so each has its own definition (`Ipv4.recvUdp`, `Ipv4.recvTcp`). What a packet is looked up by and
edited in is modelled field by field; that the memory of a packet is there and can be written, that
it belongs to the PPPoE session, and for TCP that it carries plain flags and fits its window, is one
answer of the environment (`Reception.passes`). The handler for ICMP looks up the packet that an
error reports, the other way round, and removes its connection (`Ipv4.recvIcmp`).

Fields are as the processor reads them, in words of a little-endian machine.
-/

import Qsdk.Sfe.System

namespace Qsdk.Sfe

/-- What is known of the checksum of a segment: nothing, that it was verified, that its sum was
computed, or that the device that transmits has to complete it. -/
inductive IpSummed
  | none
  | unnecessary
  | complete
  | incomplete
deriving DecidableEq

/-- Where a packet comes from and where it goes. -/
structure Endpoints where
  saddr : Ipv4Addr
  source : BitVec 16
  daddr : Ipv4Addr
  dest : BitVec 16
deriving DecidableEq

def Endpoints.swap (ends : Endpoints) : Endpoints :=
  ⟨ends.daddr, ends.dest, ends.saddr, ends.source⟩

/-- A packet with a header of 20 bytes. `words` is the segment without its ports and its
checksum. -/
structure Ipv4Packet extends Endpoints where
  versionIhl : BitVec 8
  tos : BitVec 8
  totLen : BitVec 16
  id : BitVec 16
  fragOff : BitVec 16
  ttl : BitVec 8
  protocol : BitVec 8
  ipCheck : BitVec 16
  check : BitVec 16
  segmentLen : BitVec 16
  words : List (BitVec 16)
  ipSummed : IpSummed
deriving DecidableEq

/-- How a packet is received, and what the checks that are not modelled say. -/
structure Reception where
  dev : Dev
  len : BitVec 32
  tunOuter : Bool
  gso : Bool
  passes : Bool

namespace Ipv4

/-- What a packet that comes in through `dev` is looked up by. -/
def lookupKey (dev : Dev) (protocol : BitVec 8) (ends : Endpoints) : MatchKey Ipv4Addr :=
  ⟨dev, protocol, ends.saddr, ends.source, ends.daddr, ends.dest⟩

/-- The words of an IP header whose checksum field is zero. -/
def headerWords (packet : Ipv4Packet) : List (BitVec 16) :=
  [packet.tos ++ packet.versionIhl, packet.totLen, packet.id, packet.fragOff,
    packet.protocol ++ packet.ttl, packet.saddr.truncate 16, (packet.saddr >>> 16).truncate 16,
    packet.daddr.truncate 16, (packet.daddr >>> 16).truncate 16]

/-- The checksum of an IP header. -/
def genIpCsum (packet : Ipv4Packet) : BitVec 16 :=
  let sum := ((headerWords packet).map fun word => word.zeroExtend 32).sum
  (fold (fold sum)).truncate 16 ^^^ 0xffff

/-- The check of an IP header: zero if its checksum is right. -/
def ipFastCsum (packet : Ipv4Packet) : BitVec 16 :=
  let sum := ((packet.ipCheck :: headerWords packet).map fun word => word.zeroExtend 32).sum
  (fold (fold sum)).truncate 16 ^^^ 0xffff

/-- Add an adjustment to a checksum field. -/
def adjust (check adjustment : BitVec 16) : BitVec 16 :=
  (fold (check.zeroExtend 32 + adjustment.zeroExtend 32)).truncate 16

/-- Whether the device computes the checksum of a packet that was received with a verified one. -/
def hwCsum (cm : ConnectionMatch Ipv4Addr) (packet : Ipv4Packet) : Bool :=
  cm.flags.csumOffload && packet.ipSummed == .unnecessary

/-- The adjustment for the source, of a full checksum or of the sum of a pseudo header. -/
def srcAdjustment (cm : ConnectionMatch Ipv4Addr) (packet : Ipv4Packet) : BitVec 16 :=
  if packet.ipSummed == .incomplete then cm.xlateSrcPartialCsumAdjustment
  else cm.xlateSrcCsumAdjustment

/-- The adjustment for the destination, of a full checksum or of the sum of a pseudo header. -/
def destAdjustment (cm : ConnectionMatch Ipv4Addr) (packet : Ipv4Packet) : BitVec 16 :=
  if packet.ipSummed == .incomplete then cm.xlateDestPartialCsumAdjustment
  else cm.xlateDestCsumAdjustment

/-- The remarked type of service. -/
def remarkTos (cm : ConnectionMatch Ipv4Addr) (packet : Ipv4Packet) : Ipv4Packet :=
  if cm.flags.dscpRemark then { packet with tos := (packet.tos &&& 3) ||| cm.dscp.truncate 8 }
  else packet

/-! ### UDP -/

/-- Translate the source of a UDP packet. A zero checksum stays. -/
def udpXlateSrc (cm : ConnectionMatch Ipv4Addr) (hw : Bool) (packet : Ipv4Packet) : Ipv4Packet :=
  if cm.flags.xlateSrc then
    let packet := { packet with saddr := cm.xlateSrcIp, source := cm.xlateSrcPort }
    if !hw && packet.check != 0 then
      { packet with check := adjust packet.check (srcAdjustment cm packet) }
    else packet
  else packet

/-- Translate the destination of a UDP packet. A zero checksum stays. -/
def udpXlateDest (cm : ConnectionMatch Ipv4Addr) (hw : Bool) (packet : Ipv4Packet) : Ipv4Packet :=
  if cm.flags.xlateDest then
    let packet := { packet with daddr := cm.xlateDestIp, dest := cm.xlateDestPort }
    if !hw && packet.check != 0 then
      { packet with check := adjust packet.check (destAdjustment cm packet) }
    else packet
  else packet

/-- Edit a UDP packet for its way out. -/
def udpForward (cm : ConnectionMatch Ipv4Addr) (tunOuter : Bool) (packet : Ipv4Packet) :
    Ipv4Packet :=
  let hw := hwCsum cm packet
  let packet := udpXlateDest cm hw (udpXlateSrc cm hw packet)
  let packet := if cm.flags.bridgeFlow then packet
    else { packet with ttl := packet.ttl - if tunOuter then 0 else 1 }
  let packet := remarkTos cm packet
  if hw then { packet with ipSummed := .incomplete }
  else { packet with ipCheck := genIpCsum packet }

/-- The match of a UDP packet: by all its fields, or by all but the source port. -/
def udpLookup (table : Table Ipv4Addr) (dev : Dev) (ends : Endpoints) : Option Ptr :=
  (findConnectionMatch table (lookupKey dev ipprotoUdp ends)).or
    (findConnectionMatch table (lookupKey dev ipprotoUdp { ends with source := 0 }))

/-- Receive a UDP packet: the match that forwards it, and the packet that goes out. A tunnel's
socket gets its packets, they do not go out. -/
def recvUdp (table : Table Ipv4Addr) (reception : Reception) (syncOnFind : Bool)
    (packet : Ipv4Packet) : Option (Ptr × Ipv4Packet) :=
  match udpLookup table reception.dev packet.toEndpoints with
  | none => none
  | some at_ =>
      let cm := table.cms at_
      if syncOnFind then none
      else if !cm.flags.bridgeFlow && packet.ttl.ult 2 then none
      else if (cm.xmitDevMtu.zeroExtend 32).ult reception.len then none
      else if !reception.passes then none
      else if cm.up.isSome then none
      else some (at_, udpForward cm reception.tunOuter packet)

/-! ### TCP -/

/-- Translate the source of a TCP packet. -/
def tcpXlateSrc (cm : ConnectionMatch Ipv4Addr) (hw : Bool) (packet : Ipv4Packet) : Ipv4Packet :=
  if cm.flags.xlateSrc then
    let packet := { packet with saddr := cm.xlateSrcIp, source := cm.xlateSrcPort }
    if !hw then { packet with check := adjust packet.check (srcAdjustment cm packet) } else packet
  else packet

/-- Translate the destination of a TCP packet. -/
def tcpXlateDest (cm : ConnectionMatch Ipv4Addr) (hw : Bool) (packet : Ipv4Packet) : Ipv4Packet :=
  if cm.flags.xlateDest then
    let packet := { packet with daddr := cm.xlateDestIp, dest := cm.xlateDestPort }
    if !hw then { packet with check := adjust packet.check (destAdjustment cm packet) } else packet
  else packet

/-- Edit a TCP packet for its way out. Whatever was known of its checksum, it counts as verified
now, unless the device computes it. -/
def tcpForward (cm : ConnectionMatch Ipv4Addr) (packet : Ipv4Packet) : Ipv4Packet :=
  let packet := remarkTos cm packet
  let packet := if cm.flags.bridgeFlow then packet else { packet with ttl := packet.ttl - 1 }
  let hw := hwCsum cm packet
  let packet := tcpXlateDest cm hw (tcpXlateSrc cm hw packet)
  if hw then { packet with ipSummed := .incomplete }
  else { packet with ipCheck := genIpCsum packet, ipSummed := .unnecessary }

/-- The match of a TCP packet. -/
def tcpLookup (table : Table Ipv4Addr) (dev : Dev) (ends : Endpoints) : Option Ptr :=
  findConnectionMatch table (lookupKey dev ipprotoTcp ends)

/-- Receive a TCP packet: the match that forwards it, and the packet that goes out. -/
def recvTcp (table : Table Ipv4Addr) (reception : Reception) (syncOnFind : Bool)
    (packet : Ipv4Packet) : Option (Ptr × Ipv4Packet) :=
  match tcpLookup table reception.dev packet.toEndpoints with
  | none => none
  | some at_ =>
      let cm := table.cms at_
      if syncOnFind then none
      else if !cm.flags.bridgeFlow && packet.ttl.ult 2 then none
      else if (cm.xmitDevMtu.zeroExtend 32).ult reception.len && !reception.gso then none
      else if !reception.passes then none
      else some (at_, tcpForward cm packet)

/-! ### Both -/

/-- The match of a packet. -/
def lookup (table : Table Ipv4Addr) (dev : Dev) (protocol : BitVec 8) (ends : Endpoints) :
    Option Ptr :=
  if protocol = ipprotoUdp then udpLookup table dev ends
  else if protocol = ipprotoTcp then tcpLookup table dev ends
  else none

/-- Edit a packet for its way out. -/
def forward (cm : ConnectionMatch Ipv4Addr) (tunOuter : Bool) (packet : Ipv4Packet) : Ipv4Packet :=
  if packet.protocol = ipprotoUdp then udpForward cm tunOuter packet else tcpForward cm packet

/-- Receive a packet. Only TCP and UDP are forwarded. -/
def recv (table : Table Ipv4Addr) (reception : Reception) (packet : Ipv4Packet) :
    Option (Ptr × Ipv4Packet) :=
  if packet.ipSummed != .unnecessary && ipFastCsum packet != 0 then none
  else if (ntohs packet.totLen).ult 20 then none
  else if packet.versionIhl >>> 4 != 4 then none
  else if reception.len.ult ((ntohs packet.totLen).zeroExtend 32) then none
  else if ntohs packet.fragOff &&& 0x1fff != 0 then none
  else
    -- a first fragment and a header with options are not forwarded either
    let syncOnFind := ntohs packet.fragOff &&& 0x2000 != 0 || packet.versionIhl &&& 0xf != 5
    if packet.protocol = ipprotoUdp then recvUdp table reception syncOnFind packet
    else if packet.protocol = ipprotoTcp then recvTcp table reception syncOnFind packet
    else none

/-! ### ICMP -/

/-- An ICMP message, and the packet that it reports: its version, its protocol and its endpoints, if
that much of it is there. -/
structure IcmpMessage where
  type : BitVec 8
  complete : Bool
  version : BitVec 8
  protocol : BitVec 8
  ends : Endpoints

/-- A destination is unreachable. -/
def icmpDestUnreach : BitVec 8 := 3

/-- The time to live is exceeded. -/
def icmpTimeExceeded : BitVec 8 := 11

/-- Receive an ICMP message: the connection that it concerns, whether that was removed now, so that
it is flushed, and the table after the removal. -/
def recvIcmp (table : Table Ipv4Addr) (dev : Dev) (message : IcmpMessage) :
    Option (Ptr × Bool × Table Ipv4Addr) :=
  if message.type ≠ icmpDestUnreach ∧ message.type ≠ icmpTimeExceeded then none
  else if !message.complete then none
  else if message.version ≠ 4 then none
  else if message.protocol ≠ ipprotoUdp ∧ message.protocol ≠ ipprotoTcp then none
  else
    match findConnectionMatch table (lookupKey dev message.protocol message.ends.swap) with
    | none => none
    | some cm =>
        let c := (table.cms cm).connection
        some (c, table.removeConnection hashes c)

/-- The error that reports a packet that went out. -/
def icmpError (type : BitVec 8) (packet : Ipv4Packet) : IcmpMessage where
  type := type
  complete := true
  version := packet.versionIhl >>> 4
  protocol := packet.protocol
  ends := packet.toEndpoints

end Ipv4

end Qsdk.Sfe
