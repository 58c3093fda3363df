/-
**The shortcut forwarding engine: its records and its tables.**

A connection (`Connection`) is one rule. Each of its two directions has a match (`ConnectionMatch`):
the key that the packets of the direction carry, what to change in them and where to send them. The
engine keeps its connections in a list of all connections and in the chains of a hash table, and the
matches in a second hash table (`Table`); the list and the chains are linked by hand, the buckets of
the match table are kernel hash lists. IPv4 and IPv6 have a table each, with the same layout: they
differ in their addresses and hashes (`Hashes`), and in how a lookup compares a match with a packet.

Statistics that the engine only counts, and the flow cookies of a build without them, are left out.
-/

import Qsdk.Lib.Linked
import Mathlib.Data.BitVec

namespace Qsdk.Sfe

/-- A network device, named by the address of its record. -/
abbrev Dev := BitVec 64

/-- The address of a connection or of a match. -/
abbrev Ptr := Nat

abbrev Mac := BitVec 48

abbrev Ipv4Addr := BitVec 32

/-- An IPv6 address, in the four words that the engine compares and hashes. -/
structure Ipv6Addr where
  word0 : BitVec 32
  word1 : BitVec 32
  word2 : BitVec 32
  word3 : BitVec 32
deriving DecidableEq, Inhabited

/-- The host order of a 16-bit field, on a little-endian machine. -/
def ntohs (field : BitVec 16) : BitVec 16 := field.rotateLeft 8

/-- The host order of a 32-bit field, on a little-endian machine. -/
def ntohl (field : BitVec 32) : BitVec 32 :=
  (field <<< 24) ||| ((field &&& 0xff00) <<< 8) ||| ((field >>> 8) &&& 0xff00) ||| (field >>> 24)

/-- The flag word of a match, one field a bit. -/
structure MatchFlags where
  xlateSrc : Bool := false
  xlateDest : Bool := false
  noSeqCheck : Bool := false
  writeFastEthHdr : Bool := false
  writeL2Hdr : Bool := false
  priorityRemark : Bool := false
  dscpRemark : Bool := false
  csumOffload : Bool := false
  pppoeDecap : Bool := false
  pppoeEncap : Bool := false
  bridgeFlow : Bool := false
  mark : Bool := false
deriving DecidableEq, Inhabited

/-- What is tracked of one direction of a TCP connection. -/
structure TcpState where
  winScale : BitVec 8
  maxWin : BitVec 32
  end_ : BitVec 32
  maxEnd : BitVec 32
deriving DecidableEq, Inhabited

/-- The part of the state of a direction that sync messages carry. -/
structure TdState where
  maxWindow : BitVec 32
  end_ : BitVec 32
  maxEnd : BitVec 32
deriving DecidableEq, Inhabited

def TcpState.td (tcp : TcpState) : TdState := ⟨tcp.maxWin, tcp.end_, tcp.maxEnd⟩

variable {A : Type}

/-- One direction of a connection. -/
structure ConnectionMatch (A : Type) where
  connection : Ptr
  counterMatch : Ptr
  matchDev : Dev
  matchProtocol : BitVec 8
  matchSrcIp : A
  matchDestIp : A
  matchSrcPort : BitVec 16
  matchDestPort : BitVec 16
  up : Option Nat
  flags : MatchFlags
  tcp : TcpState
  rxPacketCount : BitVec 32
  rxByteCount : BitVec 32
  xlateSrcIp : A
  xlateSrcPort : BitVec 16
  xlateSrcCsumAdjustment : BitVec 16
  xlateSrcPartialCsumAdjustment : BitVec 16
  xlateDestIp : A
  xlateDestPort : BitVec 16
  xlateDestCsumAdjustment : BitVec 16
  xlateDestPartialCsumAdjustment : BitVec 16
  priority : BitVec 32
  dscp : BitVec 32
  mark : BitVec 32
  xmitDev : Dev
  xmitDevMtu : BitVec 16
  xmitDestMac : Mac
  xmitSrcMac : Mac
  rxPacketCount64 : BitVec 64
  rxByteCount64 : BitVec 64
  pppoeSessionId : BitVec 16
  pppoeRemoteMac : Mac
deriving DecidableEq, Inhabited

/-- One rule: its endpoints before and after translation, its two matches, and its links. -/
structure Connection (A : Type) where
  next : Option Ptr
  prev : Option Ptr
  protocol : BitVec 8
  srcIp : A
  srcIpXlate : A
  destIp : A
  destIpXlate : A
  srcPort : BitVec 16
  srcPortXlate : BitVec 16
  destPort : BitVec 16
  destPortXlate : BitVec 16
  originalMatch : Ptr
  originalDev : Dev
  replyMatch : Ptr
  replyDev : Dev
  lastSyncJiffies : BitVec 64
  allConnectionsNext : Option Ptr
  allConnectionsPrev : Option Ptr
  removed : Bool
  debugReadSeq : BitVec 32
deriving DecidableEq, Inhabited

/-- What names a rule: its protocol and its endpoints before translation. -/
structure Tuple (A : Type) where
  protocol : BitVec 8
  flowIp : A
  flowIdent : BitVec 16
  returnIp : A
  returnIdent : BitVec 16
deriving DecidableEq, Inhabited

/-- What a packet is looked up by: the device it came in on, its protocol and its endpoints. -/
structure MatchKey (A : Type) where
  dev : Dev
  protocol : BitVec 8
  srcIp : A
  srcPort : BitVec 16
  destIp : A
  destPort : BitVec 16
deriving DecidableEq, Inhabited

abbrev Connection.tuple (connection : Connection A) : Tuple A :=
  ⟨connection.protocol, connection.srcIp, connection.srcPort, connection.destIp,
    connection.destPort⟩

abbrev ConnectionMatch.key (cm : ConnectionMatch A) : MatchKey A :=
  ⟨cm.matchDev, cm.matchProtocol, cm.matchSrcIp, cm.matchSrcPort, cm.matchDestIp,
    cm.matchDestPort⟩

/-- The hash functions of a table. -/
structure Hashes (A : Type) where
  connectionHash : Tuple A → BitVec 32
  connectionMatchHash : MatchKey A → BitVec 32

/-- Fold a hash onto the 4096 indices of a table. -/
def hashIndex (hash : BitVec 32) : BitVec 32 := ((hash >>> 12) ^^^ hash) &&& 4095

/-- The exclusive or of the words of two addresses. -/
def Ipv6Addr.hashWith (src dest : Ipv6Addr) : BitVec 32 :=
  (src.word0 ^^^ dest.word0) ^^^ (src.word1 ^^^ dest.word1) ^^^ (src.word2 ^^^ dest.word2) ^^^
    (src.word3 ^^^ dest.word3)

namespace Ipv4

def getConnectionHash (tuple : Tuple Ipv4Addr) : BitVec 32 :=
  hashIndex (ntohl (tuple.flowIp ^^^ tuple.returnIp) ^^^ tuple.protocol.zeroExtend 32 ^^^
    (ntohs (tuple.flowIdent ^^^ tuple.returnIdent)).zeroExtend 32)

def getConnectionMatchHash (key : MatchKey Ipv4Addr) : BitVec 32 :=
  hashIndex (key.dev.truncate 32 ^^^ ntohl (key.srcIp ^^^ key.destIp) ^^^
    key.protocol.zeroExtend 32 ^^^ (ntohs (key.srcPort ^^^ key.destPort)).zeroExtend 32)

def hashes : Hashes Ipv4Addr := ⟨getConnectionHash, getConnectionMatchHash⟩

end Ipv4

namespace Ipv6

def getConnectionHash (tuple : Tuple Ipv6Addr) : BitVec 32 :=
  hashIndex (tuple.flowIp.hashWith tuple.returnIp ^^^ tuple.protocol.zeroExtend 32 ^^^
    (ntohs (tuple.flowIdent ^^^ tuple.returnIdent)).zeroExtend 32)

def getConnectionMatchHash (key : MatchKey Ipv6Addr) : BitVec 32 :=
  hashIndex (key.dev.truncate 32 ^^^ key.srcIp.hashWith key.destIp ^^^
    key.protocol.zeroExtend 32 ^^^ (ntohs (key.srcPort ^^^ key.destPort)).zeroExtend 32)

def hashes : Hashes Ipv6Addr := ⟨getConnectionHash, getConnectionMatchHash⟩

end Ipv6

/-! ### The tables -/

/-- The memory of connections and matches, and the tables that hold some of them. -/
structure Table (A : Type) where
  conns : Ptr → Connection A
  cms : Ptr → ConnectionMatch A
  connHash : BitVec 32 → Option Ptr
  connMatchHash : BitVec 32 → List Ptr
  allConnectionsHead : Option Ptr
  allConnectionsTail : Option Ptr
  numConnections : Nat
  wcNext : Option Ptr

namespace Table

variable (hashes : Hashes A) (table : Table A)

/-- Change the connection at an address. -/
def modifyConn (c : Ptr) (change : Connection A → Connection A) : Table A :=
  { table with conns := Function.update table.conns c (change (table.conns c)) }

/-- Change the match at an address. -/
def modifyCm (cm : Ptr) (change : ConnectionMatch A → ConnectionMatch A) : Table A :=
  { table with cms := Function.update table.cms cm (change (table.cms cm)) }

@[simp]
theorem modifyConn_conns (c other : Ptr) (change : Connection A → Connection A) :
    (table.modifyConn c change).conns other =
      if other = c then change (table.conns c) else table.conns other :=
  Function.update_apply _ _ _ _

@[simp]
theorem modifyCm_cms (cm other : Ptr) (change : ConnectionMatch A → ConnectionMatch A) :
    (table.modifyCm cm change).cms other =
      if other = cm then change (table.cms cm) else table.cms other :=
  Function.update_apply _ _ _ _

/-- The links of the hash chains. -/
def hashLinks : Links Ptr :=
  ⟨fun c => (table.conns c).next, fun c => (table.conns c).prev⟩

/-- The links of the list of all connections. -/
def allLinks : Links Ptr :=
  ⟨fun c => (table.conns c).allConnectionsNext, fun c => (table.conns c).allConnectionsPrev⟩

/-- The connection of a rule, on the chain that the rule hashes to. -/
def findConnection [DecidableEq A] (tuple : Tuple A) : Option Ptr :=
  table.hashLinks.walk (fun c =>
    (table.conns c).srcPort == tuple.flowIdent && (table.conns c).destPort == tuple.returnIdent &&
      (table.conns c).srcIp == tuple.flowIp && (table.conns c).destIp == tuple.returnIp &&
      (table.conns c).protocol == tuple.protocol)
    table.numConnections (table.connHash (hashes.connectionHash tuple))

/-! ### Insertion -/

/-- Insert a connection in front of its hash chain. -/
def insertHash (c : Ptr) : Table A :=
  let connIdx := hashes.connectionHash (table.conns c).tuple
  let prevHead := table.connHash connIdx
  let table := table.modifyConn c fun x => { x with prev := none }
  let table := match prevHead with
    | some first => table.modifyConn first fun x => { x with prev := some c }
    | none => table
  let table := table.modifyConn c fun x => { x with next := prevHead }
  { table with connHash := Function.update table.connHash connIdx (some c) }

/-- Insert a connection at the end of the list of all connections. -/
def insertAll (c : Ptr) : Table A :=
  let table := match table.allConnectionsTail with
    | some tail =>
        let table := table.modifyConn c fun x => { x with allConnectionsPrev := some tail }
        table.modifyConn tail fun x => { x with allConnectionsNext := some c }
    | none =>
        let table := table.modifyConn c fun x => { x with allConnectionsPrev := none }
        { table with allConnectionsHead := some c }
  let table := { table with allConnectionsTail := some c }
  let table := table.modifyConn c fun x => { x with allConnectionsNext := none }
  { table with numConnections := table.numConnections + 1 }

/-- Insert a match in front of its bucket. -/
def insertConnectionMatch (cm : Ptr) : Table A :=
  let connMatchIdx := hashes.connectionMatchHash (table.cms cm).key
  { table with
    connMatchHash :=
      Function.update table.connMatchHash connMatchIdx (cm :: table.connMatchHash connMatchIdx) }

/-- Insert a connection and its matches. -/
def insertConnection (c : Ptr) : Table A :=
  let table := table.insertHash hashes c
  let table := table.insertAll c
  let table := table.insertConnectionMatch hashes (table.conns c).originalMatch
  table.insertConnectionMatch hashes (table.conns c).replyMatch

/-! ### Removal -/

/-- Take a match off the bucket that it is on. -/
def removeConnectionMatch (cm : Ptr) : Table A :=
  { table with connMatchHash := fun idx => (table.connMatchHash idx).erase cm }

/-- Take a connection off its hash chain. -/
def removeHash (c : Ptr) : Table A :=
  let table := match (table.conns c).prev with
    | some before => table.modifyConn before fun x => { x with next := (table.conns c).next }
    | none =>
        let connIdx := hashes.connectionHash (table.conns c).tuple
        { table with connHash := Function.update table.connHash connIdx (table.conns c).next }
  match (table.conns c).next with
  | some after => table.modifyConn after fun x => { x with prev := (table.conns c).prev }
  | none => table

/-- Take a connection off the list of all connections. -/
def removeAll (c : Ptr) : Table A :=
  let table := match (table.conns c).allConnectionsPrev with
    | some before =>
        table.modifyConn before fun x =>
          { x with allConnectionsNext := (table.conns c).allConnectionsNext }
    | none => { table with allConnectionsHead := (table.conns c).allConnectionsNext }
  match (table.conns c).allConnectionsNext with
  | some after =>
      table.modifyConn after fun x =>
        { x with allConnectionsPrev := (table.conns c).allConnectionsPrev }
  | none => { table with allConnectionsTail := (table.conns c).allConnectionsPrev }

/-- Remove a connection and its matches, unless that has been done already. -/
def removeConnection (c : Ptr) : Bool × Table A :=
  if (table.conns c).removed then
    (false, table)
  else
    let table := table.removeConnectionMatch (table.conns c).replyMatch
    let table := table.removeConnectionMatch (table.conns c).originalMatch
    let table := table.removeHash hashes c
    let table := table.removeAll c
    let table := if table.wcNext = some c then
        { table with wcNext := (table.conns c).allConnectionsNext }
      else table
    let table := table.modifyConn c fun x => { x with removed := true }
    (true, { table with numConnections := table.numConnections - 1 })

end Table

/-! ### Looking up the match of a packet -/

namespace Ipv4

/-- The comparison of a match with a packet, over all six fields. -/
def compares (cm : ConnectionMatch Ipv4Addr) (key : MatchKey Ipv4Addr) : Bool :=
  cm.matchSrcPort == key.srcPort && cm.matchDestPort == key.destPort &&
    cm.matchSrcIp == key.srcIp && cm.matchDestIp == key.destIp &&
    cm.matchProtocol == key.protocol && cm.matchDev == key.dev

/-- The first match of the packet's bucket that compares equal. -/
def findConnectionMatch (table : Table Ipv4Addr) (key : MatchKey Ipv4Addr) : Option Ptr :=
  (table.connMatchHash (getConnectionMatchHash key)).find? fun cm => compares (table.cms cm) key

end Ipv4

namespace Ipv6

/-- The comparison of a match with a packet. It leaves the source port out. -/
def compares (cm : ConnectionMatch Ipv6Addr) (key : MatchKey Ipv6Addr) : Bool :=
  cm.matchDestPort == key.destPort && cm.matchSrcIp == key.srcIp &&
    cm.matchDestIp == key.destIp && cm.matchProtocol == key.protocol && cm.matchDev == key.dev

/-- The first match of the packet's bucket that compares equal. -/
def findConnectionMatch (table : Table Ipv6Addr) (key : MatchKey Ipv6Addr) : Option Ptr :=
  (table.connMatchHash (getConnectionMatchHash key)).find? fun cm => compares (table.cms cm) key

end Ipv6

/-! ### Counters and sync messages -/

/-- Why a sync message is sent. -/
inductive SyncReason
  | stats
  | flush
  | destroy
deriving DecidableEq

/-- A sync message to the connection manager. -/
structure ConnectionSync (A : Type) where
  tuple : Tuple A
  srcIpXlate : A
  destIpXlate : A
  srcPortXlate : BitVec 16
  destPortXlate : BitVec 16
  srcDev : Dev
  destDev : Dev
  srcTd : TdState
  destTd : TdState
  srcNewPacketCount : BitVec 32
  srcNewByteCount : BitVec 32
  destNewPacketCount : BitVec 32
  destNewByteCount : BitVec 32
  srcPacketCount : BitVec 64
  srcByteCount : BitVec 64
  destPacketCount : BitVec 64
  destByteCount : BitVec 64
  reason : SyncReason
  deltaJiffies : BitVec 64

/-- Move what the counters of the sync period hold to the counters of the whole life. -/
def ConnectionMatch.updateSummaryStats (cm : ConnectionMatch A) : ConnectionMatch A :=
  { cm with
    rxPacketCount64 := cm.rxPacketCount64 + cm.rxPacketCount.zeroExtend 64
    rxPacketCount := cm.rxPacketCount - cm.rxPacketCount
    rxByteCount64 := cm.rxByteCount64 + cm.rxByteCount.zeroExtend 64
    rxByteCount := cm.rxByteCount - cm.rxByteCount }

/-- Count a forwarded packet of `len` bytes. -/
def ConnectionMatch.countForwarded (cm : ConnectionMatch A) (len : BitVec 32) : ConnectionMatch A :=
  { cm with rxPacketCount := cm.rxPacketCount + 1, rxByteCount := cm.rxByteCount + len }

/-- The sync message of a connection, from the matches before and after the counters moved. -/
def syncMessage (c : Connection A) (original reply : ConnectionMatch A) (reason : SyncReason)
    (nowJiffies : BitVec 64) : ConnectionSync A where
  tuple := c.tuple
  srcIpXlate := c.srcIpXlate
  destIpXlate := c.destIpXlate
  srcPortXlate := c.srcPortXlate
  destPortXlate := c.destPortXlate
  srcDev := original.matchDev
  destDev := reply.matchDev
  srcTd := original.tcp.td
  destTd := reply.tcp.td
  srcNewPacketCount := original.rxPacketCount
  srcNewByteCount := original.rxByteCount
  destNewPacketCount := reply.rxPacketCount
  destNewByteCount := reply.rxByteCount
  srcPacketCount := original.updateSummaryStats.rxPacketCount64
  srcByteCount := original.updateSummaryStats.rxByteCount64
  destPacketCount := reply.updateSummaryStats.rxPacketCount64
  destByteCount := reply.updateSummaryStats.rxByteCount64
  reason := reason
  deltaJiffies := nowJiffies - c.lastSyncJiffies

/-- Write the sync message of a connection, moving its counters. -/
def Table.genSyncConnection (table : Table A) (c : Ptr) (reason : SyncReason)
    (nowJiffies : BitVec 64) : ConnectionSync A × Table A :=
  let original := (table.conns c).originalMatch
  let reply := (table.conns c).replyMatch
  let message := syncMessage (table.conns c) (table.cms original)
    (table.cms reply) reason nowJiffies
  let table := table.modifyCm original ConnectionMatch.updateSummaryStats
  let table := table.modifyCm reply ConnectionMatch.updateSummaryStats
  (message, table.modifyConn c fun x => { x with lastSyncJiffies := nowJiffies })

end Qsdk.Sfe
