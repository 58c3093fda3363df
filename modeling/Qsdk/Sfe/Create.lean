/-
**Creating a rule.**

The two copies of `create_rule`, for IPv4 and for IPv6, take the same path (`createRule`): the two
devices, the three allocations, the lock, the search for a rule of the same tuple, the two matches,
the UDP socket of a tunnel, and the insertion. They differ in what they do with a rule that exists
(`Copy.mergeInto`) and in how they fill the matches (`Copy.fill`), and in nothing else. Fresh memory
holds whatever was there before: the allocations come with their contents.
-/

import Qsdk.Sfe.Basic

namespace Qsdk.Sfe

variable {A M : Type}

/-! ### The message -/

structure ValidFlags where
  pppoeDecap : Bool := false
  pppoeEncap : Bool := false
  qos : Bool := false
  dscpMarking : Bool := false
  srcMac : Bool := false
  mark : Bool := false
deriving DecidableEq

structure RuleFlags where
  noSeqCheck : Bool := false
  bridgeFlow : Bool := false
  useFlowBottomInterface : Bool := false
  useReturnBottomInterface : Bool := false
deriving DecidableEq

structure ConnectionRule where
  flowMac : Mac
  returnMac : Mac
  flowInterfaceNum : Int
  returnInterfaceNum : Int
  flowTopInterfaceNum : Int
  returnTopInterfaceNum : Int
  flowMtu : BitVec 32
  returnMtu : BitVec 32

structure TcpRule where
  flowMaxWindow : BitVec 32
  returnMaxWindow : BitVec 32
  flowEnd : BitVec 32
  returnEnd : BitVec 32
  flowMaxEnd : BitVec 32
  returnMaxEnd : BitVec 32
  flowWindowScale : BitVec 8
  returnWindowScale : BitVec 8

structure PppoeRule where
  flowPppoeSessionId : BitVec 16
  flowPppoeRemoteMac : Mac
  returnPppoeSessionId : BitVec 16
  returnPppoeRemoteMac : Mac

structure SrcMacRule where
  flowValid : Bool
  returnValid : Bool
  flowSrcMac : Mac
  returnSrcMac : Mac

structure QosRule where
  flowQosTag : BitVec 32
  returnQosTag : BitVec 32

structure MarkRule where
  flowMark : BitVec 32
  returnMark : BitVec 32

structure DscpRule where
  flowDscp : BitVec 8
  returnDscp : BitVec 8

/-- The part of a create message that both versions have. -/
structure CreateMsg (A : Type) where
  validFlags : ValidFlags
  ruleFlags : RuleFlags
  tuple : Tuple A
  connRule : ConnectionRule
  tcpRule : TcpRule
  pppoeRule : PppoeRule
  qosRule : QosRule
  srcMacRule : SrcMacRule
  markRule : MarkRule
  dscpRule : DscpRule

/-- The endpoints after translation. -/
structure XlateRule (A : Type) where
  flowIpXlate : A
  flowIdentXlate : BitVec 16
  returnIpXlate : A
  returnIdentXlate : BitVec 16

/-- The message of IPv4, with the translation. The message of IPv6 is the common part. -/
structure Ipv4CreateMsg extends CreateMsg Ipv4Addr where
  xlate : XlateRule Ipv4Addr

def ipprotoTcp : BitVec 8 := 6

def ipprotoUdp : BitVec 8 := 17

/-- The interface that the flow comes from. -/
def CreateMsg.flowInterface (msg : CreateMsg A) : Int :=
  if msg.ruleFlags.useFlowBottomInterface then msg.connRule.flowInterfaceNum
  else msg.connRule.flowTopInterfaceNum

/-- The interface that the flow goes to. -/
def CreateMsg.returnInterface (msg : CreateMsg A) : Int :=
  if msg.ruleFlags.useReturnBottomInterface then msg.connRule.returnInterfaceNum
  else msg.connRule.returnTopInterfaceNum

/-! ### What the kernel answers -/

/-- A UDP socket: whether it decapsulates, and whether it still has references. -/
structure Sock where
  sk : Nat
  encapType : Bool
  referenced : Bool

/-- The devices and the sockets, as they are during a call. -/
structure Net (A : Type) where
  devGetByIndex : Int → Option Dev
  registered : Dev → Bool
  isVxlan : Dev → Bool
  hwCsum : Dev → Bool
  noArp : Dev → Bool
  ethHeader : Dev → Bool
  devAddr : Dev → Mac
  udpLookup : Dev → A → BitVec 16 → A → BitVec 16 → Dev → Option Sock

/-- What the three allocations of a call return: an address and what is found there, or nothing. -/
structure Alloc (A : Type) where
  conn : Option (Ptr × Connection A)
  original : Option (Ptr × ConnectionMatch A)
  reply : Option (Ptr × ConnectionMatch A)

/-! ### Filling a match -/

section Fill

variable (net : Net A) (msg : CreateMsg A)

/-- The marks of the packets of a direction. -/
def ConnectionMatch.remark (cm : ConnectionMatch A) (mark qosTag : BitVec 32) (dscp : BitVec 8) :
    ConnectionMatch A :=
  let cm := { cm with flags := {} }
  let cm := if msg.validFlags.mark then
      { cm with mark := mark, flags := { cm.flags with mark := true } }
    else cm
  let cm := if msg.validFlags.qos then
      { cm with priority := qosTag, flags := { cm.flags with priorityRemark := true } }
    else cm
  let cm := if msg.validFlags.dscpMarking then
      { cm with
        dscp := dscp.zeroExtend 32 <<< 2
        flags := { cm.flags with dscpRemark := true } }
    else cm
  if msg.ruleFlags.bridgeFlow then { cm with flags := { cm.flags with bridgeFlow := true } } else cm

/-- Leave checksums to the device that transmits. -/
def ConnectionMatch.offload (cm : ConnectionMatch A) (allowed direct : Bool) : ConnectionMatch A :=
  if allowed && direct then { cm with flags := { cm.flags with csumOffload := true } } else cm

/-- The PPPoE session of the packets of a direction. -/
def ConnectionMatch.pppoe (cm : ConnectionMatch A) (sessionId : BitVec 16) (remoteMac : Mac) :
    ConnectionMatch A :=
  { cm with pppoeSessionId := sessionId, pppoeRemoteMac := remoteMac }

/-- Whether a link layer header has to be written. -/
def xmitEthTypeCheck (dev : Dev) (flags : MatchFlags) : Bool :=
  !net.noArp dev || flags.pppoeEncap

/-- The link layer header of a direction that leaves through `dev`. -/
def ConnectionMatch.l2Header (cm : ConnectionMatch A) (dev : Dev) (bridgeMac : Mac)
    (ruleMac : Option Mac) (destMac : Mac) : ConnectionMatch A :=
  if xmitEthTypeCheck net dev cm.flags then
    let srcMac := if msg.ruleFlags.bridgeFlow then bridgeMac else ruleMac.getD (net.devAddr dev)
    let cm := { cm with xmitSrcMac := srcMac, xmitDestMac := destMac }
    let cm := { cm with flags := { cm.flags with writeL2Hdr := true } }
    if net.ethHeader dev then { cm with flags := { cm.flags with writeFastEthHdr := true } } else cm
  else cm

/-- The source address that the rule sets for the flow direction's packets. -/
def returnRuleMac : Option Mac :=
  if msg.validFlags.srcMac && msg.srcMacRule.returnValid then some msg.srcMacRule.returnSrcMac
  else none

/-- The source address that the rule sets for the reply direction's packets. -/
def flowRuleMac : Option Mac :=
  if msg.validFlags.srcMac && msg.srcMacRule.flowValid then some msg.srcMacRule.flowSrcMac
  else none

/-- The state of a new TCP connection's directions. -/
def initTcp (original reply : ConnectionMatch A) : ConnectionMatch A × ConnectionMatch A :=
  if msg.tuple.protocol = ipprotoTcp then
    let tcp := msg.tcpRule
    let original := { original with
      tcp := ⟨tcp.flowWindowScale, if tcp.flowMaxWindow ≠ 0 then tcp.flowMaxWindow else 1,
        tcp.flowEnd, tcp.flowMaxEnd⟩ }
    let reply := { reply with
      tcp := ⟨tcp.returnWindowScale, if tcp.returnMaxWindow ≠ 0 then tcp.returnMaxWindow else 1,
        tcp.returnEnd, tcp.returnMaxEnd⟩ }
    if msg.ruleFlags.noSeqCheck then
      ({ original with flags := { original.flags with noSeqCheck := true } },
        { reply with flags := { reply.flags with noSeqCheck := true } })
    else (original, reply)
  else (original, reply)

/-- PPPoE of the original direction: stripped if the flow's side is PPPoE, added if the other is. -/
def ConnectionMatch.originalPppoe (cm : ConnectionMatch A) : ConnectionMatch A :=
  let rule := msg.pppoeRule
  let cm := if msg.validFlags.pppoeDecap then
      let cm := { cm with flags := { cm.flags with pppoeDecap := true } }
      cm.pppoe rule.flowPppoeSessionId rule.flowPppoeRemoteMac
    else cm
  if msg.validFlags.pppoeEncap then
    let cm := { cm with flags := { cm.flags with pppoeEncap := true } }
    cm.pppoe rule.returnPppoeSessionId rule.returnPppoeRemoteMac
  else cm

/-- PPPoE of the reply direction, the other way round. -/
def ConnectionMatch.replyPppoe (cm : ConnectionMatch A) : ConnectionMatch A :=
  let rule := msg.pppoeRule
  let cm := { cm with flags := {} }
  let cm := if msg.validFlags.pppoeDecap then
      let cm := { cm with flags := { cm.flags with pppoeEncap := true } }
      cm.pppoe rule.flowPppoeSessionId rule.flowPppoeRemoteMac
    else cm
  if msg.validFlags.pppoeEncap then
    let cm := { cm with flags := { cm.flags with pppoeDecap := true } }
    cm.pppoe rule.returnPppoeSessionId rule.returnPppoeRemoteMac
  else cm

/-- The original direction, from the source device to the destination device. -/
def fillOriginal (xlate : XlateRule A) (src dest : Dev) (c reply : Ptr) (cm : ConnectionMatch A) :
    ConnectionMatch A :=
  let cm := { cm with
    matchDev := src
    matchProtocol := msg.tuple.protocol
    matchSrcIp := msg.tuple.flowIp
    matchSrcPort := if net.isVxlan src then 0 else msg.tuple.flowIdent
    matchDestIp := msg.tuple.returnIp
    matchDestPort := msg.tuple.returnIdent
    xlateSrcIp := xlate.flowIpXlate
    xlateSrcPort := xlate.flowIdentXlate
    xlateDestIp := xlate.returnIpXlate
    xlateDestPort := xlate.returnIdentXlate
    rxPacketCount := 0
    rxPacketCount64 := 0
    rxByteCount := 0
    rxByteCount64 := 0
    xmitDev := dest
    xmitDevMtu := msg.connRule.returnMtu.truncate 16
    connection := c
    counterMatch := reply
    up := none }
  let cm := cm.remark msg msg.markRule.flowMark msg.qosRule.flowQosTag msg.dscpRule.flowDscp
  let cm := cm.offload (net.hwCsum dest && !net.isVxlan dest)
    (msg.connRule.returnTopInterfaceNum == msg.connRule.returnInterfaceNum ||
      msg.ruleFlags.useReturnBottomInterface)
  let cm := cm.originalPppoe msg
  cm.l2Header net msg dest msg.connRule.flowMac (returnRuleMac msg) msg.connRule.returnMac

/-- The reply direction as far as both versions fill it alike: the PPPoE of the rule, the keys, and
the marks, which clear the flags again. -/
def fillReply (xlate : XlateRule A) (src dest : Dev) (c original : Ptr) (cm : ConnectionMatch A) :
    ConnectionMatch A :=
  let cm := cm.replyPppoe msg
  let cm := { cm with
    matchDev := dest
    matchProtocol := msg.tuple.protocol
    matchSrcIp := xlate.returnIpXlate
    matchSrcPort :=
      if net.isVxlan src || net.isVxlan dest then 0 else xlate.returnIdentXlate
    matchDestIp := xlate.flowIpXlate
    matchDestPort := xlate.flowIdentXlate
    xlateSrcIp := msg.tuple.returnIp
    xlateSrcPort := msg.tuple.returnIdent
    xlateDestIp := msg.tuple.flowIp
    xlateDestPort := msg.tuple.flowIdent
    rxPacketCount64 := 0
    rxByteCount := 0
    rxByteCount64 := 0
    xmitDev := src
    xmitDevMtu := msg.connRule.flowMtu.truncate 16
    connection := c
    counterMatch := original
    up := none }
  let cm := cm.remark msg msg.markRule.returnMark msg.qosRule.returnQosTag msg.dscpRule.returnDscp
  let cm := cm.offload (net.hwCsum src && !(net.isVxlan src || net.isVxlan dest))
    (msg.connRule.flowTopInterfaceNum == msg.connRule.flowInterfaceNum ||
      msg.ruleFlags.useFlowBottomInterface)
  cm.l2Header net msg src msg.connRule.returnMac (flowRuleMac msg) msg.connRule.flowMac

/-- The connection itself. -/
def fillConnection (xlate : XlateRule A) (src dest : Dev) (original reply : Ptr)
    (nowJiffies : BitVec 64) (c : Connection A) : Connection A :=
  { c with
    protocol := msg.tuple.protocol
    srcIp := msg.tuple.flowIp
    srcIpXlate := xlate.flowIpXlate
    srcPort := msg.tuple.flowIdent
    srcPortXlate := xlate.flowIdentXlate
    originalDev := src
    originalMatch := original
    destIp := msg.tuple.returnIp
    destIpXlate := xlate.returnIpXlate
    destPort := msg.tuple.returnIdent
    destPortXlate := xlate.returnIdentXlate
    replyDev := dest
    replyMatch := reply
    debugReadSeq := 0
    lastSyncJiffies := nowJiffies
    removed := false }

end Fill

/-! ### The translation of IPv4 -/

namespace Ipv4

/-- One fold of a 32-bit sum onto 16 bits. -/
def fold (sum : BitVec 32) : BitVec 32 := (sum &&& 0xffff) + (sum >>> 16)

/-- The adjustment of a checksum field for the translation of one endpoint. -/
def csumAdjustment (matchIp : Ipv4Addr) (matchPort : BitVec 16) (xlateIp : Ipv4Addr)
    (xlatePort : BitVec 16) : BitVec 16 :=
  let srcIpHi := (matchIp >>> 16).truncate 16
  let srcIpLo := (matchIp &&& 0xffff).truncate 16
  let xlateSrcIp := ~~~xlateIp
  let xlateSrcIpHi := (xlateSrcIp >>> 16).truncate 16
  let xlateSrcIpLo := (xlateSrcIp &&& 0xffff).truncate 16
  let xlateSrcPort := ~~~xlatePort
  let word := fun (half : BitVec 16) => half.zeroExtend 32
  let adj := word srcIpHi + word srcIpLo + word matchPort + word xlateSrcIpHi + word xlateSrcIpLo +
    word xlateSrcPort
  (fold (fold adj)).truncate 16

/-- The adjustment of a field that holds the sum of the pseudo header. -/
def partialCsumAdjustment (matchIp xlateIp : Ipv4Addr) : BitVec 16 :=
  let adj := ~~~matchIp + xlateIp
  let adj := if adj.ult xlateIp then adj + 1 else adj
  (fold (fold adj)).truncate 16

/-- The checksum adjustments of a match that translates. -/
def computeTranslations (cm : ConnectionMatch Ipv4Addr) : ConnectionMatch Ipv4Addr :=
  let cm := if cm.flags.xlateSrc then
      { cm with
        xlateSrcCsumAdjustment :=
          csumAdjustment cm.matchSrcIp cm.matchSrcPort cm.xlateSrcIp cm.xlateSrcPort }
    else cm
  let cm := if cm.flags.xlateDest then
      { cm with
        xlateDestCsumAdjustment :=
          csumAdjustment cm.matchDestIp cm.matchDestPort cm.xlateDestIp cm.xlateDestPort }
    else cm
  let cm := if cm.flags.xlateSrc then
      { cm with xlateSrcPartialCsumAdjustment := partialCsumAdjustment cm.matchSrcIp cm.xlateSrcIp }
    else cm
  if cm.flags.xlateDest then
    { cm with
      xlateDestPartialCsumAdjustment := partialCsumAdjustment cm.matchDestIp cm.xlateDestIp }
  else cm

/-- Whether a side is translated. -/
def translates (ip xlateIp : Ipv4Addr) (ident xlateIdent : BitVec 16) : Bool :=
  ip != xlateIp || ident != xlateIdent

/-- The translation flags of the two directions. -/
def xlateFlags (msg : Ipv4CreateMsg) (original reply : ConnectionMatch Ipv4Addr) :
    ConnectionMatch Ipv4Addr × ConnectionMatch Ipv4Addr :=
  let (original, reply) :=
    if translates msg.tuple.returnIp msg.xlate.returnIpXlate msg.tuple.returnIdent
        msg.xlate.returnIdentXlate then
      ({ original with flags := { original.flags with xlateDest := true } },
        { reply with flags := { reply.flags with xlateSrc := true } })
    else (original, reply)
  if translates msg.tuple.flowIp msg.xlate.flowIpXlate msg.tuple.flowIdent
      msg.xlate.flowIdentXlate then
    ({ original with flags := { original.flags with xlateSrc := true } },
      { reply with flags := { reply.flags with xlateDest := true } })
  else (original, reply)

/-- The two matches of an IPv4 rule. -/
def fill (net : Net Ipv4Addr) (msg : Ipv4CreateMsg) (src dest : Dev) (c original reply : Ptr)
    (originalCm replyCm : ConnectionMatch Ipv4Addr) :
    ConnectionMatch Ipv4Addr × ConnectionMatch Ipv4Addr :=
  let originalCm := fillOriginal net msg.toCreateMsg msg.xlate src dest c reply originalCm
  let replyCm := fillReply net msg.toCreateMsg msg.xlate src dest c original replyCm
  let replyCm := { replyCm with rxPacketCount := 0 }
  let (originalCm, replyCm) := xlateFlags msg originalCm replyCm
  let (originalCm, replyCm) := initTcp msg.toCreateMsg originalCm replyCm
  (computeTranslations originalCm, computeTranslations replyCm)

end Ipv4

namespace Ipv6

/-- IPv6 translates nothing. -/
def xlate (msg : CreateMsg Ipv6Addr) : XlateRule Ipv6Addr :=
  ⟨msg.tuple.flowIp, msg.tuple.flowIdent, msg.tuple.returnIp, msg.tuple.returnIdent⟩

/-- The two matches of an IPv6 rule. The packet counter of the reply direction is not set: where
IPv4 sets it, IPv6 sets the byte counter of the original direction again. -/
def fill (net : Net Ipv6Addr) (msg : CreateMsg Ipv6Addr) (src dest : Dev) (c original reply : Ptr)
    (originalCm replyCm : ConnectionMatch Ipv6Addr) :
    ConnectionMatch Ipv6Addr × ConnectionMatch Ipv6Addr :=
  let originalCm := fillOriginal net msg (xlate msg) src dest c reply originalCm
  let originalCm := { originalCm with rxByteCount := 0 }
  let replyCm := fillReply net msg (xlate msg) src dest c original replyCm
  initTcp msg originalCm replyCm

end Ipv6

/-! ### Updating a rule that exists -/

/-- The new value is later than the old one: `(s32)(old - new) < 0`. -/
def later (old new : BitVec 32) : Bool := (old - new).slt 0

/-- Merge a window into the state of a direction. -/
def TcpState.merge (tcp : TcpState) (maxWindow newEnd newMaxEnd : BitVec 32) : TcpState :=
  { tcp with
    maxWin := if tcp.maxWin.ult maxWindow then maxWindow else tcp.maxWin
    end_ := if later tcp.end_ newEnd then newEnd else tcp.end_
    maxEnd := if later tcp.maxEnd newMaxEnd then newMaxEnd else tcp.maxEnd }

/-- Merge the flow's window of a message, and its choice about sequence numbers. -/
def ConnectionMatch.mergeFlow (msg : CreateMsg A) (cm : ConnectionMatch A) : ConnectionMatch A :=
  { cm with
    tcp := cm.tcp.merge msg.tcpRule.flowMaxWindow msg.tcpRule.flowEnd msg.tcpRule.flowMaxEnd
    flags := { cm.flags with noSeqCheck := msg.ruleFlags.noSeqCheck } }

/-- Merge the window of the return direction of a message, and its choice about sequence numbers. -/
def ConnectionMatch.mergeReturn (msg : CreateMsg A) (cm : ConnectionMatch A) : ConnectionMatch A :=
  { cm with
    tcp := cm.tcp.merge msg.tcpRule.returnMaxWindow msg.tcpRule.returnEnd msg.tcpRule.returnMaxEnd
    flags := { cm.flags with noSeqCheck := msg.ruleFlags.noSeqCheck } }

namespace Table

variable (hashes : Hashes A) (table : Table A) (msg : CreateMsg A)

/-- Merge the TCP state of a message into the matches that a connection points to. -/
def updateTcpState (c : Ptr) : Table A :=
  let original := (table.conns c).originalMatch
  let reply := (table.conns c).replyMatch
  (table.modifyCm original (ConnectionMatch.mergeFlow msg)).modifyCm reply
    (ConnectionMatch.mergeReturn msg)

/-- Merge a message into a connection. -/
def updateProtocolState (c : Ptr) : Table A :=
  if msg.tuple.protocol = ipprotoTcp then table.updateTcpState msg c else table

/-- The connections whose fields `updateProtocolState` reads. -/
def updateProtocolReads (c : Ptr) : List Ptr :=
  if msg.tuple.protocol = ipprotoTcp then [c] else []

/-- Merge a message into the rule of its tuple, if there is one. -/
def updateRule [DecidableEq A] : Table A :=
  match table.findConnection hashes msg.tuple with
  | some c => table.updateProtocolState msg c
  | none => table

end Table

/-! ### The call -/

/-- The table with what a call takes and gives back: the lock, the memory and the devices. -/
structure State (A : Type) where
  table : Table A
  locked : Bool
  connLive : Ptr → Bool
  cmLive : Ptr → Bool
  devRefs : Dev → Int

namespace State

variable (state : State A)

def devHold (dev : Dev) : State A :=
  { state with devRefs := Function.update state.devRefs dev (state.devRefs dev + 1) }

def devPut (dev : Dev) : State A :=
  { state with devRefs := Function.update state.devRefs dev (state.devRefs dev - 1) }

def kmallocConn (c : Ptr) (contents : Connection A) : State A :=
  { state with
    table := state.table.modifyConn c fun _ => contents
    connLive := Function.update state.connLive c true }

def kmallocCm (cm : Ptr) (contents : ConnectionMatch A) : State A :=
  { state with
    table := state.table.modifyCm cm fun _ => contents
    cmLive := Function.update state.cmLive cm true }

def kfreeConn (c : Ptr) : State A :=
  { state with connLive := Function.update state.connLive c false }

def kfreeCm (cm : Ptr) : State A :=
  { state with cmLive := Function.update state.cmLive cm false }

def lock : State A := { state with locked := true }

def unlock : State A := { state with locked := false }

end State

/-- What a call returns, the state it leaves, and the connections that its collision exit read. -/
structure Outcome (A : Type) where
  ret : Int
  state : State A
  reads : List Ptr := []

def EINVAL : Int := 22

def ENOMEM : Int := 12

def EADDRINUSE : Int := 98

def ESHUTDOWN : Int := 108

/-- What the two copies of `create_rule` do differently: which of the fresh and the old connection
the collision exit updates, and how they fill the matches. A debug read of IPv4 stops at a removed
connection. -/
structure Copy (A M : Type) where
  hashes : Hashes A
  msg : M → CreateMsg A
  xlate : M → XlateRule A
  mergeInto : Ptr → Ptr → Ptr
  fill : Net A → M → Dev → Dev → Ptr → Ptr → Ptr → ConnectionMatch A → ConnectionMatch A →
    ConnectionMatch A × ConnectionMatch A
  debugStops : Bool

section Call

variable [DecidableEq A] (copy : Copy A M) (net : Net A) (msg : M) (nowJiffies : BitVec 64)

/-- Give back what the call holds besides the lock. -/
def State.release (state : State A) (src dest : Dev) (c original reply : Ptr) : State A :=
  ((((state.kfreeCm reply).kfreeCm original).kfreeConn c).devPut src).devPut dest

/-- The table with the filled records in their memory. -/
def Table.fill (table : Table A) (src dest : Dev) (c original reply : Ptr)
    (originalCm replyCm : ConnectionMatch A) : Table A :=
  let table := table.modifyCm original fun _ => originalCm
  let table := table.modifyCm reply fun _ => replyCm
  table.modifyConn c
    (fillConnection (copy.msg msg) (copy.xlate msg) src dest original reply nowJiffies)

/-- Install the filled records and unlock. -/
def State.install (state : State A) (src dest : Dev) (c original reply : Ptr)
    (originalCm replyCm : ConnectionMatch A) : State A :=
  let table := state.table.fill copy msg nowJiffies src dest c original reply originalCm replyCm
  State.unlock { state with table := table.insertConnection copy.hashes c }

/-- The call from the lock on. -/
def createLocked (src dest : Dev) (c original reply : Ptr) (state : State A) : Outcome A :=
  let state := state.lock
  match state.table.findConnection copy.hashes (copy.msg msg).tuple with
  | some old =>
      let target := copy.mergeInto c old
      let state := { state with table := state.table.updateProtocolState (copy.msg msg) target }
      ⟨-EADDRINUSE, state.unlock.release src dest c original reply,
        Table.updateProtocolReads (copy.msg msg) target⟩
  | none =>
      let filled := copy.fill net msg src dest c original reply (state.table.cms original)
        (state.table.cms reply)
      match net.udpLookup filled.2.matchDev filled.2.matchDestIp filled.2.matchDestPort
          filled.2.xlateSrcIp filled.2.xlateSrcPort src with
      | some sock =>
          if sock.encapType then
            if sock.referenced then
              ⟨0, state.install copy msg nowJiffies src dest c original reply filled.1
                { filled.2 with up := some sock.sk }, []⟩
            else
              -- the objects and the devices are given back, the lock is not
              ⟨-ESHUTDOWN, state.release src dest c original reply, []⟩
          else
            ⟨0, state.install copy msg nowJiffies src dest c original reply filled.1 filled.2, []⟩
      | none =>
          ⟨0, state.install copy msg nowJiffies src dest c original reply filled.1 filled.2, []⟩

/-- The call from the allocations on. -/
def createAlloc (alloc : Alloc A) (src dest : Dev) (state : State A) : Outcome A :=
  match alloc.conn with
  | none => ⟨-ENOMEM, (state.devPut src).devPut dest, []⟩
  | some (c, contents) =>
      let state := state.kmallocConn c contents
      match alloc.original with
      | none => ⟨-ENOMEM, ((state.kfreeConn c).devPut src).devPut dest, []⟩
      | some (original, contents) =>
          let state := state.kmallocCm original contents
          match alloc.reply with
          | none =>
              ⟨-ENOMEM, (((state.kfreeCm original).kfreeConn c).devPut src).devPut dest, []⟩
          | some (reply, contents) =>
              createLocked copy net msg nowJiffies src dest c original reply
                (state.kmallocCm reply contents)

/-- Create the rule of a message. -/
def createRule (alloc : Alloc A) (state : State A) : Outcome A :=
  match net.devGetByIndex (copy.msg msg).flowInterface with
  | none => ⟨-EINVAL, state, []⟩
  | some src =>
      let state := state.devHold src
      match net.devGetByIndex (copy.msg msg).returnInterface with
      | none => ⟨-EINVAL, state.devPut src, []⟩
      | some dest =>
          let state := state.devHold dest
          if !net.registered dest || !net.registered src then
            ⟨-EINVAL, (state.devPut src).devPut dest, []⟩
          else createAlloc copy net msg nowJiffies alloc src dest state

end Call

/-- The IPv4 copy: the collision exit updates the fresh connection. -/
def Ipv4.copy : Copy Ipv4Addr Ipv4CreateMsg where
  hashes := Ipv4.hashes
  msg := Ipv4CreateMsg.toCreateMsg
  xlate := Ipv4CreateMsg.xlate
  mergeInto := fun fresh _ => fresh
  fill := Ipv4.fill
  debugStops := true

/-- The IPv6 copy: the collision exit updates the connection that exists. -/
def Ipv6.copy : Copy Ipv6Addr (CreateMsg Ipv6Addr) where
  hashes := Ipv6.hashes
  msg := id
  xlate := Ipv6.xlate
  mergeInto := fun _ old => old
  fill := Ipv6.fill
  debugStops := false

def Ipv4.createRule := Sfe.createRule Ipv4.copy

def Ipv6.createRule := Sfe.createRule Ipv6.copy

end Qsdk.Sfe
