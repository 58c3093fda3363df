/-
**What `create_rule` writes into the two matches of a rule.**

The matches are fresh memory, and are filled by many assignments, most of them under a flag of the
message. Two projections say what comes of it: the `Frame` of a match (its key, its links, where it
sends packets and what it makes of their headers, its counters), and the flags that decide what
happens to a packet (`RouteFlags`). Every helper changes one of them in one way, so both versions'
`fill` computes them (`Ipv4.fill_frames`, `Ipv4.fill_routes`, `Ipv6.fill_frames`,
`Ipv6.fill_routes`).

The PPPoE flags of the reply direction are set first and cleared with all the others later.
-/

import Qsdk.Sfe.Create

namespace Qsdk.Sfe

variable {A : Type}

/-- The flags that decide what happens to the packets of a direction. -/
structure RouteFlags where
  xlateSrc : Bool
  xlateDest : Bool
  noSeqCheck : Bool
  pppoeDecap : Bool
  pppoeEncap : Bool
  bridgeFlow : Bool
deriving DecidableEq

def MatchFlags.route (flags : MatchFlags) : RouteFlags :=
  ⟨flags.xlateSrc, flags.xlateDest, flags.noSeqCheck, flags.pppoeDecap, flags.pppoeEncap,
    flags.bridgeFlow⟩

/-- The key of a match, its links, its device, its translation and its counters. -/
structure Frame (A : Type) where
  key : MatchKey A
  connection : Ptr
  counterMatch : Ptr
  xmitDev : Dev
  xlate : XlateRule A
  up : Option Nat
  rxPacketCount : BitVec 32
  rxByteCount : BitVec 32
  rxPacketCount64 : BitVec 64
  rxByteCount64 : BitVec 64

/-- The translation is listed as the source's, then the destination's. -/
def ConnectionMatch.frame (cm : ConnectionMatch A) : Frame A where
  key := cm.key
  connection := cm.connection
  counterMatch := cm.counterMatch
  xmitDev := cm.xmitDev
  xlate := ⟨cm.xlateSrcIp, cm.xlateSrcPort, cm.xlateDestIp, cm.xlateDestPort⟩
  up := cm.up
  rxPacketCount := cm.rxPacketCount
  rxByteCount := cm.rxByteCount
  rxPacketCount64 := cm.rxPacketCount64
  rxByteCount64 := cm.rxByteCount64

/-! ### The helpers -/

section Steps

variable (net : Net A) (msg : CreateMsg A) (cm : ConnectionMatch A)

/-- A write under a flag that leaves the frame alone. -/
theorem frame_ite {flag : Bool} {changed cm : ConnectionMatch A} (same : changed.frame = cm.frame) :
    (if flag = true then changed else cm).frame = cm.frame := by
  cases flag
  · rfl
  · exact same

/-- A write under a flag that leaves the route alone. -/
theorem route_ite {flag : Bool} {changed cm : ConnectionMatch A}
    (same : changed.flags.route = cm.flags.route) :
    (if flag = true then changed else cm).flags.route = cm.flags.route := by
  cases flag
  · rfl
  · exact same

theorem bridge_route (flag : Bool) (cm : ConnectionMatch A) :
    (if flag = true then { cm with flags := { cm.flags with bridgeFlow := true } } else
      cm).flags.route =
      { cm.flags.route with bridgeFlow := flag || cm.flags.route.bridgeFlow } := by
  cases flag <;> rfl

theorem remark_frame (mark qosTag : BitVec 32) (dscp : BitVec 8) :
    (cm.remark msg mark qosTag dscp).frame = cm.frame := by
  unfold ConnectionMatch.remark
  refine (frame_ite ?_).trans
    ((frame_ite ?_).trans ((frame_ite ?_).trans ((frame_ite ?_).trans ?_)))
  all_goals rfl

/-- The marks clear all flags but their own. -/
theorem remark_route (mark qosTag : BitVec 32) (dscp : BitVec 8) :
    (cm.remark msg mark qosTag dscp).flags.route =
      ⟨false, false, false, false, false, msg.ruleFlags.bridgeFlow⟩ := by
  have bridged : ∀ route : RouteFlags, route = ⟨false, false, false, false, false, false⟩ →
      { route with bridgeFlow := msg.ruleFlags.bridgeFlow || route.bridgeFlow } =
        (⟨false, false, false, false, false, msg.ruleFlags.bridgeFlow⟩ : RouteFlags) := by
    rintro route rfl
    simp only [Bool.or_false]
  unfold ConnectionMatch.remark
  refine (bridge_route _ _).trans (bridged _ ?_)
  refine (route_ite ?_).trans ((route_ite ?_).trans ((route_ite ?_).trans ?_))
  all_goals rfl

theorem offload_frame (allowed direct : Bool) : (cm.offload allowed direct).frame = cm.frame := by
  unfold ConnectionMatch.offload
  cases allowed && direct <;> rfl

theorem offload_route (allowed direct : Bool) :
    (cm.offload allowed direct).flags.route = cm.flags.route := by
  unfold ConnectionMatch.offload
  cases allowed && direct <;> rfl

theorem originalPppoe_frame : (cm.originalPppoe msg).frame = cm.frame := by
  unfold ConnectionMatch.originalPppoe
  cases msg.validFlags.pppoeDecap <;> cases msg.validFlags.pppoeEncap <;> rfl

theorem originalPppoe_route :
    (cm.originalPppoe msg).flags.route =
      { cm.flags.route with
        pppoeDecap := msg.validFlags.pppoeDecap || cm.flags.route.pppoeDecap
        pppoeEncap := msg.validFlags.pppoeEncap || cm.flags.route.pppoeEncap } := by
  unfold ConnectionMatch.originalPppoe
  cases msg.validFlags.pppoeDecap <;> cases msg.validFlags.pppoeEncap <;> rfl

theorem l2Header_frame (dev : Dev) (bridgeMac : Mac) (ruleMac : Option Mac) (destMac : Mac) :
    (cm.l2Header net msg dev bridgeMac ruleMac destMac).frame = cm.frame := by
  unfold ConnectionMatch.l2Header
  cases xmitEthTypeCheck net dev cm.flags <;> cases net.ethHeader dev <;> rfl

theorem l2Header_route (dev : Dev) (bridgeMac : Mac) (ruleMac : Option Mac) (destMac : Mac) :
    (cm.l2Header net msg dev bridgeMac ruleMac destMac).flags.route = cm.flags.route := by
  unfold ConnectionMatch.l2Header
  cases xmitEthTypeCheck net dev cm.flags <;> cases net.ethHeader dev <;> rfl

theorem initTcp_frames (original reply : ConnectionMatch A) :
    (initTcp msg original reply).1.frame = original.frame ∧
      (initTcp msg original reply).2.frame = reply.frame := by
  unfold initTcp
  by_cases tcp : msg.tuple.protocol = ipprotoTcp
  · rw [if_pos tcp]
    cases msg.ruleFlags.noSeqCheck <;> exact ⟨rfl, rfl⟩
  · rw [if_neg tcp]
    exact ⟨rfl, rfl⟩

/-- A TCP rule may switch the check of sequence numbers off, in both directions. -/
def skipsSeqCheck : Bool := decide (msg.tuple.protocol = ipprotoTcp) && msg.ruleFlags.noSeqCheck

theorem initTcp_routes (original reply : ConnectionMatch A) :
    (initTcp msg original reply).1.flags.route =
        { original.flags.route with
          noSeqCheck := skipsSeqCheck msg || original.flags.route.noSeqCheck } ∧
      (initTcp msg original reply).2.flags.route =
        { reply.flags.route with
          noSeqCheck := skipsSeqCheck msg || reply.flags.route.noSeqCheck } := by
  unfold initTcp skipsSeqCheck
  by_cases tcp : msg.tuple.protocol = ipprotoTcp
  · simp only [tcp, decide_true, Bool.true_and]
    cases msg.ruleFlags.noSeqCheck <;> exact ⟨rfl, rfl⟩
  · simp only [tcp, decide_false, Bool.false_and]
    exact ⟨rfl, rfl⟩

end Steps

/-! ### The two directions -/

section Fill

variable (net : Net A) (msg : CreateMsg A) (xlate : XlateRule A) (src dest : Dev) (c : Ptr)

theorem fillOriginal_frame (reply : Ptr) (cm : ConnectionMatch A) :
    (fillOriginal net msg xlate src dest c reply cm).frame =
      { key := ⟨src, msg.tuple.protocol, msg.tuple.flowIp,
          if net.isVxlan src then 0 else msg.tuple.flowIdent, msg.tuple.returnIp,
          msg.tuple.returnIdent⟩
        connection := c
        counterMatch := reply
        xmitDev := dest
        xlate := xlate
        up := none
        rxPacketCount := 0
        rxByteCount := 0
        rxPacketCount64 := 0
        rxByteCount64 := 0 } := by
  unfold fillOriginal
  rw [l2Header_frame, originalPppoe_frame, offload_frame, remark_frame]
  rfl

theorem fillOriginal_route (reply : Ptr) (cm : ConnectionMatch A) :
    (fillOriginal net msg xlate src dest c reply cm).flags.route =
      ⟨false, false, false, msg.validFlags.pppoeDecap, msg.validFlags.pppoeEncap,
        msg.ruleFlags.bridgeFlow⟩ := by
  unfold fillOriginal
  rw [l2Header_route, originalPppoe_route, offload_route, remark_route, Bool.or_false,
    Bool.or_false]

/-- The packet counter of the reply direction stays as it was found. -/
theorem fillReply_frame (original : Ptr) (cm : ConnectionMatch A) :
    (fillReply net msg xlate src dest c original cm).frame =
      { key := ⟨dest, msg.tuple.protocol, xlate.returnIpXlate,
          if net.isVxlan src || net.isVxlan dest then 0 else xlate.returnIdentXlate,
          xlate.flowIpXlate, xlate.flowIdentXlate⟩
        connection := c
        counterMatch := original
        xmitDev := src
        xlate := ⟨msg.tuple.returnIp, msg.tuple.returnIdent, msg.tuple.flowIp, msg.tuple.flowIdent⟩
        up := none
        rxPacketCount := cm.rxPacketCount
        rxByteCount := 0
        rxPacketCount64 := 0
        rxByteCount64 := 0 } := by
  have found : (cm.replyPppoe msg).rxPacketCount = cm.rxPacketCount := by
    unfold ConnectionMatch.replyPppoe
    cases msg.validFlags.pppoeDecap <;> cases msg.validFlags.pppoeEncap <;> rfl
  unfold fillReply
  rw [l2Header_frame, offload_frame, remark_frame]
  simp only [ConnectionMatch.frame, found]

/-- No PPPoE flag is left on the reply direction. -/
theorem fillReply_route (original : Ptr) (cm : ConnectionMatch A) :
    (fillReply net msg xlate src dest c original cm).flags.route =
      ⟨false, false, false, false, false, msg.ruleFlags.bridgeFlow⟩ := by
  unfold fillReply
  rw [l2Header_route, offload_route, remark_route]

end Fill

/-! ### Both versions -/

section Versions

variable (src dest : Dev) (c original reply : Ptr)

theorem Ipv4.computeTranslations_frame (cm : ConnectionMatch Ipv4Addr) :
    (Ipv4.computeTranslations cm).frame = cm.frame := by
  unfold Ipv4.computeTranslations
  by_cases source : cm.flags.xlateSrc = true <;> by_cases target : cm.flags.xlateDest = true <;>
    simp [source, target, ConnectionMatch.frame]

theorem Ipv4.computeTranslations_flags (cm : ConnectionMatch Ipv4Addr) :
    (Ipv4.computeTranslations cm).flags = cm.flags := by
  unfold Ipv4.computeTranslations
  by_cases source : cm.flags.xlateSrc = true <;> by_cases target : cm.flags.xlateDest = true <;>
    simp [source, target]

/-- Whether an IPv4 rule translates its flow's side. -/
def Ipv4CreateMsg.translatesFlow (msg : Ipv4CreateMsg) : Bool :=
  Ipv4.translates msg.tuple.flowIp msg.xlate.flowIpXlate msg.tuple.flowIdent
    msg.xlate.flowIdentXlate

/-- Whether an IPv4 rule translates its return side. -/
def Ipv4CreateMsg.translatesReturn (msg : Ipv4CreateMsg) : Bool :=
  Ipv4.translates msg.tuple.returnIp msg.xlate.returnIpXlate msg.tuple.returnIdent
    msg.xlate.returnIdentXlate

theorem Ipv4.xlateFlags_frames (msg : Ipv4CreateMsg)
    (originalCm replyCm : ConnectionMatch Ipv4Addr) :
    (Ipv4.xlateFlags msg originalCm replyCm).1.frame = originalCm.frame ∧
      (Ipv4.xlateFlags msg originalCm replyCm).2.frame = replyCm.frame := by
  unfold Ipv4.xlateFlags
  cases Ipv4.translates msg.tuple.returnIp msg.xlate.returnIpXlate msg.tuple.returnIdent
      msg.xlate.returnIdentXlate <;>
    cases Ipv4.translates msg.tuple.flowIp msg.xlate.flowIpXlate msg.tuple.flowIdent
      msg.xlate.flowIdentXlate <;> exact ⟨rfl, rfl⟩

theorem Ipv4.xlateFlags_routes (msg : Ipv4CreateMsg)
    (originalCm replyCm : ConnectionMatch Ipv4Addr) :
    (Ipv4.xlateFlags msg originalCm replyCm).1.flags.route =
        { originalCm.flags.route with
          xlateSrc := msg.translatesFlow || originalCm.flags.route.xlateSrc
          xlateDest := msg.translatesReturn || originalCm.flags.route.xlateDest } ∧
      (Ipv4.xlateFlags msg originalCm replyCm).2.flags.route =
        { replyCm.flags.route with
          xlateSrc := msg.translatesReturn || replyCm.flags.route.xlateSrc
          xlateDest := msg.translatesFlow || replyCm.flags.route.xlateDest } := by
  unfold Ipv4.xlateFlags Ipv4CreateMsg.translatesFlow Ipv4CreateMsg.translatesReturn
  cases Ipv4.translates msg.tuple.returnIp msg.xlate.returnIpXlate msg.tuple.returnIdent
      msg.xlate.returnIdentXlate <;>
    cases Ipv4.translates msg.tuple.flowIp msg.xlate.flowIpXlate msg.tuple.flowIdent
      msg.xlate.flowIdentXlate <;> exact ⟨rfl, rfl⟩

/-- The frames of the two matches of an IPv4 rule. -/
theorem Ipv4.fill_frames (net : Net Ipv4Addr) (msg : Ipv4CreateMsg)
    (originalCm replyCm : ConnectionMatch Ipv4Addr) :
    (Ipv4.fill net msg src dest c original reply originalCm replyCm).1.frame =
        (fillOriginal net msg.toCreateMsg msg.xlate src dest c reply originalCm).frame ∧
      (Ipv4.fill net msg src dest c original reply originalCm replyCm).2.frame =
        { (fillReply net msg.toCreateMsg msg.xlate src dest c original replyCm).frame with
          rxPacketCount := 0 } := by
  unfold Ipv4.fill
  simp only
  rw [Ipv4.computeTranslations_frame, Ipv4.computeTranslations_frame, (initTcp_frames _ _ _).1,
    (initTcp_frames _ _ _).2, (Ipv4.xlateFlags_frames _ _ _).1, (Ipv4.xlateFlags_frames _ _ _).2]
  exact ⟨rfl, rfl⟩

/-- The flags of the two matches of an IPv4 rule. -/
theorem Ipv4.fill_routes (net : Net Ipv4Addr) (msg : Ipv4CreateMsg)
    (originalCm replyCm : ConnectionMatch Ipv4Addr) :
    (Ipv4.fill net msg src dest c original reply originalCm replyCm).1.flags.route =
        ⟨msg.translatesFlow, msg.translatesReturn, skipsSeqCheck msg.toCreateMsg,
          msg.validFlags.pppoeDecap, msg.validFlags.pppoeEncap, msg.ruleFlags.bridgeFlow⟩ ∧
      (Ipv4.fill net msg src dest c original reply originalCm replyCm).2.flags.route =
        ⟨msg.translatesReturn, msg.translatesFlow, skipsSeqCheck msg.toCreateMsg, false, false,
          msg.ruleFlags.bridgeFlow⟩ := by
  unfold Ipv4.fill
  simp only
  rw [Ipv4.computeTranslations_flags, Ipv4.computeTranslations_flags, (initTcp_routes _ _ _).1,
    (initTcp_routes _ _ _).2, (Ipv4.xlateFlags_routes _ _ _).1, (Ipv4.xlateFlags_routes _ _ _).2,
    fillOriginal_route, fillReply_route]
  simp

/-- The frames of the two matches of an IPv6 rule. -/
theorem Ipv6.fill_frames (net : Net Ipv6Addr) (msg : CreateMsg Ipv6Addr)
    (originalCm replyCm : ConnectionMatch Ipv6Addr) :
    (Ipv6.fill net msg src dest c original reply originalCm replyCm).1.frame =
        (fillOriginal net msg (Ipv6.xlate msg) src dest c reply originalCm).frame ∧
      (Ipv6.fill net msg src dest c original reply originalCm replyCm).2.frame =
        (fillReply net msg (Ipv6.xlate msg) src dest c original replyCm).frame := by
  unfold Ipv6.fill
  simp only
  rw [(initTcp_frames _ _ _).1, (initTcp_frames _ _ _).2]
  refine ⟨?_, rfl⟩
  have zero : (fillOriginal net msg (Ipv6.xlate msg) src dest c reply originalCm).rxByteCount = 0 :=
    congrArg Frame.rxByteCount
      (fillOriginal_frame net msg (Ipv6.xlate msg) src dest c reply originalCm)
  simp only [ConnectionMatch.frame, zero]

/-- The flags of the two matches of an IPv6 rule. -/
theorem Ipv6.fill_routes (net : Net Ipv6Addr) (msg : CreateMsg Ipv6Addr)
    (originalCm replyCm : ConnectionMatch Ipv6Addr) :
    (Ipv6.fill net msg src dest c original reply originalCm replyCm).1.flags.route =
        ⟨false, false, skipsSeqCheck msg, msg.validFlags.pppoeDecap, msg.validFlags.pppoeEncap,
          msg.ruleFlags.bridgeFlow⟩ ∧
      (Ipv6.fill net msg src dest c original reply originalCm replyCm).2.flags.route =
        ⟨false, false, skipsSeqCheck msg, false, false, msg.ruleFlags.bridgeFlow⟩ := by
  unfold Ipv6.fill
  simp only
  rw [(initTcp_routes _ _ _).1, (initTcp_routes _ _ _).2, fillOriginal_route, fillReply_route]
  simp

end Versions

end Qsdk.Sfe
