/-
**The two directions of a rule that was accepted.**

`Mirrored` says that the two matches of a connection are mirror images: what one strips the other
adds, what one translates at the source the other translates at the destination, they bridge and
skip sequence checks together, they point at each other, each sends where the other receives, and
all their counters are zero. A call that accepts a message installs one connection
(`createRule_accepted`), and what was filled in decides whether it is mirrored: it is if and only if
the message asks for no PPPoE, whose flags the reply direction loses, and, for IPv6, the packet
counter of the reply direction happened to be zero in the memory that was allocated.
-/

import Qsdk.Sfe.Fill
import Qsdk.Sfe.Lifecycle

namespace Qsdk.Sfe

variable {A M : Type}

/-- Two matches, at two addresses, are mirror images and have counted nothing. -/
structure Mirrored (originalAt replyAt : Ptr) (original reply : ConnectionMatch A) : Prop where
  decap : original.flags.pppoeDecap = reply.flags.pppoeEncap
  encap : original.flags.pppoeEncap = reply.flags.pppoeDecap
  session : (original.flags.pppoeDecap || original.flags.pppoeEncap) = true →
    original.pppoeSessionId = reply.pppoeSessionId ∧ original.pppoeRemoteMac = reply.pppoeRemoteMac
  xlateSrc : original.flags.xlateSrc = reply.flags.xlateDest
  xlateDest : original.flags.xlateDest = reply.flags.xlateSrc
  bridgeFlow : original.flags.bridgeFlow = reply.flags.bridgeFlow
  noSeqCheck : original.flags.noSeqCheck = reply.flags.noSeqCheck
  counterMatch : original.counterMatch = replyAt ∧ reply.counterMatch = originalAt
  xmitDev : original.xmitDev = reply.matchDev ∧ reply.xmitDev = original.matchDev
  originalCounts : original.rxPacketCount = 0 ∧ original.rxByteCount = 0 ∧
    original.rxPacketCount64 = 0 ∧ original.rxByteCount64 = 0
  replyCounts : reply.rxPacketCount = 0 ∧ reply.rxByteCount = 0 ∧ reply.rxPacketCount64 = 0 ∧
    reply.rxByteCount64 = 0

/-- The matches of a connection of a table are mirror images and have counted nothing. -/
def Table.Mirrored (table : Table A) (c : Ptr) : Prop :=
  Sfe.Mirrored (table.conns c).originalMatch (table.conns c).replyMatch
    (table.cms (table.conns c).originalMatch) (table.cms (table.conns c).replyMatch)

/-! ### What a call that accepts installs -/

/-- A connection of a table, with its two matches and where they stand. -/
structure Table.Holds (table : Table A) (c original reply : Ptr)
    (originalCm replyCm : ConnectionMatch A) : Prop where
  originalMatch : (table.conns c).originalMatch = original
  replyMatch : (table.conns c).replyMatch = reply
  original : table.cms original = originalCm
  reply : table.cms reply = replyCm

section Accepted

variable (copy : Copy A M) (net : Net A) (msg : M) (nowJiffies : BitVec 64)

/-- What an installation puts into the table. -/
theorem State.install_holds (state : State A) (src dest : Dev) (c original reply : Ptr)
    (originalCm replyCm : ConnectionMatch A) (apart : original ≠ reply) :
    (state.install copy msg nowJiffies src dest c original reply originalCm replyCm).table.Holds c
      original reply originalCm replyCm := by
  set table := state.table.fill copy msg nowJiffies src dest c original reply originalCm replyCm
    with isTable
  have conn : table.conns c = fillConnection (copy.msg msg) (copy.xlate msg) src dest original reply
      nowJiffies (state.table.conns c) := by
    rw [isTable, Table.fill, Table.modifyConn_conns, if_pos rfl]
    rfl
  have cms : table.cms = ((state.table.modifyCm original fun _ => originalCm).modifyCm reply
      fun _ => replyCm).cms := rfl
  have moved := Table.insertConnection_fields copy.hashes table c c
  have kept := Table.insertConnection_cms copy.hashes table c
  refine ⟨?_, ?_, ?_, ?_⟩
  · exact moved.1.trans (by rw [conn]; rfl)
  · exact moved.2.1.trans (by rw [conn]; rfl)
  · show (table.insertConnection copy.hashes c).cms original = originalCm
    rw [kept, cms, Table.modifyCm_cms, if_neg apart, Table.modifyCm_cms, if_pos rfl]
  · show (table.insertConnection copy.hashes c).cms reply = replyCm
    rw [kept, cms, Table.modifyCm_cms, if_pos rfl]

/-- **A call that accepts its message installs the filled matches.** -/
theorem createRule_accepted [DecidableEq A] {alloc : Alloc A} {before : State A}
    (fresh : alloc.Fresh before)
    (accepted : (createRule copy net msg nowJiffies alloc before).ret = 0) :
    ∃ (src dest : Dev) (c original reply : Ptr) (contents : Connection A)
      (originalCm replyCm : ConnectionMatch A) (up : Option Nat),
      Started copy net msg alloc src dest c contents original originalCm reply replyCm ∧
      let filled := copy.fill net msg src dest c original reply originalCm replyCm
      (createRule copy net msg nowJiffies alloc before).state.connLive c = true ∧
        (createRule copy net msg nowJiffies alloc before).state.table.Holds c original
        reply filled.1
          (filled.2.withUp up) := by
  have exit := createRule_exit copy net msg nowJiffies alloc before
  generalize createRule copy net msg nowJiffies alloc before = outcome at exit accepted ⊢
  cases exit with
  | noSource | noDest | unregistered | noConn | noOriginal | noReply | collision | deadSocket =>
      cases accepted
  | installed src dest c contents original originalCm reply replyCm started state isState missing
      filled isFilled alive up =>
      obtain ⟨-, apart⟩ := fresh.2.2 _ started.isReply
      have ne : original ≠ reply := apart _ started.isOriginal
      refine ⟨src, dest, c, original, reply, contents, originalCm, replyCm, up, started, ?_, ?_⟩
      · subst isState
        exact Function.update_self c true before.connLive
      have atOriginal : state.table.cms original = originalCm := by
        subst isState
        show ((before.table.modifyCm original fun _ => originalCm).modifyCm reply
          fun _ => replyCm).cms original = originalCm
        rw [Table.modifyCm_cms, if_neg ne, Table.modifyCm_cms, if_pos rfl]
      have atReply : state.table.cms reply = replyCm := by
        subst isState
        show ((before.table.modifyCm original fun _ => originalCm).modifyCm reply
          fun _ => replyCm).cms reply = replyCm
        rw [Table.modifyCm_cms, if_pos rfl]
      rw [atOriginal, atReply] at isFilled
      subst isFilled
      exact State.install_holds copy msg nowJiffies state src dest c original reply _ _ ne

end Accepted

theorem ConnectionMatch.withUp_flags (cm : ConnectionMatch A) (up : Option Nat) :
    (cm.withUp up).flags = cm.flags := by
  cases up <;> rfl

theorem ConnectionMatch.withUp_frame (cm : ConnectionMatch A) (up : Option Nat) :
    (cm.withUp up).frame = { cm.frame with up := (cm.withUp up).up } := by
  cases up <;> rfl

/-! ### When the directions are mirrored -/

/-- Two matches with mirrored frames are mirrored if and only if their flags are, and the reply
direction's packet counter is zero. -/
theorem mirrored_iff_of_frames {original reply : Ptr} {originalCm replyCm : ConnectionMatch A}
    {decap encap translatesFlow translatesReturn skips bridge : Bool}
    (originalRoute : originalCm.flags.route =
      ⟨translatesFlow, translatesReturn, skips, decap, encap, bridge⟩)
    (replyRoute : replyCm.flags.route =
      ⟨translatesReturn, translatesFlow, skips, false, false, bridge⟩)
    (links : originalCm.counterMatch = reply ∧ replyCm.counterMatch = original)
    (devices : originalCm.xmitDev = replyCm.matchDev ∧ replyCm.xmitDev = originalCm.matchDev)
    (originalCounts : originalCm.rxPacketCount = 0 ∧ originalCm.rxByteCount = 0 ∧
      originalCm.rxPacketCount64 = 0 ∧ originalCm.rxByteCount64 = 0)
    (replyCounts : replyCm.rxByteCount = 0 ∧ replyCm.rxPacketCount64 = 0 ∧
      replyCm.rxByteCount64 = 0) :
    Mirrored original reply originalCm replyCm ↔
      decap = false ∧ encap = false ∧ replyCm.rxPacketCount = 0 := by
  simp only [MatchFlags.route, RouteFlags.mk.injEq] at originalRoute replyRoute
  obtain ⟨oSrc, oDest, oSkip, oDecap, oEncap, oBridge⟩ := originalRoute
  obtain ⟨rSrc, rDest, rSkip, rDecap, rEncap, rBridge⟩ := replyRoute
  constructor
  · intro mirrored
    refine ⟨?_, ?_, mirrored.replyCounts.1⟩
    · rw [← oDecap, mirrored.decap, rEncap]
    · rw [← oEncap, mirrored.encap, rDecap]
  · rintro ⟨noDecap, noEncap, count⟩
    exact
      { decap := by rw [oDecap, rEncap, noDecap]
        encap := by rw [oEncap, rDecap, noEncap]
        session := by
          rw [oDecap, oEncap, noDecap, noEncap]
          exact fun set => by cases set
        xlateSrc := by rw [oSrc, rDest]
        xlateDest := by rw [oDest, rSrc]
        bridgeFlow := by rw [oBridge, rBridge]
        noSeqCheck := by rw [oSkip, rSkip]
        counterMatch := links
        xmitDev := devices
        originalCounts := originalCounts
        replyCounts := ⟨count, replyCounts⟩ }

/-- The same for filled matches that stand in a table, with whatever socket the reply direction
got. -/
theorem Table.Holds.mirrors_iff {table : Table A} {c original reply : Ptr}
    {originalCm replyCm : ConnectionMatch A} {up : Option Nat}
    (holds : table.Holds c original reply originalCm (replyCm.withUp up))
    {decap encap translatesFlow translatesReturn skips bridge : Bool}
    (routes : originalCm.flags.route =
        ⟨translatesFlow, translatesReturn, skips, decap, encap, bridge⟩ ∧
      replyCm.flags.route = ⟨translatesReturn, translatesFlow, skips, false, false, bridge⟩)
    {originalFrame replyFrame : Frame A}
    (frames : originalCm.frame = originalFrame ∧ replyCm.frame = replyFrame)
    (links : originalFrame.counterMatch = reply ∧ replyFrame.counterMatch = original)
    (devices : originalFrame.xmitDev = replyFrame.key.dev ∧
      replyFrame.xmitDev = originalFrame.key.dev)
    (originalCounts : originalFrame.rxPacketCount = 0 ∧ originalFrame.rxByteCount = 0 ∧
      originalFrame.rxPacketCount64 = 0 ∧ originalFrame.rxByteCount64 = 0)
    (replyCounts : replyFrame.rxByteCount = 0 ∧ replyFrame.rxPacketCount64 = 0 ∧
      replyFrame.rxByteCount64 = 0) :
    table.Mirrored c ↔ decap = false ∧ encap = false ∧ replyFrame.rxPacketCount = 0 := by
  obtain ⟨rfl, rfl⟩ := frames
  rw [Table.Mirrored, holds.originalMatch, holds.replyMatch, holds.original, holds.reply]
  have count : (replyCm.withUp up).rxPacketCount = replyCm.rxPacketCount :=
    congrArg Frame.rxPacketCount (replyCm.withUp_frame up)
  have key : (replyCm.withUp up).key = replyCm.key := congrArg Frame.key (replyCm.withUp_frame up)
  have iff := mirrored_iff_of_frames routes.1
    ((congrArg MatchFlags.route (replyCm.withUp_flags up)).trans routes.2)
    ⟨links.1, (congrArg Frame.counterMatch (replyCm.withUp_frame up)).trans links.2⟩
    ⟨devices.1.trans (congrArg MatchKey.dev key).symm,
      (congrArg Frame.xmitDev (replyCm.withUp_frame up)).trans devices.2⟩
    originalCounts
    ⟨(congrArg Frame.rxByteCount (replyCm.withUp_frame up)).trans replyCounts.1,
      (congrArg Frame.rxPacketCount64 (replyCm.withUp_frame up)).trans replyCounts.2.1,
      (congrArg Frame.rxByteCount64 (replyCm.withUp_frame up)).trans replyCounts.2.2⟩
  rw [count] at iff
  exact iff

/-- An accepted IPv4 message installs a mirrored pair if and only if it asks for no PPPoE. -/
theorem Ipv4.createRule_mirrored (net : Net Ipv4Addr) (msg : Ipv4CreateMsg) (nowJiffies : BitVec 64)
    (alloc : Alloc Ipv4Addr) (state : State Ipv4Addr) (fresh : alloc.Fresh state)
    (accepted : (Ipv4.createRule net msg nowJiffies alloc state).ret = 0) :
    ∃ block ∈ alloc.conn,
      ((Ipv4.createRule net msg nowJiffies alloc state).state.table.Mirrored block.1 ↔
        msg.validFlags.pppoeDecap = false ∧ msg.validFlags.pppoeEncap = false) := by
  obtain ⟨src, dest, c, original, reply, contents, originalCm, replyCm, up, started, -, holds⟩ :=
    createRule_accepted Ipv4.copy net msg nowJiffies fresh accepted
  refine ⟨(c, contents), started.isConn, ?_⟩
  have frames := Ipv4.fill_frames src dest c original reply net msg originalCm replyCm
  rw [fillOriginal_frame, fillReply_frame] at frames
  have iff := holds.mirrors_iff
    (Ipv4.fill_routes src dest c original reply net msg originalCm replyCm) frames ⟨rfl, rfl⟩
    ⟨rfl, rfl⟩ ⟨rfl, rfl, rfl, rfl⟩ ⟨rfl, rfl, rfl⟩
  exact iff.trans ⟨fun holds => ⟨holds.1, holds.2.1⟩, fun none => ⟨none.1, none.2, rfl⟩⟩

/-- An accepted IPv6 message installs a mirrored pair if and only if it asks for no PPPoE and the
memory of the reply direction came with a packet counter of zero. -/
theorem Ipv6.createRule_mirrored (net : Net Ipv6Addr) (msg : CreateMsg Ipv6Addr)
    (nowJiffies : BitVec 64) (alloc : Alloc Ipv6Addr) (state : State Ipv6Addr)
    (fresh : alloc.Fresh state)
    (accepted : (Ipv6.createRule net msg nowJiffies alloc state).ret = 0) :
    ∃ block ∈ alloc.conn, ∃ found ∈ alloc.reply,
      ((Ipv6.createRule net msg nowJiffies alloc state).state.table.Mirrored block.1 ↔
        msg.validFlags.pppoeDecap = false ∧ msg.validFlags.pppoeEncap = false ∧
          found.2.rxPacketCount = 0) := by
  obtain ⟨src, dest, c, original, reply, contents, originalCm, replyCm, up, started, -, holds⟩ :=
    createRule_accepted Ipv6.copy net msg nowJiffies fresh accepted
  refine ⟨(c, contents), started.isConn, (reply, replyCm), started.isReply, ?_⟩
  have frames := Ipv6.fill_frames src dest c original reply net msg originalCm replyCm
  rw [fillOriginal_frame, fillReply_frame] at frames
  exact holds.mirrors_iff
    (Ipv6.fill_routes src dest c original reply net msg originalCm replyCm) frames ⟨rfl, rfl⟩
    ⟨rfl, rfl⟩ ⟨rfl, rfl, rfl, rfl⟩ ⟨rfl, rfl, rfl⟩

/-- **When the two directions of an accepted rule are mirror images.** For both versions the message
must ask for no PPPoE; for IPv6 the memory of the reply direction must come with a packet counter of
zero. -/
theorem mirrored_iff (nowJiffies : BitVec 64) :
    (∀ (net : Net Ipv4Addr) (msg : Ipv4CreateMsg) (alloc : Alloc Ipv4Addr) (state : State Ipv4Addr),
      alloc.Fresh state → (Ipv4.createRule net msg nowJiffies alloc state).ret = 0 →
      ∃ block ∈ alloc.conn,
        ((Ipv4.createRule net msg nowJiffies alloc state).state.table.Mirrored block.1 ↔
          msg.validFlags.pppoeDecap = false ∧ msg.validFlags.pppoeEncap = false)) ∧
    (∀ (net : Net Ipv6Addr) (msg : CreateMsg Ipv6Addr) (alloc : Alloc Ipv6Addr)
      (state : State Ipv6Addr),
      alloc.Fresh state → (Ipv6.createRule net msg nowJiffies alloc state).ret = 0 →
      ∃ block ∈ alloc.conn, ∃ found ∈ alloc.reply,
        ((Ipv6.createRule net msg nowJiffies alloc state).state.table.Mirrored block.1 ↔
          msg.validFlags.pppoeDecap = false ∧ msg.validFlags.pppoeEncap = false ∧
            found.2.rxPacketCount = 0)) :=
  ⟨fun net msg => Ipv4.createRule_mirrored net msg nowJiffies,
    fun net msg => Ipv6.createRule_mirrored net msg nowJiffies⟩

/-! ### A rule over PPPoE -/

/-- A telnet rule whose flow comes in over PPPoE, in session 7. -/
def Ipv4.pppoeRule : Ipv4CreateMsg :=
  let msg := Ipv4.ruleFor telnet telnet
  { msg with
    validFlags := { pppoeDecap := true }
    pppoeRule := { msg.pppoeRule with flowPppoeSessionId := 7 } }

/-- A state in which nothing is allocated. -/
def State.blank [Inhabited A] : State A := (Engine.blank : Engine A).toState

/-- The state after a rule was created from nothing, at the addresses 0 for all three objects but
the reply match, which is at 1. -/
def Ipv4.created (msg : Ipv4CreateMsg) : Outcome Ipv4Addr :=
  Ipv4.createRule (twoDevices Ipv4Addr) msg 0 (freshAt 0 0 1 default default) State.blank

/-- The rule over PPPoE is accepted, and its reply direction does not add what its original
direction strips. -/
theorem Ipv4.not_mirrored_pppoe :
    (Ipv4.created Ipv4.pppoeRule).ret = 0 ∧
      ¬(Ipv4.created Ipv4.pppoeRule).state.table.Mirrored 0 := by
  refine ⟨by decide +kernel, fun mirrored => ?_⟩
  have decap := mirrored.decap
  revert decap
  decide +kernel

/-- The same rule without PPPoE is mirrored, and so is an IPv6 rule in memory that was cleared. -/
theorem mirrored_iff_plain :
    (Ipv4.created (Ipv4.ruleFor telnet telnet)).state.table.Mirrored 0 ∧
      (Ipv6.createRule (twoDevices Ipv6Addr) (plainRule default) 0 (freshAt 0 0 1 default default)
        State.blank).state.table.Mirrored 0 := by
  obtain ⟨ofIpv4, ofIpv6⟩ := mirrored_iff 0
  constructor
  · obtain ⟨block, isBlock, iff⟩ := ofIpv4 (twoDevices Ipv4Addr) (Ipv4.ruleFor telnet telnet)
      (freshAt 0 0 1 default default) State.blank (by decide +kernel) (by decide +kernel)
    cases isBlock
    exact iff.mpr ⟨rfl, rfl⟩
  · obtain ⟨block, isBlock, found, isFound, iff⟩ := ofIpv6 (twoDevices Ipv6Addr) (plainRule default)
      (freshAt 0 0 1 default default) State.blank (by decide +kernel) (by decide +kernel)
    cases isBlock
    cases isFound
    exact iff.mpr ⟨rfl, rfl, rfl⟩

end Qsdk.Sfe
