/-
**Creating a rule that exists.**

`Recreates` says what a call of `create_rule` owes to the rules that are there. If the tuple of its
message is in the table it returns `-EADDRINUSE`, merges the TCP state of the message into the
connection of that tuple, changes nothing else that is in use, and reads nothing of the connection
that it allocated; on every return the lock is free, and on every failure the devices and the memory
are given back.

Two slips stand against it. The IPv4 copy merges a TCP message into the connection that it has just
allocated, where the IPv6 copy merges it into the one it found. And both copies return `-ESHUTDOWN`
with the lock taken. Nothing else does (`recreates_iff`).

The first slip is also all that stands against the tables of IPv4: every other call and every other
act leaves them coherent (`Ipv4.tables_coherent`).
-/

import Qsdk.Lib.Serial
import Qsdk.Sfe.Fill
import Qsdk.Sfe.Lifecycle

namespace Qsdk.Sfe

variable {A M : Type}

/-- The windows of a direction after those of a message were merged into them: the larger maximum,
and of two ends the later. -/
structure ConnectionMatch.Merges (before after : ConnectionMatch A)
    (maxWindow newEnd newMaxEnd : BitVec 32) (noSeqCheck : Bool) : Prop where
  maxWin : after.tcp.maxWin.toNat = max before.tcp.maxWin.toNat maxWindow.toNat
  end_ : after.tcp.end_ =
    if Serial.gte newEnd before.tcp.end_ then newEnd else before.tcp.end_
  maxEnd : after.tcp.maxEnd =
    if Serial.gte newMaxEnd before.tcp.maxEnd then newMaxEnd else before.tcp.maxEnd
  noSeqCheck : after.flags.noSeqCheck = noSeqCheck
  others : after = { before with
    tcp := { after.tcp with winScale := before.tcp.winScale }
    flags := { before.flags with noSeqCheck := after.flags.noSeqCheck } }

/-- What is in use, after a message was merged into the connection `old`. -/
structure State.Remerged (before after : State A) (msg : CreateMsg A) (old : Ptr) : Prop where
  heads : before.table.SameHeads after.table
  wcNext : after.table.wcNext = before.table.wcNext
  conns : ∀ c, before.connLive c = true → after.table.conns c = before.table.conns c
  cms : ∀ cm, before.cmLive cm = true → cm ≠ (before.table.conns old).originalMatch →
    cm ≠ (before.table.conns old).replyMatch → after.table.cms cm = before.table.cms cm
  tcp : msg.tuple.protocol = ipprotoTcp →
    (before.table.cms (before.table.conns old).originalMatch).Merges
        (after.table.cms (before.table.conns old).originalMatch) msg.tcpRule.flowMaxWindow
        msg.tcpRule.flowEnd msg.tcpRule.flowMaxEnd msg.ruleFlags.noSeqCheck ∧
      (before.table.cms (before.table.conns old).replyMatch).Merges
        (after.table.cms (before.table.conns old).replyMatch) msg.tcpRule.returnMaxWindow
        msg.tcpRule.returnEnd msg.tcpRule.returnMaxEnd msg.ruleFlags.noSeqCheck
  other : msg.tuple.protocol ≠ ipprotoTcp →
    ∀ cm, before.cmLive cm = true → after.table.cms cm = before.table.cms cm

/-- The devices and the memory are there, so that a call gets to its search. -/
def Arrives (copy : Copy A M) (net : Net A) (msg : M) (alloc : Alloc A) (src dest : Dev) : Prop :=
  ∃ c contents original originalCm reply replyCm,
    Started copy net msg alloc src dest c contents original originalCm reply replyCm

/-- What a call owes to the rules that are there. -/
structure Recreates [DecidableEq A] (copy : Copy A M) (net : Net A) (msg : M) (alloc : Alloc A)
    (before : State A) (outcome : Outcome A) : Prop where
  collision : ∀ src dest old, Arrives copy net msg alloc src dest →
    before.table.findConnection copy.hashes (copy.msg msg).tuple = some old →
    outcome.ret = -EADDRINUSE ∧ before.Remerged outcome.state (copy.msg msg) old ∧
      ∀ block ∈ alloc.conn, block.1 ∉ outcome.reads
  unlocked : outcome.state.locked = false
  released : outcome.ret ≠ 0 →
    outcome.state.devRefs = before.devRefs ∧ outcome.state.connLive = before.connLive ∧
      outcome.state.cmLive = before.cmLive

/-! ### Merging -/

/-- The test of the code for a later end is the serial order, up to equal values. -/
theorem later_eq_gte (old new : BitVec 32) :
    (if later old new then new else old) = if Serial.gte new old then new else old := by
  by_cases same : new = old
  · rw [same, ite_self, ite_self]
  · have wrapped : (new - old).toNat = 2 ^ 32 - (old - new).toNat := by
      have apart : (old - new).toNat ≠ 0 := by
        intro zero
        refine same (sub_eq_zero.mp (BitVec.eq_of_toNat_eq ?_)).symm
        exact zero
      rw [← neg_sub old new, BitVec.toNat_neg]
      exact Nat.mod_eq_of_lt (by omega)
    have agree : later old new = Serial.gte new old := by
      have bound := (old - new).isLt
      have sign : (old - new).slt 0#32 = (old - new).msb := BitVec.slt_zero_eq_msb
      show (old - new).slt 0#32 = decide ((new - old).toNat ≤ 2 ^ (32 - 1))
      rw [sign, BitVec.msb_eq_decide, wrapped, decide_eq_decide]
      omega
    rw [agree]

theorem max_window (old new : BitVec 32) :
    (if old.ult new then new else old).toNat = max old.toNat new.toNat := by
  have order : old.ult new = true ↔ old.toNat < new.toNat := by
    rw [BitVec.ult_eq_decide, decide_eq_true_eq]
  by_cases less : old.ult new = true
  · rw [if_pos less]
    have := order.mp less
    omega
  · rw [if_neg less]
    have atMost := Nat.le_of_not_lt fun lt => less (order.mpr lt)
    omega

theorem TcpState.merge_merges (cm : ConnectionMatch A) (noSeqCheck : Bool)
    (maxWindow newEnd newMaxEnd : BitVec 32) :
    cm.Merges
      { cm with
        tcp := cm.tcp.merge maxWindow newEnd newMaxEnd
        flags := { cm.flags with noSeqCheck := noSeqCheck } }
      maxWindow newEnd newMaxEnd noSeqCheck where
  maxWin := max_window _ _
  end_ := later_eq_gte _ _
  maxEnd := later_eq_gte _ _
  noSeqCheck := rfl
  others := rfl

/-- Where a merge leads, if the connection's matches are different. -/
theorem Table.updateProtocolState_cms (table : Table A) (msg : CreateMsg A) (c cm : Ptr)
    (apart : (table.conns c).originalMatch ≠ (table.conns c).replyMatch) :
    (table.updateProtocolState msg c).cms cm =
      if msg.tuple.protocol ≠ ipprotoTcp then table.cms cm
      else if cm = (table.conns c).originalMatch then (table.cms cm).mergeFlow msg
      else if cm = (table.conns c).replyMatch then (table.cms cm).mergeReturn msg
      else table.cms cm := by
  unfold Table.updateProtocolState Table.updateTcpState
  by_cases tcp : msg.tuple.protocol = ipprotoTcp
  · rw [if_pos tcp, if_neg (not_not_intro tcp)]
    simp only [Table.modifyCm_cms]
    by_cases isOriginal : cm = (table.conns c).originalMatch
    · rw [isOriginal, if_neg apart, if_pos rfl, if_pos rfl]
    · by_cases isReply : cm = (table.conns c).replyMatch
      · rw [isReply, if_pos rfl, if_neg apart.symm, if_neg apart.symm, if_pos rfl]
      · rw [if_neg isReply, if_neg isOriginal, if_neg isOriginal, if_neg isReply]
  · rw [if_neg tcp, if_pos tcp]

theorem Table.updateProtocolState_conns (table : Table A) (msg : CreateMsg A) (c : Ptr) :
    (table.updateProtocolState msg c).conns = table.conns := by
  unfold Table.updateProtocolState
  split
  · rfl
  · rfl

/-- **Merging a message into a member of the table changes its matches and nothing else.** -/
theorem Sound.remerged {hashes : Hashes A} {engine : Engine A} {members : List Ptr}
    {chain : BitVec 32 → List Ptr} (sound : Sound hashes engine members chain) {state : State A}
    {c original reply : Ptr} (allocated : engine.toState.Allocated state c original reply)
    (msg : CreateMsg A) {old : Ptr} (mem : old ∈ members) (after : State A)
    (table : after.table = state.table.updateProtocolState msg old) :
    engine.toState.Remerged after msg old := by
  obtain ⟨apart, originalLive, replyLive⟩ := sound.matches_of_live (sound.member_live mem)
  have place := allocated.conns old (sound.member_live mem)
  have merged : ∀ cm, engine.cmLive cm = true → after.table.cms cm =
      if msg.tuple.protocol ≠ ipprotoTcp then engine.table.cms cm
      else if cm = (engine.table.conns old).originalMatch then (engine.table.cms cm).mergeFlow msg
      else if cm = (engine.table.conns old).replyMatch then (engine.table.cms cm).mergeReturn msg
      else engine.table.cms cm := by
    intro cm live
    rw [table, Table.updateProtocolState_cms _ _ _ _ (by rw [place]; exact apart), place,
      allocated.cms cm live]
  have same : state.table.SameRules after.table := by
    rw [table]
    exact Table.SameRules.updateProtocolState msg old
  exact
    { heads := ⟨same.heads.connHash.trans allocated.heads.connHash,
        same.heads.connMatchHash.trans allocated.heads.connMatchHash,
        same.heads.head.trans allocated.heads.head, same.heads.tail.trans allocated.heads.tail,
        same.heads.count.trans allocated.heads.count⟩
      wcNext := same.wcNext.trans allocated.wcNext
      conns := fun other live => by
        rw [table, Table.updateProtocolState_conns]
        exact allocated.conns other live
      cms := fun cm live notOriginal notReply => by
        rw [merged cm live, if_neg notOriginal, if_neg notReply, ite_self]
      tcp := fun tcp => by
        rw [merged _ originalLive, merged _ replyLive, if_neg (not_not_intro tcp),
          if_neg (not_not_intro tcp), if_pos rfl, if_neg apart.symm, if_pos rfl]
        exact ⟨TcpState.merge_merges _ _ _ _ _, TcpState.merge_merges _ _ _ _ _⟩
      other := fun other cm live => by rw [merged cm live, if_pos other] }

/-! ### Giving back -/

theorem State.devHold_devRefs (state : State A) (taken dev : Dev) :
    (state.devHold taken).devRefs dev = state.devRefs dev + if dev = taken then 1 else 0 := by
  refine (Function.update_apply _ _ _ _).trans ?_
  split
  · next same => rw [same]
  · rw [add_zero]

theorem State.devPut_devRefs (state : State A) (dropped dev : Dev) :
    (state.devPut dropped).devRefs dev = state.devRefs dev - if dev = dropped then 1 else 0 := by
  refine (Function.update_apply _ _ _ _).trans ?_
  split
  · next same => rw [same]
  · rw [sub_zero]

/-- Two references that were taken and dropped. -/
theorem State.devRefs_restored (before : State A) (src dest : Dev) :
    ((((before.devHold src).devHold dest).devPut src).devPut dest).devRefs = before.devRefs := by
  funext dev
  rw [State.devPut_devRefs, State.devPut_devRefs, State.devHold_devRefs, State.devHold_devRefs]
  ring

/-! ### The call -/

section Call

variable [DecidableEq A] (copy : Copy A M) (net : Net A) (msg : M) (nowJiffies : BitVec 64)

/-- The inputs on which a copy meets what it owes: if a call gets to its search, it does not find a
TCP connection while the copy would merge into the fresh one, and it does not meet a dead socket. -/
def Clean (pickOld : Bool) (alloc : Alloc A) (before : State A) : Prop :=
  ∀ src dest, Arrives copy net msg alloc src dest →
    ((before.table.findConnection copy.hashes (copy.msg msg).tuple).isSome = true →
      (copy.msg msg).tuple.protocol = ipprotoTcp → pickOld = true) ∧
    (before.table.findConnection copy.hashes (copy.msg msg).tuple = none →
      ¬net.DeadSocket dest (copy.xlate msg).flowIpXlate (copy.xlate msg).flowIdentXlate
        (copy.msg msg).tuple.returnIp (copy.msg msg).tuple.returnIdent src)

variable {copy net msg} {pickOld : Bool} {alloc : Alloc A}

/-- A call that ends before its search owes nothing to the rules. -/
theorem recreates_early {before : State A} {outcome : Outcome A}
    (never : ∀ src dest, ¬Arrives copy net msg alloc src dest) (unlocked : before.locked = false)
    (lock : outcome.state.locked = before.locked)
    (released : outcome.state.devRefs = before.devRefs ∧ outcome.state.connLive = before.connLive ∧
      outcome.state.cmLive = before.cmLive) :
    Recreates copy net msg alloc before outcome ↔ Clean copy net msg pickOld alloc before :=
  iff_of_true
    ⟨fun src dest _ arrives => absurd arrives (never src dest), lock.trans unlocked,
      fun _ => released⟩
    (fun src dest arrives => absurd arrives (never src dest))

section Started

variable {engine : Engine A} {members : List Ptr} {chain : BitVec 32 → List Ptr} {src dest : Dev}
  {c original reply : Ptr} {contents : Connection A} {originalCm replyCm : ConnectionMatch A}

/-- The search finds what it would have found before. -/
theorem Sound.findConnection_allocated {state : State A}
    (sound : Sound copy.hashes engine members chain)
    (allocated : engine.toState.Allocated state c original reply) (tuple : Tuple A) :
    state.table.findConnection copy.hashes tuple =
      engine.table.findConnection copy.hashes tuple := by
  refine Option.ext fun old => ?_
  rw [(sound.coherent_allocated allocated).findConnection, sound.coherent.findConnection]
  refine and_congr_right fun mem => ?_
  rw [allocated.conns old (sound.member_live mem)]

omit [DecidableEq A] in
/-- What a call that got to its search gives back. -/
theorem Started.released
    (started : Started copy net msg alloc src dest c contents original originalCm reply replyCm)
    (fresh : alloc.Fresh engine.toState) {after : State A}
    (devRefs : after.devRefs = ((engine.toState.devHold src).devHold dest).devRefs)
    (connLive : after.connLive = Function.update engine.connLive c true)
    (cmLive : after.cmLive =
      Function.update (Function.update engine.cmLive original true) reply true) :
    (after.release src dest c original reply).devRefs = engine.devRefs ∧
      (after.release src dest c original reply).connLive = engine.connLive ∧
      (after.release src dest c original reply).cmLive = engine.cmLive := by
  have allocated := started.allocated fresh
  refine ⟨?_, ?_, ?_⟩
  · rw [← State.devRefs_restored engine.toState src dest]
    funext dev
    show ((after.devPut src).devPut dest).devRefs dev = _
    rw [State.devPut_devRefs, State.devPut_devRefs, devRefs, ← State.devPut_devRefs,
      ← State.devPut_devRefs]
  · show Function.update after.connLive c false = engine.connLive
    rw [connLive, update_true_false _ _ allocated.conn_fresh]
  · show Function.update (Function.update after.cmLive reply false) original false = engine.cmLive
    have replyFresh : Function.update engine.cmLive original true reply = false := by
      rw [Function.update_of_ne allocated.apart.symm, allocated.reply_fresh]
    rw [cmLive, update_true_false _ _ replyFresh, update_true_false _ _ allocated.original_fresh]

/-- A call that finds a rule meets what it owes unless it merges TCP state into the fresh
connection. -/
theorem recreates_collision
    (merges : ∀ fresh old, copy.mergeInto fresh old = if pickOld then old else fresh)
    (sound : Sound copy.hashes engine members chain) (fresh : alloc.Fresh engine.toState)
    (started : Started copy net msg alloc src dest c contents original originalCm reply replyCm)
    {state : State A}
    (isState : state =
      engine.toState.started src dest c contents original originalCm reply replyCm) {old : Ptr}
    (found : state.table.findConnection copy.hashes (copy.msg msg).tuple = some old) :
    Recreates copy net msg alloc engine.toState
        ⟨-EADDRINUSE,
          State.release
            (State.unlock { state with
              table := state.table.updateProtocolState (copy.msg msg) (copy.mergeInto c old) })
            src dest c original reply,
          Table.updateProtocolReads (copy.msg msg) (copy.mergeInto c old)⟩ ↔
      Clean copy net msg pickOld alloc engine.toState := by
  have allocated : engine.toState.Allocated state c original reply := by
    rw [isState]
    exact started.allocated fresh
  have foundBefore : engine.table.findConnection copy.hashes (copy.msg msg).tuple = some old := by
    rw [← sound.findConnection_allocated allocated, found]
  have mem : old ∈ members := ((sound.coherent.findConnection _ _).mp foundBefore).1
  have differs : old ≠ c := fun same => by
    have live := sound.member_live mem
    rw [same, allocated.conn_fresh] at live
    cases live
  constructor
  · intro owes other another _
    refine ⟨fun _ tcp => ?_, fun missing => ?_⟩
    · by_contra pickFresh
      have unread := (owes.collision src dest old
        ⟨c, contents, original, originalCm, reply, replyCm, started⟩ foundBefore).2.2 _
        started.isConn
      rw [merges, if_neg pickFresh, Table.updateProtocolReads, if_pos tcp] at unread
      exact unread (List.mem_singleton.mpr rfl)
    · rw [foundBefore] at missing
      cases missing
  · intro clean
    have picks : (copy.msg msg).tuple.protocol = ipprotoTcp → copy.mergeInto c old = old := by
      intro tcp
      rw [merges, if_pos]
      refine (clean src dest ⟨c, contents, original, originalCm, reply, replyCm, started⟩).1 ?_ tcp
      rw [foundBefore]
      rfl
    have target : state.table.updateProtocolState (copy.msg msg) (copy.mergeInto c old) =
        state.table.updateProtocolState (copy.msg msg) old := by
      by_cases tcp : (copy.msg msg).tuple.protocol = ipprotoTcp
      · rw [picks tcp]
      · rw [Table.updateProtocolState, Table.updateProtocolState, if_neg tcp, if_neg tcp]
    refine ⟨fun other another rule _ isRule => ?_, rfl, fun _ => ?_⟩
    · rw [foundBefore] at isRule
      cases isRule
      refine ⟨rfl, sound.remerged allocated (copy.msg msg) mem _ target,
        fun block isBlock read => ?_⟩
      have same := started.isConn.symm.trans isBlock
      cases same
      unfold Table.updateProtocolReads at read
      split at read
      · next tcp =>
          rw [List.mem_singleton, picks tcp] at read
          exact differs read.symm
      · cases read
    · subst isState
      exact started.released fresh rfl rfl rfl

omit [DecidableEq A] in
/-- Which socket is looked up for a filled reply direction. -/
theorem deadSocket_filled
    (xlated : ∀ src dest c original reply originalCm replyCm,
      let filled := copy.fill net msg src dest c original reply originalCm replyCm
      filled.2.matchDev = dest ∧ filled.2.matchDestIp = (copy.xlate msg).flowIpXlate ∧
        filled.2.matchDestPort = (copy.xlate msg).flowIdentXlate ∧
        filled.2.xlateSrcIp = (copy.msg msg).tuple.returnIp ∧
        filled.2.xlateSrcPort = (copy.msg msg).tuple.returnIdent)
    {state : State A} {filled : ConnectionMatch A × ConnectionMatch A}
    (isFilled : filled = copy.fill net msg src dest c original reply (state.table.cms original)
      (state.table.cms reply)) :
    net.DeadSocket filled.2.matchDev filled.2.matchDestIp filled.2.matchDestPort
        filled.2.xlateSrcIp filled.2.xlateSrcPort src ↔
      net.DeadSocket dest (copy.xlate msg).flowIpXlate (copy.xlate msg).flowIdentXlate
        (copy.msg msg).tuple.returnIp (copy.msg msg).tuple.returnIdent src := by
  obtain ⟨dev, destIp, destPort, srcIp, srcPort⟩ :=
    xlated src dest c original reply (state.table.cms original) (state.table.cms reply)
  rw [isFilled, dev, destIp, destPort, srcIp, srcPort]

end Started

variable (nowJiffies : BitVec 64)

/-- **A copy of `create_rule` meets what it owes on clean inputs and on no others.** -/
theorem recreates_iff_clean
    (merges : ∀ fresh old, copy.mergeInto fresh old = if pickOld then old else fresh)
    (xlated : ∀ src dest c original reply originalCm replyCm,
      let filled := copy.fill net msg src dest c original reply originalCm replyCm
      filled.2.matchDev = dest ∧ filled.2.matchDestIp = (copy.xlate msg).flowIpXlate ∧
        filled.2.matchDestPort = (copy.xlate msg).flowIdentXlate ∧
        filled.2.xlateSrcIp = (copy.msg msg).tuple.returnIp ∧
        filled.2.xlateSrcPort = (copy.msg msg).tuple.returnIdent)
    {engine : Engine A} {members : List Ptr} {chain : BitVec 32 → List Ptr}
    (sound : Sound copy.hashes engine members chain) (unlocked : engine.locked = false)
    (fresh : alloc.Fresh engine.toState) :
    Recreates copy net msg alloc engine.toState
        (createRule copy net msg nowJiffies alloc engine.toState) ↔
      Clean copy net msg pickOld alloc engine.toState := by
  have exit := createRule_exit copy net msg nowJiffies alloc engine.toState
  generalize createRule copy net msg nowJiffies alloc engine.toState = outcome at exit ⊢
  cases exit with
  | noSource missing =>
      refine recreates_early ?_ unlocked rfl ⟨rfl, rfl, rfl⟩
      rintro src dest ⟨c, contents, original, originalCm, reply, replyCm, started⟩
      rw [started.isSrc] at missing
      cases missing
  | noDest src missing =>
      refine recreates_early ?_ unlocked rfl ⟨?_, rfl, rfl⟩
      · rintro src dest ⟨c, contents, original, originalCm, reply, replyCm, started⟩
        rw [started.isDest] at missing
        cases missing
      · funext dev
        rw [State.devPut_devRefs, State.devHold_devRefs]
        ring
  | unregistered src dest isSrc isDest down =>
      refine recreates_early ?_ unlocked rfl ⟨State.devRefs_restored _ src dest, rfl, rfl⟩
      rintro other another ⟨c, contents, original, originalCm, reply, replyCm, started⟩
      have up := started.registered
      have sameSrc := isSrc.symm.trans started.isSrc
      have sameDest := isDest.symm.trans started.isDest
      cases sameSrc
      cases sameDest
      rw [down] at up
      cases up
  | noConn src dest missing =>
      refine recreates_early ?_ unlocked rfl ⟨State.devRefs_restored _ src dest, rfl, rfl⟩
      rintro src dest ⟨c, contents, original, originalCm, reply, replyCm, started⟩
      rw [started.isConn] at missing
      cases missing
  | noOriginal src dest c contents isConn missing =>
      refine recreates_early ?_ unlocked rfl ⟨State.devRefs_restored _ src dest,
        update_true_false _ _ (fresh.1 _ isConn), rfl⟩
      rintro src dest ⟨c, contents, original, originalCm, reply, replyCm, started⟩
      rw [started.isOriginal] at missing
      cases missing
  | noReply src dest c contents original originalCm isConn isOriginal missing =>
      refine recreates_early ?_ unlocked rfl ⟨State.devRefs_restored _ src dest,
        update_true_false _ _ (fresh.1 _ isConn), update_true_false _ _ (fresh.2.1 _ isOriginal)⟩
      rintro src dest ⟨c, contents, original, originalCm, reply, replyCm, started⟩
      rw [started.isReply] at missing
      cases missing
  | collision src dest c contents original originalCm reply replyCm started state isState
      old found =>
      exact recreates_collision merges sound fresh started isState found
  | deadSocket src dest c contents original originalCm reply replyCm started state isState missing
      filled isFilled dead =>
      -- the lock is taken, and the socket is one of the inputs that `Clean` excludes
      refine iff_of_false (fun owes => ?_) (fun clean => ?_)
      · have unlocked := owes.unlocked
        rw [isState] at unlocked
        cases unlocked
      · have allocated : engine.toState.Allocated state c original reply := by
          rw [isState]
          exact started.allocated fresh
        rw [sound.findConnection_allocated allocated] at missing
        exact (clean src dest ⟨c, contents, original, originalCm, reply, replyCm, started⟩).2
          missing
          ((deadSocket_filled xlated isFilled).mp dead)
  | installed src dest c contents original originalCm reply replyCm started state isState missing
      filled isFilled alive up =>
      have allocated : engine.toState.Allocated state c original reply := by
        rw [isState]
        exact started.allocated fresh
      rw [sound.findConnection_allocated allocated] at missing
      refine iff_of_true ⟨fun _ _ old _ found => ?_, rfl, fun failed => absurd rfl failed⟩ ?_
      · rw [missing] at found
        cases found
      · rintro other another ⟨_, _, _, _, _, _, again⟩
        have sameSrc := started.isSrc.symm.trans again.isSrc
        have sameDest := started.isDest.symm.trans again.isDest
        cases sameSrc
        cases sameDest
        refine ⟨fun found => ?_, fun _ => ?_⟩
        · rw [missing] at found
          cases found
        · exact fun dead => alive ((deadSocket_filled xlated isFilled).mpr dead)

end Call

/-! ### Both copies -/

theorem Ipv4.fill_socket (net : Net Ipv4Addr) (msg : Ipv4CreateMsg) (src dest : Dev)
    (c original reply : Ptr) (originalCm replyCm : ConnectionMatch Ipv4Addr) :
    let filled := Ipv4.fill net msg src dest c original reply originalCm replyCm
    filled.2.matchDev = dest ∧ filled.2.matchDestIp = msg.xlate.flowIpXlate ∧
      filled.2.matchDestPort = msg.xlate.flowIdentXlate ∧
      filled.2.xlateSrcIp = msg.tuple.returnIp ∧ filled.2.xlateSrcPort = msg.tuple.returnIdent := by
  have frame := (Ipv4.fill_frames src dest c original reply net msg originalCm replyCm).2
  rw [fillReply_frame] at frame
  have key := congrArg Frame.key frame
  have xlate := congrArg Frame.xlate frame
  exact ⟨congrArg MatchKey.dev key, congrArg MatchKey.destIp key, congrArg MatchKey.destPort key,
    congrArg XlateRule.flowIpXlate xlate, congrArg XlateRule.flowIdentXlate xlate⟩

theorem Ipv6.fill_socket (net : Net Ipv6Addr) (msg : CreateMsg Ipv6Addr) (src dest : Dev)
    (c original reply : Ptr) (originalCm replyCm : ConnectionMatch Ipv6Addr) :
    let filled := Ipv6.fill net msg src dest c original reply originalCm replyCm
    filled.2.matchDev = dest ∧ filled.2.matchDestIp = msg.tuple.flowIp ∧
      filled.2.matchDestPort = msg.tuple.flowIdent ∧
      filled.2.xlateSrcIp = msg.tuple.returnIp ∧ filled.2.xlateSrcPort = msg.tuple.returnIdent := by
  have frame := (Ipv6.fill_frames src dest c original reply net msg originalCm replyCm).2
  rw [fillReply_frame] at frame
  have key := congrArg Frame.key frame
  have xlate := congrArg Frame.xlate frame
  exact ⟨congrArg MatchKey.dev key, congrArg MatchKey.destIp key, congrArg MatchKey.destPort key,
    congrArg XlateRule.flowIpXlate xlate, congrArg XlateRule.flowIdentXlate xlate⟩

/-- **When creating a rule that exists only merges its TCP state, and every failure gives back what
it took.** IPv4 must not find a TCP connection, and neither version a tunnel's socket without
references. -/
theorem recreates_iff (nowJiffies : BitVec 64) :
    (∀ engine : Engine Ipv4Addr, Engine.Reachable Ipv4.copy engine → engine.locked = false →
      ∀ (net : Net Ipv4Addr) (msg : Ipv4CreateMsg) (alloc : Alloc Ipv4Addr),
        alloc.Fresh engine.toState →
        (Recreates Ipv4.copy net msg alloc engine.toState
            (Ipv4.createRule net msg nowJiffies alloc engine.toState) ↔
          ∀ src dest, Arrives Ipv4.copy net msg alloc src dest →
            ((engine.table.findConnection Ipv4.hashes msg.tuple).isSome = true →
              msg.tuple.protocol ≠ ipprotoTcp) ∧
            (engine.table.findConnection Ipv4.hashes msg.tuple = none →
              ¬net.DeadSocket dest msg.xlate.flowIpXlate msg.xlate.flowIdentXlate
                msg.tuple.returnIp msg.tuple.returnIdent src))) ∧
    (∀ engine : Engine Ipv6Addr, Engine.Reachable Ipv6.copy engine → engine.locked = false →
      ∀ (net : Net Ipv6Addr) (msg : CreateMsg Ipv6Addr) (alloc : Alloc Ipv6Addr),
        alloc.Fresh engine.toState →
        (Recreates Ipv6.copy net msg alloc engine.toState
            (Ipv6.createRule net msg nowJiffies alloc engine.toState) ↔
          ∀ src dest, Arrives Ipv6.copy net msg alloc src dest →
            engine.table.findConnection Ipv6.hashes msg.tuple = none →
              ¬net.DeadSocket dest msg.tuple.flowIp msg.tuple.flowIdent
                msg.tuple.returnIp msg.tuple.returnIdent src)) := by
  refine ⟨fun engine reachable unlocked net msg alloc fresh => ?_,
    fun engine reachable unlocked net msg alloc fresh => ?_⟩
  · obtain ⟨members, chain, sound⟩ := sound_of_reachable reachable
    have iff : _ ↔ Clean Ipv4.copy net msg false alloc engine.toState :=
      recreates_iff_clean nowJiffies (fun _ _ => rfl)
        (Ipv4.fill_socket net msg) sound unlocked fresh
    refine iff.trans ?_
    refine forall₂_congr fun src dest => forall_congr' fun arrives => and_congr_left' ?_
    exact forall_congr' fun found => ⟨fun picks tcp => Bool.false_ne_true (picks tcp),
      fun other tcp => absurd tcp other⟩
  · obtain ⟨members, chain, sound⟩ := sound_of_reachable reachable
    have iff : _ ↔ Clean Ipv6.copy net msg true alloc engine.toState :=
      recreates_iff_clean nowJiffies (fun _ _ => rfl)
        (Ipv6.fill_socket net msg) sound unlocked fresh
    refine iff.trans ?_
    refine forall₂_congr fun src dest => forall_congr' fun arrives => ?_
    exact and_iff_right fun _ _ => rfl

/-! ### The tables of IPv4 -/

/-- A call gets to its search and finds the rule of a TCP connection. -/
def Engine.FindsTcp [DecidableEq A] (copy : Copy A M) (engine : Engine A) (net : Net A) (msg : M)
    (alloc : Alloc A) : Prop :=
  (∃ src dest, Arrives copy net msg alloc src dest) ∧
    (copy.msg msg).tuple.protocol = ipprotoTcp ∧
    (engine.table.findConnection copy.hashes (copy.msg msg).tuple).isSome = true

/-- A copy that merges into the fresh connection reads it when it finds a TCP rule, and only
then. -/
theorem Sound.createRule_defined [DecidableEq A] {copy : Copy A M}
    (merges : ∀ fresh old, copy.mergeInto fresh old = fresh) {engine : Engine A}
    {members : List Ptr} {chain : BitVec 32 → List Ptr}
    (sound : Sound copy.hashes engine members chain) (net : Net A) (msg : M)
    (nowJiffies : BitVec 64) {alloc : Alloc A} (fresh : alloc.Fresh engine.toState) :
    (createRule copy net msg nowJiffies alloc engine.toState).Defined alloc ↔
      ¬engine.FindsTcp copy net msg alloc := by
  -- an exit before the search reads nothing, and does not arrive there
  have early : ∀ {outcome : Outcome A}, outcome.reads = [] →
      (∀ src dest, ¬Arrives copy net msg alloc src dest) →
      (outcome.Defined alloc ↔ ¬engine.FindsTcp copy net msg alloc) := by
    intro outcome unread never
    refine iff_of_true (fun block _ => by rw [unread]; exact List.not_mem_nil) ?_
    rintro ⟨⟨src, dest, arrives⟩, -⟩
    exact never src dest arrives
  -- nor does one that finds no rule find a TCP rule
  have missed : ∀ {outcome : Outcome A} {state : State A} {c original reply : Ptr},
      engine.toState.Allocated state c original reply → outcome.reads = [] →
      state.table.findConnection copy.hashes (copy.msg msg).tuple = none →
      (outcome.Defined alloc ↔ ¬engine.FindsTcp copy net msg alloc) := by
    intro outcome state c original reply allocated unread missing
    rw [sound.findConnection_allocated allocated] at missing
    refine iff_of_true (fun block _ => by rw [unread]; exact List.not_mem_nil) ?_
    rintro ⟨-, -, found⟩
    rw [missing] at found
    cases found
  have exit := createRule_exit copy net msg nowJiffies alloc engine.toState
  generalize createRule copy net msg nowJiffies alloc engine.toState = outcome at exit ⊢
  cases exit with
  | noSource missing =>
      refine early rfl ?_
      rintro src dest ⟨c, contents, original, originalCm, reply, replyCm, started⟩
      rw [started.isSrc] at missing
      cases missing
  | noDest src missing =>
      refine early rfl ?_
      rintro src dest ⟨c, contents, original, originalCm, reply, replyCm, started⟩
      rw [started.isDest] at missing
      cases missing
  | unregistered src dest isSrc isDest down =>
      refine early rfl ?_
      rintro other another ⟨c, contents, original, originalCm, reply, replyCm, started⟩
      have up := started.registered
      cases isSrc.symm.trans started.isSrc
      cases isDest.symm.trans started.isDest
      rw [down] at up
      cases up
  | noConn src dest missing =>
      refine early rfl ?_
      rintro src dest ⟨c, contents, original, originalCm, reply, replyCm, started⟩
      rw [started.isConn] at missing
      cases missing
  | noOriginal src dest c contents isConn missing =>
      refine early rfl ?_
      rintro src dest ⟨c, contents, original, originalCm, reply, replyCm, started⟩
      rw [started.isOriginal] at missing
      cases missing
  | noReply src dest c contents original originalCm isConn isOriginal missing =>
      refine early rfl ?_
      rintro src dest ⟨c, contents, original, originalCm, reply, replyCm, started⟩
      rw [started.isReply] at missing
      cases missing
  | collision src dest c contents original originalCm reply replyCm started state isState
      old found =>
      have allocated : engine.toState.Allocated state c original reply := by
        rw [isState]
        exact started.allocated fresh
      rw [sound.findConnection_allocated allocated] at found
      have arrives : Arrives copy net msg alloc src dest :=
        ⟨c, contents, original, originalCm, reply, replyCm, started⟩
      by_cases tcp : (copy.msg msg).tuple.protocol = ipprotoTcp
      · refine iff_of_false (fun unread => ?_)
          (fun others => others ⟨⟨src, dest, arrives⟩, tcp, ?_⟩)
        · refine unread _ started.isConn ?_
          show c ∈ Table.updateProtocolReads (copy.msg msg) (copy.mergeInto c old)
          rw [merges, Table.updateProtocolReads, if_pos tcp]
          exact List.mem_singleton.mpr rfl
        · rw [found]
          rfl
      · refine iff_of_true (fun block _ => ?_) (fun finds => tcp finds.2.1)
        show block.1 ∉ Table.updateProtocolReads (copy.msg msg) (copy.mergeInto c old)
        rw [Table.updateProtocolReads, if_neg tcp]
        exact List.not_mem_nil
  | deadSocket src dest c contents original originalCm reply replyCm started state
      isState missing =>
      subst isState
      exact missed (started.allocated fresh) rfl missing
  | installed src dest c contents original originalCm reply replyCm started state isState missing =>
      subst isState
      exact missed (started.allocated fresh) rfl missing

/-- **The IPv4 tables are coherent in every engine that can be reached**, a connection that was
removed stays out of them until its memory is released, and a call of `create_rule` whose turn it is
has a result, with coherent tables, exactly if it does not find the rule of a TCP connection. -/
theorem Ipv4.tables_coherent {engine : Engine Ipv4Addr}
    (reachable : Engine.Reachable Ipv4.copy engine) :
    (∃ members chain, Sound Ipv4.hashes engine members chain) ∧
      ∀ (net : Net Ipv4Addr) (msg : Ipv4CreateMsg) (alloc : Alloc Ipv4Addr)
      (nowJiffies : BitVec 64),
        engine.locked = false → alloc.Fresh engine.toState →
        ((∃ next, engine.step Ipv4.copy (.create net alloc msg nowJiffies) = some next ∧
            ∃ members chain, Sound Ipv4.hashes next members chain) ↔
          ¬engine.FindsTcp Ipv4.copy net msg alloc) := by
  obtain ⟨members, chain, sound⟩ := sound_of_reachable reachable
  refine ⟨⟨members, chain, sound⟩, fun net msg alloc nowJiffies unlocked fresh => ?_⟩
  have defined : _ ↔ ¬engine.FindsTcp Ipv4.copy net msg alloc :=
    sound.createRule_defined (fun _ _ => rfl) net msg nowJiffies fresh
  rw [← defined]
  constructor
  · rintro ⟨next, step, -⟩
    simp only [Engine.step, Option.ite_none_right_eq_some] at step
    exact step.1.2.2
  · intro unread
    have step : engine.step Ipv4.copy (.create net alloc msg nowJiffies) = some { engine with
        toState := (Sfe.createRule Ipv4.copy net msg nowJiffies alloc engine.toState).state } :=
      if_pos ⟨unlocked, fresh, unread⟩
    exact ⟨_, step, Sound.step sound step⟩

/-- The tables are coherent in the callback, when the lock is free and the walk stands at the end,
and the rule of another connection can be made there. -/
theorem Ipv4.tables_coherent_inCallback :
    (Engine.after Ipv4.copy Ipv4.syncedOnce).table.numConnections = 1 ∧
      (Engine.after Ipv4.copy Ipv4.syncedOnce).locked = false ∧
      (∃ members chain, Sound Ipv4.hashes (Engine.after Ipv4.copy Ipv4.syncedOnce) members chain) ∧
      ∃ next, (Engine.after Ipv4.copy Ipv4.syncedOnce).step Ipv4.copy
          (.create (twoDevices _) (freshAt 4 5 6 default default)
            (Ipv4.ruleFor ⟨ipprotoTcp, 1, 2, 3, 4⟩ ⟨ipprotoTcp, 1, 2, 3, 4⟩) 2) = some next ∧
        ∃ members chain, Sound Ipv4.hashes next members chain := by
  obtain ⟨coherent, creates⟩ := Ipv4.tables_coherent Ipv4.syncedOnce_reachable
  refine ⟨by decide +kernel, by decide +kernel, coherent,
    (creates _ _ _ _ (by decide +kernel) (by decide +kernel)).mpr ?_⟩
  rintro ⟨-, -, found⟩
  revert found
  decide +kernel

/-! ### The same rule twice -/

/-- The rule created again, in other memory. -/
def recreated [DecidableEq A] [Inhabited A] (copy : Copy A M) (msg : M) : Outcome A :=
  createRule copy (twoDevices A) msg 0 (freshAt 4 5 6 default default)
    (Engine.withRule copy msg).toState

/-- A DNS flow of 10.0.0.1 to 10.0.0.2. -/
def dns : Tuple Ipv4Addr := ⟨ipprotoUdp, 0x0100000a, 0x3930, 0x0200000a, 0x3500⟩

/-- The telnet rule created twice: the second call reads the connection that it has just
allocated. -/
theorem Ipv4.not_recreates_telnet :
    Engine.Reachable Ipv4.copy (Engine.withRule Ipv4.copy (Ipv4.ruleFor telnet telnet)) ∧
      ¬Recreates Ipv4.copy (twoDevices Ipv4Addr) (Ipv4.ruleFor telnet telnet)
        (freshAt 4 5 6 default default)
        (Engine.withRule Ipv4.copy (Ipv4.ruleFor telnet telnet)).toState
        (recreated Ipv4.copy (Ipv4.ruleFor telnet telnet)) := by
  refine ⟨Engine.after_reachable (by decide +kernel), fun owes => ?_⟩
  have unread := (owes.collision 0x1000 0x2000 1
    ⟨4, default, 5, default, 6, default, rfl, rfl, rfl, rfl, rfl, rfl⟩ (by decide +kernel)).2.2
    (4, default) rfl
  revert unread
  decide +kernel

/-- The telnet rule created twice: the second call, whose turn it is, leads to no table at all. -/
theorem Ipv4.not_coherent_telnet :
    ¬∀ engine, Engine.Reachable Ipv4.copy engine →
      ∀ (net : Net Ipv4Addr) (msg : Ipv4CreateMsg) (alloc : Alloc Ipv4Addr)
      (nowJiffies : BitVec 64),
        engine.locked = false → alloc.Fresh engine.toState →
        ∃ next, engine.step Ipv4.copy (.create net alloc msg nowJiffies) = some next ∧
          ∃ members chain, Sound Ipv4.hashes next members chain := by
  intro every
  obtain ⟨next, step, -⟩ := every (Engine.withRule Ipv4.copy (Ipv4.ruleFor telnet telnet))
    (Engine.after_reachable (by decide +kernel)) (twoDevices Ipv4Addr) (Ipv4.ruleFor telnet telnet)
    (freshAt 4 5 6 default default) 0 (by decide +kernel) (by decide +kernel)
  simp only [Engine.step, Option.ite_none_right_eq_some] at step
  exact absurd step.1.2.2 (by decide +kernel)

/-- A DNS rule created twice in IPv4 is merged as it should be, and so is a TCP rule in IPv6. -/
theorem recreates_iff_twice :
    Recreates Ipv4.copy (twoDevices Ipv4Addr) (Ipv4.ruleFor dns dns)
        (freshAt 4 5 6 default default)
        (Engine.withRule Ipv4.copy (Ipv4.ruleFor dns dns)).toState
        (recreated Ipv4.copy (Ipv4.ruleFor dns dns)) ∧
      Recreates Ipv6.copy (twoDevices Ipv6Addr) (plainRule ⟨ipprotoTcp, default, 1, default, 2⟩)
        (freshAt 4 5 6 default default)
        (Engine.withRule Ipv6.copy (plainRule ⟨ipprotoTcp, default, 1, default, 2⟩)).toState
        (recreated Ipv6.copy (plainRule ⟨ipprotoTcp, default, 1, default, 2⟩)) := by
  obtain ⟨ofIpv4, ofIpv6⟩ := recreates_iff 0
  constructor
  · refine (ofIpv4 (Engine.withRule Ipv4.copy (Ipv4.ruleFor dns dns))
      (Engine.after_reachable (by decide +kernel)) (by decide +kernel)
      _ _ _ (by decide +kernel)).mpr ?_
    refine fun _ _ _ => ⟨fun _ => by decide +kernel, fun _ dead => ?_⟩
    obtain ⟨_, none, -⟩ := dead
    cases none
  · refine (ofIpv6 (Engine.withRule Ipv6.copy (plainRule ⟨ipprotoTcp, default, 1, default, 2⟩))
      (Engine.after_reachable (by decide +kernel)) (by decide +kernel)
      _ _ _ (by decide +kernel)).mpr ?_
    rintro _ _ _ _ ⟨_, none, -⟩
    cases none

end Qsdk.Sfe
