/-
**What a call of `create_rule` can do.**

A call leaves the rules alone (`State.Touched`) or installs one fresh connection (`Installed`). The
first covers every failure and the update of a rule that exists: what is in use stays in its place,
and keeps its route. The second says from which state the connection was inserted: one in which only
memory that was not in use has been written.
-/

import Qsdk.Sfe.Coherence

namespace Qsdk.Sfe

variable {A M : Type}

/-- The fields of a match that say which packets it takes, what it does to them, and where it sends
them. -/
structure ConnectionMatch.SameRoute (before after : ConnectionMatch A) : Prop where
  key : after.key = before.key
  connection : after.connection = before.connection
  counterMatch : after.counterMatch = before.counterMatch
  xmitDev : after.xmitDev = before.xmitDev
  xlateSrc : after.flags.xlateSrc = before.flags.xlateSrc
  xlateDest : after.flags.xlateDest = before.flags.xlateDest
  xlateSrcIp : after.xlateSrcIp = before.xlateSrcIp
  xlateSrcPort : after.xlateSrcPort = before.xlateSrcPort
  xlateDestIp : after.xlateDestIp = before.xlateDestIp
  xlateDestPort : after.xlateDestPort = before.xlateDestPort
  xlateSrcCsumAdjustment : after.xlateSrcCsumAdjustment = before.xlateSrcCsumAdjustment
  xlateSrcPartialCsumAdjustment :
    after.xlateSrcPartialCsumAdjustment = before.xlateSrcPartialCsumAdjustment
  xlateDestCsumAdjustment : after.xlateDestCsumAdjustment = before.xlateDestCsumAdjustment
  xlateDestPartialCsumAdjustment :
    after.xlateDestPartialCsumAdjustment = before.xlateDestPartialCsumAdjustment
  up : after.up = before.up

namespace ConnectionMatch.SameRoute

theorem rfl {cm : ConnectionMatch A} : cm.SameRoute cm := by
  constructor <;> exact Eq.refl _

theorem trans {first second third : ConnectionMatch A} (one : first.SameRoute second)
    (two : second.SameRoute third) : first.SameRoute third where
  key := two.key.trans one.key
  connection := two.connection.trans one.connection
  counterMatch := two.counterMatch.trans one.counterMatch
  xmitDev := two.xmitDev.trans one.xmitDev
  xlateSrc := two.xlateSrc.trans one.xlateSrc
  xlateDest := two.xlateDest.trans one.xlateDest
  xlateSrcIp := two.xlateSrcIp.trans one.xlateSrcIp
  xlateSrcPort := two.xlateSrcPort.trans one.xlateSrcPort
  xlateDestIp := two.xlateDestIp.trans one.xlateDestIp
  xlateDestPort := two.xlateDestPort.trans one.xlateDestPort
  xlateSrcCsumAdjustment := two.xlateSrcCsumAdjustment.trans one.xlateSrcCsumAdjustment
  xlateSrcPartialCsumAdjustment :=
    two.xlateSrcPartialCsumAdjustment.trans one.xlateSrcPartialCsumAdjustment
  xlateDestCsumAdjustment := two.xlateDestCsumAdjustment.trans one.xlateDestCsumAdjustment
  xlateDestPartialCsumAdjustment :=
    two.xlateDestPartialCsumAdjustment.trans one.xlateDestPartialCsumAdjustment
  up := two.up.trans one.up

theorem mergeFlow (msg : CreateMsg A) (cm : ConnectionMatch A) :
    cm.SameRoute (cm.mergeFlow msg) := by
  constructor <;> exact Eq.refl _

theorem mergeReturn (msg : CreateMsg A) (cm : ConnectionMatch A) :
    cm.SameRoute (cm.mergeReturn msg) := by
  constructor <;> exact Eq.refl _

theorem updateSummaryStats (cm : ConnectionMatch A) : cm.SameRoute cm.updateSummaryStats := by
  constructor <;> exact Eq.refl _

theorem countForwarded (cm : ConnectionMatch A) (len : BitVec 32) :
    cm.SameRoute (cm.countForwarded len) := by
  constructor <;> exact Eq.refl _

theorem withTcp (cm : ConnectionMatch A) (tcp : TcpState) :
    cm.SameRoute { cm with tcp := tcp } := by
  constructor <;> exact Eq.refl _

end ConnectionMatch.SameRoute

/-! ### Changes of the table that keep places and routes -/

/-- Every connection keeps its place and every match its route. -/
structure Table.SameRules (before after : Table A) : Prop where
  heads : before.SameHeads after
  wcNext : after.wcNext = before.wcNext
  conns : ∀ c, (before.conns c).SamePlace (after.conns c)
  cms : ∀ cm, (before.cms cm).SameRoute (after.cms cm)

namespace Table.SameRules

variable {table first second third : Table A}

theorem rfl : table.SameRules table :=
  ⟨⟨Eq.refl _, Eq.refl _, Eq.refl _, Eq.refl _, Eq.refl _⟩, Eq.refl _,
    fun _ => Connection.SamePlace.rfl, fun _ => ConnectionMatch.SameRoute.rfl⟩

theorem trans (one : first.SameRules second) (two : second.SameRules third) :
    first.SameRules third where
  heads := ⟨two.heads.connHash.trans one.heads.connHash,
    two.heads.connMatchHash.trans one.heads.connMatchHash, two.heads.head.trans one.heads.head,
    two.heads.tail.trans one.heads.tail, two.heads.count.trans one.heads.count⟩
  wcNext := two.wcNext.trans one.wcNext
  conns := fun c => by
    have left := one.conns c
    have right := two.conns c
    exact ⟨right.tuple.trans left.tuple, right.originalMatch.trans left.originalMatch,
      right.replyMatch.trans left.replyMatch, right.removed.trans left.removed,
      right.next.trans left.next, right.prev.trans left.prev,
      right.allConnectionsNext.trans left.allConnectionsNext,
      right.allConnectionsPrev.trans left.allConnectionsPrev⟩
  cms := fun cm => (one.cms cm).trans (two.cms cm)

theorem modifyCm (cm : Ptr) (change : ConnectionMatch A → ConnectionMatch A)
    (keeps : ∀ x, ConnectionMatch.SameRoute x (change x)) :
    table.SameRules (table.modifyCm cm change) where
  heads := ⟨Eq.refl _, Eq.refl _, Eq.refl _, Eq.refl _, Eq.refl _⟩
  wcNext := Eq.refl _
  conns := fun _ => Connection.SamePlace.rfl
  cms := fun other => by
    rw [Table.modifyCm_cms]
    split
    · next same =>
        rw [same]
        exact keeps _
    · exact ConnectionMatch.SameRoute.rfl

theorem modifyConn (c : Ptr) (change : Connection A → Connection A)
    (keeps : ∀ x, Connection.SamePlace x (change x)) :
    table.SameRules (table.modifyConn c change) where
  heads := ⟨Eq.refl _, Eq.refl _, Eq.refl _, Eq.refl _, Eq.refl _⟩
  wcNext := Eq.refl _
  conns := fun other => by
    rw [Table.modifyConn_conns]
    split
    · next same =>
        rw [same]
        exact keeps _
    · exact Connection.SamePlace.rfl
  cms := fun _ => ConnectionMatch.SameRoute.rfl

/-- Merging a message changes windows and one flag, wherever the connection's pointers lead. -/
theorem updateProtocolState (msg : CreateMsg A) (c : Ptr) :
    table.SameRules (table.updateProtocolState msg c) := by
  unfold Table.updateProtocolState
  split
  · exact (modifyCm _ _ (ConnectionMatch.SameRoute.mergeFlow msg)).trans
      (modifyCm _ _ (ConnectionMatch.SameRoute.mergeReturn msg))
  · exact rfl

theorem updateRule [DecidableEq A] (hashes : Hashes A) (msg : CreateMsg A) :
    table.SameRules (table.updateRule hashes msg) := by
  unfold Table.updateRule
  split
  · exact updateProtocolState msg _
  · exact rfl

/-- Counters that move. -/
theorem drain (c : Ptr) : table.SameRules (table.drain c) :=
  (modifyCm _ _ ConnectionMatch.SameRoute.updateSummaryStats).trans
    (modifyCm _ _ ConnectionMatch.SameRoute.updateSummaryStats)

/-- A debug read moves counters. -/
theorem debugRead (stops : Bool) (seq : BitVec 32) :
    table.SameRules (table.debugRead stops seq) := by
  have stamp : ∀ c, table.SameRules (table.modifyConn c fun x => { x with debugReadSeq := seq }) :=
    fun c => modifyConn c _ fun _ => ⟨Eq.refl _, Eq.refl _, Eq.refl _, Eq.refl _, Eq.refl _,
      Eq.refl _, Eq.refl _, Eq.refl _⟩
  unfold Table.debugRead
  split
  · exact rfl
  · next c _ =>
      simp only
      split
      · exact stamp c
      · exact (stamp c).trans (drain c)

/-- A sync moves counters. -/
theorem genSyncConnection (c : Ptr) (reason : SyncReason) (nowJiffies : BitVec 64) :
    table.SameRules (table.genSyncConnection c reason nowJiffies).2 := by
  have drain : ∀ (before : Table A) (cm : Ptr),
      before.SameRules (before.modifyCm cm ConnectionMatch.updateSummaryStats) :=
    fun _ _ => modifyCm _ _ ConnectionMatch.SameRoute.updateSummaryStats
  have stamp : ∀ before : Table A,
      before.SameRules (before.modifyConn c fun x => { x with lastSyncJiffies := nowJiffies }) :=
    fun _ => modifyConn c _ fun _ => ⟨Eq.refl _, Eq.refl _, Eq.refl _, Eq.refl _, Eq.refl _,
      Eq.refl _, Eq.refl _, Eq.refl _⟩
  exact (drain _ _).trans ((drain _ _).trans (stamp _))

end Table.SameRules

/-! ### Calls -/

/-- Whatever is in use keeps its place and its route, and nothing else comes into use. -/
structure State.Touched (before after : State A) : Prop where
  heads : before.table.SameHeads after.table
  wcNext : after.table.wcNext = before.table.wcNext
  conns : ∀ c, before.connLive c = true → (before.table.conns c).SamePlace (after.table.conns c)
  cms : ∀ cm, before.cmLive cm = true → (before.table.cms cm).SameRoute (after.table.cms cm)
  connLive : after.connLive = before.connLive
  cmLive : after.cmLive = before.cmLive

theorem State.Touched.of_sameRules {state : State A} {table : Table A}
    (same : state.table.SameRules table) : state.Touched { state with table := table } where
  heads := same.heads
  wcNext := same.wcNext
  conns := fun c _ => same.conns c
  cms := fun cm _ => same.cms cm
  connLive := rfl
  cmLive := rfl

/-- The memory in use is written nowhere, and the given addresses come into use. -/
structure State.Allocated (before after : State A) (c original reply : Ptr) : Prop where
  conns : ∀ other, before.connLive other = true → after.table.conns other = before.table.conns other
  cms : ∀ other, before.cmLive other = true → after.table.cms other = before.table.cms other
  heads : before.table.SameHeads after.table
  wcNext : after.table.wcNext = before.table.wcNext
  connLive : after.connLive = Function.update before.connLive c true
  cmLive : after.cmLive = Function.update (Function.update before.cmLive original true) reply true
  conn_fresh : before.connLive c = false
  original_fresh : before.cmLive original = false
  reply_fresh : before.cmLive reply = false
  apart : original ≠ reply

/-- The match with the socket of a tunnel, if there is one. -/
def ConnectionMatch.withUp (cm : ConnectionMatch A) : Option Nat → ConnectionMatch A
  | some sk => { cm with up := some sk }
  | none => cm

/-- The call installed a fresh connection: what it holds, and in which state it was inserted. -/
structure Installed [DecidableEq A] (copy : Copy A M) (net : Net A) (msg : M) (before : State A)
    (after : State A) : Prop where
  intro ::
  installed : ∃ (src dest : Dev) (nowJiffies : BitVec 64) (c original reply : Ptr)
    (state : State A) (up : Option Nat),
    net.devGetByIndex (copy.msg msg).flowInterface = some src ∧
    net.devGetByIndex (copy.msg msg).returnInterface = some dest ∧
    before.Allocated state c original reply ∧
    state.table.findConnection copy.hashes (copy.msg msg).tuple = none ∧
    let filled := copy.fill net msg src dest c original reply (state.table.cms original)
      (state.table.cms reply)
    after = state.install copy msg nowJiffies src dest c original reply filled.1
      (filled.2.withUp up)

theorem State.Touched.rfl {state : State A} : state.Touched state :=
  State.Touched.of_sameRules Table.SameRules.rfl

theorem State.Touched.trans {first second third : State A} (one : first.Touched second)
    (two : second.Touched third) : first.Touched third where
  heads := ⟨two.heads.connHash.trans one.heads.connHash,
    two.heads.connMatchHash.trans one.heads.connMatchHash, two.heads.head.trans one.heads.head,
    two.heads.tail.trans one.heads.tail, two.heads.count.trans one.heads.count⟩
  wcNext := two.wcNext.trans one.wcNext
  conns := fun c live => by
    have left := one.conns c live
    have right := two.conns c (by rw [one.connLive]; exact live)
    exact ⟨right.tuple.trans left.tuple, right.originalMatch.trans left.originalMatch,
      right.replyMatch.trans left.replyMatch, right.removed.trans left.removed,
      right.next.trans left.next, right.prev.trans left.prev,
      right.allConnectionsNext.trans left.allConnectionsNext,
      right.allConnectionsPrev.trans left.allConnectionsPrev⟩
  cms := fun cm live =>
    (one.cms cm live).trans (two.cms cm (by rw [one.cmLive]; exact live))
  connLive := two.connLive.trans one.connLive
  cmLive := two.cmLive.trans one.cmLive

/-- A table that differs in memory that is not in use only. -/
theorem State.Touched.of_table {before after : State A} (table : after.table = before.table)
    (connLive : after.connLive = before.connLive) (cmLive : after.cmLive = before.cmLive) :
    before.Touched after where
  heads := by
    rw [table]
    exact ⟨Eq.refl _, Eq.refl _, Eq.refl _, Eq.refl _, Eq.refl _⟩
  wcNext := by rw [table]
  conns := fun c _ => by
    rw [table]
    exact Connection.SamePlace.rfl
  cms := fun cm _ => by
    rw [table]
    exact ConnectionMatch.SameRoute.rfl
  connLive := connLive
  cmLive := cmLive

/-- Taking memory that is not in use and giving it back. -/
theorem update_true_false (live : Ptr → Bool) (address : Ptr) (fresh : live address = false) :
    Function.update (Function.update live address true) address false = live := by
  rw [Function.update_idem, ← fresh, Function.update_eq_self]

/-- Giving back what a call allocated leaves what was in use. -/
theorem State.Allocated.touched_release {before state : State A} {c original reply : Ptr}
    (allocated : before.Allocated state c original reply) (after : State A)
    (same : state.table.SameRules after.table)
    (connLive : after.connLive = state.connLive) (cmLive : after.cmLive = state.cmLive)
    (src dest : Dev) : before.Touched (after.release src dest c original reply) where
  heads := by
    have first := allocated.heads
    have second := same.heads
    exact ⟨second.connHash.trans first.connHash, second.connMatchHash.trans first.connMatchHash,
      second.head.trans first.head, second.tail.trans first.tail, second.count.trans first.count⟩
  wcNext := same.wcNext.trans allocated.wcNext
  conns := fun other live => by
    have kept := same.conns other
    rw [allocated.conns other live] at kept
    exact kept
  cms := fun other live => by
    have kept := same.cms other
    rw [allocated.cms other live] at kept
    exact kept
  connLive := by
    show Function.update after.connLive c false = before.connLive
    rw [connLive, allocated.connLive, update_true_false _ _ allocated.conn_fresh]
  cmLive := by
    show Function.update (Function.update after.cmLive reply false) original false = before.cmLive
    have fresh : Function.update before.cmLive original true reply = false := by
      rw [Function.update_of_ne allocated.apart.symm, allocated.reply_fresh]
    rw [cmLive, allocated.cmLive, update_true_false _ _ fresh,
      update_true_false _ _ allocated.original_fresh]

/-- Memory that was not in use is all that an allocation writes. -/
theorem State.Allocated.of_kmalloc {before : State A} (c original reply : Ptr)
    (contents : Connection A) (originalContents replyContents : ConnectionMatch A)
    (connFresh : before.connLive c = false) (originalFresh : before.cmLive original = false)
    (replyFresh : before.cmLive reply = false) (apart : original ≠ reply) (src dest : Dev) :
    before.Allocated
      (((((before.devHold src).devHold dest).kmallocConn c contents).kmallocCm original
        originalContents).kmallocCm reply replyContents) c original reply where
  conns := fun other live => by
    have ne : other ≠ c := fun same => by rw [same, connFresh] at live; cases live
    exact Function.update_of_ne ne _ _
  cms := fun other live => by
    have neOriginal : other ≠ original := fun same => by
      rw [same, originalFresh] at live
      cases live
    have neReply : other ≠ reply := fun same => by
      rw [same, replyFresh] at live
      cases live
    exact (Function.update_of_ne neReply _ _).trans (Function.update_of_ne neOriginal _ _)
  heads := ⟨rfl, rfl, rfl, rfl, rfl⟩
  wcNext := rfl
  connLive := rfl
  cmLive := rfl
  conn_fresh := connFresh
  original_fresh := originalFresh
  reply_fresh := replyFresh
  apart := apart

/-- A connection that is allocated and given back. -/
theorem State.Touched.of_fresh_conn {before : State A} (c : Ptr) (contents : Connection A)
    (connFresh : before.connLive c = false) (src dest : Dev) :
    before.Touched
    (((((before.devHold src).devHold dest).kmallocConn c contents).kfreeConn c).devPut
      src |>.devPut dest) where
  heads := ⟨Eq.refl _, Eq.refl _, Eq.refl _, Eq.refl _, Eq.refl _⟩
  wcNext := Eq.refl _
  conns := fun other live => by
    have ne : other ≠ c := fun same => by rw [same, connFresh] at live; cases live
    have same : (before.table.modifyConn c fun _ => contents).conns other =
        before.table.conns other := Function.update_of_ne ne _ _
    show (before.table.conns other).SamePlace
      ((before.table.modifyConn c fun _ => contents).conns other)
    rw [same]
    exact Connection.SamePlace.rfl
  cms := fun _ _ => ConnectionMatch.SameRoute.rfl
  connLive := update_true_false _ _ connFresh
  cmLive := Eq.refl _

/-- A connection and a match that are allocated and given back. -/
theorem State.Touched.of_fresh_pair {before : State A} (c : Ptr) (contents : Connection A)
    (original : Ptr) (originalContents : ConnectionMatch A) (connFresh : before.connLive c = false)
    (originalFresh : before.cmLive original = false) (src dest : Dev) :
    before.Touched
    ((((((before.devHold src).devHold dest).kmallocConn c contents).kmallocCm original
      originalContents).kfreeCm original).kfreeConn c |>.devPut src |>.devPut dest) where
  heads := ⟨Eq.refl _, Eq.refl _, Eq.refl _, Eq.refl _, Eq.refl _⟩
  wcNext := Eq.refl _
  conns := (State.Touched.of_fresh_conn c contents connFresh src dest).conns
  cms := fun other live => by
    have ne : other ≠ original := fun same => by rw [same, originalFresh] at live; cases live
    have same : (before.table.modifyCm original fun _ => originalContents).cms other =
        before.table.cms other := Function.update_of_ne ne _ _
    show (before.table.cms other).SameRoute
      ((before.table.modifyCm original fun _ => originalContents).cms other)
    rw [same]
    exact ConnectionMatch.SameRoute.rfl
  connLive := update_true_false _ _ connFresh
  cmLive := update_true_false _ _ originalFresh

theorem State.Allocated.lock {before state : State A} {c original reply : Ptr}
    (allocated : before.Allocated state c original reply) :
    before.Allocated state.lock c original reply :=
  ⟨allocated.conns, allocated.cms, allocated.heads, allocated.wcNext, allocated.connLive,
    allocated.cmLive, allocated.conn_fresh, allocated.original_fresh, allocated.reply_fresh,
    allocated.apart⟩

section Create

variable [DecidableEq A] (copy : Copy A M) (net : Net A) (msg : M) (nowJiffies : BitVec 64)

/-- The socket of a tunnel is found, and has no references left. -/
def Net.DeadSocket (net : Net A) (dev : Dev) (destIp : A) (destPort : BitVec 16) (srcIp : A)
    (srcPort : BitVec 16) (src : Dev) : Prop :=
  ∃ sock ∈ net.udpLookup dev destIp destPort srcIp srcPort src,
    sock.encapType = true ∧ sock.referenced = false

/-- What a call has found and taken when it takes the lock. -/
structure Started (alloc : Alloc A) (src dest : Dev) (c : Ptr) (contents : Connection A)
    (original : Ptr) (originalCm : ConnectionMatch A) (reply : Ptr) (replyCm : ConnectionMatch A) :
    Prop where
  isSrc : net.devGetByIndex (copy.msg msg).flowInterface = some src
  isDest : net.devGetByIndex (copy.msg msg).returnInterface = some dest
  registered : (!net.registered dest || !net.registered src) = false
  isConn : alloc.conn = some (c, contents)
  isOriginal : alloc.original = some (original, originalCm)
  isReply : alloc.reply = some (reply, replyCm)

/-- The state in which a call takes the lock. -/
def State.started (before : State A) (src dest : Dev) (c : Ptr) (contents : Connection A)
    (original : Ptr) (originalCm : ConnectionMatch A) (reply : Ptr) (replyCm : ConnectionMatch A) :
    State A :=
  State.lock (((((before.devHold src).devHold dest).kmallocConn c contents).kmallocCm original
    originalCm).kmallocCm reply replyCm)

variable {copy net msg} in
omit [DecidableEq A] in
/-- The memory that a call gets is all that changes before its search. -/
theorem Started.allocated {alloc : Alloc A} {before : State A} {src dest : Dev} {c : Ptr}
    {contents : Connection A} {original : Ptr} {originalCm : ConnectionMatch A} {reply : Ptr}
    {replyCm : ConnectionMatch A}
    (started : Started copy net msg alloc src dest c contents original originalCm reply replyCm)
    (fresh : alloc.Fresh before) :
    before.Allocated (before.started src dest c contents original originalCm reply replyCm)
      c original reply := by
  obtain ⟨freshConn, freshOriginal, freshReply⟩ := fresh
  obtain ⟨replyFresh, apart⟩ := freshReply _ started.isReply
  exact (State.Allocated.of_kmalloc _ _ _ _ _ _ (freshConn _ started.isConn)
    (freshOriginal _ started.isOriginal) replyFresh (apart _ started.isOriginal) src dest).lock

/-- The exits of a call. -/
inductive Exit (alloc : Alloc A) (before : State A) : Outcome A → Prop
  | noSource (missing : net.devGetByIndex (copy.msg msg).flowInterface = none) :
      Exit alloc before ⟨-EINVAL, before, []⟩
  | noDest (src : Dev) (missing : net.devGetByIndex (copy.msg msg).returnInterface = none) :
      Exit alloc before ⟨-EINVAL, (before.devHold src).devPut src, []⟩
  | unregistered (src dest : Dev)
      (isSrc : net.devGetByIndex (copy.msg msg).flowInterface = some src)
      (isDest : net.devGetByIndex (copy.msg msg).returnInterface = some dest)
      (down : (!net.registered dest || !net.registered src) = true) :
      Exit alloc before
        ⟨-EINVAL, (((before.devHold src).devHold dest).devPut src).devPut dest, []⟩
  | noConn (src dest : Dev) (missing : alloc.conn = none) :
      Exit alloc before
        ⟨-ENOMEM, (((before.devHold src).devHold dest).devPut src).devPut dest, []⟩
  | noOriginal (src dest : Dev) (c : Ptr) (contents : Connection A)
      (isConn : alloc.conn = some (c, contents)) (missing : alloc.original = none) :
      Exit alloc before
        ⟨-ENOMEM, (((((before.devHold src).devHold dest).kmallocConn c contents).kfreeConn c).devPut
          src).devPut dest, []⟩
  | noReply (src dest : Dev) (c : Ptr) (contents : Connection A) (original : Ptr)
      (originalCm : ConnectionMatch A) (isConn : alloc.conn = some (c, contents))
      (isOriginal : alloc.original = some (original, originalCm)) (missing : alloc.reply = none) :
      Exit alloc before
        ⟨-ENOMEM,
          (((((((before.devHold src).devHold dest).kmallocConn c contents).kmallocCm original
          originalCm).kfreeCm original).kfreeConn c).devPut src).devPut dest, []⟩
  | collision (src dest : Dev) (c : Ptr) (contents : Connection A) (original : Ptr)
      (originalCm : ConnectionMatch A) (reply : Ptr) (replyCm : ConnectionMatch A)
      (started : Started copy net msg alloc src dest c contents original originalCm reply replyCm)
      (state : State A)
      (isState : state = before.started src dest c contents original originalCm reply replyCm)
      (old : Ptr) (found : state.table.findConnection copy.hashes (copy.msg msg).tuple = some old) :
      Exit alloc before
        ⟨-EADDRINUSE,
          State.release
            (State.unlock { state with
              table := state.table.updateProtocolState (copy.msg msg) (copy.mergeInto c old) })
            src dest c original reply,
          Table.updateProtocolReads (copy.msg msg) (copy.mergeInto c old)⟩
  | deadSocket (src dest : Dev) (c : Ptr) (contents : Connection A) (original : Ptr)
      (originalCm : ConnectionMatch A) (reply : Ptr) (replyCm : ConnectionMatch A)
      (started : Started copy net msg alloc src dest c contents original originalCm reply replyCm)
      (state : State A)
      (isState : state = before.started src dest c contents original originalCm reply replyCm)
      (missing : state.table.findConnection copy.hashes (copy.msg msg).tuple = none)
      (filled : ConnectionMatch A × ConnectionMatch A)
      (isFilled : filled = copy.fill net msg src dest c original reply (state.table.cms original)
        (state.table.cms reply))
      (dead : net.DeadSocket filled.2.matchDev filled.2.matchDestIp filled.2.matchDestPort
        filled.2.xlateSrcIp filled.2.xlateSrcPort src) :
      Exit alloc before ⟨-ESHUTDOWN, state.release src dest c original reply, []⟩
  | installed (src dest : Dev) (c : Ptr) (contents : Connection A) (original : Ptr)
      (originalCm : ConnectionMatch A) (reply : Ptr) (replyCm : ConnectionMatch A)
      (started : Started copy net msg alloc src dest c contents original originalCm reply replyCm)
      (state : State A)
      (isState : state = before.started src dest c contents original originalCm reply replyCm)
      (missing : state.table.findConnection copy.hashes (copy.msg msg).tuple = none)
      (filled : ConnectionMatch A × ConnectionMatch A)
      (isFilled : filled = copy.fill net msg src dest c original reply (state.table.cms original)
        (state.table.cms reply))
      (alive : ¬net.DeadSocket filled.2.matchDev filled.2.matchDestIp filled.2.matchDestPort
        filled.2.xlateSrcIp filled.2.xlateSrcPort src) (up : Option Nat) :
      Exit alloc before
        ⟨0, state.install copy msg nowJiffies src dest c original reply filled.1
          (filled.2.withUp up),
          []⟩

/-- The exits of a call that holds the lock. -/
theorem createLocked_exit {alloc : Alloc A} {before : State A} {src dest : Dev} {c : Ptr}
    {contents : Connection A} {original : Ptr} {originalCm : ConnectionMatch A} {reply : Ptr}
    {replyCm : ConnectionMatch A}
    (started : Started copy net msg alloc src dest c contents original originalCm reply replyCm) :
    Exit copy net msg nowJiffies alloc before
      (createLocked copy net msg nowJiffies src dest c original reply
        (((((before.devHold src).devHold dest).kmallocConn c contents).kmallocCm original
          originalCm).kmallocCm reply replyCm)) := by
  unfold createLocked
  simp only
  split
  · next old found =>
      exact .collision src dest c contents original originalCm reply replyCm started _ rfl old found
  · next missing =>
      split
      · next sock found =>
          by_cases encap : sock.encapType = true
          · rw [if_pos encap]
            by_cases referenced : sock.referenced = true
            · rw [if_pos referenced]
              refine .installed src dest c contents original originalCm reply replyCm started _ rfl
                missing _ rfl ?_ (some sock.sk)
              rintro ⟨other, isOther, -, dead⟩
              have same : some sock = some other := found.symm.trans isOther
              cases same
              rw [referenced] at dead
              cases dead
            · rw [if_neg referenced]
              exact .deadSocket src dest c contents original originalCm reply replyCm started _ rfl
                missing _ rfl ⟨sock, found, encap, by simpa using referenced⟩
          · rw [if_neg encap]
            refine .installed src dest c contents original originalCm reply replyCm started _ rfl
              missing _ rfl ?_ none
            rintro ⟨other, isOther, decaps, -⟩
            have same : some sock = some other := found.symm.trans isOther
            cases same
            exact encap decaps
      · next found =>
          refine .installed src dest c contents original originalCm reply replyCm started _ rfl
            missing _ rfl ?_ none
          rintro ⟨other, isOther, -⟩
          have same : none = some other := found.symm.trans isOther
          cases same

/-- **Every call leaves by one of the exits.** -/
theorem createRule_exit (alloc : Alloc A) (before : State A) :
    Exit copy net msg nowJiffies alloc before
        (createRule copy net msg nowJiffies alloc before) := by
  unfold createRule
  cases isSrc : net.devGetByIndex (copy.msg msg).flowInterface with
  | none => exact .noSource isSrc
  | some src =>
      simp only
      cases isDest : net.devGetByIndex (copy.msg msg).returnInterface with
      | none => exact .noDest src isDest
      | some dest =>
          simp only
          by_cases down : (!net.registered dest || !net.registered src) = true
          · rw [if_pos down]
            exact .unregistered src dest isSrc isDest down
          · rw [if_neg down]
            unfold createAlloc
            cases isConn : alloc.conn with
            | none => exact .noConn src dest isConn
            | some block =>
                obtain ⟨c, contents⟩ := block
                cases isOriginal : alloc.original with
                | none => exact .noOriginal src dest c contents isConn isOriginal
                | some block =>
                    obtain ⟨original, originalCm⟩ := block
                    cases isReply : alloc.reply with
                    | none =>
                        exact .noReply src dest c contents original originalCm isConn isOriginal
                          isReply
                    | some block =>
                        obtain ⟨reply, replyCm⟩ := block
                        exact createLocked_exit copy net msg nowJiffies
                          ⟨isSrc, isDest, by simpa using down, isConn, isOriginal, isReply⟩

/-- A call that succeeds reads nothing of the connection it allocated: it only writes there. -/
theorem createRule_defined_of_accepted {alloc : Alloc A} {before : State A}
    (accepted : (createRule copy net msg nowJiffies alloc before).ret = 0) :
    (createRule copy net msg nowJiffies alloc before).Defined alloc := by
  have exit := createRule_exit copy net msg nowJiffies alloc before
  generalize createRule copy net msg nowJiffies alloc before = outcome at exit accepted ⊢
  cases exit with
  | installed => exact fun _ _ => List.not_mem_nil
  | _ => cases accepted

/-- **A call leaves the rules alone or installs the rule.** -/
theorem createRule_cases (alloc : Alloc A) {before : State A} (fresh : alloc.Fresh before) :
    before.Touched (createRule copy net msg nowJiffies alloc before).state ∨
      Installed copy net msg before (createRule copy net msg nowJiffies alloc before).state := by
  have exit := createRule_exit copy net msg nowJiffies alloc before
  generalize createRule copy net msg nowJiffies alloc before = outcome at exit ⊢
  cases exit with
  | noSource => exact Or.inl State.Touched.rfl
  | noDest => exact Or.inl (State.Touched.of_table rfl rfl rfl)
  | unregistered => exact Or.inl (State.Touched.of_table rfl rfl rfl)
  | noConn => exact Or.inl (State.Touched.of_table rfl rfl rfl)
  | noOriginal src dest c contents isConn =>
      exact Or.inl (State.Touched.of_fresh_conn c contents (fresh.1 _ isConn) src dest)
  | noReply src dest c contents original originalCm isConn isOriginal =>
      exact Or.inl (State.Touched.of_fresh_pair c contents original originalCm (fresh.1 _ isConn)
        (fresh.2.1 _ isOriginal) src dest)
  | collision src dest c contents original originalCm reply replyCm started state isState old =>
      subst isState
      set state := before.started src dest c contents original originalCm reply replyCm
      let after : State A := { state with
        table := state.table.updateProtocolState (copy.msg msg) (copy.mergeInto c old),
          locked := false }
      exact Or.inl ((started.allocated fresh).touched_release after
        (Table.SameRules.updateProtocolState _ _) rfl rfl src dest)
  | deadSocket src dest c contents original originalCm reply replyCm started state isState =>
      subst isState
      exact Or.inl
        ((started.allocated fresh).touched_release _ Table.SameRules.rfl rfl rfl src dest)
  | installed src dest c contents original originalCm reply replyCm started state isState missing
      filled isFilled alive up =>
      subst isState isFilled
      exact Or.inr ⟨src, dest, nowJiffies, c, original, reply, _, up, started.isSrc, started.isDest,
        started.allocated fresh, missing, rfl⟩

end Create

end Qsdk.Sfe
