/-
**What the sync messages of a connection add up to.**

A `Life` is a run of the engine from the creation of a connection to its last flush, and its
`Ledger` writes down every packet that a handler forwarded by one of the connection's two matches
and every message that was sent for it. At the end the reported amounts add up to what was
forwarded, modulo the 32 bits of a message's fields, and every total that was reported is what had
been forwarded by then, as long as no counter of a period wraps (`sync_accounts`).

Two things break the account. A read of the debug device drains the counters of a connection and
sends no message, so what was pending is reported to nobody. And a new IPv6 connection's reply
direction starts to count at whatever its memory held.
-/

import Qsdk.Sfe.Counters
import Qsdk.Sfe.Mirror

namespace Qsdk.Sfe

variable {A M : Type}

/-! ### The ledger -/

/-- Forwarded packets, and their bytes. -/
structure Traffic where
  packets : Nat := 0
  bytes : Nat := 0

/-- One more packet, if there is one. -/
def Traffic.add (traffic : Traffic) : Option (BitVec 32) → Traffic
  | some len => ⟨traffic.packets + 1, traffic.bytes + len.toNat⟩
  | none => traffic

/-- A message that was sent, and what had been forwarded by then. -/
structure Delivery (A : Type) where
  message : ConnectionSync A
  original : Traffic
  reply : Traffic

/-- What was forwarded by a connection's matches, and the messages that were sent for it. -/
structure Ledger (A : Type) where
  original : Traffic := {}
  reply : Traffic := {}
  deliveries : List (Delivery A) := []

/-- The messages with the one of an act, if it sends one for the connection. -/
def Ledger.deliver (ledger : Ledger A) (c : Ptr) :
    Option (Ptr × ConnectionSync A) → List (Delivery A)
  | some (about, message) =>
      if about = c then ⟨message, ledger.original, ledger.reply⟩ :: ledger.deliveries
      else ledger.deliveries
  | none => ledger.deliveries

/-- Write an act down. -/
def Ledger.record (ledger : Ledger A) (engine : Engine A) (act : Act A M) (c : Ptr) : Ledger A where
  original := ledger.original.add (act.forwarded (engine.table.conns c).originalMatch)
  reply := ledger.reply.add (act.forwarded (engine.table.conns c).replyMatch)
  deliveries := ledger.deliver c (engine.delivery act)

/-- The sum of a field over the messages. -/
def Ledger.sum (ledger : Ledger A) (field : ConnectionSync A → BitVec 32) : Nat :=
  (ledger.deliveries.map fun delivery => (field delivery.message).toNat).sum

/-- The messages report all that was forwarded, modulo the size of their fields. -/
structure Ledger.Reported (ledger : Ledger A) : Prop where
  srcPackets : ledger.sum ConnectionSync.srcNewPacketCount ≡ ledger.original.packets [MOD 2 ^ 32]
  srcBytes : ledger.sum ConnectionSync.srcNewByteCount ≡ ledger.original.bytes [MOD 2 ^ 32]
  destPackets : ledger.sum ConnectionSync.destNewPacketCount ≡ ledger.reply.packets [MOD 2 ^ 32]
  destBytes : ledger.sum ConnectionSync.destNewByteCount ≡ ledger.reply.bytes [MOD 2 ^ 32]

/-- Every message's totals are what had been forwarded when it was written. -/
def Ledger.TotalsRight (ledger : Ledger A) : Prop :=
  ∀ delivery ∈ ledger.deliveries,
    delivery.message.srcPacketCount = BitVec.ofNat 64 delivery.original.packets ∧
      delivery.message.destPacketCount = BitVec.ofNat 64 delivery.reply.packets

/-! ### Lives -/

section Life

variable [DecidableEq A]

/-- The runs from the creation of a connection on, up to its last flush, by acts that are
allowed. -/
inductive Life (copy : Copy A M) (allowed : Engine A → Act A M → Bool) (c : Ptr) :
    Engine A → Ledger A → Prop
  | created {engine next : Engine A} {net : Net A} {alloc : Alloc A} {msg : M}
      {nowJiffies : BitVec 64} {contents : Connection A} (reachable : Engine.Reachable copy engine)
      (isConn : alloc.conn = some (c, contents))
      (accepted : (createRule copy net msg nowJiffies alloc engine.toState).ret = 0)
      (allows : allowed engine (.create net alloc msg nowJiffies) = true)
      (step : engine.step copy (.create net alloc msg nowJiffies) = some next) :
      Life copy allowed c next {}
  | step {engine next : Engine A} {ledger : Ledger A} {act : Act A M}
      (life : Life copy allowed c engine ledger) (unfinished : c ∉ engine.graceful)
      (allows : allowed engine act = true) (step : engine.step copy act = some next) :
      Life copy allowed c next (ledger.record engine act c)

/-- A debug read does not get to the connection while one of its counters is pending. -/
def debugReadsNothing (c : Ptr) (engine : Engine A) : Act A M → Bool
  | .debugRead seq =>
      engine.table.findForDebug seq != some c ||
        ((engine.table.cmsOf c).all fun cm =>
          (engine.table.cms cm).rxPacketCount == 0 && (engine.table.cms cm).rxByteCount == 0)
  | _ => true

/-- The memory of the connection's reply direction comes with a packet counter of zero. -/
def startsAtZero (c : Ptr) : Act A M → Bool
  | .create _ alloc _ _ =>
      alloc.conn.map Prod.fst != some c ||
        alloc.reply.all fun block => block.2.rxPacketCount == 0
  | _ => true

/-- No packet of the connection wraps a counter of the period. -/
def wrapsNothing (c : Ptr) (engine : Engine A) : Act A M → Bool
  | .forward cm _ =>
      !(engine.table.cmsOf c).contains cm || (engine.table.cms cm).rxPacketCount !=
        BitVec.allOnes 32
  | _ => true

/-! ### Lives are runs -/

variable {copy : Copy A M} {allowed : Engine A → Act A M → Bool} {c : Ptr} {engine : Engine A}
  {ledger : Ledger A}

theorem Life.reachable (life : Life copy allowed c engine ledger) :
    Engine.Reachable copy engine := by
  induction life with
  | created reachable _ _ _ step => exact reachable.step step
  | step _ _ _ step reachable => exact reachable.step step

/-- The state that a creation leads to. -/
theorem created_state {engine next : Engine A} {net : Net A} {alloc : Alloc A} {msg : M}
    {nowJiffies : BitVec 64}
    (step : engine.step copy (.create net alloc msg nowJiffies) = some next) :
    alloc.Fresh engine.toState ∧
      next.toState = (createRule copy net msg nowJiffies alloc engine.toState).state := by
  simp only [Engine.step, Option.ite_none_right_eq_some, Option.some.injEq] at step
  obtain ⟨⟨-, fresh, -⟩, rfl⟩ := step
  exact ⟨fresh, rfl⟩

theorem Life.live (life : Life copy allowed c engine ledger) : engine.connLive c = true := by
  induction life with
  | @created engine next net alloc msg nowJiffies contents reachable isConn accepted allows step =>
      obtain ⟨fresh, isNext⟩ := created_state step
      obtain ⟨src, dest, other, original, reply, _, originalCm, replyCm, up, started, live, -⟩ :=
        createRule_accepted copy net msg nowJiffies fresh accepted
      have same := isConn.symm.trans started.isConn
      cases same
      rw [isNext]
      exact live
  | step _ unfinished _ step live => exact (Engine.step_keeps step).live c live unfinished

/-! ### The account of a direction -/

/-- What was reported of a direction and what its counters hold add up to what it forwarded. -/
def Tally.Balances (tally : Tally) (reported counted : Traffic) : Prop :=
  tally.packets.Accounts reported.packets counted.packets ∧
    tally.bytes.Accounts reported.bytes counted.bytes

omit [DecidableEq A] in
theorem Tally.Balances.count {tally : Tally} {reported counted : Traffic}
    (balances : tally.Balances reported counted) (len : BitVec 32) :
    (tally.count len).Balances reported (counted.add (some len)) :=
  ⟨balances.1.count 1, balances.2.count len⟩

omit [DecidableEq A] in
theorem Tally.Balances.drain {tally : Tally} {reported counted : Traffic}
    (balances : tally.Balances reported counted) :
    tally.drain.Balances ⟨tally.packets.delta.toNat + reported.packets,
      tally.bytes.delta.toNat + reported.bytes⟩ counted :=
  ⟨balances.1.drain, balances.2.drain⟩

omit [DecidableEq A] in
theorem Tally.Balances.drain_silent {tally : Tally} {reported counted : Traffic}
    (balances : tally.Balances reported counted) (packets : tally.packets.delta = 0#32)
    (bytes : tally.bytes.delta = 0#32) : tally.drain.Balances reported counted :=
  ⟨balances.1.drain_silent packets, balances.2.drain_silent bytes⟩

section Acts

omit [DecidableEq A]

variable {act : Act A M}

/-- A connection is drained by a debug read, or by an act that sends a message for it. -/
theorem Engine.drained_cases (drained : engine.drained act = some c) :
    (∃ seq, act = .debugRead seq ∧ engine.table.findForDebug seq = some c) ∨
      ∃ reason nowJiffies, engine.delivery act =
        some (c, (engine.table.genSyncConnection c reason nowJiffies).1) := by
  cases act with
  | debugRead seq => exact Or.inl ⟨seq, rfl, drained⟩
  | flush other reason nowJiffies =>
      cases drained
      exact Or.inr ⟨reason, nowJiffies, rfl⟩
  | syncStatus other nowJiffies =>
      cases drained
      exact Or.inr ⟨.stats, nowJiffies, rfl⟩
  | syncWalk nowJiffies =>
      refine Or.inr ⟨.stats, nowJiffies, ?_⟩
      obtain ⟨⟨other, message⟩, isDelivery, isOther⟩ := Option.map_eq_some_iff.mp drained
      cases isOther
      rw [isDelivery]
      unfold Engine.delivery at isDelivery
      simp only at isDelivery
      split at isDelivery
      · split at isDelivery
        · cases isDelivery
        · cases isDelivery
          rfl
      · cases isDelivery
  | _ => cases drained

/-- An act that sends a message for a connection drains it. -/
theorem Engine.drained_of_delivery {message : ConnectionSync A}
    (delivery : engine.delivery act = some (c, message)) : engine.drained act = some c := by
  have mapped : (engine.delivery act).map Prod.fst = some c := by
    rw [delivery]
    rfl
  cases act with
  | debugRead seq => cases delivery
  | _ => exact mapped

/-- An act that drains forwards nothing. -/
theorem Act.forwarded_eq_none (drained : engine.drained act = some c) (cm : Ptr) :
    act.forwarded cm = none := by
  cases act with
  | forward other len => cases drained
  | _ => rfl

theorem Act.forwarded_eq_some {cm : Ptr} {len : BitVec 32}
    (forwarded : act.forwarded cm = some len) :
    act = .forward cm len := by
  cases act with
  | forward by_ other =>
      have same : (if by_ = cm then some other else none) = some len := forwarded
      split at same
      · next isCm =>
          cases same
          rw [isCm]
      · cases same
  | _ => cases forwarded

theorem Ledger.deliveries_record {message : ConnectionSync A}
    (delivery : engine.delivery act = some (c, message)) :
    (ledger.record engine act c).deliveries =
      ⟨message, ledger.original, ledger.reply⟩ :: ledger.deliveries := by
  show ledger.deliver c (engine.delivery act) = _
  rw [delivery, Ledger.deliver, if_pos rfl]

theorem Ledger.sum_record {message : ConnectionSync A}
    (delivery : engine.delivery act = some (c, message)) (field : ConnectionSync A → BitVec 32) :
    (ledger.record engine act c).sum field = (field message).toNat + ledger.sum field := by
  rw [Ledger.sum, Ledger.deliveries_record delivery, List.map_cons, List.sum_cons]
  rfl

theorem Ledger.deliveries_record_of_none
    (none : ∀ message, engine.delivery act ≠ some (c, message)) :
    (ledger.record engine act c).deliveries = ledger.deliveries := by
  show ledger.deliver c (engine.delivery act) = _
  cases delivery : engine.delivery act with
  | none => rfl
  | some about =>
      obtain ⟨other, message⟩ := about
      have ne : other ≠ c := fun same => none message (by rw [delivery, same])
      rw [Ledger.deliver, if_neg ne]

/-- **An act keeps the account of a direction**: `packets` and `bytes` are the message's fields for
it. -/
theorem tallyAfter_balances {cm : Ptr} (own : cm ∈ engine.table.cmsOf c)
    {packets bytes : ConnectionSync A → BitVec 32}
    (isPackets : ∀ reason nowJiffies,
      packets (engine.table.genSyncConnection c reason nowJiffies).1 =
        (engine.table.cms cm).tally.packets.delta)
    (isBytes : ∀ reason nowJiffies,
      bytes (engine.table.genSyncConnection c reason nowJiffies).1 =
        (engine.table.cms cm).tally.bytes.delta)
    (quiet : debugReadsNothing c engine act = true) {counted : Traffic}
    (balances : (engine.table.cms cm).tally.Balances
      ⟨ledger.sum packets, ledger.sum bytes⟩ counted) :
    (engine.tallyAfter act c cm).Balances
      ⟨(ledger.record engine act c).sum packets, (ledger.record engine act c).sum bytes⟩
      (counted.add (act.forwarded cm)) := by
  by_cases drained : engine.drained act = some c
  · rw [Engine.tallyAfter, if_pos drained, Act.forwarded_eq_none drained]
    rcases Engine.drained_cases drained with ⟨seq, rfl, found⟩ | ⟨reason, nowJiffies, delivery⟩
    · have same : (ledger.record engine (.debugRead seq : Act A M) c).deliveries =
          ledger.deliveries := rfl
      have zero : (engine.table.cms cm).rxPacketCount = 0 ∧
          (engine.table.cms cm).rxByteCount = 0 := by
        simp only [debugReadsNothing, found, bne_self_eq_false, Bool.false_or, List.all_eq_true,
          Bool.and_eq_true, beq_iff_eq] at quiet
        exact quiet cm own
      rw [Ledger.sum, Ledger.sum, same]
      exact balances.drain_silent zero.1 zero.2
    · rw [Ledger.sum_record delivery, Ledger.sum_record delivery, isPackets, isBytes]
      exact balances.drain
  · have same : (ledger.record engine act c).deliveries = ledger.deliveries :=
      Ledger.deliveries_record_of_none fun message delivery =>
        drained (Engine.drained_of_delivery delivery)
    rw [Engine.tallyAfter, if_neg drained, Ledger.sum, Ledger.sum, same]
    cases act.forwarded cm with
    | none => exact balances
    | some len => exact balances.count len

/-- **An act keeps the totals of a direction right.** -/
theorem tallyAfter_settled {cm : Ptr} (own : cm ∈ engine.table.cmsOf c)
    (fits : wrapsNothing c engine act = true) {counted : Traffic}
    (settled : (engine.table.cms cm).tally.packets.Settled counted.packets) :
    (engine.tallyAfter act c cm).packets.Settled (counted.add (act.forwarded cm)).packets := by
  by_cases drained : engine.drained act = some c
  · rw [Engine.tallyAfter, if_pos drained, Act.forwarded_eq_none drained]
    exact settled.drain
  · rw [Engine.tallyAfter, if_neg drained]
    cases forwarded : act.forwarded cm with
    | none => exact settled
    | some len =>
        obtain rfl := Act.forwarded_eq_some forwarded
        refine settled.count ?_
        have below : (engine.table.cms cm).rxPacketCount ≠ BitVec.allOnes 32 := by
          have contained : (engine.table.cmsOf c).contains cm = true :=
            List.contains_iff_mem.mpr own
          simpa only [wrapsNothing, contained, Bool.not_true, Bool.false_or, bne_iff_ne] using fits
        have ne : (engine.table.cms cm).rxPacketCount.toNat ≠ 2 ^ 32 - 1 := fun equal =>
          below (BitVec.eq_of_toNat_eq equal)
        have bound := (engine.table.cms cm).rxPacketCount.isLt
        show (engine.table.cms cm).rxPacketCount.toNat + 1 < 2 ^ 32
        omega

end Acts

/-! ### The account of a connection -/

/-- Both directions of a connection are in balance. -/
structure Ledger.Balanced (ledger : Ledger A) (engine : Engine A) (c : Ptr) : Prop where
  original : (engine.table.cms (engine.table.conns c).originalMatch).tally.Balances
    ⟨ledger.sum ConnectionSync.srcNewPacketCount, ledger.sum ConnectionSync.srcNewByteCount⟩
    ledger.original
  reply : (engine.table.cms (engine.table.conns c).replyMatch).tally.Balances
    ⟨ledger.sum ConnectionSync.destNewPacketCount, ledger.sum ConnectionSync.destNewByteCount⟩
    ledger.reply

/-- The totals of both directions of a connection are right, and those that were reported were. -/
structure Ledger.Settled (ledger : Ledger A) (engine : Engine A) (c : Ptr) : Prop where
  original : (engine.table.cms (engine.table.conns c).originalMatch).tally.packets.Settled
    ledger.original.packets
  reply : (engine.table.cms (engine.table.conns c).replyMatch).tally.packets.Settled
    ledger.reply.packets
  totals : ledger.TotalsRight

section Steps

variable {members : List Ptr} {chain : BitVec 32 → List Ptr} {next : Engine A} {act : Act A M}

omit [DecidableEq A] in
/-- The matches of a connection are its own. -/
theorem Table.mem_cmsOf (table : Table A) (c : Ptr) :
    (table.conns c).originalMatch ∈ table.cmsOf c ∧ (table.conns c).replyMatch ∈ table.cmsOf c :=
  ⟨List.mem_cons_self .., List.mem_cons_of_mem _ (List.mem_singleton.mpr rfl)⟩

theorem Ledger.Balanced.step (balanced : ledger.Balanced engine c)
    (sound : Sound copy.hashes engine members chain) (live : engine.connLive c = true)
    (quiet : debugReadsNothing c engine act = true) (step : engine.step copy act = some next) :
    (ledger.record engine act c).Balanced next c := by
  have keeps := Engine.step_keeps step
  obtain ⟨ownOriginal, ownReply⟩ := Table.mem_cmsOf engine.table c
  constructor
  · rw [keeps.originalMatch c live, sound.step_tally step live ownOriginal]
    exact tallyAfter_balances ownOriginal (fun _ _ => rfl) (fun _ _ => rfl) quiet balanced.original
  · rw [keeps.replyMatch c live, sound.step_tally step live ownReply]
    exact tallyAfter_balances ownReply (fun _ _ => rfl) (fun _ _ => rfl) quiet balanced.reply

theorem Ledger.Settled.step (settled : ledger.Settled engine c)
    (sound : Sound copy.hashes engine members chain) (live : engine.connLive c = true)
    (fits : wrapsNothing c engine act = true) (step : engine.step copy act = some next) :
    (ledger.record engine act c).Settled next c := by
  have keeps := Engine.step_keeps step
  obtain ⟨ownOriginal, ownReply⟩ := Table.mem_cmsOf engine.table c
  refine ⟨?_, ?_, ?_⟩
  · rw [keeps.originalMatch c live, sound.step_tally step live ownOriginal]
    exact tallyAfter_settled ownOriginal fits settled.original
  · rw [keeps.replyMatch c live, sound.step_tally step live ownReply]
    exact tallyAfter_settled ownReply fits settled.reply
  · by_cases drained : engine.drained act = some c
    · rcases Engine.drained_cases drained with ⟨seq, rfl, -⟩ | ⟨reason, nowJiffies, delivery⟩
      · exact settled.totals
      · intro entry mem
        rw [Ledger.deliveries_record delivery] at mem
        rcases List.mem_cons.mp mem with rfl | old
        · exact ⟨settled.original.drain_total, settled.reply.drain_total⟩
        · exact settled.totals entry old
    · have same : (ledger.record engine act c).deliveries = ledger.deliveries :=
        Ledger.deliveries_record_of_none fun message delivery =>
          drained (Engine.drained_of_delivery delivery)
      rw [Ledger.TotalsRight, same]
      exact settled.totals

end Steps

/-! ### The account of a life -/

/-- A connection that was flushed has nothing pending. -/
theorem Life.flushed (life : Life copy allowed c engine ledger) (flushed : c ∈ engine.graceful)
    {cm : Ptr} (own : cm ∈ engine.table.cmsOf c) :
    (engine.table.cms cm).rxPacketCount = 0#32 ∧ (engine.table.cms cm).rxByteCount = 0#32 := by
  cases life with
  | @created before _ net alloc msg nowJiffies contents reachable isConn accepted allows step =>
      obtain ⟨members, chain, sound⟩ := sound_of_reachable reachable
      have fresh := (created_state step).1.1 _ isConn
      have live : before.connLive c = true := by
        refine (sound.connLive c).mpr (List.mem_append_right _ (List.mem_append_right _ ?_))
        simp only [Engine.step, Option.ite_none_right_eq_some, Option.some.injEq] at step
        obtain ⟨-, rfl⟩ := step
        exact flushed
      rw [fresh] at live
      cases live
  | @step before _ _ act life unfinished allows step =>
      obtain ⟨members, chain, sound⟩ := sound_of_reachable life.reachable
      obtain ⟨reason, nowJiffies, rfl⟩ := Engine.step_graceful step unfinished flushed
      have keeps := Engine.step_keeps step
      have same : engine.table.cmsOf c = before.table.cmsOf c := by
        rw [Table.cmsOf, Table.cmsOf, keeps.originalMatch c life.live, keeps.replyMatch c life.live]
      rw [same] at own
      have tally := sound.step_tally step life.live own
      have drained : before.drained (.flush c reason nowJiffies : Act A M) = some c := rfl
      rw [Engine.tallyAfter, if_pos drained] at tally
      have packets := congrArg (fun tally => tally.packets.delta) tally
      have bytes := congrArg (fun tally => tally.bytes.delta) tally
      exact ⟨packets.trans (Meter.drain_delta _), bytes.trans (Meter.drain_delta _)⟩

/-- A connection starts to count at zero. -/
def StartsAtZero (copy : Copy A M) (allowed : Engine A → Act A M → Bool) (c : Ptr) : Prop :=
  ∀ (engine : Engine A) (net : Net A) (alloc : Alloc A) (msg : M) (nowJiffies : BitVec 64)
    (contents : Connection A),
    allowed engine (.create net alloc msg nowJiffies) = true → alloc.conn = some (c, contents) →
    ∀ src dest original reply originalCm replyCm, alloc.reply = some (reply, replyCm) →
      (copy.fill net msg src dest c original reply originalCm replyCm).1.tally = Tally.zero ∧
        (copy.fill net msg src dest c original reply originalCm replyCm).2.tally = Tally.zero

omit [DecidableEq A] in
theorem ConnectionMatch.withUp_tally (cm : ConnectionMatch A) (up : Option Nat) :
    (cm.withUp up).tally = cm.tally := by
  cases up <;> rfl

/-- The counters of a connection that was just created. -/
theorem created_tally (starts : StartsAtZero copy allowed c) {engine next : Engine A} {net : Net A}
    {alloc : Alloc A} {msg : M} {nowJiffies : BitVec 64} {contents : Connection A}
    (isConn : alloc.conn = some (c, contents))
    (accepted : (createRule copy net msg nowJiffies alloc engine.toState).ret = 0)
    (allows : allowed engine (.create net alloc msg nowJiffies) = true)
    (step : engine.step copy (.create net alloc msg nowJiffies) = some next) :
    (next.table.cms (next.table.conns c).originalMatch).tally = Tally.zero ∧
      (next.table.cms (next.table.conns c).replyMatch).tally = Tally.zero := by
  obtain ⟨fresh, isNext⟩ := created_state step
  obtain ⟨src, dest, other, original, reply, _, originalCm, replyCm, up, started, -, holds⟩ :=
    createRule_accepted copy net msg nowJiffies fresh accepted
  have same := isConn.symm.trans started.isConn
  cases same
  obtain ⟨ofOriginal, ofReply⟩ := starts engine net alloc msg nowJiffies contents allows isConn src
    dest original reply originalCm replyCm started.isReply
  rw [← isNext] at holds
  rw [holds.originalMatch, holds.replyMatch, holds.original, holds.reply,
    ConnectionMatch.withUp_tally]
  exact ⟨ofOriginal, ofReply⟩

/-- The account of a connection is in balance all its life. -/
theorem Life.balanced (life : Life copy allowed c engine ledger)
    (starts : StartsAtZero copy allowed c)
    (quiet : ∀ engine act, allowed engine act = true → debugReadsNothing c engine act = true) :
    ledger.Balanced engine c := by
  induction life with
  | created reachable isConn accepted allows step =>
      obtain ⟨ofOriginal, ofReply⟩ := created_tally starts isConn accepted allows step
      constructor
      · rw [ofOriginal]
        exact ⟨Meter.accounts_zero, Meter.accounts_zero⟩
      · rw [ofReply]
        exact ⟨Meter.accounts_zero, Meter.accounts_zero⟩
  | step life unfinished allows step balanced =>
      obtain ⟨members, chain, sound⟩ := sound_of_reachable life.reachable
      exact balanced.step sound life.live (quiet _ _ allows) step

/-- The totals of a connection are right all its life. -/
theorem Life.settled (life : Life copy allowed c engine ledger)
    (starts : StartsAtZero copy allowed c)
    (fits : ∀ engine act, allowed engine act = true → wrapsNothing c engine act = true) :
    ledger.Settled engine c := by
  induction life with
  | created reachable isConn accepted allows step =>
      obtain ⟨ofOriginal, ofReply⟩ := created_tally starts isConn accepted allows step
      refine ⟨?_, ?_, fun _ mem => by cases mem⟩
      · rw [ofOriginal]
        exact Meter.settled_zero
      · rw [ofReply]
        exact Meter.settled_zero
  | step life unfinished allows step settled =>
      obtain ⟨members, chain, sound⟩ := sound_of_reachable life.reachable
      exact settled.step sound life.live (fits _ _ allows) step

/-- **After the last flush everything is reported**, if no debug read drained anything. -/
theorem Life.reported (life : Life copy allowed c engine ledger)
    (starts : StartsAtZero copy allowed c)
    (quiet : ∀ engine act, allowed engine act = true → debugReadsNothing c engine act = true)
    (flushed : c ∈ engine.graceful) : ledger.Reported := by
  have balanced := life.balanced starts quiet
  obtain ⟨ownOriginal, ownReply⟩ := Table.mem_cmsOf engine.table c
  have ofOriginal := life.flushed flushed ownOriginal
  have ofReply := life.flushed flushed ownReply
  exact
    { srcPackets := balanced.original.1.reported_modEq ofOriginal.1
      srcBytes := balanced.original.2.reported_modEq ofOriginal.2
      destPackets := balanced.reply.1.reported_modEq ofReply.1
      destBytes := balanced.reply.2.reported_modEq ofReply.2 }

end Life

/-! ### Both versions -/

/-- The counters of a frame. -/
def Frame.tally (frame : Frame A) : Tally :=
  ⟨⟨frame.rxPacketCount, frame.rxPacketCount64⟩, ⟨frame.rxByteCount, frame.rxByteCount64⟩⟩

theorem Ipv4.startsAtZero (allowed : Engine Ipv4Addr → Act Ipv4Addr Ipv4CreateMsg → Bool)
    (c : Ptr) :
    StartsAtZero Ipv4.copy allowed c := by
  intro engine net alloc msg nowJiffies contents _ _ src dest original reply originalCm replyCm _
  have frames := Ipv4.fill_frames src dest c original reply net msg originalCm replyCm
  rw [fillOriginal_frame, fillReply_frame] at frames
  exact ⟨congrArg Frame.tally frames.1, congrArg Frame.tally frames.2⟩

theorem Ipv6.startsAtZero {allowed : Engine Ipv6Addr → Act Ipv6Addr (CreateMsg Ipv6Addr) → Bool}
    {c : Ptr} (zero : ∀ engine act, allowed engine act = true → Sfe.startsAtZero c act = true) :
    StartsAtZero Ipv6.copy allowed c := by
  intro engine net alloc msg nowJiffies contents allows isConn src dest original reply originalCm
    replyCm isReply
  have found := zero engine _ allows
  simp only [Sfe.startsAtZero, isConn, isReply, Option.map_some, bne_self_eq_false, Bool.false_or,
    Option.all_some, beq_iff_eq] at found
  have frames := Ipv6.fill_frames src dest c original reply net msg originalCm replyCm
  rw [fillOriginal_frame, fillReply_frame, found] at frames
  exact ⟨congrArg Frame.tally frames.1, congrArg Frame.tally frames.2⟩

/-- **When the sync messages of a connection report all that it forwarded.** For IPv4 no debug read
may drain a pending counter, and for IPv6 the reply direction's memory must also come with a packet
counter of zero. The totals are right, whatever is read, as long as no counter of a period wraps. -/
theorem sync_accounts (c : Ptr) :
    ((∀ (engine : Engine Ipv4Addr) (ledger : Ledger Ipv4Addr),
        Life Ipv4.copy (debugReadsNothing c) c engine ledger → c ∈ engine.graceful →
        ledger.Reported) ∧
      (∀ (engine : Engine Ipv4Addr) (ledger : Ledger Ipv4Addr),
        Life Ipv4.copy (wrapsNothing c) c engine ledger → ledger.TotalsRight)) ∧
    ((∀ (engine : Engine Ipv6Addr) (ledger : Ledger Ipv6Addr),
        Life Ipv6.copy (fun engine act => debugReadsNothing c engine act && startsAtZero c act) c
          engine ledger →
        c ∈ engine.graceful → ledger.Reported) ∧
      (∀ (engine : Engine Ipv6Addr) (ledger : Ledger Ipv6Addr),
        Life Ipv6.copy (fun engine act => wrapsNothing c engine act && startsAtZero c act) c
          engine ledger →
        ledger.TotalsRight)) := by
  refine ⟨⟨fun engine ledger life flushed => ?_, fun engine ledger life => ?_⟩,
    fun engine ledger life flushed => ?_, fun engine ledger life => ?_⟩
  · exact life.reported (Ipv4.startsAtZero _ c) (fun _ _ allows => allows) flushed
  · exact (life.settled (Ipv4.startsAtZero _ c) (fun _ _ allows => allows)).totals
  · refine life.reported (Ipv6.startsAtZero fun _ _ allows => ?_) (fun _ _ allows => ?_) flushed
    · exact (Bool.and_eq_true_iff.mp allows).2
    · exact (Bool.and_eq_true_iff.mp allows).1
  · refine (life.settled (Ipv6.startsAtZero fun _ _ allows => ?_) (fun _ _ allows => ?_)).totals
    · exact (Bool.and_eq_true_iff.mp allows).2
    · exact (Bool.and_eq_true_iff.mp allows).1

/-! ### A life with a debug read -/

section Observe

variable [DecidableEq A]

/-- Follow a life through some acts. -/
def observe (copy : Copy A M) (allowed : Engine A → Act A M → Bool) (c : Ptr) :
    Engine A → Ledger A → List (Act A M) → Option (Engine A × Ledger A)
  | engine, ledger, [] => some (engine, ledger)
  | engine, ledger, act :: acts =>
      if c ∈ engine.graceful ∨ allowed engine act = false then none
      else (engine.step copy act).bind fun next =>
        observe copy allowed c next (ledger.record engine act c) acts

theorem Life.observe {copy : Copy A M} {allowed : Engine A → Act A M → Bool} {c : Ptr}
    {engine next : Engine A} {ledger last : Ledger A} (life : Life copy allowed c engine ledger)
    {acts : List (Act A M)} (observed : observe copy allowed c engine ledger acts =
        some (next, last)) :
    Life copy allowed c next last := by
  induction acts generalizing engine ledger with
  | nil =>
      cases observed
      exact life
  | cons act acts ih =>
      unfold Sfe.observe at observed
      split at observed
      · cases observed
      · next fine =>
          rw [not_or] at fine
          obtain ⟨middle, step, rest⟩ := Option.bind_eq_some_iff.mp observed
          exact ih (life.step fine.1 (by simpa using fine.2) step) rest

end Observe

section Example

variable [DecidableEq A] [Inhabited A] (copy : Copy A M)
  (allowed : Engine A → Act A M → Bool) (msg : M) (between : List (Act A M))

/-- A rule is created, one packet is forwarded, something happens, and the rule is flushed. -/
def shortLife : Option (Engine A × Ledger A) :=
  observe copy allowed 1 (Engine.withRule copy msg) {}
    ([.forward 2 60] ++ between ++ [.remove 1, .flush 1 .flush 5])

variable {copy allowed msg between}

theorem shortLife_life
    (allows : allowed Engine.blank
      (.create (twoDevices A) (freshAt 1 2 3 default default) msg 0) = true)
    (accepted : (createRule copy (twoDevices A) msg 0 (freshAt 1 2 3 default default)
      (Engine.blank : Engine A).toState).ret = 0)
    (fresh : (freshAt 1 2 3 default default : Alloc A).Fresh (Engine.blank : Engine A).toState)
    {engine : Engine A} {ledger : Ledger A}
    (short : shortLife copy allowed msg between = some (engine, ledger)) :
    Life copy allowed 1 engine ledger := by
  refine Life.observe (Life.created (Engine.Reachable.initial Engine.blank_initial) rfl accepted
    allows ?_) short
  simp only [Engine.withRule, Engine.after, Engine.run, Engine.step]
  rw [if_pos ⟨rfl, fresh, createRule_defined_of_accepted _ _ _ _ accepted⟩]
  rfl

variable (copy allowed msg between) in
/-- A short life that ends with the flush. -/
theorem shortLife_flushed
    (ends : ((shortLife copy allowed msg between).any fun last =>
      decide (1 ∈ last.1.graceful)) = true) :
    ∃ engine ledger, shortLife copy allowed msg between = some (engine, ledger) ∧
      1 ∈ engine.graceful := by
  cases short : shortLife copy allowed msg between with
  | none =>
      rw [short] at ends
      cases ends
  | some last =>
      rw [short] at ends
      exact ⟨last.1, last.2, rfl, of_decide_eq_true ends⟩

/-- A sync, a debug read, and a packet of the reply direction. -/
def syncedRead : List (Act A M) := [.syncStatus 1 2, .debugRead 1, .forward 3 40]

end Example

/-- A debug read after the first packet, and the packet is reported by no message. -/
theorem Ipv4.not_reported_debugRead :
    ∃ engine ledger, Life Ipv4.copy (fun _ _ => true) 1 engine ledger ∧ 1 ∈ engine.graceful ∧
      ¬ledger.Reported := by
  have some : (shortLife Ipv4.copy (fun _ _ => true) (Ipv4.ruleFor telnet telnet)
      [.debugRead 1]).isSome = true := by decide +kernel
  obtain ⟨⟨engine, ledger⟩, short⟩ := Option.isSome_iff_exists.mp some
  have facts : ((shortLife Ipv4.copy (fun _ _ => true) (Ipv4.ruleFor telnet telnet)
      [.debugRead 1]).map fun (engine, ledger) => (decide (1 ∈ engine.graceful),
        ledger.sum ConnectionSync.srcNewPacketCount, ledger.original.packets)) =
      Option.some (true, 0, 1) := by decide +kernel
  rw [short, Option.map_some, Option.some.injEq, Prod.mk.injEq, Prod.mk.injEq] at facts
  refine ⟨engine, ledger, shortLife_life rfl (by decide +kernel) (by decide +kernel) short,
    of_decide_eq_true facts.1, fun reported => ?_⟩
  have wrong := reported.srcPackets
  rw [facts.2.1, facts.2.2] at wrong
  revert wrong
  decide

/-- The same life with a sync before the debug read, in both versions. -/
theorem sync_accounts_short :
    (∃ engine ledger, shortLife Ipv4.copy (debugReadsNothing 1) (Ipv4.ruleFor telnet telnet)
        syncedRead = some (engine, ledger) ∧ ledger.Reported) ∧
      (∃ engine ledger, shortLife Ipv4.copy (wrapsNothing 1) (Ipv4.ruleFor telnet telnet)
        syncedRead = some (engine, ledger) ∧ ledger.TotalsRight) ∧
      (∃ engine ledger, shortLife Ipv6.copy
        (fun engine act => debugReadsNothing 1 engine act && startsAtZero 1 act) (plainRule default)
        syncedRead = some (engine, ledger) ∧ ledger.Reported) ∧
      (∃ engine ledger, shortLife Ipv6.copy
        (fun engine act => wrapsNothing 1 engine act && startsAtZero 1 act) (plainRule default)
        syncedRead = some (engine, ledger) ∧ ledger.TotalsRight) := by
  obtain ⟨⟨reported4, totals4⟩, reported6, totals6⟩ := sync_accounts 1
  refine ⟨?_, ?_, ?_, ?_⟩
  · obtain ⟨engine, ledger, short, last⟩ := shortLife_flushed Ipv4.copy (debugReadsNothing 1)
      (Ipv4.ruleFor telnet telnet) syncedRead (by decide +kernel)
    exact ⟨engine, ledger, short, reported4 engine ledger
      (shortLife_life rfl (by decide +kernel) (by decide +kernel) short) last⟩
  · obtain ⟨engine, ledger, short, -⟩ := shortLife_flushed Ipv4.copy (wrapsNothing 1)
      (Ipv4.ruleFor telnet telnet) syncedRead (by decide +kernel)
    exact ⟨engine, ledger, short, totals4 engine ledger
      (shortLife_life rfl (by decide +kernel) (by decide +kernel) short)⟩
  · obtain ⟨engine, ledger, short, last⟩ := shortLife_flushed Ipv6.copy
      (fun engine act => debugReadsNothing 1 engine act && startsAtZero 1 act) (plainRule default)
      syncedRead (by decide +kernel)
    exact ⟨engine, ledger, short, reported6 engine ledger
      (shortLife_life rfl (by decide +kernel) (by decide +kernel) short) last⟩
  · obtain ⟨engine, ledger, short, -⟩ := shortLife_flushed Ipv6.copy
      (fun engine act => wrapsNothing 1 engine act && startsAtZero 1 act) (plainRule default)
      syncedRead (by decide +kernel)
    exact ⟨engine, ledger, short, totals6 engine ledger
      (shortLife_life rfl (by decide +kernel) (by decide +kernel) short)⟩

end Qsdk.Sfe
