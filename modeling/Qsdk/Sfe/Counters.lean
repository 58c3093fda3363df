/-
**The counters of a connection, step by step.**

Each match has two meters, of packets and of bytes (`Tally`). A step moves those of a connection in
use in one of three ways: a handler counts a packet that it forwarded by one of the two matches, a
sync or a debug read drains both, and everything else leaves them (`Sound.step_tally`).
-/

import Qsdk.Lib.Meter
import Qsdk.Sfe.Fill
import Qsdk.Sfe.Persist

namespace Qsdk.Sfe

variable {A M : Type}

/-- The counters of a match. -/
structure Tally where
  packets : Meter 32 64
  bytes : Meter 32 64
deriving DecidableEq

namespace Tally

def zero : Tally := ⟨Meter.zero, Meter.zero⟩

/-- A packet of `len` bytes was forwarded. -/
def count (tally : Tally) (len : BitVec 32) : Tally :=
    ⟨tally.packets.count 1, tally.bytes.count len⟩

/-- The counters of the period are moved to those of the life. -/
def drain (tally : Tally) : Tally := ⟨tally.packets.drain, tally.bytes.drain⟩

end Tally

def ConnectionMatch.tally (cm : ConnectionMatch A) : Tally :=
  ⟨⟨cm.rxPacketCount, cm.rxPacketCount64⟩, ⟨cm.rxByteCount, cm.rxByteCount64⟩⟩

@[simp]
theorem ConnectionMatch.updateSummaryStats_tally (cm : ConnectionMatch A) :
    cm.updateSummaryStats.tally = cm.tally.drain := rfl

@[simp]
theorem ConnectionMatch.countForwarded_tally (cm : ConnectionMatch A) (len : BitVec 32) :
    (cm.countForwarded len).tally = cm.tally.count len := rfl

/-! ### Changes of the table -/

namespace Table

variable (table : Table A)

/-- A change of a match that leaves its counters. -/
theorem modifyCm_tally (at_ cm : Ptr) (change : ConnectionMatch A → ConnectionMatch A)
    (keeps : ∀ x, (change x).tally = x.tally) :
    ((table.modifyCm at_ change).cms cm).tally = (table.cms cm).tally := by
  rw [modifyCm_cms]
  split
  · next same => rw [keeps, same]
  · rfl

/-- Merging a message leaves all counters. -/
theorem updateProtocolState_tally (msg : CreateMsg A) (c cm : Ptr) :
    ((table.updateProtocolState msg c).cms cm).tally = (table.cms cm).tally := by
  unfold updateProtocolState updateTcpState
  split
  · exact (modifyCm_tally _ _ cm (ConnectionMatch.mergeReturn msg) fun _ => rfl).trans
      (modifyCm_tally table _ cm (ConnectionMatch.mergeFlow msg) fun _ => rfl)
  · rfl

/-- Draining a connection drains its two matches. -/
theorem drain_tally (c cm : Ptr)
    (apart : (table.conns c).originalMatch ≠ (table.conns c).replyMatch) :
    ((table.drain c).cms cm).tally =
      if cm ∈ table.cmsOf c then (table.cms cm).tally.drain else (table.cms cm).tally := by
  unfold drain
  rw [modifyCm_cms, modifyCm_cms, modifyCm_cms, cmsOf]
  by_cases isOriginal : cm = (table.conns c).originalMatch
  · have notReply : cm ≠ (table.conns c).replyMatch := by rw [isOriginal]; exact apart
    have own : cm ∈ [(table.conns c).originalMatch, (table.conns c).replyMatch] := by
      rw [isOriginal]
      exact List.mem_cons_self ..
    rw [if_neg notReply, if_pos isOriginal, if_pos own, isOriginal]
    rfl
  · by_cases isReply : cm = (table.conns c).replyMatch
    · have own : cm ∈ [(table.conns c).originalMatch, (table.conns c).replyMatch] := by
        rw [isReply]
        exact List.mem_cons_of_mem _ (List.mem_singleton.mpr rfl)
      rw [if_pos isReply, if_neg apart.symm, if_pos own, isReply]
      rfl
    · have foreign : cm ∉ [(table.conns c).originalMatch, (table.conns c).replyMatch] := by
        simp [isOriginal, isReply]
      rw [if_neg isReply, if_neg isOriginal, if_neg foreign]

end Table

section Step

variable {hashes : Hashes A} {engine next : Engine A} {members : List Ptr}
  {chain : BitVec 32 → List Ptr} {c cm : Ptr}

/-- Draining one connection in use leaves the counters of the others. -/
theorem Sound.drain_tally (sound : Sound hashes engine members chain)
    (live : engine.connLive c = true) (own : cm ∈ engine.table.cmsOf c) {other : Ptr}
    (otherLive : engine.connLive other = true) :
    ((engine.table.drain other).cms cm).tally =
      if other = c then (engine.table.cms cm).tally.drain else (engine.table.cms cm).tally := by
  rw [Table.drain_tally _ _ _ (sound.matches_of_live otherLive).1]
  by_cases same : other = c
  · rw [if_pos same, if_pos (by rw [same]; exact own)]
  · rw [if_neg same, if_neg]
    exact fun otherOwn => same (sound.matches_disjoint live otherLive own otherOwn).symm

theorem createRule_tally [DecidableEq A] (copy : Copy A M) (net : Net A) (msg : M)
    (nowJiffies : BitVec 64) {alloc : Alloc A} {before : State A} (fresh : alloc.Fresh before)
    (live : before.cmLive cm = true) :
    ((createRule copy net msg nowJiffies alloc before).state.table.cms cm).tally =
      (before.table.cms cm).tally := by
  have exit := createRule_exit copy net msg nowJiffies alloc before
  generalize createRule copy net msg nowJiffies alloc before = outcome at exit ⊢
  cases exit with
  | noSource | noDest | unregistered | noConn | noOriginal => rfl
  | noReply src dest c contents original originalCm isConn isOriginal =>
      have ne : cm ≠ original := fun same => by
        rw [same, fresh.2.1 _ isOriginal] at live
        cases live
      show ((before.table.modifyCm original fun _ => originalCm).cms cm).tally = _
      rw [Table.modifyCm_cms, if_neg ne]
  | collision src dest c contents original originalCm reply replyCm started state isState old =>
      subst isState
      refine (Table.updateProtocolState_tally _ _ _ cm).trans ?_
      rw [(started.allocated fresh).cms cm live]
  | deadSocket src dest c contents original originalCm reply replyCm started state isState =>
      subst isState
      exact congrArg ConnectionMatch.tally ((started.allocated fresh).cms cm live)
  | installed src dest c contents original originalCm reply replyCm started state isState missing
      filled isFilled alive up =>
      subst isState
      exact congrArg ConnectionMatch.tally
        (State.install_cms (started.allocated fresh) live)

end Step

/-! ### Steps of the engine -/

/-- The message that an act sends, and for which connection. -/
def Engine.delivery (engine : Engine A) : Act A M → Option (Ptr × ConnectionSync A)
  | .flush c reason nowJiffies => some (c, (engine.table.genSyncConnection c reason nowJiffies).1)
  | .syncStatus c nowJiffies => some (c, (engine.table.genSyncConnection c .stats nowJiffies).1)
  | .syncWalk nowJiffies =>
      match engine.phase with
      | .walking (some c) quota =>
          if quota = 0 ∨ engine.table.quiet c = true then none
          else some (c, (engine.table.genSyncConnection c .stats nowJiffies).1)
      | _ => none
  | _ => none

/-- The connection whose counters an act drains: of those that send a message, and of a debug
read. -/
def Engine.drained (engine : Engine A) : Act A M → Option Ptr
  | .debugRead seq => engine.table.findForDebug seq
  | act => (engine.delivery act).map Prod.fst

/-- The length of the packet that an act forwards by a match. -/
def Act.forwarded (act : Act A M) (cm : Ptr) : Option (BitVec 32) :=
  match act with
  | .forward by_ len => if by_ = cm then some len else none
  | _ => none

/-- The counters of a match of `c` after an act. -/
def Engine.tallyAfter (engine : Engine A) (act : Act A M) (c cm : Ptr) : Tally :=
  if engine.drained act = some c then (engine.table.cms cm).tally.drain
  else
    match act.forwarded cm with
    | some len => (engine.table.cms cm).tally.count len
    | none => (engine.table.cms cm).tally

section Steps

variable [DecidableEq A] {copy : Copy A M} {engine next : Engine A} {members : List Ptr}
  {chain : BitVec 32 → List Ptr} {c cm : Ptr}

omit [DecidableEq A] in
theorem Engine.removeLocked_cms (hashes : Hashes A) (engine : Engine A) (c : Ptr) :
    (engine.removeLocked hashes c).table.cms = engine.table.cms := by
  have kept : (engine.table.removeConnection hashes c).2.cms = engine.table.cms :=
    Table.removeConnection_cms c
  unfold Engine.removeLocked
  simp only
  split
  · exact kept
  · exact kept

omit [DecidableEq A] in
/-- The walk drains the connection that it stands at, unless its quota is spent or nothing was
counted. -/
theorem Engine.drained_syncWalk (nowJiffies : BitVec 64) {other : Ptr} {quota : Nat}
    (walking : engine.phase = .walking (some other) quota) :
    engine.drained (.syncWalk nowJiffies : Act A M) =
      if quota = 0 ∨ engine.table.quiet other = true then none else some other := by
  show (engine.delivery _).map Prod.fst = _
  rw [Engine.delivery, walking]
  simp only
  split
  · rfl
  · rfl

/-- **What a step does to the counters of a connection in use.** -/
theorem Sound.step_tally {act : Act A M} (sound : Sound copy.hashes engine members chain)
    (step : engine.step copy act = some next) (live : engine.connLive c = true)
    (own : cm ∈ engine.table.cmsOf c) :
    (next.table.cms cm).tally = engine.tallyAfter act c cm := by
  have drains : ∀ other, engine.connLive other = true →
      ((engine.table.drain other).cms cm).tally =
        if some other = some c then (engine.table.cms cm).tally.drain
        else (engine.table.cms cm).tally := by
    intro other otherLive
    rw [sound.drain_tally live own otherLive]
    simp only [Option.some.injEq]
  have memLive : ∀ other ∈ members, engine.connLive other = true := fun _ => sound.member_live
  cases act with
  | create net alloc msg nowJiffies =>
      simp only [Engine.step, Option.ite_none_right_eq_some, Option.some.injEq] at step
      obtain ⟨⟨-, fresh, -⟩, rfl⟩ := step
      refine createRule_tally copy net msg nowJiffies fresh ?_
      exact (sound.cmLive cm).mpr (List.mem_flatMap.mpr ⟨c, (sound.connLive c).mp live, own⟩)
  | update msg =>
      simp only [Engine.step, Option.ite_none_right_eq_some, Option.some.injEq] at step
      obtain ⟨-, rfl⟩ := step
      show ((engine.table.updateRule copy.hashes (copy.msg msg)).cms cm).tally = _
      unfold Table.updateRule
      split
      · exact Table.updateProtocolState_tally _ _ _ cm
      · rfl
  | destroy tuple =>
      simp only [Engine.step, Option.ite_none_right_eq_some] at step
      obtain ⟨-, step⟩ := step
      split at step
      · cases step
        exact congrArg ConnectionMatch.tally (congrFun (Engine.removeLocked_cms _ _ _) cm)
      · cases step
        rfl
  | destroyDev dev =>
      simp only [Engine.step, Option.ite_none_right_eq_some] at step
      obtain ⟨-, step⟩ := step
      split at step
      · cases step
        exact congrArg ConnectionMatch.tally (congrFun (Engine.removeLocked_cms _ _ _) cm)
      · cases step
        rfl
  | remove other =>
      simp only [Engine.step, Option.ite_none_right_eq_some, Option.some.injEq] at step
      obtain ⟨-, rfl⟩ := step
      exact congrArg ConnectionMatch.tally (congrFun (Engine.removeLocked_cms _ _ _) cm)
  | flush other reason nowJiffies =>
      simp only [Engine.step, Option.ite_none_right_eq_some, Option.some.injEq] at step
      obtain ⟨pending, rfl⟩ := step
      refine drains other ((sound.connLive other).mpr ?_)
      exact List.mem_append_right _ (List.mem_append_left _ pending)
  | free other =>
      simp only [Engine.step, Option.ite_none_right_eq_some, Option.some.injEq] at step
      obtain ⟨-, rfl⟩ := step
      rfl
  | forward by_ len =>
      simp only [Engine.step, Option.ite_none_right_eq_some, Option.some.injEq] at step
      obtain ⟨-, rfl⟩ := step
      show ((engine.table.modifyCm by_ fun x => x.countForwarded len).cms cm).tally =
        match if by_ = cm then some len else none with
        | some len => (engine.table.cms cm).tally.count len
        | none => (engine.table.cms cm).tally
      rw [Table.modifyCm_cms]
      by_cases same : by_ = cm
      · rw [if_pos same.symm, if_pos same, same]
        rfl
      · rw [if_neg (Ne.symm same), if_neg same]
  | track by_ tcp counterTcp =>
      simp only [Engine.step, Option.ite_none_right_eq_some, Option.some.injEq] at step
      obtain ⟨-, rfl⟩ := step
      exact (Table.modifyCm_tally _ by_ cm (fun x => { x with tcp := tcp }) fun _ => rfl).trans
        (Table.modifyCm_tally engine.table _ cm (fun x => { x with tcp := counterTcp }) fun _ =>
          rfl)
  | syncStatus other nowJiffies =>
      simp only [Engine.step, Option.ite_none_right_eq_some, Option.some.injEq] at step
      obtain ⟨otherLive, rfl⟩ := step
      exact drains other otherLive
  | debugRead seq =>
      simp only [Engine.step, Option.ite_none_right_eq_some, Option.some.injEq] at step
      obtain ⟨-, rfl⟩ := step
      show ((engine.table.debugRead copy.debugStops seq).cms cm).tally = _
      rw [Engine.tallyAfter]
      show _ = if engine.table.findForDebug seq = some c then _ else _
      unfold Table.debugRead
      cases found : engine.table.findForDebug seq with
      | none => rfl
      | some other =>
          have mem := sound.coherent.findForDebug seq found
          have kept := sound.coherent.kept other mem
          simp only [Table.modifyConn_conns, if_true, kept, Bool.and_false, Bool.false_eq_true,
            if_false]
          refine Eq.trans ?_ (drains other (memLive other mem))
          unfold Table.drain
          simp only [Table.modifyConn_conns, if_true]
          rfl
  | syncStart =>
      simp only [Engine.step] at step
      split at step
      · simp only [Option.ite_none_right_eq_some, Option.some.injEq] at step
        obtain ⟨-, rfl⟩ := step
        rfl
      · cases step
  | syncWalk nowJiffies =>
      simp only [Engine.step] at step
      split at step
      · next at_ quota walking =>
          cases step
          cases at_ with
          | none =>
              have undrained : engine.drained (.syncWalk nowJiffies : Act A M) = none := by
                show (engine.delivery _).map Prod.fst = none
                rw [Engine.delivery, walking]
                rfl
              rw [Engine.tallyAfter, undrained]
              rfl
          | some other =>
              have mem : other ∈ members := (sound.walker _ _ walking).2 other rfl
              have isDrained : engine.drained (.syncWalk nowJiffies : Act A M) = _ :=
                Engine.drained_syncWalk nowJiffies walking
              unfold Engine.walkStep
              simp only
              by_cases spent : quota = 0
              · rw [if_pos (Or.inl spent)] at isDrained
                rw [if_pos spent, Engine.tallyAfter, isDrained]
                rfl
              · rw [if_neg spent]
                by_cases quiet : engine.table.quiet other = true
                · rw [if_pos (Or.inr quiet)] at isDrained
                  rw [if_pos quiet, Engine.tallyAfter, isDrained]
                  rfl
                · rw [if_neg (by simp [spent, quiet])] at isDrained
                  rw [if_neg quiet, Engine.tallyAfter, isDrained]
                  exact drains other (memLive other mem)
      · cases step
  | syncResume =>
      simp only [Engine.step] at step
      split at step
      · simp only [Option.ite_none_right_eq_some, Option.some.injEq] at step
        obtain ⟨-, rfl⟩ := step
        rfl
      · cases step

end Steps

end Qsdk.Sfe
