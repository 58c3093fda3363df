/-
**What a step keeps of a rule.**

From its creation until its memory is released a connection keeps its tuple and its two matches, and
each match keeps its route, through every step of the engine (`Engine.step_keeps`): rules are
installed in fresh memory, removal moves links, and everything else moves counters and windows.
-/

import Qsdk.Sfe.Lifecycle

namespace Qsdk.Sfe

variable {A M : Type} {engine next : Engine A}

/-- What is in use stays in use, unless its grace period is over, and keeps its tuple, its matches
and their routes. -/
structure State.Keeps (graceful : List Ptr) (before after : State A) : Prop where
  live : ∀ c, before.connLive c = true → c ∉ graceful → after.connLive c = true
  tuple : ∀ c, before.connLive c = true → (after.table.conns c).tuple = (before.table.conns c).tuple
  originalMatch : ∀ c, before.connLive c = true →
    (after.table.conns c).originalMatch = (before.table.conns c).originalMatch
  replyMatch : ∀ c, before.connLive c = true →
    (after.table.conns c).replyMatch = (before.table.conns c).replyMatch
  cms : ∀ cm, before.cmLive cm = true → (before.table.cms cm).SameRoute (after.table.cms cm)

namespace State.Keeps

variable {graceful : List Ptr} {before after : State A}

theorem of_touched (touched : before.Touched after) : before.Keeps graceful after where
  live := fun c live _ => by rw [touched.connLive, live]
  tuple := fun c live => (touched.conns c live).tuple
  originalMatch := fun c live => (touched.conns c live).originalMatch
  replyMatch := fun c live => (touched.conns c live).replyMatch
  cms := touched.cms

theorem of_sameRules (same : before.table.SameRules after.table)
    (connLive : after.connLive = before.connLive) : before.Keeps graceful after where
  live := fun c live _ => by rw [connLive, live]
  tuple := fun c _ => (same.conns c).tuple
  originalMatch := fun c _ => (same.conns c).originalMatch
  replyMatch := fun c _ => (same.conns c).replyMatch
  cms := fun cm _ => same.cms cm

theorem of_memory (conns : after.table.conns = before.table.conns)
    (cms : after.table.cms = before.table.cms)
    (live : ∀ c, before.connLive c = true → c ∉ graceful → after.connLive c = true) :
    before.Keeps graceful after where
  live := live
  tuple := fun c _ => by rw [conns]
  originalMatch := fun c _ => by rw [conns]
  replyMatch := fun c _ => by rw [conns]
  cms := fun cm _ => by
    rw [cms]
    exact ConnectionMatch.SameRoute.rfl

/-- The heads of the tables and the cursor are no part of a rule. -/
theorem of_unlocked (conns : after.table.conns = before.table.conns)
    (cms : after.table.cms = before.table.cms) (connLive : after.connLive = before.connLive) :
    before.Keeps graceful after :=
  of_memory conns cms fun c live _ => by rw [connLive, live]

/-- A removal moves links. -/
theorem removeConnection (hashes : Hashes A) (c : Ptr)
    (same : after.table = (before.table.removeConnection hashes c).2)
    (connLive : after.connLive = before.connLive) : before.Keeps graceful after where
  live := fun c live _ => by rw [connLive, live]
  tuple := fun other _ => by
    rw [same]
    exact (Table.removeConnection_fields hashes before.table c other).2.2.1
  originalMatch := fun other _ => by
    rw [same]
    exact (Table.removeConnection_fields hashes before.table c other).1
  replyMatch := fun other _ => by
    rw [same]
    exact (Table.removeConnection_fields hashes before.table c other).2.1
  cms := fun cm _ => by
    rw [same, Table.removeConnection_cms]
    exact ConnectionMatch.SameRoute.rfl

end State.Keeps

/-- The memory in use, after an installation. -/
theorem State.install_conns {copy : Copy A M} {msg : M} {nowJiffies : BitVec 64}
    {before state : State A} {src dest : Dev} {c original reply : Ptr}
    {originalCm replyCm : ConnectionMatch A} (allocated : before.Allocated state c original reply)
    {other : Ptr} (live : before.connLive other = true) :
    let table := (state.install copy msg nowJiffies src dest c original reply originalCm
      replyCm).table
    (table.conns other).tuple = (before.table.conns other).tuple ∧
      (table.conns other).originalMatch = (before.table.conns other).originalMatch ∧
      (table.conns other).replyMatch = (before.table.conns other).replyMatch := by
  have ne : other ≠ c := fun same => by
    rw [same, allocated.conn_fresh] at live
    cases live
  have kept : (state.table.fill copy msg nowJiffies src dest c original reply originalCm
      replyCm).conns other = before.table.conns other := by
    rw [Table.fill, Table.modifyConn_conns, if_neg ne]
    exact allocated.conns other live
  obtain ⟨isOriginal, isReply, isTuple, -⟩ := Table.insertConnection_fields copy.hashes
    (state.table.fill copy msg nowJiffies src dest c original reply originalCm replyCm) c other
  rw [kept] at isOriginal isReply isTuple
  exact ⟨isTuple, isOriginal, isReply⟩

theorem State.install_cms {copy : Copy A M} {msg : M} {nowJiffies : BitVec 64}
    {before state : State A} {src dest : Dev} {c original reply : Ptr}
    {originalCm replyCm : ConnectionMatch A} (allocated : before.Allocated state c original reply)
    {other : Ptr} (live : before.cmLive other = true) :
    (state.install copy msg nowJiffies src dest c original reply originalCm replyCm).table.cms
    other =
      before.table.cms other := by
  have neOriginal : other ≠ original := fun same => by
    rw [same, allocated.original_fresh] at live
    cases live
  have neReply : other ≠ reply := fun same => by
    rw [same, allocated.reply_fresh] at live
    cases live
  show ((state.table.fill copy msg nowJiffies src dest c original reply originalCm
    replyCm).insertConnection copy.hashes c).cms other = before.table.cms other
  rw [Table.insertConnection_cms]
  show ((state.table.modifyCm original fun _ => originalCm).modifyCm reply
    fun _ => replyCm).cms other = before.table.cms other
  rw [Table.modifyCm_cms, if_neg neReply, Table.modifyCm_cms, if_neg neOriginal]
  exact allocated.cms other live

section Step

variable [DecidableEq A] {copy : Copy A M}

theorem State.Keeps.installed {net : Net A} {msg : M} {before after : State A}
    (installed : Installed copy net msg before after) (graceful : List Ptr) :
    before.Keeps graceful after := by
  obtain ⟨src, dest, nowJiffies, c, original, reply, state, up, -, -, allocated, -, isAfter⟩ :=
    installed.installed
  rw [isAfter]
  exact
    { live := fun other live _ => by
        show state.connLive other = true
        rw [allocated.connLive, Function.update_apply, live, ite_self]
      tuple := fun other live => (State.install_conns allocated live).1
      originalMatch := fun other live => (State.install_conns allocated live).2.1
      replyMatch := fun other live => (State.install_conns allocated live).2.2
      cms := fun other live => by
        rw [State.install_cms allocated live]
        exact ConnectionMatch.SameRoute.rfl }

/-- **A step keeps the rules in use.** -/
theorem Engine.step_keeps {act : Act A M} (step : engine.step copy act = some next) :
    engine.toState.Keeps engine.graceful next.toState := by
  have removed : ∀ c, engine.toState.Keeps engine.graceful
      (engine.removeLocked copy.hashes c).toState := by
    intro c
    refine State.Keeps.removeConnection copy.hashes c ?_ ?_
    · unfold Engine.removeLocked
      simp only
      split
      · rfl
      · rfl
    · unfold Engine.removeLocked
      simp only
      split
      · rfl
      · rfl
  cases act with
  | create net alloc msg nowJiffies =>
      simp only [Engine.step, Option.ite_none_right_eq_some, Option.some.injEq] at step
      obtain ⟨⟨-, fresh, -⟩, rfl⟩ := step
      rcases createRule_cases copy net msg nowJiffies alloc fresh with touched | installed
      · exact State.Keeps.of_touched touched
      · exact State.Keeps.installed installed _
  | update msg =>
      simp only [Engine.step, Option.ite_none_right_eq_some, Option.some.injEq] at step
      obtain ⟨-, rfl⟩ := step
      exact State.Keeps.of_sameRules (Table.SameRules.updateRule _ _) rfl
  | destroy tuple =>
      simp only [Engine.step, Option.ite_none_right_eq_some] at step
      obtain ⟨-, step⟩ := step
      split at step
      · cases step
        exact removed _
      · cases step
        exact State.Keeps.of_unlocked rfl rfl rfl
  | destroyDev dev =>
      simp only [Engine.step, Option.ite_none_right_eq_some] at step
      obtain ⟨-, step⟩ := step
      split at step
      · cases step
        exact removed _
      · cases step
        exact State.Keeps.of_unlocked rfl rfl rfl
  | remove c =>
      simp only [Engine.step, Option.ite_none_right_eq_some, Option.some.injEq] at step
      obtain ⟨-, rfl⟩ := step
      exact removed c
  | flush c reason nowJiffies =>
      simp only [Engine.step, Option.ite_none_right_eq_some, Option.some.injEq] at step
      obtain ⟨-, rfl⟩ := step
      exact State.Keeps.of_sameRules (Table.SameRules.genSyncConnection c reason nowJiffies) rfl
  | free c =>
      simp only [Engine.step, Option.ite_none_right_eq_some, Option.some.injEq] at step
      obtain ⟨waiting, rfl⟩ := step
      refine State.Keeps.of_memory rfl rfl fun other live stays => ?_
      have ne : other ≠ c := fun same => stays (by rw [same]; exact waiting)
      show Function.update engine.connLive c false other = true
      rw [Function.update_of_ne ne, live]
  | forward cm len =>
      simp only [Engine.step, Option.ite_none_right_eq_some, Option.some.injEq] at step
      obtain ⟨-, rfl⟩ := step
      exact State.Keeps.of_sameRules
        (Table.SameRules.modifyCm _ _ fun x => ConnectionMatch.SameRoute.countForwarded x len) rfl
  | track cm tcp counterTcp =>
      simp only [Engine.step, Option.ite_none_right_eq_some, Option.some.injEq] at step
      obtain ⟨-, rfl⟩ := step
      exact State.Keeps.of_sameRules
        ((Table.SameRules.modifyCm _ _ fun x =>
          ConnectionMatch.SameRoute.withTcp x counterTcp).trans
          (Table.SameRules.modifyCm _ _ fun x => ConnectionMatch.SameRoute.withTcp x tcp)) rfl
  | syncStatus c nowJiffies =>
      simp only [Engine.step, Option.ite_none_right_eq_some, Option.some.injEq] at step
      obtain ⟨-, rfl⟩ := step
      exact State.Keeps.of_sameRules (Table.SameRules.genSyncConnection c .stats nowJiffies) rfl
  | debugRead seq =>
      simp only [Engine.step, Option.ite_none_right_eq_some, Option.some.injEq] at step
      obtain ⟨-, rfl⟩ := step
      exact State.Keeps.of_sameRules (Table.SameRules.debugRead _ _) rfl
  | syncStart =>
      simp only [Engine.step] at step
      split at step
      · simp only [Option.ite_none_right_eq_some, Option.some.injEq] at step
        obtain ⟨-, rfl⟩ := step
        exact State.Keeps.of_unlocked rfl rfl rfl
      · cases step
  | syncWalk nowJiffies =>
      simp only [Engine.step] at step
      split at step
      · next at_ quota _ =>
          cases step
          unfold Engine.walkStep
          cases at_ with
          | none => exact State.Keeps.of_unlocked rfl rfl rfl
          | some c =>
              simp only
              split
              · exact State.Keeps.of_unlocked rfl rfl rfl
              · split
                · exact State.Keeps.of_unlocked rfl rfl rfl
                · have synced : engine.table.SameRules
                      (engine.table.genSyncConnection c .stats nowJiffies).2 :=
                    Table.SameRules.genSyncConnection c .stats nowJiffies
                  exact
                    { live := fun _ live _ => live
                      tuple := fun other _ => (synced.conns other).tuple
                      originalMatch := fun other _ => (synced.conns other).originalMatch
                      replyMatch := fun other _ => (synced.conns other).replyMatch
                      cms := fun cm _ => synced.cms cm }
      · cases step
  | syncResume =>
      simp only [Engine.step] at step
      split at step
      · simp only [Option.ite_none_right_eq_some, Option.some.injEq] at step
        obtain ⟨-, rfl⟩ := step
        exact State.Keeps.of_unlocked rfl rfl rfl
      · cases step

/-- Only a flush makes a connection wait for its grace period. -/
theorem Engine.step_graceful {act : Act A M} (step : engine.step copy act = some next) {c : Ptr}
    (before : c ∉ engine.graceful) (after : c ∈ next.graceful) :
    ∃ reason nowJiffies, act = .flush c reason nowJiffies := by
  have removed : ∀ other, (engine.removeLocked copy.hashes other).graceful = engine.graceful := by
    intro other
    unfold Engine.removeLocked
    simp only
    split
    · rfl
    · rfl
  cases act with
  | flush other reason nowJiffies =>
      simp only [Engine.step, Option.ite_none_right_eq_some, Option.some.injEq] at step
      obtain ⟨-, rfl⟩ := step
      rcases List.mem_cons.mp after with same | old
      · exact ⟨reason, nowJiffies, by rw [same]⟩
      · exact absurd old before
  | free other =>
      simp only [Engine.step, Option.ite_none_right_eq_some, Option.some.injEq] at step
      obtain ⟨-, rfl⟩ := step
      exact absurd (List.mem_of_mem_erase after) before
  | destroy tuple =>
      simp only [Engine.step, Option.ite_none_right_eq_some] at step
      obtain ⟨-, step⟩ := step
      split at step
      · cases step
        rw [removed] at after
        exact absurd after before
      · cases step
        exact absurd after before
  | destroyDev dev =>
      simp only [Engine.step, Option.ite_none_right_eq_some] at step
      obtain ⟨-, step⟩ := step
      split at step
      · cases step
        rw [removed] at after
        exact absurd after before
      · cases step
        exact absurd after before
  | remove other =>
      simp only [Engine.step, Option.ite_none_right_eq_some, Option.some.injEq] at step
      obtain ⟨-, rfl⟩ := step
      rw [removed] at after
      exact absurd after before
  | syncStart | syncResume =>
      simp only [Engine.step] at step
      split at step
      · simp only [Option.ite_none_right_eq_some, Option.some.injEq] at step
        obtain ⟨-, rfl⟩ := step
        exact absurd after before
      · cases step
  | syncWalk nowJiffies =>
      simp only [Engine.step] at step
      split at step
      · next at_ quota _ =>
          cases step
          unfold Engine.walkStep at after
          cases at_ with
          | none => exact absurd after before
          | some other =>
              simp only at after
              split at after
              · exact absurd after before
              · split at after
                · exact absurd after before
                · exact absurd after before
      · cases step
  | _ =>
      simp only [Engine.step, Option.ite_none_right_eq_some, Option.some.injEq] at step
      obtain ⟨-, rfl⟩ := step
      exact absurd after before

/-- A connection comes into use by a creation that installs it. -/
theorem Engine.step_born {act : Act A M} (step : engine.step copy act = some next) {c : Ptr}
    (after : next.connLive c = true) :
    engine.connLive c = true ∨
      ∃ net alloc msg nowJiffies, act = .create net alloc msg nowJiffies ∧
        Installed copy net msg engine.toState next.toState := by
  have removed : ∀ other, (engine.removeLocked copy.hashes other).connLive = engine.connLive := by
    intro other
    unfold Engine.removeLocked
    simp only
    split
    · rfl
    · rfl
  cases act with
  | create net alloc msg nowJiffies =>
      simp only [Engine.step, Option.ite_none_right_eq_some, Option.some.injEq] at step
      obtain ⟨⟨-, fresh, -⟩, rfl⟩ := step
      rcases createRule_cases copy net msg nowJiffies alloc fresh with touched | installed
      · refine Or.inl ?_
        rw [← touched.connLive]
        exact after
      · exact Or.inr ⟨net, alloc, msg, nowJiffies, rfl, installed⟩
  | free other =>
      simp only [Engine.step, Option.ite_none_right_eq_some, Option.some.injEq] at step
      obtain ⟨-, rfl⟩ := step
      have live : Function.update engine.connLive other false c = true := after
      rw [Function.update_apply] at live
      split at live
      · cases live
      · exact Or.inl live
  | destroy tuple =>
      simp only [Engine.step, Option.ite_none_right_eq_some] at step
      obtain ⟨-, step⟩ := step
      split at step
      · cases step
        rw [removed] at after
        exact Or.inl after
      · cases step
        exact Or.inl after
  | destroyDev dev =>
      simp only [Engine.step, Option.ite_none_right_eq_some] at step
      obtain ⟨-, step⟩ := step
      split at step
      · cases step
        rw [removed] at after
        exact Or.inl after
      · cases step
        exact Or.inl after
  | remove other =>
      simp only [Engine.step, Option.ite_none_right_eq_some, Option.some.injEq] at step
      obtain ⟨-, rfl⟩ := step
      rw [removed] at after
      exact Or.inl after
  | syncStart | syncResume =>
      simp only [Engine.step] at step
      split at step
      · simp only [Option.ite_none_right_eq_some, Option.some.injEq] at step
        obtain ⟨-, rfl⟩ := step
        exact Or.inl after
      · cases step
  | syncWalk nowJiffies =>
      simp only [Engine.step] at step
      split at step
      · next at_ quota _ =>
          cases step
          refine Or.inl ?_
          unfold Engine.walkStep at after
          cases at_ with
          | none => exact after
          | some other =>
              simp only at after
              split at after
              · exact after
              · split at after
                · exact after
                · exact after
      · cases step
  | _ =>
      simp only [Engine.step, Option.ite_none_right_eq_some, Option.some.injEq] at step
      obtain ⟨-, rfl⟩ := step
      exact Or.inl after

end Step

end Qsdk.Sfe
