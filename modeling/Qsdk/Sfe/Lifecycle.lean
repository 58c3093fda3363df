/-
**The tables stay coherent over every run.**

`Sound` is the invariant of the engine. The tables are coherent (`Coherent`); the connections in use
are the members, those that were removed and not yet flushed, and those that wait for their grace
period, each of them once; no two of them share a match; and a connection that is no member has its
`removed` flag set, so that a second removal does nothing and it is flushed once. The periodic sync
holds the lock while it walks, and stands at a member or at the end.

Every step keeps it (`Sound.step`): it leaves the rules alone, installs one, removes one, moves the
cursor, or releases the memory of one that was flushed. So it holds in every engine that can be
reached (`sound_of_reachable`).
-/

import Qsdk.Sfe.Calls

namespace Qsdk.Sfe

variable {A M : Type} {hashes : Hashes A} {engine next : Engine A} {members : List Ptr}
  {chain : BitVec 32 → List Ptr}

/-- The connections in use: the members, and those that were removed. -/
def Engine.inUse (engine : Engine A) (members : List Ptr) : List Ptr :=
  members ++ (engine.unflushed ++ engine.graceful)

/-- The invariant of the engine. -/
structure Sound (hashes : Hashes A) (engine : Engine A) (members : List Ptr)
    (chain : BitVec 32 → List Ptr) : Prop where
  coherent : Coherent hashes engine.table members chain
  nodup : (engine.inUse members).Nodup
  connLive : ∀ c, engine.connLive c = true ↔ c ∈ engine.inUse members
  owned : ((engine.inUse members).flatMap engine.table.cmsOf).Nodup
  cmLive : ∀ cm, engine.cmLive cm = true ↔ cm ∈ (engine.inUse members).flatMap engine.table.cmsOf
  gone : ∀ c ∈ engine.unflushed ++ engine.graceful, (engine.table.conns c).removed = true
  walker : ∀ next quota, engine.phase = .walking next quota →
    engine.locked = true ∧ ∀ c ∈ next, c ∈ members

/-- Nothing is in use at first. -/
theorem Sound.initial (initial : engine.Initial) : Sound hashes engine [] (fun _ => []) := by
  obtain ⟨connHash, buckets, head, tail, count, cursor, -, connLive, cmLive, phase, unflushed,
    graceful⟩ := initial
  have none : engine.inUse [] = [] := by rw [Engine.inUse, unflushed, graceful]; rfl
  exact
    { coherent :=
        { nodup := List.nodup_nil
          head := head
          tail := tail
          linked := trivial
          count := count
          chainHead := fun idx => by rw [connHash]; rfl
          chainLinked := fun _ => trivial
          chainNodup := fun _ => List.nodup_nil
          mem_chain := fun _ _ => by simp
          tuples := fun _ mem => by cases mem
          owned := List.nodup_nil
          bucketNodup := fun idx => by rw [buckets]; exact List.nodup_nil
          mem_bucket := fun idx cm => by rw [buckets]; simp
          cursor := fun c isNext => by rw [cursor] at isNext; cases isNext
          kept := fun _ mem => by cases mem }
      nodup := by rw [none]; exact List.nodup_nil
      connLive := fun c => by rw [connLive, none]; simp
      owned := by rw [none]; exact List.nodup_nil
      cmLive := fun cm => by rw [cmLive, none]; simp
      gone := fun c mem => by rw [unflushed, graceful] at mem; cases mem
      walker := fun _ _ walking => by rw [phase] at walking; cases walking }

/-- The members are in use. -/
theorem Sound.member_live (sound : Sound hashes engine members chain) {c : Ptr}
    (mem : c ∈ members) : engine.connLive c = true :=
  (sound.connLive c).mpr (List.mem_append_left _ mem)

/-- The matches of the members are in use. -/
theorem Sound.cm_live (sound : Sound hashes engine members chain) {cm : Ptr}
    (mem : cm ∈ members.flatMap engine.table.cmsOf) : engine.cmLive cm = true := by
  refine (sound.cmLive cm).mpr ?_
  obtain ⟨c, inMembers, isCm⟩ := List.mem_flatMap.mp mem
  exact List.mem_flatMap.mpr ⟨c, List.mem_append_left _ inMembers, isCm⟩

/-- The two matches of a connection in use are different, and in use. -/
theorem Sound.matches_of_live (sound : Sound hashes engine members chain) {c : Ptr}
    (live : engine.connLive c = true) :
    (engine.table.conns c).originalMatch ≠ (engine.table.conns c).replyMatch ∧
      engine.cmLive (engine.table.conns c).originalMatch = true ∧
      engine.cmLive (engine.table.conns c).replyMatch = true := by
  have mem := (sound.connLive c).mp live
  have own : ∀ cm ∈ engine.table.cmsOf c, engine.cmLive cm = true := fun cm own =>
    (sound.cmLive cm).mpr (List.mem_flatMap.mpr ⟨c, mem, own⟩)
  have nodup : (engine.table.cmsOf c).Nodup := (List.nodup_flatMap.mp sound.owned).1 c mem
  rw [Table.cmsOf, List.nodup_cons, List.mem_singleton] at nodup
  exact ⟨nodup.1, own _ (List.mem_cons_self ..),
    own _ (List.mem_cons_of_mem _ (List.mem_singleton.mpr rfl))⟩

/-- Two connections in use share no match. -/
theorem Sound.matches_disjoint (sound : Sound hashes engine members chain) {c other cm : Ptr}
    (live : engine.connLive c = true) (otherLive : engine.connLive other = true)
    (own : cm ∈ engine.table.cmsOf c) (otherOwn : cm ∈ engine.table.cmsOf other) : c = other := by
  by_contra differs
  have mem := (sound.connLive c).mp live
  have otherMem : other ∈ (engine.inUse members).erase c :=
    (List.mem_erase_of_ne (Ne.symm differs)).mpr ((sound.connLive other).mp otherLive)
  have owned :=
    ((List.perm_cons_erase mem).flatMap_right engine.table.cmsOf).nodup_iff.mp sound.owned
  rw [List.flatMap_cons] at owned
  exact (List.nodup_append.mp owned).2.2 cm own cm
    (List.mem_flatMap.mpr ⟨other, otherMem, otherOwn⟩) rfl

/-- What is in use has the same matches when it is touched. -/
theorem Sound.cmsOf_touched (sound : Sound hashes engine members chain)
    (touched : engine.toState.Touched next.toState) {conns : List Ptr}
    (sub : ∀ c ∈ conns, c ∈ engine.inUse members) :
    conns.flatMap next.table.cmsOf = conns.flatMap engine.table.cmsOf :=
  flatMap_cmsOf_congr fun c mem => touched.conns c ((sound.connLive c).mpr (sub c mem))

/-- The tables stay coherent when the rules are left alone. -/
theorem Sound.coherent_touched (sound : Sound hashes engine members chain)
    (touched : engine.toState.Touched next.toState) : Coherent hashes next.table members chain := by
  refine sound.coherent.congr touched.heads ?_ ?_ ?_
  · exact fun c mem => touched.conns c (sound.member_live mem)
  · exact fun cm mem => (touched.cms cm (sound.cm_live mem)).key
  · intro c isNext
    rw [touched.wcNext] at isNext
    exact sound.coherent.cursor c isNext

/-- **A step that leaves the rules alone keeps the invariant.** -/
theorem Sound.touched (sound : Sound hashes engine members chain)
    (touched : engine.toState.Touched next.toState)
    (pending : (next.unflushed ++ next.graceful).Perm (engine.unflushed ++ engine.graceful))
    (walker : ∀ at_ quota, next.phase = .walking at_ quota →
      next.locked = true ∧ ∀ c ∈ at_, c ∈ members) : Sound hashes next members chain := by
  have same : (next.inUse members).Perm (engine.inUse members) := pending.append_left members
  have cms : (engine.inUse members).flatMap next.table.cmsOf =
      (engine.inUse members).flatMap engine.table.cmsOf :=
    sound.cmsOf_touched touched fun _ mem => mem
  have samecms : ((next.inUse members).flatMap next.table.cmsOf).Perm
      ((engine.inUse members).flatMap engine.table.cmsOf) := by
    rw [← cms]
    exact same.flatMap_right _
  exact
    { coherent := sound.coherent_touched touched
      nodup := same.nodup_iff.mpr sound.nodup
      connLive := fun c => by rw [touched.connLive, sound.connLive, same.mem_iff]
      owned := samecms.nodup_iff.mpr sound.owned
      cmLive := fun cm => by rw [touched.cmLive, sound.cmLive, samecms.mem_iff]
      gone := fun c mem => by
        have old := pending.mem_iff.mp mem
        have live := (sound.connLive c).mpr (List.mem_append_right _ old)
        rw [(touched.conns c live).removed]
        exact sound.gone c old
      walker := walker }

/-- A walk that moves its cursor to a member, or to the end, keeps the invariant. -/
theorem Sound.moveCursor (sound : Sound hashes engine members chain) (cursor : Option Ptr)
    (isMember : ∀ c ∈ cursor, c ∈ members) (locked : Bool) (phase : SyncPhase)
    (walker : ∀ at_ quota, phase = .walking at_ quota → locked = true ∧ ∀ c ∈ at_, c ∈ members) :
    Sound hashes
      { engine.withTable { engine.table with wcNext := cursor } with
        locked := locked, phase := phase } members chain where
  coherent := sound.coherent.congr ⟨rfl, rfl, rfl, rfl, rfl⟩ (fun _ _ => Connection.SamePlace.rfl)
    (fun _ _ => rfl) isMember
  nodup := sound.nodup
  connLive := sound.connLive
  owned := sound.owned
  cmLive := sound.cmLive
  gone := sound.gone
  walker := walker

/-! ### Removal -/

/-- What a removal keeps of a connection. -/
theorem Table.removeConnection_fields (hashes : Hashes A) (table : Table A) (c other : Ptr) :
    ((table.removeConnection hashes c).2.conns other).originalMatch =
        (table.conns other).originalMatch ∧
      ((table.removeConnection hashes c).2.conns other).replyMatch =
        (table.conns other).replyMatch ∧
      ((table.removeConnection hashes c).2.conns other).tuple = (table.conns other).tuple ∧
      ((table.conns other).removed = true →
        ((table.removeConnection hashes c).2.conns other).removed = true) := by
  by_cases removed : (table.conns c).removed = true
  · rw [Table.removeConnection_again c removed]
    exact ⟨rfl, rfl, rfl, id⟩
  · rw [Table.removeConnection_eq c (by simpa using removed), Table.modifyConn_conns]
    split
    · next same =>
        rw [same]
        exact ⟨rfl, rfl, rfl, fun _ => rfl⟩
    · exact ⟨rfl, rfl, rfl, id⟩

theorem Table.removeConnection_cms {table : Table A} (c : Ptr) :
    (table.removeConnection hashes c).2.cms = table.cms := by
  by_cases removed : (table.conns c).removed = true
  · rw [Table.removeConnection_again c removed]
  · rw [Table.removeConnection_eq c (by simpa using removed)]
    rfl

/-- The removed member carries the flag. -/
theorem Table.removeConnection_self {table : Table A} (c : Ptr)
    (kept : (table.conns c).removed = false) :
    ((table.removeConnection hashes c).2.conns c).removed = true := by
  rw [Table.removeConnection_eq c kept, Table.modifyConn_conns, if_pos rfl]

/-- **Removing a connection in use keeps the invariant**: a member goes over to those that wait to
be flushed, and any other connection stays where it is. -/
theorem Sound.removeLocked (sound : Sound hashes engine members chain)
    (unlocked : engine.locked = false) {c : Ptr} (live : engine.connLive c = true) :
    ∃ members chain, Sound hashes (engine.removeLocked hashes c) members chain := by
  rcases List.mem_append.mp ((sound.connLive c).mp live) with mem | pending
  · obtain ⟨removed, coherent⟩ := sound.coherent.removeConnection mem
    refine ⟨members.erase c, fun idx => (chain idx).erase c, ?_⟩
    have shape : engine.removeLocked hashes c =
        { engine.withTable (engine.table.removeConnection hashes c).2 with
          unflushed := c :: engine.unflushed } := by
      unfold Engine.removeLocked
      simp only [removed, if_true]
    have same : ((members.erase c) ++ (c :: engine.unflushed ++ engine.graceful)).Perm
        (engine.inUse members) := by
      refine List.Perm.trans List.perm_middle ?_
      exact ((List.perm_cons_erase mem).symm).append_right _
    have cms : ∀ conns : List Ptr,
        conns.flatMap (engine.table.removeConnection hashes c).2.cmsOf =
          conns.flatMap engine.table.cmsOf := by
      intro conns
      refine List.flatMap_congr fun other _ => ?_
      obtain ⟨isOriginal, isReply, -⟩ := Table.removeConnection_fields hashes engine.table c other
      rw [Table.cmsOf, Table.cmsOf, isOriginal, isReply]
    have samecms : (((members.erase c) ++ (c :: engine.unflushed ++ engine.graceful)).flatMap
        (engine.table.removeConnection hashes c).2.cmsOf).Perm
          ((engine.inUse members).flatMap engine.table.cmsOf) := by
      rw [cms]
      exact same.flatMap_right _
    rw [shape]
    exact
      { coherent := coherent
        nodup := same.nodup_iff.mpr sound.nodup
        connLive := fun other => (sound.connLive other).trans same.mem_iff.symm
        owned := samecms.nodup_iff.mpr sound.owned
        cmLive := fun cm => (sound.cmLive cm).trans samecms.mem_iff.symm
        gone := fun other isGone => by
          rcases List.mem_cons.mp isGone with isC | old
          · rw [isC]
            exact Table.removeConnection_self c (sound.coherent.kept c mem)
          · exact (Table.removeConnection_fields hashes _ c other).2.2.2 (sound.gone other old)
        walker := fun at_ quota walking => by
          have locked := (sound.walker at_ quota walking).1
          rw [unlocked] at locked
          cases locked }
  · refine ⟨members, chain, ?_⟩
    have shape : engine.removeLocked hashes c = engine := by
      unfold Engine.removeLocked
      rw [Table.removeConnection_again c (sound.gone c pending)]
      rfl
    rw [shape]
    exact sound

/-! ### Installation -/

/-- The insertion moves links only. -/
theorem Table.insertConnection_fields (hashes : Hashes A) (table : Table A) (c other : Ptr) :
    ((table.insertConnection hashes c).conns other).originalMatch =
        (table.conns other).originalMatch ∧
      ((table.insertConnection hashes c).conns other).replyMatch =
        (table.conns other).replyMatch ∧
      ((table.insertConnection hashes c).conns other).tuple = (table.conns other).tuple ∧
      ((table.insertConnection hashes c).conns other).removed = (table.conns other).removed := by
  rw [Table.insertConnection_eq]
  exact ⟨rfl, rfl, rfl, rfl⟩

theorem Table.insertConnection_cms (hashes : Hashes A) (table : Table A) (c : Ptr) :
    (table.insertConnection hashes c).cms = table.cms := by
  rw [Table.insertConnection_eq]
  rfl

/-- What an insertion needs: a table that differs from the engine's in fresh memory, where a filled
connection with two matches and a new tuple stands. -/
structure Engine.Ready (engine : Engine A) (members : List Ptr) (table : Table A)
    (c original reply : Ptr) : Prop where
  conns : ∀ other, engine.connLive other = true → table.conns other = engine.table.conns other
  cms : ∀ other, engine.cmLive other = true → table.cms other = engine.table.cms other
  heads : engine.table.SameHeads table
  wcNext : table.wcNext = engine.table.wcNext
  conn_fresh : engine.connLive c = false
  original_fresh : engine.cmLive original = false
  reply_fresh : engine.cmLive reply = false
  apart : original ≠ reply
  originalMatch : (table.conns c).originalMatch = original
  replyMatch : (table.conns c).replyMatch = reply
  kept : (table.conns c).removed = false
  newTuple : ∀ other ∈ members, (engine.table.conns other).tuple ≠ (table.conns c).tuple

namespace Engine.Ready

variable {table : Table A} {c original reply : Ptr}

theorem coherent (ready : engine.Ready members table c original reply)
    (sound : Sound hashes engine members chain) : Coherent hashes table members chain := by
  refine sound.coherent.congr ready.heads ?_ ?_ ?_
  · intro other mem
    rw [ready.conns other (sound.member_live mem)]
    exact Connection.SamePlace.rfl
  · intro cm mem
    rw [ready.cms cm (sound.cm_live mem)]
  · intro other isNext
    rw [ready.wcNext] at isNext
    exact sound.coherent.cursor other isNext

theorem cmsOf (ready : engine.Ready members table c original reply) :
    table.cmsOf c = [original, reply] := by
  rw [Table.cmsOf, ready.originalMatch, ready.replyMatch]

theorem flatMap_cmsOf (ready : engine.Ready members table c original reply) (conns : List Ptr)
    (live : ∀ other ∈ conns, engine.connLive other = true) :
    conns.flatMap table.cmsOf = conns.flatMap engine.table.cmsOf := by
  refine List.flatMap_congr fun other mem => ?_
  rw [Table.cmsOf, Table.cmsOf, ready.conns other (live other mem)]

theorem not_member (ready : engine.Ready members table c original reply)
    (sound : Sound hashes engine members chain) : c ∉ engine.inUse members := by
  intro mem
  have live := (sound.connLive c).mpr mem
  rw [ready.conn_fresh] at live
  cases live

theorem not_owned (ready : engine.Ready members table c original reply)
    (sound : Sound hashes engine members chain) :
    original ∉ (engine.inUse members).flatMap engine.table.cmsOf ∧
      reply ∉ (engine.inUse members).flatMap engine.table.cmsOf := by
  refine ⟨fun owned => ?_, fun owned => ?_⟩
  · have live := (sound.cmLive original).mpr owned
    rw [ready.original_fresh] at live
    cases live
  · have live := (sound.cmLive reply).mpr owned
    rw [ready.reply_fresh] at live
    cases live

/-- The inserted table is coherent. -/
theorem inserted (ready : engine.Ready members table c original reply)
    (sound : Sound hashes engine members chain) :
    ∃ chain, Coherent hashes (table.insertConnection hashes c) (members ++ [c]) chain := by
  refine ⟨_, (ready.coherent sound).insertConnection ?_ ?_ ?_ ?_ ready.kept⟩
  · exact fun mem => ready.not_member sound (List.mem_append_left _ mem)
  · intro cm mem owned
    rw [ready.flatMap_cmsOf members fun other inMembers => sound.member_live inMembers] at owned
    have live := sound.cm_live owned
    rw [ready.cmsOf, List.mem_cons, List.mem_singleton] at mem
    rcases mem with isOriginal | isReply
    · rw [isOriginal, ready.original_fresh] at live
      cases live
    · rw [isReply, ready.reply_fresh] at live
      cases live
  · rw [ready.originalMatch, ready.replyMatch]
    exact ready.apart
  · intro other mem
    rw [ready.conns other (sound.member_live mem)]
    exact ready.newTuple other mem

end Engine.Ready

/-- **Inserting a connection that is ready keeps the invariant.** -/
theorem Sound.inserted {table : Table A} {c original reply : Ptr} {after : State A}
    (sound : Sound hashes engine members chain) (unlocked : engine.locked = false)
    (ready : engine.Ready members table c original reply)
    (isTable : after.table = table.insertConnection hashes c)
    (connLive : after.connLive = Function.update engine.connLive c true)
    (cmLive : after.cmLive =
      Function.update (Function.update engine.cmLive original true) reply true) :
    ∃ members chain, Sound hashes { engine with toState := after } members chain := by
  obtain ⟨chain', coherent⟩ := ready.inserted sound
  rw [← isTable] at coherent
  have same : (members ++ [c] ++ (engine.unflushed ++ engine.graceful)).Perm
      (c :: engine.inUse members) := by
    rw [List.append_assoc]
    exact List.perm_middle
  have sameCms : ((members ++ [c] ++ (engine.unflushed ++ engine.graceful)).flatMap
      after.table.cmsOf).Perm
        (original :: reply :: (engine.inUse members).flatMap engine.table.cmsOf) := by
    have moved : (members ++ [c] ++ (engine.unflushed ++ engine.graceful)).flatMap
        after.table.cmsOf =
          (members ++ [c] ++ (engine.unflushed ++ engine.graceful)).flatMap table.cmsOf := by
      refine List.flatMap_congr fun other _ => ?_
      obtain ⟨isOriginal, isReply, -⟩ := Table.insertConnection_fields hashes table c other
      rw [Table.cmsOf, Table.cmsOf, isTable, isOriginal, isReply]
    rw [moved]
    refine (same.flatMap_right _).trans ?_
    rw [List.flatMap_cons, ready.cmsOf,
      ready.flatMap_cmsOf _ fun other mem => (sound.connLive other).mpr mem]
    exact List.Perm.refl _
  obtain ⟨originalNew, replyNew⟩ := ready.not_owned sound
  refine ⟨members ++ [c], chain', ?_⟩
  exact
    { coherent := coherent
      nodup := same.nodup_iff.mpr (List.nodup_cons.mpr ⟨ready.not_member sound, sound.nodup⟩)
      connLive := fun other => by
        show after.connLive other = true ↔ other ∈ members ++ [c] ++ _
        rw [same.mem_iff, List.mem_cons, connLive, Function.update_apply]
        split
        · next isC => simp [isC]
        · next notC => simp [notC, sound.connLive other]
      owned := by
        refine sameCms.nodup_iff.mpr
          (List.nodup_cons.mpr ⟨?_, List.nodup_cons.mpr ⟨replyNew, sound.owned⟩⟩)
        intro mem
        rcases List.mem_cons.mp mem with isReply | owned
        · exact ready.apart isReply
        · exact originalNew owned
      cmLive := fun cm => by
        show after.cmLive cm = true ↔ cm ∈ (members ++ [c] ++ _).flatMap _
        rw [sameCms.mem_iff, List.mem_cons, List.mem_cons, cmLive, Function.update_apply,
          Function.update_apply, ← sound.cmLive]
        split
        · next isReply => simp [isReply]
        · next notReply =>
            split
            · next isOriginal => simp [isOriginal]
            · next notOriginal => simp [notReply, notOriginal]
      gone := fun other mem => by
        have live := (sound.connLive other).mpr (List.mem_append_right _ mem)
        show (after.table.conns other).removed = true
        rw [isTable, (Table.insertConnection_fields hashes table c other).2.2.2,
          ready.conns other live]
        exact sound.gone other mem
      walker := fun at_ quota walking => by
        have locked := (sound.walker at_ quota walking).1
        rw [unlocked] at locked
        cases locked }

/-- The tables stay coherent when memory that was not in use is written. -/
theorem Sound.coherent_allocated {state : State A} {c original reply : Ptr}
    (sound : Sound hashes engine members chain)
    (allocated : engine.toState.Allocated state c original reply) :
    Coherent hashes state.table members chain := by
  refine sound.coherent.congr allocated.heads ?_ ?_ ?_
  · intro other mem
    rw [allocated.conns other (sound.member_live mem)]
    exact Connection.SamePlace.rfl
  · intro cm mem
    rw [allocated.cms cm (sound.cm_live mem)]
  · intro other isNext
    rw [allocated.wcNext] at isNext
    exact sound.coherent.cursor other isNext

/-- The records that `create_rule` fills are ready for the insertion. -/
theorem Sound.ready [DecidableEq A] {copy : Copy A M} {msg : M} {state : State A}
    {c original reply : Ptr} (sound : Sound copy.hashes engine members chain)
    (allocated : engine.toState.Allocated state c original reply)
    (missing : state.table.findConnection copy.hashes (copy.msg msg).tuple = none)
    (nowJiffies : BitVec 64) (src dest : Dev) (originalCm replyCm : ConnectionMatch A) :
    engine.Ready members
      (state.table.fill copy msg nowJiffies src dest c original reply originalCm replyCm)
      c original reply where
  conns := fun other live => by
    have ne : other ≠ c := fun same => by
      rw [same, allocated.conn_fresh] at live
      cases live
    rw [Table.fill, Table.modifyConn_conns, if_neg ne]
    exact allocated.conns other live
  cms := fun other live => by
    have neOriginal : other ≠ original := fun same => by
      rw [same, allocated.original_fresh] at live
      cases live
    have neReply : other ≠ reply := fun same => by
      rw [same, allocated.reply_fresh] at live
      cases live
    show ((state.table.modifyCm original fun _ => originalCm).modifyCm reply
      fun _ => replyCm).cms other = engine.table.cms other
    rw [Table.modifyCm_cms, if_neg neReply, Table.modifyCm_cms, if_neg neOriginal]
    exact allocated.cms other live
  heads := ⟨allocated.heads.connHash, allocated.heads.connMatchHash, allocated.heads.head,
    allocated.heads.tail, allocated.heads.count⟩
  wcNext := allocated.wcNext
  conn_fresh := allocated.conn_fresh
  original_fresh := allocated.original_fresh
  reply_fresh := allocated.reply_fresh
  apart := allocated.apart
  originalMatch := by
    rw [Table.fill, Table.modifyConn_conns, if_pos rfl]
    rfl
  replyMatch := by
    rw [Table.fill, Table.modifyConn_conns, if_pos rfl]
    rfl
  kept := by
    rw [Table.fill, Table.modifyConn_conns, if_pos rfl]
    rfl
  newTuple := fun other mem => by
    have before := sound.coherent_allocated allocated
    have differs := (before.findConnection_eq_none _).mp missing other mem
    rw [allocated.conns other (sound.member_live mem)] at differs
    rw [Table.fill, Table.modifyConn_conns, if_pos rfl]
    exact differs

/-- **Installing a rule keeps the invariant.** -/
theorem Sound.installed [DecidableEq A] {copy : Copy A M} {net : Net A} {msg : M} {after : State A}
    (sound : Sound copy.hashes engine members chain) (unlocked : engine.locked = false)
    (installed : Installed copy net msg engine.toState after) :
    ∃ members chain, Sound copy.hashes { engine with toState := after } members chain := by
  obtain ⟨src, dest, nowJiffies, c, original, reply, state, up, -, -, allocated,
      missing, isAfter⟩ :=
    installed.installed
  have ready := sound.ready allocated missing nowJiffies src dest
  rw [isAfter]
  exact sound.inserted unlocked (ready _ _) rfl allocated.connLive allocated.cmLive

/-! ### Release -/

section Release

variable (engine : Engine A) (c : Ptr)

theorem Engine.release_table : (engine.release c).table = engine.table := by
  unfold Engine.release
  dsimp only [State.kfreeConn, State.kfreeCm, State.devPut]

theorem Engine.release_phase : (engine.release c).phase = engine.phase := by
  unfold Engine.release
  dsimp only

theorem Engine.release_locked : (engine.release c).locked = engine.locked := by
  unfold Engine.release
  dsimp only [State.kfreeConn, State.kfreeCm, State.devPut]

theorem Engine.release_unflushed : (engine.release c).unflushed = engine.unflushed := by
  unfold Engine.release
  dsimp only

theorem Engine.release_graceful : (engine.release c).graceful = engine.graceful.erase c := by
  unfold Engine.release
  dsimp only

theorem Engine.release_connLive : (engine.release c).connLive =
    Function.update engine.connLive c false := by
  unfold Engine.release
  dsimp only [State.kfreeConn, State.kfreeCm, State.devPut]

theorem Engine.release_cmLive : (engine.release c).cmLive =
    Function.update (Function.update engine.cmLive (engine.table.conns c).originalMatch false)
      (engine.table.conns c).replyMatch false := by
  unfold Engine.release
  dsimp only [State.kfreeConn, State.kfreeCm, State.devPut]

theorem Engine.release_inUse (members : List Ptr) :
    (engine.release c).inUse members = members ++
        (engine.unflushed ++ engine.graceful.erase c) := by
  rw [Engine.inUse, release_unflushed, release_graceful]

end Release

/-- **Releasing a connection whose grace period is over keeps the invariant**: only its own matches
go with it. -/
theorem Sound.release (sound : Sound hashes engine members chain) {c : Ptr}
    (waiting : c ∈ engine.graceful) : Sound hashes (engine.release c) members chain := by
  have same : (engine.inUse members).Perm
      (c :: (members ++ (engine.unflushed ++ engine.graceful.erase c))) := by
    have moved : engine.graceful.Perm (c :: engine.graceful.erase c) := List.perm_cons_erase waiting
    refine ((moved.append_left engine.unflushed).append_left members).trans ?_
    refine (List.perm_middle.append_left members).trans ?_
    exact List.perm_middle
  have nodup := same.nodup_iff.mp sound.nodup
  have owned := (same.flatMap_right engine.table.cmsOf).nodup_iff.mp sound.owned
  rw [List.flatMap_cons] at owned
  obtain ⟨notIn, nodupRest⟩ := List.nodup_cons.mp nodup
  obtain ⟨-, ownedRest, apart⟩ := List.nodup_append.mp owned
  exact
    { coherent := by
        rw [Engine.release_table]
        exact sound.coherent
      nodup := by
        rw [Engine.release_inUse]
        exact nodupRest
      connLive := fun other => by
        rw [Engine.release_connLive, Engine.release_inUse]
        have live := (sound.connLive other).trans same.mem_iff
        rw [List.mem_cons] at live
        rw [Function.update_apply]
        split
        · next isC =>
            rw [isC]
            simp [notIn]
        · next notC =>
            rw [live]
            simp [notC]
      owned := by
        rw [Engine.release_inUse, Engine.release_table]
        exact ownedRest
      cmLive := fun cm => by
        rw [Engine.release_cmLive, Engine.release_inUse, Engine.release_table]
        have live := (sound.cmLive cm).trans (same.flatMap_right engine.table.cmsOf).mem_iff
        rw [List.flatMap_cons, List.mem_append, Table.cmsOf, List.mem_cons, List.mem_singleton]
          at live
        have notOwn : cm ∈ engine.table.cmsOf c →
            cm ∉ (members ++ (engine.unflushed ++ engine.graceful.erase c)).flatMap
              engine.table.cmsOf := fun own rest => apart cm own cm rest rfl
        rw [Table.cmsOf, List.mem_cons, List.mem_singleton] at notOwn
        rw [Function.update_apply, Function.update_apply]
        split
        · next isReply => simpa using notOwn (Or.inr isReply)
        · next notReply =>
            split
            · next isOriginal => simpa using notOwn (Or.inl isOriginal)
            · next notOriginal =>
                rw [live]
                simp [notReply, notOriginal]
      gone := fun other mem => by
        rw [Engine.release_unflushed, Engine.release_graceful] at mem
        rw [Engine.release_table]
        refine sound.gone other ?_
        rcases List.mem_append.mp mem with inUnflushed | inGraceful
        · exact List.mem_append_left _ inUnflushed
        · exact List.mem_append_right _ (List.mem_of_mem_erase inGraceful)
      walker := fun next quota => by
        rw [Engine.release_phase, Engine.release_locked]
        exact sound.walker next quota }

/-! ### Steps and runs -/

/-- An unlocked engine is not walking. -/
theorem Sound.not_walking (sound : Sound hashes engine members chain)
    (unlocked : engine.locked = false) (at_ : Option Ptr) (quota : Nat) :
    engine.phase ≠ .walking at_ quota := by
  intro walking
  have locked := (sound.walker at_ quota walking).1
  rw [unlocked] at locked
  cases locked

/-- A new table with the same rules keeps the invariant. -/
theorem Sound.withTable (sound : Sound hashes engine members chain) {table : Table A}
    (same : engine.table.SameRules table) : Sound hashes (engine.withTable table) members chain :=
  sound.touched (State.Touched.of_sameRules same) (List.Perm.refl _) sound.walker

/-- One iteration of the periodic walk. -/
theorem Sound.walkStep (sound : Sound hashes engine members chain) (nowJiffies : BitVec 64)
    (at_ : Option Ptr) (quota : Nat) (walking : engine.phase = .walking at_ quota) :
    Sound hashes (engine.walkStep nowJiffies at_ quota) members chain := by
  obtain ⟨locked, isMember⟩ := sound.walker at_ quota walking
  unfold Engine.walkStep
  cases at_ with
  | none =>
      exact sound.moveCursor none (fun _ isNext => by cases isNext) false .idle
        (fun _ _ walking => by cases walking)
  | some c =>
      have mem : c ∈ members := isMember c rfl
      simp only
      split
      · exact sound.moveCursor (some c) isMember false .idle (fun _ _ walking => by cases walking)
      · split
        · refine sound.touched State.Touched.rfl (List.Perm.refl _) ?_
          intro other left stands
          cases stands
          exact ⟨locked, sound.coherent.linked.next_mem mem⟩
        · have synced := sound.withTable
            (Table.SameRules.genSyncConnection c .stats nowJiffies)
          refine synced.moveCursor _ ?_ false (.callback (quota - 1))
            (fun _ _ walking => by cases walking)
          exact synced.coherent.linked.next_mem mem

/-- **Every step keeps the invariant.** -/
theorem Sound.step [DecidableEq A] {copy : Copy A M} {act : Act A M}
    (sound : Sound copy.hashes engine members chain) (step : engine.step copy act = some next) :
    ∃ members chain, Sound copy.hashes next members chain := by
  cases act with
  | create net alloc msg nowJiffies =>
      simp only [Engine.step, Option.ite_none_right_eq_some, Option.some.injEq] at step
      obtain ⟨⟨unlocked, fresh, -⟩, rfl⟩ := step
      rcases createRule_cases copy net msg nowJiffies alloc fresh with touched | installed
      · refine ⟨members, chain, sound.touched touched (List.Perm.refl _) ?_⟩
        exact fun at_ quota walking => absurd walking (sound.not_walking unlocked at_ quota)
      · exact sound.installed unlocked installed
  | update msg =>
      simp only [Engine.step, Option.ite_none_right_eq_some, Option.some.injEq] at step
      obtain ⟨-, rfl⟩ := step
      exact ⟨members, chain, sound.withTable (Table.SameRules.updateRule _ _)⟩
  | destroy tuple =>
      simp only [Engine.step, Option.ite_none_right_eq_some] at step
      obtain ⟨unlocked, step⟩ := step
      cases found : engine.table.findConnection copy.hashes tuple with
      | none =>
          rw [found] at step
          cases step
          exact ⟨members, chain, sound⟩
      | some c =>
          rw [found] at step
          cases step
          have mem := ((sound.coherent.findConnection tuple c).mp found).1
          exact sound.removeLocked unlocked (sound.member_live mem)
  | destroyDev dev =>
      simp only [Engine.step, Option.ite_none_right_eq_some] at step
      obtain ⟨unlocked, step⟩ := step
      cases found : engine.table.findForDev dev with
      | none =>
          rw [found] at step
          cases step
          exact ⟨members, chain, sound⟩
      | some c =>
          rw [found] at step
          cases step
          exact sound.removeLocked unlocked
            (sound.member_live (sound.coherent.findForDev dev found))
  | remove c =>
      simp only [Engine.step, Option.ite_none_right_eq_some, Option.some.injEq] at step
      obtain ⟨⟨unlocked, live⟩, rfl⟩ := step
      exact sound.removeLocked unlocked live
  | flush c reason nowJiffies =>
      simp only [Engine.step, Option.ite_none_right_eq_some, Option.some.injEq] at step
      obtain ⟨pending, rfl⟩ := step
      have touched : engine.toState.Touched
          { engine.toState with table := (engine.table.genSyncConnection c reason nowJiffies).2 } :=
        State.Touched.of_sameRules (Table.SameRules.genSyncConnection c reason nowJiffies)
      refine ⟨members, chain, sound.touched touched ?_ sound.walker⟩
      refine List.Perm.trans List.perm_middle ?_
      exact ((List.perm_cons_erase pending).symm).append_right _
  | free c =>
      simp only [Engine.step, Option.ite_none_right_eq_some, Option.some.injEq] at step
      obtain ⟨waiting, rfl⟩ := step
      exact ⟨members, chain, sound.release waiting⟩
  | forward cm len =>
      simp only [Engine.step, Option.ite_none_right_eq_some, Option.some.injEq] at step
      obtain ⟨-, rfl⟩ := step
      exact ⟨members, chain, sound.withTable
        (Table.SameRules.modifyCm _ _ fun x => ConnectionMatch.SameRoute.countForwarded x len)⟩
  | track cm tcp counterTcp =>
      simp only [Engine.step, Option.ite_none_right_eq_some, Option.some.injEq] at step
      obtain ⟨-, rfl⟩ := step
      refine ⟨members, chain, sound.withTable ?_⟩
      exact (Table.SameRules.modifyCm _ _ fun x =>
        ConnectionMatch.SameRoute.withTcp x counterTcp).trans
        (Table.SameRules.modifyCm _ _ fun x => ConnectionMatch.SameRoute.withTcp x tcp)
  | syncStatus c nowJiffies =>
      simp only [Engine.step, Option.ite_none_right_eq_some, Option.some.injEq] at step
      obtain ⟨-, rfl⟩ := step
      exact ⟨members, chain, sound.withTable (Table.SameRules.genSyncConnection c _ _)⟩
  | debugRead seq =>
      simp only [Engine.step, Option.ite_none_right_eq_some, Option.some.injEq] at step
      obtain ⟨-, rfl⟩ := step
      exact ⟨members, chain, sound.withTable (Table.SameRules.debugRead _ _)⟩
  | syncStart =>
      simp only [Engine.step] at step
      cases phase : engine.phase with
      | idle =>
          simp only [phase, Option.ite_none_right_eq_some, Option.some.injEq] at step
          obtain ⟨-, rfl⟩ := step
          refine ⟨members, chain,
            sound.touched (State.Touched.of_table rfl rfl rfl) (List.Perm.refl _) ?_⟩
          intro at_ quota walking
          cases walking
          refine ⟨rfl, fun c isNext => ?_⟩
          cases cursor : engine.table.wcNext with
          | none =>
              rw [cursor, Option.none_or, sound.coherent.head] at isNext
              exact List.mem_of_head? isNext
          | some first =>
              rw [cursor, Option.some_or] at isNext
              cases isNext
              exact sound.coherent.cursor c cursor
      | walking at_ quota =>
          rw [phase] at step
          cases step
      | callback quota =>
          rw [phase] at step
          cases step
  | syncWalk nowJiffies =>
      simp only [Engine.step] at step
      cases phase : engine.phase with
      | walking at_ quota =>
          rw [phase] at step
          cases step
          exact ⟨members, chain, sound.walkStep nowJiffies at_ quota phase⟩
      | idle =>
          rw [phase] at step
          cases step
      | callback quota =>
          rw [phase] at step
          cases step
  | syncResume =>
      simp only [Engine.step] at step
      cases phase : engine.phase with
      | callback quota =>
          simp only [phase, Option.ite_none_right_eq_some, Option.some.injEq] at step
          obtain ⟨-, rfl⟩ := step
          refine ⟨members, chain,
            sound.touched (State.Touched.of_table rfl rfl rfl) (List.Perm.refl _) ?_⟩
          intro at_ left walking
          cases walking
          exact ⟨rfl, sound.coherent.cursor⟩
      | idle =>
          rw [phase] at step
          cases step
      | walking at_ quota =>
          rw [phase] at step
          cases step

/-- The invariant holds in every engine that can be reached. -/
theorem sound_of_reachable [DecidableEq A] {copy : Copy A M}
    (reachable : Engine.Reachable copy engine) :
    ∃ members chain, Sound copy.hashes engine members chain := by
  induction reachable with
  | initial initial => exact ⟨[], fun _ => [], Sound.initial initial⟩
  | step _ step ih =>
      obtain ⟨members, chain, sound⟩ := ih
      exact sound.step step

/-- A rule is made, a packet of it is counted, and the periodic sync enters its callback. -/
def Ipv4.syncedOnce : List (Act Ipv4Addr Ipv4CreateMsg) :=
  [.create (twoDevices _) (freshAt 1 2 3 default default) (Ipv4.ruleFor telnet telnet) 0,
    .forward 2 60, .syncStart, .syncWalk 1]

theorem Ipv4.syncedOnce_reachable :
    Engine.Reachable Ipv4.copy (Engine.after Ipv4.copy Ipv4.syncedOnce) :=
  Engine.after_reachable (by decide +kernel)

end Qsdk.Sfe
