/-
**The two directions of a translated rule undo each other.**

Between devices that are not VxLAN tunnels the keys and the translations of a rule's two matches are
written from the same eight fields (`Carries`), and they stay so in every run. So a packet that goes
out by one match comes back, with its source and destination swapped, to the other one, which
translates it to the swapped packet that had come in; and an ICMP error about it is traced to the
rule (`Ipv4.nat_inverts`).

It holds of packets that carry the source port of the key. The UDP handler falls back on a lookup
with source port zero, so a rule for source port zero takes packets of other source ports, and their
answers are not its own.
-/

import Qsdk.Sfe.Edit
import Qsdk.Sfe.Lookup
import Qsdk.Sfe.Mirror
import Qsdk.Sfe.Persist

namespace Qsdk.Sfe

/-! ### What the matches of a rule carry -/

/-- The translation that a match holds, whether it applies it or not. -/
def ConnectionMatch.xlate {A : Type} (cm : ConnectionMatch A) : XlateRule A :=
  ⟨cm.xlateSrcIp, cm.xlateSrcPort, cm.xlateDestIp, cm.xlateDestPort⟩

/-- The matches of a connection carry the tuple and the translation of a rule between two
devices. -/
structure Carries (isVxlan : Dev → Bool) (table : Table Ipv4Addr) (c : Ptr) (src dest : Dev)
    (tuple : Tuple Ipv4Addr) (xlate : XlateRule Ipv4Addr) : Prop where
  originalKey : (table.cms (table.conns c).originalMatch).key =
    ⟨src, tuple.protocol, tuple.flowIp, if isVxlan src then 0 else tuple.flowIdent, tuple.returnIp,
      tuple.returnIdent⟩
  replyKey : (table.cms (table.conns c).replyMatch).key =
    ⟨dest, tuple.protocol, xlate.returnIpXlate,
      if isVxlan src || isVxlan dest then 0 else xlate.returnIdentXlate, xlate.flowIpXlate,
      xlate.flowIdentXlate⟩
  originalConnection : (table.cms (table.conns c).originalMatch).connection = c
  replyConnection : (table.cms (table.conns c).replyMatch).connection = c
  originalCounter : (table.cms (table.conns c).originalMatch).counterMatch =
    (table.conns c).replyMatch
  replyCounter : (table.cms (table.conns c).replyMatch).counterMatch = (table.conns c).originalMatch
  originalXmitDev : (table.cms (table.conns c).originalMatch).xmitDev = dest
  replyXmitDev : (table.cms (table.conns c).replyMatch).xmitDev = src
  originalXlate : (table.cms (table.conns c).originalMatch).xlate = xlate
  replyXlate : (table.cms (table.conns c).replyMatch).xlate =
    ⟨tuple.returnIp, tuple.returnIdent, tuple.flowIp, tuple.flowIdent⟩
  originalXlateSrc : (table.cms (table.conns c).originalMatch).flags.xlateSrc =
    Ipv4.translates tuple.flowIp xlate.flowIpXlate tuple.flowIdent xlate.flowIdentXlate
  originalXlateDest : (table.cms (table.conns c).originalMatch).flags.xlateDest =
    Ipv4.translates tuple.returnIp xlate.returnIpXlate tuple.returnIdent xlate.returnIdentXlate
  replyXlateSrc : (table.cms (table.conns c).replyMatch).flags.xlateSrc =
    Ipv4.translates tuple.returnIp xlate.returnIpXlate tuple.returnIdent xlate.returnIdentXlate
  replyXlateDest : (table.cms (table.conns c).replyMatch).flags.xlateDest =
    Ipv4.translates tuple.flowIp xlate.flowIpXlate tuple.flowIdent xlate.flowIdentXlate

theorem ConnectionMatch.SameRoute.xlate_eq {A : Type} {before after : ConnectionMatch A}
    (same : before.SameRoute after) : after.xlate = before.xlate := by
  unfold ConnectionMatch.xlate
  rw [same.xlateSrcIp, same.xlateSrcPort, same.xlateDestIp, same.xlateDestPort]

section Invariant

variable {isVxlan : Dev → Bool} {table changed : Table Ipv4Addr} {c : Ptr} {src dest : Dev}
  {tuple : Tuple Ipv4Addr} {xlate : XlateRule Ipv4Addr}

/-- Matches that keep their routes carry what they carried. -/
theorem Carries.congr (carries : Carries isVxlan table c src dest tuple xlate)
    (originalMatch : (changed.conns c).originalMatch = (table.conns c).originalMatch)
    (replyMatch : (changed.conns c).replyMatch = (table.conns c).replyMatch)
    (original : (table.cms (table.conns c).originalMatch).SameRoute
      (changed.cms (table.conns c).originalMatch))
    (reply : (table.cms (table.conns c).replyMatch).SameRoute
      (changed.cms (table.conns c).replyMatch)) :
    Carries isVxlan changed c src dest tuple xlate where
  originalKey := by rw [originalMatch, original.key, carries.originalKey]
  replyKey := by rw [replyMatch, reply.key, carries.replyKey]
  originalConnection := by rw [originalMatch, original.connection, carries.originalConnection]
  replyConnection := by rw [replyMatch, reply.connection, carries.replyConnection]
  originalCounter := by
    rw [originalMatch, replyMatch, original.counterMatch, carries.originalCounter]
  replyCounter := by rw [originalMatch, replyMatch, reply.counterMatch, carries.replyCounter]
  originalXmitDev := by rw [originalMatch, original.xmitDev, carries.originalXmitDev]
  replyXmitDev := by rw [replyMatch, reply.xmitDev, carries.replyXmitDev]
  originalXlate := by rw [originalMatch, original.xlate_eq, carries.originalXlate]
  replyXlate := by rw [replyMatch, reply.xlate_eq, carries.replyXlate]
  originalXlateSrc := by rw [originalMatch, original.xlateSrc, carries.originalXlateSrc]
  originalXlateDest := by rw [originalMatch, original.xlateDest, carries.originalXlateDest]
  replyXlateSrc := by rw [replyMatch, reply.xlateSrc, carries.replyXlateSrc]
  replyXlateDest := by rw [replyMatch, reply.xlateDest, carries.replyXlateDest]

/-- Filled matches carry the rule of their message. -/
theorem Table.Holds.carries {net : Net Ipv4Addr} {msg : Ipv4CreateMsg} {original reply : Ptr}
    {originalCm replyCm : ConnectionMatch Ipv4Addr} {up : Option Nat}
    (holds : table.Holds c original reply
      (Ipv4.fill net msg src dest c original reply originalCm replyCm).1
      ((Ipv4.fill net msg src dest c original reply originalCm replyCm).2.withUp up)) :
    Carries net.isVxlan table c src dest msg.tuple msg.xlate := by
  obtain ⟨originalFrame, replyFrame⟩ :=
    Ipv4.fill_frames src dest c original reply net msg originalCm replyCm
  obtain ⟨originalRoute, replyRoute⟩ :=
    Ipv4.fill_routes src dest c original reply net msg originalCm replyCm
  rw [fillOriginal_frame] at originalFrame
  rw [fillReply_frame] at replyFrame
  have upFrame := ConnectionMatch.withUp_frame
    (Ipv4.fill net msg src dest c original reply originalCm replyCm).2 up
  have upFlags := ConnectionMatch.withUp_flags
    (Ipv4.fill net msg src dest c original reply originalCm replyCm).2 up
  rw [replyFrame] at upFrame
  rw [← upFlags] at replyRoute
  constructor
  · rw [holds.originalMatch, holds.original]
    exact congrArg Frame.key originalFrame
  · rw [holds.replyMatch, holds.reply]
    exact congrArg Frame.key upFrame
  · rw [holds.originalMatch, holds.original]
    exact congrArg Frame.connection originalFrame
  · rw [holds.replyMatch, holds.reply]
    exact congrArg Frame.connection upFrame
  · rw [holds.originalMatch, holds.replyMatch, holds.original]
    exact congrArg Frame.counterMatch originalFrame
  · rw [holds.originalMatch, holds.replyMatch, holds.reply]
    exact congrArg Frame.counterMatch upFrame
  · rw [holds.originalMatch, holds.original]
    exact congrArg Frame.xmitDev originalFrame
  · rw [holds.replyMatch, holds.reply]
    exact congrArg Frame.xmitDev upFrame
  · rw [holds.originalMatch, holds.original]
    exact congrArg Frame.xlate originalFrame
  · rw [holds.replyMatch, holds.reply]
    exact congrArg Frame.xlate upFrame
  · rw [holds.originalMatch, holds.original]
    exact congrArg RouteFlags.xlateSrc originalRoute
  · rw [holds.originalMatch, holds.original]
    exact congrArg RouteFlags.xlateDest originalRoute
  · rw [holds.replyMatch, holds.reply]
    exact congrArg RouteFlags.xlateSrc replyRoute
  · rw [holds.replyMatch, holds.reply]
    exact congrArg RouteFlags.xlateDest replyRoute

end Invariant

/-! ### Runs -/

/-- An act keeps what holds of the matches of all connections in use, if it depends on their routes
alone and holds of matches that were just filled. -/
theorem Engine.step_matches {P : Table Ipv4Addr → Ptr → Prop} {engine next : Engine Ipv4Addr}
    {act : Act Ipv4Addr Ipv4CreateMsg} (reachable : Engine.Reachable Ipv4.copy engine)
    (step : engine.step Ipv4.copy act = some next)
    (congr : ∀ (table changed : Table Ipv4Addr) (c : Ptr),
      (changed.conns c).originalMatch = (table.conns c).originalMatch →
      (changed.conns c).replyMatch = (table.conns c).replyMatch →
      (table.cms (table.conns c).originalMatch).SameRoute
        (changed.cms (table.conns c).originalMatch) →
      (table.cms (table.conns c).replyMatch).SameRoute (changed.cms (table.conns c).replyMatch) →
      P table c → P changed c)
    (born : ∀ net alloc msg nowJiffies, act = .create net alloc msg nowJiffies →
      ∀ (table : Table Ipv4Addr) (c original reply : Ptr) (src dest : Dev)
        (originalCm replyCm : ConnectionMatch Ipv4Addr) (up : Option Nat),
      table.Holds c original reply
        (Ipv4.fill net msg src dest c original reply originalCm replyCm).1
        ((Ipv4.fill net msg src dest c original reply originalCm replyCm).2.withUp up) →
      P table c)
    (before : ∀ c, engine.connLive c = true → P engine.table c) {c : Ptr}
    (live : next.connLive c = true) : P next.table c := by
  obtain ⟨members, chain, sound⟩ := sound_of_reachable reachable
  have keeps := Engine.step_keeps step
  have kept : engine.connLive c = true → P next.table c := by
    intro old
    obtain ⟨-, originalLive, replyLive⟩ := sound.matches_of_live old
    exact congr _ _ c (keeps.originalMatch c old) (keeps.replyMatch c old)
      (keeps.cms _ originalLive) (keeps.cms _ replyLive) (before c old)
  rcases Engine.step_born step live with old | ⟨net, alloc, msg, nowJiffies, isCreate, installed⟩
  · exact kept old
  · obtain ⟨src, dest, nowJiffies, other, original, reply, state, up, -, -, allocated, -, isNext⟩ :=
      installed.installed
    by_cases same : c = other
    · subst same
      have holds := State.install_holds Ipv4.copy msg nowJiffies state src dest c original reply
        (Ipv4.fill net msg src dest c original reply (state.table.cms original)
          (state.table.cms reply)).1
        ((Ipv4.fill net msg src dest c original reply (state.table.cms original)
          (state.table.cms reply)).2.withUp up) allocated.apart
      rw [isNext]
      exact born net alloc msg _ isCreate _ c original reply src dest _ _ up holds
    · refine kept ?_
      rw [isNext] at live
      have inState : state.connLive c = true := live
      rw [allocated.connLive, Function.update_of_ne same] at inState
      exact inState

/-- The engines that can be reached while every device is a VxLAN tunnel or none, once and for
all. -/
inductive Engine.ReachableOn (isVxlan : Dev → Bool) : Engine Ipv4Addr → Prop
  | initial {engine : Engine Ipv4Addr} (initial : engine.Initial) : ReachableOn isVxlan engine
  | step {engine next : Engine Ipv4Addr} {act : Act Ipv4Addr Ipv4CreateMsg}
      (reachable : ReachableOn isVxlan engine)
      (devices : ∀ net alloc msg nowJiffies, act = .create net alloc msg nowJiffies →
        net.isVxlan = isVxlan)
      (step : engine.step Ipv4.copy act = some next) : ReachableOn isVxlan next

theorem Engine.ReachableOn.reachable {isVxlan : Dev → Bool} {engine : Engine Ipv4Addr}
    (reachable : Engine.ReachableOn isVxlan engine) : Engine.Reachable Ipv4.copy engine := by
  induction reachable with
  | initial initial => exact .initial initial
  | step _ _ step reachable => exact reachable.step step

/-- **In every engine that can be reached, the matches of a connection in use carry a rule.** -/
theorem Engine.ReachableOn.carries {isVxlan : Dev → Bool} {engine : Engine Ipv4Addr}
    (reachable : Engine.ReachableOn isVxlan engine) {c : Ptr} (live : engine.connLive c = true) :
    ∃ src dest tuple xlate, Carries isVxlan engine.table c src dest tuple xlate := by
  induction reachable generalizing c with
  | initial initial =>
      obtain ⟨-, -, -, -, -, -, -, connLive, -⟩ := initial
      rw [connLive] at live
      cases live
  | step reachable devices step ih =>
      refine Engine.step_matches
        (P := fun table c => ∃ src dest tuple xlate, Carries isVxlan table c src dest tuple xlate)
        reachable.reachable step ?_ ?_ (fun c old => ih old) live
      · rintro table changed c originalMatch replyMatch original reply
          ⟨src, dest, tuple, xlate, carries⟩
        exact ⟨src, dest, tuple, xlate, carries.congr originalMatch replyMatch original reply⟩
      · intro net alloc msg nowJiffies isCreate table c original reply src dest
          originalCm replyCm up
          holds
        rw [← devices net alloc msg nowJiffies isCreate]
        exact ⟨src, dest, msg.tuple, msg.xlate, holds.carries⟩

/-! ### The two matches undo each other -/

/-- The endpoints of a key. -/
def MatchKey.ends (key : MatchKey Ipv4Addr) : Endpoints :=
  ⟨key.srcIp, key.srcPort, key.destIp, key.destPort⟩

/-- A match takes the answers to what another one sends out, and undoes what that one did. -/
structure ConnectionMatch.Inverts (cm back : ConnectionMatch Ipv4Addr) : Prop where
  key : back.key = Ipv4.lookupKey cm.xmitDev cm.matchProtocol (cm.translate cm.key.ends).swap
  ends : back.translate (cm.translate cm.key.ends).swap = cm.key.ends.swap

theorem Ipv4.translates_comm (ip xlateIp : Ipv4Addr) (ident xlateIdent : BitVec 16) :
    Ipv4.translates xlateIp ip xlateIdent ident = Ipv4.translates ip xlateIp ident xlateIdent := by
  rw [Ipv4.translates, Ipv4.translates, bne_comm, @bne_comm _ _ _ xlateIdent]

/-- A side whose flag is not set is the same before and after. -/
theorem Ipv4.translates_select (ip xlateIp : Ipv4Addr) (ident xlateIdent : BitVec 16) :
    (if Ipv4.translates ip xlateIp ident xlateIdent then xlateIp else ip) = xlateIp ∧
      (if Ipv4.translates ip xlateIp ident xlateIdent then xlateIdent else ident) = xlateIdent := by
  cases translated : Ipv4.translates ip xlateIp ident xlateIdent with
  | true => exact ⟨rfl, rfl⟩
  | false =>
      rw [Ipv4.translates, Bool.or_eq_false_iff, bne_eq_false_iff_eq, bne_eq_false_iff_eq]
        at translated
      exact ⟨translated.1, translated.2⟩

/-- A match whose flags say what differs translates its key to the translation it holds. -/
theorem ConnectionMatch.translate_key {cm : ConnectionMatch Ipv4Addr} {ends target : Endpoints}
    (key : cm.key.ends = ends)
    (xlate : cm.xlate = ⟨target.saddr, target.source, target.daddr, target.dest⟩)
    (xlateSrc : cm.flags.xlateSrc =
      Ipv4.translates ends.saddr target.saddr ends.source target.source)
    (xlateDest : cm.flags.xlateDest =
      Ipv4.translates ends.daddr target.daddr ends.dest target.dest) :
    cm.translate cm.key.ends = target := by
  have source := Ipv4.translates_select ends.saddr target.saddr ends.source target.source
  have dest := Ipv4.translates_select ends.daddr target.daddr ends.dest target.dest
  rw [← xlateSrc] at source
  rw [← xlateDest] at dest
  have srcIp : cm.xlateSrcIp = target.saddr := congrArg XlateRule.flowIpXlate xlate
  have srcPort : cm.xlateSrcPort = target.source := congrArg XlateRule.flowIdentXlate xlate
  have destIp : cm.xlateDestIp = target.daddr := congrArg XlateRule.returnIpXlate xlate
  have destPort : cm.xlateDestPort = target.dest := congrArg XlateRule.returnIdentXlate xlate
  rw [ConnectionMatch.translate, key, srcIp, srcPort, destIp, destPort, source.1, source.2, dest.1,
    dest.2]

section Inverse

variable {isVxlan : Dev → Bool} {table : Table Ipv4Addr} {c : Ptr} {src dest : Dev}
  {tuple : Tuple Ipv4Addr} {xlate : XlateRule Ipv4Addr}

/-- The original match translates the tuple to the translation of the rule. -/
theorem Carries.original_ends (carries : Carries isVxlan table c src dest tuple xlate)
    (plain : isVxlan src = false) :
    let cm := table.cms (table.conns c).originalMatch
    cm.key.ends = ⟨tuple.flowIp, tuple.flowIdent, tuple.returnIp, tuple.returnIdent⟩ ∧
      cm.translate cm.key.ends =
        ⟨xlate.flowIpXlate, xlate.flowIdentXlate, xlate.returnIpXlate, xlate.returnIdentXlate⟩ := by
  intro cm
  have key : cm.key.ends = ⟨tuple.flowIp, tuple.flowIdent, tuple.returnIp, tuple.returnIdent⟩ := by
    rw [carries.originalKey, plain]
    rfl
  exact ⟨key, ConnectionMatch.translate_key key carries.originalXlate carries.originalXlateSrc
    carries.originalXlateDest⟩

/-- The reply match translates the translation of the rule to its tuple, the other way round. -/
theorem Carries.reply_ends (carries : Carries isVxlan table c src dest tuple xlate)
    (plain : isVxlan src = false) (plainDest : isVxlan dest = false) :
    let cm := table.cms (table.conns c).replyMatch
    cm.key.ends =
        ⟨xlate.returnIpXlate, xlate.returnIdentXlate, xlate.flowIpXlate, xlate.flowIdentXlate⟩ ∧
      cm.translate cm.key.ends =
        ⟨tuple.returnIp, tuple.returnIdent, tuple.flowIp, tuple.flowIdent⟩ := by
  intro cm
  have key : cm.key.ends =
      ⟨xlate.returnIpXlate, xlate.returnIdentXlate, xlate.flowIpXlate, xlate.flowIdentXlate⟩ := by
    rw [carries.replyKey, plain, plainDest]
    rfl
  refine ⟨key, ConnectionMatch.translate_key key carries.replyXlate ?_ ?_⟩
  · rw [carries.replyXlateSrc, Ipv4.translates_comm]
  · rw [carries.replyXlateDest, Ipv4.translates_comm]

/-- Between plain devices, each of the two matches undoes the other one. -/
theorem Carries.inverts (carries : Carries isVxlan table c src dest tuple xlate)
    (plain : isVxlan src = false) (plainDest : isVxlan dest = false) :
    (table.cms (table.conns c).originalMatch).Inverts (table.cms (table.conns c).replyMatch) ∧
      (table.cms (table.conns c).replyMatch).Inverts (table.cms (table.conns c).originalMatch) := by
  obtain ⟨originalKey, originalTo⟩ := carries.original_ends plain
  obtain ⟨replyKey, replyTo⟩ := carries.reply_ends plain plainDest
  have originalProtocol : (table.cms (table.conns c).originalMatch).matchProtocol =
      tuple.protocol :=
    congrArg MatchKey.protocol carries.originalKey
  have replyProtocol : (table.cms (table.conns c).replyMatch).matchProtocol = tuple.protocol :=
    congrArg MatchKey.protocol carries.replyKey
  constructor
  · constructor
    · rw [originalTo, carries.originalXmitDev, originalProtocol, carries.replyKey, plain, plainDest]
      rfl
    · rw [replyKey] at replyTo
      rw [originalTo, originalKey]
      exact replyTo
  · constructor
    · rw [replyTo, carries.replyXmitDev, replyProtocol, carries.originalKey, plain]
      rfl
    · rw [originalKey] at originalTo
      rw [replyTo, replyKey]
      exact originalTo

end Inverse

/-! ### Looking a packet up -/

section Lookup

variable {engine : Engine Ipv4Addr} {dev : Dev} {protocol : BitVec 8} {ends : Endpoints} {at_ : Ptr}

/-- A packet is looked up to a live match with its key, or with its key but for a source port of
zero. -/
theorem Ipv4.lookup_sound (reachable : Engine.Reachable Ipv4.copy engine)
    (found : Ipv4.lookup engine.table dev protocol ends = some at_) :
    engine.LiveCm at_ ∧ ∃ port, (port = ends.source ∨ protocol = ipprotoUdp ∧ port = 0) ∧
      (engine.table.cms at_).key = Ipv4.lookupKey dev protocol { ends with source := port } := by
  unfold Ipv4.lookup at found
  split_ifs at found with isUdp isTcp
  · subst isUdp
    rw [Ipv4.udpLookup, Option.or_eq_some_iff] at found
    rcases found with exact | ⟨-, fallback⟩
    · obtain ⟨live, key⟩ := (Ipv4.findConnectionMatch_exact reachable _).sound at_ exact
      exact ⟨live, ends.source, .inl rfl, key⟩
    · obtain ⟨live, key⟩ := (Ipv4.findConnectionMatch_exact reachable _).sound at_ fallback
      exact ⟨live, 0, .inr ⟨rfl, rfl⟩, key⟩
  · subst isTcp
    obtain ⟨live, key⟩ := (Ipv4.findConnectionMatch_exact reachable _).sound at_ found
    exact ⟨live, ends.source, .inl rfl, key⟩

/-- The one live match with a key is what the key is looked up to. -/
theorem Ipv4.findConnectionMatch_alone (reachable : Engine.Reachable Ipv4.copy engine)
    (live : engine.LiveCm at_)
    (alone : ∀ other, engine.LiveCm other →
      (engine.table.cms other).key = (engine.table.cms at_).key → other = at_) :
    Ipv4.findConnectionMatch engine.table (engine.table.cms at_).key = some at_ := by
  have exact := Ipv4.findConnectionMatch_exact reachable (engine.table.cms at_).key
  obtain ⟨found, isFound⟩ := Option.isSome_iff_exists.mp (exact.complete.mpr ⟨at_, live, rfl⟩)
  obtain ⟨foundLive, same⟩ := exact.sound found isFound
  rw [isFound, alone found foundLive same]

/-- The one live match with a packet's key is what the packet is looked up to. -/
theorem Ipv4.lookup_alone (reachable : Engine.Reachable Ipv4.copy engine)
    (handled : protocol = ipprotoUdp ∨ protocol = ipprotoTcp) (live : engine.LiveCm at_)
    (alone : ∀ other, engine.LiveCm other →
      (engine.table.cms other).key = (engine.table.cms at_).key → other = at_)
    (key : (engine.table.cms at_).key = Ipv4.lookupKey dev protocol ends) :
    Ipv4.lookup engine.table dev protocol ends = some at_ := by
  have found := Ipv4.findConnectionMatch_alone reachable live alone
  rw [key] at found
  unfold Ipv4.lookup
  rcases handled with isUdp | isTcp
  · subst isUdp
    rw [if_pos rfl, Ipv4.udpLookup, found, Option.some_or]
  · subst isTcp
    rw [if_neg (by decide), if_pos rfl, Ipv4.tcpLookup, found]

end Lookup

/-! ### Answers and errors -/

/-- The match in the other direction, of a connection between plain devices. -/
theorem Engine.ReachableOn.counterMatch {isVxlan : Dev → Bool} {engine : Engine Ipv4Addr}
    (reachable : Engine.ReachableOn isVxlan engine) {c at_ : Ptr} (live : engine.connLive c = true)
    (plain : ∀ cm ∈ engine.table.cmsOf c, isVxlan (engine.table.cms cm).matchDev = false)
    (own : at_ ∈ engine.table.cmsOf c) :
    let counter := (engine.table.cms at_).counterMatch
    counter ∈ engine.table.cmsOf c ∧ counter ≠ at_ ∧
      (engine.table.cms counter).connection = c ∧
      (engine.table.cms at_).Inverts (engine.table.cms counter) := by
  intro counter
  obtain ⟨members, chain, sound⟩ := sound_of_reachable reachable.reachable
  obtain ⟨different, -, -⟩ := sound.matches_of_live live
  obtain ⟨src, dest, tuple, xlate, carries⟩ := reachable.carries live
  have originalOwn : (engine.table.conns c).originalMatch ∈ engine.table.cmsOf c :=
    List.mem_cons_self ..
  have replyOwn : (engine.table.conns c).replyMatch ∈ engine.table.cmsOf c :=
    List.mem_cons_of_mem _ (List.mem_singleton.mpr rfl)
  have isSrc : (engine.table.cms (engine.table.conns c).originalMatch).matchDev = src :=
    congrArg MatchKey.dev carries.originalKey
  have isDest : (engine.table.cms (engine.table.conns c).replyMatch).matchDev = dest :=
    congrArg MatchKey.dev carries.replyKey
  have plainSrc : isVxlan src = false := by
    rw [← isSrc]
    exact plain _ originalOwn
  have plainDest : isVxlan dest = false := by
    rw [← isDest]
    exact plain _ replyOwn
  obtain ⟨forth, back⟩ := carries.inverts plainSrc plainDest
  rw [Table.cmsOf, List.mem_cons, List.mem_singleton] at own
  rcases own with rfl | rfl
  · have isCounter : counter = (engine.table.conns c).replyMatch := carries.originalCounter
    rw [isCounter]
    exact ⟨replyOwn, different.symm, carries.replyConnection, forth⟩
  · have isCounter : counter = (engine.table.conns c).originalMatch := carries.replyCounter
    rw [isCounter]
    exact ⟨originalOwn, different, carries.originalConnection, back⟩

/-- A packet that goes out has the key of its match, but for the source port of a UDP packet. -/
theorem Ipv4.Forwards.key {engine : Engine Ipv4Addr} {reception : Reception}
    {packet sent : Ipv4Packet} {at_ : Ptr}
    (forwards : Ipv4.Forwards engine.table reception packet at_ sent)
    (reachable : Engine.Reachable Ipv4.copy engine) :
    (engine.table.cms at_).matchProtocol = packet.protocol ∧
      (engine.table.cms at_).key.ends =
        { packet.toEndpoints with source := (engine.table.cms at_).matchSrcPort } ∧
      ((engine.table.cms at_).matchSrcPort = packet.source ∨ packet.protocol = ipprotoUdp) := by
  obtain ⟨-, port, choice, key⟩ := Ipv4.lookup_sound reachable forwards.found
  have isPort : (engine.table.cms at_).matchSrcPort = port := congrArg MatchKey.srcPort key
  refine ⟨congrArg MatchKey.protocol key, ?_, ?_⟩
  · rw [isPort, key]
    rfl
  · rw [isPort]
    exact choice.imp_right And.left

/-- A packet that has the source port of the key, or whose source is translated, goes out with the
endpoints that the key is translated to. -/
theorem Ipv4.Forwards.ends {engine : Engine Ipv4Addr} {reception : Reception}
    {packet sent : Ipv4Packet} {at_ : Ptr}
    (forwards : Ipv4.Forwards engine.table reception packet at_ sent)
    (reachable : Engine.Reachable Ipv4.copy engine)
    (ported : packet.source = (engine.table.cms at_).matchSrcPort ∨
      (engine.table.cms at_).flags.xlateSrc = true) :
    sent.toEndpoints = (engine.table.cms at_).translate (engine.table.cms at_).key.ends := by
  obtain ⟨-, ends, -⟩ := forwards.key reachable
  rw [forwards.sent, Ipv4.forward_ends, ends]
  rcases ported with samePort | translated
  · rw [← samePort]
  · rw [ConnectionMatch.translate, ConnectionMatch.translate, translated]
    rfl

/-- **Between devices that are not VxLAN tunnels, a translation is undone.** What a match sends out
is answered to the other match of its connection, which translates the answer back, and an error
about it is traced to the connection. The packet has the source port of the key, or its source is
translated; then the answer goes to the port of the key. -/
theorem Ipv4.nat_inverts {isVxlan : Dev → Bool} {engine : Engine Ipv4Addr}
    (reachable : Engine.ReachableOn isVxlan engine) {c at_ : Ptr} (live : engine.connLive c = true)
    (kept : (engine.table.conns c).removed = false)
    (plain : ∀ cm ∈ engine.table.cmsOf c, isVxlan (engine.table.cms cm).matchDev = false)
    (alone : ∀ cm ∈ engine.table.cmsOf c, ∀ other, engine.LiveCm other →
      (engine.table.cms other).key = (engine.table.cms cm).key → other = cm)
    (own : at_ ∈ engine.table.cmsOf c) {reception : Reception} {packet sent : Ipv4Packet}
    (received : Ipv4.recv engine.table reception packet = some (at_, sent))
    (ported : packet.source = (engine.table.cms at_).matchSrcPort ∨
      (engine.table.cms at_).flags.xlateSrc = true) :
    let cm := engine.table.cms at_
    let counter := cm.counterMatch
    (counter ∈ engine.table.cmsOf c ∧ counter ≠ at_) ∧
      (∀ answer : Ipv4Packet, answer.protocol = packet.protocol →
        answer.toEndpoints = sent.toEndpoints.swap →
        Ipv4.lookup engine.table cm.xmitDev answer.protocol answer.toEndpoints = some counter ∧
          ∀ tunOuter, (Ipv4.forward (engine.table.cms counter) tunOuter answer).toEndpoints =
            Endpoints.swap { packet.toEndpoints with source := cm.matchSrcPort }) ∧
      ∀ type, type = Ipv4.icmpDestUnreach ∨ type = Ipv4.icmpTimeExceeded →
        Ipv4.recvIcmp engine.table cm.xmitDev (Ipv4.icmpError type sent) =
          some (c, true, (engine.table.removeConnection Ipv4.hashes c).2) := by
  intro cm counter
  have forwards := Ipv4.recv_forwards received
  obtain ⟨protocol, ends, -⟩ := forwards.key reachable.reachable
  have isSent := forwards.ends reachable.reachable ported
  obtain ⟨counterOwn, different, connection, inverts⟩ := reachable.counterMatch live plain own
  have counterLive : engine.LiveCm counter := ⟨c, live, kept, counterOwn⟩
  have key : (engine.table.cms counter).key =
      Ipv4.lookupKey cm.xmitDev packet.protocol sent.toEndpoints.swap := by
    rw [isSent, ← protocol]
    exact inverts.key
  refine ⟨⟨counterOwn, different⟩, ?_, ?_⟩
  · intro answer answerProtocol answerEnds
    rw [answerProtocol, answerEnds]
    refine ⟨Ipv4.lookup_alone reachable.reachable forwards.protocol counterLive
      (alone counter counterOwn) key, fun tunOuter => ?_⟩
    rw [Ipv4.forward_ends, answerEnds, isSent, ← ends]
    exact inverts.ends
  · intro type isError
    have found := Ipv4.findConnectionMatch_alone reachable.reachable counterLive
      (alone counter counterOwn)
    rw [key] at found
    have sentProtocol : sent.protocol = packet.protocol := by
      rw [forwards.sent, Ipv4.forward_protocol]
    have sentVersion : sent.versionIhl >>> 4 = 4 := by
      rw [forwards.sent, Ipv4.forward_versionIhl, forwards.version]
    have removed : (engine.table.removeConnection Ipv4.hashes c).1 = true := by
      rw [Table.removeConnection_eq c kept]
    have handled : packet.protocol = ipprotoUdp ∨ packet.protocol = ipprotoTcp := forwards.protocol
    unfold Ipv4.recvIcmp Ipv4.icmpError
    dsimp only
    rw [sentProtocol, sentVersion, found, if_neg (by tauto), if_neg (by decide), if_neg (by decide),
      if_neg (by tauto)]
    dsimp only
    rw [connection, ← removed]

/-! ### Two rules -/

/-- The engine with one rule, between two devices that are no tunnels. -/
theorem Engine.withRule_reachableOn {msg : Ipv4CreateMsg}
    (runs : (Engine.blank.step Ipv4.copy
      (.create (twoDevices _) (freshAt 1 2 3 default default) msg 0)).isSome = true) :
    Engine.ReachableOn (twoDevices Ipv4Addr).isVxlan (Engine.withRule Ipv4.copy msg) := by
  obtain ⟨next, isNext⟩ := Option.isSome_iff_exists.mp runs
  have same : Engine.withRule Ipv4.copy msg = next := by
    rw [Engine.withRule, Engine.after, Engine.run, isNext]
    rfl
  rw [same]
  refine (Engine.ReachableOn.initial Engine.blank_initial).step ?_ isNext
  intro net alloc other nowJiffies isCreate
  cases isCreate
  rfl

/-- The two matches of the only connection are the only ones. -/
theorem Engine.alone_of_only {engine : Engine Ipv4Addr} {c : Ptr}
    (only : engine.connLive = Function.update (fun _ => false) c true)
    (differ : ∀ cm ∈ engine.table.cmsOf c, ∀ other ∈ engine.table.cmsOf c,
      (engine.table.cms other).key = (engine.table.cms cm).key → other = cm) :
    ∀ cm ∈ engine.table.cmsOf c, ∀ other, engine.LiveCm other →
      (engine.table.cms other).key = (engine.table.cms cm).key → other = cm := by
  rintro cm own other ⟨holder, live, -, otherOwn⟩ same
  have isC : holder = c := by
    by_contra ne
    rw [only, Function.update_of_ne ne] at live
    cases live
  rw [isC] at otherOwn
  exact differ cm own other otherOwn same

/-- A packet of 40 bytes with a verified checksum. -/
def Ipv4.shortPacket (protocol : BitVec 8) (ends : Endpoints) : Ipv4Packet where
  toEndpoints := ends
  versionIhl := 0x45
  tos := 0
  totLen := 0x2800
  id := 0
  fragOff := 0
  ttl := 64
  protocol := protocol
  ipCheck := 0
  check := 0
  segmentLen := 0x1400
  words := []
  ipSummed := .unnecessary

/-- Forty bytes come in from the first device. -/
def shortReception : Reception := ⟨0x1000, 40, false, false, true⟩

/-- The client of the telnet connection appears as port 40000 of 192.0.2.1. -/
def telnetBehind : Tuple Ipv4Addr := ⟨ipprotoTcp, 0x020000c0, 0x409c, 0x0200000a, 0x1700⟩

/-- The segments of the telnet connection are translated, their answers are translated back, and an
error about one removes the connection. -/
theorem Ipv4.nat_inverts_telnet :
    let engine := Engine.withRule Ipv4.copy (Ipv4.ruleFor telnet telnetBehind)
    let packet := Ipv4.shortPacket ipprotoTcp ⟨0x0100000a, 0x3930, 0x0200000a, 0x1700⟩
    let sent := Ipv4.forward (engine.table.cms 2) false packet
    sent.toEndpoints = ⟨0x020000c0, 0x409c, 0x0200000a, 0x1700⟩ ∧
      Ipv4.lookup engine.table 0x2000 ipprotoTcp sent.toEndpoints.swap = some 3 ∧
      (Ipv4.forward (engine.table.cms 3) false
          (Ipv4.shortPacket ipprotoTcp sent.toEndpoints.swap)).toEndpoints =
        packet.toEndpoints.swap ∧
      Ipv4.recvIcmp engine.table 0x2000 (Ipv4.icmpError 3 sent) =
        some (1, true, (engine.table.removeConnection Ipv4.hashes 1).2) := by
  intro engine packet sent
  have reachable : Engine.ReachableOn (twoDevices Ipv4Addr).isVxlan engine :=
    Engine.withRule_reachableOn (by decide +kernel)
  have received : Ipv4.recv engine.table shortReception packet = some (2, sent) := by decide +kernel
  have inverts := Ipv4.nat_inverts reachable rfl rfl (by decide +kernel)
    (Engine.alone_of_only (c := 1) rfl (by decide +kernel)) (by decide +kernel) received (.inl rfl)
  obtain ⟨-, answers, errors⟩ := inverts
  obtain ⟨found, back⟩ := answers (Ipv4.shortPacket ipprotoTcp sent.toEndpoints.swap) rfl rfl
  exact ⟨by decide +kernel, found, back false, errors 3 (.inl rfl)⟩

/-- A rule for packets of UDP from port 0 of 10.0.0.1 to port 53 of 10.0.0.2. -/
def fromPortZero : Tuple Ipv4Addr := ⟨ipprotoUdp, 0x0100000a, 0, 0x0200000a, 0x3500⟩

/-- The rule for port zero takes a packet from port 5555, and its answer is looked up to nothing. -/
theorem Ipv4.not_inverts_portless :
    ¬ ∀ (isVxlan : Dev → Bool) (engine : Engine Ipv4Addr) (c at_ : Ptr),
      Engine.ReachableOn isVxlan engine → engine.connLive c = true →
      (engine.table.conns c).removed = false →
      (∀ cm ∈ engine.table.cmsOf c, isVxlan (engine.table.cms cm).matchDev = false) →
      (∀ cm ∈ engine.table.cmsOf c, ∀ other, engine.LiveCm other →
        (engine.table.cms other).key = (engine.table.cms cm).key → other = cm) →
      at_ ∈ engine.table.cmsOf c →
      ∀ (reception : Reception) (packet sent : Ipv4Packet),
        Ipv4.recv engine.table reception packet = some (at_, sent) →
        Ipv4.lookup engine.table (engine.table.cms at_).xmitDev packet.protocol
          sent.toEndpoints.swap = some (engine.table.cms at_).counterMatch := by
  intro inverts
  have found := inverts (twoDevices Ipv4Addr).isVxlan
    (Engine.withRule Ipv4.copy (Ipv4.ruleFor fromPortZero fromPortZero)) 1 2
    (Engine.withRule_reachableOn (by decide +kernel)) rfl rfl (by decide +kernel)
    (Engine.alone_of_only rfl (by decide +kernel)) (by decide +kernel) shortReception
    (Ipv4.shortPacket ipprotoUdp ⟨0x0100000a, 0xb315, 0x0200000a, 0x3500⟩)
    (Ipv4.forward ((Engine.withRule Ipv4.copy (Ipv4.ruleFor fromPortZero fromPortZero)).table.cms 2)
      false (Ipv4.shortPacket ipprotoUdp ⟨0x0100000a, 0xb315, 0x0200000a, 0x3500⟩))
    (by decide +kernel)
  revert found
  decide +kernel

end Qsdk.Sfe
