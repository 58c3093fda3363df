/-
**Which match a packet is looked up to.**

`Exact` says that a lookup is right for a key: what it finds is a live match with exactly the key,
and it finds one whenever there is one. The IPv4 lookup compares all six fields of the key and is
exact in every engine that can be reached. The IPv6 lookup leaves the source port out. It is exact
for a key if and only if no live match of the key's bucket that differs from the key in the source
port alone stands before every match with exactly the key (`Unshadowed`): the hash folds the
exclusive or of the ports, so two source ports share a bucket whenever the folded words agree.
-/

import Qsdk.Sfe.Lifecycle

namespace Qsdk.Sfe

variable {A M : Type} {hashes : Hashes A} {engine : Engine A} {members : List Ptr}
  {chain : BitVec 32 → List Ptr}

/-- A match that was inserted and has not been removed. -/
def Engine.LiveCm (engine : Engine A) (cm : Ptr) : Prop :=
  ∃ c, engine.connLive c = true ∧ (engine.table.conns c).removed = false ∧
    cm ∈ engine.table.cmsOf c

/-- A lookup is right for a key. -/
structure Engine.Exact (engine : Engine A) (found : Option Ptr) (key : MatchKey A) : Prop where
  sound : ∀ cm ∈ found, engine.LiveCm cm ∧ (engine.table.cms cm).key = key
  complete : found.isSome = true ↔ ∃ cm, engine.LiveCm cm ∧ (engine.table.cms cm).key = key

/-- The live matches are the matches of the members. -/
theorem Sound.liveCm_iff (sound : Sound hashes engine members chain) (cm : Ptr) :
    engine.LiveCm cm ↔ cm ∈ members.flatMap engine.table.cmsOf := by
  rw [List.mem_flatMap]
  constructor
  · rintro ⟨c, live, kept, isCm⟩
    rcases List.mem_append.mp ((sound.connLive c).mp live) with mem | pending
    · exact ⟨c, mem, isCm⟩
    · have removed := sound.gone c pending
      rw [kept] at removed
      cases removed
  · rintro ⟨c, mem, isCm⟩
    exact ⟨c, sound.member_live mem, sound.coherent.kept c mem, isCm⟩

/-- The bucket of a key holds the live matches that hash there. -/
theorem Sound.mem_bucket_iff (sound : Sound hashes engine members chain) (idx : BitVec 32)
    (cm : Ptr) : cm ∈ engine.table.connMatchHash idx ↔
      engine.LiveCm cm ∧ hashes.connectionMatchHash (engine.table.cms cm).key = idx := by
  rw [sound.liveCm_iff, sound.coherent.mem_bucket]

/-- A match that differs from a key in the source port alone. -/
def MatchKey.DiffersInSrcPort (other key : MatchKey A) : Prop :=
  { other with srcPort := key.srcPort } = key ∧ other.srcPort ≠ key.srcPort

/-- Every match of the key's bucket that differs from the key in the source port alone stands behind
a match with exactly the key. -/
def Unshadowed (hashes : Hashes A) (table : Table A) (key : MatchKey A) : Prop :=
  ∀ front cm back, table.connMatchHash (hashes.connectionMatchHash key) = front ++ cm :: back →
    (table.cms cm).key.DiffersInSrcPort key → ∃ exact ∈ front, (table.cms exact).key = key

theorem Ipv4.compares_iff (cm : ConnectionMatch Ipv4Addr) (key : MatchKey Ipv4Addr) :
    Ipv4.compares cm key = true ↔ cm.key = key := by
  cases key
  simp only [Ipv4.compares, Bool.and_eq_true, beq_iff_eq, MatchKey.mk.injEq]
  tauto

theorem Ipv6.compares_iff (cm : ConnectionMatch Ipv6Addr) (key : MatchKey Ipv6Addr) :
    Ipv6.compares cm key = true ↔ { cm.key with srcPort := key.srcPort } = key := by
  cases key
  simp only [Ipv6.compares, Bool.and_eq_true, beq_iff_eq, MatchKey.mk.injEq]
  tauto

/-- What compares equal and has the source port has the key. -/
theorem MatchKey.eq_of_srcPort {other key : MatchKey A}
    (same : { other with srcPort := key.srcPort } = key) (port : other.srcPort = key.srcPort) :
    other = key := by
  rw [← port] at same
  exact same

/-- A search for what has the key, over the key's bucket, is exact. -/
theorem Sound.exact_of_find (sound : Sound hashes engine members chain) (key : MatchKey A)
    (test : Ptr → Bool)
    (accepts : ∀ cm, (engine.table.cms cm).key = key → test cm = true)
    (right : ∀ cm ∈ (engine.table.connMatchHash (hashes.connectionMatchHash key)).find? test,
      (engine.table.cms cm).key = key) :
    engine.Exact ((engine.table.connMatchHash (hashes.connectionMatchHash key)).find? test) key
        where
  sound := fun cm found =>
    ⟨((sound.mem_bucket_iff _ cm).mp (List.mem_of_find?_eq_some found)).1, right cm found⟩
  complete := by
    constructor
    · intro isSome
      obtain ⟨cm, found⟩ := Option.isSome_iff_exists.mp isSome
      exact ⟨cm, ((sound.mem_bucket_iff _ cm).mp (List.mem_of_find?_eq_some found)).1,
        right cm found⟩
    · rintro ⟨cm, live, equal⟩
      refine List.find?_isSome.mpr ⟨cm, (sound.mem_bucket_iff _ cm).mpr ⟨live, ?_⟩,
        accepts cm equal⟩
      rw [equal]

/-- The IPv4 lookup is exact. -/
theorem Ipv4.findConnectionMatch_exact {engine : Engine Ipv4Addr}
    (reachable : Engine.Reachable Ipv4.copy engine) (key : MatchKey Ipv4Addr) :
    engine.Exact (Ipv4.findConnectionMatch engine.table key) key := by
  obtain ⟨members, chain, sound⟩ := sound_of_reachable reachable
  refine sound.exact_of_find key _ ?_ ?_
  · exact fun cm equal => (Ipv4.compares_iff _ _).mpr equal
  · intro cm found
    have passes := List.find?_some found
    exact (Ipv4.compares_iff _ _).mp passes

/-- The IPv6 lookup is exact for a key that nothing shadows. -/
theorem Ipv6.exact_of_unshadowed {engine : Engine Ipv6Addr}
    (reachable : Engine.Reachable Ipv6.copy engine) (key : MatchKey Ipv6Addr)
    (unshadowed : Unshadowed Ipv6.hashes engine.table key) :
    engine.Exact (Ipv6.findConnectionMatch engine.table key) key := by
  obtain ⟨members, chain, sound⟩ := sound_of_reachable reachable
  refine sound.exact_of_find key _ ?_ ?_
  · intro cm equal
    refine (Ipv6.compares_iff _ _).mpr ?_
    rw [equal]
  · intro cm found
    obtain ⟨passes, front, back, split, before⟩ := List.find?_eq_some_iff_append.mp found
    have same := (Ipv6.compares_iff _ _).mp passes
    by_cases port : (engine.table.cms cm).key.srcPort = key.srcPort
    · exact MatchKey.eq_of_srcPort same port
    · -- a match with exactly the key stands before it, and would have been found
      obtain ⟨exact, inFront, equal⟩ := unshadowed front cm back split ⟨same, port⟩
      have rejected := before exact inFront
      have accepted : Ipv6.compares (engine.table.cms exact) key = true := by
        refine (Ipv6.compares_iff _ _).mpr ?_
        rw [equal]
      rw [accepted] at rejected
      cases rejected

/-- A key for which the IPv6 lookup is exact is not shadowed. -/
theorem Ipv6.unshadowed_of_exact {engine : Engine Ipv6Addr} (key : MatchKey Ipv6Addr)
    (exact : engine.Exact (Ipv6.findConnectionMatch engine.table key) key) :
    Unshadowed Ipv6.hashes engine.table key := by
  intro front cm back split differs
  have accepted : Ipv6.compares (engine.table.cms cm) key = true :=
    (Ipv6.compares_iff _ _).mpr differs.1
  have search : Ipv6.findConnectionMatch engine.table key =
      (front.find? fun cm => Ipv6.compares (engine.table.cms cm) key).or (some cm) := by
    have bucket : engine.table.connMatchHash (Ipv6.getConnectionMatchHash key) = front ++
        cm :: back :=
      split
    have head : (cm :: back).find? (fun cm => Ipv6.compares (engine.table.cms cm) key) =
        some cm := by
      rw [List.find?_cons, accepted]
    rw [Ipv6.findConnectionMatch, bucket, List.find?_append, head]
  cases found : front.find? fun cm => Ipv6.compares (engine.table.cms cm) key with
  | none =>
      -- the lookup returns the match with the other port
      rw [found, Option.none_or] at search
      have equal := (exact.sound cm search).2
      exact absurd (congrArg MatchKey.srcPort equal) differs.2
  | some other =>
      rw [found, Option.some_or] at search
      exact ⟨other, List.mem_of_find?_eq_some found, (exact.sound other search).2⟩

/-- **In every engine that can be reached, the IPv4 lookup is exact, and the IPv6 lookup is exact
for a key if and only if no match that differs in the source port alone shadows it.** -/
theorem lookup_exact_iff {engine4 : Engine Ipv4Addr} {engine6 : Engine Ipv6Addr}
    (reachable4 : Engine.Reachable Ipv4.copy engine4)
    (reachable6 : Engine.Reachable Ipv6.copy engine6) (key4 : MatchKey Ipv4Addr)
    (key6 : MatchKey Ipv6Addr) :
    engine4.Exact (Ipv4.findConnectionMatch engine4.table key4) key4 ∧
      (engine6.Exact (Ipv6.findConnectionMatch engine6.table key6) key6 ↔
        Unshadowed Ipv6.hashes engine6.table key6) :=
  ⟨Ipv4.findConnectionMatch_exact reachable4 key4,
    Ipv6.unshadowed_of_exact key6, Ipv6.exact_of_unshadowed reachable6 key6⟩

/-! ### Two flows that share a bucket -/

/-- A UDP flow of IPv6 from port 12345 to port 53. -/
def Ipv6.resolver : Tuple Ipv6Addr :=
  ⟨ipprotoUdp, ⟨0x20, 0, 0, 1⟩, 0x3930, ⟨0x20, 0, 0, 2⟩, 0x3500⟩

/-- The rule of the flow, and nothing else. -/
def Ipv6.resolverOnly : List (Act Ipv6Addr (CreateMsg Ipv6Addr)) :=
  [.create (twoDevices _) (freshAt 1 2 3 default default) (plainRule Ipv6.resolver) 0]

/-- A packet of another flow: its source port is 8248, which lands in the same bucket. -/
def Ipv6.stranger : MatchKey Ipv6Addr :=
  ⟨0x1000, ipprotoUdp, ⟨0x20, 0, 0, 1⟩, 0x3820, ⟨0x20, 0, 0, 2⟩, 0x3500⟩

theorem Ipv6.resolverOnly_reachable :
    Engine.Reachable Ipv6.copy (Engine.after Ipv6.copy Ipv6.resolverOnly) :=
  Engine.after_reachable (by decide +kernel)

/-- The lookup of the stranger's packet finds the rule of the flow. -/
theorem Ipv6.stranger_found :
    Ipv6.findConnectionMatch (Engine.after Ipv6.copy Ipv6.resolverOnly).table Ipv6.stranger =
    some 2 ∧
      ((Engine.after Ipv6.copy Ipv6.resolverOnly).table.cms 2).key ≠ Ipv6.stranger := by
  decide +kernel

/-- The rule of one flow takes a packet of another, whose source port hashes alike. -/
theorem Ipv6.not_exact_stranger :
    ¬ ∀ (engine : Engine Ipv6Addr), Engine.Reachable Ipv6.copy engine → ∀ key,
      engine.Exact (Ipv6.findConnectionMatch engine.table key) key := by
  intro exact
  have right := (exact _ Ipv6.resolverOnly_reachable Ipv6.stranger).sound 2 Ipv6.stranger_found.1
  exact Ipv6.stranger_found.2 right.2

/-- The stranger's key is shadowed by the rule of the flow, in an engine that can be reached. -/
theorem lookup_exact_iff_stranger :
    (Engine.after Ipv4.copy Ipv4.syncedOnce).Exact
        (Ipv4.findConnectionMatch (Engine.after Ipv4.copy Ipv4.syncedOnce).table
          ⟨0x1000, ipprotoTcp, 0x0100000a, 0x3930, 0x0200000a, 0x1700⟩)
        ⟨0x1000, ipprotoTcp, 0x0100000a, 0x3930, 0x0200000a, 0x1700⟩ ∧
      ¬ Unshadowed Ipv6.hashes (Engine.after Ipv6.copy Ipv6.resolverOnly).table Ipv6.stranger := by
  have both := lookup_exact_iff Ipv4.syncedOnce_reachable Ipv6.resolverOnly_reachable
    ⟨0x1000, ipprotoTcp, 0x0100000a, 0x3930, 0x0200000a, 0x1700⟩ Ipv6.stranger
  refine ⟨both.1, fun unshadowed => ?_⟩
  have right := (both.2.mpr unshadowed).sound 2 Ipv6.stranger_found.1
  exact Ipv6.stranger_found.2 right.2

end Qsdk.Sfe
