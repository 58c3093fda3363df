/-
**The list of all connections, the hash chains and the buckets of matches agree.**

`Coherent` says what the hand-linked structures of a table have to do with each other: the list of
all connections is a chain of the members, every member is on the hash chain of its tuple and
nowhere else, no two members have one tuple, the buckets hold the members' matches, and the cursor
of the periodic sync is null or a member. Insertion adds a fresh connection to all of them
(`Coherent.insertConnection`), removal takes a member out of all of them
(`Coherent.removeConnection`), and whatever leaves links, tuples and keys alone keeps them as they
are (`Coherent.congr`).
-/

import Qsdk.Sfe.System

namespace Qsdk.Sfe

variable {A : Type} {hashes : Hashes A} {table changed : Table A}

namespace Table

/-- The matches of a connection. -/
def cmsOf (table : Table A) (c : Ptr) : List Ptr :=
  [(table.conns c).originalMatch, (table.conns c).replyMatch]

end Table

/-- The tables hold the members, each where it belongs. -/
structure Coherent (hashes : Hashes A) (table : Table A) (members : List Ptr)
    (chain : BitVec 32 → List Ptr) : Prop where
  nodup : members.Nodup
  head : table.allConnectionsHead = members.head?
  tail : table.allConnectionsTail = members.getLast?
  linked : table.allLinks.Chained none members none
  count : table.numConnections = members.length
  chainHead : ∀ idx, table.connHash idx = (chain idx).head?
  chainLinked : ∀ idx, table.hashLinks.Chained none (chain idx) none
  chainNodup : ∀ idx, (chain idx).Nodup
  mem_chain : ∀ idx c, c ∈ chain idx ↔
    c ∈ members ∧ hashes.connectionHash (table.conns c).tuple = idx
  tuples : ∀ c ∈ members, ∀ other ∈ members,
    (table.conns c).tuple = (table.conns other).tuple → c = other
  owned : (members.flatMap table.cmsOf).Nodup
  bucketNodup : ∀ idx, (table.connMatchHash idx).Nodup
  mem_bucket : ∀ idx cm, cm ∈ table.connMatchHash idx ↔
    cm ∈ members.flatMap table.cmsOf ∧ hashes.connectionMatchHash (table.cms cm).key = idx
  cursor : ∀ c ∈ table.wcNext, c ∈ members
  kept : ∀ c ∈ members, (table.conns c).removed = false

/-- The fields of a connection that the tables depend on. -/
structure Connection.SamePlace (before after : Connection A) : Prop where
  tuple : after.tuple = before.tuple
  originalMatch : after.originalMatch = before.originalMatch
  replyMatch : after.replyMatch = before.replyMatch
  removed : after.removed = before.removed
  next : after.next = before.next
  prev : after.prev = before.prev
  allConnectionsNext : after.allConnectionsNext = before.allConnectionsNext
  allConnectionsPrev : after.allConnectionsPrev = before.allConnectionsPrev

theorem Connection.SamePlace.rfl {c : Connection A} : c.SamePlace c :=
  ⟨Eq.refl _, Eq.refl _, Eq.refl _, Eq.refl _, Eq.refl _, Eq.refl _, Eq.refl _, Eq.refl _⟩

/-- The tables of two states are the same, but for the cursor. -/
structure Table.SameHeads (before after : Table A) : Prop where
  connHash : after.connHash = before.connHash
  connMatchHash : after.connMatchHash = before.connMatchHash
  head : after.allConnectionsHead = before.allConnectionsHead
  tail : after.allConnectionsTail = before.allConnectionsTail
  count : after.numConnections = before.numConnections

/-- The matches of the members are the same where the members are. -/
theorem flatMap_cmsOf_congr {members : List Ptr}
    (conns : ∀ c ∈ members, (table.conns c).SamePlace (changed.conns c)) :
    members.flatMap changed.cmsOf = members.flatMap table.cmsOf := by
  refine List.flatMap_congr fun c mem => ?_
  rw [Table.cmsOf, Table.cmsOf, (conns c mem).originalMatch, (conns c mem).replyMatch]

/-- **Coherence depends on the heads of the tables, the places of the members and the keys of their
matches.** -/
theorem Coherent.congr {members : List Ptr} {chain : BitVec 32 → List Ptr}
    (coherent : Coherent hashes table members chain) (heads : table.SameHeads changed)
    (conns : ∀ c ∈ members, (table.conns c).SamePlace (changed.conns c))
    (keys : ∀ cm ∈ members.flatMap table.cmsOf, (changed.cms cm).key = (table.cms cm).key)
    (cursor : ∀ c ∈ changed.wcNext, c ∈ members) :
    Coherent hashes changed members chain where
  nodup := coherent.nodup
  head := heads.head.trans coherent.head
  tail := heads.tail.trans coherent.tail
  linked := coherent.linked.congr (fun c mem => (conns c mem).allConnectionsNext)
    (fun c mem => (conns c mem).allConnectionsPrev)
  count := heads.count.trans coherent.count
  chainHead := fun idx => by rw [heads.connHash, coherent.chainHead]
  chainLinked := fun idx => (coherent.chainLinked idx).congr
    (fun c mem => (conns c ((coherent.mem_chain idx c).mp mem).1).next)
    (fun c mem => (conns c ((coherent.mem_chain idx c).mp mem).1).prev)
  chainNodup := coherent.chainNodup
  mem_chain := fun idx c => by
    rw [coherent.mem_chain]
    refine and_congr_right fun mem => ?_
    rw [(conns c mem).tuple]
  tuples := fun c mem other memOther same => by
    rw [(conns c mem).tuple, (conns other memOther).tuple] at same
    exact coherent.tuples c mem other memOther same
  owned := by
    rw [flatMap_cmsOf_congr conns]
    exact coherent.owned
  bucketNodup := fun idx => by
    rw [heads.connMatchHash]
    exact coherent.bucketNodup idx
  mem_bucket := fun idx cm => by
    rw [heads.connMatchHash, coherent.mem_bucket, flatMap_cmsOf_congr conns]
    refine and_congr_right fun mem => ?_
    rw [keys cm mem]
  cursor := cursor
  kept := fun c mem => (conns c mem).removed.trans (coherent.kept c mem)

/-! ### The searches -/

/-- **The search for a rule finds the member with its tuple.** -/
theorem Coherent.findConnection [DecidableEq A] {members : List Ptr} {chain : BitVec 32 → List Ptr}
    (coherent : Coherent hashes table members chain) (tuple : Tuple A) (c : Ptr) :
    table.findConnection hashes tuple = some c ↔
      c ∈ members ∧ (table.conns c).tuple = tuple := by
  have short : (chain (hashes.connectionHash tuple)).length ≤ table.numConnections := by
    rw [coherent.count]
    refine List.Subperm.length_le ((coherent.chainNodup _).subperm ?_)
    exact fun other mem => ((coherent.mem_chain _ other).mp mem).1
  have same : ∀ other, ((table.conns other).srcPort == tuple.flowIdent &&
      (table.conns other).destPort == tuple.returnIdent &&
      (table.conns other).srcIp == tuple.flowIp && (table.conns other).destIp == tuple.returnIp &&
      (table.conns other).protocol == tuple.protocol) = true ↔
        (table.conns other).tuple = tuple := by
    intro other
    cases tuple
    simp only [Bool.and_eq_true, beq_iff_eq, Tuple.mk.injEq]
    tauto
  rw [Table.findConnection, coherent.chainHead, (coherent.chainLinked _).walk _ _ short]
  constructor
  · intro found
    have passes := List.find?_some found
    have equal := (same c).mp passes
    have mem := List.mem_of_find?_eq_some found
    exact ⟨((coherent.mem_chain _ c).mp mem).1, equal⟩
  · rintro ⟨mem, equal⟩
    have inChain : c ∈ chain (hashes.connectionHash tuple) :=
      (coherent.mem_chain _ c).mpr ⟨mem, by rw [equal]⟩
    cases found : (chain (hashes.connectionHash tuple)).find? _ with
    | none =>
        have differs := List.find?_eq_none.mp found c inChain
        exact absurd ((same c).mpr equal) differs
    | some other =>
        have memOther := List.mem_of_find?_eq_some found
        have passes := List.find?_some found
        have equalOther := (same other).mp passes
        have one := coherent.tuples other ((coherent.mem_chain _ other).mp memOther).1 c mem
          (equalOther.trans equal.symm)
        rw [one]

/-- No rule is found exactly when no member has the tuple. -/
theorem Coherent.findConnection_eq_none [DecidableEq A] {members : List Ptr}
    {chain : BitVec 32 → List Ptr} (coherent : Coherent hashes table members chain)
    (tuple : Tuple A) :
    table.findConnection hashes tuple = none ↔
      ∀ c ∈ members, (table.conns c).tuple ≠ tuple := by
  constructor
  · intro missing c mem equal
    have found := (coherent.findConnection tuple c).mpr ⟨mem, equal⟩
    rw [missing] at found
    cases found
  · intro differs
    cases found : table.findConnection hashes tuple with
    | none => rfl
    | some c =>
        obtain ⟨mem, equal⟩ := (coherent.findConnection tuple c).mp found
        exact absurd equal (differs c mem)

/-- The search for a device finds a member. -/
theorem Coherent.findForDev {members : List Ptr} {chain : BitVec 32 → List Ptr}
    (coherent : Coherent hashes table members chain) (dev : Option Dev) {c : Ptr}
    (found : table.findForDev dev = some c) : c ∈ members := by
  rw [Table.findForDev, coherent.head, coherent.linked.walk _ _ (le_of_eq coherent.count.symm)]
    at found
  exact List.mem_of_find?_eq_some found

/-- The search of a debug read finds a member. -/
theorem Coherent.findForDebug {members : List Ptr} {chain : BitVec 32 → List Ptr}
    (coherent : Coherent hashes table members chain) (seq : BitVec 32) {c : Ptr}
    (found : table.findForDebug seq = some c) : c ∈ members := by
  rw [Table.findForDebug, coherent.head, coherent.linked.walk _ _ (le_of_eq coherent.count.symm)]
    at found
  exact List.mem_of_find?_eq_some found

/-! ### Insertion -/

/-- The buckets with a match pushed onto its own. -/
def pushBucket (hashes : Hashes A) (buckets : BitVec 32 → List Ptr)
    (cms : Ptr → ConnectionMatch A) (cm : Ptr) : BitVec 32 → List Ptr :=
  Function.update buckets (hashes.connectionMatchHash (cms cm).key)
    (cm :: buckets (hashes.connectionMatchHash (cms cm).key))

namespace Table

/-- Write the links of the hash chains. -/
def relinkHash (table : Table A) (links : Links Ptr) : Table A :=
  { table with conns := fun c => { table.conns c with next := links.next c, prev := links.prev c } }

/-- Write the links of the list of all connections. -/
def relinkAll (table : Table A) (links : Links Ptr) : Table A :=
  { table with
    conns := fun c => { table.conns c with
      allConnectionsNext := links.next c, allConnectionsPrev := links.prev c } }

theorem insertHash_eq (c : Ptr) :
    table.insertHash hashes c =
      { table.relinkHash
          (table.hashLinks.pushFront
            (table.connHash (hashes.connectionHash (table.conns c).tuple)) c)
        with
        connHash := Function.update table.connHash (hashes.connectionHash (table.conns c).tuple)
          (some c) } := by
  simp only [insertHash, modifyConn]
  cases head : table.connHash (hashes.connectionHash (table.conns c).tuple) with
  | none =>
      simp only [relinkHash, Links.pushFront, hashLinks, Table.mk.injEq, and_true]
      funext other
      by_cases same : other = c
      · subst same
        simp
      · simp [same]
  | some first =>
      simp only [relinkHash, Links.pushFront, hashLinks, Table.mk.injEq, and_true]
      funext other
      by_cases same : other = c
      · subst same
        by_cases isFirst : other = first
        · subst isFirst
          simp
        · simp [isFirst]
      · by_cases isFirst : other = first
        · subst isFirst
          simp [same]
        · simp [same, isFirst]

theorem insertAll_eq (c : Ptr) :
    table.insertAll c =
      { table.relinkAll (table.allLinks.append table.allConnectionsTail c) with
        allConnectionsHead :=
          if table.allConnectionsTail = none then some c else table.allConnectionsHead
        allConnectionsTail := some c
        numConnections := table.numConnections + 1 } := by
  simp only [insertAll, modifyConn]
  cases tail : table.allConnectionsTail with
  | none =>
      simp only [relinkAll, Links.append, allLinks, Table.mk.injEq, and_true, if_true]
      funext other
      by_cases same : other = c
      · subst same
        simp
      · simp [same]
  | some last =>
      simp only [relinkAll, Links.append, allLinks, Table.mk.injEq, and_true,
        reduceCtorEq, if_false]
      funext other
      by_cases same : other = c
      · subst same
        by_cases isLast : other = last
        · subst isLast
          simp
        · simp [isLast]
      · by_cases isLast : other = last
        · subst isLast
          simp [same]
        · simp [same, isLast]

/-- What an insertion does to the table. -/
theorem insertConnection_eq (c : Ptr) :
    table.insertConnection hashes c =
      { (table.relinkHash (table.hashLinks.pushFront
          (table.connHash (hashes.connectionHash (table.conns c).tuple)) c)).relinkAll
            (table.allLinks.append table.allConnectionsTail c) with
        connHash := Function.update table.connHash (hashes.connectionHash (table.conns c).tuple)
          (some c)
        connMatchHash :=
          pushBucket hashes (pushBucket hashes table.connMatchHash table.cms
            (table.conns c).originalMatch) table.cms (table.conns c).replyMatch
        allConnectionsHead :=
          if table.allConnectionsTail = none then some c else table.allConnectionsHead
        allConnectionsTail := some c
        numConnections := table.numConnections + 1 } := by
  simp only [insertConnection]
  rw [insertHash_eq, insertAll_eq]
  rfl

end Table

theorem mem_pushBucket (buckets : BitVec 32 → List Ptr) (cms : Ptr → ConnectionMatch A)
    (cm other : Ptr) (idx : BitVec 32) :
    other ∈ pushBucket hashes buckets cms cm idx ↔
      other ∈ buckets idx ∨ (other = cm ∧ hashes.connectionMatchHash (cms cm).key = idx) := by
  rw [pushBucket]
  by_cases same : idx = hashes.connectionMatchHash (cms cm).key
  · subst same
    simp [or_comm]
  · have ne : hashes.connectionMatchHash (cms cm).key ≠ idx := fun equal => same equal.symm
    simp [Function.update_of_ne same, ne]

theorem pushBucket_nodup (buckets : BitVec 32 → List Ptr) (cms : Ptr → ConnectionMatch A)
    (cm : Ptr) (nodup : ∀ idx, (buckets idx).Nodup) (fresh : ∀ idx, cm ∉ buckets idx)
    (idx : BitVec 32) : (pushBucket hashes buckets cms cm idx).Nodup := by
  rw [pushBucket]
  by_cases same : idx = hashes.connectionMatchHash (cms cm).key
  · subst same
    rw [Function.update_self]
    exact List.nodup_cons.mpr ⟨fresh _, nodup _⟩
  · rw [Function.update_of_ne same]
    exact nodup idx

/-- **Inserting a fresh connection with fresh matches and a new tuple makes it a member.** -/
theorem Coherent.insertConnection {members : List Ptr} {chain : BitVec 32 → List Ptr} {c : Ptr}
    (coherent : Coherent hashes table members chain) (fresh : c ∉ members)
    (freshCms : ∀ cm ∈ table.cmsOf c, cm ∉ members.flatMap table.cmsOf)
    (apart : (table.conns c).originalMatch ≠ (table.conns c).replyMatch)
    (newTuple : ∀ other ∈ members, (table.conns other).tuple ≠ (table.conns c).tuple)
    (kept : (table.conns c).removed = false) :
    Coherent hashes (table.insertConnection hashes c) (members ++ [c])
      (Function.update chain (hashes.connectionHash (table.conns c).tuple)
        (c :: chain (hashes.connectionHash (table.conns c).tuple))) := by
  rw [Table.insertConnection_eq]
  set home := hashes.connectionHash (table.conns c).tuple with isHome
  have freshChain : ∀ idx, c ∉ chain idx :=
    fun idx mem => fresh ((coherent.mem_chain idx c).mp mem).1
  have freshBucket : ∀ cm ∈ table.cmsOf c, ∀ idx, cm ∉ table.connMatchHash idx :=
    fun cm mem idx inBucket => freshCms cm mem ((coherent.mem_bucket idx cm).mp inBucket).1
  have disjoint : ∀ cm ∈ members.flatMap table.cmsOf, cm ∉ table.cmsOf c :=
    fun cm owned mem => freshCms cm mem owned
  have originalMem : (table.conns c).originalMatch ∈ table.cmsOf c := by simp [Table.cmsOf]
  have replyMem : (table.conns c).replyMatch ∈ table.cmsOf c := by simp [Table.cmsOf]
  exact
    { nodup := by
        refine List.nodup_append.mpr ⟨coherent.nodup, by simp, ?_⟩
        intro other mem same isSame equal
        rw [List.mem_singleton.mp isSame] at equal
        exact fresh (by rw [← equal]; exact mem)
      head := by
        show (if table.allConnectionsTail = none then some c else table.allConnectionsHead) = _
        rw [coherent.tail, coherent.head]
        cases members with
        | nil => simp
        | cons first rest => simp
      tail := by simp
      linked := by
        rw [coherent.tail]
        exact coherent.linked.append coherent.nodup fresh
      count := by
        show table.numConnections + 1 = _
        rw [coherent.count, List.length_append, List.length_singleton]
      chainHead := fun idx => by
        show Function.update table.connHash home (some c) idx = _
        by_cases same : idx = home
        · subst same
          simp
        · rw [Function.update_of_ne same, Function.update_of_ne same, coherent.chainHead]
      chainLinked := fun idx => by
        show (table.hashLinks.pushFront (table.connHash home) c).Chained none _ none
        rw [coherent.chainHead]
        by_cases same : idx = home
        · subst same
          rw [Function.update_self]
          exact (coherent.chainLinked _).pushFront (coherent.chainNodup _) (freshChain _)
        · rw [Function.update_of_ne same]
          refine (coherent.chainLinked idx).pushFront_frame (freshChain idx) ?_
          intro other mem memHome
          have one := ((coherent.mem_chain idx other).mp mem).2
          have two := ((coherent.mem_chain home other).mp memHome).2
          exact same (one.symm.trans two)
      chainNodup := fun idx => by
        by_cases same : idx = home
        · subst same
          rw [Function.update_self]
          exact List.nodup_cons.mpr ⟨freshChain _, coherent.chainNodup _⟩
        · rw [Function.update_of_ne same]
          exact coherent.chainNodup idx
      mem_chain := fun idx other => by
        show _ ↔ other ∈ members ++ [c] ∧ hashes.connectionHash (table.conns other).tuple = idx
        rw [List.mem_append, List.mem_singleton]
        by_cases same : idx = home
        · subst same
          rw [Function.update_self, List.mem_cons, coherent.mem_chain]
          constructor
          · rintro (equal | ⟨mem, hash⟩)
            · exact ⟨Or.inr equal, by rw [equal]⟩
            · exact ⟨Or.inl mem, hash⟩
          · rintro ⟨mem | equal, hash⟩
            · exact Or.inr ⟨mem, hash⟩
            · exact Or.inl equal
        · rw [Function.update_of_ne same, coherent.mem_chain]
          refine and_congr_left fun hash => ⟨Or.inl, ?_⟩
          rintro (mem | equal)
          · exact mem
          · rw [equal] at hash
            exact absurd hash.symm same
      tuples := fun one memOne two memTwo same => by
        replace same : (table.conns one).tuple = (table.conns two).tuple := same
        rcases List.mem_append.mp memOne with inOne | isOne <;>
          rcases List.mem_append.mp memTwo with inTwo | isTwo
        · exact coherent.tuples one inOne two inTwo same
        · rw [List.mem_singleton.mp isTwo] at same
          exact absurd same (newTuple one inOne)
        · rw [List.mem_singleton.mp isOne] at same
          exact absurd same.symm (newTuple two inTwo)
        · rw [List.mem_singleton.mp isOne, List.mem_singleton.mp isTwo]
      owned := by
        show ((members ++ [c]).flatMap table.cmsOf).Nodup
        rw [List.flatMap_append, List.flatMap_singleton]
        refine List.nodup_append.mpr ⟨coherent.owned, ?_, ?_⟩
        · simpa [Table.cmsOf] using apart
        · intro cm owned other mem equal
          exact disjoint cm owned (by rw [equal]; exact mem)
      bucketNodup := fun idx => by
        refine pushBucket_nodup _ _ _ (fun idx => ?_) (fun idx inBucket => ?_) idx
        · exact pushBucket_nodup _ _ _ coherent.bucketNodup (freshBucket _ originalMem) idx
        · rcases (mem_pushBucket _ _ _ _ idx).mp inBucket with old | ⟨equal, -⟩
          · exact freshBucket _ replyMem idx old
          · exact apart equal.symm
      mem_bucket := fun idx cm => by
        show _ ↔ cm ∈ (members ++ [c]).flatMap table.cmsOf ∧
          hashes.connectionMatchHash (table.cms cm).key = idx
        refine (mem_pushBucket _ _ _ _ idx).trans ?_
        rw [mem_pushBucket, coherent.mem_bucket, List.flatMap_append, List.flatMap_singleton,
          List.mem_append, Table.cmsOf, List.mem_cons, List.mem_singleton]
        constructor
        · rintro ((⟨owned, hash⟩ | ⟨equal, hash⟩) | ⟨equal, hash⟩)
          · exact ⟨Or.inl owned, hash⟩
          · exact ⟨Or.inr (Or.inl equal), by rw [equal]; exact hash⟩
          · exact ⟨Or.inr (Or.inr equal), by rw [equal]; exact hash⟩
        · rintro ⟨owned | equal | equal, hash⟩
          · exact Or.inl (Or.inl ⟨owned, hash⟩)
          · exact Or.inl (Or.inr ⟨equal, by rw [← equal]; exact hash⟩)
          · exact Or.inr ⟨equal, by rw [← equal]; exact hash⟩
      cursor := fun other isNext => List.mem_append_left _ (coherent.cursor other isNext)
      kept := fun other mem => by
        show (table.conns other).removed = false
        rcases List.mem_append.mp mem with inMembers | isC
        · exact coherent.kept other inMembers
        · rw [List.mem_singleton.mp isC]
          exact kept }

/-! ### Removal -/

namespace Table

theorem removeHash_eq (c : Ptr) :
    table.removeHash hashes c =
      { table.relinkHash (table.hashLinks.unlink c) with
        connHash := if (table.conns c).prev = none then
            Function.update table.connHash (hashes.connectionHash (table.conns c).tuple)
              (table.conns c).next
          else table.connHash } := by
  simp only [removeHash, modifyConn]
  cases before : (table.conns c).prev with
  | none =>
      cases after : (table.conns c).next with
      | none =>
          simp [relinkHash, Links.unlink, hashLinks, before, after]
      | some next =>
          simp only [relinkHash, Links.unlink, hashLinks, before, after, Table.mk.injEq, and_true,
            if_true]
          funext other
          by_cases isNext : other = next
          · subst isNext
            simp
          · simp [isNext]
  | some last =>
      simp only [relinkHash, Links.unlink, hashLinks, before, reduceCtorEq, if_false]
      have update : ∀ other, (Function.update table.conns last
          { table.conns last with next := (table.conns c).next } other).next =
            Function.update (fun c => (table.conns c).next) last (table.conns c).next other := by
        intro other
        by_cases isLast : other = last
        · subst isLast
          simp
        · simp [isLast]
      have samePrev : (Function.update table.conns last
          { table.conns last with next := (table.conns c).next } c).prev = some last := by
        by_cases isLast : c = last
        · rw [isLast, Function.update_self, ← isLast, before, isLast]
        · rw [Function.update_of_ne isLast, before]
      rw [update c]
      cases after : Function.update (fun c => (table.conns c).next) last (table.conns c).next c with
      | none =>
          simp only [Table.mk.injEq, and_true]
          funext other
          by_cases isLast : other = last
          · subst isLast
            simp
          · simp [isLast]
      | some next =>
          simp only [samePrev, Table.mk.injEq, and_true]
          funext other
          by_cases isNext : other = next
          · subst isNext
            by_cases isLast : other = last
            · subst isLast
              simp
            · simp [isLast]
          · by_cases isLast : other = last
            · subst isLast
              simp [isNext]
            · simp [isNext, isLast]

theorem removeAll_eq (c : Ptr) :
    table.removeAll c =
      { table.relinkAll (table.allLinks.unlink c) with
        allConnectionsHead := if (table.conns c).allConnectionsPrev = none then
            (table.conns c).allConnectionsNext
          else table.allConnectionsHead
        allConnectionsTail := if (table.allLinks.unlink c).next c = none then
            (table.conns c).allConnectionsPrev
          else table.allConnectionsTail } := by
  simp only [removeAll, modifyConn]
  cases before : (table.conns c).allConnectionsPrev with
  | none =>
      cases after : (table.conns c).allConnectionsNext with
      | none =>
          simp [relinkAll, Links.unlink, allLinks, before, after]
      | some next =>
          simp only [relinkAll, Links.unlink, allLinks, before, after, Table.mk.injEq, and_true,
            if_true, reduceCtorEq, if_false]
          funext other
          by_cases isNext : other = next
          · subst isNext
            simp
          · simp [isNext]
  | some last =>
      simp only [relinkAll, Links.unlink, allLinks, before, reduceCtorEq, if_false]
      have update : ∀ other, (Function.update table.conns last
          { table.conns last with
            allConnectionsNext := (table.conns c).allConnectionsNext } other).allConnectionsNext =
            Function.update (fun c => (table.conns c).allConnectionsNext) last
              (table.conns c).allConnectionsNext other := by
        intro other
        by_cases isLast : other = last
        · subst isLast
          simp
        · simp [isLast]
      have samePrev : (Function.update table.conns last
          { table.conns last with
            allConnectionsNext := (table.conns c).allConnectionsNext } c).allConnectionsPrev =
            some last := by
        by_cases isLast : c = last
        · rw [isLast, Function.update_self, ← isLast, before, isLast]
        · rw [Function.update_of_ne isLast, before]
      rw [update c]
      cases after : Function.update (fun c => (table.conns c).allConnectionsNext) last
          (table.conns c).allConnectionsNext c with
      | none =>
          simp only [samePrev, Table.mk.injEq, and_true, if_true]
          funext other
          by_cases isLast : other = last
          · subst isLast
            simp
          · simp [isLast]
      | some next =>
          simp only [samePrev, Table.mk.injEq, and_true, reduceCtorEq, if_false]
          funext other
          by_cases isNext : other = next
          · subst isNext
            by_cases isLast : other = last
            · subst isLast
              simp
            · simp [isLast]
          · by_cases isLast : other = last
            · subst isLast
              simp [isNext]
            · simp [isNext, isLast]

/-- The table without a connection and its matches. -/
def detach (hashes : Hashes A) (table : Table A) (c : Ptr) : Table A :=
  { (table.relinkHash (table.hashLinks.unlink c)).relinkAll (table.allLinks.unlink c) with
    connHash := if (table.conns c).prev = none then
        Function.update table.connHash (hashes.connectionHash (table.conns c).tuple)
          (table.conns c).next
      else table.connHash
    connMatchHash := fun idx =>
      ((table.connMatchHash idx).erase (table.conns c).replyMatch).erase
        (table.conns c).originalMatch
    allConnectionsHead := if (table.conns c).allConnectionsPrev = none then
        (table.conns c).allConnectionsNext
      else table.allConnectionsHead
    allConnectionsTail := if (table.allLinks.unlink c).next c = none then
        (table.conns c).allConnectionsPrev
      else table.allConnectionsTail
    numConnections := table.numConnections - 1
    wcNext := if table.wcNext = some c then (table.allLinks.unlink c).next c else table.wcNext }

/-- What the removal of a connection that is still there does to the table. -/
theorem removeConnection_eq (c : Ptr) (kept : (table.conns c).removed = false) :
    table.removeConnection hashes c =
      (true, (table.detach hashes c).modifyConn c fun x => { x with removed := true }) := by
  simp only [removeConnection, kept, Bool.false_eq_true, if_false]
  rw [removeHash_eq, removeAll_eq]
  by_cases cursor : table.wcNext = some c
  · simp only [detach, removeConnectionMatch, relinkHash, relinkAll, modifyConn, cursor, if_true]
    rfl
  · simp only [detach, removeConnectionMatch, relinkHash, relinkAll, modifyConn, cursor, if_false]
    rfl

end Table

/-- A cell of a chain without repetitions is not its own predecessor. -/
theorem prev_ne_self {links : Links Ptr} {front back : List Ptr} {c : Ptr}
    (linked : links.Chained none (front ++ c :: back) none) (nodup : (front ++ c :: back).Nodup) :
    links.prev c ≠ some c := by
  rw [linked.fields.1]
  intro isLast
  exact (List.nodup_append.mp nodup).2.2 c (List.mem_of_getLast? isLast) c List.mem_cons_self rfl

/-- The table without a member is coherent without the member. -/
theorem Coherent.detach {members : List Ptr} {chain : BitVec 32 → List Ptr} {c : Ptr}
    (coherent : Coherent hashes table members chain) (mem : c ∈ members) :
    Coherent hashes (table.detach hashes c) (members.erase c) (fun idx => (chain idx).erase c) := by
  -- where the member stands in the list of all connections
  obtain ⟨front, back, split⟩ := List.append_of_mem mem
  have linked := coherent.linked
  have nodup := coherent.nodup
  rw [split] at linked nodup
  obtain ⟨isPrev, isNext⟩ := linked.fields
  have sameNext : (table.allLinks.unlink c).next c = back.head? := by
    rw [Links.unlink_next, if_neg (prev_ne_self linked nodup), isNext]
  have notFront : c ∉ front := fun inFront =>
    (List.nodup_append.mp nodup).2.2 c inFront c List.mem_cons_self rfl
  have without : members.erase c = front ++ back := by
    rw [split, List.erase_append_right _ notFront, List.erase_cons_head]
  have mem_without : ∀ other, other ∈ members.erase c ↔ other ∈ members ∧ other ≠ c :=
      fun other => by
    rw [coherent.nodup.mem_erase_iff, and_comm]
  -- its matches are nobody else's
  have owned := coherent.owned
  rw [split, List.flatMap_append, List.flatMap_cons] at owned
  obtain ⟨ownedFront, ownedRest, apartFront⟩ := List.nodup_append.mp owned
  obtain ⟨-, ownedBack, apartBack⟩ := List.nodup_append.mp ownedRest
  have mem_owned : ∀ cm, cm ∈ (members.erase c).flatMap table.cmsOf ↔
      cm ∈ members.flatMap table.cmsOf ∧ cm ∉ table.cmsOf c := by
    intro cm
    rw [without, split, List.flatMap_append, List.flatMap_append, List.flatMap_cons,
      List.mem_append, List.mem_append, List.mem_append]
    constructor
    · rintro (inFront | inBack)
      · refine ⟨Or.inl inFront, fun inCell => ?_⟩
        exact apartFront cm inFront cm (List.mem_append_left _ inCell) rfl
      · refine ⟨Or.inr (Or.inr inBack), fun inCell => ?_⟩
        exact apartBack cm inCell cm inBack rfl
    · rintro ⟨inFront | inCell | inBack, notCell⟩
      · exact Or.inl inFront
      · exact absurd inCell notCell
      · exact Or.inr inBack
  exact
    { nodup := coherent.nodup.erase c
      head := by
        show (if (table.allLinks).prev c = none then table.allLinks.next c
          else table.allConnectionsHead) = _
        rw [coherent.head]
        exact (coherent.linked.head_erase coherent.nodup mem).symm
      tail := by
        show (if (table.allLinks.unlink c).next c = none then table.allLinks.prev c
          else table.allConnectionsTail) = _
        rw [sameNext, ← isNext, coherent.tail]
        exact (coherent.linked.getLast_erase coherent.nodup mem).symm
      linked := coherent.linked.unlink coherent.nodup mem
      count := by
        show table.numConnections - 1 = _
        rw [coherent.count, List.length_erase_of_mem mem]
      chainHead := fun idx => by
        show (if table.hashLinks.prev c = none then Function.update table.connHash
          (hashes.connectionHash (table.conns c).tuple) (table.hashLinks.next c)
            else table.connHash) idx = ((chain idx).erase c).head?
        by_cases home : hashes.connectionHash (table.conns c).tuple = idx
        · have inChain := (coherent.mem_chain idx c).mpr ⟨mem, home⟩
          rw [(coherent.chainLinked idx).head_erase (coherent.chainNodup idx) inChain,
            home, ← coherent.chainHead]
          split
          · exact Function.update_self _ _ _
          · rfl
        · have notIn : c ∉ chain idx := fun inChain =>
            home ((coherent.mem_chain idx c).mp inChain).2
          rw [List.erase_of_not_mem notIn, ← coherent.chainHead]
          split
          · exact Function.update_of_ne (fun same => home same.symm) _ _
          · rfl
      chainLinked := fun idx => by
        show (table.hashLinks.unlink c).Chained none ((chain idx).erase c) none
        by_cases home : hashes.connectionHash (table.conns c).tuple = idx
        · exact (coherent.chainLinked idx).unlink (coherent.chainNodup idx)
            ((coherent.mem_chain idx c).mpr ⟨mem, home⟩)
        · have notIn : c ∉ chain idx :=
            fun inChain => home ((coherent.mem_chain idx c).mp inChain).2
          rw [List.erase_of_not_mem notIn]
          refine (coherent.chainLinked _).unlink_frame ((coherent.mem_chain _ c).mpr ⟨mem, rfl⟩)
            (coherent.chainNodup _) (coherent.chainLinked idx) ?_
          intro other inChain inHome
          have one := ((coherent.mem_chain _ other).mp inChain).2
          have two := ((coherent.mem_chain _ other).mp inHome).2
          exact home (two.symm.trans one)
      chainNodup := fun idx => (coherent.chainNodup idx).erase c
      mem_chain := fun idx other => by
        show _ ↔ other ∈ members.erase c ∧ hashes.connectionHash (table.conns other).tuple = idx
        rw [(coherent.chainNodup idx).mem_erase_iff, coherent.mem_chain, mem_without]
        tauto
      tuples := fun one memOne two memTwo same =>
        coherent.tuples one ((mem_without one).mp memOne).1 two ((mem_without two).mp memTwo).1 same
      owned := by
        show ((members.erase c).flatMap table.cmsOf).Nodup
        rw [without, List.flatMap_append]
        refine List.nodup_append.mpr ⟨ownedFront, ownedBack, ?_⟩
        exact fun one inFront two inBack =>
          apartFront one inFront two (List.mem_append_right _ inBack)
      bucketNodup := fun idx => ((coherent.bucketNodup idx).erase _).erase _
      mem_bucket := fun idx cm => by
        show cm ∈ ((table.connMatchHash idx).erase (table.conns c).replyMatch).erase
            (table.conns c).originalMatch ↔
          cm ∈ (members.erase c).flatMap table.cmsOf ∧
            hashes.connectionMatchHash (table.cms cm).key = idx
        rw [((coherent.bucketNodup idx).erase _).mem_erase_iff,
          (coherent.bucketNodup idx).mem_erase_iff, coherent.mem_bucket, mem_owned, Table.cmsOf,
          List.mem_cons, List.mem_singleton]
        tauto
      cursor := fun other isCursor => by
        replace isCursor : (if table.wcNext = some c then (table.allLinks.unlink c).next c
          else table.wcNext) = some other := isCursor
        split at isCursor
        · rw [sameNext] at isCursor
          rw [without]
          exact List.mem_append_right _ (List.mem_of_head? isCursor)
        · next notC =>
            refine (mem_without other).mpr ⟨coherent.cursor other isCursor, ?_⟩
            exact fun same => notC (by rw [isCursor, same])
      kept := fun other memOther => coherent.kept other ((mem_without other).mp memOther).1 }

/-- **Removing a member takes it, and nothing else, out of all the tables.** -/
theorem Coherent.removeConnection {members : List Ptr} {chain : BitVec 32 → List Ptr} {c : Ptr}
    (coherent : Coherent hashes table members chain) (mem : c ∈ members) :
    (table.removeConnection hashes c).1 = true ∧
      Coherent hashes (table.removeConnection hashes c).2 (members.erase c)
        (fun idx => (chain idx).erase c) := by
  rw [Table.removeConnection_eq c (coherent.kept c mem)]
  refine ⟨rfl, ?_⟩
  have detached := coherent.detach mem
  refine detached.congr ⟨rfl, rfl, rfl, rfl, rfl⟩ ?_ (fun _ _ => rfl) detached.cursor
  intro other memOther
  have ne : other ≠ c := (coherent.nodup.mem_erase_iff.mp memOther).1
  have same :
    ((table.detach hashes c).modifyConn c fun x => { x with removed := true }).conns other =
      (table.detach hashes c).conns other := Function.update_of_ne ne _ _
  rw [same]
  exact Connection.SamePlace.rfl

/-- A second removal finds the flag set and does nothing. -/
theorem Table.removeConnection_again (c : Ptr) (removed : (table.conns c).removed = true) :
    table.removeConnection hashes c = (false, table) := by
  rw [Table.removeConnection, if_pos removed]

end Qsdk.Sfe
