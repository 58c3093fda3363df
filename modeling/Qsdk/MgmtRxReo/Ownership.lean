/-
**Who owns a list entry and a pdev reference.**

`Owned` is what a thread holds at a point of its program: references on pdevs and allocated
entries. `ownership` is the protocol that follows it through every call. The heap and the reference
counts of a pdev are then, in every run, what the list owns, what the threads own, and what nobody
owns any more (`leaked`): each time a frame is found stale under `list_lock`, after its entry was
prepared, one entry and one reference are left behind.

`conserved_iff` says exactly when the entries and references are conserved: when no host-consumed
frame was found stale. `staleFrame_leaks` is a run in which one was.
-/

import Qsdk.MgmtRxReo.ReleaseOrder
import Mathlib.Data.Multiset.AddSub
import Mathlib.Data.Multiset.MapFold
import Mathlib.Algebra.BigOperators.Group.Finset.Basic
import Mathlib.Tactic.Abel

namespace Qsdk.MgmtRxReo

variable {Buf E : Type}

/-! ### What a thread owns -/

/-- References on pdevs and allocated entries. -/
@[ext] structure Owned where
  refs : Link → Int
  addresses : Multiset Nat

/-- Nothing is owned. -/
def Owned.none : Owned := ⟨fun _ => 0, 0⟩

/-- References are taken or given back. -/
def Owned.addRefs (owned : Owned) (pdev : Link) (delta : Int) : Owned where
  refs := fun link => owned.refs link + if link = pdev then delta else 0
  addresses := owned.addresses

/-- An entry is allocated. -/
def Owned.addEntry (owned : Owned) (address : Nat) : Owned :=
  ⟨owned.refs, address ::ₘ owned.addresses⟩

/-- An entry is freed or handed on. -/
def Owned.dropEntry (owned : Owned) (address : Nat) : Owned :=
  ⟨owned.refs, owned.addresses.erase address⟩

@[simp] theorem addRefs_cancel (owned : Owned) (pdev : Link) :
    (owned.addRefs pdev 1).addRefs pdev (-1) = owned := by
  ext1
  · funext link
    show owned.refs link + (if link = pdev then 1 else 0) + (if link = pdev then -1 else 0) =
      owned.refs link
    split <;> omega
  · rfl

@[simp] theorem addEntry_dropEntry (owned : Owned) (address : Nat) :
    (owned.addEntry address).dropEntry address = owned := by
  ext1
  · rfl
  · exact Multiset.erase_cons_head _ _

@[simp] theorem addEntry_addRefs (owned : Owned) (address : Nat) (pdev : Link) (delta : Int) :
    (owned.addEntry address).addRefs pdev delta = (owned.addRefs pdev delta).addEntry address := rfl

/-- What two owners own together. -/
def Owned.add (one two : Owned) : Owned :=
  ⟨fun link => one.refs link + two.refs link, one.addresses + two.addresses⟩

theorem owned_add_comm (one two : Owned) : one.add two = two.add one := by
  ext1
  · funext link
    exact Int.add_comm _ _
  · exact Multiset.add_comm _ _

/-- What an entry stands for: itself and a reference on its pdev. -/
def Owned.addListEntry (owned : Owned) (entry : ListEntry Buf) : Owned :=
  (owned.addRefs entry.pdev 1).addEntry entry.address

/-- What the thread owns after a call. -/
def ownedAfter : (op : HostOp Buf) → op.Res → Owned → Owned
  | .getPdevFromLinkId link, true, owned => owned.addRefs link 1
  | .releasePdevRef pdev, _, owned => owned.addRefs pdev (-1)
  | .malloc, some address, owned => owned.addEntry address
  | .free address, _, owned => owned.dropEntry address
  | .updateList _ (some entry), _, owned =>
    (owned.dropEntry entry.address).addRefs entry.pdev (-1)
  | .releaseFirst, some (some entry), owned => owned.addListEntry entry
  | _, _, owned => owned

/-- Only what is owned may be freed or handed to the list. -/
def mayCall (op : HostOp Buf) (owned : Owned) : Prop :=
  match op with
  | .free address => address ∈ owned.addresses
  | .updateList _ (some entry) => entry.address ∈ owned.addresses
  | _ => True

/-- The contract of every thread: nobody else touches what it owns. -/
def ownershipContract (Buf E : Type) : Contract (HostOp Buf) HostOp.Res (Owned × World Buf E) where
  rely := fun before later => later.1 = before.1
  pre := fun op state => mayCall op state.1
  post := fun op state res after => after.1 = ownedAfter op res state.1
  rely_trans := fun one two => two.trans one
  rely_settled := fun _ => rfl

/-- A program that owns the same when it returns as when it started, plus what its value stands
for. An assertion does not return. -/
def Balanced {A : Type} (program : HostProg Buf A) (gained : A → Owned → Owned) : Prop :=
  ∀ (E : Type) (owned : Owned) (world : World Buf E),
    program.wp (ownershipContract Buf E) (fun value last => last.1 = gained value owned)
      (fun stop last => stop ≠ .assertion → last.1 = owned) (owned, world)

section Balanced

variable {A B : Type}

theorem balanced_done (value : A) : Balanced (pure value : HostProg Buf A) fun _ owned => owned :=
  fun _ _ _ => Prog.wp_done fun _ same => same

/-- Sequencing, where the second program uses up what the first one gained. -/
theorem Balanced.bind {first : HostProg Buf A} {next : A → HostProg Buf B}
    {gained : A → Owned → Owned} (balanced : Balanced first gained)
    (rest : ∀ value, ∀ (E : Type) (owned : Owned) (world : World Buf E),
      (next value).wp (ownershipContract Buf E) (fun _ last => last.1 = owned)
        (fun stop last => stop ≠ .assertion → last.1 = owned) (gained value owned, world)) :
    Balanced (first >>= next) fun _ owned => owned := by
  intro E owned world
  refine Prog.wp_bind _ (balanced E owned world) fun value later isGained _ => ?_
  obtain ⟨owned', world'⟩ := later
  obtain rfl : owned' = gained value owned := isGained
  exact rest value E owned world'

/-- One call. -/
theorem wp_ownedCall {op : HostOp Buf} {next : op.Res → HostProg Buf A}
    {Good : A → Owned × World Buf E → Prop} {Bad : Stop → Owned × World Buf E → Prop}
    {owned : Owned} {world : World Buf E} (allowed : mayCall op owned)
    (rest : ∀ res world', (next res).wp (ownershipContract Buf E) Good Bad
      (ownedAfter op res owned, world')) :
    (perform op >>= next).wp (ownershipContract Buf E) Good Bad (owned, world) := by
  refine Prog.wp_call fun later same => ?_
  obtain ⟨owned', world'⟩ := later
  obtain rfl : owned' = owned := same
  refine ⟨allowed, fun res after isAfter => ?_⟩
  obtain ⟨ownedAfter', world''⟩ := after
  obtain rfl : ownedAfter' = ownedAfter op res owned' := isAfter
  exact rest res world''

/-- One call, as the last step. -/
theorem wp_ownedPerform {op : HostOp Buf} {owned : Owned} {world : World Buf E} {last : Owned}
    (allowed : mayCall op owned) (returned : ∀ res, ownedAfter op res owned = last) :
    (perform op).wp (ownershipContract Buf E) (fun _ state => state.1 = last)
      (fun stop state => stop ≠ .assertion → state.1 = last) (owned, world) := by
  intro later same
  obtain ⟨owned', world'⟩ := later
  obtain rfl : owned' = owned := same
  refine ⟨allowed, fun res after isAfter final isFinal => ?_⟩
  exact Eq.trans isFinal (Eq.trans isAfter (returned res))

end Balanced

/-! ### The programs -/

/-- A snapshot that cannot be read gives back the reference on its link. -/
theorem readSharedSnapshot_owned {owned : Owned} {world : World Buf E} (link : Link)
    (id : SnapshotId) :
    (readSharedSnapshot link id).wp (ownershipContract Buf E)
      (fun _ last => last.1 = owned.addRefs link 1)
      (fun stop last => stop ≠ .assertion → last.1 = owned) (owned.addRefs link 1, world) := by
  refine wp_ownedCall trivial fun res world' => ?_
  cases res with
  | ok params => exact Prog.wp_done fun _ same => same
  | error status =>
    refine wp_ownedCall trivial fun _ _ => Prog.wp_stop fun last same _ => ?_
    exact same.trans (addRefs_cancel owned link)

theorem calculateLinkWaitCount_balanced (inFrameLink : Link) (inFrameTs : BitVec 32)
    (count : WaitCount) (link : Link) :
    Balanced (calculateLinkWaitCount inFrameLink inFrameTs count link : HostProg Buf WaitCount)
      fun _ owned => owned := by
  intro E owned world
  have returned {last : Owned × World Buf E}
      (same : last.1 = (owned.addRefs link 1).addRefs link (-1)) : last.1 = owned :=
    same.trans (addRefs_cancel owned link)
  unfold calculateLinkWaitCount
  split
  · exact Prog.wp_done fun _ same => same
  refine wp_ownedCall trivial fun found _ => ?_
  cases found with
  | false => exact Prog.wp_stop fun _ same _ => same
  | true =>
    refine wp_ownedCall trivial fun context _ => ?_
    cases context with
    | none =>
      exact wp_ownedCall trivial fun _ _ => Prog.wp_stop fun _ same _ => returned same
    | some hostSs =>
      unfold calculateAtLink
      dsimp only
      split
      · exact wp_ownedCall trivial fun _ _ => Prog.wp_done fun _ same => returned same
      refine Prog.wp_bind _ (readSharedSnapshot_owned link _) fun macHwSs one same _ => ?_
      obtain ⟨_, _⟩ := one
      obtain rfl := same
      refine Prog.wp_bind _ (readSharedSnapshot_owned link _) fun fwConsumedSs two same _ => ?_
      obtain ⟨_, _⟩ := two
      obtain rfl := same
      refine Prog.wp_bind _ (readSharedSnapshot_owned link _) fun fwForwardedSs three same _ => ?_
      obtain ⟨_, _⟩ := three
      obtain rfl := same
      refine wp_ownedCall trivial fun _ _ => ?_
      split
      · exact Prog.wp_done fun _ same => returned same
      · split
        · exact Prog.wp_stop fun _ same _ => returned same
        · exact Prog.wp_done fun _ same => returned same

theorem calculateWaitCountLoop_balanced (inFrameLink : Link) (inFrameTs : BitVec 32) :
    ∀ (links : List Link) (count : WaitCount),
      Balanced (calculateWaitCountLoop inFrameLink inFrameTs links count : HostProg Buf WaitCount)
        fun _ owned => owned
  | [], count => balanced_done count
  | link :: rest, count =>
    (calculateLinkWaitCount_balanced inFrameLink inFrameTs count link).bind fun count =>
      calculateWaitCountLoop_balanced inFrameLink inFrameTs rest count

/-- What a prepared entry stands for. -/
def prepared : Except QdfStatus (ListEntry Buf) → Owned → Owned
  | .ok entry, owned => owned.addListEntry entry
  | .error _, owned => owned

theorem prepareListEntry_balanced (desc : FrameDescriptor Buf) :
    Balanced (prepareListEntry desc) prepared := by
  intro E owned world
  refine wp_ownedCall trivial fun found _ => ?_
  cases found with
  | false => exact Prog.wp_done fun _ same => same
  | true =>
    refine wp_ownedCall trivial fun address _ => ?_
    cases address with
    | none =>
      refine wp_ownedCall trivial fun _ _ => Prog.wp_done fun _ same => ?_
      exact same.trans (addRefs_cancel owned _)
    | some address => exact Prog.wp_done fun _ same => same

theorem updateListProg_balanced (desc : FrameDescriptor Buf) :
    Balanced (updateListProg desc) fun _ owned => owned := by
  unfold updateListProg
  by_cases isHost : desc.type = .hostConsumed
  · rw [if_pos isHost]
    refine (prepareListEntry_balanced desc).bind fun result E owned world => ?_
    cases result with
    | error status => exact Prog.wp_stop fun _ same _ => same
    | ok entry =>
      refine wp_ownedPerform ?_ fun res => ?_
      · exact Multiset.mem_cons_self _ _
      · show ((owned.addListEntry entry).dropEntry entry.address).addRefs entry.pdev (-1) = owned
        rw [Owned.addListEntry, addEntry_dropEntry, addRefs_cancel]
  · rw [if_neg isHost]
    intro E owned world
    exact wp_ownedPerform trivial fun _ => rfl

/-- **The algorithm gives back everything it takes**, or hands it to the list. -/
theorem algoEntry_balanced (numMloLinks : Nat) (pdev : Link) (desc : FrameDescriptor Buf) :
    Balanced (algoEntry numMloLinks pdev desc) fun _ owned => owned := by
  intro E owned world
  refine wp_ownedCall trivial fun updated _ => ?_
  cases updated with
  | error stop => exact Prog.wp_stop fun _ same _ => same
  | ok _ =>
    refine (calculateWaitCountLoop_balanced pdev desc.params.globalTimestamp
      (mloLinks numMloLinks) desc.waitCount).bind (fun waitCount => ?_) E owned _
    exact (updateListProg_balanced _).bind fun _ _ _ _ => Prog.wp_done fun _ same => same

/-- **A round of the release loop gives back what it takes off the list.** -/
theorem releaseEntries_balanced : Balanced (releaseEntries : HostProg Buf Bool) fun _ owned =>
    owned := by
  intro E owned world
  refine wp_ownedCall trivial fun round _ => ?_
  cases round with
  | none => exact Prog.wp_stop fun _ _ returns => absurd rfl returns
  | some released =>
    cases released with
    | none => exact Prog.wp_done fun _ same => same
    | some entry =>
      dsimp only
      split
      · exact Prog.wp_stop fun _ _ returns => absurd rfl returns
      refine wp_ownedCall trivial fun _ _ => ?_
      refine wp_ownedCall trivial fun _ _ => ?_
      refine wp_ownedCall ?_ fun _ _ => Prog.wp_done fun _ same => same.trans ?_
      · exact Multiset.mem_cons_self _ _
      · show ((owned.addListEntry entry).addRefs entry.pdev (-1)).dropEntry entry.address = owned
        rw [Owned.addListEntry, addEntry_addRefs, addRefs_cancel, addEntry_dropEntry]

/-! ### Where the entries and references are -/

/-- The call finds a host-consumed frame stale under `list_lock`, after its entry was prepared. -/
def findsStale (host : Host Buf) : HostOp Buf → Bool
  | .updateList desc (some _) =>
    isStaleFrame host.reoList.tsLastReleasedFrame desc.params.globalTimestamp
  | _ => false

/-- The step takes the exit for a stale host-consumed frame. -/
def takesStaleExit : World Buf E × HostLabel Buf → Bool
  | (world, .call _ op _) => findsStale world.host op
  | _ => false

/-- What a call adds to what nobody owns: the entry of a stale frame, and its reference. -/
def leakedBy (host : Host Buf) : HostOp Buf → Owned → Owned
  | .updateList desc (some entry), rest =>
    if findsStale host (.updateList desc (some entry)) then rest.addListEntry entry else rest
  | _, rest => rest

/-- What nobody owns any more. -/
def leaked : List (World Buf E × HostLabel Buf) → Owned
  | [] => .none
  | (world, .call _ op _) :: history => leakedBy world.host op (leaked history)
  | _ :: history => leaked history

/-- What the entries of the list stand for. -/
def listOwned (list : List (ListEntry Buf)) : Owned where
  refs := fun link => (list.map (·.pdev)).count link
  addresses := list.map (·.address)

/-- The heap and the references are what the list, `rest` and `own` account for. -/
structure Accounted (host : Host Buf) (rest own : Owned) : Prop where
  heap : (host.heap : Multiset Nat) =
    (listOwned host.reoList.list).addresses + rest.addresses + own.addresses
  refs : ∀ link, host.pdevRefs link =
    (listOwned host.reoList.list).refs link + rest.refs link + own.refs link

theorem listOwned_updateList (numMloLinks : Nat) (reoList : ReoList Buf)
    (desc : FrameDescriptor Buf) (newEntry : Option (ListEntry Buf)) (now : BitVec 64) :
    (listOwned (updateList numMloLinks reoList desc newEntry now).1.list).addresses =
        (listOwned reoList.list).addresses +
          (listOwned (queuedEntry numMloLinks reoList desc newEntry now).toList).addresses ∧
      ∀ link, (listOwned (updateList numMloLinks reoList desc newEntry now).1.list).refs link =
        (listOwned reoList.list).refs link +
          (listOwned (queuedEntry numMloLinks reoList desc newEntry now).toList).refs link := by
  refine ⟨?_, fun link => ?_⟩
  · have moved := updateList_map (·.address) numMloLinks (fun _ _ _ => rfl) reoList desc
      newEntry now
    exact (Multiset.coe_eq_coe.mpr moved).trans (Multiset.coe_add _ _).symm
  · have moved := updateList_map (·.pdev) numMloLinks (fun _ _ _ => rfl) reoList desc
      newEntry now
    show ((List.count link _ : Nat) : Int) = (List.count link _ : Nat) + (List.count link _ : Nat)
    rw [moved.count_eq, List.count_append]
    push_cast
    rfl

/-- The queued entry stands for what the prepared one does. -/
theorem listOwned_queuedEntry (numMloLinks : Nat) (reoList : ReoList Buf)
    (desc : FrameDescriptor Buf) (entry : ListEntry Buf) (now : BitVec 64) :
    listOwned (queuedEntry numMloLinks reoList desc (some entry) now).toList =
      if isStaleFrame reoList.tsLastReleasedFrame desc.params.globalTimestamp then Owned.none
      else listOwned [entry] := by
  unfold queuedEntry
  split
  · rfl
  · have address := lowerToLeastGreater_view (·.address) numMloLinks (fun _ _ _ => rfl)
      (reoList.list.dropWhile (notNewer desc)) entry
    have pdev := lowerToLeastGreater_view (·.pdev) numMloLinks (fun _ _ _ => rfl)
      (reoList.list.dropWhile (notNewer desc)) entry
    simp only [Option.map_some, Option.toList_some, listOwned, List.map_cons, List.map_nil,
      address, pdev]

section Calls

variable {numMloLinks : Nat} {host after : Host Buf} {rest own : Owned}

/-- Whatever leaves the list, the heap and the references alone keeps the account. -/
theorem Accounted.congr (accounted : Accounted host rest own)
    (sameList : listOwned after.reoList.list = listOwned host.reoList.list)
    (sameHeap : after.heap = host.heap) (sameRefs : after.pdevRefs = host.pdevRefs) :
    Accounted after rest own where
  heap := by rw [sameHeap, sameList]; exact accounted.heap
  refs := by rw [sameRefs, sameList]; exact accounted.refs

theorem Accounted.addPdevRefs (accounted : Accounted host rest own) (pdev : Link) (delta : Int) :
    Accounted (host.addPdevRefs pdev delta) rest (own.addRefs pdev delta) where
  heap := accounted.heap
  refs := fun link => by
    have before := accounted.refs link
    show Function.update host.pdevRefs pdev (host.pdevRefs pdev + delta) link =
      (listOwned host.reoList.list).refs link + _ +
      (own.refs link + if link = pdev then delta else 0)
    by_cases same : link = pdev
    · subst same
      rw [Function.update_self, if_pos rfl]
      omega
    · rw [Function.update_of_ne same, if_neg same]
      omega

/-- The prepared entry leaves the thread: for the list, or for nobody. -/
theorem Accounted.updateList (accounted : Accounted host rest own) {desc : FrameDescriptor Buf}
    {entry : ListEntry Buf} (allowed : entry.address ∈ own.addresses) (now : BitVec 64) :
    Accounted
      { host with
        reoList := (MgmtRxReo.updateList numMloLinks host.reoList desc (some entry) now).1 }
      (if isStaleFrame host.reoList.tsLastReleasedFrame desc.params.globalTimestamp then
        rest.addListEntry entry else rest)
      ((own.dropEntry entry.address).addRefs entry.pdev (-1)) := by
  obtain ⟨addresses, refs⟩ :=
    listOwned_updateList numMloLinks host.reoList desc (some entry) now
  rw [listOwned_queuedEntry] at addresses
  have returned := Multiset.cons_erase allowed
  refine ⟨?_, fun link => ?_⟩
  · show (host.heap : Multiset Nat) = (listOwned _).addresses + _ +
      own.addresses.erase entry.address
    rw [accounted.heap, addresses]
    conv_lhs => rw [← returned, ← Multiset.singleton_add]
    split
    · show _ = _ + 0 + (entry.address ::ₘ rest.addresses) + _
      rw [← Multiset.singleton_add entry.address rest.addresses]
      abel
    · show _ = _ + {entry.address} + rest.addresses + _
      abel
  · have before := accounted.refs link
    have added := refs link
    rw [listOwned_queuedEntry] at added
    show host.pdevRefs link = (listOwned _).refs link + _ +
      (own.refs link + if link = entry.pdev then -1 else 0)
    rw [added, before]
    split
    · show _ = _ + 0 + (rest.refs link + if link = entry.pdev then 1 else 0) + _
      split <;> omega
    · have single : (listOwned [entry]).refs link = if link = entry.pdev then 1 else 0 := by
        show ((List.count link [entry.pdev] : Nat) : Int) = _
        rw [List.count_singleton]
        by_cases same : link = entry.pdev
        · simp [same]
        · simp [same, Ne.symm same]
      rw [single]
      split <;> omega

/-- A released entry leaves the list for the thread. -/
theorem Accounted.releaseFirst (accounted : Accounted host rest own) {reoList : ReoList Buf}
    {released : Option (ListEntry Buf)}
    (round : MgmtRxReo.releaseFirst host.reoList = some (reoList, released)) :
    Accounted { host with reoList := reoList } rest
      (ownedAfter .releaseFirst (some released) own) := by
  rcases releaseFirst_cases round with ⟨rfl, rfl⟩ | ⟨first, tail, isList, -, -, rfl, rfl⟩
  · exact accounted
  · have address := markMaxSize_view (·.address) (fun _ _ => rfl) host.reoList first
    have pdev := markMaxSize_view (·.pdev) (fun _ _ => rfl) host.reoList first
    have heap := accounted.heap
    have refs := accounted.refs
    rw [isList] at heap refs
    refine ⟨?_, fun link => ?_⟩
    · show (host.heap : Multiset Nat) = (listOwned tail).addresses + rest.addresses +
        ((host.reoList.markMaxSize first).address ::ₘ own.addresses)
      rw [heap, address, ← Multiset.singleton_add first.address own.addresses]
      show (((first :: tail).map (·.address) : List Nat) : Multiset Nat) + _ + _ = _
      rw [List.map_cons, ← Multiset.cons_coe, ← Multiset.singleton_add]
      show _ = ((tail.map (·.address) : List Nat) : Multiset Nat) + _ + _
      abel
    · have before := refs link
      show host.pdevRefs link = (listOwned tail).refs link + rest.refs link +
        (own.refs link + if link = (host.reoList.markMaxSize first).pdev then 1 else 0)
      rw [before, pdev]
      show ((List.count link ((first :: tail).map (·.pdev)) : Nat) : Int) + _ + _ =
        ((List.count link (tail.map (·.pdev)) : Nat) : Int) + _ + _
      rw [List.map_cons, List.count_cons]
      by_cases same : link = first.pdev
      · rw [if_pos same, if_pos (by simp [same])]
        push_cast
        omega
      · rw [if_neg same, if_neg (by simp [Ne.symm same])]
        push_cast
        omega

/-- **Every call keeps the account**: what the thread owns, and what leaks, follow the call. -/
theorem Accounted.call (accounted : Accounted host rest own) {op : HostOp Buf} {res : op.Res}
    (allowed : mayCall op own) (effect : Effect numMloLinks op host res after) :
    Accounted after (leakedBy host op rest) (ownedAfter op res own) := by
  cases op with
  | updateHostSnapshot pdev params =>
    dsimp only [Effect] at effect
    cases isUpdated : updateHostSnapshot host pdev params with
    | error stop =>
      rw [isUpdated] at effect
      obtain ⟨-, rfl⟩ := effect
      exact accounted
    | ok updated =>
      rw [isUpdated] at effect
      obtain ⟨-, rfl⟩ := effect
      obtain ⟨-, -, rfl⟩ := updateHostSnapshot_ok isUpdated
      exact accounted.congr rfl rfl rfl
  | getPrivObject pdev =>
    obtain ⟨-, rfl⟩ := effect
    exact accounted
  | getPdevFromLinkId link =>
    rcases effect with ⟨rfl, rfl⟩ | ⟨rfl, rfl⟩
    · exact accounted.addPdevRefs link 1
    · exact accounted
  | releasePdevRef pdev =>
    obtain rfl : after = _ := effect
    exact accounted.addPdevRefs pdev (-1)
  | readSnapshot pdev id =>
    obtain rfl : after = _ := effect
    exact accounted
  | malloc =>
    rcases effect with ⟨address, -, rfl, rfl⟩ | ⟨rfl, rfl⟩
    · refine ⟨?_, accounted.refs⟩
      show ((address :: host.heap : List Nat) : Multiset Nat) =
        _ + _ + (address ::ₘ own.addresses)
      rw [← Multiset.cons_coe, accounted.heap, Multiset.add_cons]
      rfl
    · exact accounted
  | free address =>
    obtain rfl : after = _ := effect
    refine ⟨?_, accounted.refs⟩
    show ((host.heap.erase address : List Nat) : Multiset Nat) =
      _ + _ + own.addresses.erase address
    rw [← Multiset.coe_erase, accounted.heap, Multiset.erase_add_right_pos _ allowed]
    rfl
  | updateList desc newEntry =>
    obtain ⟨now, -, rfl⟩ := effect
    cases newEntry with
    | none =>
      refine accounted.congr ?_ rfl rfl
      obtain ⟨addresses, refs⟩ := listOwned_updateList numMloLinks host.reoList desc none now
      have nothing : queuedEntry numMloLinks host.reoList desc none now = none := by
        unfold queuedEntry
        split <;> rfl
      rw [nothing] at addresses refs
      ext1
      · funext link
        exact (refs link).trans (add_zero _)
      · exact addresses.trans (add_zero _)
    | some entry => exact accounted.updateList allowed now
  | releaseFirst =>
    dsimp only [Effect] at effect
    cases round : MgmtRxReo.releaseFirst host.reoList with
    | none =>
      rw [round] at effect
      obtain ⟨rfl, rfl⟩ := effect
      exact accounted
    | some outcome =>
      rw [round] at effect
      obtain ⟨rfl, rfl⟩ := effect
      exact accounted.releaseFirst round
  | processRxFrame entry reason =>
    obtain rfl : after = _ := effect
    exact accounted.congr rfl rfl rfl

end Calls

/-- What the other thread owns may be counted with the leak. -/
theorem accounted_add {host : Host Buf} {rest own other : Owned} :
    Accounted host rest (own.add other) ↔ Accounted host (rest.add other) own := by
  constructor
  · rintro ⟨heap, refs⟩
    refine ⟨heap.trans ?_, fun link => (refs link).trans ?_⟩
    · show _ + _ + (own.addresses + other.addresses) = _ + (rest.addresses + other.addresses) + _
      abel
    · show _ + _ + (own.refs link + other.refs link) = _ + (rest.refs link + other.refs link) + _
      omega
  · rintro ⟨heap, refs⟩
    refine ⟨heap.trans ?_, fun link => (refs link).trans ?_⟩
    · show _ + (rest.addresses + other.addresses) + _ = _ + _ + (own.addresses + other.addresses)
      abel
    · show _ + (rest.refs link + other.refs link) + _ = _ + _ + (own.refs link + other.refs link)
      omega

theorem leakedBy_add (host : Host Buf) (op : HostOp Buf) (rest other : Owned) :
    leakedBy host op (rest.add other) = (leakedBy host op rest).add other := by
  unfold leakedBy
  split
  · split
    · ext1
      · funext link
        show rest.refs link + other.refs link + _ = rest.refs link + _ + other.refs link
        omega
      · exact (Multiset.cons_add _ _ _).symm
    · rfl
  · rfl

theorem card_leakedBy (host : Host Buf) (op : HostOp Buf) (rest : Owned) :
    (leakedBy host op rest).addresses.card =
      rest.addresses.card + if findsStale host op then 1 else 0 := by
  cases op with
  | updateList desc newEntry =>
    cases newEntry with
    | none => rfl
    | some entry =>
      dsimp only [leakedBy]
      by_cases stale : findsStale host (.updateList desc (some entry)) = true
      · rw [if_pos stale, if_pos stale]
        exact Multiset.card_cons _ _
      · rw [if_neg stale, if_neg stale]
        rfl
  | _ => rfl

theorem leakedBy_of_not_stale {host : Host Buf} {op : HostOp Buf}
    (notStale : findsStale host op = false) (rest : Owned) : leakedBy host op rest = rest := by
  unfold leakedBy
  split
  · rw [notStale]
    rfl
  · rfl

/-- One entry is lost for each time the exit is taken. -/
theorem card_leaked (history : List (World Buf E × HostLabel Buf)) :
    (leaked history).addresses.card = history.countP takesStaleExit := by
  induction history with
  | nil => rfl
  | cons event history ih =>
    rw [List.countP_cons]
    obtain ⟨world, label⟩ := event
    cases label with
    | call tid op res =>
      show (leakedBy world.host op (leaked history)).addresses.card = _
      rw [card_leakedBy, ih]
      rfl
    | start tid program => exact ih
    | finish tid => exact ih
    | env => exact ih

theorem leaked_of_no_stale {history : List (World Buf E × HostLabel Buf)}
    (noStale : ∀ event ∈ history, takesStaleExit event = false) : leaked history = .none := by
  induction history with
  | nil => rfl
  | cons event history ih =>
    have here := noStale event List.mem_cons_self
    have before := ih fun other member => noStale other (List.mem_cons_of_mem _ member)
    obtain ⟨world, label⟩ := event
    cases label with
    | call tid op res => exact (leakedBy_of_not_stale here _).trans before
    | start tid program => exact before
    | finish tid => exact before
    | env => exact before

/-! ### Every run -/

/-- The protocol of the ownership. -/
def ownership (environment : Environment Buf E) (numMloLinks : Nat) :
    Protocol (system environment numMloLinks) Owned where
  contract := fun _ => ownershipContract Buf E
  inv := fun history ghosts world =>
    Accounted world.host (leaked history) ((ghosts .algoEntry).add (ghosts .frameRelease))
  idle := fun _ state => state.1 = .none
  ended := fun _ state => state.1 = .none
  bad := fun _ stop state => stop ≠ .assertion → state.1 = .none

theorem ownership_valid (environment : Environment Buf E) (numMloLinks : Nat) :
    (ownership environment numMloLinks).Valid where
  settled := fun _ _ => rfl
  idle_rely := fun same idle => Eq.trans same idle
  ended_of_bad := fun returns bad => by
    obtain ⟨status, rfl⟩ := returns
    exact bad (by simp)
  init := fun {world} initial => by
    obtain ⟨-, privObject, isInit⟩ := initial
    refine ⟨fun _ => .none, ?_, fun _ => rfl⟩
    show Accounted world.host _ _
    rw [isInit]
    exact ⟨rfl, fun _ => rfl⟩
  start := fun {history ghosts world tid program after} inv idle started => by
    obtain ⟨sameHost, started⟩ := started
    have idle : ghosts tid = .none := idle
    refine ⟨ghosts tid, ?_, ?_, fun _ _ => rfl⟩
    · rw [Function.update_eq_self]
      show Accounted after.host _ _
      rw [sameHost]
      exact inv
    · rw [idle]
      cases tid with
      | algoEntry =>
        obtain ⟨pdev, type, nbuf, params, -, rfl⟩ := started
        exact algoEntry_balanced numMloLinks pdev _ E .none after
      | frameRelease =>
        obtain ⟨-, rfl⟩ := started
        exact releaseEntries_balanced E .none after
  call := fun {history ghosts world tid op res after} inv pre effect => by
    obtain ⟨-, effect, -⟩ := effect
    have inv : Accounted world.host (leaked history)
      ((ghosts .algoEntry).add (ghosts .frameRelease)) := inv
    refine ⟨ownedAfter op res (ghosts tid), ?_, rfl, fun _ _ => rfl⟩
    show Accounted after.host (leakedBy world.host op (leaked history)) _
    cases tid with
    | algoEntry =>
      have called := (accounted_add.mp inv).call pre effect
      rw [leakedBy_add] at called
      exact accounted_add.mpr called
    | frameRelease =>
      rw [owned_add_comm] at inv
      have called := (accounted_add.mp inv).call pre effect
      rw [leakedBy_add] at called
      have called := accounted_add.mpr called
      rw [owned_add_comm] at called
      exact called
  finish := fun {history ghosts world tid} inv ended =>
    ⟨ghosts tid, by rw [Function.update_eq_self]; exact inv, ended⟩
  env := fun {history ghosts world after} inv moved => by
    refine ⟨?_, fun _ => rfl⟩
    have inv : Accounted world.host (leaked history)
      ((ghosts .algoEntry).add (ghosts .frameRelease)) := inv
    show Accounted after.host (leaked history) _
    rcases moved with ⟨sameHost, -⟩ | ⟨now, isAged, -⟩
    · rw [sameHost]
      exact inv
    · rw [isAged]
      refine inv.congr ?_ rfl rfl
      show listOwned (ageoutEntries _ _ _) = _
      unfold listOwned
      rw [ageoutEntries_map (·.pdev) _ _ fun _ _ => rfl,
        ageoutEntries_map (·.address) _ _ fun _ _ => rfl]

/-- The entries allocated and not freed are the entries of the list, and there are as many
references as entries in the list. -/
def Conserved (host : Host Buf) : Prop :=
  host.heap.Perm (host.reoList.list.map (·.address)) ∧
    ∑ pdev, host.pdevRefs pdev = host.reoList.list.length

/-- **Entries and references are conserved exactly in the runs in which no host-consumed frame is
found stale.** -/
theorem conserved_iff (environment : Environment Buf E) (numMloLinks : Nat)
    {history : List (World Buf E × HostLabel Buf)} {machine : Machine Buf E}
    (run : (system environment numMloLinks).Run history machine) (quiescent : machine.Quiescent) :
    Conserved machine.state.host ↔ ∀ event ∈ history, takesStaleExit event = false := by
  obtain ⟨ghosts, inv, threads⟩ := (ownership_valid environment numMloLinks).holds run
  have nothing : ∀ lock, ghosts lock = .none := by
    intro lock
    have thread := threads lock
    rw [quiescent lock] at thread
    exact thread
  obtain ⟨heap, refs⟩ : Accounted machine.state.host (leaked history)
    ((ghosts .algoEntry).add (ghosts .frameRelease)) := inv
  rw [nothing, nothing] at heap refs
  constructor
  · rintro ⟨sameHeap, -⟩
    have noLeak : (leaked history).addresses.card = 0 := by
      have sizes := congrArg Multiset.card (heap.symm.trans (Multiset.coe_eq_coe.mpr sameHeap))
      have listSize : ((listOwned machine.state.host.reoList.list).addresses).card =
        machine.state.host.reoList.list.length := by simp [listOwned]
      simp only [Multiset.card_add, Multiset.coe_card, List.length_map, listSize] at sizes
      omega
    rw [card_leaked, List.countP_eq_zero] at noLeak
    exact fun event member => by simpa using noLeak event member
  · intro noStale
    rw [leaked_of_no_stale noStale] at heap refs
    refine ⟨Multiset.coe_eq_coe.mp (heap.trans ?_), ?_⟩
    · show _ + 0 + (0 + 0) = _
      simp [listOwned]
    · have counts : ∀ pdev, machine.state.host.pdevRefs pdev =
          (((machine.state.host.reoList.list.map (·.pdev) : List Link) : Multiset Link).count pdev :
            Int) := by
        intro pdev
        rw [refs pdev]
        show ((List.count pdev _ : Nat) : Int) + 0 + (0 + 0) = ((Multiset.count pdev _ : Nat) : Int)
        rw [Multiset.coe_count]
        omega
      rw [Finset.sum_congr rfl fun pdev _ => counts pdev, ← Nat.cast_sum,
        Multiset.sum_count_eq_card fun pdev _ => Finset.mem_univ pdev]
      simp

/-! ### A run that leaks -/

section Leak

/-- Two links whose snapshots cannot be read. -/
def noSnapshots : Strategy (system (Environment.any Unit) 2) :=
  hostStrategy (Environment.any Unit) 2 (fun _ _ _ => ⟨false, 0, 0⟩) fun _ _ _ => trivial

/-- A frame enters the algorithm and leaves it again. -/
def enters (link : Link) (params : ReoParams) (machine : Machine Unit Unit) : Machine Unit Unit :=
  (machine.begin .algoEntry (algoEntry 2 link (.fresh .hostConsumed () params))
    machine.state).advances noSnapshots .algoEntry 12

/-- A round of the release loop. -/
def releases (machine : Machine Unit Unit) : Machine Unit Unit :=
  (machine.begin .frameRelease releaseEntries machine.state).advances noSnapshots .frameRelease 6

/-- The ageout timer fires. -/
def ages (now : BitVec 64) (machine : Machine Unit Unit) : Machine Unit Unit :=
  ⟨⟨{ machine.state.host with reoList := ageout machine.state.host.reoList now }, ()⟩,
    machine.running⟩

theorem enters_reachable {machine : Machine Unit Unit} (link : Link) (params : ReoParams)
    (reachable : (system (Environment.any Unit) 2).Reachable machine)
    (free : machine.running .algoEntry = none) :
    (system (Environment.any Unit) 2).Reachable (enters link params machine) :=
  Config.advances_reachable _ _ _ (Config.begin_reachable reachable free
    ⟨rfl, link, .hostConsumed, (), params, trivial, rfl⟩)

theorem releases_reachable {machine : Machine Unit Unit}
    (reachable : (system (Environment.any Unit) 2).Reachable machine)
    (free : machine.running .frameRelease = none) :
    (system (Environment.any Unit) 2).Reachable (releases machine) :=
  Config.advances_reachable _ _ _ (Config.begin_reachable reachable free ⟨rfl, rfl, rfl⟩)

theorem ages_reachable {machine : Machine Unit Unit} (now : BitVec 64)
    (reachable : (system (Environment.any Unit) 2).Reachable machine) :
    (system (Environment.any Unit) 2).Reachable (ages now machine) :=
  reachable.step (.env (Or.inr ⟨now, rfl, rfl⟩))

/-- Before the first frame. -/
def idleMachine : Machine Unit Unit := ⟨⟨Host.init Unit fun _ => true, ()⟩, fun _ => none⟩

theorem idleMachine_reachable : (system (Environment.any Unit) 2).Reachable idleMachine :=
  ⟨[], .init ⟨trivial, _, rfl⟩⟩

/-- A frame of link 0 waits for link 1, whose MAC HW snapshot is invalid, and ages out. -/
def agedOutFrame : Machine Unit Unit :=
  releases (ages 2000000 (enters 0 ⟨true, 0, 1, 10⟩ idleMachine))

/-- Then the older frame of link 1 arrives. -/
def staleFrame : Machine Unit Unit := enters 1 ⟨true, 1, 1, 5⟩ agedOutFrame

theorem agedOutFrame_reachable : (system (Environment.any Unit) 2).Reachable agedOutFrame :=
  releases_reachable (ages_reachable _ (enters_reachable _ _ idleMachine_reachable rfl)) rfl

theorem staleFrame_reachable : (system (Environment.any Unit) 2).Reachable staleFrame :=
  enters_reachable _ _ agedOutFrame_reachable rfl

/-- The entries are conserved before the stale frame, and this is read off the run. -/
theorem conserved_iff_agedOutFrame : ∃ history,
    (system (Environment.any Unit) 2).Run history agedOutFrame ∧ agedOutFrame.Quiescent ∧
      Conserved agedOutFrame.state.host ∧ ∀ event ∈ history, takesStaleExit event = false := by
  obtain ⟨history, run⟩ := agedOutFrame_reachable
  have quiescent : agedOutFrame.Quiescent := fun lock => by cases lock <;> rfl
  have conserved : Conserved agedOutFrame.state.host := ⟨by decide, by decide⟩
  exact ⟨history, run, quiescent, conserved,
    (conserved_iff (Environment.any Unit) 2 run quiescent).mp conserved⟩

/-- **A stale frame leaves an entry and a reference behind**: the list is empty, but one entry is
allocated and one reference is taken. -/
theorem staleFrame_leaks :
    ∃ history, (system (Environment.any Unit) 2).Run history staleFrame ∧ staleFrame.Quiescent ∧
      staleFrame.state.host.reoList.list.length = 0 ∧ staleFrame.state.host.heap.length = 1 ∧
      ∑ pdev, staleFrame.state.host.pdevRefs pdev = 1 ∧ ¬Conserved staleFrame.state.host := by
  obtain ⟨history, run⟩ := staleFrame_reachable
  refine ⟨history, run, fun lock => by cases lock <;> rfl, by decide, by decide, by decide, ?_⟩
  rintro ⟨sameHeap, -⟩
  exact absurd sameHeap.length_eq (by decide)

end Leak

end Qsdk.MgmtRxReo
