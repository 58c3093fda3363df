/-
**Calls on TCP trackers.**

Any number of tracker instances, each with the data of two senders, and the global totals of all
trackers. After any calls the lists of each sender have the same buffers, each once, its counters
are right, no instance is over its limit, and the global totals have grown by the sums over the
instances: `run_conserves`.
-/

import Qsdk.Tracker.TcpData
import Qsdk.Tracker.TcpState
import Mathlib.Algebra.BigOperators.Group.Finset.Basic
import Mathlib.Data.Fintype.Prod

set_option linter.unusedSectionVars false

namespace Qsdk.Tracker

instance : Fintype SenderType where
  elems := {.src, .dest}
  complete sender := by cases sender <;> decide

theorem SenderType.peer_ne (sender : SenderType) : sender.peer ≠ sender := by
    cases sender <;> decide

theorem SenderType.peer_peer (sender : SenderType) : sender.peer.peer = sender := by
    cases sender <;> rfl

variable {Instance : Type} [DecidableEq Instance]

/-- All trackers: the data of each sender of each instance. -/
structure World (Instance : Type) where
  global : Global (Instance × SenderType)
  data : Instance × SenderType → HostData

/-- The data of a sender is changed. -/
def World.put (world : World Instance) (key : Instance × SenderType)
    (result : Global (Instance × SenderType) × HostData) : World Instance where
  global := result.1
  data := Function.update world.data key result.2

theorem World.put_data_self (world : World Instance) (key : Instance × SenderType)
    (result : Global (Instance × SenderType) × HostData) :
        (world.put key result).data key = result.2 :=
  Function.update_self _ _ _

theorem World.put_data_of_ne (world : World Instance) {key other : Instance × SenderType}
    (ne : other ≠ key) (result : Global (Instance × SenderType) × HostData) :
        (world.put key result).data other = world.data other :=
  Function.update_of_ne ne _ _

/-- The global limits, and the limit of each instance, which is an `int` that is not negative. -/
structure Config (Instance : Type) where
  limits : Limits
  dataLimit : Instance → Fin 2147483648

/-- A call on an instance. To add a segment it is cloned first, if there is memory. -/
inductive Call (Instance : Type)
  | segmentAdd (key : Instance × SenderType) (segment : TcpSegment) (skbc : Option SkBuff)
  | bytesDiscard (key : Instance × SenderType) (n : BitVec 32)
  | datagramDiscard (key : Instance × SenderType) (n : Nat)
  | discardAll (ti : Instance)

/-- `skb_clone` returns a buffer that nobody has. -/
def Call.Possible (world : World Instance) : Call Instance → Prop
  | segmentAdd _ _ skbc => ∀ skb ∈ skbc, world.global.owner skb = none
  | _ => True

/-- `ecm_tracker_tcp_segment_add_callback`. -/
def World.segmentAdd (config : Config Instance) (world : World Instance)
    (key : Instance × SenderType) (segment : TcpSegment) (skbc : Option SkBuff) :
        Option (World Instance) :=
  match skbc with
  | none => some world
  | some skbc =>
    if u32 ((world.data (key.1, .src)).recvd.recvdBytesTotal +
      (world.data (key.1, .dest)).recvd.recvdBytesTotal +
        skbc.truesize) > u32 (config.dataLimit key.1).val then some world
    else (Tracker.segmentAdd config.limits key segment skbc world.global (world.data key)).map
      (world.put key)

/-- `ecm_tracker_tcp_discard_all_callback`. -/
def World.discardAll (world : World Instance) (ti : Instance) : Option (World Instance) :=
  match Tracker.discardAll world.global (world.data (ti, .src)) with
  | none => none
  | some result =>
    (Tracker.discardAll (world.put (ti, .src) result).global
      ((world.put (ti, .src) result).data (ti, .dest))).map
      ((world.put (ti, .src) result).put (ti, .dest))

/-- A call. There is no result if it goes through a null pointer, because there is less data than it
discards. -/
def World.step (config : Config Instance) (world : World Instance) : Call Instance →
    Option (World Instance)
  | .segmentAdd key segment skbc => world.segmentAdd config key segment skbc
  | .bytesDiscard key n => (bytesDiscard n world.global (world.data key)).map (world.put key)
  | .datagramDiscard key n => (datagramDiscard n world.global (world.data key)).map (world.put key)
  | .discardAll ti => world.discardAll ti

/-- Calls, one after the other. -/
inductive Run (config : Config Instance) : World Instance → World Instance → Prop
  | refl (world : World Instance) : Run config world world
  | step {start world next : World Instance} (run : Run config start world) (call : Call Instance)
      (possible : call.Possible world) (stepped : world.step config call = some next) :
      Run config start next

/-- No tracker has any data. The global totals are those of the trackers of other protocols. -/
structure Empty (world : World Instance) : Prop where
  owner : ∀ skb, world.global.owner skb = none
  recvd : ∀ key, (world.data key).recvd.Holds []
  space : ∀ key, (world.data key).space.Holds [] []

variable [Fintype Instance]

/-- What is conserved. The lists of each sender have the same buffers, the counters are right, and
the global totals are those at the start with the sums over all senders. -/
structure Conserved (config : Config Instance) (start : World Instance)
    (lists : Instance × SenderType → Lists) (world : World Instance) : Prop where
  recvd : ∀ key, (world.data key).recvd.Holds (lists key).recvd
  space : ∀ key, (world.data key).space.Holds (lists key).inOrder (lists key).future
  perm : ∀ key, (lists key).recvd.Perm ((lists key).inOrder ++ (lists key).future)
  limit : ∀ key, (world.data key).recvd.recvdBytesTotal +
    (world.data (key.1, key.2.peer)).recvd.recvdBytesTotal ≤
    (config.dataLimit key.1).val
  dataTotal : world.global.dataTotal = start.global.dataTotal + ∑ key, lens (lists key).recvd
  dataBufferTotal : world.global.dataBufferTotal = start.global.dataBufferTotal + ∑ key,
    truesizes (lists key).recvd
  owned : ∀ key, ∀ skb ∈ (lists key).recvd, world.global.owner skb = some key

section Conserved

variable {config : Config Instance} {start world : World Instance}
    {lists : Instance × SenderType → Lists}

theorem Empty.conserved (empty : Empty start) : Conserved config start
    (fun _ => ⟨[], [], []⟩) start where
  recvd := empty.recvd
  space := empty.space
  perm := fun _ => List.Perm.refl _
  limit := fun key => by
    rw [(empty.recvd key).recvdBytesTotal, (empty.recvd _).recvdBytesTotal]
    simp [truesizes]
  dataTotal := by simp [lens]
  dataBufferTotal := by simp [truesizes]
  owned := by simp

/-- A sender keeps its own, with what the others have. -/
theorem Conserved.kept (conserved : Conserved config start lists world)
    (key : Instance × SenderType) :
    Kept key (world.global.dataTotal - lens (lists key).recvd)
      (world.global.dataBufferTotal - truesizes (lists key).recvd) [] (lists key) world.global
          (world.data key) where
  recvd := conserved.recvd key
  space := conserved.space key
  perm := conserved.perm key
  dataTotal := by
    rw [List.nil_append]
    omega
  dataBufferTotal := by
    rw [List.nil_append]
    omega
  owned := conserved.owned key

/-- A sum over all senders of which one changes. -/
theorem sum_update (f : Lists → Int) (lists : Instance × SenderType → Lists)
    (key : Instance × SenderType) (lists' : Lists) :
    ∑ other, f (Function.update lists key lists' other) = ∑ other,
        f (lists other) - f (lists key) + f lists' := by
  rw [← Finset.add_sum_erase _ _ (Finset.mem_univ key), ← Finset.add_sum_erase Finset.univ
    _ (Finset.mem_univ key),
    Function.update_self]
  have others : ∑ other ∈ Finset.univ.erase key, f (Function.update lists key lists' other) =
      ∑ other ∈ Finset.univ.erase key, f (lists other) :=
    Finset.sum_congr rfl fun other mem => by rw [Function.update_of_ne (Finset.ne_of_mem_erase mem)]
  omega

/-- **What one sender keeps is conserved for all.** -/
theorem Conserved.put (conserved : Conserved config start lists world) {key : Instance × SenderType}
    {result : Global (Instance × SenderType) × HostData} {lists' : Lists}
    (frame : Frame key world.global result.1)
    (kept : Kept key (world.global.dataTotal - lens (lists key).recvd)
      (world.global.dataBufferTotal - truesizes (lists key).recvd) [] lists' result.1 result.2)
    (limit : truesizes lists'.recvd + (world.data (key.1, key.2.peer)).recvd.recvdBytesTotal ≤
      (config.dataLimit key.1).val) :
    Conserved config start (Function.update lists key lists') (world.put key result) where
  recvd := by
    intro other
    by_cases same : other = key
    · rw [same, World.put_data_self, Function.update_self]
      exact kept.recvd
    · rw [World.put_data_of_ne _ same, Function.update_of_ne same]
      exact conserved.recvd other
  space := by
    intro other
    by_cases same : other = key
    · rw [same, World.put_data_self, Function.update_self]
      exact kept.space
    · rw [World.put_data_of_ne _ same, Function.update_of_ne same]
      exact conserved.space other
  perm := by
    intro other
    by_cases same : other = key
    · rw [same, Function.update_self]
      exact kept.perm
    · rw [Function.update_of_ne same]
      exact conserved.perm other
  limit := by
    intro other
    have notPeer : (key.1, key.2.peer) ≠ key := fun same => key.2.peer_ne (congrArg Prod.snd same)
    by_cases same : other = key
    · rw [same, World.put_data_self, World.put_data_of_ne _ notPeer, kept.recvd.recvdBytesTotal]
      exact limit
    · by_cases isPeer : (other.1, other.2.peer) = key
      · rw [isPeer, World.put_data_self, World.put_data_of_ne _ same, kept.recvd.recvdBytesTotal]
        have peer : (key.1, key.2.peer) = other := by rw [← isPeer, SenderType.peer_peer]
        rw [peer, ← congrArg Prod.fst isPeer] at limit
        rw [Int.add_comm]
        exact limit
      · rw [World.put_data_of_ne _ same, World.put_data_of_ne _ isPeer]
        exact conserved.limit other
  dataTotal := by
    rw [sum_update (fun lists => lens lists.recvd)]
    have total := conserved.dataTotal
    have total' : (world.put key result).global.dataTotal = _ := kept.dataTotal
    rw [total', List.nil_append]
    omega
  dataBufferTotal := by
    rw [sum_update (fun lists => truesizes lists.recvd)]
    have total := conserved.dataBufferTotal
    have total' : (world.put key result).global.dataBufferTotal = _ := kept.dataBufferTotal
    rw [total', List.nil_append]
    omega
  owned := by
    intro other skb mem
    by_cases same : other = key
    · rw [same, Function.update_self] at mem
      rw [same]
      exact kept.owned skb mem
    · rw [Function.update_of_ne same] at mem
      exact frame other same skb (conserved.owned other skb mem)

/-- A call that keeps no more bytes than before conserves. -/
theorem Conserved.put_keeps (conserved : Conserved config start lists world)
    {key : Instance × SenderType} {result : Global (Instance × SenderType) × HostData}
    (keeps : Keeps key (world.global.dataTotal - lens (lists key).recvd)
      (world.global.dataBufferTotal - truesizes (lists key).recvd) []
          (lists key) world.global result) :
    ∃ lists, Conserved config start lists (world.put key result) := by
  obtain ⟨frame, lists', kept, fewer⟩ := keeps
  refine ⟨_, conserved.put frame kept ?_⟩
  have limit := conserved.limit key
  rw [(conserved.recvd key).recvdBytesTotal] at limit
  omega

/-- The check of the instance's limit: nothing wraps around. -/
theorem Conserved.within (conserved : Conserved config start lists world)
    {key : Instance × SenderType} {skb : SkBuff}
    (checked : ¬ u32 ((world.data (key.1, .src)).recvd.recvdBytesTotal +
      (world.data (key.1, .dest)).recvd.recvdBytesTotal + skb.truesize) >
          u32 (config.dataLimit key.1).val) :
    truesizes (lists key).recvd + skb.truesize +
      (world.data (key.1, key.2.peer)).recvd.recvdBytesTotal ≤ (config.dataLimit key.1).val := by
  have limit := conserved.limit key
  have bound := (config.dataLimit key.1).isLt
  have size := skb.truesize_lt
  have nonneg (other : Instance × SenderType) : 0 ≤ (world.data other).recvd.recvdBytesTotal := by
    rw [(conserved.recvd other).recvdBytesTotal]
    exact truesizes_nonneg _
  have first := nonneg key
  have second := nonneg (key.1, key.2.peer)
  rw [← (conserved.recvd key).recvdBytesTotal]
  unfold u32 at checked
  obtain ⟨ti, sender⟩ := key
  cases sender with
  | src =>
    simp only [SenderType.peer] at *
    omega
  | dest =>
    simp only [SenderType.peer] at *
    omega

/-- **Each call conserves.** -/
theorem Conserved.step (conserved : Conserved config start lists world) {call : Call Instance}
    {next : World Instance} (possible : call.Possible world)
    (stepped : world.step config call = some next) :
    ∃ lists, Conserved config start lists next := by
  cases call with
  | segmentAdd key segment skbc =>
    cases skbc with
    | none =>
      cases stepped
      exact ⟨lists, conserved⟩
    | some skbc =>
      simp only [World.step, World.segmentAdd] at stepped
      split at stepped
      · cases stepped
        exact ⟨lists, conserved⟩
      · rename_i checked
        have within := conserved.within checked
        obtain ⟨result, added, frame, lists', kept, more⟩ :=
          segmentAdd_keeps config.limits segment (conserved.kept key) (possible skbc rfl)
        rw [added] at stepped
        cases stepped
        exact ⟨_, conserved.put frame kept (by omega)⟩
  | bytesDiscard key n =>
    obtain ⟨result, discarded, rfl⟩ := Option.map_eq_some_iff.mp stepped
    exact conserved.put_keeps (bytesDiscard_keeps (conserved.kept key) discarded)
  | datagramDiscard key n =>
    obtain ⟨result, discarded, rfl⟩ := Option.map_eq_some_iff.mp stepped
    exact conserved.put_keeps (datagramDiscard_keeps (conserved.kept key) discarded)
  | discardAll ti =>
    simp only [World.step, World.discardAll] at stepped
    split at stepped
    · cases stepped
    · rename_i result discarded
      obtain ⟨_, same, keeps⟩ := discardAll_keeps (conserved.kept (ti, .src))
      rw [discarded] at same
      cases same
      obtain ⟨lists', conserved'⟩ := conserved.put_keeps keeps
      obtain ⟨result', discarded', keeps'⟩ := discardAll_keeps (conserved'.kept (ti, .dest))
      rw [discarded'] at stepped
      cases stepped
      exact conserved'.put_keeps keeps'

/-- What is conserved for a sender without any buffers is nothing. -/
theorem Conserved.nothing (conserved : Conserved config start lists world)
    (key : Instance × SenderType) (none_ : (world.data key).recvd.recvdCount = 0) :
        (lists key).recvd = [] := by
  have count := (conserved.recvd key).recvdCount
  exact List.eq_nil_of_length_eq_zero (by omega)

/-- **After any calls on any number of trackers the accounting is right.** -/
theorem run_conserves (empty : Empty start) (run : Run config start world) :
    ∃ lists, Conserved config start lists world ∧
      ∀ key, (world.data key).recvd.recvdCount = 0 →
        lens (lists key).recvd = 0 ∧ truesizes (lists key).recvd = 0 := by
  have conserves : ∃ lists, Conserved config start lists world := by
    induction run with
    | refl => exact ⟨_, empty.conserved⟩
    | step run call possible stepped ih =>
      obtain ⟨lists, conserved⟩ := ih
      exact conserved.step possible stepped
  obtain ⟨lists, conserved⟩ := conserves
  refine ⟨lists, conserved, fun key none_ => ?_⟩
  rw [conserved.nothing key none_]
  exact ⟨rfl, rfl⟩

end Conserved

/-- One tracker without data. -/
def emptyWorld : World Unit where
  global := ⟨0, 0, fun _ => none⟩
  data := fun _ =>
    { seqNo := 0, numSeqs := 0, seqNoValid := false
      recvd := ⟨⟨fun _ => none, fun _ => none⟩, none, none, 0, 0⟩
      space := ⟨⟨fun _ => none, fun _ => none⟩, none, none, 0, none⟩
      cb := fun _ => ⟨0, 0, 0⟩ }

theorem empty_emptyWorld : Empty emptyWorld where
  owner := fun _ => rfl
  recvd := fun _ => ⟨trivial, rfl, rfl, rfl, rfl, List.nodup_nil⟩
  space := fun _ => ⟨trivial, rfl, rfl, rfl, trivial, rfl, List.nodup_nil⟩

/-- A segment of the source with 60 bytes of data, and the buffer for it. -/
def addSegment (address : Nat) (seq : BitVec 32) : Call Unit :=
  .segmentAdd ((), .src) ⟨false, false, seq, ⟨6, 20, 80, 20⟩⟩
    (some { address := address, len := 100, truesize :=
        256, len_lt := by decide, truesize_pos := by decide,
            truesize_lt := by decide })

/-- The world after a call that has a result. -/
def World.after (config : Config Instance) (world : World Instance) (call : Call Instance) :
    World Instance :=
  (world.step config call).getD world

theorem Run.after {config : Config Instance} {start world : World Instance}
    (run : Run config start world) (call : Call Instance) (possible : call.Possible world)
    (stepped : (world.step config call).isSome = true) :
    Run config start (world.after config call) := by
  refine run.step call possible ?_
  obtain ⟨next, isNext⟩ := Option.isSome_iff_exists.mp stepped
  rw [World.after, isNext, Option.getD_some]

def roomy : Config Unit := ⟨⟨1000, 1000⟩, fun _ => 1000⟩

/-- The third 60 bytes come before the second, and wait in the future. -/
def waitingWorld : World Unit := (emptyWorld.after roomy (addSegment 1 1)).after roomy
    (addSegment 3 121)

/-- The second 60 bytes come, the third are replayed, and the first are discarded. -/
def replayedWorld : World Unit :=
  (waitingWorld.after roomy (addSegment 2 61)).after roomy (.bytesDiscard ((), .src) 60)

theorem run_replayedWorld : Run roomy emptyWorld replayedWorld := by
  refine ((((Run.refl emptyWorld).after (addSegment 1 1) ?_ ?_).after
    (addSegment 3 121) ?_ ?_).after
    (addSegment 2 61) ?_ ?_).after (.bytesDiscard ((), .src) 60) trivial ?_
  · rintro _ ⟨⟩
    rfl
  · decide +kernel
  · rintro _ ⟨⟩
    decide +kernel
  · decide +kernel
  · rintro _ ⟨⟩
    decide +kernel
  · decide +kernel
  · decide +kernel

theorem run_conserves_replayed : (waitingWorld.data ((), .src)).space.inOrderCount = 1 ∧
    (replayedWorld.data ((), .src)).space.inOrderCount = 2 ∧ replayedWorld.global.dataTotal = 200 ∧
    ∃ lists, Conserved roomy emptyWorld lists replayedWorld := by
  obtain ⟨lists, conserved, -⟩ := run_conserves empty_emptyWorld run_replayedWorld
  exact ⟨by decide +kernel, by decide +kernel, by decide +kernel, lists, conserved⟩

end Qsdk.Tracker
