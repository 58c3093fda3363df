/-
**Runs of a HyFi aggregated flow.**

An update that fits fills in the interfaces one after the other. The ports stay, those that are
listed get their quotas, and all others have none, so the flow is in its turns on the new list.
-/

import Qsdk.Hyfi.TxRounds

namespace Qsdk.TxAggr

open Tagging (ethPIp)

/-! ### An update -/

variable {flow f : Flow} {portList done : List Listed} {old : IfaceInfo}

/-- The interfaces are filled in for these entries. -/
structure Filled (old : IfaceInfo) (flow : Flow) (done : List Listed) (f : Flow) : Prop where
  dst : ∀ j, (f.ifaceInfo j).dst = (flow.ifaceInfo j).dst
  filled : ∀ entry ∈ done, ∀ j < 3, (flow.ifaceInfo j).dst = some entry.port →
    f.ifaceInfo j = ⟨some entry.port, entry.quota, Flow.countFor old entry⟩
  free : ∀ j < 3, (∀ entry ∈ done, (flow.ifaceInfo j).dst ≠ some entry.port) →
    f.quota j = 0 ∧ (f.ifaceInfo j).packetCount = 0
  cur : f.aggrCurIface = flow.aggrCurIface
  tx : f.txEntry = flow.txEntry

/-- Nothing is left in the interfaces that are cleared, or free. -/
theorem Running.clear (running : Running flow portList) :
    Filled old flow [] { flow.clear with numIfs := 0 } where
  dst j := by
    show (ite _ _ _ : IfaceInfo).dst = _
    split <;> rfl
  filled entry member := absurd member List.not_mem_nil
  free j inside _ := by
    show (ite _ _ _ : IfaceInfo).packetQuota = 0 ∧ (ite _ _ _ : IfaceInfo).packetCount = 0
    split
    case isTrue => exact ⟨rfl, rfl⟩
    case isFalse reached =>
      have isNone : (flow.ifaceInfo j).dst = none := by
        by_contra isPort
        refine reached ⟨inside, List.all_eq_true.mpr fun k member => ?_⟩
        rw [Option.isSome_iff_ne_none]
        rcases Nat.lt_succ_iff_lt_or_eq.mp (List.mem_range.mp member) with before | rfl
        · exact running.filled j inside k before isPort
        · exact isPort
      have quota : flow.quota j = 0 := by
        by_contra some'
        obtain ⟨entry, _, isPort⟩ := running.listed j inside some'
        exact Option.some_ne_none _ (isPort.symm.trans isNone)
      have notCur : j ≠ flow.aggrCurIface := by
        rintro rfl
        exact running.here isNone
      exact ⟨quota, (running.turning.full j inside notCur).trans quota⟩
  cur := rfl
  tx := rfl

/-- The first interface of a port. -/
theorem find_eq {port : Option Nat} {j : Nat} (inside : j < 3) (isPort : (f.ifaceInfo j).dst = port)
    (first : ∀ k < 3, (f.ifaceInfo k).dst = port → k = j) : f.find port = some j := by
  cases found : f.find port with
  | none =>
    have nowhere := List.find?_eq_none.mp found j (List.mem_range.mpr inside)
    exact absurd (decide_eq_true isPort) nowhere
  | some k =>
    have isPort' : (f.ifaceInfo k).dst = port := by simpa using List.find?_some found
    rw [first k (List.mem_range.mp (List.mem_of_find?_eq_some found)) isPort']

/-- **An entry** of an update. -/
theorem Filled.updateOne (running : Running flow portList) (filled : Filled old flow done f)
    {entry : Listed} (known : ∃ j < 3, (flow.ifaceInfo j).dst = some entry.port)
    (fresh : entry.port ∉ done.map (·.port)) :
    Filled old flow (done ++ [entry]) (Flow.updateOne old f entry) := by
  obtain ⟨j, inside, isPort⟩ := known
  have found : f.find (some entry.port) = some j := by
    refine find_eq inside ((filled.dst j).trans isPort) fun k inside' same => ?_
    rw [filled.dst k] at same
    exact running.apart k inside' j inside (same.trans isPort.symm) (same ▸ Option.some_ne_none _)
  have result : Flow.updateOne old f entry =
      { f.setIface j ⟨some entry.port, entry.quota, Flow.countFor old entry⟩ with
        numIfs := f.numIfs + 1 } := by
    unfold Flow.updateOne
    rw [found]
  rw [result]
  refine ⟨fun k => ?_, fun entry' member k inside' isPort' => ?_, fun k inside' notDone => ?_,
    filled.cur, filled.tx⟩
  · show (Function.update f.ifaceInfo j _ k).dst = _
    by_cases isHere : k = j
    · rw [isHere, Function.update_self]
      exact isPort.symm
    · rw [Function.update_of_ne isHere]
      exact filled.dst k
  · show Function.update f.ifaceInfo j _ k = _
    rcases List.mem_append.mp member with earlier | last
    · have elsewhere : k ≠ j := by
        rintro rfl
        have same : entry'.port = entry.port := Option.some.inj (isPort'.symm.trans isPort)
        exact fresh (same ▸ List.mem_map_of_mem earlier)
      rw [Function.update_of_ne elsewhere]
      exact filled.filled entry' earlier k inside' isPort'
    · obtain rfl := List.mem_singleton.mp last
      have here : k = j :=
        running.apart k inside' j inside (isPort'.trans isPort.symm)
          (isPort' ▸ Option.some_ne_none _)
      rw [here, Function.update_self]
  · have elsewhere : k ≠ j := by
      rintro rfl
      exact notDone entry (List.mem_append_right _ (List.mem_singleton_self _)) isPort
    have free := filled.free k inside' fun entry' member =>
      notDone entry' (List.mem_append_left _ member)
    show (Function.update f.ifaceInfo j _ k).packetQuota = 0 ∧
      (Function.update f.ifaceInfo j _ k).packetCount = 0
    rw [Function.update_of_ne elsewhere]
    exact free

/-- **All entries** of an update. -/
theorem Filled.foldl (running : Running flow portList) {todo : List Listed}
    (filled : Filled old flow done f) (known : ∀ entry ∈ todo, ∃ j < 3,
      (flow.ifaceInfo j).dst = some entry.port)
    (once : ((done ++ todo).map (·.port)).Nodup) :
    Filled old flow (done ++ todo) (todo.foldl (Flow.updateOne old) f) := by
  induction todo generalizing done f with
  | nil =>
    rw [List.append_nil]
    exact filled
  | cons entry todo ih =>
    have fresh : entry.port ∉ done.map (·.port) := by
      rw [List.map_append, List.map_cons] at once
      intro earlier
      exact (List.nodup_append.mp once).2.2 _ earlier _ List.mem_cons_self rfl
    have next := filled.updateOne running (known entry List.mem_cons_self) fresh
    have rest := ih next (fun entry' member => known entry' (List.mem_cons_of_mem _ member))
      (by rwa [List.append_assoc, List.singleton_append])
    rwa [List.append_assoc, List.singleton_append] at rest

/-- The quotas of a list have 8 bits. -/
theorem HatblEntry.quota_le {hae : HatblEntry} {entry : Listed} (member : entry ∈ hae.listed) :
    entry.quota < 256 := by
  obtain ⟨entry', _, rfl⟩ := List.mem_map.mp member
  exact Nat.lt_succ_of_le (Nat.min_le_right _ _)

/-- The flow is in its turns on the list that it is filled in for. -/
theorem Filled.running (running : Running flow portList) {hae : HatblEntry} (fits : Fits flow hae)
    (filled : Filled flow.here flow hae.listed f) : Running f hae.listed ∧
        f.quota f.aggrCurIface ≠ 0 := by
  obtain ⟨current, member, some', isCur, noWrap⟩ := fits.current
  have cur := running.turning.cur
  have here : f.here = ⟨some current.port, current.quota, Flow.countFor flow.here current⟩ := by
    unfold Flow.here
    rw [filled.cur]
    exact filled.filled current member _ cur isCur
  have isHere : flow.here.dst = some current.port := isCur
  have count : Flow.countFor flow.here current ≠ 0 ∧ Flow.countFor flow.here current < 256 := by
    unfold Flow.countFor
    rw [if_neg (not_not.mpr isHere)]
    split
    case isTrue more => exact ⟨noWrap more, Nat.mod_lt _ (by omega)⟩
    case isFalse => exact ⟨some', HatblEntry.quota_le member⟩
  have split : ∀ j < 3, (∃ entry ∈ hae.listed, (flow.ifaceInfo j).dst = some entry.port) ∨
      ∀ entry ∈ hae.listed, (flow.ifaceInfo j).dst ≠ some entry.port := by
    intro j _
    by_cases exists' : ∃ entry ∈ hae.listed, (flow.ifaceInfo j).dst = some entry.port
    · exact .inl exists'
    · exact .inr fun entry member same => exists' ⟨entry, member, same⟩
  have quota : ∀ j < 3, ∀ entry ∈ hae.listed, (f.ifaceInfo j).dst = some entry.port →
      f.quota j = entry.quota := by
    intro j inside entry member isPort
    exact congrArg IfaceInfo.packetQuota
      (filled.filled entry member j inside ((filled.dst j).symm.trans isPort))
  refine ⟨⟨⟨filled.tx.trans running.turning.tx, filled.cur ▸ cur, fun j inside notCur => ?_, ?_,
    ?_⟩, fun j inside => ?_,
    fun entry member => ?_, quota, fun j inside some' => ?_,
    fun j inside k inside' same notNone => ?_,
    fun j inside k before notNone => ?_, ?_⟩, ?_⟩
  · rw [filled.cur] at notCur
    rcases split j inside with ⟨entry, member, isPort⟩ | free
    · have elsewhere : flow.here.dst ≠ some entry.port := by
        intro same
        exact notCur (running.apart j inside _ cur (isPort.trans same.symm)
          (isPort ▸ Option.some_ne_none _))
      have slot := filled.filled entry member j inside isPort
      rw [quota j inside entry member ((filled.dst j).trans isPort), slot]
      show Flow.countFor flow.here entry = entry.quota
      unfold Flow.countFor
      rw [if_pos elsewhere]
    · obtain ⟨noQuota, noCount⟩ := filled.free j inside free
      rw [noQuota, noCount]
  · rw [here]
    exact Nat.pos_of_ne_zero count.1
  · rw [here]
    exact count.2
  · rcases split j inside with ⟨entry, member, isPort⟩ | free
    · rw [quota j inside entry member ((filled.dst j).trans isPort)]
      exact HatblEntry.quota_le member
    · rw [(filled.free j inside free).1]
      omega
  · obtain ⟨j, inside, isPort⟩ := fits.known entry member
    exact ⟨j, inside, (filled.dst j).trans isPort⟩
  · rcases split j inside with ⟨entry, member, isPort⟩ | free
    · exact ⟨entry, member, (filled.dst j).trans isPort⟩
    · exact absurd (filled.free j inside free).1 some'
  · rw [filled.dst j] at same notNone
    exact running.apart j inside k inside' (same.trans (filled.dst k)) notNone
  · rw [filled.dst j] at notNone
    rw [filled.dst k]
    exact running.filled j inside k before notNone
  · rw [here]
    exact Option.some_ne_none _
  · show f.here.packetQuota ≠ 0
    rw [here]
    exact some'

/-- **An update that fits.** -/
theorem Running.update (running : Running flow portList) {hae : HatblEntry}
    (goes : hae.stops = false) (fits : Fits flow hae) :
    ∃ f, flow.updateFlow hae = some f ∧ Running f hae.listed ∧ f.quota f.aggrCurIface ≠ 0 := by
  have cur := running.turning.cur
  have notStop : ¬ (hae.aggrEntry = false ∨ ∀ entry ∈ hae.listed, entry.quota = 0) := by
    intro stop
    unfold HatblEntry.stops at goes
    rcases stop with single | none
    · rw [single] at goes
      exact Bool.noConfusion goes
    · have all : (hae.listed.all fun entry => decide (entry.quota = 0)) = true :=
        List.all_eq_true.mpr fun entry member => decide_eq_true (none entry member)
      rw [all, Bool.or_true] at goes
      exact Bool.noConfusion goes
  refine ⟨hae.listed.foldl (Flow.updateOne flow.here) { flow.clear with numIfs := 0 }, ?_, ?_⟩
  · unfold Flow.updateFlow
    rw [if_neg notStop, if_pos (show flow.aggrCurIface < maxIface from cur)]
    exact if_neg running.here
  · refine Filled.running running fits ?_
    have cleared : Filled flow.here flow [] { flow.clear with numIfs := 0 } := running.clear
    have filled := cleared.foldl running fits.known (by
      rw [List.nil_append]
      exact fits.once)
    rwa [List.nil_append] at filled

/-! ### A new flow -/

section NewFlow

variable {hae : HatblEntry} {dst : Nat}

/-- The interfaces of a new flow. -/
def infosOf (dst : Nat) (entries : List Listed) (j : Nat) : IfaceInfo :=
  (entries.map (Flow.newIface dst)).getD j ⟨none, 0, 0⟩

theorem infosOf_get {entries : List Listed} {j : Nat} (inside : j < entries.length) :
    infosOf dst entries j = Flow.newIface dst (entries.get ⟨j, inside⟩) := by
  unfold infosOf
  rw [List.getD_eq_getElem?_getD, List.getElem?_map, List.getElem?_eq_getElem inside]
  rfl

theorem infosOf_out {entries : List Listed} {j : Nat} (outside : entries.length ≤ j) :
    infosOf dst entries j = ⟨none, 0, 0⟩ := by
  unfold infosOf
  rw [List.getD_eq_getElem?_getD, List.getElem?_map, List.getElem?_eq_none outside]
  rfl

/-- The interface of a listed port. -/
theorem infosOf_port {entries : List Listed} (once : (entries.map (·.port)).Nodup) {j : Nat}
    {entry : Listed} (member : entry ∈ entries) :
    (infosOf dst entries j).dst = some entry.port ↔ ∃ inside : j < entries.length,
        entries.get ⟨j, inside⟩ = entry := by
  by_cases inside : j < entries.length
  · rw [infosOf_get inside]
    constructor
    · intro same
      exact ⟨inside, List.inj_on_of_nodup_map once (List.get_mem ..) member (Option.some.inj same)⟩
    · rintro ⟨_, rfl⟩
      rfl
  · rw [infosOf_out (Nat.le_of_not_lt inside)]
    exact iff_of_false (fun wrong => Option.some_ne_none _ wrong.symm) fun ⟨inside', _⟩ =>
      inside inside'

/-- A flow with the interfaces of a list, and the longer run on the current one. -/
structure Started (port : Nat) (hae : HatblEntry) (f : Flow) : Prop where
  tx : f.txEntry = true
  cur : f.aggrCurIface < hae.listed.length
  dst : ∀ j, (f.ifaceInfo j).dst = (infosOf port hae.listed j).dst
  quota : ∀ j, f.quota j = (infosOf port hae.listed j).packetQuota
  full : ∀ j, j ≠ f.aggrCurIface → (f.ifaceInfo j).packetCount = f.quota j
  head : f.here.packetCount = headCount

theorem listed_length (hae : HatblEntry) : hae.listed.length ≤ 3 := by
  unfold HatblEntry.listed
  rw [List.length_map]
  exact Nat.le_trans (List.takeWhile_sublist _).length_le (List.length_take_le _ _)

/-- The longer run. -/
theorem head_eq {entry : Listed} (member : entry ∈ hae.listed) :
    max entry.quota headCount = headCount :=
  Nat.max_eq_right (Nat.le_of_lt_succ (HatblEntry.quota_le member))

/-- **A new flow** starts on a listed port. -/
theorem Started.newFlow (flow : Flow) (once : (hae.listed.map (·.port)).Nodup)
    (some' : hae.listed ≠ []) :
    Started flow.dst hae (flow.newFlow hae) := by
  have positive : 0 < hae.listed.length := List.length_pos_of_ne_nil some'
  let headed := Function.update (infosOf flow.dst hae.listed) 0 { infosOf flow.dst hae.listed 0 with
    packetCount := max (infosOf flow.dst hae.listed 0).packetCount headCount }
  have result : flow.newFlow hae = Flow.startAt
      { flow with
        ifaceInfo := infosOf flow.dst hae.listed, txEntry := true, aggrCurSeq := 0, numIfs :=
          hae.listed.length }
      ((List.range hae.listed.length).reverse.find? fun i =>
        decide ((infosOf flow.dst hae.listed i).dst = some flow.dst)) := by
    unfold Flow.newFlow
    rw [if_neg some']
    rfl
  have plain : ∀ j, (infosOf flow.dst hae.listed j).dst ≠ some flow.dst →
      (infosOf flow.dst hae.listed j).packetCount =
          (infosOf flow.dst hae.listed j).packetQuota := by
    intro j elsewhere
    by_cases inside : j < hae.listed.length
    · rw [infosOf_get inside] at elsewhere ⊢
      exact if_neg fun same => elsewhere (congrArg some same)
    · rw [infosOf_out (Nat.le_of_not_lt inside)]
  rw [result]
  cases found : (List.range hae.listed.length).reverse.find? fun i =>
      decide ((infosOf flow.dst hae.listed i).dst = some flow.dst) with
  | some i =>
    have inside : i < hae.listed.length :=
      List.mem_range.mp (List.mem_reverse.mp (List.mem_of_find?_eq_some found))
    have isDst : (infosOf flow.dst hae.listed i).dst = some flow.dst := by
      simpa using List.find?_some found
    have member := List.get_mem hae.listed ⟨i, inside⟩
    have isPort : (hae.listed.get ⟨i, inside⟩).port = flow.dst := by
      rw [infosOf_get inside] at isDst
      exact Option.some.inj isDst
    refine ⟨rfl, inside, fun _ => rfl, fun _ => rfl, fun j notCur => plain j fun same => ?_, ?_⟩
    · rw [← isPort, infosOf_port once member] at same
      obtain ⟨inside', isEntry⟩ := same
      have distinct := List.Nodup.of_map _ once
      exact notCur (Fin.val_eq_of_eq ((List.Nodup.get_inj_iff distinct).mp isEntry))
    · show (infosOf flow.dst hae.listed i).packetCount = headCount
      rw [infosOf_get inside]
      show (if _ = flow.dst then _ else _) = headCount
      rw [if_pos isPort]
      exact head_eq member
  | none =>
    have nowhere : ∀ j < hae.listed.length, (infosOf flow.dst hae.listed j).dst ≠
        some flow.dst := by
      intro j inside same
      exact List.find?_eq_none.mp found j (List.mem_reverse.mpr (List.mem_range.mpr inside))
        (decide_eq_true same)
    have update : ∀ j, j ≠ 0 → headed j = infosOf flow.dst hae.listed j := fun j elsewhere =>
      Function.update_of_ne elsewhere ..
    have first : headed 0 = { infosOf flow.dst hae.listed 0 with
        packetCount := max (infosOf flow.dst hae.listed 0).packetCount headCount } :=
          Function.update_self ..
    refine ⟨rfl, positive, fun j => ?_, fun j => ?_, fun j notCur => ?_, ?_⟩
    · show (headed j).dst = _
      by_cases isHere : j = 0
      · rw [isHere, first]
      · rw [update j isHere]
    · show (headed j).packetQuota = _
      by_cases isHere : j = 0
      · rw [isHere, first]
      · rw [update j isHere]
    · show (headed j).packetCount = (headed j).packetQuota
      rw [update j notCur]
      by_cases inside : j < hae.listed.length
      · exact plain j (nowhere j inside)
      · rw [infosOf_out (Nat.le_of_not_lt inside)]
    · show (headed 0).packetCount = headCount
      rw [first]
      show max (infosOf flow.dst hae.listed 0).packetCount headCount = headCount
      rw [plain 0 (nowhere 0 positive), infosOf_get positive]
      exact head_eq (List.get_mem ..)

/-- It is in its turns. -/
theorem Started.running (once : (hae.listed.map (·.port)).Nodup) (started : Started dst hae f) :
    Running f hae.listed := by
  have short := listed_length hae
  have cur := started.cur
  have slot : ∀ j, (f.ifaceInfo j).dst ≠ none → j < hae.listed.length := by
    intro j notNone
    by_contra outside
    rw [started.dst j, infosOf_out (Nat.le_of_not_lt outside)] at notNone
    exact notNone rfl
  have isSome : ∀ j < hae.listed.length, (f.ifaceInfo j).dst ≠ none := by
    intro j inside
    rw [started.dst j, infosOf_get inside]
    exact Option.some_ne_none _
  have inside : f.aggrCurIface < 3 := Nat.lt_of_lt_of_le cur short
  refine ⟨⟨started.tx, inside, fun j _ => started.full j, ?_, ?_⟩, fun j _ => ?_,
    fun entry member => ?_,
    fun j _ entry member isPort => ?_, fun j _ some' => ?_, fun j _ k _ same notNone => ?_,
    fun j _ k before notNone => ?_, isSome _ cur⟩
  · rw [started.head]
    decide
  · rw [started.head]
    decide
  · rw [started.quota j]
    by_cases inside : j < hae.listed.length
    · rw [infosOf_get inside]
      exact HatblEntry.quota_le (List.get_mem ..)
    · rw [infosOf_out (Nat.le_of_not_lt inside)]
      decide
  · obtain ⟨j, isEntry⟩ := List.get_of_mem member
    refine ⟨j, Nat.lt_of_lt_of_le j.isLt short, ?_⟩
    rw [started.dst j]
    exact (infosOf_port once member).mpr ⟨j.isLt, isEntry⟩
  · rw [started.dst j, infosOf_port once member] at isPort
    obtain ⟨inside, rfl⟩ := isPort
    rw [started.quota j, infosOf_get inside]
    rfl
  · have inside : j < hae.listed.length := by
      by_contra outside
      rw [started.quota j, infosOf_out (Nat.le_of_not_lt outside)] at some'
      exact some' rfl
    refine ⟨_, List.get_mem hae.listed ⟨j, inside⟩, ?_⟩
    rw [started.dst j, infosOf_get inside]
    rfl
  · have inside := slot j notNone
    have inside' := slot k (same ▸ notNone)
    have isPort : (infosOf dst hae.listed j).dst = some (hae.listed.get ⟨k, inside'⟩).port := by
      rw [← started.dst j, same, started.dst k, infosOf_get inside']
      rfl
    obtain ⟨_, isEntry⟩ := (infosOf_port once (List.get_mem ..)).mp isPort
    exact Fin.val_eq_of_eq ((List.Nodup.get_inj_iff (List.Nodup.of_map _ once)).mp isEntry)
  · exact isSome k (Nat.lt_trans before (slot j notNone))

end NewFlow

/-! ### Numbers -/

/-- Every call meets what it has to. -/
def AllMeet : Watched → List Call → Prop
  | _, [] => True
  | watched, call :: calls =>
    Meets watched.flow call ∧ ∀ watched', watched.step call = some watched' → AllMeet watched' calls

variable {watched : Watched} {protocol : BitVec 16}

/-- In its turns, on a listed port or in the longer run of a new flow. -/
structure InTurns (watched : Watched) : Prop where
  running : Running watched.flow watched.portList
  own : watched.flow.quota watched.flow.aggrCurIface ≠ 0 ∨
    (watched.runPort = watched.flow.here.dst ∧ watched.flow.here.packetCount ≤ watched.runLeft)

/-- In the run after a stop. -/
structure InTail (watched : Watched) : Prop where
  cur : watched.flow.aggrCurIface = maxIface
  port : watched.runPort = (watched.flow.ifaceInfo 0).dst
  left : (watched.flow.ifaceInfo 0).packetCount ≤ watched.runLeft

/-- **The invariant.** -/
def Good (watched : Watched) : Prop := watched.flow.txEntry = true →
    InTurns watched ∨ InTail watched

/-- A packet, with what is left of the run. -/
def Watched.sent (protocol : BitVec 16) (watched : Watched) : Watched :=
  { watched with flow := (watched.flow.handleTxPath protocol).1, runLeft := watched.runLeft - 1 }

/-- **A packet** in the turns. -/
theorem InTurns.packet (turns : InTurns watched) : Good (watched.sent protocol) := by
  have turning := turns.running.turning
  have cur := turning.cur
  intro tx
  by_cases last : watched.flow.here.packetCount = 1
  · have after : (watched.sent protocol).flow = _ := turning.packet_last last
    cases isNext : nextTurn watched.flow.quota watched.flow.aggrCurIface with
    | none =>
      rw [isNext] at after
      rw [after] at tx
      exact absurd tx Bool.false_ne_true
    | some j =>
      rw [isNext] at after
      dsimp only at after
      obtain ⟨inside, some'⟩ := Flow.nextTurn_some cur isNext
      obtain ⟨next, _⟩ := turning.refill turns.running.bounded inside some'
      have same : watched.flow.Like watched.flow := ⟨fun _ => rfl, fun _ => rfl, fun _ _ => rfl⟩
      have like : (watched.flow.refill protocol).Like watched.flow := same.refill cur
      obtain ⟨entry, _, isPort⟩ := turns.running.listed j inside some'
      have here : ({ (watched.flow.refill protocol) with aggrCurIface := j } :
          Flow).here.dst ≠ none := by
        rw [show ({ (watched.flow.refill protocol) with aggrCurIface := j } : Flow).here.dst =
          _ from like.dst j, isPort]
        exact Option.some_ne_none _
      have like' : ({ (watched.flow.refill protocol) with aggrCurIface := j } : Flow).Like
          watched.flow :=
        ⟨like.dst, like.quota, like.outside⟩
      have running := turns.running.like like' next here
      refine .inl ⟨after ▸ running, .inl ?_⟩
      rw [after]
      exact fun none => some' ((like.quota j).symm.trans none)
  · have after : (watched.sent protocol).flow = (watched.flow.served protocol) :=
      turning.packet_more last
    have same : watched.flow.Like watched.flow := ⟨fun _ => rfl, fun _ => rfl, fun _ _ => rfl⟩
    have like : (watched.flow.served protocol).Like watched.flow := same.served cur
    have here : (watched.flow.served protocol).here.dst = watched.flow.here.dst := like.dst _
    have running := turns.running.like like (turning.served last) (here ▸ turns.running.here)
    refine .inl ⟨after ▸ running, ?_⟩
    rw [after, show (watched.flow.served protocol).quota
      (watched.flow.served protocol).aggrCurIface = _ from like.quota _, here]
    refine turns.own.imp_right fun ⟨port, left⟩ => ⟨port, ?_⟩
    show (Function.update watched.flow.ifaceInfo watched.flow.aggrCurIface
      _ watched.flow.aggrCurIface).packetCount ≤
      watched.runLeft - 1
    rw [Function.update_self]
    exact Nat.sub_le_sub_right left 1

/-- **A packet** after a stop. -/
theorem InTail.packet (tail : InTail watched) : Good (watched.sent protocol) := by
  intro tx
  have after : (watched.sent protocol).flow = (watched.flow.handleTxPath protocol).1 := rfl
  unfold Flow.handleTxPath at after
  rw [if_pos tail.cur] at after
  dsimp only at after
  split at after
  case isTrue more =>
    refine .inr ⟨?_, ?_, ?_⟩
    · rw [after]
      exact tail.cur
    · rw [after]
      show _ = (Function.update watched.flow.ifaceInfo 0 _ 0).dst
      rw [Function.update_self]
      exact tail.port
    · rw [after]
      show (Function.update watched.flow.ifaceInfo 0 _ 0).packetCount ≤ watched.runLeft - 1
      rw [Function.update_self]
      exact Nat.sub_le_sub_right tail.left 1
  case isFalse =>
    rw [after] at tx
    exact absurd tx Bool.false_ne_true

/-- A flow that is stopped. -/
def Flow.stopped (flow : Flow) : Flow :=
  { flow.clear.setIface 0 ⟨flow.here.dst, (flow.clear.ifaceInfo 0).packetQuota, tailCount⟩ with
    aggrCurIface := maxIface }

theorem Flow.stopped_first (flow : Flow) :
    flow.stopped.ifaceInfo 0 = ⟨flow.here.dst, (flow.clear.ifaceInfo 0).packetQuota,
        tailCount⟩ := by
  show Function.update flow.clear.ifaceInfo 0 _ 0 = _
  exact Function.update_self ..

/-- **A stop** begins the last run. -/
theorem InTurns.stop (turns : InTurns watched) {hae : HatblEntry} (stops : hae.stops = true) :
    watched.flow.updateFlow hae = some watched.flow.stopped ∧
      Good ⟨watched.flow.stopped, [], watched.flow.here.dst, tailCount⟩ := by
  have stop : hae.aggrEntry = false ∨ ∀ entry ∈ hae.listed, entry.quota = 0 := by
    unfold HatblEntry.stops at stops
    rcases Bool.or_eq_true_iff.mp stops with single | none
    · exact .inl (by simpa using single)
    · exact .inr fun entry member => of_decide_eq_true (List.all_eq_true.mp none entry member)
  constructor
  · unfold Flow.updateFlow
    rw [if_pos stop]
    exact if_pos turns.running.turning.cur
  · refine fun _ => .inr ⟨rfl, ?_, ?_⟩
    · show watched.flow.here.dst = (watched.flow.stopped.ifaceInfo 0).dst
      rw [watched.flow.stopped_first]
    · show (watched.flow.stopped.ifaceInfo 0).packetCount ≤ tailCount
      exact Nat.le_of_eq (congrArg IfaceInfo.packetCount watched.flow.stopped_first)

/-- **A call that meets what it has to** keeps the invariant. -/
theorem Good.step (good : Good watched) {call : Call} (meets : Meets watched.flow call) :
    ∃ watched', watched.step call = some watched' ∧ Good watched' := by
  cases call with
  | packet protocol =>
    cases tx : watched.flow.txEntry with
    | true =>
      refine ⟨watched.sent protocol, ?_, ?_⟩
      · unfold Watched.step Call.step
        dsimp only
        rw [if_pos tx]
        rfl
      · rcases good tx with turns | tail
        · exact turns.packet
        · exact tail.packet
    | false =>
      refine ⟨{ watched with runLeft := watched.runLeft - 1 }, ?_, ?_⟩
      · unfold Watched.step Call.step
        dsimp only
        rw [if_neg (by rw [tx]; exact Bool.false_ne_true)]
        rfl
      · exact fun wrong => absurd (tx.symm.trans wrong) Bool.false_ne_true
  | hatblUpdate hae =>
    unfold Meets at meets
    cases tx : watched.flow.txEntry with
    | true =>
      dsimp only at meets
      rw [if_pos tx] at meets
      have turns : InTurns watched := by
        refine (good tx).resolve_right fun tail => ?_
        exact absurd tail.cur (Nat.ne_of_lt meets.1)
      cases stops : hae.stops with
      | true =>
        obtain ⟨result, good'⟩ := turns.stop stops
        refine ⟨_, ?_, good'⟩
        unfold Watched.step Call.step
        dsimp only
        rw [if_pos tx, result, Option.map_some, Option.map_some, if_pos tx, if_pos stops]
        rfl
      | false =>
        obtain ⟨f, result, running, own⟩ := turns.running.update stops (meets.2 stops)
        refine ⟨⟨f, hae.listed, none, 0⟩, ?_, fun _ => .inl ⟨running, .inl own⟩⟩
        unfold Watched.step Call.step
        dsimp only
        rw [if_pos tx, result, Option.map_some, Option.map_some, if_pos tx, stops,
          if_neg Bool.false_ne_true]
    | false =>
      have notTx : ¬ watched.flow.txEntry = true := by
        rw [tx]
        exact Bool.false_ne_true
      dsimp only at meets
      rw [if_neg notTx] at meets
      cases aggr : hae.aggrEntry with
      | true =>
        refine ⟨⟨watched.flow.newFlow hae, hae.listed, (watched.flow.newFlow hae).here.dst,
          headCount⟩, ?_,
          fun started => ?_⟩
        · unfold Watched.step Call.step
          dsimp only
          rw [if_neg notTx, if_pos aggr, Option.map_some, if_neg notTx, if_pos aggr]
          rfl
        · by_cases none : hae.listed = []
          · have ended : (watched.flow.newFlow hae).txEntry = false := by
              unfold Flow.newFlow
              rw [if_pos none]
            exact absurd (ended.symm.trans started) Bool.false_ne_true
          · have new := Started.newFlow watched.flow (meets aggr) none
            exact .inl ⟨new.running (meets aggr), .inr ⟨rfl, Nat.le_of_eq new.head⟩⟩
      | false =>
        have stepped : ∃ f, watched.step (.hatblUpdate hae) = some { watched with flow := f } ∧
            f.txEntry = false := by
          unfold Watched.step Call.step
          dsimp only
          rw [if_neg notTx, aggr, if_neg Bool.false_ne_true, Option.map_some, if_neg notTx,
            if_neg Bool.false_ne_true]
          exact ⟨_, rfl, by split <;> exact tx⟩
        obtain ⟨f, result, ended⟩ := stepped
        exact ⟨_, result, fun wrong => absurd (ended.symm.trans wrong) Bool.false_ne_true⟩

/-- A flow on port 1 that is not aggregated. -/
def single : Flow := ⟨fun _ => ⟨none, 0, 0⟩, 0, 0, 0, false, 1⟩

end Qsdk.TxAggr
