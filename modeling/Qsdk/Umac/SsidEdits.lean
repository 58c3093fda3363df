/-
**When only the SSID is replaced.**

The offset of the walk goes over the headers only, so what is edited is in the right place if the
elements before the SSID are empty, and the contents are taken from two bytes later on. In a beacon
of the configured BSSID only the SSID is replaced just where that makes no difference
(`onlySsid_iff`).
-/

import Qsdk.Lib.Splice
import Qsdk.Umac.HiddenSsid

namespace Qsdk.HiddenSsid

open Qsdk.Elements Qsdk.Splice

variable {conf : Conf} {beacon : Beacon} {alloc : Bool} {nbuf : Nbuf} {walk : Walk}

/-- Where the walk takes the SSID to be. -/
def Beacon.counted (beacon : Beacon) : Nat := 36 + 2 * beacon.pre.length

/-- **Where only the SSID is replaced**, or nothing is. -/
inductive Meets (conf : Conf) (alloc : Bool) (beacon : Beacon) (nbuf : Nbuf) : Prop
  /-- There is an element of WPS. -/
  | wps : (∃ elem ∈ beacon.pre ++ beacon.post, IsWps elem) → Meets conf alloc beacon nbuf
  | tooLong : ssidMaxLen < beacon.ssid.length → Meets conf alloc beacon nbuf
  /-- An empty SSID behind empty elements, and not the last element. -/
  | empty : beacon.ssid.length = 0 → (∀ elem ∈ beacon.pre, elem.body = []) → beacon.post ≠ [] →
    alloc = true →
      Meets conf alloc beacon nbuf
  | otherLength : beacon.post ≠ [] → beacon.ssid.length ≠ 0 →
    beacon.ssid.length ≠ conf.ssid.length →
      Meets conf alloc beacon nbuf
  /-- A hidden SSID behind empty elements that is taken for hidden. -/
  | hidden : beacon.post ≠ [] → beacon.ssid.length = conf.ssid.length →
    (∀ byte ∈ beacon.taken nbuf, byte = 0) →
      beacon.Hidden → (∀ elem ∈ beacon.pre, elem.body = []) → Meets conf alloc beacon nbuf
  /-- Taken for hidden, but nothing is to be changed, and nothing is. -/
  | same : beacon.post ≠ [] → beacon.ssid.length = conf.ssid.length →
    (∀ byte ∈ beacon.taken nbuf, byte = 0) →
      (beacon.Hidden → conf.ssid = beacon.ssid) →
      nbuf.read (beacon.counted + 2) conf.ssid.length = conf.ssid →
      Meets conf alloc beacon nbuf
  /-- Not taken for hidden, and nothing is to be changed. -/
  | seen : beacon.post ≠ [] → beacon.ssid.length = conf.ssid.length →
    ¬ (∀ byte ∈ beacon.taken nbuf, byte = 0) →
      (beacon.Hidden → conf.ssid = beacon.ssid) → Meets conf alloc beacon nbuf

/-! ### The right frame -/

theorem Beacon.counted_le (beacon : Beacon) : beacon.counted ≤ beacon.before.length := by
  have least := two_le_length_encode beacon.pre
  have length := beacon.length_before
  unfold Beacon.counted
  omega

/-- The offset is right just behind empty elements. -/
theorem Beacon.counted_eq_iff (beacon : Beacon) :
    beacon.counted = beacon.before.length ↔ ∀ elem ∈ beacon.pre, elem.body = [] := by
  rw [← length_encode_eq_iff, beacon.length_before]
  unfold Beacon.counted
  omega

/-- In the place of an empty SSID. -/
theorem Beacon.frame_insert (beacon : Beacon) (none : beacon.ssid.length = 0) (ssid : List Nat) :
    splice (beacon.frame beacon.ssid) (beacon.before.length + 1) 1 (ssid.length :: ssid) =
        beacon.frame ssid := by
  have nil := List.length_eq_zero_iff.mp none
  have shape : beacon.frame beacon.ssid = (beacon.before ++ [0]) ++
      ([0] ++ encode beacon.post) := by
    rw [beacon.frame_eq, nil, List.append_assoc]
    rfl
  have length : beacon.before.length + 1 = (beacon.before ++ [0]).length := by
    rw [List.length_append]
    rfl
  rw [shape, length, beacon.frame_eq]
  refine (splice_append (beacon.before ++ [0]) [0] (encode beacon.post) (ssid.length :: ssid)).trans
    ?_
  rw [List.append_assoc]
  rfl

/-- In the place of an SSID of the same length. -/
theorem Beacon.frame_write (beacon : Beacon) {ssid : List Nat}
    (same : beacon.ssid.length = ssid.length) :
    splice (beacon.frame beacon.ssid) (beacon.before.length + 2) ssid.length ssid =
        beacon.frame ssid := by
  have shape : beacon.frame beacon.ssid =
      (beacon.before ++ [0, ssid.length]) ++ (beacon.ssid ++ encode beacon.post) := by
    rw [beacon.frame_eq, same, List.append_assoc]
    rfl
  have length : beacon.before.length + 2 = (beacon.before ++ [0, ssid.length]).length := by
    rw [List.length_append]
    rfl
  rw [shape, length, beacon.frame_eq, ← same]
  refine (splice_append (beacon.before ++ [0, beacon.ssid.length]) beacon.ssid
    (encode beacon.post) ssid).trans ?_
  rw [List.append_assoc, same]
  rfl

theorem Beacon.frame_inj (beacon : Beacon) {one two : List Nat}
    (same : beacon.frame one = beacon.frame two) :
    one = two := by
  rw [beacon.frame_eq, beacon.frame_eq] at same
  have behind := List.append_cancel_left same
  rw [List.cons_append, List.cons_append, List.cons_append, List.cons_append] at behind
  have lengths := (List.cons.inj (List.cons.inj behind).2).1
  exact (List.append_inj (List.cons.inj (List.cons.inj behind).2).2 lengths).1

/-! ### The edits -/

theorem Received.length_eq (received : Received conf beacon nbuf) :
    nbuf.data.length = beacon.before.length + 2 + beacon.ssid.length +
        (encode beacon.post).length := by
  rw [received.isFrame, beacon.length_frame]

/-- **What becomes of an empty SSID.** -/
theorem Received.insertSsid (received : Received conf beacon nbuf) (none : beacon.ssid.length = 0)
    (start : walk.ssidIeStartOffset = 12 + 2 * beacon.pre.length)
    (stop : walk.ssidIeEndOffset = 12 + 2 * beacon.pre.length + 2) (alloc : Bool) :
    (nbuf.data.length = beacon.counted + 2 ∨ alloc = false →
      insertSsid conf alloc nbuf walk = ⟨⟨nbuf.data ++ nbuf.room.take conf.ssid.length,
        nbuf.room.drop conf.ssid.length⟩, .noMem, walk.outside⟩) ∧
    (nbuf.data.length ≠ beacon.counted + 2 → alloc = true →
      (insertSsid conf alloc nbuf walk).nbuf.data =
          splice (beacon.frame beacon.ssid) (beacon.counted + 1) 1 (conf.ssid.length :: conf.ssid) ∧
        (insertSsid conf alloc nbuf walk).outside = walk.outside) := by
  have length := received.length_eq
  have counted := beacon.counted_le
  have room := received.room
  have isStart : 24 + walk.ssidIeStartOffset + 1 = beacon.counted + 1 := by
    unfold Beacon.counted
    omega
  have isStop : 24 + walk.ssidIeEndOffset = beacon.counted + 2 := by
    unfold Beacon.counted
    omega
  unfold HiddenSsid.insertSsid Nbuf.putTail
  rw [if_neg (by omega), isStart, isStop]
  dsimp only
  constructor
  · intro fails
    refine if_pos ?_
    rcases fails with isEnd | failed
    · rw [isEnd, Nat.sub_self]
      rfl
    · rw [failed]
      exact Bool.or_true _
  · intro notEnd isAlloc
    have inside : beacon.counted + 2 < nbuf.data.length := by omega
    have longer : (nbuf.data ++ nbuf.room.take conf.ssid.length).length =
        nbuf.data.length + conf.ssid.length := by
      rw [List.length_append, List.length_take]
      omega
    have tmp : Nbuf.read ⟨nbuf.data ++ nbuf.room.take conf.ssid.length,
      nbuf.room.drop conf.ssid.length⟩
        (beacon.counted + 2) (nbuf.data.length - (beacon.counted + 2)) =
            nbuf.data.drop (beacon.counted + 2) := by
      unfold Nbuf.read
      dsimp only
      rw [List.append_assoc, List.take_append_drop, List.drop_append_of_le_length (by omega)]
      exact List.take_left' (List.length_drop ..)
    have whole : beacon.counted + 1 + 1 + conf.ssid.length +
      (nbuf.data.drop (beacon.counted + 2)).length =
        (nbuf.data ++ nbuf.room.take conf.ssid.length).length := by
      rw [longer, List.length_drop]
      omega
    have covers : ∀ pos len, pos + len ≤ nbuf.data.length + conf.ssid.length → Nbuf.covers
        ⟨nbuf.data ++ nbuf.room.take conf.ssid.length, nbuf.room.drop conf.ssid.length⟩ pos
            len = true := by
      intro pos len le
      exact decide_eq_true (longer ▸ le)
    have notZero : ¬ (decide (nbuf.data.length - (beacon.counted + 2) = 0) || !alloc) = true := by
      rw [isAlloc, Bool.not_true, Bool.or_false, decide_eq_true_iff]
      omega
    rw [if_neg notZero, tmp]
    refine ⟨?_, ?_⟩
    · refine (splice_to_end whole).trans ?_
      rw [List.take_append_of_le_length (by omega), ← received.isFrame]
      rfl
    · dsimp only
      rw [covers _ _ (by omega), covers _ _ (by omega), covers _ _ (by omega)]
      exact Bool.or_false _

/-- **What becomes of an SSID with contents** that is taken for hidden. -/
theorem Received.overwritten (received : Received conf beacon nbuf)
    (same : beacon.ssid.length = conf.ssid.length) (known : beacon.Known nbuf walk)
    (zeros : ∀ byte ∈ beacon.taken nbuf, byte = 0) (some : beacon.ssid.length ≠ 0) (alloc : Bool) :
    (walk.setSsid conf alloc nbuf).nbuf.data =
        splice (beacon.frame beacon.ssid) (beacon.counted + 2) conf.ssid.length conf.ssid ∧
      (walk.setSsid conf alloc nbuf).outside = walk.outside := by
  have length := received.length_eq
  have counted := beacon.counted_le
  have isPos : 24 + walk.ssidIeStartOffset + 2 = beacon.counted + 2 := by
    have start := (known.offsets zeros).1
    unfold Beacon.counted
    omega
  have inside : nbuf.covers (beacon.counted + 2) conf.ssid.length = true :=
    decide_eq_true (by omega)
  unfold Walk.setSsid
  rw [known.ssidLen, if_neg some, if_pos same, isPos]
  dsimp only
  rw [inside]
  refine ⟨?_, Bool.or_false _⟩
  rw [← received.isFrame]
  rfl

/-- Of zeros. -/
theorem Beacon.Hidden.eq_of_zeros (hidden : beacon.Hidden) {ssid : List Nat}
    (same : beacon.ssid.length = ssid.length) (zeros : ∀ byte ∈ ssid, byte = 0) :
        ssid = beacon.ssid := by
  refine List.ext_getElem same.symm fun i isIn isIn' => ?_
  rw [zeros _ (List.getElem_mem isIn), hidden _ (List.getElem_mem isIn')]

/-- **In the wrong place**, over a hidden SSID, only the SSID itself gives the right frame. -/
theorem Beacon.wrong_place (beacon : Beacon) (same : beacon.ssid.length = conf.ssid.length)
    (hidden : beacon.Hidden) (wrong : beacon.counted ≠ beacon.before.length)
    (right : splice (beacon.frame beacon.ssid) (beacon.counted + 2) conf.ssid.length conf.ssid =
      beacon.frame conf.ssid) : conf.ssid = beacon.ssid := by
  have counted := beacon.counted_le
  have length := beacon.length_frame beacon.ssid
  rw [← beacon.frame_write same] at right
  refine hidden.eq_of_zeros same (zeros_of_splice_eq (by omega) (by omega) (fun i isIn => ?_) right)
  have isIn' : i < beacon.ssid.length := same ▸ isIn
  have place : beacon.before.length + 2 + i = (beacon.before ++ [0, beacon.ssid.length]).length +
      i := by
    rw [List.length_append]
    rfl
  have shape : beacon.frame beacon.ssid =
      (beacon.before ++ [0, beacon.ssid.length]) ++ (beacon.ssid ++ encode beacon.post) := by
    rw [beacon.frame_eq, List.append_assoc]
    rfl
  rw [shape, place, List.getElem?_append_right (Nat.le_add_right ..), Nat.add_sub_cancel_left,
    List.getElem?_append_left isIn', List.getElem?_eq_getElem isIn',
    hidden _ (List.getElem_mem isIn')]

/-- **In the wrong place**, for an empty SSID, the frame is never the right one. -/
theorem Received.wrong_insert (received : Received conf beacon nbuf) (none : beacon.ssid.length = 0)
    (wrong : beacon.counted ≠ beacon.before.length) :
    splice (beacon.frame beacon.ssid) (beacon.counted + 1) 1 (conf.ssid.length :: conf.ssid) ≠
      beacon.frame conf.ssid := by
  have counted := beacon.counted_le
  have length := beacon.length_frame beacon.ssid
  have inside : beacon.before.length + 1 < (beacon.frame beacon.ssid).length := by omega
  have zero : (beacon.frame beacon.ssid)[beacon.before.length + 1] = 0 := by
    have found : (beacon.frame beacon.ssid)[beacon.before.length + 1]? = some 0 := by
      rw [beacon.frame_eq, List.getElem?_append_right (Nat.le_add_right ..),
        Nat.add_sub_cancel_left, none]
      rfl
    rw [List.getElem?_eq_getElem inside] at found
    exact Option.some.inj found
  rw [← beacon.frame_insert none conf.ssid]
  exact splice_one_ne (by omega) inside zero received.configured

/-! ### The whole function -/

theorem Received.addHiddenSsid_of_walk (received : Received conf beacon nbuf) {valid : Bool}
    (looped : walkLoop nbuf nbuf.data.length (Walk.start nbuf) = (walk, valid)) :
    addHiddenSsid conf alloc nbuf =
      if valid then if walk.setSsidFlag then walk.setSsid conf alloc nbuf else
        ⟨nbuf, .success, walk.outside⟩
      else ⟨nbuf, .invalid, walk.outside⟩ := by
  have applies : ¬ (nbuf.read 16 6 ≠ conf.bssid ∨ conf.ssid.length = 0) := by
    rintro (other | none)
    · exact other received.isBssid
    · exact received.configured none
  unfold addHiddenSsid
  rw [if_neg applies]
  have started : walkLoop nbuf nbuf.data.length
      ⟨36, (nbuf.data.length - 24 - 12) % 2 ^ 16, 12, 0, [], false, 0, 0, false⟩ = (walk, valid) :=
      looped
  rw [started]
  cases valid with
  | true => rfl
  | false => rfl

/-- Nothing has changed. -/
theorem Received.onlySsid_unchanged (received : Received conf beacon nbuf) (status : Status) :
    OnlySsid conf beacon ⟨nbuf, status, false⟩ ↔
      (beacon.Hidden → (∀ elem ∈ beacon.pre ++ beacon.post, ¬ IsWps elem) →
        beacon.ssid.length = 0 ∨ beacon.ssid.length = conf.ssid.length →
            conf.ssid = beacon.ssid) := by
  constructor
  · intro only hidden notWps lengths
    exact (beacon.frame_inj
      (received.isFrame.symm.trans (only.replaced hidden notWps lengths))).symm
  · intro same
    refine ⟨rfl, fun _ => received.isFrame, fun hidden notWps lengths => ?_⟩
    rw [same hidden notWps lengths]
    exact received.isFrame

/-- An element of WPS. -/
theorem Received.unchanged_of_wps (received : Received conf beacon nbuf)
    (wps : ∃ elem ∈ beacon.pre ++ beacon.post, IsWps elem) (alloc : Bool) :
    ∃ status, addHiddenSsid conf alloc nbuf = ⟨nbuf, status, false⟩ := by
  by_cases inPre : ∃ elem ∈ beacon.pre, IsWps elem
  · obtain ⟨after, looped, flag, inside⟩ := received.loop_wps inPre
    rw [received.addHiddenSsid_of_walk looped, if_pos rfl, flag, inside]
    exact ⟨.success, rfl⟩
  · have notPre : ∀ elem ∈ beacon.pre, ¬ IsWps elem := by simpa using inPre
    have inPost : ∃ elem ∈ beacon.post, IsWps elem := by
      obtain ⟨elem, member, isWps⟩ := wps
      rcases List.mem_append.mp member with member | member
      · exact absurd isWps (notPre elem member)
      · exact ⟨elem, member, isWps⟩
    by_cases long : ssidMaxLen < beacon.ssid.length
    · obtain ⟨after, looped, inside⟩ := received.loop_long notPre long
      rw [received.addHiddenSsid_of_walk looped, inside]
      exact ⟨.invalid, rfl⟩
    · obtain ⟨after, looped, outside, flag, _⟩ := received.loop_ssid notPre (Nat.le_of_not_lt long)
      have some : beacon.post ≠ [] := by
        rintro none
        rw [none] at inPost
        obtain ⟨_, member, _⟩ := inPost
        exact absurd member List.not_mem_nil
      have inside : after.outside = false := outside.trans (decide_eq_false fun both => some both.2)
      rw [received.addHiddenSsid_of_walk looped, if_pos rfl, flag inPost, inside]
      exact ⟨.success, rfl⟩

section NoWps

variable (received : Received conf beacon nbuf)
    (notWps : ∀ elem ∈ beacon.pre ++ beacon.post, ¬ IsWps elem)

include received notWps

theorem Received.onlySsid_iff_of_long (long : ssidMaxLen < beacon.ssid.length) :
    OnlySsid conf beacon (addHiddenSsid conf alloc nbuf) ↔ Meets conf alloc beacon nbuf := by
  have notPre : ∀ elem ∈ beacon.pre, ¬ IsWps elem := fun elem member =>
    notWps elem (List.mem_append_left _ member)
  have most := received.most
  obtain ⟨after, looped, inside⟩ := received.loop_long notPre long
  rw [received.addHiddenSsid_of_walk looped, inside]
  refine iff_of_true ((received.onlySsid_unchanged .invalid).mpr fun _ _ lengths => ?_)
    (.tooLong long)
  omega

/-- **An empty SSID.** -/
theorem Received.onlySsid_iff_of_empty (none : beacon.ssid.length = 0) :
    OnlySsid conf beacon (addHiddenSsid conf alloc nbuf) ↔
      (∀ elem ∈ beacon.pre, elem.body = []) ∧ beacon.post ≠ [] ∧ alloc = true := by
  have notPre : ∀ elem ∈ beacon.pre, ¬ IsWps elem := fun elem member =>
    notWps elem (List.mem_append_left _ member)
  have notPost : ∀ elem ∈ beacon.post, ¬ IsWps elem := fun elem member =>
    notWps elem (List.mem_append_right _ member)
  have nil := List.length_eq_zero_iff.mp none
  have hidden : beacon.Hidden := by
    unfold Beacon.Hidden
    rw [nil]
    exact fun byte member => absurd member List.not_mem_nil
  obtain ⟨after, looped, outside, _, known⟩ := received.loop_ssid notPre (none ▸ Nat.zero_le _)
  have inside : after.outside = false := outside.trans (decide_eq_false fun both => both.1 none)
  have known := known notPost
  have zeros : ∀ byte ∈ beacon.taken nbuf, byte = 0 := by
    unfold Beacon.taken Nbuf.read
    rw [none, List.take_zero]
    exact fun byte member => absurd member List.not_mem_nil
  obtain ⟨start, stop⟩ := known.offsets zeros
  rw [none] at stop
  have isSet : addHiddenSsid conf alloc nbuf = HiddenSsid.insertSsid conf alloc nbuf after := by
    rw [received.addHiddenSsid_of_walk looped, if_pos rfl, known.flag,
      if_pos (decide_eq_true zeros)]
    unfold Walk.setSsid
    rw [known.ssidLen, if_pos none]
  rw [isSet]
  have length := received.length_eq
  have counted := beacon.counted_le
  obtain ⟨fails, edits⟩ := received.insertSsid none start stop alloc
  by_cases failing : nbuf.data.length = beacon.counted + 2 ∨ alloc = false
  · refine iff_of_false (fun only => ?_) (fun ⟨empty, notLast, isAlloc⟩ => ?_)
    · -- the length byte of the SSID is still zero
      have right := only.replaced hidden notWps (.inl none)
      rw [fails failing] at right
      have here := congrArg (·[beacon.before.length + 1]?) right
      rw [received.isFrame, beacon.frame_eq, beacon.frame_eq, List.append_assoc] at here
      rw [List.getElem?_append_right (Nat.le_add_right ..),
        List.getElem?_append_right (Nat.le_add_right ..),
        Nat.add_sub_cancel_left, none] at here
      exact received.configured (Option.some.inj here).symm
    · have isRight := beacon.counted_eq_iff.mpr empty
      have pos : (encode beacon.post).length ≠ 0 := fun zero =>
        notLast (length_encode_eq_zero.mp zero)
      rcases failing with isEnd | failed
      · omega
      · exact absurd (isAlloc.symm.trans failed) (by decide)
  · obtain ⟨notEnd, isAlloc⟩ := not_or.mp failing
    have isAlloc : alloc = true := by simpa using isAlloc
    obtain ⟨isData, same⟩ := edits notEnd isAlloc
    constructor
    · intro only
      have right := only.replaced hidden notWps (.inl none)
      rw [isData] at right
      have isRight : beacon.counted = beacon.before.length := by
        by_contra wrong
        exact received.wrong_insert none wrong right
      refine ⟨beacon.counted_eq_iff.mp isRight, fun isNil => notEnd ?_, isAlloc⟩
      rw [isNil, encode_nil, List.length_nil] at length
      omega
    · rintro ⟨empty, _, _⟩
      refine ⟨same.trans inside, fun either => ?_, fun _ _ _ => ?_⟩
      · rcases either with visible | ⟨elem, member, isWps⟩
        · exact absurd hidden visible
        · exact absurd isWps (notWps elem member)
      · rw [isData, beacon.counted_eq_iff.mpr empty, beacon.frame_insert none]

theorem Received.onlySsid_iff_of_last (some : beacon.ssid.length ≠ 0)
    (short : beacon.ssid.length ≤ ssidMaxLen) (isLast : beacon.post = []) :
        ¬ OnlySsid conf beacon (addHiddenSsid conf alloc nbuf) := by
  have notPre : ∀ elem ∈ beacon.pre, ¬ IsWps elem := fun elem member =>
    notWps elem (List.mem_append_left _ member)
  obtain ⟨after, looped, outside, _, known⟩ := received.loop_ssid notPre short
  have notPost : ∀ elem ∈ beacon.post, ¬ IsWps elem := fun elem member =>
    notWps elem (List.mem_append_right _ member)
  rw [decide_eq_true ⟨some, isLast⟩] at outside
  have reads : (addHiddenSsid conf alloc nbuf).outside = true := by
    rw [received.addHiddenSsid_of_walk looped, if_pos rfl]
    split
    · unfold Walk.setSsid
      rw [(known notPost).ssidLen, if_neg some]
      split
      · exact (congrArg (· || _) outside).trans (Bool.true_or _)
      · exact outside
    · exact outside
  intro only
  exact Bool.false_ne_true (only.inside.symm.trans reads)

/-- **An SSID with contents** that is not the last element. -/
theorem Received.onlySsid_iff_of_some (some : beacon.ssid.length ≠ 0)
    (short : beacon.ssid.length ≤ ssidMaxLen) (notLast : beacon.post ≠ [])
    (same : beacon.ssid.length = conf.ssid.length) :
    OnlySsid conf beacon (addHiddenSsid conf alloc nbuf) ↔
      if ∀ byte ∈ beacon.taken nbuf, byte = 0 then
        beacon.Hidden ∧ (∀ elem ∈ beacon.pre, elem.body = []) ∨
          (beacon.Hidden → conf.ssid = beacon.ssid) ∧
          nbuf.read (beacon.counted + 2) conf.ssid.length = conf.ssid
      else beacon.Hidden → conf.ssid = beacon.ssid := by
  have notPre : ∀ elem ∈ beacon.pre, ¬ IsWps elem := fun elem member =>
    notWps elem (List.mem_append_left _ member)
  have notPost : ∀ elem ∈ beacon.post, ¬ IsWps elem := fun elem member =>
    notWps elem (List.mem_append_right _ member)
  obtain ⟨after, looped, outside, _, known⟩ := received.loop_ssid notPre short
  have known := known notPost
  have inside : after.outside = false := outside.trans (decide_eq_false fun both => notLast both.2)
  rw [received.addHiddenSsid_of_walk looped, if_pos rfl, known.flag]
  by_cases zeros : ∀ byte ∈ beacon.taken nbuf, byte = 0
  · rw [if_pos (decide_eq_true zeros), if_pos zeros]
    obtain ⟨isData, isOutside⟩ := received.overwritten same known zeros some alloc
    have length := received.length_eq
    have counted := beacon.counted_le
    have isThere : splice (beacon.frame beacon.ssid)
      (beacon.counted + 2) conf.ssid.length conf.ssid =
        beacon.frame beacon.ssid ↔ nbuf.read (beacon.counted + 2) conf.ssid.length = conf.ssid := by
      rw [← received.isFrame, splice_eq_self (by omega)]
      unfold Nbuf.read
      rw [List.drop_append_of_le_length (by omega),
        List.take_append_of_le_length (by rw [List.length_drop]; omega)]
    constructor
    · intro only
      by_cases hidden : beacon.Hidden
      · have right := only.replaced hidden notWps (.inr same)
        rw [isData] at right
        by_cases isRight : beacon.counted = beacon.before.length
        · exact .inl ⟨hidden, beacon.counted_eq_iff.mp isRight⟩
        · have isSsid := beacon.wrong_place same hidden isRight right
          refine .inr ⟨fun _ => isSsid, isThere.mp (right.trans ?_)⟩
          rw [isSsid]
      · have kept := only.unchanged (.inl hidden)
        rw [isData] at kept
        exact .inr ⟨fun isHidden => absurd isHidden hidden, isThere.mp kept⟩
    · rintro (⟨hidden, empty⟩ | ⟨isSsid, there⟩)
      · refine ⟨isOutside.trans inside, fun either => ?_, fun _ _ _ => ?_⟩
        · rcases either with visible | ⟨elem, member, isWps⟩
          · exact absurd hidden visible
          · exact absurd isWps (notWps elem member)
        · rw [isData, beacon.counted_eq_iff.mpr empty, beacon.frame_write same]
      · refine ⟨isOutside.trans inside, fun _ => isData.trans (isThere.mpr there),
          fun hidden _ _ => ?_⟩
        rw [isData, isThere.mpr there, isSsid hidden]
  · rw [if_neg (by simpa using zeros), if_neg zeros, inside, received.onlySsid_unchanged .success]
    exact ⟨fun unchanged hidden => unchanged hidden notWps (.inr same), fun isSsid hidden _ _ =>
      isSsid hidden⟩

theorem Received.onlySsid_of_otherLength (some : beacon.ssid.length ≠ 0)
    (short : beacon.ssid.length ≤ ssidMaxLen) (notLast : beacon.post ≠ [])
    (other : beacon.ssid.length ≠ conf.ssid.length) :
    OnlySsid conf beacon (addHiddenSsid conf alloc nbuf) := by
  have notPre : ∀ elem ∈ beacon.pre, ¬ IsWps elem := fun elem member =>
    notWps elem (List.mem_append_left _ member)
  have notPost : ∀ elem ∈ beacon.post, ¬ IsWps elem := fun elem member =>
    notWps elem (List.mem_append_right _ member)
  obtain ⟨after, looped, outside, _, known⟩ := received.loop_ssid notPre short
  have inside : after.outside = false := outside.trans (decide_eq_false fun both => notLast both.2)
  have unchanged : ∃ status, addHiddenSsid conf alloc nbuf = ⟨nbuf, status, false⟩ := by
    rw [received.addHiddenSsid_of_walk looped, if_pos rfl]
    split
    · unfold Walk.setSsid
      rw [(known notPost).ssidLen, if_neg some, if_neg other, inside]
      exact ⟨.invalid, rfl⟩
    · rw [inside]
      exact ⟨.success, rfl⟩
  obtain ⟨status, isOutcome⟩ := unchanged
  rw [isOutcome, received.onlySsid_unchanged status]
  rintro _ _ (none | same)
  · exact absurd none some
  · exact absurd same other

end NoWps

/-- **When only the SSID is replaced.** -/
theorem onlySsid_iff (received : Received conf beacon nbuf) (alloc : Bool) :
    OnlySsid conf beacon (addHiddenSsid conf alloc nbuf) ↔ Meets conf alloc beacon nbuf := by
  by_cases wps : ∃ elem ∈ beacon.pre ++ beacon.post, IsWps elem
  · obtain ⟨status, isOutcome⟩ := received.unchanged_of_wps wps alloc
    refine iff_of_true ?_ (.wps wps)
    rw [isOutcome, received.onlySsid_unchanged status]
    obtain ⟨elem, member, isWps⟩ := wps
    exact fun _ notWps => absurd isWps (notWps elem member)
  have notWps : ∀ elem ∈ beacon.pre ++ beacon.post, ¬ IsWps elem :=
    fun elem member isWps => wps ⟨elem, member, isWps⟩
  by_cases long : ssidMaxLen < beacon.ssid.length
  · exact received.onlySsid_iff_of_long notWps long
  have short := Nat.le_of_not_lt long
  by_cases none : beacon.ssid.length = 0
  · rw [received.onlySsid_iff_of_empty notWps none]
    constructor
    · rintro ⟨empty, notLast, isAlloc⟩
      exact .empty none empty notLast isAlloc
    · have differs := received.configured
      rintro (isWps | tooLong | ⟨_, empty, notLast, isAlloc⟩ | ⟨_, some, _⟩ | ⟨_, same, _, _,
        _⟩ | ⟨_, same, _, _, _⟩ |
        ⟨_, same, _, _⟩)
      · exact absurd isWps wps
      · exact absurd tooLong long
      · exact ⟨empty, notLast, isAlloc⟩
      · exact absurd none some
      · exact absurd (same.symm.trans none) differs
      · exact absurd (same.symm.trans none) differs
      · exact absurd (same.symm.trans none) differs
  by_cases isLast : beacon.post = []
  · refine iff_of_false (received.onlySsid_iff_of_last notWps none short isLast) ?_
    rintro (isWps | tooLong | ⟨isNone, _, _, _⟩ | ⟨notLast, _, _⟩ | ⟨notLast, _, _, _,
      _⟩ | ⟨notLast, _, _, _, _⟩ |
      ⟨notLast, _, _, _⟩)
    · exact wps isWps
    · exact long tooLong
    · exact none isNone
    all_goals exact notLast isLast
  by_cases same : beacon.ssid.length = conf.ssid.length
  · rw [received.onlySsid_iff_of_some notWps none short isLast same]
    by_cases zeros : ∀ byte ∈ beacon.taken nbuf, byte = 0
    · rw [if_pos zeros]
      constructor
      · rintro (⟨hidden, empty⟩ | ⟨isSsid, there⟩)
        · exact .hidden isLast same zeros hidden empty
        · exact .same isLast same zeros isSsid there
      · rintro (isWps | tooLong | ⟨isNone, _, _, _⟩ | ⟨_, _, other⟩ | ⟨_, _, _, hidden, empty⟩ |
          ⟨_, _, _, isSsid, there⟩ | ⟨_, _, unseen, _⟩)
        · exact absurd isWps wps
        · exact absurd tooLong long
        · exact absurd isNone none
        · exact absurd same other
        · exact .inl ⟨hidden, empty⟩
        · exact .inr ⟨isSsid, there⟩
        · exact absurd zeros unseen
    · rw [if_neg zeros]
      constructor
      · exact fun isSsid => .seen isLast same zeros isSsid
      · rintro (isWps | tooLong | ⟨isNone, _, _, _⟩ | ⟨_, _, other⟩ | ⟨_, _, all, _, _⟩ | ⟨_, _,
          all, _, _⟩ |
          ⟨_, _, _, isSsid⟩)
        · exact absurd isWps wps
        · exact absurd tooLong long
        · exact absurd isNone none
        · exact absurd same other
        · exact absurd all zeros
        · exact absurd all zeros
        · exact isSsid
  · exact iff_of_true (received.onlySsid_of_otherLength notWps none short isLast same)
      (.otherLength isLast none same)

/-- The SSID that is configured for a BSSID of zeros. -/
def smallConf : Conf := ⟨List.replicate 6 0, [65, 66]⟩

/-- A beacon with an SSID in front, and rates behind it. -/
def ratesBehind (ssid : List Nat) (short : ssid.length < 2 ^ 8) : Beacon :=
  ⟨List.replicate 24 0, List.replicate 12 0, [], ssid, [⟨1, [130]⟩], rfl,
    rfl, by decide, by decide, short⟩

theorem empty_replaced : OnlySsid smallConf (ratesBehind [] (by decide))
    (addHiddenSsid smallConf true ⟨(ratesBehind [] (by decide)).frame [], [7, 7, 7]⟩) :=
  (onlySsid_iff ⟨rfl, rfl, by decide, by decide, by decide, by decide⟩ true).mpr
    (.empty rfl (fun _ member => absurd member List.not_mem_nil) (by decide) rfl)

/-- A hidden SSID of zeros: what is taken for its contents is the header of the next element. -/
theorem zeros_not_replaced : Received smallConf (ratesBehind [0, 0] (by decide))
      ⟨(ratesBehind [0, 0] (by decide)).frame [0, 0], [7, 7, 7]⟩ ∧
    ¬ OnlySsid smallConf (ratesBehind [0, 0] (by decide))
      (addHiddenSsid smallConf true ⟨(ratesBehind [0, 0] (by decide)).frame [0, 0],
          [7, 7, 7]⟩) := by
  refine ⟨⟨rfl, rfl, by decide, by decide, by decide, by decide⟩, fun only => ?_⟩
  have replaced := only.replaced (by unfold Beacon.Hidden; decide) (by decide) (.inr rfl)
  exact absurd replaced (by decide)

end Qsdk.HiddenSsid
