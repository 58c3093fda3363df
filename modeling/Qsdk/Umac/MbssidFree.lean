/-
**Multiple BSSID elements are not merged.**

What `util_gen_new_ie` makes of a profile depends on the other elements of the beacon alone
(`genNewIe_eq_newElems`): each element is looked at by itself, and as the profile is one part of the
beacon there is room for all that is copied.
-/

import Qsdk.Umac.Inherited

namespace Qsdk.Inheritance

open Qsdk.Elements

variable {elem own : Elem} {elems before after : List Elem} {front rest newIe : List Nat}
    {ielen : Nat} {ninh : Ninh}

/-- The elements behind the SSID. -/
def afterSsid : List Elem → List Elem
  | [] => []
  | elem :: elems => if elem.id = 0 then elems else afterSsid elems

/-- The elements that are gone over. -/
def gone (elems : List Elem) : List Elem := if elems.any fun elem =>
    decide (elem.id = 0) then afterSsid elems else elems

/-- All but the Multiple BSSID elements. -/
def isOther (elem : Elem) : Bool := decide (elem.id ≠ 71)

/-- One element of the transmitting BSS by itself, with room for it. -/
def mergeElem (ninh : Ninh) (subieLen : Nat) (merge : Merge) (elem : Elem) : Merge :=
  if merge.nonInhIeFound ninh elem.bytes 0 || decide (elem.id = 0) then merge
  else merge.one elem.bytes (merge.newIe.length + merge.subCopy.length + elem.bytes.length) subieLen
    0

/-- The new elements, from the other elements of a beacon and a profile. -/
def newElems (others profile : List Elem) : List Nat :=
  let ninh := findNinh (encode profile)
  let merge := (gone others).foldl (mergeElem ninh (encode profile).length)
    ⟨ninh.subCopy, encode (profile.find? fun elem => decide (elem.id = 0)).toList⟩
  (restLoop (merge.newIe.length + merge.subCopy.length) (encode profile).length
    (encode profile).length 0 merge).newIe

/-! ### One element -/

theorem nonInhIeFound_alone (merge : Merge) (isWhole : Whole elem) :
    merge.nonInhIeFound ninh (front ++ (elem.bytes ++ rest)) front.length =
        merge.nonInhIeFound ninh elem.bytes 0 := by
  have alone := @byteAt_id elem [] []
  rw [List.append_nil, List.nil_append, List.length_nil] at alone
  unfold Merge.nonInhIeFound
  rw [byteAt_id, alone]
  by_cases isExtn : elem.id = 255
  · have here := @byteAt_head elem front rest (isWhole.extension isExtn)
    have aloneHead := @byteAt_head elem [] [] (isWhole.extension isExtn)
    rw [List.append_nil, List.nil_append, List.length_nil] at aloneHead
    rw [Option.some.inj (here.symm.trans aloneHead)]
  · have noExtn : decide (ninh.extnLen ≠ 0 ∧ elem.id = 255) = false :=
      decide_eq_false fun both => isExtn both.2
    rw [noExtn, Bool.false_and, Bool.false_and]

/-- An element that is taken over, or replaced. -/
def passes (elem : Elem) : Bool := decide (elem.id ≠ 0 ∧ elem.id ≠ 71)

/-- What one element has done to the copy and the new elements. -/
structure Step (elems : List Elem) (newIe : List Nat) (cost : Nat) (merge : Merge)
    (elems' : List Elem) (added : List Nat) : Prop where
  isMerge : merge = ⟨encode elems', newIe ++ added⟩
  fit : Fit elems'
  length : (encode elems').length = (encode elems).length
  least : added.length + (encode (live elems')).length ≤ (encode (live elems)).length + cost

theorem Step.refl (fit : Fit elems) (cost : Nat) : Step elems newIe cost
    ⟨encode elems, newIe⟩ elems [] :=
  ⟨by rw [List.append_nil], fit, rfl, by
    rw [List.length_nil, Nat.zero_add]; exact Nat.le_add_right ..⟩

theorem length_live_marked (some : own.id ≠ 0) : (encode (live (before ++ own :: after))).length =
    own.bytes.length + (encode (live (before ++ marked own :: after))).length := by
  rw [live_append, live_append, live_cons some, live_marked, encode_append, encode_append,
    encode_cons,
    List.length_append, List.length_append, List.length_append]
  omega

/-- The decision on an element does not depend on what is around it, if there is room. -/
theorem one_alone (fit : Fit elems) (isWhole : Whole elem) (notSsid : elem.id ≠ 0) (limit : Nat)
    (room : newIe.length + (encode (live elems)).length +
      (if passes elem then elem.bytes.length else 0) ≤ ielen)
    (enough : newIe.length + (encode (live elems)).length + elem.bytes.length ≤ limit) :
    (Merge.mk (encode elems) newIe).one (front ++ (elem.bytes ++ rest)) ielen
    (encode elems).length front.length =
        (Merge.mk (encode elems) newIe).one elem.bytes limit (encode elems).length 0 ∧
      ∃ elems' added, Step elems newIe (if passes elem then elem.bytes.length else 0)
        ((Merge.mk (encode elems) newIe).one elem.bytes limit (encode elems).length 0)
            elems' added := by
  have alone : [] ++ (elem.bytes ++ []) = elem.bytes := by rw [List.nil_append, List.append_nil]
  rcases scanFindIe_copy elem.id elems with ⟨before, own, after, rfl, isId, _,
    isFound⟩ | ⟨_, missing⟩
  · have ownIn : own ∈ before ++ own :: after := List.mem_append_right _ List.mem_cons_self
    have ownWhole := fit.whole own ownIn
    have isPassed : passes elem = true := decide_eq_true ⟨notSsid, isId ▸ fit.noMbssid own ownIn⟩
    have ownSome : own.id ≠ 0 := isId ▸ notSsid
    have lengths := @length_live_marked own before after ownSome
    rw [isPassed, if_pos rfl] at room ⊢
    have here := @one_found elem front rest own before after newIe ielen isFound isId
      isWhole ownWhole
      (fun _ => by omega) (fun _ => by omega)
    have byItself := @one_found elem [] [] own before after newIe limit isFound isId
      isWhole ownWhole
      (fun _ => by omega) (fun _ => by omega)
    rw [alone, List.length_nil] at byItself
    refine ⟨here.trans byItself.symm, ?_⟩
    rw [byItself]
    by_cases same : identity own = identity elem
    · rw [if_pos same]
      refine ⟨before ++ marked own :: after, own.bytes, rfl, fit.mark,
        length_encode_marked before after own, ?_⟩
      omega
    · rw [if_neg same]
      exact ⟨before ++ own :: after, elem.bytes, rfl, fit, rfl, by omega⟩
  · by_cases isMbssid : elem.id = 71
    · have idle : ∀ front rest limit, (Merge.mk (encode elems) newIe).one
        (front ++ (elem.bytes ++ rest)) limit
          (encode elems).length front.length = ⟨encode elems, newIe⟩ := by
        intro front rest limit
        unfold Merge.one
        rw [byteAt_id, missing]
        exact if_neg (not_not.mpr isMbssid)
      have byItself := idle [] [] limit
      rw [alone, List.length_nil] at byItself
      rw [idle, byItself]
      exact ⟨rfl, elems, [], Step.refl fit _⟩
    · have isPassed : passes elem = true := decide_eq_true ⟨notSsid, isMbssid⟩
      rw [isPassed, if_pos rfl] at room ⊢
      have here := @one_missing elem front rest newIe ielen elems isMbssid missing (by omega)
      have byItself := @one_missing elem [] [] newIe limit elems isMbssid missing (by omega)
      rw [alone, List.length_nil] at byItself
      rw [here, byItself]
      exact ⟨rfl, elems, elem.bytes, rfl, fit, rfl, by omega⟩

theorem length_live_le (elems : List Elem) : (encode (live elems)).length ≤
    (encode elems).length := by
  induction elems with
  | nil => exact Nat.le_refl 0
  | cons elem elems ih =>
    unfold live at ih ⊢
    rw [List.filter_cons]
    split
    case isTrue =>
      rw [encode_cons, encode_cons, List.length_append, List.length_append]
      omega
    case isFalse =>
      rw [encode_cons, List.length_append]
      omega

/-- One element by itself. -/
theorem mergeElem_step (fit : Fit elems) (isWhole : Whole elem) :
    ∃ elems' added, Step elems newIe (if passes elem then elem.bytes.length else 0)
      (mergeElem ninh (encode elems).length ⟨encode elems, newIe⟩ elem) elems' added := by
  unfold mergeElem
  by_cases skipped :
    ((Merge.mk (encode elems) newIe).nonInhIeFound ninh elem.bytes 0 || decide (elem.id = 0)) = true
  · rw [if_pos skipped]
    exact ⟨elems, [], Step.refl fit _⟩
  · have notSsid : elem.id ≠ 0 := fun isSsid =>
      skipped (by rw [decide_eq_true isSsid, Bool.or_true])
    have least := length_live_le elems
    rw [if_neg skipped]
    refine (@one_alone elem elems [] [] newIe (newIe.length + (encode (live elems)).length +
      (if passes elem then elem.bytes.length else 0)) fit isWhole notSsid _ (Nat.le_refl _) ?_).2
    dsimp only
    omega

/-- One element in the beacon, if there is room. -/
theorem mergeElem_eq (fit : Fit elems) (isWhole : Whole elem)
    (room : newIe.length + (encode (live elems)).length +
        (if passes elem then elem.bytes.length else 0) ≤ ielen) :
    (if (Merge.mk (encode elems) newIe).nonInhIeFound ninh
      (front ++ (elem.bytes ++ rest)) front.length ||
        decide (elem.id = 0) then ⟨encode elems, newIe⟩
      else (Merge.mk (encode elems) newIe).one (front ++ (elem.bytes ++ rest)) ielen
        (encode elems).length front.length) =
      mergeElem ninh (encode elems).length ⟨encode elems, newIe⟩ elem := by
  unfold mergeElem
  rw [nonInhIeFound_alone _ isWhole]
  by_cases skipped :
    ((Merge.mk (encode elems) newIe).nonInhIeFound ninh elem.bytes 0 || decide (elem.id = 0)) = true
  · rw [if_pos skipped, if_pos skipped]
  · have notSsid : elem.id ≠ 0 := fun isSsid =>
      skipped (by rw [decide_eq_true isSsid, Bool.or_true])
    have least := length_live_le elems
    rw [if_neg skipped, if_neg skipped]
    refine (one_alone fit isWhole notSsid _ room ?_).1
    dsimp only
    omega

/-- A Multiple BSSID element does nothing. -/
theorem mergeElem_mbssid (fit : Fit elems) (isMbssid : elem.id = 71) :
    mergeElem ninh (encode elems).length ⟨encode elems, newIe⟩ elem = ⟨encode elems, newIe⟩ := by
  unfold mergeElem
  split
  · rfl
  · have alone := @byteAt_id elem [] []
    rw [List.append_nil, List.nil_append, List.length_nil] at alone
    rcases scanFindIe_copy elem.id elems with ⟨_, own, _, rfl, isId, _⟩ | ⟨_, missing⟩
    · exact absurd (isId.trans isMbssid)
        (fit.noMbssid own (List.mem_append_right _ List.mem_cons_self))
    · unfold Merge.one
      rw [alone, missing]
      exact if_neg (not_not.mpr isMbssid)

/-! ### The loop -/

theorem encode_filter_cons (test : Elem → Bool) (elem : Elem) (elems : List Elem) :
    (encode ((elem :: elems).filter test)).length =
      (if test elem then elem.bytes.length else 0) + (encode (elems.filter test)).length := by
  rw [List.filter_cons]
  split
  · rw [encode_cons, List.length_append]
  · rw [Nat.zero_add]

/-- The elements go one by one. -/
theorem foldl_mergeElem_step {transmitted : List Elem} (whole : ∀ elem ∈ transmitted, Whole elem)
    (fit : Fit elems) :
    ∃ elems' added, Step elems newIe (encode (transmitted.filter passes)).length
      (transmitted.foldl (mergeElem ninh (encode elems).length) ⟨encode elems, newIe⟩)
          elems' added := by
  induction transmitted generalizing elems newIe with
  | nil => exact ⟨elems, [], Step.refl fit _⟩
  | cons elem transmitted ih =>
    obtain ⟨isWhole, whole⟩ := List.forall_mem_cons.mp whole
    obtain ⟨elems', added, step⟩ := @mergeElem_step elem elems newIe ninh fit isWhole
    obtain ⟨elems'', added', run⟩ := @ih elems' (newIe ++ added) whole step.fit
    rw [step.length] at run
    refine ⟨elems'', added ++ added', ?_, run.fit, run.length.trans step.length, ?_⟩
    · rw [List.foldl_cons, step.isMerge, run.isMerge, List.append_assoc]
    · have first := step.least
      have later := run.least
      rw [encode_filter_cons, List.length_append]
      omega

/-- **The loop over a beacon's elements** goes over those that are not a Multiple BSSID element. -/
theorem mergeLoop_eq_foldl {transmitted : List Elem} {memory : List Nat} {rounds : Nat}
    (enough : transmitted.length ≤ rounds)
    (isLen : ielen = front.length + (encode transmitted).length)
    (whole : ∀ elem ∈ transmitted, Whole elem) (fit : Fit elems)
        (room : newIe.length + (encode (live elems)).length +
          (encode (transmitted.filter passes)).length ≤ ielen) :
    mergeLoop ninh (front ++ (encode transmitted ++ memory)) ielen
    (encode elems).length rounds front.length
        ⟨encode elems, newIe⟩ =
      (transmitted.filter isOther).foldl (mergeElem ninh (encode elems).length)
        ⟨encode elems, newIe⟩ := by
  induction transmitted generalizing front rounds elems newIe with
  | nil =>
    rw [encode_nil, List.length_nil] at isLen
    rw [mergeLoop_end rounds (by omega)]
    rfl
  | cons elem transmitted ih =>
    obtain ⟨rounds, rfl⟩ := Nat.exists_eq_add_of_lt (Nat.lt_of_lt_of_le (Nat.succ_pos _) enough)
    rw [Nat.zero_add] at enough ⊢
    obtain ⟨isWhole, whole⟩ := List.forall_mem_cons.mp whole
    rw [encode_cons, List.length_append] at isLen
    rw [encode_filter_cons] at room
    have isLen' : ielen = (front ++ elem.bytes).length + (encode transmitted).length := by
      rw [List.length_append]
      omega
    obtain ⟨elems', added, step⟩ := @mergeElem_step elem elems newIe ninh fit isWhole
    have least := step.least
    have further := @ih elems' (front ++ elem.bytes) (newIe ++ added) rounds
      (Nat.le_of_succ_le_succ enough) isLen' whole
      step.fit (by rw [List.length_append]; omega)
    rw [step.length, List.append_assoc] at further
    rw [encode_cons, List.append_assoc, mergeLoop_round rounds _ (by omega),
      mergeElem_eq fit isWhole (by omega)]
    by_cases isMbssid : elem.id = 71
    · rw [List.filter_cons_of_neg (by simp [isOther, isMbssid]), mergeElem_mbssid fit isMbssid]
      rw [← step.isMerge, mergeElem_mbssid fit isMbssid] at further
      exact further
    · have isIt : isOther elem = true := decide_eq_true isMbssid
      rw [List.filter_cons_of_pos isIt, List.foldl_cons, step.isMerge]
      exact further

/-! ### The whole -/

theorem afterSsid_append (none : ∀ elem ∈ before, elem.id ≠ 0) (isSsid : own.id = 0) :
    afterSsid (before ++ own :: after) = after := by
  induction before with
  | nil => exact if_pos isSsid
  | cons elem before ih =>
    obtain ⟨notSsid, none⟩ := List.forall_mem_cons.mp none
    rw [List.cons_append, afterSsid, if_neg notSsid]
    exact ih none

theorem afterSsid_filter (elems : List Elem) : afterSsid (elems.filter isOther) =
    (afterSsid elems).filter isOther := by
  induction elems with
  | nil => rfl
  | cons elem elems ih =>
    rw [afterSsid]
    by_cases isSsid : elem.id = 0
    · rw [if_pos isSsid, List.filter_cons_of_pos (by simp [isOther, isSsid]), afterSsid,
        if_pos isSsid]
    · rw [if_neg isSsid, List.filter_cons]
      split
      · rw [afterSsid, if_neg isSsid]
        exact ih
      · exact ih

theorem gone_filter (elems : List Elem) : gone (elems.filter isOther) =
    (gone elems).filter isOther := by
  have same : (elems.filter isOther).any (fun elem => decide (elem.id = 0)) =
      elems.any fun elem => decide (elem.id = 0) := by
    rw [List.any_filter]
    congr 1
    funext elem
    by_cases isSsid : elem.id = 0
    · simp [isOther, isSsid]
    · simp [isSsid]
  unfold gone
  rw [same]
  split
  · exact afterSsid_filter elems
  · rfl

/-- The loop starts at what is gone over. -/
theorem startOld_gone (transmitted : List Elem) (memory : List Nat) :
    ∃ skipped, transmitted = skipped ++ gone transmitted ∧
      startOld (encode transmitted ++ memory) (encode transmitted).length =
          (encode skipped).length := by
  obtain ⟨skipped, later, isTransmitted, isStart, isSkipped⟩ := startOld_eq transmitted memory
  refine ⟨skipped, ?_, isStart⟩
  have isGone : gone transmitted = later := by
    unfold gone
    rcases isSkipped with ⟨rfl, none⟩ | ⟨before, ssid, rfl, isSsid, none⟩
    · have noSsid : later.any (fun elem => decide (elem.id = 0)) = false :=
        List.any_eq_false.mpr fun elem member => by simpa using none elem member
      rw [isTransmitted, List.nil_append, noSsid, if_neg Bool.false_ne_true]
    · have some : (before ++ ssid :: later).any (fun elem => decide (elem.id = 0)) = true :=
        List.any_eq_true.mpr ⟨ssid, List.mem_append_right _ List.mem_cons_self,
          decide_eq_true isSsid⟩
      rw [isTransmitted, List.append_assoc, List.singleton_append, some, if_pos rfl,
        afterSsid_append none isSsid]
  rw [isGone]
  exact isTransmitted

theorem parse_subCopy (ninh : Ninh) (extnElem : Nat) (remLen : Int) :
    ((ninh.parseList extnElem remLen).1.subCopy = ninh.subCopy ∨
      (ninh.parseList extnElem remLen).1.subCopy = ninh.subCopy.set extnElem 0) ∧
    ((ninh.parseExtnList extnElem remLen).subCopy = ninh.subCopy ∨
      (ninh.parseExtnList extnElem remLen).subCopy = ninh.subCopy.set extnElem 0) := by
  unfold Ninh.parseList Ninh.parseExtnList
  dsimp only
  refine ⟨?_, ?_⟩
  · split
    · split
      · exact .inl rfl
      · exact .inr rfl
    · exact .inl rfl
  · simp only [apply_ite Ninh.subCopy, ite_self]
    generalize (if ninh.listLen = 0 then byteAt _ _ else byteAt _ _) = extnLen
    split
    · split
      · exact .inr rfl
      · exact .inl rfl
    · exact .inl rfl

/-- A Non-Inheritance element that is taken for corrupt is marked, and nothing else is changed. -/
theorem findNinh_fit (fit : Fit elems) :
    ∃ elems', (findNinh (encode elems)).subCopy = encode elems' ∧ Fit elems' ∧
      (encode elems').length = (encode elems).length ∧ (encode (live elems')).length ≤
          (encode (live elems)).length := by
  have same : ∃ elems', encode elems = encode elems' ∧ Fit elems' ∧
      (encode elems').length = (encode elems).length ∧ (encode (live elems')).length ≤
          (encode (live elems)).length :=
    ⟨elems, rfl, fit, rfl, Nat.le_refl _⟩
  unfold findNinh
  rcases scanFindNoninheritanceIe_eq elems fun elem member => (fit.whole elem member).extension with
    ⟨before, elem, after, rfl, isIt, _, isFound⟩ | ⟨_, isNone⟩
  · have some : elem.id ≠ 0 := by
      have isExtn := (of_decide_eq_true isIt).1
      omega
    have lengths := @length_live_marked elem before after some
    have isMarked : ∃ elems', (encode (before ++ elem :: after)).set (encode before).length 0 =
      encode elems' ∧
        Fit elems' ∧ (encode elems').length = (encode (before ++ elem :: after)).length ∧
        (encode (live elems')).length ≤ (encode (live (before ++ elem :: after))).length :=
      ⟨before ++ marked elem :: after, set_encode before after elem, fit.mark,
        length_encode_marked before after elem,
        by omega⟩
    rw [isFound]
    dsimp only
    split
    case isFalse => exact same
    case isTrue =>
      unfold parseNoninheritanceList
      dsimp only
      split
      case isFalse => exact same
      case isTrue =>
        generalize int8 _ = remLen
        have list :=
          (parse_subCopy ⟨0, 0, true, 0, 0, encode (before ++ elem :: after)⟩
            (encode before).length remLen).1
        generalize Ninh.parseList _ _ _ = parsed at list ⊢
        have extn := (parse_subCopy parsed.1 (encode before).length (int8 (parsed.2 - 1))).2
        rcases list with list | list
        · rw [list] at extn
          rcases extn with extn | extn
          · rw [extn]
            exact same
          · rw [extn]
            exact isMarked
        · rw [list, List.set_set] at extn
          rw [extn.elim id id]
          exact isMarked
  · rw [isNone]
    exact same

theorem length_ssid_live (elems : List Elem) :
    (encode (elems.find? fun elem => decide (elem.id = 0)).toList).length +
    (encode (live elems)).length ≤
      (encode elems).length := by
  induction elems with
  | nil => exact Nat.le_refl 0
  | cons elem elems ih =>
    have least := length_live_le elems
    rw [encode_cons, List.length_append]
    by_cases isSsid : elem.id = 0
    · have skipped : live (elem :: elems) = live elems := List.filter_cons_of_neg (by simp [isSsid])
      have found : (elem :: elems).find? (fun elem => decide (elem.id = 0)) = some elem :=
        List.find?_cons_of_pos (decide_eq_true isSsid)
      rw [found, skipped, Option.toList_some, encode_cons, encode_nil, List.append_nil]
      omega
    · have further : (elem :: elems).find? (fun elem => decide (elem.id = 0)) =
          elems.find? fun elem => decide (elem.id = 0) := List.find?_cons_of_neg (by simp [isSsid])
      rw [further, live_cons isSsid, encode_cons, List.length_append]
      omega

theorem length_filter_le (test : Elem → Bool) (elems : List Elem) :
    (encode (elems.filter test)).length ≤ (encode elems).length := by
  induction elems with
  | nil => exact Nat.le_refl 0
  | cons elem elems ih =>
    rw [encode_filter_cons, encode_cons, List.length_append]
    split
    · omega
    · omega

/-- The elements of the whole copy are those of the new elements, if there is room. -/
theorem restLoop_fit (fit : Fit elems)
    (room : newIe.length + (encode (live elems)).length ≤ ielen) :
    (restLoop ielen (encode elems).length (encode elems).length 0 ⟨encode elems, newIe⟩).newIe =
      newIe ++ encode (elems.filter isRest) := by
  have least := length_filter_le isRest (live elems)
  rw [filter_live] at least
  have enough := two_le_length_encode elems
  have last := @restLoop_eq elems [] newIe ielen (encode elems).length (encode elems).length
    (by omega) fit.whole
    (by rw [List.length_nil, Nat.zero_add]) (by omega)
  rwa [List.nil_append] at last

/-- **What the new elements depend on.** -/
theorem genNewIe_eq_newElems {transmitted : List Elem} (memory : List Nat)
    (whole : ∀ elem ∈ transmitted, Whole elem) (fit : Fit elems) (some : elems ≠ [])
    (room : (encode elems).length + (encode (transmitted.filter isOther)).length ≤
        (encode transmitted).length) :
    genNewIe true (encode transmitted ++ memory) (encode transmitted).length (encode elems) =
      newElems (transmitted.filter isOther) elems := by
  have notEmpty : (encode elems).length ≠ 0 := fun empty => some (length_encode_eq_zero.mp empty)
  have ssidLive := length_ssid_live elems
  obtain ⟨copy, isCopy, copyFit, length, least⟩ := findNinh_fit fit
  obtain ⟨skipped, isTransmitted, isStart⟩ := startOld_gone transmitted memory
  have wholeGone : ∀ elem ∈ gone transmitted, Whole elem := by
    intro elem member
    refine whole elem ?_
    rw [isTransmitted]
    exact List.mem_append_right _ member
  have goneLe : (encode ((gone transmitted).filter isOther)).length ≤
      (encode (transmitted.filter isOther)).length := by
    have isFiltered : transmitted.filter isOther = skipped.filter isOther ++
        (gone transmitted).filter isOther := by
      conv_lhs => rw [isTransmitted, List.filter_append]
    rw [isFiltered, encode_append, List.length_append]
    exact Nat.le_add_left ..
  have passed : ((gone transmitted).filter isOther).filter passes =
      (gone transmitted).filter passes := by
    rw [List.filter_filter]
    refine List.filter_congr fun elem _ => ?_
    unfold passes isOther
    by_cases isMbssid : elem.id = 71
    · simp [isMbssid]
    · simp [isMbssid]
  have passedLe := length_filter_le passes ((gone transmitted).filter isOther)
  rw [passed] at passedLe
  have memoryEq : encode transmitted ++ memory = encode skipped ++
      (encode (gone transmitted) ++ memory) := by
    conv_lhs => rw [isTransmitted, encode_append, List.append_assoc]
  have isLen : (encode transmitted).length = (encode skipped).length +
      (encode (gone transmitted)).length := by
    conv_lhs => rw [isTransmitted, encode_append, List.length_append]
  have enough : (gone transmitted).length ≤ (encode transmitted).length := by
    have := two_le_length_encode (gone transmitted)
    omega
  have looped := @mergeLoop_eq_foldl copy (encode skipped)
    (encode (elems.find? fun elem : Elem => decide (elem.id = 0)).toList)
    (encode transmitted).length
    (findNinh (encode elems)) (gone transmitted) memory
    (encode transmitted).length enough isLen wholeGone copyFit (by omega)
  obtain ⟨merged, added, step⟩ := @foldl_mergeElem_step copy
    (encode (elems.find? fun elem : Elem => decide (elem.id = 0)).toList) (findNinh (encode elems))
    ((gone transmitted).filter isOther)
    (fun elem member => wholeGone elem (List.mem_filter.mp member).1) copyFit
  have costs := step.least
  rw [passed] at costs
  rw [step.isMerge] at looped
  have isMerged := step.isMerge
  have liveLe := length_live_le merged
  unfold newElems genNewIe
  dsimp only
  rw [decide_eq_false notEmpty, if_neg (by decide), putSsid_eq elems (by omega), isStart, isCopy,
    memoryEq, gone_filter,
    ← length, looped, isMerged, ← step.length, restLoop_fit step.fit
    (by rw [List.length_append]; omega),
    restLoop_fit step.fit (by dsimp only; omega)]

/-- With an SSID in the profile there are new elements. -/
theorem newElems_ne_nil (others : List Elem) (whole : ∀ elem ∈ others, Whole elem) (fit : Fit elems)
    (ssid : ∃ elem ∈ elems, elem.id = 0) : (newElems others elems).length ≠ 0 := by
  obtain ⟨copy, isCopy, copyFit, length, _⟩ := findNinh_fit fit
  have wholeGone : ∀ elem ∈ gone others, Whole elem := by
    intro elem member
    obtain ⟨skipped, isOthers, _⟩ := startOld_gone others []
    refine whole elem ?_
    rw [isOthers]
    exact List.mem_append_right _ member
  obtain ⟨merged, added, step⟩ := @foldl_mergeElem_step copy
    (encode (elems.find? fun elem : Elem => decide (elem.id = 0)).toList) (findNinh (encode elems))
    (gone others)
    wholeGone copyFit
  have isMerged := step.isMerge
  have liveLe := length_live_le merged
  have least : 2 ≤ (encode (elems.find? fun elem => decide (elem.id = 0)).toList).length := by
    obtain ⟨elem, member, isSsid⟩ := ssid
    cases found : elems.find? fun elem => decide (elem.id = 0) with
    | none => exact absurd (decide_eq_true isSsid) (List.find?_eq_none.mp found elem member)
    | some own =>
      rw [Option.toList_some, encode_cons, List.length_append, Elem.length_bytes]
      omega
  unfold newElems
  dsimp only
  rw [isCopy, ← length, isMerged, ← step.length, restLoop_fit step.fit (by dsimp only; omega),
    List.length_append,
    List.length_append]
  omega

end Qsdk.Inheritance
