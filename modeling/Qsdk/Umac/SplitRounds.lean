/-
**Sub-elements one by one.**

While the walk goes over the sub-elements, a profile that has begun is kept with the index that was
found in it (`Ready`). Where the guess is right, one round adds a part to what it belongs to
(`round_eq`), and the loop over the sub-elements of one Multiple BSSID element gives each profile
that ends there its entry (`subLoop_eq`).
-/

import Qsdk.Umac.SplitProfiles

namespace Qsdk.SplitProfiles

open Qsdk.Elements Qsdk.Inheritance

/-! ### Parts and profiles -/

theorem joinFrom_head (begun : List Elem) (parts : List (List Elem)) :
    ∃ more tail, joinFrom begun parts = (begun ++ more) :: tail := by
  induction parts generalizing begun with
  | nil => exact ⟨[], [], by rw [List.append_nil]; rfl⟩
  | cons part parts ih =>
    rw [joinFrom]
    split
    · exact ⟨[], joinFrom part parts, by rw [List.append_nil]⟩
    · obtain ⟨more, tail, isHead⟩ := ih (begun ++ part)
      exact ⟨part ++ more, tail, by rw [isHead, List.append_assoc]⟩

theorem joinFrom_of_ended {begun : List Elem} {parts : List (List Elem)}
    (ended : continues parts = false) :
    joinFrom begun parts = begun :: join none parts := by
  cases parts with
  | nil => rfl
  | cons part parts =>
    have start : isStart part = true := by simpa [continues] using ended
    rw [joinFrom, if_pos start]
    rfl

theorem join_cons {begun : Option (List Elem)} {part : List Elem} (parts : List (List Elem))
    (same : begun.isSome = !isStart part) :
    join begun (part :: parts) = joinFrom (begun.getD [] ++ part) parts := by
  cases begun with
  | none => rfl
  | some begun =>
    have goesOn : isStart part = false := by simpa using same.symm
    exact if_neg (by rw [goesOn]; exact Bool.false_ne_true)

/-- A profile is no longer than its parts. -/
theorem length_joinFrom {profile begun : List Elem} {parts : List (List Elem)}
    (member : profile ∈ joinFrom begun parts) :
    (encode profile).length ≤ (encode begun).length + (encode parts.flatten).length := by
  induction parts generalizing begun with
  | nil =>
    rw [List.mem_singleton.mp member]
    exact Nat.le_add_right ..
  | cons part parts ih =>
    rw [List.flatten_cons, encode_append, List.length_append]
    rw [joinFrom] at member
    split at member
    · rcases List.mem_cons.mp member with rfl | isIn
      · exact Nat.le_add_right ..
      · have := ih isIn
        omega
    · have := ih member
      rw [encode_append, List.length_append] at this
      omega

/-! ### One profile -/

theorem ValidProfile.isStart {profile part more : List Elem} (valid : ValidProfile profile)
    (isPart : profile = part ++ more) (some : part ≠ []) : ∃ cap rest, part = cap :: rest ∧
        cap.id = 83 ∧ cap.body.length = 2 := by
  obtain ⟨cap, behind, isProfile, isCap, length, _⟩ := valid.cap
  cases part with
  | nil => exact absurd rfl some
  | cons first rest =>
    rw [isPart] at isProfile
    obtain ⟨rfl, _⟩ := List.cons.inj isProfile
    exact ⟨first, rest, rfl, isCap, length⟩

theorem ValidProfile.index_of_mem {profile : List Elem} {elem : Elem} (valid : ValidProfile profile)
    (member : elem ∈ profile) (isIndex : elem.id = 85) :
    1 ≤ elem.body.length ∧ indexOf elem ≠ 0 ∧
      ((profile.find? fun elem => decide (elem.id = 85)).map indexOf).getD 0 = indexOf elem := by
  obtain ⟨index, only, length, notZero⟩ := valid.index
  have isOnly : elem ∈ profile.filter fun elem => decide (elem.id = 85) :=
    List.mem_filter.mpr ⟨member, decide_eq_true isIndex⟩
  rw [only] at isOnly
  obtain rfl := List.mem_singleton.mp isOnly
  rw [← List.head?_filter, only]
  exact ⟨length, notZero, rfl⟩

theorem ValidProfile.exists_index {profile : List Elem} (valid : ValidProfile profile) :
    ∃ elem ∈ profile, elem.id = 85 := by
  obtain ⟨index, only, _⟩ := valid.index
  have member : index ∈ profile.filter fun elem => decide (elem.id = 85) :=
    only ▸ List.mem_singleton_self index
  obtain ⟨isIn, isIndex⟩ := List.mem_filter.mp member
  exact ⟨index, isIn, of_decide_eq_true isIndex⟩

/-! ### The state of the walk -/

variable {beacon : Beacon} {front rest : List Nat} {part begun more : List Elem} {walk walk' : Walk}

/-- The index of a profile is known. -/
structure Known (beacon : Beacon) (walk : Walk) (index : Nat) : Prop where
  newBssid : walk.newBssid = genNewBssid beacon.bssid beacon.indicator index
  profileNum : walk.profileNum = index
  transBssid : walk.transBssid = beacon.bssid

/-- The walk between two sub-elements, with the profile that has begun. -/
structure Ready (beacon : Beacon) (begun : Option (List Elem)) (walk : Walk) : Prop where
  residue : walk.profResidue = begun.isSome
  splitProf : ∀ profile, begun = some profile → 2 ≤ walk.splitProf.length ∧
    walk.splitProf.drop 2 = encode profile
  known : ∀ profile, begun = some profile → ∀ elem ∈ profile, elem.id = 85 →
    Known beacon walk (indexOf elem)

/-- What a round, or more of them, has done. -/
structure Rounded (beacon : Beacon) (walk walk' : Walk) (begun : Option (List Elem))
    (new : List Entry) : Prop where
  ready : Ready beacon begun walk'
  splitProfile : walk'.splitProfile = walk.splitProfile
  profileCount : walk'.profileCount = walk.profileCount
  entries : walk'.entries = walk.entries ++ new

/-- The look-up of the index in a part. -/
theorem scanFindFrom_part (eid : Nat) (part : List Elem) :
    (∃ before elem after, part = before ++ elem :: after ∧ elem.id = eid ∧
      scanFindFrom eid (front ++ ((subelem part).bytes ++ rest)) (front.length + 2)
      (encode part).length =
        some (front.length + 2 + (encode before).length)) ∨
    ((∀ elem ∈ part, elem.id ≠ eid) ∧
      scanFindFrom eid (front ++ ((subelem part).bytes ++ rest)) (front.length + 2)
          (encode part).length = none) := by
  have enough : part.length ≤ (encode part).length := by
    have := two_le_length_encode part
    omega
  have shape : front ++ ((subelem part).bytes ++ rest) =
      (front ++ [0, (encode part).length]) ++ (encode part ++ rest) := by
    rw [List.append_assoc]
    rfl
  have isFront : front.length + 2 = (front ++ [0, (encode part).length]).length := by
    rw [List.length_append]
    rfl
  have found :=
    findLoop_eq (fun pos => decide (byteAt (front ++ ((subelem part).bytes ++ rest)) pos = eid))
    (fun elem => decide (elem.id = eid)) rest enough (front ++ [0, (encode part).length]) (by
      intro before elem after isPart
      have behind : encode part ++ rest = encode before ++
          (elem.bytes ++ (encode after ++ rest)) := by
        rw [isPart, encode_append, encode_cons, List.append_assoc, List.append_assoc]
      rw [shape, behind, ← List.append_assoc, byteAt_id])
  rw [← shape, ← isFront] at found
  rcases found with ⟨before, elem, after, isPart, isId, _, isFound⟩ | ⟨none, isNone⟩
  · refine .inl ⟨before, elem, after, isPart, of_decide_eq_true isId, isFound.trans ?_⟩
    rw [List.length_append, ← isFront]
  · exact .inr ⟨fun elem member => of_decide_eq_false (none elem member), isNone⟩

/-- What stands at an element of a part. -/
theorem bytes_of_part {before after : List Elem} {elem : Elem}
    (isPart : part = before ++ elem :: after) :
    byteAt (front ++ ((subelem part).bytes ++ rest)) (front.length + 2 + (encode before).length) =
    elem.id ∧
      byteAt (front ++ ((subelem part).bytes ++ rest))
      (front.length + 2 + (encode before).length + 1) =
        elem.body.length ∧
      (1 ≤ elem.body.length →
        byteAt (front ++ ((subelem part).bytes ++ rest))
        (front.length + 2 + (encode before).length + 2) =
          indexOf elem) := by
  have shape : front ++ ((subelem part).bytes ++ rest) =
      (front ++ [0, (encode part).length] ++ encode before) ++
          (elem.bytes ++ (encode after ++ rest)) := by
    have isBytes : (subelem part).bytes = [0, (encode part).length] ++
        (encode before ++ (elem.bytes ++ encode after)) := by
      rw [← encode_cons, ← encode_append, ← isPart]
      rfl
    rw [isBytes]
    simp only [List.append_assoc]
  have place : front.length + 2 + (encode before).length =
      (front ++ [0, (encode part).length] ++ encode before).length := by
    rw [List.length_append, List.length_append]
    rfl
  rw [shape, place]
  refine ⟨byteAt_id, byteAt_length, fun some => ?_⟩
  have head := @byteAt_head elem (front ++ [0, (encode part).length] ++ encode before)
    (encode after ++ rest) some
  unfold indexOf
  rw [List.headD_eq_head?_getD, head]
  rfl

/-- **A part is taken for what it is**, and its index is kept. -/
theorem handleNontxProf_eq {begun : Option (List Elem)} {on : Bool} {mbssidElem : Nat}
    (valid : ValidProfile (begun.getD [] ++ (part ++ more))) (some : part ≠ [])
    (ended : on = false → more = [])
    (isOn : walk.goesOn (front ++ ((subelem part).bytes ++ rest))
      (front.length + (encode part).length + 2) = on)
    (ready : Ready beacon begun walk) (isContinued : walk.splitProfContinue = begun.isSome)
    (long : begun.isSome = true → 3 ≤ (encode part).length)
    (isIndicator : byteAt (front ++ ((subelem part).bytes ++ rest)) (mbssidElem + 2) =
        beacon.indicator) :
    ∃ walk', handleNontxProf (front ++ ((subelem part).bytes ++ rest)) beacon.bssid mbssidElem
    front.length
        (front.length + (encode part).length + 2) walk = (walk', .validNontxProf) ∧
      walk' = { walk with
        profResidue := begun.isSome || on
        transBssid := walk'.transBssid
        profileNum := walk'.profileNum
        newBssid := walk'.newBssid } ∧
      ∀ elem ∈ begun.getD [] ++ part, elem.id = 85 → Known beacon walk' (indexOf elem) := by
  have isId := @byteAt_id (subelem part) front rest
  have isLength := @byteAt_length (subelem part) front rest
  have starts : begun = none → 4 ≤ (encode part).length ∧
      byteAt (front ++ ((subelem part).bytes ++ rest)) (front.length + 2) = 83 ∧
      byteAt (front ++ ((subelem part).bytes ++ rest)) (front.length + 3) = 2 := by
    rintro rfl
    obtain ⟨cap, behind, isPart, isCap, length⟩ :=
      (show ValidProfile (part ++ more) from valid).isStart rfl some
    obtain ⟨atId, atLength, _⟩ := @bytes_of_part front rest part [] behind cap isPart
    rw [encode_nil, List.length_nil, Nat.add_zero] at atId atLength
    refine ⟨?_, atId.trans isCap, atLength.trans length⟩
    rw [isPart, encode_cons, List.length_append, Elem.length_bytes]
    omega
  have isBegun : ∀ isFalse : walk.splitProfContinue = false, begun = none := fun isFalse => by
    rw [isContinued] at isFalse
    exact Option.isSome_eq_false_iff.mp isFalse |> Option.isNone_iff_eq_none.mp
  have notSplit :
      ¬ (walk.splitProfContinue = true ∧
        ((subelem part).id ≠ 0 ∨ (subelem part).body.length < 3)) := by
    rintro ⟨isTrue, other | tooShort⟩
    · exact other rfl
    · exact absurd (long (isContinued.symm.trans isTrue)) (Nat.not_le.mpr tooShort)
  have notNontx :
      ¬ (walk.splitProfContinue = false ∧
        ((subelem part).id ≠ 0 ∨ (subelem part).body.length < 4)) := by
    rintro ⟨isFalse, other | tooShort⟩
    · exact other rfl
    · exact absurd (starts (isBegun isFalse)).1 (Nat.not_le.mpr tooShort)
  have notOther : ¬ (walk.splitProfContinue = false ∧
      (byteAt (front ++ ((subelem part).bytes ++ rest)) (front.length + 2) ≠ 83 ∨
        byteAt (front ++ ((subelem part).bytes ++ rest)) (front.length + 3) ≠ 2)) := by
    rintro ⟨isFalse, other | other⟩
    · exact other (starts (isBegun isFalse)).2.1
    · exact other (starts (isBegun isFalse)).2.2
  unfold handleNontxProf
  dsimp only
  rw [isId, isLength, if_neg notSplit, if_neg notNontx, if_neg notOther, isOn, ready.residue]
  rcases @scanFindFrom_part front rest 85 part
    with ⟨before, index, after, isPart, isIndex, isFound⟩ | ⟨none, isNone⟩
  · have member : index ∈ begun.getD [] ++ (part ++ more) := by
      rw [isPart]
      simp
    obtain ⟨length, notZero, _⟩ := valid.index_of_mem member isIndex
    obtain ⟨_, atLength, atIndex⟩ := @bytes_of_part front rest part before after index isPart
    have isLen : (subelem part).body.length = (encode part).length := rfl
    rw [isLen, isFound]
    dsimp only
    rw [atLength, atIndex length, if_neg (by omega), isIndicator]
    refine ⟨_, rfl, rfl, fun elem isIn isIt => ?_⟩
    have same : indexOf elem = indexOf index := by
      have whole : elem ∈ begun.getD [] ++ (part ++ more) := by
        rw [← List.append_assoc]
        exact List.mem_append_left _ isIn
      exact (valid.index_of_mem whole isIt).2.2.symm.trans (valid.index_of_mem member isIndex).2.2
    rw [same]
    exact ⟨rfl, rfl, rfl⟩
  · have residue : (begun.isSome || on) = true := by
      cases begun with
      | some => rfl
      | none =>
        cases on with
        | true => rfl
        | false =>
          rw [ended rfl] at valid
          obtain ⟨elem, isIn, isIt⟩ := valid.exists_index
          exact absurd isIt (none elem (by simpa using isIn))
    have isLen : (subelem part).body.length = (encode part).length := rfl
    rw [isLen, isNone]
    dsimp only
    rw [residue, if_pos rfl]
    refine ⟨_, rfl, rfl, fun elem isIn isIt => ?_⟩
    rcases List.mem_append.mp isIn with isOld | isNew
    · cases begun with
      | none => exact absurd isOld List.not_mem_nil
      | some profile =>
        obtain ⟨newBssid, profileNum, transBssid⟩ := ready.known profile rfl elem isOld isIt
        exact ⟨newBssid, profileNum, transBssid⟩
    · exact absurd isIt (none elem isNew)

/-! ### A frame -/

theorem Beacon.Valid.received_eq (valid : beacon.Valid) :
    beacon.received = ⟨beacon.fixed, encode beacon.elems ++ beacon.behind,
        (encode beacon.elems).length⟩ := by
  unfold Beacon.received receivedFrame
  rw [List.take_left' valid.fixed, List.drop_left' valid.fixed, Nat.add_sub_cancel_left,
    Nat.mod_eq_of_lt valid.short]

theorem Beacon.Valid.whole (valid : beacon.Valid) : ∀ elem ∈ beacon.elems, Whole elem := by
  intro elem member
  obtain ⟨item, isIn, rfl⟩ := List.mem_map.mp member
  cases item with
  | other elem => exact (valid.others elem isIn).1
  | mbssid parts => exact ⟨valid.bodies _ member, nofun, nofun⟩

theorem filter_isOther {items : List Item} (indicator : Nat)
    (others : ∀ elem, Item.other elem ∈ items → elem.id ≠ 71) :
    (items.map (Item.elem indicator)).filter isOther = items.flatMap Item.others := by
  induction items with
  | nil => rfl
  | cons item items ih =>
    have further := ih fun elem member => others elem (List.mem_cons_of_mem _ member)
    rw [List.map_cons, List.flatMap_cons, ← further]
    cases item with
    | other elem =>
      have isIt : isOther elem = true := decide_eq_true (others elem List.mem_cons_self)
      exact List.filter_cons_of_pos isIt
    | mbssid parts => rfl

theorem length_items (indicator : Nat) (items : List Item) :
    (encode (items.flatMap Item.parts).flatten).length +
    (encode (items.flatMap Item.others)).length ≤
      (encode (items.map (Item.elem indicator))).length := by
  have inside : ∀ parts : List (List Elem), (encode parts.flatten).length ≤
      (encode (parts.map subelem)).length := by
    intro parts
    induction parts with
    | nil => exact Nat.le_refl 0
    | cons part parts ih =>
      rw [List.flatten_cons, encode_append, List.map_cons, encode_cons, List.length_append,
        List.length_append,
        Elem.length_bytes]
      have : (subelem part).body.length = (encode part).length := rfl
      omega
  induction items with
  | nil => exact Nat.le_refl 0
  | cons item items ih =>
    rw [List.flatMap_cons, List.flatMap_cons, List.map_cons, encode_cons, List.length_append,
      encode_append,
      List.flatten_append, encode_append, List.length_append, List.length_append, Elem.length_bytes]
    cases item with
    | other elem =>
      simp only [Item.parts, Item.others, Item.elem, List.flatten_nil, encode_nil, encode_cons,
        List.append_nil,
        List.length_nil, Elem.length_bytes]
      omega
    | mbssid parts =>
      have := inside parts
      simp only [Item.parts, Item.others, Item.elem, encode_nil, List.length_nil, List.length_cons]
      omega

theorem length_profile {profile : List Elem} (member : profile ∈ profiles beacon.items) :
    (encode profile).length + (encode beacon.others).length ≤ (encode beacon.elems).length := by
  have whole := length_items beacon.indicator beacon.items
  unfold profiles at member
  cases isParts : beacon.items.flatMap Item.parts with
  | nil =>
    rw [isParts] at member
    exact absurd member List.not_mem_nil
  | cons part parts =>
    rw [isParts] at member whole
    have := length_joinFrom member
    rw [List.flatten_cons, encode_append, List.length_append] at whole
    unfold Beacon.others Beacon.elems
    omega

/-- **A profile gives its entry.** -/
theorem Beacon.Valid.generate (valid : beacon.Valid) {profile : List Elem} {nontxProfile : List Nat}
    (member : profile ∈ Qsdk.SplitProfiles.profiles beacon.items)
    (isBytes : nontxProfile.drop 2 = encode profile) (known : ∀ elem ∈ profile, elem.id = 85 →
      Known beacon walk (indexOf elem))
    (count : walk.profileCount = 2 ^ beacon.indicator % 2 ^ 8) :
    walk.generate beacon.received nontxProfile =
        { walk with entries := walk.entries ++ [beacon.entry profile] } := by
  have isValid := valid.profiles profile member
  have isOthers : beacon.elems.filter isOther = beacon.others :=
    filter_isOther beacon.indicator fun elem isIn => (valid.others elem isIn).2.1
  have some : profile ≠ [] := by
    obtain ⟨cap, rest, isProfile, _⟩ := isValid.cap
    rw [isProfile]
    exact List.cons_ne_nil _ _
  have newIe : genNewIe true (encode beacon.elems ++ beacon.behind) (encode beacon.elems).length
    (encode profile) =
      newElems beacon.others profile := by
    rw [genNewIe_eq_newElems beacon.behind valid.whole isValid.fit some
      (by rw [isOthers]; exact length_profile member),
      isOthers]
  have notNil : (newElems beacon.others profile).length ≠ 0 := by
    refine newElems_ne_nil beacon.others (fun elem isIn => ?_) isValid.fit isValid.ssid
    rw [← isOthers] at isIn
    exact valid.whole elem (List.mem_filter.mp isIn).1
  obtain ⟨index, isIn, isIndex⟩ := isValid.exists_index
  obtain ⟨_, _, isNumber⟩ := isValid.index_of_mem isIn isIndex
  obtain ⟨newBssid, profileNum, transBssid⟩ := known index isIn isIndex
  have capability : (nontxProfile.drop 4).take 2 = ((encode profile).drop 2).take 2 := by
    rw [← isBytes, List.drop_drop]
  unfold Walk.generate Walk.newFrame Beacon.entry
  dsimp only
  rw [valid.received_eq]
  dsimp only
  rw [isBytes, newIe, if_neg notNil, capability, newBssid, profileNum, transBssid, count, isNumber]

/-! ### One round -/

/-- **One sub-element.** A part that is not the last one is kept, and with the last one the profile
gives its entry. -/
theorem round_eq (valid : beacon.Valid) {begun : Option (List Elem)} {on : Bool}
    {mbssidElem nextElem : Nat} (isMemory : encode beacon.elems ++ beacon.behind = front ++
      ((subelem part).bytes ++ rest))
    (isValid : ValidProfile (begun.getD [] ++ (part ++ more))) (notNil : part ≠ [])
    (ended : on = false → more = []) (isProfile : on = false →
      begun.getD [] ++ part ∈ profiles beacon.items)
    (isOn : walk.goesOn (front ++ ((subelem part).bytes ++ rest))
      (front.length + (encode part).length + 2) = on)
    (ready : Ready beacon begun walk) (long : begun.isSome = true → 3 ≤ (encode part).length)
    (isIndicator : byteAt (front ++ ((subelem part).bytes ++ rest)) (mbssidElem + 2) =
      beacon.indicator)
    (count : walk.profileCount = 2 ^ beacon.indicator % 2 ^ 8) (short : (encode part).length ≤ 252)
    (inside : front.length + (encode part).length + 2 ≤ nextElem) :
    ∃ walk', walk.round beacon.received mbssidElem nextElem front.length =
        (walk', if on then Turn.leave else Turn.next) ∧
      Rounded beacon walk walk' (if on then some (begun.getD [] ++ part) else none)
        (if on then [] else [beacon.entry (begun.getD [] ++ part)]) := by
  have isLength : byteAt (front ++ ((subelem part).bytes ++ rest)) (front.length + 1) =
      (encode part).length :=
    byteAt_length
  have isSubelem : ((front ++ ((subelem part).bytes ++ rest)).drop front.length).take
    ((encode part).length + 2) =
      (subelem part).bytes := by
    rw [List.drop_left]
    exact List.take_left' (subelem part).length_bytes
  have isBody : ((front ++ ((subelem part).bytes ++ rest)).drop (front.length + 2)).take
    (encode part).length =
      encode part := by
    rw [drop_body]
    exact List.take_left' rfl
  have isReady : Ready beacon begun { walk with splitProfContinue := walk.profResidue } :=
    ⟨ready.residue, ready.splitProf, fun profile isBegun elem member isIndex =>
      have known := ready.known profile isBegun elem member isIndex
      ⟨known.newBssid, known.profileNum, known.transBssid⟩⟩
  obtain ⟨after, isHandled, isAfter, known⟩ := @handleNontxProf_eq beacon front rest part more
    { walk with splitProfContinue := walk.profResidue } begun on mbssidElem isValid notNil ended
    isOn isReady ready.residue
    long isIndicator
  have residue : after.profResidue = (begun.isSome || on) := congrArg Walk.profResidue isAfter
  have isContinued : after.splitProfContinue = begun.isSome :=
    (congrArg Walk.splitProfContinue isAfter).trans ready.residue
  have splitProf : after.splitProf = walk.splitProf :=
    (congrArg Walk.splitProf isAfter).trans rfl
  have splitProfile : after.splitProfile = walk.splitProfile :=
    (congrArg Walk.splitProfile isAfter).trans rfl
  have profileCount : after.profileCount = walk.profileCount :=
    (congrArg Walk.profileCount isAfter).trans rfl
  have entries : after.entries = walk.entries :=
    (congrArg Walk.entries isAfter).trans rfl
  have isOnAfter : after.goesOn (front ++ ((subelem part).bytes ++ rest))
    (front.length + (encode part).length + 2) =
      on := by
    rw [isAfter]
    exact isOn
  have isRound : walk.round beacon.received mbssidElem nextElem front.length =
      after.take beacon.received front.length (front.length + (encode part).length + 2) := by
    have isBssid : Received.bssid ⟨beacon.fixed, front ++ ((subelem part).bytes ++ rest),
      (encode beacon.elems).length⟩ =
        beacon.bssid := rfl
    unfold Walk.round
    rw [valid.received_eq, isMemory]
    dsimp only
    rw [isLength, if_neg (by omega), if_neg (by omega), isBssid, isHandled]
  rw [isRound]
  unfold Walk.take
  dsimp only
  have isIe : beacon.received.ie = front ++ ((subelem part).bytes ++ rest) := by
    rw [valid.received_eq]
    exact isMemory
  rw [isIe, isLength, residue, isContinued, isOnAfter, isSubelem, isBody]
  cases begun with
  | none =>
    cases on with
    | true =>
      refine ⟨_, rfl, ⟨rfl, ?_, ?_⟩, splitProfile, profileCount,
        entries.trans (List.append_nil _).symm⟩
      · intro profile isBegun
        obtain rfl := Option.some.inj isBegun
        exact ⟨Nat.le_add_left 2 _, rfl⟩
      · intro profile isBegun elem member isIndex
        obtain rfl := Option.some.inj isBegun
        have index := known elem member isIndex
        exact ⟨index.newBssid, index.profileNum, index.transBssid⟩
    | false =>
      have generated := valid.generate (isProfile rfl)
        (show (subelem part).bytes.drop 2 = encode part from rfl) known
        (profileCount.trans count)
      refine ⟨_, rfl, ?_⟩
      rw [generated]
      exact ⟨⟨residue, nofun, nofun⟩, splitProfile, profileCount, congrArg (· ++ _) entries⟩
  | some profile =>
    obtain ⟨two, isDrop⟩ := ready.splitProf profile rfl
    have joined : (after.splitProf ++ encode part).drop 2 = encode (profile ++ part) := by
      rw [splitProf, List.drop_append_of_le_length two, isDrop, encode_append]
    cases on with
    | true =>
      refine ⟨_, rfl, ⟨rfl, ?_, ?_⟩, splitProfile, profileCount,
        entries.trans (List.append_nil _).symm⟩
      · intro whole isBegun
        obtain rfl := Option.some.inj isBegun
        refine ⟨?_, joined⟩
        rw [List.length_append, splitProf]
        omega
      · intro whole isBegun elem member isIndex
        obtain rfl := Option.some.inj isBegun
        have index := known elem member isIndex
        exact ⟨index.newBssid, index.profileNum, index.transBssid⟩
    | false =>
      have generated := @Beacon.Valid.generate beacon
        { after with
          splitProf := after.splitProf ++ encode part
          profResidue := false
          splitProfContinue := (some profile).isSome } valid (profile ++ part)
        (after.splitProf ++ encode part) (isProfile rfl) joined
        (fun elem member isIndex =>
          have index := known elem member isIndex
          ⟨index.newBssid, index.profileNum, index.transBssid⟩) (profileCount.trans count)
      refine ⟨_, rfl, ?_⟩
      rw [generated]
      exact ⟨⟨rfl, nofun, nofun⟩, splitProfile, profileCount, congrArg (· ++ _) entries⟩

/-! ### The loop over the sub-elements -/

/-- What a part begins with. -/
theorem byteAt_part (some : part ≠ []) :
    decide (byteAt (front ++ ((subelem part).bytes ++ rest)) (front.length + 2) ≠ 83) =
        !isStart part := by
  cases part with
  | nil => exact absurd rfl some
  | cons first behind =>
    have atId := (@bytes_of_part front rest (first :: behind) [] behind first rfl).1
    rw [encode_nil, List.length_nil, Nat.add_zero] at atId
    rw [atId]
    simp [isStart]

theorem Rounded.trans {between : Walk} {begun begun' : Option (List Elem)} {new new' : List Entry}
    (first : Rounded beacon walk between begun new)
    (second : Rounded beacon between walk' begun' new') :
    Rounded beacon walk walk' begun' (new ++ new') :=
  ⟨second.ready, second.splitProfile.trans first.splitProfile,
      second.profileCount.trans first.profileCount, by
    rw [second.entries, first.entries, List.append_assoc]⟩

/-- The sub-elements of one Multiple BSSID element, as the loop finds them. -/
structure Subs (beacon : Beacon) (mbssidElem nextElem : Nat) (front rest : List Nat)
    (parts following : List (List Elem)) :
    Prop where
  isMemory : encode beacon.elems ++ beacon.behind = front ++ (encode (parts.map subelem) ++ rest)
  isNext : nextElem = front.length + (encode (parts.map subelem)).length
  isIndicator : byteAt (encode beacon.elems ++ beacon.behind) (mbssidElem + 2) = beacon.indicator
  some : ∀ part ∈ parts, part ≠ []
  starts : ∀ part ∈ parts.tail, isStart part = true
  short : ∀ part ∈ parts, (encode part).length ≤ 252
  long : ∀ part ∈ parts, isStart part = false → 3 ≤ (encode part).length

theorem Subs.tail {mbssidElem nextElem : Nat} {parts following : List (List Elem)}
    (subs : Subs beacon mbssidElem nextElem front rest (part :: parts) following) :
    Subs beacon mbssidElem nextElem (front ++ (subelem part).bytes) rest parts following := by
  refine ⟨?_, ?_, subs.isIndicator, fun part member =>
    subs.some part (List.mem_cons_of_mem _ member),
    fun part member => subs.starts part (List.mem_of_mem_tail member),
    fun part member => subs.short part (List.mem_cons_of_mem _ member),
    fun part member => subs.long part (List.mem_cons_of_mem _ member)⟩
  · rw [subs.isMemory, List.map_cons, encode_cons, List.append_assoc, List.append_assoc]
  · rw [subs.isNext, List.map_cons, encode_cons, List.length_append, List.length_append,
      Nat.add_assoc]

/-- **The loop over the sub-elements** adds each part to what it belongs to. -/
theorem subLoop_eq (valid : beacon.Valid) {mbssidElem nextElem rounds : Nat}
    {parts following : List (List Elem)} {begun : Option (List Elem)}
    (enough : parts.length ≤ rounds)
    (subs : Subs beacon mbssidElem nextElem front rest parts following)
    (whole : ∀ profile ∈ join begun (parts ++ following), profile ∈ profiles beacon.items)
    (ready : Ready beacon begun walk) (count : walk.profileCount = 2 ^ beacon.indicator % 2 ^ 8)
    (agree : begun.isSome = continues (parts ++ following))
    (isOn : walk.goesOn (encode beacon.elems ++ beacon.behind) nextElem = continues following) :
    ∃ walk' begun' new, subLoop beacon.received mbssidElem nextElem rounds front.length walk =
    (walk', false) ∧
      Rounded beacon walk walk' begun' (new.map beacon.entry) ∧
      begun'.isSome = continues following ∧
      join begun (parts ++ following) = new ++ join begun' following := by
  induction parts generalizing front rounds walk begun with
  | nil =>
    have isNext := subs.isNext
    rw [List.map_nil, encode_nil, List.length_nil, Nat.add_zero] at isNext
    refine ⟨walk, begun, [], ?_, ⟨ready, rfl, rfl, (List.append_nil _).symm⟩, agree, rfl⟩
    cases rounds with
    | zero => rfl
    | succ rounds => exact if_neg (by omega)
  | cons part parts ih =>
    obtain ⟨rounds, rfl⟩ := Nat.exists_eq_add_of_lt (Nat.lt_of_lt_of_le (Nat.succ_pos _) enough)
    rw [Nat.zero_add] at enough ⊢
    have notNil := subs.some part List.mem_cons_self
    have isMemory := subs.isMemory
    rw [List.map_cons, encode_cons, List.append_assoc] at isMemory
    have isNext := subs.isNext
    have bodyLength : (subelem part).body.length = (encode part).length := rfl
    rw [List.map_cons, encode_cons, List.length_append, Elem.length_bytes, bodyLength] at isNext
    have same : begun.isSome = !isStart part := agree
    have joined := join_cons (parts ++ following) same
    -- the guess is right for each sub-element
    have guess :
      walk.goesOn (front ++ ((subelem part).bytes ++ (encode (parts.map subelem) ++ rest)))
        (front.length + (encode part).length + 2) = continues (parts ++ following) := by
      cases parts with
      | nil =>
        rw [← isMemory]
        rw [List.map_nil, encode_nil, List.length_nil] at isNext
        rw [show front.length + (encode part).length + 2 = nextElem by omega]
        exact isOn
      | cons next parts =>
        have start := subs.starts next List.mem_cons_self
        have atNext := @byteAt_part (front ++ (subelem part).bytes)
          (encode (parts.map subelem) ++ rest) next
          (subs.some next (List.mem_cons_of_mem _ List.mem_cons_self))
        have shape :
          front ++ ((subelem part).bytes ++ (encode ((next :: parts).map subelem) ++ rest)) =
            front ++ (subelem part).bytes ++
                ((subelem next).bytes ++ (encode (parts.map subelem) ++ rest)) := by
          rw [List.map_cons, encode_cons, List.append_assoc, List.append_assoc]
        have place : front.length + (encode part).length + 2 =
            (front ++ (subelem part).bytes).length := by
          rw [List.length_append, Elem.length_bytes, bodyLength, Nat.add_assoc]
        unfold Walk.goesOn
        rw [shape, place, atNext, List.cons_append, continues, start, Bool.not_true, Bool.and_false]
    obtain ⟨more, tail, isHead, ended⟩ : ∃ more tail, join begun (part :: (parts ++ following)) =
        (begun.getD [] ++ part ++ more) :: tail ∧
            (continues (parts ++ following) = false → more = []) := by
      rw [joined]
      cases isEnded : continues (parts ++ following) with
      | false =>
        exact ⟨[], join none (parts ++ following), by
          rw [joinFrom_of_ended isEnded, List.append_nil], fun _ => rfl⟩
      | true =>
        obtain ⟨more, tail, isHead⟩ := joinFrom_head (begun.getD [] ++ part) (parts ++ following)
        exact ⟨more, tail, isHead, nofun⟩
    have isProfile : begun.getD [] ++ part ++ more ∈ profiles beacon.items :=
      whole _ (by rw [List.cons_append, isHead]; exact List.mem_cons_self)
    have isValid := valid.profiles _ isProfile
    rw [List.append_assoc] at isValid
    have inMemory := subs.isIndicator
    rw [isMemory] at inMemory
    obtain ⟨after, isRound, rounded⟩ :=
      @round_eq beacon front (encode (parts.map subelem) ++ rest) part more walk valid begun
      (continues (parts ++ following)) mbssidElem nextElem isMemory isValid notNil ended
      (fun isEnded => by
        have isWhole := isProfile
        rwa [ended isEnded, List.append_nil] at isWhole)
      guess ready
      (fun isBegun => subs.long part List.mem_cons_self
        (by rw [same] at isBegun; simpa using isBegun)) inMemory count
      (subs.short part List.mem_cons_self) (by omega)
    have isLength : byteAt beacon.received.ie (front.length + 1) = (encode part).length := by
      rw [valid.received_eq, isMemory]
      exact byteAt_length
    have place : front.length + (encode part).length + 2 =
        (front ++ (subelem part).bytes).length := by
      rw [List.length_append, Elem.length_bytes, bodyLength, Nat.add_assoc]
    rw [subLoop, if_pos (by omega), isRound]
    cases isEnded : continues (parts ++ following) with
    | true =>
      have last : parts = [] := by
        cases parts with
        | nil => rfl
        | cons next parts =>
          have start := subs.starts next List.mem_cons_self
          rw [List.cons_append, continues, start] at isEnded
          exact absurd isEnded Bool.false_ne_true
      subst last
      rw [isEnded, if_pos rfl, if_pos rfl] at rounded
      rw [if_pos rfl]
      refine ⟨after, some (begun.getD [] ++ part), [], rfl, rounded, isEnded.symm, ?_⟩
      rw [List.cons_append, joined]
      rfl
    | false =>
      rw [isEnded, if_neg Bool.false_ne_true, if_neg Bool.false_ne_true] at rounded
      rw [if_neg Bool.false_ne_true]
      dsimp only
      rw [isLength, place]
      have split : join begun (part :: (parts ++ following)) =
          (begun.getD [] ++ part) :: join none (parts ++ following) := by
        rw [joined, joinFrom_of_ended isEnded]
      obtain ⟨walk', begun', new, isLoop, run, isBegun, isJoin⟩ :=
        @ih (front ++ (subelem part).bytes) after rounds none
        (Nat.le_of_succ_le_succ enough) subs.tail
        (fun profile member =>
          whole profile (by rw [List.cons_append, split]; exact List.mem_cons_of_mem _ member))
        rounded.ready (rounded.profileCount.trans count) isEnded.symm (by
          unfold Walk.goesOn at isOn ⊢
          rw [rounded.splitProfile]
          exact isOn)
      refine ⟨walk', begun', (begun.getD [] ++ part) :: new, isLoop, rounded.trans run, isBegun, ?_⟩
      rw [List.cons_append, split, isJoin]
      rfl

end Qsdk.SplitProfiles
