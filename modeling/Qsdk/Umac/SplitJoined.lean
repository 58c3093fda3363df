/-
**Profiles put together.**

The look-ahead at a Multiple BSSID element tells whether a profile goes on in the next one, if
nothing between them and nothing behind the frame misleads it. Then the walk gives one entry for
each profile, however the profiles are split (`parseMbssid_eq`).
-/

import Qsdk.Umac.SplitRounds

namespace Qsdk.SplitProfiles

open Qsdk.Elements Qsdk.Inheritance

variable {beacon : Beacon} {front rest : List Nat} {walk : Walk}

/-! ### The next Multiple BSSID element -/

variable {items before later : List Item} {behind : List Nat} {indicator : Nat}
    {parts : List (List Elem)}

theorem byteAt_append (front rest : List Nat) (pos : Nat) :
    byteAt (front ++ rest) (front.length + pos) = byteAt rest pos := by
  unfold byteAt
  rw [List.getElem?_append_right (Nat.le_add_right ..), Nat.add_sub_cancel_left]

/-- The look-up finds the next Multiple BSSID element, if there is one. -/
theorem next_mbssid (others : ∀ elem, Item.other elem ∈ items → elem.id ≠ 71) (indicator : Nat)
    (front behind : List Nat) :
    (∃ before parts after, items = before ++ .mbssid parts :: after ∧
      before.flatMap Item.parts = [] ∧
      scanFindFrom 71 (front ++ (encode (items.map (Item.elem indicator)) ++ behind)) front.length
        (encode (items.map (Item.elem indicator))).length =
          some (front ++ encode (before.map (Item.elem indicator))).length) ∨
    ((∀ parts, .mbssid parts ∉ items) ∧ items.flatMap Item.parts = [] ∧
      scanFindFrom 71 (front ++ (encode (items.map (Item.elem indicator)) ++ behind)) front.length
        (encode (items.map (Item.elem indicator))).length = none) := by
  have noParts : ∀ item ∈ items, (item.elem indicator).id ≠ 71 → item.parts = [] := by
    intro item _ notMbssid
    cases item with
    | other elem => rfl
    | mbssid parts => exact absurd rfl notMbssid
  have enough : (items.map (Item.elem indicator)).length ≤
      (encode (items.map (Item.elem indicator))).length := by
    have := two_le_length_encode (items.map (Item.elem indicator))
    omega
  have found := findLoop_eq
    (fun pos =>
      decide (byteAt (front ++ (encode (items.map (Item.elem indicator)) ++ behind)) pos = 71))
    (fun elem => decide (elem.id = 71)) behind enough front (by
      intro before elem after isElems
      rw [isElems, encode_append, encode_cons, List.append_assoc,
        List.append_assoc, ← List.append_assoc front, byteAt_id])
  rcases found with ⟨before', elem, after', isElems, isMbssid, none, isFound⟩ | ⟨none, isNone⟩
  · obtain ⟨before, behind', rfl, rfl, isBehind⟩ := List.map_eq_append_iff.mp isElems
    obtain ⟨item, after, rfl, rfl, rfl⟩ := List.map_eq_cons_iff.mp isBehind
    cases item with
    | other elem => exact absurd (of_decide_eq_true isMbssid) (others elem
      (List.mem_append_right _ List.mem_cons_self))
    | mbssid parts =>
      refine .inl ⟨before, parts, after, rfl, List.flatMap_eq_nil_iff.mpr fun item member =>
        ?_, isFound⟩
      exact noParts item (List.mem_append_left _ member)
        (of_decide_eq_false (none _ (List.mem_map_of_mem member)))
  · have notMbssid : ∀ item ∈ items, (item.elem indicator).id ≠ 71 := fun item member =>
      of_decide_eq_false (none _ (List.mem_map_of_mem member))
    refine .inr ⟨fun parts member => notMbssid _ member rfl, ?_, isNone⟩
    exact List.flatMap_eq_nil_iff.mpr fun item member => noParts item member (notMbssid item member)

/-- What is at a Multiple BSSID element. -/
theorem bytes_of_mbssid (parts : List (List Elem)) :
    front ++ ((Item.elem indicator (.mbssid parts)).bytes ++ rest) =
      (front ++ [71, (encode (parts.map subelem)).length + 1, indicator]) ++
          (encode (parts.map subelem) ++ rest) := by
  rw [List.append_assoc]
  rfl

theorem byteAt_indicator (parts : List (List Elem)) :
    byteAt (front ++ ((Item.elem indicator (.mbssid parts)).bytes ++ rest)) (front.length + 2) =
        indicator :=
  byteAt_append front _ 2

theorem length_mbssid (notNil : parts ≠ []) (some : ∀ part ∈ parts, part ≠ []) :
    4 ≤ (encode (parts.map subelem)).length := by
  cases parts with
  | nil => exact absurd rfl notNil
  | cons part parts =>
    have notEmpty : (encode part).length ≠ 0 := fun empty =>
      some part List.mem_cons_self (length_encode_eq_zero.mp empty)
    have least := two_le_length_encode part
    have isLen : part.length ≠ 0 := fun empty => some part List.mem_cons_self
      (List.length_eq_zero_iff.mp empty)
    have bodyLength : (subelem part).body.length = (encode part).length := rfl
    rw [List.map_cons, encode_cons, List.length_append, Elem.length_bytes, bodyLength]
    omega

theorem looksSplit_eq (notNil : parts ≠ []) (some : ∀ part ∈ parts, part ≠ [])
    (following : List (List Elem)) :
    looksSplit (front ++ ((Item.elem indicator (.mbssid parts)).bytes ++ rest)) front.length =
      continues (parts ++ following) := by
  have isLength := @byteAt_length (Item.elem indicator (.mbssid parts)) front rest
  have bodyLength : (Item.elem indicator (.mbssid parts)).body.length =
    (encode (parts.map subelem)).length + 1 := rfl
  have least := length_mbssid notNil some
  have long : 4 ≤ (encode (parts.map subelem)).length + 1 := by omega
  cases parts with
  | nil => exact absurd rfl notNil
  | cons part parts =>
    have atPart :=
      @byteAt_part (front ++ [71, (encode ((part :: parts).map subelem)).length + 1, indicator])
      (encode (parts.map subelem) ++ rest) part (some part List.mem_cons_self)
    rw [← List.append_assoc (subelem part).bytes, ← encode_cons, ← List.map_cons, ← bytes_of_mbssid,
      List.length_append] at atPart
    have atPart :
      decide (byteAt (front ++ ((Item.elem indicator (.mbssid (part :: parts))).bytes ++ rest))
        (front.length + 5) ≠ 83) = !isStart part := atPart
    unfold looksSplit
    rw [isLength, bodyLength, Bool.decide_and, decide_eq_true long, Bool.true_and, atPart]
    rfl

/-- **The guess is right** at each Multiple BSSID element. -/
theorem goesOn_eq (valid : beacon.Valid) (meets : beacon.Meets)
    (isItems : beacon.items = before ++ .mbssid parts :: later)
    (isSplit : walk.splitProfile = isSplitProfFound (encode beacon.elems ++ beacon.behind)
      (encode beacon.elems).length
      (encode ((before ++ [Item.mbssid parts]).map (Item.elem beacon.indicator))).length) :
    walk.goesOn (encode beacon.elems ++ beacon.behind)
        (encode ((before ++ [Item.mbssid parts]).map (Item.elem beacon.indicator))).length =
      continues (later.flatMap Item.parts) := by
  generalize isFront : encode ((before ++ [Item.mbssid parts]).map (Item.elem beacon.indicator)) =
    front at isSplit ⊢
  have isMemory : encode beacon.elems ++ beacon.behind =
      front ++ (encode (later.map (Item.elem beacon.indicator)) ++ beacon.behind) := by
    unfold Beacon.elems
    rw [isItems, ← isFront, ← List.append_assoc, ← encode_append, ← List.map_append,
      List.append_assoc before]
    rfl
  have isLen : (encode beacon.elems).length - front.length =
      (encode (later.map (Item.elem beacon.indicator))).length := by
    have lengths := congrArg List.length isMemory
    rw [List.length_append, List.length_append, List.length_append] at lengths
    omega
  have inLater : ∀ item ∈ later, item ∈ beacon.items := by
    intro item member
    rw [isItems]
    exact List.mem_append_right _ (List.mem_cons_of_mem _ member)
  have notMbssid : ∀ elem, Item.other elem ∈ later → elem.id ≠ 71 := fun elem member =>
    (valid.others elem (inLater _ member)).2.1
  unfold Walk.goesOn
  rw [isSplit]
  unfold isSplitProfFound
  rw [isLen, isMemory]
  cases later with
  | nil =>
    have none := meets.behind before parts isItems
    have isBehind :
      front ++ (encode (([] : List Item).map (Item.elem beacon.indicator)) ++ beacon.behind) =
        front ++ beacon.behind := rfl
    have atFirst := byteAt_append front beacon.behind 0
    rw [Nat.add_zero] at atFirst
    rw [isBehind, atFirst]
    unfold looksSplit
    rw [byteAt_append, byteAt_append, byteAt_append]
    split
    case isTrue isMbssid =>
      rw [← Bool.decide_and]
      exact decide_eq_false fun both => none ⟨isMbssid, both.1.1, both.2, both.1.2⟩
    case isFalse => rfl
  | cons item later =>
    have shape :
      front ++ (encode ((item :: later).map (Item.elem beacon.indicator)) ++ beacon.behind) =
        front ++ ((item.elem beacon.indicator).bytes ++
          (encode (later.map (Item.elem beacon.indicator)) ++ beacon.behind)) := by
      rw [List.map_cons, encode_cons, List.append_assoc]
    have atId :
      byteAt (front ++ (encode ((item :: later).map (Item.elem beacon.indicator)) ++ beacon.behind))
        front.length = (item.elem beacon.indicator).id := by
      rw [shape]
      exact byteAt_id
    cases item with
    | mbssid parts' =>
      obtain ⟨notNil, some, _⟩ := valid.some parts' (inLater _ List.mem_cons_self)
      have isIndicator : decide (beacon.indicator ≠ 83) = true := by
        have := valid.indicator
        exact decide_eq_true (by omega)
      rw [if_pos (show _ = 71 from atId), shape, looksSplit_eq notNil some
        (later.flatMap Item.parts), byteAt_indicator, isIndicator,
        Bool.and_true]
      rfl
    | other elem =>
      have isOther := valid.others elem (inLater _ List.mem_cons_self)
      rw [if_neg (fun isMbssid => isOther.2.1 (atId.symm.trans isMbssid))]
      rcases next_mbssid notMbssid beacon.indicator front beacon.behind with
        ⟨between, parts', after, isLater, noParts, isFound⟩ | ⟨-, noParts, isNone⟩
      · obtain ⟨notNil, some, _⟩ :=
          valid.some parts' (inLater _ (isLater ▸ List.mem_append_right _ List.mem_cons_self))
        have isParts : (Item.other elem :: later).flatMap Item.parts = parts' ++
            after.flatMap Item.parts := by
          rw [isLater, List.flatMap_append, noParts, List.flatMap_cons]
          rfl
        have looks :
          looksSplit
          (front ++ (encode ((Item.other elem :: later).map (Item.elem beacon.indicator)) ++
            beacon.behind)) (front ++ encode (between.map (Item.elem beacon.indicator))).length =
            continues (parts' ++ after.flatMap Item.parts) := by
          have place :
            front ++ (encode ((Item.other elem :: later).map (Item.elem beacon.indicator)) ++
              beacon.behind) =
              front ++ encode (between.map (Item.elem beacon.indicator)) ++
                ((Item.elem beacon.indicator (.mbssid parts')).bytes ++
                  (encode (after.map (Item.elem beacon.indicator)) ++ beacon.behind)) := by
            rw [isLater, List.map_append, List.map_cons, encode_append, encode_cons]
            simp only [List.append_assoc]
          rw [place]
          exact looksSplit_eq notNil some (after.flatMap Item.parts)
        rw [isFound]
        dsimp only
        rw [looks, isParts]
        cases goesOn : continues (parts' ++ after.flatMap Item.parts) with
        | false => rfl
        | true =>
          have seen := meets.seen before parts elem later isItems (by
            rw [← isParts] at goesOn
            exact goesOn)
          rw [Bool.true_and]
          refine decide_eq_true ?_
          rw [shape]
          cases isBody : elem.body with
          | cons first body =>
            have head :=
              @byteAt_head elem front (encode (later.map (Item.elem beacon.indicator)) ++
                beacon.behind)
              (by rw [isBody]; exact Nat.le_add_left 1 _)
            rw [head] at seen
            exact fun isCap => seen (congrArg Option.some isCap)
          | nil =>
            have bytes : (Item.elem beacon.indicator (.other elem)).bytes = [elem.id, 0] := by
              unfold Elem.bytes
              rw [show (Item.elem beacon.indicator (.other elem)) = elem from rfl, isBody]
              rfl
            have place : front.length + 2 = (front ++ [elem.id, 0]).length := by
              rw [List.length_append]
              rfl
            rw [bytes, place, ← List.append_assoc front]
            cases later with
            | nil =>
              rw [← isParts] at goesOn
              exact absurd goesOn Bool.false_ne_true
            | cons item later =>
              rw [List.map_cons, encode_cons, List.append_assoc (item.elem beacon.indicator).bytes,
                byteAt_id]
              cases item with
              | other next =>
                exact (valid.others next
                  (inLater _ (List.mem_cons_of_mem _ List.mem_cons_self))).2.2
              | mbssid parts'' => exact (by decide : (71 : Nat) ≠ 83)
      · rw [isNone, noParts]
        rfl

/-! ### The loop over the Multiple BSSID elements -/

theorem length_part_le {part : List Elem} (member : part ∈ parts) :
    (encode part).length + 2 ≤ (encode (parts.map subelem)).length := by
  induction parts with
  | nil => exact absurd member List.not_mem_nil
  | cons first parts ih =>
    have bodyLength : (subelem first).body.length = (encode first).length := rfl
    rw [List.map_cons, encode_cons, List.length_append, Elem.length_bytes, bodyLength]
    rcases List.mem_cons.mp member with rfl | isIn
    · omega
    · have := ih isIn
      omega

/-- The sub-elements of a Multiple BSSID element of the beacon. -/
theorem Beacon.Valid.subs (valid : beacon.Valid) (meets : beacon.Meets)
    (isItems : beacon.items = before ++ .mbssid parts :: later) :
    Subs beacon (encode (before.map (Item.elem beacon.indicator))).length
      (encode ((before ++ [Item.mbssid parts]).map (Item.elem beacon.indicator))).length
      (encode (before.map (Item.elem beacon.indicator)) ++
        [71, (encode (parts.map subelem)).length + 1, beacon.indicator])
      (encode (later.map (Item.elem beacon.indicator)) ++ beacon.behind) parts
          (later.flatMap Item.parts) := by
  have member : Item.mbssid parts ∈ beacon.items := by
    rw [isItems]
    exact List.mem_append_right _ List.mem_cons_self
  have isMemory : encode beacon.elems ++ beacon.behind =
    encode (before.map (Item.elem beacon.indicator)) ++
      ((Item.elem beacon.indicator (.mbssid parts)).bytes ++
        (encode (later.map (Item.elem beacon.indicator)) ++ beacon.behind)) := by
    unfold Beacon.elems
    rw [isItems, List.map_append, List.map_cons, encode_append, encode_cons]
    simp only [List.append_assoc]
  obtain ⟨_, some, starts⟩ := valid.some parts member
  have body : (encode (parts.map subelem)).length + 1 < 2 ^ 8 :=
    valid.bodies _ (List.mem_map_of_mem member)
  refine ⟨isMemory.trans (bytes_of_mbssid parts), ?_, ?_, some, starts, fun part isIn => ?_,
    fun part isIn goesOn => ?_⟩
  · rw [List.map_append, encode_append, List.length_append, List.length_append, List.map_cons,
      encode_cons,
      List.length_append, Elem.length_bytes]
    change _ + ((encode (parts.map subelem)).length + 1 + 2 + 0) = _ + 3 + _
    omega
  · rw [isMemory]
    exact byteAt_indicator parts
  · have := length_part_le isIn
    omega
  · exact meets.long part (List.mem_flatMap.mpr ⟨_, member, isIn⟩) goesOn

/-- **The loop over the Multiple BSSID elements** gives each profile its entry. -/
theorem mbssidLoop_eq (valid : beacon.Valid) (meets : beacon.Meets) {rounds : Nat}
    {begun : Option (List Elem)} (isItems : beacon.items = before ++ later)
    (enough : later.length < rounds) (ready : Ready beacon begun walk)
    (agree : begun.isSome = continues (later.flatMap Item.parts))
        (whole : ∀ profile ∈ join begun (later.flatMap Item.parts),
          profile ∈ profiles beacon.items) :
    ∃ walk', mbssidLoop beacon.received rounds
    (encode (before.map (Item.elem beacon.indicator))).length walk =
        (walk', false) ∧
      walk'.entries = walk.entries ++ (join begun (later.flatMap Item.parts)).map beacon.entry := by
  induction rounds generalizing before later walk begun with
  | zero => exact absurd enough (Nat.not_lt_zero _)
  | succ rounds ih =>
    have isIe : beacon.received.ie = encode beacon.elems ++ beacon.behind := by
      rw [valid.received_eq]
    have isIelen : beacon.received.ielen = (encode beacon.elems).length := by rw [valid.received_eq]
    have isMemory : encode beacon.elems ++ beacon.behind =
      encode (before.map (Item.elem beacon.indicator)) ++
        (encode (later.map (Item.elem beacon.indicator)) ++ beacon.behind) := by
      unfold Beacon.elems
      rw [isItems, List.map_append, encode_append, List.append_assoc]
    have lengths : (encode beacon.elems).length =
      (encode (before.map (Item.elem beacon.indicator))).length +
        (encode (later.map (Item.elem beacon.indicator))).length := by
      unfold Beacon.elems
      rw [isItems, List.map_append, encode_append, List.length_append]
    have left : (encode beacon.elems).length -
      (encode (before.map (Item.elem beacon.indicator))).length =
        (encode (later.map (Item.elem beacon.indicator))).length := by omega
    have others : ∀ elem, Item.other elem ∈ later → elem.id ≠ 71 := by
      intro elem member
      refine (valid.others elem ?_).2.1
      rw [isItems]
      exact List.mem_append_right _ member
    rw [mbssidLoop, isIe, isIelen, if_pos (by omega), left]
    rcases next_mbssid others beacon.indicator (encode (before.map (Item.elem beacon.indicator)))
        beacon.behind with
      ⟨between, parts, after, rfl, noParts, isFound⟩ | ⟨-, noParts, isNone⟩
    · have isItems' : beacon.items = (before ++ between) ++ .mbssid parts :: after := by
        rw [isItems, List.append_assoc]
      have member : Item.mbssid parts ∈ beacon.items := by
        rw [isItems']
        exact List.mem_append_right _ List.mem_cons_self
      have isParts : (between ++ .mbssid parts :: after).flatMap Item.parts = parts ++
          after.flatMap Item.parts := by
        rw [List.flatMap_append, noParts, List.flatMap_cons]
        rfl
      obtain ⟨notNil, some, _⟩ := valid.some parts member
      have subs := valid.subs meets isItems'
      have least := length_mbssid notNil some
      rw [← isMemory, ← encode_append, ← List.map_append] at isFound
      have atLength : byteAt (encode beacon.elems ++ beacon.behind)
          ((encode ((before ++ between).map (Item.elem beacon.indicator))).length + 1) =
            (encode (parts.map subelem)).length + 1 := by
        rw [subs.isMemory, ← bytes_of_mbssid]
        exact byteAt_length
      have isNext := subs.isNext
      have place : (encode ((before ++ between).map (Item.elem beacon.indicator))).length + 3 =
          (encode ((before ++ between).map (Item.elem beacon.indicator)) ++
            [71, (encode (parts.map subelem)).length + 1, beacon.indicator]).length := by
        rw [List.length_append]
        rfl
      have next : (encode ((before ++ between).map (Item.elem beacon.indicator))).length +
          ((encode (parts.map subelem)).length + 1) + 2 =
            (encode ((before ++ between ++ [Item.mbssid parts]).map
                (Item.elem beacon.indicator))).length := by
        omega
      have enoughSubs : parts.length ≤ (encode beacon.elems).length := by
        have twice := two_le_length_encode (parts.map subelem)
        have whole := congrArg List.length subs.isMemory
        have isLen : (encode beacon.elems).length =
            (encode ((before ++ between ++ Item.mbssid parts :: after).map
                (Item.elem beacon.indicator))).length := by
          unfold Beacon.elems
          rw [isItems']
        rw [List.length_map] at twice
        rw [List.map_append, encode_append, List.length_append, List.map_cons, encode_cons,
          List.length_append] at isLen
        have body : (Item.elem beacon.indicator (.mbssid parts)).bytes.length =
            (encode (parts.map subelem)).length + 1 + 2 := rfl
        omega
      rw [isParts] at agree whole ⊢
      obtain ⟨subbed, begun', new, isLoop, rounded, isBegun, isJoin⟩ := @subLoop_eq beacon _ _
        { walk with
          profileCount := 2 ^ beacon.indicator % 2 ^ 8
          splitProfile := isSplitProfFound (encode beacon.elems ++ beacon.behind)
            (encode beacon.elems).length
            (encode ((before ++ between ++ [Item.mbssid parts]).map
              (Item.elem beacon.indicator))).length }
        valid _ _ (encode beacon.elems).length parts
        (after.flatMap Item.parts) begun enoughSubs subs whole
        ⟨ready.residue, ready.splitProf, fun profile isSome elem isIn isIndex =>
          have known := ready.known profile isSome elem isIn isIndex
          ⟨known.newBssid, known.profileNum, known.transBssid⟩⟩ rfl agree
          (goesOn_eq valid meets isItems' rfl)
      have further := @ih subbed (before ++ between ++ [Item.mbssid parts]) after begun'
        (by rw [isItems', List.append_assoc (before ++ between)]; rfl)
        (by rw [List.length_append, List.length_cons] at enough; omega) rounded.ready isBegun
        (fun profile isIn => whole profile (by rw [isJoin]; exact List.mem_append_right _ isIn))
      obtain ⟨walk', isRest, entries⟩ := further
      rw [isFound]
      dsimp only
      rw [atLength, if_neg (by omega), subs.isIndicator, next, place, isLoop]
      refine ⟨walk', isRest, ?_⟩
      rw [entries, rounded.entries, isJoin]
      exact (List.append_assoc ..).trans (congrArg (walk.entries ++ ·) List.map_append.symm)
    · have isNil : begun = none := by
        rw [noParts] at agree
        exact Option.not_isSome_iff_eq_none.mp (by rw [agree]; exact Bool.false_ne_true)
      rw [isMemory, isNone, noParts, isNil]
      exact ⟨walk, rfl, (List.append_nil _).symm⟩

/-- **One entry for each profile**, in their order, and success if there is a Multiple BSSID element
at all. -/
theorem parseMbssid_eq (valid : beacon.Valid) (meets : beacon.Meets) :
    (∀ parts, .mbssid parts ∈ beacon.items → (parseMbssid beacon.received).1 = .success) ∧
      (parseMbssid beacon.received).2 = (profiles beacon.items).map beacon.entry := by
  have isIe : beacon.received.ie = encode beacon.elems ++ beacon.behind := by rw [valid.received_eq]
  have isIelen : beacon.received.ielen = (encode beacon.elems).length := by rw [valid.received_eq]
  have ready : Ready beacon none ⟨0, 0, [], false, false, false, [], [], []⟩ := ⟨rfl, nofun, nofun⟩
  have enough : beacon.items.length < beacon.received.ielen + 2 := by
    have least := two_le_length_encode beacon.elems
    have isLen : beacon.elems.length = beacon.items.length := List.length_map _
    omega
  obtain ⟨walk', isLoop, entries⟩ :=
    @mbssidLoop_eq beacon ⟨0, 0, [], false, false, false, [], [], []⟩ [] beacon.items valid
    meets (beacon.received.ielen + 2) none rfl enough ready valid.starts.symm fun profile member =>
    member
  have isLoop : mbssidLoop beacon.received (beacon.received.ielen + 2) 0
    ⟨0, 0, [], false, false, false, [], [], []⟩ =
      (walk', false) := isLoop
  rw [List.nil_append] at entries
  unfold parseMbssid
  rw [isLoop, isIe, isIelen]
  rcases next_mbssid (fun elem member => (valid.others elem member).2.1) beacon.indicator
      [] beacon.behind with
    ⟨_, _, _, _, _, isFound⟩ | ⟨notMbssid, noParts, isNone⟩
  · have isFound : scanFindFrom 71 (encode beacon.elems ++ beacon.behind) 0
      (encode beacon.elems).length = _ := isFound
    rw [isFound]
    exact ⟨fun _ _ => rfl, entries⟩
  · have isNone : scanFindFrom 71 (encode beacon.elems ++ beacon.behind) 0
      (encode beacon.elems).length = _ := isNone
    rw [isNone]
    refine ⟨fun parts member => absurd member (notMbssid parts), ?_⟩
    unfold profiles
    rw [noParts]
    rfl

/-! ### Split or not -/

/-- The same beacon with unsplit profiles: the other elements are the same, and each part is a whole
profile. -/
structure Unsplit (beacon whole : Beacon) : Prop where
  fixed : whole.fixed = beacon.fixed
  indicator : whole.indicator = beacon.indicator
  others : whole.others = beacon.others
  parts : whole.parts = profiles beacon.items
  starts : ∀ part ∈ whole.parts, isStart part = true

theorem join_of_starts (begun : Option (List Elem)) {parts : List (List Elem)}
    (starts : ∀ part ∈ parts, isStart part = true) : join begun parts = begun.toList ++ parts := by
  induction parts generalizing begun with
  | nil =>
    cases begun with
    | none => rfl
    | some begun => rfl
  | cons part parts ih =>
    obtain ⟨start, starts⟩ := List.forall_mem_cons.mp starts
    have further := ih (some part) starts
    cases begun with
    | none => exact further
    | some begun =>
      have isJoin : join (some begun) (part :: parts) = begun :: join (some part) parts :=
        if_pos start
      rw [isJoin, further]
      rfl

/-- **Splitting profiles does not change the result**: where there are Multiple BSSID elements both
calls succeed, there is one entry for each profile, and it is the one of the beacon with unsplit
profiles. -/
theorem split_alike {whole : Beacon} (valid : beacon.Valid) (wholeValid : whole.Valid)
    (unsplit : Unsplit beacon whole) (meets : beacon.Meets) (wholeMeets : whole.Meets) :
    (∀ parts, .mbssid parts ∈ beacon.items → (parseMbssid beacon.received).1 = .success) ∧
      (∀ parts, .mbssid parts ∈ whole.items → (parseMbssid whole.received).1 = .success) ∧
      (parseMbssid beacon.received).2 = (parseMbssid whole.received).2 ∧
      (parseMbssid beacon.received).2 = (profiles beacon.items).map beacon.entry := by
  have isProfiles : profiles whole.items = profiles beacon.items := by
    rw [← unsplit.parts]
    exact join_of_starts none unsplit.starts
  have isEntry : whole.entry = beacon.entry := by
    unfold Beacon.entry Beacon.bssid
    rw [unsplit.fixed, unsplit.indicator, unsplit.others]
  obtain ⟨succeeds, entries⟩ := parseMbssid_eq valid meets
  obtain ⟨wholeSucceeds, wholeEntries⟩ := parseMbssid_eq wholeValid wholeMeets
  refine ⟨succeeds, wholeSucceeds, ?_, entries⟩
  rw [entries, wholeEntries, isProfiles, isEntry]

/-! ### Three profiles -/

/-- Three profiles, of which the second one is split, with an element between both parts. -/
def threeProfiles (between : Elem) : Beacon where
  fixed := List.range 36
  indicator := 2
  items := [.other ⟨0, [97, 98]⟩,
    .mbssid [[⟨83, [1, 2]⟩, ⟨0, [99]⟩, ⟨85, [1]⟩], [⟨83, [3, 4]⟩, ⟨0, [100]⟩]], .other between,
    .mbssid [[⟨85, [2]⟩, ⟨7, [1]⟩], [⟨83, [5, 6]⟩, ⟨0, [101]⟩, ⟨85, [3]⟩]]]
  behind := [0, 0]

/-- The same profiles, unsplit. -/
def threeWhole (between : Elem) : Beacon where
  fixed := List.range 36
  indicator := 2
  items := [.other ⟨0, [97, 98]⟩,
    .mbssid [[⟨83, [1, 2]⟩, ⟨0, [99]⟩, ⟨85, [1]⟩], [⟨83, [3, 4]⟩, ⟨0, [100]⟩, ⟨85, [2]⟩, ⟨7, [1]⟩]],
    .other between,
    .mbssid [[⟨83, [5, 6]⟩, ⟨0, [101]⟩, ⟨85, [3]⟩]]]
  behind := [0, 0]

/-- The three profiles, put together. -/
def threeJoined : List (List Elem) :=
  [[⟨83, [1, 2]⟩, ⟨0, [99]⟩, ⟨85, [1]⟩], [⟨83, [3, 4]⟩, ⟨0, [100]⟩, ⟨85, [2]⟩, ⟨7, [1]⟩],
    [⟨83, [5, 6]⟩, ⟨0, [101]⟩, ⟨85, [3]⟩]]

theorem threeJoined_valid : ∀ profile ∈ threeJoined, ValidProfile profile := by
  intro profile member
  simp only [threeJoined, List.mem_cons, List.not_mem_nil, or_false] at member
  rcases member with rfl | rfl | rfl
  · exact ⟨⟨by decide, by decide⟩, ⟨_, _, rfl, rfl, rfl, by decide⟩, ⟨_, rfl, by decide, by decide⟩,
      ⟨⟨0, [99]⟩, by decide, rfl⟩⟩
  · exact ⟨⟨by decide, by decide⟩, ⟨_, _, rfl, rfl, rfl, by decide⟩, ⟨_, rfl, by decide, by decide⟩,
      ⟨⟨0, [100]⟩, by decide, rfl⟩⟩
  · exact ⟨⟨by decide, by decide⟩, ⟨_, _, rfl, rfl, rfl, by decide⟩, ⟨_, rfl, by decide, by decide⟩,
      ⟨⟨0, [101]⟩, by decide, rfl⟩⟩

variable {between : Elem}

theorem threeProfiles_valid (isOther : Whole between ∧ between.id ≠ 71 ∧ between.id ≠ 83) :
    (threeProfiles between).Valid := by
  have length := isOther.1.length
  refine ⟨rfl, ?_, (by decide : 2 ≤ 8), ?_, ?_, ?_, rfl, threeJoined_valid⟩
  · simp [threeProfiles, Beacon.elems, Item.elem, subelem, Elem.bytes]
    omega
  · simp [threeProfiles, Beacon.elems, Item.elem, subelem, Elem.bytes]
    omega
  · simp only [threeProfiles, List.mem_cons, List.not_mem_nil, or_false, reduceCtorEq, false_or,
      Item.other.injEq]
    rintro elem (rfl | rfl)
    · exact ⟨by decide, by decide, by decide⟩
    · exact isOther
  · simp only [threeProfiles, List.mem_cons, List.not_mem_nil, or_false, reduceCtorEq, false_or,
      Item.mbssid.injEq]
    rintro parts (rfl | rfl)
    · decide
    · decide

theorem threeWhole_valid (isOther : Whole between ∧ between.id ≠ 71 ∧ between.id ≠ 83) :
    (threeWhole between).Valid := by
  have length := isOther.1.length
  refine ⟨rfl, ?_, (by decide : 2 ≤ 8), ?_, ?_, ?_, rfl, threeJoined_valid⟩
  · simp [threeWhole, Beacon.elems, Item.elem, subelem, Elem.bytes]
    omega
  · simp [threeWhole, Beacon.elems, Item.elem, subelem, Elem.bytes]
    omega
  · simp only [threeWhole, List.mem_cons, List.not_mem_nil, or_false, reduceCtorEq, false_or,
      Item.other.injEq]
    rintro elem (rfl | rfl)
    · exact ⟨by decide, by decide, by decide⟩
    · exact isOther
  · simp only [threeWhole, List.mem_cons, List.not_mem_nil, or_false, reduceCtorEq, false_or,
      Item.mbssid.injEq]
    rintro parts (rfl | rfl)
    · decide
    · decide

theorem three_unsplit (between : Elem) : Unsplit (threeProfiles between) (threeWhole between) :=
  ⟨rfl, rfl, rfl, rfl, (by decide : ∀ part ∈ threeJoined, isStart part = true)⟩

/-- Elements that do not begin like a capability are no hindrance. -/
theorem seen_of_others (others : ∀ elem ∈ beacon.others, elem.body.head? ≠ some 83)
    (before : List Item) (parts : List (List Elem)) (elem : Elem) (after : List Item)
    (isItems : beacon.items = before ++ .mbssid parts :: .other elem :: after)
    (_ : continues (after.flatMap Item.parts) = true) : elem.body.head? ≠ some 83 := by
  refine others elem (List.mem_flatMap.mpr ⟨.other elem, ?_, List.mem_singleton_self elem⟩)
  rw [isItems]
  simp

/-- The parts around supported rates are put together. -/
theorem rates_between :
    (parseMbssid (threeProfiles ⟨1, [9, 9]⟩).received).1 = .success ∧
      (parseMbssid (threeWhole ⟨1, [9, 9]⟩).received).1 = .success ∧
      (parseMbssid (threeProfiles ⟨1, [9, 9]⟩).received).2 =
      (parseMbssid (threeWhole ⟨1, [9, 9]⟩).received).2 ∧
      (parseMbssid (threeProfiles ⟨1, [9, 9]⟩).received).2 =
        (profiles (threeProfiles ⟨1, [9, 9]⟩).items).map (threeProfiles ⟨1, [9, 9]⟩).entry := by
  obtain ⟨succeeds, wholeSucceeds, alike, entries⟩ :=
    split_alike (threeProfiles_valid ⟨by decide, by decide, by decide⟩)
      (threeWhole_valid ⟨by decide, by decide, by decide⟩) (three_unsplit ⟨1, [9, 9]⟩)
      ⟨by decide, seen_of_others (by decide), fun _ _ _ both => absurd both.1 (by decide)⟩
      ⟨by decide, seen_of_others (by decide), fun _ _ _ both => absurd both.1 (by decide)⟩
  exact ⟨succeeds _ (List.mem_cons_of_mem _ List.mem_cons_self),
    wholeSucceeds _ (List.mem_cons_of_mem _ List.mem_cons_self), alike, entries⟩

/-- With a vendor's element between both parts whose OUI begins with the ID of the capability, the
profile is lost. -/
theorem vendor_between :
    ¬ ∀ beacon whole : Beacon, beacon.Valid → whole.Valid → Unsplit beacon whole →
      (parseMbssid beacon.received).2 = (parseMbssid whole.received).2 := by
  intro all
  have same := all (threeProfiles ⟨221, [83, 1, 2, 3, 4]⟩) (threeWhole ⟨221, [83, 1, 2, 3, 4]⟩)
    (threeProfiles_valid ⟨by decide, by decide, by decide⟩)
    (threeWhole_valid ⟨by decide, by decide, by decide⟩) (three_unsplit _)
  exact absurd (congrArg List.length same) (by decide +kernel)

end Qsdk.SplitProfiles
