/-
**Profiles that are split over Multiple BSSID elements.**

`util_scan_parse_mbssid` goes over the Multiple BSSID elements of a beacon and generates a frame for
each profile. A profile that does not end in its element goes on as the first sub-element of the
next one. Whether it does is guessed: by a look at the next Multiple BSSID element, and at the byte
where the next sub-element would have its first element.
-/

import Qsdk.Umac.MbssidFree

namespace Qsdk.SplitProfiles

open Qsdk.Elements Qsdk.Inheritance

/-! ### Model -/

/-- What `util_scan_gen_scan_entry` is called with. -/
structure Entry where
  frame : List Nat
  profileNum : Nat
  profileCount : Nat
  transBssid : List Nat
deriving DecidableEq

/-- `struct scan_mbssid_info`, with the other variables that outlive a sub-element.
`skip_bssid_copy` is set and reset in one call of `util_handle_nontx_prof`. -/
structure Walk where
  profileNum : Nat
  profileCount : Nat
  transBssid : List Nat
  splitProfile : Bool
  profResidue : Bool
  splitProfContinue : Bool
  newBssid : List Nat
  /-- The bytes from `split_prof_start` to `split_prof_end`. -/
  splitProf : List Nat
  entries : List Entry

inductive ReasonCode
  | validNontxProf
  | invalidSplitProf
  | invalidNontxProf

/-- `util_gen_new_bssid`. -/
def genNewBssid (bssid : List Nat) (maxBssid mbssidIndex : Nat) : List Nat :=
  let last := byteAt bssid 5
  bssid.set 5
  ((last / 2 ^ maxBssid * 2 ^ maxBssid + (last % 2 ^ maxBssid + mbssidIndex) % 2 ^ maxBssid) % 2 ^
    8)

/-- `util_scan_find_ie` from a place on. -/
def scanFindFrom (eid : Nat) (ies : List Nat) (pos len : Nat) : Option Nat :=
  findLoop ies (fun pos => decide (byteAt ies pos = eid)) len pos len

/-- An element whose first sub-element has no capability in front. -/
def looksSplit (ie : List Nat) (pos : Nat) : Bool :=
  decide (4 ≤ byteAt ie (pos + 1) ∧ byteAt ie (pos + 5) ≠ 83)

/-- `util_scan_is_split_prof_found`. -/
def isSplitProfFound (ie : List Nat) (ielen nextElem : Nat) : Bool :=
  if byteAt ie nextElem = 71 then looksSplit ie nextElem
  else
    match scanFindFrom 71 ie nextElem (ielen - nextElem) with
    | none => false
    | some nextMbssidElem => looksSplit ie nextMbssidElem

/-- Where `prof_residue` is to be set, or stays set. -/
def Walk.goesOn (walk : Walk) (ie : List Nat) (nextSubelement : Nat) : Bool :=
  walk.splitProfile && decide (byteAt ie (nextSubelement + 2) ≠ 83)

/-- `util_handle_nontx_prof`. -/
def handleNontxProf (ie bssid : List Nat) (mbssidElem subelement nextSubelement : Nat)
    (walk : Walk) :
    Walk × ReasonCode :=
  let profLen := byteAt ie (subelement + 1)
  if walk.splitProfContinue = true ∧ (byteAt ie subelement ≠ 0 ∨ profLen < 3) then
    (walk, .invalidSplitProf)
  else if walk.splitProfContinue = false ∧ (byteAt ie subelement ≠ 0 ∨ profLen < 4) then
    (walk, .invalidNontxProf)
  else
    let walk := { walk with profResidue := walk.profResidue || walk.goesOn ie nextSubelement }
    if walk.splitProfContinue = false ∧
        (byteAt ie (subelement + 2) ≠ 83 ∨ byteAt ie (subelement + 3) ≠ 2) then
      (walk, .invalidNontxProf)
    else
      match scanFindFrom 85 ie (subelement + 2) profLen with
      | none => if walk.profResidue then (walk, .validNontxProf) else (walk, .invalidNontxProf)
      | some mbssidIndexIe =>
        if byteAt ie (mbssidIndexIe + 1) < 1 ∨ byteAt ie (mbssidIndexIe + 2) = 0 then
          (walk, .invalidNontxProf)
        else
          ({ walk with
            transBssid := bssid
            profileNum := byteAt ie (mbssidIndexIe + 2)
            newBssid := genNewBssid bssid (byteAt ie (mbssidElem + 2))
              (byteAt ie (mbssidIndexIe + 2)) },
            .validNontxProf)

/-- A beacon in memory: what is in front of its elements, and the memory from these on. -/
structure Received where
  fixed : List Nat
  ie : List Nat
  ielen : Nat

def Received.bssid (received : Received) : List Nat := (received.fixed.drop 16).take 6

/-- The new frame with `i_addr2`, `i_addr3` and the capability. -/
def Walk.newFrame (walk : Walk) (fixed nontxProfile newIe : List Nat) : List Nat :=
  fixed.take 10 ++ walk.newBssid ++ walk.newBssid ++ (fixed.drop 22).take 12 ++
    (nontxProfile.drop 4).take 2 ++ newIe

/-- A frame is generated from a profile, and `util_scan_gen_scan_entry` accepts it. -/
def Walk.generate (walk : Walk) (received : Received) (nontxProfile : List Nat) : Walk :=
  let newIe := genNewIe true received.ie received.ielen (nontxProfile.drop 2)
  if newIe.length = 0 then walk
  else
    { walk with
      entries := walk.entries ++ [⟨walk.newFrame received.fixed nontxProfile newIe, walk.profileNum,
        walk.profileCount, walk.transBssid⟩] }

/-- How the loop over the sub-elements goes on. -/
inductive Turn
  | next
  | leave
  | invalid

/-- What is done with a valid profile, or a part of one. -/
def Walk.take (walk : Walk) (received : Received) (subelement nextSubelement : Nat) : Walk × Turn :=
  let subieLen := byteAt received.ie (subelement + 1)
  if walk.profResidue then
    if walk.splitProfContinue then
      let walk := { walk with
        splitProf := walk.splitProf ++ (received.ie.drop (subelement + 2)).take subieLen
        profResidue := walk.goesOn received.ie nextSubelement }
      if walk.profResidue then (walk, .leave) else (walk.generate received walk.splitProf, .next)
    else ({ walk with splitProf := (received.ie.drop subelement).take (subieLen + 2) }, .leave)
  else (walk.generate received ((received.ie.drop subelement).take (subieLen + 2)), .next)

/-- One sub-element. -/
def Walk.round (walk : Walk) (received : Received) (mbssidElem nextElem subelement : Nat) :
    Walk × Turn :=
  let subieLen := byteAt received.ie (subelement + 1)
  let nextSubelement := subelement + subieLen + 2
  let walk := { walk with splitProfContinue := walk.profResidue }
  if 252 < subieLen then (walk, .invalid)
  else if nextElem - subelement < 2 + subieLen then (walk, .leave)
  else
    match handleNontxProf received.ie received.bssid mbssidElem subelement nextSubelement walk with
    | (walk, .invalidSplitProf) => (walk, .invalid)
    | (walk, .invalidNontxProf) => (walk, .next)
    | (walk, .validNontxProf) => walk.take received subelement nextSubelement

/-- The loop over the sub-elements. It tells whether `QDF_STATUS_E_INVAL` is returned. -/
def subLoop (received : Received) (mbssidElem nextElem : Nat) : Nat → Nat → Walk → Walk × Bool
  | 0, _, walk => (walk, false)
  | rounds + 1, subelement, walk =>
    if subelement < nextElem - 1 then
      match walk.round received mbssidElem nextElem subelement with
      | (walk, .next) =>
        subLoop received mbssidElem nextElem rounds
          (subelement + byteAt received.ie (subelement + 1) + 2) walk
      | (walk, .leave) => (walk, false)
      | (walk, .invalid) => (walk, true)
    else (walk, false)

/-- The loop over the Multiple BSSID elements. -/
def mbssidLoop (received : Received) : Nat → Nat → Walk → Walk × Bool
  | 0, _, walk => (walk, false)
  | rounds + 1, pos, walk =>
    if pos < received.ielen + 2 then
      match scanFindFrom 71 received.ie pos (received.ielen - pos) with
      | none => (walk, false)
      | some mbssidElem =>
        let nextElem := mbssidElem + byteAt received.ie (mbssidElem + 1) + 2
        if walk.splitProfile = false ∧ byteAt received.ie (mbssidElem + 1) < 4 then (walk, false)
        else
          match subLoop received mbssidElem nextElem received.ielen (mbssidElem + 3)
              { walk with
                profileCount := 2 ^ byteAt received.ie (mbssidElem + 2) % 2 ^ 8
                splitProfile := isSplitProfFound received.ie received.ielen nextElem } with
          | (walk, true) => (walk, true)
          | (walk, false) => mbssidLoop received rounds nextElem walk
    else (walk, false)

inductive Status
  | success
  | failure
  | inval
deriving DecidableEq

/-- **`util_scan_parse_mbssid`**, where no allocation fails and every frame is accepted: its status,
and the entries. -/
def parseMbssid (received : Received) : Status × List Entry :=
  match scanFindFrom 71 received.ie 0 received.ielen with
  | none => (.failure, [])
  | some _ =>
    match mbssidLoop received (received.ielen + 2) 0 ⟨0, 0, [], false, false, false, [], [], []⟩
        with
    | (walk, true) => (.inval, walk.entries)
    | (walk, false) => (.success, walk.entries)

/-- The elements of a frame, by the length of the frame. -/
def receivedFrame (frame : List Nat) (frameLen : Nat) : Received :=
  ⟨frame.take 36, frame.drop 36, (frameLen - 36) % 2 ^ 16⟩

/-! ### The beacon -/

/-- What a beacon consists of: elements, and Multiple BSSID elements with profiles or parts of
them. -/
inductive Item
  | other (elem : Elem)
  | mbssid (parts : List (List Elem))

/-- A sub-element. -/
def subelem (part : List Elem) : Elem := ⟨0, encode part⟩

def Item.elem (indicator : Nat) : Item → Elem
  | .other elem => elem
  | .mbssid parts => ⟨71, indicator :: encode (parts.map subelem)⟩

def Item.parts : Item → List (List Elem)
  | .other _ => []
  | .mbssid parts => parts

def Item.others : Item → List Elem
  | .other elem => [elem]
  | .mbssid _ => []

/-- A profile starts with its capability. -/
def isStart (part : List Elem) : Bool := part.head?.any fun elem => decide (elem.id = 83)

/-- The profiles, from the parts that are left and the one that has begun. -/
def joinFrom : List Elem → List (List Elem) → List (List Elem)
  | begun, [] => [begun]
  | begun, part :: parts => if isStart part then begun :: joinFrom part parts else
    joinFrom (begun ++ part) parts

def join (begun : Option (List Elem)) (parts : List (List Elem)) : List (List Elem) :=
  match begun, parts with
  | some begun, parts => joinFrom begun parts
  | none, [] => []
  | none, part :: parts => joinFrom part parts

/-- **The profiles of a beacon**, put together again. -/
def profiles (items : List Item) : List (List Elem) := join none (items.flatMap Item.parts)

/-- The first of the parts goes on with a profile. -/
def continues : List (List Elem) → Bool
  | [] => false
  | part :: _ => !isStart part

/-- The index in a Multiple BSSID-Index element. -/
def indexOf (elem : Elem) : Nat := elem.body.headD 0

/-- A profile: a capability in front, one index, and an SSID. -/
structure ValidProfile (elems : List Elem) : Prop where
  fit : Fit elems
  cap : ∃ cap more, elems = cap :: more ∧ cap.id = 83 ∧ cap.body.length = 2 ∧
    ∀ elem ∈ more, elem.id ≠ 83
  index : ∃ index, (elems.filter fun elem => decide (elem.id = 85)) = [index] ∧
    1 ≤ index.body.length ∧
    indexOf index ≠ 0
  ssid : ∃ elem ∈ elems, elem.id = 0

/-- A beacon, with the memory behind it. -/
structure Beacon where
  fixed : List Nat
  indicator : Nat
  items : List Item
  behind : List Nat

namespace Beacon

variable (beacon : Beacon)

def elems : List Elem := beacon.items.map (Item.elem beacon.indicator)

def parts : List (List Elem) := beacon.items.flatMap Item.parts

def others : List Elem := beacon.items.flatMap Item.others

def bssid : List Nat := (beacon.fixed.drop 16).take 6

def received : Received :=
  receivedFrame (beacon.fixed ++ (encode beacon.elems ++ beacon.behind))
    (36 + (encode beacon.elems).length)

/-- **The entry of a profile**: the BSSID is from its own index, the capability is its own, and so
are the elements. -/
def entry (profile : List Elem) : Entry :=
  let index := ((profile.find? fun elem => decide (elem.id = 85)).map indexOf).getD 0
  let newBssid := genNewBssid beacon.bssid beacon.indicator index
  ⟨beacon.fixed.take 10 ++ newBssid ++ newBssid ++ (beacon.fixed.drop 22).take 12 ++
      ((encode profile).drop 2).take 2 ++ newElems beacon.others profile,
    index, 2 ^ beacon.indicator % 2 ^ 8, beacon.bssid⟩

/-- A well-formed beacon. A part that goes on with a profile is the first sub-element of its
element. -/
structure Valid : Prop where
  fixed : beacon.fixed.length = 36
  short : (encode beacon.elems).length < 2 ^ 16
  indicator : beacon.indicator ≤ 8
  bodies : ∀ elem ∈ beacon.elems, elem.body.length < 2 ^ 8
  others : ∀ elem, Item.other elem ∈ beacon.items → Whole elem ∧ elem.id ≠ 71 ∧ elem.id ≠ 83
  some : ∀ parts, Item.mbssid parts ∈ beacon.items → parts ≠ [] ∧ (∀ part ∈ parts, part ≠ []) ∧
    ∀ part ∈ parts.tail, isStart part = true
  starts : continues beacon.parts = false
  profiles : ∀ profile ∈ profiles beacon.items, ValidProfile profile

/-- **Where the guess is right.** -/
structure Meets : Prop where
  /-- No part that goes on with a profile is one empty element. -/
  long : ∀ part ∈ beacon.parts, isStart part = false → 3 ≤ (encode part).length
  /-- Where a profile goes on behind another element, this one does not begin like a capability. -/
  seen : ∀ before parts elem after, beacon.items = before ++ .mbssid parts :: .other elem :: after →
    continues (after.flatMap Item.parts) = true → elem.body.head? ≠ some 83
  /-- What is behind a last Multiple BSSID element is not taken for one. -/
  behind : ∀ before parts, beacon.items = before ++ [.mbssid parts] →
    ¬ (byteAt beacon.behind 0 = 71 ∧ 4 ≤ byteAt beacon.behind 1 ∧ byteAt beacon.behind 2 ≠ 83 ∧
      byteAt beacon.behind 5 ≠ 83)

end Beacon

end Qsdk.SplitProfiles
