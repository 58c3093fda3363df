/-
**The SSID of a hidden network.**

`util_scan_add_hidden_ssid` puts the configured SSID into a beacon of the configured BSSID. It walks
along the elements with a pointer, a remaining length and an offset, takes a copy of the SSID on the
way, and then edits the frame at the offset.
-/

import Qsdk.Lib.Elements

namespace Qsdk.HiddenSsid

open Qsdk.Elements

/-! ### Model -/

/-- A buffer: the frame, and the tailroom behind it. -/
structure Nbuf where
  data : List Nat
  room : List Nat
deriving DecidableEq

def Nbuf.byte (nbuf : Nbuf) (pos : Nat) : Nat := (nbuf.data ++ nbuf.room)[pos]?.getD 0

def Nbuf.read (nbuf : Nbuf) (pos len : Nat) : List Nat :=
    ((nbuf.data ++ nbuf.room).drop pos).take len

/-- These bytes are in the frame. -/
def Nbuf.covers (nbuf : Nbuf) (pos len : Nat) : Bool := decide (pos + len ≤ nbuf.data.length)

def Nbuf.write (nbuf : Nbuf) (pos : Nat) (bytes : List Nat) : Nbuf :=
  { nbuf with data := nbuf.data.take pos ++ bytes ++ nbuf.data.drop (pos + bytes.length) }

/-- `qdf_nbuf_put_tail`, where the room is enough. -/
def Nbuf.putTail (nbuf : Nbuf) (len : Nat) : Option Nbuf :=
  if nbuf.room.length < len then none
  else some ⟨nbuf.data ++ nbuf.room.take len, nbuf.room.drop len⟩

/-- The configured BSSID and SSID of a pdev. -/
structure Conf where
  bssid : List Nat
  ssid : List Nat

/-- `WLAN_SSID_MAX_LEN`. -/
def ssidMaxLen : Nat := 32

/-- `WSC_OUI`, byte by byte. -/
def wscOui : List Nat := [0x00, 0x50, 0xf2, 0x04]

/-- `util_scan_is_hidden_ssid`. -/
def isHiddenSsid (ssidLen : Nat) (ssid : List Nat) : Bool := (ssid.take ssidLen).all fun byte =>
    decide (byte = 0)

/-- `is_wps_oui`. -/
def Nbuf.isWpsOui (nbuf : Nbuf) (frm : Nat) : Bool :=
  decide (nbuf.byte (frm + 1) > 3 ∧ nbuf.read (frm + 2) 4 = wscOui)

/-- The variables of the walk, and whether anything outside of the frame was touched. -/
structure Walk where
  ie : Nat
  ieLength : Nat
  bcnIeOffset : Nat
  ssidLen : Nat
  ssid : List Nat
  setSsidFlag : Bool
  ssidIeStartOffset : Nat
  ssidIeEndOffset : Nat
  outside : Bool

def Walk.touches (walk : Walk) (nbuf : Nbuf) (pos len : Nat) : Walk :=
  { walk with outside := walk.outside || !nbuf.covers pos len }

/-- What the walk does at an SSID element. The size of a header is added to a pointer to headers. -/
def Walk.copySsid (walk : Walk) (nbuf : Nbuf) (ieLen : Nat) : Walk :=
  let walk := { walk with ssidLen := ieLen }
  let walk := if ieLen ≠ 0 then
      { walk.touches nbuf (walk.ie + 2 * 2) ieLen with ssid := nbuf.read (walk.ie + 2 * 2) ieLen }
    else walk
  if isHiddenSsid walk.ssidLen walk.ssid then
    { walk with
      setSsidFlag := true
      ssidIeStartOffset := walk.bcnIeOffset - 2
      ssidIeEndOffset := (walk.bcnIeOffset + ieLen) % 2 ^ 16 }
  else walk

/-- The loop over the elements. The result says whether it was left in order. -/
def walkLoop (nbuf : Nbuf) : Nat → Walk → Walk × Bool
  | 0, walk => (walk, true)
  | rounds + 1, walk =>
    if walk.ieLength < 2 then (walk, true)
    else
      let ieId := nbuf.byte walk.ie
      let ieLen := nbuf.byte (walk.ie + 1)
      let walk := { walk.touches nbuf walk.ie 2 with
        ieLength := walk.ieLength - 2, bcnIeOffset := (walk.bcnIeOffset + 2) % 2 ^ 16 }
      if walk.ieLength < ieLen then (walk, false)
      else if ieId = 0 ∧ ieLen > ssidMaxLen then (walk, false)
      else
        let walk := if ieId = 0 then walk.copySsid nbuf ieLen else walk
        if ieLen = 0 then walkLoop nbuf rounds { walk with ie := walk.ie + 2 }
        else if ieId = 221 ∧ nbuf.isWpsOui walk.ie then ({ walk with setSsidFlag := false }, true)
        else walkLoop nbuf rounds
          { walk with ie := walk.ie + 2 + ieLen, ieLength := walk.ieLength - ieLen }

/-- What is returned. -/
inductive Status
  | success
  | invalid
  | noMem
deriving DecidableEq

structure Outcome where
  nbuf : Nbuf
  status : Status
  outside : Bool
deriving DecidableEq

/-- The end of `util_scan_add_hidden_ssid` for a hidden SSID without contents. `qdf_mem_malloc` has
nothing for no bytes. -/
def insertSsid (conf : Conf) (alloc : Bool) (nbuf : Nbuf) (walk : Walk) : Outcome :=
  match nbuf.putTail conf.ssid.length with
  | none => ⟨nbuf, .noMem, walk.outside⟩
  | some longer =>
    let stop := 24 + walk.ssidIeEndOffset
    let tmplen := nbuf.data.length - stop
    if tmplen = 0 || !alloc then ⟨longer, .noMem, walk.outside⟩
    else
      let tmp := longer.read stop tmplen
      let edited :=
        ((longer.write (24 + walk.ssidIeStartOffset + 1) [conf.ssid.length]).write stop
          conf.ssid).write
        (stop + conf.ssid.length) tmp
      let inside := longer.covers stop tmplen && longer.covers
        (24 + walk.ssidIeStartOffset + 1) 1 &&
        longer.covers stop (conf.ssid.length + tmplen)
      ⟨edited, .success, walk.outside || !inside⟩

/-- The end of `util_scan_add_hidden_ssid` after the walk. -/
def Walk.setSsid (conf : Conf) (alloc : Bool) (nbuf : Nbuf) (walk : Walk) : Outcome :=
  if walk.ssidLen = 0 then insertSsid conf alloc nbuf walk
  else if walk.ssidLen = conf.ssid.length then
    let pos := 24 + walk.ssidIeStartOffset + 2
    ⟨nbuf.write pos conf.ssid, .success, walk.outside || !nbuf.covers pos conf.ssid.length⟩
  else ⟨nbuf, .invalid, walk.outside⟩

/-- **`util_scan_add_hidden_ssid`.** -/
def addHiddenSsid (conf : Conf) (alloc : Bool) (nbuf : Nbuf) : Outcome :=
  if nbuf.read 16 6 ≠ conf.bssid ∨ conf.ssid.length = 0 then ⟨nbuf, .success, false⟩
  else
    match walkLoop nbuf nbuf.data.length
        ⟨36, (nbuf.data.length - 24 - 12) % 2 ^ 16, 12, 0, [], false, 0, 0, false⟩ with
    | (walk, false) => ⟨nbuf, .invalid, walk.outside⟩
    | (walk, true) =>
      if walk.setSsidFlag then walk.setSsid conf alloc nbuf else ⟨nbuf, .success, walk.outside⟩

/-! ### What is promised -/

/-- A vendor element with the OUI of WPS. -/
def IsWps (elem : Elem) : Prop := elem.id = 221 ∧ 3 < elem.body.length ∧ elem.body.take 4 = wscOui

instance (elem : Elem) : Decidable (IsWps elem) := by unfold IsWps; infer_instance

/-- A well-formed beacon: a header, the fixed fields, and elements, of which one is the SSID. -/
structure Beacon where
  header : List Nat
  fixed : List Nat
  pre : List Elem
  ssid : List Nat
  post : List Elem
  lengthHeader : header.length = 24
  lengthFixed : fixed.length = 12
  onlySsid : ∀ elem ∈ pre ++ post, elem.id ≠ 0
  short : ∀ elem ∈ pre ++ post, elem.body.length < 2 ^ 8
  shortSsid : ssid.length < 2 ^ 8

/-- The frame with some SSID. -/
def Beacon.frame (beacon : Beacon) (ssid : List Nat) : List Nat :=
  beacon.header ++ beacon.fixed ++ encode (beacon.pre ++ ⟨0, ssid⟩ :: beacon.post)

/-- The SSID is hidden: empty, or of zeros. -/
def Beacon.Hidden (beacon : Beacon) : Prop := ∀ byte ∈ beacon.ssid, byte = 0

/-- **Only the SSID is replaced**, and that where it is hidden. -/
structure OnlySsid (conf : Conf) (beacon : Beacon) (outcome : Outcome) : Prop where
  inside : outcome.outside = false
  unchanged : ¬ beacon.Hidden ∨ (∃ elem ∈ beacon.pre ++ beacon.post, IsWps elem) →
    outcome.nbuf.data = beacon.frame beacon.ssid
  replaced : beacon.Hidden → (∀ elem ∈ beacon.pre ++ beacon.post, ¬ IsWps elem) →
    beacon.ssid.length = 0 ∨ beacon.ssid.length = conf.ssid.length →
    outcome.nbuf.data = beacon.frame conf.ssid

/-! ### The walk -/

variable {nbuf : Nbuf} {front behind : List Nat} {elem : Elem} {elems : List Elem} {walk : Walk}
    {rounds : Nat}

/-- The walk is behind `front`, at the elements. -/
structure Walk.At (walk : Walk) (nbuf : Nbuf) (front : List Nat) (elems : List Elem) : Prop where
  isData : nbuf.data = front ++ encode elems
  isIe : walk.ie = front.length
  isLength : walk.ieLength = (encode elems).length
  fits : walk.bcnIeOffset + (encode elems).length < 2 ^ 16

theorem Walk.At.byte_id (isAt : walk.At nbuf front (elem :: elems)) :
    nbuf.byte walk.ie = elem.id := by
  unfold Nbuf.byte
  rw [isAt.isData, isAt.isIe, encode_cons, List.append_assoc, List.append_assoc, getElem?_id]
  rfl

theorem Walk.At.byte_length (isAt : walk.At nbuf front (elem :: elems)) :
    nbuf.byte (walk.ie + 1) = elem.body.length := by
  unfold Nbuf.byte
  rw [isAt.isData, isAt.isIe, encode_cons, List.append_assoc, List.append_assoc, getElem?_length]
  rfl

/-- Bytes from the contents of the element on. -/
theorem Walk.At.read (isAt : walk.At nbuf front (elem :: elems)) (skip len : Nat) :
    nbuf.read (walk.ie + 2 + skip) len =
        ((elem.body ++ (encode elems ++ nbuf.room)).drop skip).take len := by
  unfold Nbuf.read
  rw [isAt.isData, isAt.isIe, encode_cons, List.append_assoc,
    List.append_assoc, ← List.drop_drop, drop_body]

theorem Walk.At.isWpsOui (isAt : walk.At nbuf front (elem :: elems)) (isVendor : elem.id = 221) :
    nbuf.isWpsOui walk.ie = decide (IsWps elem) := by
  unfold Nbuf.isWpsOui
  rw [isAt.byte_length]
  have read := isAt.read 0 4
  rw [Nat.add_zero, List.drop_zero] at read
  rw [read]
  refine decide_eq_decide.mpr ⟨fun ⟨long, same⟩ => ⟨isVendor, long, ?_⟩,
    fun ⟨_, long, same⟩ => ⟨long, ?_⟩⟩
  · rwa [List.take_append_of_le_length (by omega)] at same
  · rwa [List.take_append_of_le_length (by omega)]

theorem Walk.At.covers (isAt : walk.At nbuf front (elem :: elems)) :
    nbuf.covers walk.ie 2 = true := by
  unfold Nbuf.covers
  rw [isAt.isData, isAt.isIe, encode_cons, List.length_append, List.length_append,
    Elem.length_bytes]
  exact decide_eq_true (by omega)

/-- The walk has gone over an element. The offset goes over its header only. -/
def Walk.next (walk : Walk) (elem : Elem) : Walk :=
  { walk with
    ie := walk.ie + elem.bytes.length
    ieLength := walk.ieLength - elem.bytes.length
    bcnIeOffset := walk.bcnIeOffset + 2 }

theorem Walk.At.next (isAt : walk.At nbuf front (elem :: elems)) :
    (walk.next elem).At nbuf (front ++ elem.bytes) elems := by
  have isLength := isAt.isLength
  have fits := isAt.fits
  rw [encode_cons, List.length_append, Elem.length_bytes] at isLength fits
  refine ⟨?_, ?_, ?_, ?_⟩
  · rw [isAt.isData, encode_cons, List.append_assoc]
  · rw [List.length_append, ← isAt.isIe]
    rfl
  · show walk.ieLength - elem.bytes.length = _
    rw [Elem.length_bytes]
    omega
  · show walk.bcnIeOffset + 2 + _ < 2 ^ 16
    omega

/-- One round, up to where the SSID is copied. -/
theorem Walk.At.round (isAt : walk.At nbuf front (elem :: elems)) :
    walkLoop nbuf (rounds + 1) walk =
      if elem.id = 0 ∧ elem.body.length > ssidMaxLen then
        ({ walk with ieLength := walk.ieLength - 2, bcnIeOffset := walk.bcnIeOffset + 2 }, false)
      else
        let copied : Walk :=
          { walk with ieLength := walk.ieLength - 2, bcnIeOffset := walk.bcnIeOffset + 2 }
        let copied := if elem.id = 0 then copied.copySsid nbuf elem.body.length else copied
        if elem.body.length = 0 then walkLoop nbuf rounds { copied with ie := copied.ie + 2 }
        else if elem.id = 221 ∧ nbuf.isWpsOui copied.ie then
          ({ copied with setSsidFlag := false }, true)
        else walkLoop nbuf rounds { copied with
          ie := copied.ie + 2 + elem.body.length, ieLength :=
              copied.ieLength - elem.body.length } := by
  have isLength := isAt.isLength
  have fits := isAt.fits
  rw [encode_cons, List.length_append, Elem.length_bytes] at isLength fits
  have touched : (walk.outside || !nbuf.covers walk.ie 2) = walk.outside := by
    rw [isAt.covers, Bool.not_true, Bool.or_false]
  have long : ¬ walk.ieLength < 2 := by omega
  have complete : ¬ walk.ieLength - 2 < elem.body.length := by omega
  rw [walkLoop, if_neg long]
  dsimp only [Walk.touches]
  rw [isAt.byte_id, isAt.byte_length, touched, if_neg complete, Nat.mod_eq_of_lt (by omega)]

/-- **An element that is neither the SSID nor of WPS.** -/
theorem Walk.At.round_other (isAt : walk.At nbuf front (elem :: elems)) (rounds : Nat)
    (notSsid : elem.id ≠ 0) (notWps : ¬ IsWps elem) :
    walkLoop nbuf (rounds + 1) walk = walkLoop nbuf rounds (walk.next elem) := by
  rw [isAt.round, if_neg (fun both => notSsid both.1)]
  dsimp only
  rw [if_neg notSsid]
  unfold Walk.next
  rw [Elem.length_bytes]
  by_cases none : elem.body.length = 0
  · rw [if_pos none, none, Nat.zero_add]
  · have isOther : ¬ (elem.id = 221 ∧ nbuf.isWpsOui walk.ie = true) := fun ⟨isVendor, isOui⟩ =>
      notWps (of_decide_eq_true ((isAt.isWpsOui isVendor).symm.trans isOui))
    rw [if_neg none, if_neg isOther, Nat.add_right_comm, Nat.add_assoc, Nat.sub_sub, Nat.add_comm 2]

/-- **An element of WPS** ends the walk. -/
theorem Walk.At.round_wps (isAt : walk.At nbuf front (elem :: elems)) (wps : IsWps elem) :
    ∃ after, walkLoop nbuf (rounds + 1) walk = (after, true) ∧ after.setSsidFlag = false ∧
      after.outside = walk.outside := by
  have isVendor := wps.1
  have long := wps.2.1
  have notSsid : elem.id ≠ 0 := by omega
  have isOui : elem.id = 221 ∧ nbuf.isWpsOui walk.ie = true :=
    ⟨isVendor, (isAt.isWpsOui isVendor).trans (decide_eq_true wps)⟩
  rw [isAt.round, if_neg (fun both => notSsid both.1)]
  dsimp only
  rw [if_neg notSsid, if_neg (by omega), if_pos isOui]
  exact ⟨_, rfl, rfl, rfl⟩

/-- The walk has gone over several elements. -/
def Walk.past (walk : Walk) (elems : List Elem) : Walk :=
  { walk with
    ie := walk.ie + (encode elems).length
    ieLength := walk.ieLength - (encode elems).length
    bcnIeOffset := walk.bcnIeOffset + 2 * elems.length }

theorem Walk.next_past (walk : Walk) (elem : Elem) (elems : List Elem) :
    (walk.next elem).past elems = walk.past (elem :: elems) := by
  unfold Walk.next Walk.past
  rw [encode_cons, List.length_append, List.length_cons, Nat.sub_sub, Nat.add_assoc, Nat.add_assoc,
    Nat.mul_add,
    Nat.add_comm 2]

/-- **Elements that are neither the SSID nor of WPS.** -/
theorem Walk.At.rounds_other {rest : List Elem} (isAt : walk.At nbuf front (elems ++ rest))
    (rounds : Nat) (notSsid : ∀ elem ∈ elems, elem.id ≠ 0) (notWps : ∀ elem ∈ elems, ¬ IsWps elem) :
    walkLoop nbuf (rounds + elems.length) walk = walkLoop nbuf rounds (walk.past elems) ∧
      (walk.past elems).At nbuf (front ++ encode elems) rest := by
  induction elems generalizing walk front with
  | nil => exact ⟨rfl, by simpa [Walk.past] using isAt⟩
  | cons elem elems ih =>
    obtain ⟨looped, further⟩ :=
      ih isAt.next (fun elem member => notSsid elem (List.mem_cons_of_mem _ member))
      (fun elem member => notWps elem (List.mem_cons_of_mem _ member))
    have first := isAt.round_other (rounds + elems.length) (notSsid elem List.mem_cons_self)
      (notWps elem List.mem_cons_self)
    rw [Walk.next_past] at looped further
    rw [encode_cons, ← List.append_assoc]
    exact ⟨first.trans looped, further⟩

/-- **Elements of which one is of WPS.** -/
theorem Walk.At.rounds_wps {rest : List Elem} (isAt : walk.At nbuf front (elems ++ rest))
    (rounds : Nat) (notSsid : ∀ elem ∈ elems, elem.id ≠ 0) (wps : ∃ elem ∈ elems, IsWps elem) :
    ∃ after, walkLoop nbuf (rounds + elems.length) walk = (after, true) ∧
    after.setSsidFlag = false ∧
      after.outside = walk.outside := by
  induction elems generalizing walk front with
  | nil =>
    obtain ⟨_, member, _⟩ := wps
    exact absurd member List.not_mem_nil
  | cons elem elems ih =>
    by_cases isWps : IsWps elem
    · exact isAt.round_wps isWps
    · have later : ∃ elem ∈ elems, IsWps elem := by
        obtain ⟨other, member, isOther⟩ := wps
        rcases List.mem_cons.mp member with rfl | member
        · exact absurd isOther isWps
        · exact ⟨other, member, isOther⟩
      obtain ⟨after, looped, found, same⟩ := ih isAt.next
        (fun elem member => notSsid elem (List.mem_cons_of_mem _ member)) later
      exact ⟨after, (isAt.round_other _ (notSsid elem List.mem_cons_self) isWps).trans looped,
        found, same⟩

theorem Walk.At.rounds_end (isAt : walk.At nbuf front []) : walkLoop nbuf rounds walk =
    (walk, true) := by
  have none : walk.ieLength < 2 := by
    rw [isAt.isLength]
    exact Nat.zero_lt_two
  cases rounds with
  | zero => rfl
  | succ rounds => exact if_pos none

variable {ssid : List Nat}

/-- What is taken for the contents of the SSID: as many bytes, but from two bytes later on. -/
def Walk.taken (walk : Walk) (nbuf : Nbuf) (ssid : List Nat) : List Nat :=
    nbuf.read (walk.ie + 2 + 2) ssid.length

theorem isHiddenSsid_iff (bytes : List Nat) (len : Nat) (atMost : bytes.length ≤ len) :
    isHiddenSsid len bytes = decide (∀ byte ∈ bytes, byte = 0) := by
  unfold isHiddenSsid
  rw [List.take_of_length_le atMost, Bool.eq_iff_iff, List.all_eq_true, decide_eq_true_iff]
  simp only [decide_eq_true_iff]

/-- What is known behind the SSID. -/
structure Walk.Copied (walk : Walk) (nbuf : Nbuf) (ssid : List Nat) (after : Walk) : Prop where
  ssidLen : after.ssidLen = ssid.length
  outside : after.outside =
    (walk.outside || !(decide (ssid.length = 0) || nbuf.covers (walk.ie + 2 * 2) ssid.length))
  flag : walk.setSsidFlag = false → after.setSsidFlag =
    decide (∀ byte ∈ walk.taken nbuf ssid, byte = 0)
  offsets : (∀ byte ∈ walk.taken nbuf ssid, byte = 0) →
    after.ssidIeStartOffset = walk.bcnIeOffset ∧ after.ssidIeEndOffset =
    walk.bcnIeOffset + 2 + ssid.length

theorem Walk.copied (walk : Walk) (nbuf : Nbuf) (ssid : List Nat) (ieLength : Nat)
    (fits : walk.bcnIeOffset + 2 + ssid.length < 2 ^ 16) :
    let before : Walk := { walk with ieLength := ieLength, bcnIeOffset := walk.bcnIeOffset + 2 }
    let copied := before.copySsid nbuf ssid.length
    walk.Copied nbuf ssid copied ∧ copied.ie = walk.ie ∧ copied.ieLength = ieLength ∧
      copied.bcnIeOffset = walk.bcnIeOffset + 2 := by
  have atMost : (walk.taken nbuf ssid).length ≤ ssid.length := List.length_take_le ..
  have hidden := isHiddenSsid_iff (walk.taken nbuf ssid) ssid.length atMost
  have reads : nbuf.read (walk.ie + 2 * 2) ssid.length = walk.taken nbuf ssid := rfl
  dsimp only
  unfold Walk.copySsid Walk.touches
  dsimp only
  by_cases none : ssid.length = 0
  · have nothing : ∀ byte ∈ walk.taken nbuf ssid, byte = 0 := by
      have nil : walk.taken nbuf ssid = [] :=
        List.eq_nil_of_length_eq_zero (Nat.le_zero.mp (none ▸ atMost))
      rw [nil]
      exact fun byte member => absurd member List.not_mem_nil
    rw [if_neg (not_not.mpr none), none]
    dsimp only
    rw [if_pos (by rfl)]
    refine ⟨⟨none.symm, ?_, fun _ => (decide_eq_true nothing).symm, fun _ => ⟨rfl, ?_⟩⟩,
      rfl, rfl, rfl⟩
    · rw [none, decide_eq_true rfl, Bool.true_or, Bool.not_true, Bool.or_false]
    · show (walk.bcnIeOffset + 2 + 0) % 2 ^ 16 = _
      rw [none, Nat.mod_eq_of_lt (by omega)]
  · rw [if_pos none]
    dsimp only
    rw [reads, hidden]
    have outside : (walk.outside || !nbuf.covers (walk.ie + 2 * 2) ssid.length) =
        (walk.outside ||
            !(decide (ssid.length = 0) || nbuf.covers (walk.ie + 2 * 2) ssid.length)) := by
      rw [decide_eq_false none, Bool.false_or]
    by_cases zeros : ∀ byte ∈ walk.taken nbuf ssid, byte = 0
    · rw [if_pos (decide_eq_true zeros)]
      refine ⟨⟨rfl, outside, fun _ => (decide_eq_true zeros).symm, fun _ => ⟨rfl, ?_⟩⟩,
        rfl, rfl, rfl⟩
      exact Nat.mod_eq_of_lt fits
    · rw [if_neg (by simpa using zeros)]
      refine ⟨⟨rfl, outside, fun unset => unset.trans (decide_eq_false zeros).symm, fun all =>
        absurd all zeros⟩,
        rfl, rfl, rfl⟩

/-- **The SSID.** -/
theorem Walk.At.round_ssid (isAt : walk.At nbuf front (⟨0, ssid⟩ :: elems)) (rounds : Nat)
    (short : ssid.length ≤ ssidMaxLen) :
    ∃ after, walkLoop nbuf (rounds + 1) walk = walkLoop nbuf rounds after ∧
      after.At nbuf (front ++ Elem.bytes ⟨0, ssid⟩) elems ∧ walk.Copied nbuf ssid after := by
  have next := isAt.next
  have isLength := isAt.isLength
  have fits := isAt.fits
  rw [encode_cons, List.length_append, Elem.length_bytes] at isLength fits
  dsimp only at isLength fits
  obtain ⟨copied, isIe, isIeLength, isOffset⟩ :=
    walk.copied nbuf ssid (walk.ieLength - 2) (by omega)
  rw [isAt.round, if_neg (by simpa using short)]
  dsimp only at copied isIe isIeLength isOffset ⊢
  rw [if_pos rfl]
  generalize Walk.copySsid _ nbuf ssid.length = after at copied isIe isIeLength isOffset ⊢
  refine ⟨{ after with ie := after.ie + 2 + ssid.length, ieLength := after.ieLength - ssid.length },
    ?_,
    ⟨next.isData, ?_, ?_, ?_⟩, copied.ssidLen, copied.outside, copied.flag, copied.offsets⟩
  · by_cases none : ssid.length = 0
    · rw [if_pos none, none]
      rfl
    · rw [if_neg none, if_neg (fun both => absurd both.1 (by decide))]
  · show after.ie + 2 + ssid.length = _
    rw [isIe, List.length_append, Elem.length_bytes, isAt.isIe]
    dsimp only
    omega
  · show after.ieLength - ssid.length = _
    omega
  · show after.bcnIeOffset + _ < 2 ^ 16
    omega

/-! ### The walk along a beacon -/

variable {conf : Conf} {beacon : Beacon} {alloc : Bool}

/-- A beacon of the configured BSSID is received. -/
structure Received (conf : Conf) (beacon : Beacon) (nbuf : Nbuf) : Prop where
  isFrame : nbuf.data = beacon.frame beacon.ssid
  isBssid : nbuf.read 16 6 = conf.bssid
  configured : conf.ssid.length ≠ 0
  most : conf.ssid.length ≤ ssidMaxLen
  room : conf.ssid.length ≤ nbuf.room.length
  fits : nbuf.data.length < 2 ^ 16

/-- What is before the SSID. -/
def Beacon.before (beacon : Beacon) : List Nat := beacon.header ++ beacon.fixed ++ encode beacon.pre

theorem Beacon.frame_eq (beacon : Beacon) (ssid : List Nat) :
    beacon.frame ssid = beacon.before ++ (0 :: ssid.length :: ssid ++ encode beacon.post) := by
  unfold Beacon.frame Beacon.before
  rw [encode_append, encode_cons, List.append_assoc, List.append_assoc, List.append_assoc]
  rfl

theorem Beacon.length_before (beacon : Beacon) : beacon.before.length =
    36 + (encode beacon.pre).length := by
  unfold Beacon.before
  rw [List.length_append, List.length_append, beacon.lengthHeader, beacon.lengthFixed]

theorem Beacon.length_frame (beacon : Beacon) (ssid : List Nat) :
    (beacon.frame ssid).length = beacon.before.length + 2 + ssid.length +
        (encode beacon.post).length := by
  rw [beacon.frame_eq, List.length_append, List.length_append, List.length_cons, List.length_cons]
  omega

/-- The walk at its start. -/
def Walk.start (nbuf : Nbuf) : Walk :=
    ⟨36, (nbuf.data.length - 24 - 12) % 2 ^ 16, 12, 0, [], false, 0, 0, false⟩

theorem Received.start (received : Received conf beacon nbuf) :
    (Walk.start nbuf).At nbuf (beacon.header ++ beacon.fixed)
        (beacon.pre ++ ⟨0, beacon.ssid⟩ :: beacon.post) := by
  have isFrame := received.isFrame
  have fits := received.fits
  have length : nbuf.data.length =
      36 + (encode (beacon.pre ++ ⟨0, beacon.ssid⟩ :: beacon.post)).length := by
    rw [isFrame]
    unfold Beacon.frame
    rw [List.length_append, List.length_append, beacon.lengthHeader, beacon.lengthFixed]
  refine ⟨isFrame, ?_, ?_, ?_⟩
  · rw [List.length_append, beacon.lengthHeader, beacon.lengthFixed]
    rfl
  · show (nbuf.data.length - 24 - 12) % 2 ^ 16 = _
    rw [Nat.mod_eq_of_lt (by omega)]
    omega
  · show 12 + _ < 2 ^ 16
    omega

/-- There are rounds for each element. -/
theorem Received.enough (received : Received conf beacon nbuf) :
    ∃ rounds, nbuf.data.length = rounds + beacon.post.length + 1 + beacon.pre.length := by
  have length := beacon.length_frame beacon.ssid
  rw [← received.isFrame, beacon.length_before] at length
  have pre := two_le_length_encode beacon.pre
  have post := two_le_length_encode beacon.post
  exact ⟨nbuf.data.length - beacon.post.length - 1 - beacon.pre.length, by omega⟩

theorem Beacon.pre_ne (beacon : Beacon) : ∀ elem ∈ beacon.pre, elem.id ≠ 0 := fun elem member =>
  beacon.onlySsid elem (List.mem_append_left _ member)

theorem Beacon.post_ne (beacon : Beacon) : ∀ elem ∈ beacon.post, elem.id ≠ 0 := fun elem member =>
  beacon.onlySsid elem (List.mem_append_right _ member)

/-- An element of WPS before the SSID. -/
theorem Received.loop_wps (received : Received conf beacon nbuf)
    (wps : ∃ elem ∈ beacon.pre, IsWps elem) :
    ∃ after, walkLoop nbuf nbuf.data.length (Walk.start nbuf) = (after, true) ∧
    after.setSsidFlag = false ∧
      after.outside = false := by
  obtain ⟨rounds, isRounds⟩ := received.enough
  rw [isRounds]
  exact received.start.rounds_wps _ beacon.pre_ne wps

theorem Received.loop_pre (received : Received conf beacon nbuf)
    (notWps : ∀ elem ∈ beacon.pre, ¬ IsWps elem) :
    ∃ rounds, walkLoop nbuf nbuf.data.length (Walk.start nbuf) =
        walkLoop nbuf (rounds + beacon.post.length + 1) ((Walk.start nbuf).past beacon.pre) ∧
      ((Walk.start nbuf).past beacon.pre).At nbuf beacon.before
          (⟨0, beacon.ssid⟩ :: beacon.post) := by
  obtain ⟨rounds, isRounds⟩ := received.enough
  obtain ⟨looped, isAt⟩ :=
    received.start.rounds_other (rounds + beacon.post.length + 1) beacon.pre_ne notWps
  refine ⟨rounds, ?_, isAt⟩
  rw [← looped, ← isRounds]

/-- An SSID that is too long. -/
theorem Received.loop_long (received : Received conf beacon nbuf)
    (notWps : ∀ elem ∈ beacon.pre, ¬ IsWps elem) (long : ssidMaxLen < beacon.ssid.length) :
    ∃ after, walkLoop nbuf nbuf.data.length (Walk.start nbuf) = (after, false) ∧
        after.outside = false := by
  obtain ⟨rounds, looped, isAt⟩ := received.loop_pre notWps
  rw [looped, isAt.round, if_pos ⟨rfl, long⟩]
  exact ⟨_, rfl, rfl⟩

/-- The bytes that are taken for the contents of the SSID. -/
def Beacon.taken (beacon : Beacon) (nbuf : Nbuf) : List Nat :=
  nbuf.read (beacon.before.length + 2 + 2) beacon.ssid.length

/-- What the walk knows at its end. -/
structure Beacon.Known (beacon : Beacon) (nbuf : Nbuf) (after : Walk) : Prop where
  ssidLen : after.ssidLen = beacon.ssid.length
  flag : after.setSsidFlag = decide (∀ byte ∈ beacon.taken nbuf, byte = 0)
  offsets : (∀ byte ∈ beacon.taken nbuf, byte = 0) →
    after.ssidIeStartOffset = 12 + 2 * beacon.pre.length ∧
      after.ssidIeEndOffset = 12 + 2 * beacon.pre.length + 2 + beacon.ssid.length

/-- **The walk over the SSID.** Something outside of the frame is read if the SSID has contents and
is the last. -/
theorem Received.loop_ssid (received : Received conf beacon nbuf)
    (notWps : ∀ elem ∈ beacon.pre, ¬ IsWps elem) (short : beacon.ssid.length ≤ ssidMaxLen) :
    ∃ after, walkLoop nbuf nbuf.data.length (Walk.start nbuf) = (after, true) ∧
      after.outside = decide (beacon.ssid.length ≠ 0 ∧ beacon.post = []) ∧
      ((∃ elem ∈ beacon.post, IsWps elem) → after.setSsidFlag = false) ∧
      ((∀ elem ∈ beacon.post, ¬ IsWps elem) → beacon.Known nbuf after) := by
  obtain ⟨rounds, looped, isAt⟩ := received.loop_pre notWps
  obtain ⟨copied, looped', isAt', isCopied⟩ := isAt.round_ssid (rounds + beacon.post.length) short
  have isIe : ((Walk.start nbuf).past beacon.pre).ie = beacon.before.length := isAt.isIe
  have isTaken : ((Walk.start nbuf).past beacon.pre).taken nbuf beacon.ssid =
      beacon.taken nbuf := by
    unfold Walk.taken Beacon.taken
    rw [isIe]
  have outside : copied.outside = decide (beacon.ssid.length ≠ 0 ∧ beacon.post = []) := by
    have length := beacon.length_frame beacon.ssid
    rw [← received.isFrame] at length
    have covers : nbuf.covers (beacon.before.length + 2 * 2) beacon.ssid.length =
        decide (beacon.post ≠ []) := by
      have least := two_le_length_encode beacon.post
      refine decide_eq_decide.mpr ⟨?_, fun some => ?_⟩
      · rintro inside none
        rw [none, encode_nil, List.length_nil] at length
        omega
      · have := List.length_pos_iff.mpr some
        omega
    rw [isCopied.outside, isIe, covers]
    show (false || _) = _
    simp
  rw [looped, looped']
  by_cases wps : ∃ elem ∈ beacon.post, IsWps elem
  · rw [← List.append_nil beacon.post] at isAt'
    obtain ⟨after, done, flag, same⟩ := isAt'.rounds_wps rounds beacon.post_ne wps
    exact ⟨after, done, same.trans outside, fun _ => flag, fun none =>
      absurd wps (by simpa using none)⟩
  · have none : ∀ elem ∈ beacon.post, ¬ IsWps elem := by simpa using wps
    rw [← List.append_nil beacon.post] at isAt'
    obtain ⟨done, isEnd⟩ := isAt'.rounds_other rounds beacon.post_ne none
    refine ⟨copied.past beacon.post, done.trans isEnd.rounds_end, outside, fun some =>
      absurd some wps, fun _ => ?_⟩
    have flag := isCopied.flag rfl
    have offsets := isCopied.offsets
    rw [isTaken] at flag offsets
    exact ⟨isCopied.ssidLen, flag, offsets⟩

end Qsdk.HiddenSsid
