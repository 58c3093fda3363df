/-
**The elements of a non-transmitted BSS.**

`util_gen_new_ie` puts together what the transmitting BSS and a profile say: along the transmitted
elements it looks up the profile's element of the same identifier, and marks it when it is copied;
then it goes over the profile again for what is left. The Non-Inheritance element of the profile
lists what is not to be taken over. All of it works on bytes.
-/

import Mathlib.Data.List.Basic
import Qsdk.Lib.Elements

namespace Qsdk.Inheritance

open Qsdk.Elements

/-! ### Model -/

def byteAt (mem : List Nat) (pos : Nat) : Nat := mem[pos]?.getD 0

/-- A number as an `int8_t`. -/
def int8 (value : Int) : Int := value.bmod (2 ^ 8)

/-- The loop of the functions that look for an element, with what they look for. -/
def findLoop (ies : List Nat) (isIt : Nat → Bool) : Nat → Nat → Nat → Option Nat
  | 0, _, _ => none
  | rounds + 1, pos, len =>
    if 2 ≤ len ∧ byteAt ies (pos + 1) + 2 ≤ len then
      if isIt pos then some pos
      else findLoop ies isIt rounds (pos + (byteAt ies (pos + 1) + 2))
        (len - (byteAt ies (pos + 1) + 2))
    else none

/-- `util_scan_find_ie`. -/
def scanFindIe (eid : Nat) (ies : List Nat) (len : Nat) : Option Nat :=
  findLoop ies (fun pos => decide (byteAt ies pos = eid)) len 0 len

/-- `util_scan_find_noninheritance_ie`, for `WLAN_ELEMID_EXTN_ELEM`. -/
def scanFindNoninheritanceIe (ies : List Nat) (len : Nat) : Option Nat :=
  findLoop ies (fun pos => decide (byteAt ies pos = 255 ∧ byteAt ies (pos + 2) = 56)) len 0 len

/-- `struct non_inheritance_ie`, with the places of both lists, and the copy of the profile. -/
structure Ninh where
  listLen : Nat
  extnLen : Nat
  nonInherit : Bool
  elemList : Nat
  extnElemList : Nat
  subCopy : List Nat

/-- The part of `util_parse_noninheritance_list` for the list of element IDs. -/
def Ninh.parseList (ninh : Ninh) (extnElem : Nat) (extnRemLen : Int) : Ninh × Int :=
  let listLen := byteAt ninh.subCopy (extnElem + 3)
  if extnRemLen ≠ 0 ∧ listLen ≠ 0 then
    if extnRemLen ≥ listLen then
      ({ ninh with listLen := listLen, elemList := extnElem + 4 }, int8 (extnRemLen - listLen))
    else ({ ninh with nonInherit := false, subCopy := ninh.subCopy.set extnElem 0 }, extnRemLen)
  else (ninh, extnRemLen)

/-- The part of `util_parse_noninheritance_list` for the list of element ID extensions. -/
def Ninh.parseExtnList (ninh : Ninh) (extnElem : Nat) (extnRemLen : Int) : Ninh :=
  if extnRemLen > 0 then
    let extnLen := if ninh.listLen = 0 then byteAt ninh.subCopy (extnElem + 3 + 1)
      else byteAt ninh.subCopy (extnElem + 4 + ninh.listLen)
    let ninh := { ninh with extnLen := extnLen }
    let ninh := if extnRemLen ≠ extnLen then
        { ninh with nonInherit := false, subCopy := ninh.subCopy.set extnElem 0 }
      else ninh
    if extnLen ≠ 0 then { ninh with extnElemList := extnElem + ninh.listLen + 4 + 1 } else ninh
  else ninh

/-- `util_parse_noninheritance_list`. -/
def parseNoninheritanceList (subCopy : List Nat) (extnElem : Nat) : Ninh :=
  let ninh : Ninh := ⟨0, 0, false, 0, 0, subCopy⟩
  if byteAt subCopy (extnElem + 3) < byteAt subCopy (extnElem + 1) then
    let parsed := { ninh with nonInherit := true }.parseList extnElem
      (int8 (byteAt subCopy (extnElem + 1) - 2))
    parsed.1.parseExtnList extnElem (int8 (parsed.2 - 1))
  else ninh

/-- `util_is_noninh_ie`. -/
def isNoninhIe (elemId : Nat) (mem : List Nat) (nonInhList : Nat) (len : Nat) : Bool :=
  (List.range (int8 len).toNat).any fun count => decide (elemId = byteAt mem (nonInhList + count))

/-- `util_oui_header_len`. -/
def ouiHeaderLen (mem : List Nat) (ie : Nat) : Nat :=
  if byteAt mem ie = 0x00 ∧ byteAt mem (ie + 1) = 0x40 ∧ byteAt mem (ie + 2) = 0x96 then 4 else 5

/-- The bytes of the element at a place. -/
def ieBytes (mem : List Nat) (pos : Nat) : List Nat :=
    (mem.drop pos).take (byteAt mem (pos + 1) + 2)

/-- The copy of the profile with its marks, and the new elements. -/
structure Merge where
  subCopy : List Nat
  newIe : List Nat

/-- Bytes are copied if there is room for them. -/
def Merge.put (merge : Merge) (ielen : Nat) (bytes : List Nat) : Merge :=
  if merge.newIe.length + bytes.length ≤ ielen then
    { merge with newIe := merge.newIe ++ bytes } else merge

/-- An element of the profile is copied and marked, if there is room for it. -/
def Merge.putMarked (merge : Merge) (ielen tmp : Nat) : Merge :=
  if merge.newIe.length + (ieBytes merge.subCopy tmp).length ≤ ielen then
    ⟨merge.subCopy.set tmp 0, merge.newIe ++ ieBytes merge.subCopy tmp⟩
  else merge

/-- Whether an element of the transmitting BSS is listed. -/
def Merge.nonInhIeFound (merge : Merge) (ninh : Ninh) (ie : List Nat) (tmpOld : Nat) : Bool :=
  ninh.nonInherit &&
    ((decide (ninh.listLen ≠ 0) && isNoninhIe (byteAt ie tmpOld) merge.subCopy ninh.elemList
      ninh.listLen) ||
      (decide (ninh.extnLen ≠ 0 ∧ byteAt ie tmpOld = 255) &&
        isNoninhIe (byteAt ie (tmpOld + 2)) merge.subCopy ninh.extnElemList ninh.extnLen))

/-- One element of the transmitting BSS that is not skipped. -/
def Merge.one (merge : Merge) (ie : List Nat) (ielen subieLen tmpOld : Nat) : Merge :=
  match scanFindIe (byteAt ie tmpOld) merge.subCopy subieLen with
  | none => if byteAt ie tmpOld ≠ 71 then merge.put ielen (ieBytes ie tmpOld) else merge
  | some tmp =>
    if byteAt ie tmpOld = 221 ∧ subieLen - tmp ≥ 7 then
      if (ie.drop (tmpOld + 2)).take (ouiHeaderLen merge.subCopy (tmp + 2)) =
          (merge.subCopy.drop (tmp + 2)).take (ouiHeaderLen merge.subCopy (tmp + 2)) then
        merge.putMarked ielen tmp
      else merge.put ielen (ieBytes ie tmpOld)
    else if byteAt ie tmpOld = 255 then
      if byteAt ie (tmpOld + 2) = byteAt merge.subCopy (tmp + 2) then merge.putMarked ielen tmp
      else merge.put ielen (ieBytes ie tmpOld)
    else merge.putMarked ielen tmp

/-- The loop over the elements of the transmitting BSS. -/
def mergeLoop (ninh : Ninh) (ie : List Nat) (ielen subieLen : Nat) : Nat → Nat → Merge → Merge
  | 0, _, merge => merge
  | rounds + 1, tmpOld, merge =>
    let next := tmpOld + byteAt ie (tmpOld + 1) + 2
    if next ≤ ielen then
      if merge.nonInhIeFound ninh ie tmpOld || decide (byteAt ie tmpOld = 0) then
        mergeLoop ninh ie ielen subieLen rounds next merge
      else
        let merge := merge.one ie ielen subieLen tmpOld
        if next ≥ ielen then merge else mergeLoop ninh ie ielen subieLen rounds next merge
    else merge

/-- An element of the profile that is not copied in the end. -/
def skipsLast (mem : List Nat) (pos : Nat) : Bool :=
  decide (byteAt mem pos = 83 ∨ byteAt mem pos = 0 ∨ byteAt mem pos = 85 ∨
    (byteAt mem pos = 255 ∧ byteAt mem (pos + 2) = 56))

/-- The loop over what is left of the profile. -/
def restLoop (ielen subieLen : Nat) : Nat → Nat → Merge → Merge
  | 0, _, merge => merge
  | rounds + 1, tmpNew, merge =>
    let next := tmpNew + byteAt merge.subCopy (tmpNew + 1) + 2
    if next ≤ subieLen then
      let merge := if skipsLast merge.subCopy tmpNew then merge else
        merge.put ielen (ieBytes merge.subCopy tmpNew)
      if next ≥ subieLen then merge else restLoop ielen subieLen rounds next merge
    else merge

/-- The SSID of the profile comes first. -/
def Merge.putSsid (merge : Merge) (ielen : Nat) (subelement : List Nat) : Merge :=
  match scanFindIe 0 subelement subelement.length with
  | none => merge
  | some ssid => merge.put ielen (ieBytes subelement ssid)

/-- What the profile lists. -/
def findNinh (subelement : List Nat) : Ninh :=
  match scanFindNoninheritanceIe subelement subelement.length with
  | none => ⟨0, 0, false, 0, 0, subelement⟩
  | some extnElem =>
    if byteAt subelement (extnElem + 1) ≠ 0 then parseNoninheritanceList subelement extnElem
    else ⟨0, 0, false, 0, 0, subelement⟩

/-- The place behind the SSID of the transmitting BSS. -/
def startOld (ie : List Nat) (ielen : Nat) : Nat :=
  match scanFindIe 0 ie ielen with
  | none => 0
  | some ssid => ssid + byteAt ie (ssid + 1) + 2

/-- **`util_gen_new_ie`**, with the memory from `ie` on. `qdf_mem_malloc` has nothing for no
bytes. -/
def genNewIe (alloc : Bool) (ie : List Nat) (ielen : Nat) (subelement : List Nat) : List Nat :=
  let subieLen := subelement.length
  if decide (subieLen = 0) || !alloc then []
  else
    let merge := Merge.putSsid ⟨subelement, []⟩ ielen subelement
    let ninh := findNinh subelement
    let merge := mergeLoop ninh ie ielen subieLen ielen (startOld ie ielen)
      { merge with subCopy := ninh.subCopy }
    (restLoop ielen subieLen subieLen 0 merge).newIe

/-! ### The rule -/

/-- The identity of an element: its identifier, with the extension of an extension element, and the
OUI, type and subtype of a vendor's element (without a subtype for 00:40:96). -/
def identity (elem : Elem) : Nat × List Nat :=
  (elem.id,
    if elem.id = 255 then elem.body.take 1
    else if elem.id = 221 then
      elem.body.take (if elem.body.take 3 = [0x00, 0x40, 0x96] then 4 else 5)
    else [])

/-- A Non-Inheritance element. -/
def isNonInheritance (elem : Elem) : Bool := decide (elem.id = 255 ∧ elem.body.head? = some 56)

/-- Where a new element comes from. -/
inductive Origin
  | profile
  | transmitted
deriving DecidableEq

/-- An element that is left of the profile is taken over. -/
def isRest (elem : Elem) : Bool :=
  decide (elem.id ≠ 83 ∧ elem.id ≠ 0 ∧ elem.id ≠ 85) && !isNonInheritance elem

/-- The rule of inheritance along the transmitted elements. An element of the profile stands for one
of them. -/
def inherit (listed : Elem → Bool) : List Elem → List Elem → List (Origin × Elem)
  | [], profile => (profile.filter isRest).map (Origin.profile, ·)
  | elem :: transmitted, profile =>
    if elem.id = 0 ∨ elem.id = 71 then inherit listed transmitted profile
    else
      match profile.find? fun own => decide (identity own = identity elem) with
      | some own =>
        (.profile, own) :: inherit listed transmitted
          (profile.eraseP fun own => decide (identity own = identity elem))
      | none =>
        if listed elem then inherit listed transmitted profile
        else (.transmitted, elem) :: inherit listed transmitted profile

/-- A Non-Inheritance element with its two lists. -/
def nonInheritance (ids extensions : List Nat) : Elem :=
  ⟨255, 56 :: ids.length :: ids ++ extensions.length :: extensions⟩

/-- What a profile lists. -/
structure Lists where
  ids : List Nat
  extensions : List Nat

def Lists.listed (lists : Lists) (elem : Elem) : Bool :=
  decide (elem.id ∈ lists.ids ∨
    (elem.id = 255 ∧ ∃ extension ∈ lists.extensions, elem.body.head? = some extension))

/-- **The elements that are to be generated.** -/
def generated (lists : Lists) (transmitted profile : List Elem) : List (Origin × Elem) :=
  (profile.find? fun elem => decide (elem.id = 0)).toList.map (Origin.profile, ·) ++
    inherit lists.listed transmitted (profile.filter fun elem => decide (elem.id ≠ 0))

/-- Those of them that are from the profile. -/
def owns (elems : List (Origin × Elem)) : List Elem :=
  (elems.filter fun elem => decide (elem.1 = Origin.profile)).map Prod.snd

/-- What is to be taken over of a profile. -/
def isKept (elem : Elem) : Bool := decide (elem.id ≠ 83 ∧ elem.id ≠ 85) && !isNonInheritance elem

/-- An element by itself is well formed: an extension element has an extension, and a vendor's
element has an OUI, a type and a subtype. -/
structure Whole (elem : Elem) : Prop where
  length : elem.body.length < 2 ^ 8
  extension : elem.id = 255 → 1 ≤ elem.body.length
  vendor : elem.id = 221 → 5 ≤ elem.body.length

instance (elem : Elem) : Decidable (Whole elem) :=
  decidable_of_iff (elem.body.length < 2 ^ 8 ∧ (elem.id = 255 → 1 ≤ elem.body.length) ∧
      (elem.id = 221 → 5 ≤ elem.body.length))
    ⟨fun ⟨length, extension, vendor⟩ => ⟨length, extension, vendor⟩,
      fun whole => ⟨whole.length, whole.extension, whole.vendor⟩⟩

/-- The elements of a transmitting BSS. -/
structure Transmitted (elems : List Elem) : Prop where
  whole : ∀ elem ∈ elems, Whole elem
  other : ∀ elem ∈ elems, elem.id ≠ 83 ∧ elem.id ≠ 85 ∧ isNonInheritance elem = false

/-- A profile, and what it lists. -/
structure Profile (lists : Lists) (elems : List Elem) : Prop where
  nonempty : elems ≠ []
  whole : ∀ elem ∈ elems, Whole elem
  ssid : (elems.filter fun elem => decide (elem.id = 0)).length ≤ 1
  noMbssid : ∀ elem ∈ elems, elem.id ≠ 71
  isList : elems.filter isNonInheritance = [nonInheritance lists.ids lists.extensions] ∨
    elems.filter isNonInheritance = [] ∧ lists.ids = [] ∧ lists.extensions = []

/-- Along the transmitted elements, a look-up by the identifier alone finds what the rule asks for,
and nothing that the profile replaces is listed. -/
def Clear (listed : Elem → Bool) : List Elem → List Elem → Prop
  | [], _ => True
  | elem :: transmitted, profile =>
    if elem.id = 0 ∨ elem.id = 71 then Clear listed transmitted profile
    else
      match profile.find? fun own => decide (identity own = identity elem) with
      | some _ =>
        listed elem = false ∧
          (∃ own, profile.find? (fun own => decide (own.id = elem.id)) = some own ∧
            identity own = identity elem) ∧
          Clear listed transmitted (profile.eraseP fun own => decide (identity own = identity elem))
      | none => Clear listed transmitted profile

/-- **Where the rule is followed.** -/
structure Meets (lists : Lists) (alloc : Bool) (transmitted profile : List Elem) : Prop where
  copied : alloc = true
  /-- Before the SSID there are Multiple BSSID elements only. -/
  ssidFirst : ∀ before elem after, transmitted = before ++ elem :: after → elem.id = 0 →
    (∀ other ∈ before, other.id ≠ 0) → ∀ other ∈ before, other.id = 71
  /-- The lists fit into an `int8_t`, with what is before them. -/
  short : lists.ids = [] ∧ lists.extensions.length < 2 ^ 7 ∨
    lists.ids.length + lists.extensions.length + 1 < 2 ^ 7
  clear : Clear lists.listed transmitted (profile.filter fun elem => decide (elem.id ≠ 0))

end Qsdk.Inheritance
