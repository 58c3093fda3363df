/-
**Elements on their bytes.**

Each look-up along well-formed elements finds the first one of its kind, and a mark on an identifier
takes an element out of the profile. What a Non-Inheritance element lists is found where it stands,
whatever else is marked.
-/

import Qsdk.Umac.Inheritance

namespace Qsdk.Inheritance

open Qsdk.Elements

/-! ### Bytes of elements -/

variable {elem : Elem} {elems : List Elem} {front rest : List Nat}

theorem byteAt_id : byteAt (front ++ (elem.bytes ++ rest)) front.length = elem.id := by
  unfold byteAt
  rw [getElem?_id]
  rfl

theorem byteAt_length : byteAt (front ++ (elem.bytes ++ rest)) (front.length + 1) =
    elem.body.length := by
  unfold byteAt
  rw [getElem?_length]
  rfl

theorem byteAt_body {i : Nat} (inside : i < elem.body.length) :
    byteAt (front ++ (elem.bytes ++ rest)) (front.length + 2 + i) = elem.body[i] := by
  have shift : (front ++ (elem.bytes ++ rest))[front.length + 2 + i]? =
      (elem.body ++ rest)[i]? := by
    rw [← List.getElem?_drop, drop_body]
  unfold byteAt
  rw [shift, List.getElem?_append_left inside, List.getElem?_eq_getElem inside]
  rfl

theorem byteAt_head (whole : 1 ≤ elem.body.length) :
    elem.body.head? = some (byteAt (front ++ (elem.bytes ++ rest)) (front.length + 2)) := by
  have found := @byteAt_body elem front rest 0 whole
  rw [Nat.add_zero] at found
  rw [found, List.head?_eq_getElem?, List.getElem?_eq_getElem whole]

theorem ieBytes_eq : ieBytes (front ++ (elem.bytes ++ rest)) front.length = elem.bytes := by
  unfold ieBytes
  rw [byteAt_length, List.drop_left, List.take_left']
  exact elem.length_bytes

theorem take_body {len : Nat} (atMost : len ≤ elem.body.length) :
    ((front ++ (elem.bytes ++ rest)).drop (front.length + 2)).take len = elem.body.take len := by
  rw [drop_body, List.take_append_of_le_length atMost]

/-! ### Looking for an element -/

/-- A look at each element finds the first one for which the test holds, or none. -/
theorem findLoop_eq (isIt : Nat → Bool) (test : Elem → Bool) (behind : List Nat) {rounds : Nat}
    (enough : elems.length ≤ rounds) (front : List Nat)
    (same : ∀ before elem after, elems = before ++ elem :: after →
      isIt (front ++ encode before).length = test elem) :
    (∃ before elem after, elems = before ++ elem :: after ∧ test elem = true ∧
      (∀ other ∈ before, test other = false) ∧
      findLoop (front ++ (encode elems ++ behind)) isIt rounds front.length (encode elems).length =
        some (front ++ encode before).length) ∨
    ((∀ elem ∈ elems, test elem = false) ∧
      findLoop (front ++ (encode elems ++ behind)) isIt rounds front.length
          (encode elems).length = none) := by
  induction elems generalizing front rounds with
  | nil =>
    refine .inr ⟨fun elem member => absurd member List.not_mem_nil, ?_⟩
    cases rounds with
    | zero => rfl
    | succ rounds => exact if_neg fun both => absurd both.1 (by decide)
  | cons elem elems ih =>
    obtain ⟨rounds, rfl⟩ :=
      Nat.exists_eq_add_of_lt (show 0 < rounds from Nat.lt_of_lt_of_le (Nat.succ_pos _) enough)
    rw [Nat.zero_add] at enough ⊢
    have shape : front ++ (encode (elem :: elems) ++ behind) = front ++
        (elem.bytes ++ (encode elems ++ behind)) := by
      rw [encode_cons, List.append_assoc]
    have length : (encode (elem :: elems)).length = elem.body.length + 2 +
        (encode elems).length := by
      rw [encode_cons, List.length_append, Elem.length_bytes]
    have here := same [] elem elems rfl
    rw [encode_nil, List.append_nil] at here
    rw [findLoop, shape, byteAt_length, length, if_pos (by omega), here]
    cases found : test elem with
    | true =>
      rw [if_pos rfl]
      exact .inl ⟨[], elem, elems, rfl, found, fun other member =>
        absurd member List.not_mem_nil, by simp⟩
    | false =>
      rw [if_neg Bool.false_ne_true, Nat.add_sub_cancel_left]
      have next := ih (Nat.le_of_succ_le_succ enough)
          (front ++ elem.bytes) fun before other after isElems => by
        have shifted := same (elem :: before) other after (by rw [isElems]; rfl)
        rwa [encode_cons, ← List.append_assoc] at shifted
      rw [List.length_append, Elem.length_bytes, List.append_assoc] at next
      rcases next with ⟨before, own, after, rfl, isOwn, none, isPlace⟩ | ⟨none, isNone⟩
      · refine .inl ⟨elem :: before, own, after, rfl, isOwn, ?_, ?_⟩
        · exact List.forall_mem_cons.mpr ⟨found, none⟩
        · have place : front ++ encode (elem :: before) = front ++ elem.bytes ++ encode before := by
            rw [encode_cons, List.append_assoc]
          rw [place]
          exact isPlace
      · exact .inr ⟨List.forall_mem_cons.mpr ⟨found, none⟩, isNone⟩

/-- **`util_scan_find_ie`** finds the first element of an identifier. -/
theorem scanFindIe_eq (eid : Nat) (elems : List Elem) (behind : List Nat) :
    (∃ before elem after, elems = before ++ elem :: after ∧ elem.id = eid ∧
      (∀ other ∈ before, other.id ≠ eid) ∧
      scanFindIe eid (encode elems ++ behind) (encode elems).length = some (encode before).length) ∨
    ((∀ elem ∈ elems, elem.id ≠ eid) ∧
      scanFindIe eid (encode elems ++ behind) (encode elems).length = none) := by
  have enough : elems.length ≤ (encode elems).length := by
    have := two_le_length_encode elems
    omega
  have same : ∀ before elem after, elems = before ++ elem :: after →
      decide (byteAt (encode elems ++ behind) ([] ++ encode before).length = eid) =
          decide (elem.id = eid) := by
    rintro before elem after rfl
    rw [List.nil_append, encode_append, encode_cons, List.append_assoc,
      List.append_assoc, byteAt_id]
  have found := findLoop_eq (fun pos => decide (byteAt (encode elems ++ behind) pos = eid))
    (fun elem => decide (elem.id = eid)) behind enough [] same
  simp only [decide_eq_true_iff, decide_eq_false_iff_not, List.nil_append, List.length_nil] at found
  exact found

theorem scanFindNoninheritanceIe_eq (elems : List Elem)
    (whole : ∀ elem ∈ elems, elem.id = 255 → 1 ≤ elem.body.length) :
    (∃ before elem after, elems = before ++ elem :: after ∧ isNonInheritance elem = true ∧
      (∀ other ∈ before, isNonInheritance other = false) ∧
      scanFindNoninheritanceIe (encode elems) (encode elems).length = some (encode before).length) ∨
    ((∀ elem ∈ elems, isNonInheritance elem = false) ∧
      scanFindNoninheritanceIe (encode elems) (encode elems).length = none) := by
  have enough : elems.length ≤ (encode elems).length := by
    have := two_le_length_encode elems
    omega
  have same : ∀ before elem after, elems = before ++ elem :: after →
      decide (byteAt (encode elems) ([] ++ encode before).length = 255 ∧
        byteAt (encode elems) (([] ++ encode before).length + 2) = 56) = isNonInheritance elem := by
    rintro before elem after isElems
    have isWhole := whole elem (isElems ▸ List.mem_append_right _ List.mem_cons_self)
    rw [isElems, List.nil_append, encode_append, encode_cons, byteAt_id]
    refine decide_eq_decide.mpr (and_congr_right fun isExtn => ?_)
    rw [@byteAt_head elem (encode before) (encode after) (isWhole isExtn), Option.some.injEq]
  have found :=
    findLoop_eq
    (fun pos => decide (byteAt (encode elems) pos = 255 ∧ byteAt (encode elems) (pos + 2) = 56))
    isNonInheritance [] enough [] same
  simp only [List.nil_append, List.length_nil, List.append_nil] at found
  exact found

/-! ### Marks -/

/-- An element that is marked. -/
def marked (elem : Elem) : Elem := { elem with id := 0 }

theorem set_encode (before after : List Elem) (elem : Elem) :
    (encode (before ++ elem :: after)).set (encode before).length 0 =
        encode (before ++ marked elem :: after) := by
  rw [encode_append, encode_append, encode_cons, encode_cons,
    List.set_append_right _ _ (Nat.le_refl _), Nat.sub_self]
  rfl

/-- The elements that are not marked, and not an SSID. -/
def live (elems : List Elem) : List Elem := elems.filter fun elem => decide (elem.id ≠ 0)

theorem live_append (before after : List Elem) : live (before ++ after) = live before ++
    live after :=
  List.filter_append ..

theorem live_cons (some : elem.id ≠ 0) : live (elem :: elems) = elem :: live elems :=
  List.filter_cons_of_pos (decide_eq_true some)

theorem live_marked : live (marked elem :: elems) = live elems :=
  List.filter_cons_of_neg (by simp [marked])

theorem eraseP_live {test : Elem → Bool} {before after : List Elem} (some : elem.id ≠ 0)
    (none : ∀ other ∈ before, other.id ≠ 0 → test other = false) (isIt : test elem = true) :
    (live (before ++ elem :: after)).eraseP test = live (before ++ marked elem :: after) := by
  have notBefore : ∀ other ∈ live before, ¬ test other = true := by
    intro other member
    obtain ⟨isIn, isLive⟩ := List.mem_filter.mp member
    rw [none other isIn (of_decide_eq_true isLive)]
    exact Bool.false_ne_true
  rw [live_append, live_append, live_cons some, live_marked, List.eraseP_append_right _ notBefore,
    List.eraseP_cons_of_pos isIt]

theorem find?_live {test : Elem → Bool} {before after : List Elem} (some : elem.id ≠ 0)
    (none : ∀ other ∈ before, other.id ≠ 0 → test other = false) (isIt : test elem = true) :
    (live (before ++ elem :: after)).find? test = Option.some elem := by
  have notBefore : (live before).find? test = Option.none := by
    refine List.find?_eq_none.mpr fun other member => ?_
    obtain ⟨isIn, isLive⟩ := List.mem_filter.mp member
    rw [none other isIn (of_decide_eq_true isLive)]
    exact Bool.false_ne_true
  rw [live_append, live_cons some, List.find?_append, notBefore, Option.none_or,
    List.find?_cons_of_pos isIt]

/-! ### What is listed -/

/-- The Non-Inheritance element stands in the copy as it was parsed, or there is none. -/
def Parsed (lists : Lists) (ninh : Ninh) (elems : List Elem) : Prop :=
  (ninh.nonInherit = false ∧ lists.ids = [] ∧ lists.extensions = []) ∨
    ∃ before after, elems = before ++ nonInheritance lists.ids lists.extensions :: after ∧
      ninh.nonInherit = true ∧ ninh.listLen = lists.ids.length ∧
      ninh.extnLen = lists.extensions.length ∧
      lists.ids.length < 2 ^ 7 ∧ lists.extensions.length < 2 ^ 7 ∧
      (lists.ids ≠ [] → ninh.elemList = (encode before).length + 4) ∧
      (lists.extensions ≠ [] → ninh.extnElemList = (encode before).length + lists.ids.length + 5)

theorem int8_of_small {len : Nat} (small : len < 2 ^ 7) : int8 len = len := by
  unfold int8
  rw [Int.bmod_def]
  omega

/-- A look into a list that stands in memory. -/
theorem isNoninhIe_iff {mem list : List Nat} {pos : Nat} (small : list.length < 2 ^ 7)
    (elemId : Nat) (stands : ∀ i (isIn : i < list.length), byteAt mem (pos + i) = list[i]) :
    isNoninhIe elemId mem pos list.length = decide (elemId ∈ list) := by
  unfold isNoninhIe
  rw [int8_of_small small, Int.toNat_natCast, Bool.eq_iff_iff, List.any_eq_true, decide_eq_true_iff]
  constructor
  · rintro ⟨i, member, same⟩
    have isIn := List.mem_range.mp member
    rw [of_decide_eq_true same, stands i isIn]
    exact List.getElem_mem isIn
  · intro member
    obtain ⟨i, isIn, same⟩ := List.mem_iff_getElem.mp member
    exact ⟨i, List.mem_range.mpr isIn, decide_eq_true (same.symm.trans (stands i isIn).symm)⟩

/-- **What is found listed** is what the profile lists. -/
theorem nonInhIeFound_eq {lists : Lists} {ninh : Ninh} (parsed : Parsed lists ninh elems)
    (newIe : List Nat) (isWhole : elem.id = 255 → 1 ≤ elem.body.length) :
    (Merge.mk (encode elems) newIe).nonInhIeFound ninh
    (front ++ (elem.bytes ++ rest)) front.length =
      lists.listed elem := by
  unfold Merge.nonInhIeFound Lists.listed
  rw [byteAt_id]
  rcases parsed with ⟨isFalse, noIds, noExtensions⟩ | ⟨before, after, rfl, isTrue, listLen, extnLen,
    smallIds, smallExtn,
    elemList, extnElemList⟩
  · rw [isFalse, Bool.false_and, noIds, noExtensions]
    simp
  · have idsStand : ∀ i (isIn : i < lists.ids.length), byteAt (encode (before ++
        nonInheritance lists.ids lists.extensions :: after)) ((encode before).length + 4 + i) =
            lists.ids[i] := by
      intro i isIn
      have inside : 2 + i < (nonInheritance lists.ids lists.extensions).body.length := by
        simp [nonInheritance]
        omega
      rw [encode_append, encode_cons, Nat.add_assoc, show 4 + i = 2 + (2 + i) by
        omega, ← Nat.add_assoc,
        byteAt_body inside]
      simp only [nonInheritance, Nat.add_comm 2 i]
      exact List.getElem_append_left isIn
    have extensionsStand : ∀ i (isIn : i < lists.extensions.length), byteAt (encode (before ++
        nonInheritance lists.ids lists.extensions :: after))
          ((encode before).length + lists.ids.length + 5 + i) = lists.extensions[i] := by
      intro i isIn
      have inside : 3 + lists.ids.length + i <
          (nonInheritance lists.ids lists.extensions).body.length := by
        simp [nonInheritance]
        omega
      rw [encode_append, encode_cons, show (encode before).length + lists.ids.length + 5 + i =
        (encode before).length + 2 + (3 + lists.ids.length + i) by omega, byteAt_body inside]
      have found : (nonInheritance lists.ids lists.extensions).body[3 + lists.ids.length + i]? =
          some lists.extensions[i] := by
        unfold nonInheritance
        dsimp only
        rw [show 3 + lists.ids.length + i = (56 :: lists.ids.length :: lists.ids).length +
          (i + 1) by simp; omega,
          List.getElem?_append_right (Nat.le_add_right ..), Nat.add_sub_cancel_left,
          List.getElem?_cons_succ,
          List.getElem?_eq_getElem isIn]
      rw [List.getElem?_eq_getElem inside] at found
      exact Option.some.inj found
    have ids : (decide (ninh.listLen ≠ 0) && isNoninhIe elem.id (encode (before ++
        nonInheritance lists.ids lists.extensions :: after)) ninh.elemList ninh.listLen) =
          decide (elem.id ∈ lists.ids) := by
      rw [listLen]
      by_cases none : lists.ids = []
      · rw [none]
        rfl
      · rw [elemList none, isNoninhIe_iff smallIds _ idsStand, decide_eq_true (by simpa using none),
          Bool.true_and]
    have extensions :
      (decide (ninh.extnLen ≠ 0 ∧ elem.id = 255) && isNoninhIe
        (byteAt (front ++ (elem.bytes ++ rest))
        (front.length + 2)) (encode (before ++ nonInheritance lists.ids lists.extensions :: after))
          ninh.extnElemList ninh.extnLen) =
        decide (elem.id = 255 ∧ ∃ extension ∈ lists.extensions, elem.body.head? =
            some extension) := by
      rw [extnLen]
      by_cases none : lists.extensions = []
      · rw [none]
        simp
      · rw [extnElemList none, isNoninhIe_iff smallExtn _ extensionsStand]
        by_cases isExtn : elem.id = 255
        · have isHead := @byteAt_head elem front rest (isWhole isExtn)
          rw [isHead]
          simp [none, isExtn]
        · simp [isExtn]
    rw [isTrue, Bool.true_and, ids, extensions, Bool.decide_or]

theorem length_encode_marked (before after : List Elem) (elem : Elem) :
    (encode (before ++ marked elem :: after)).length =
        (encode (before ++ elem :: after)).length := by
  rw [encode_append, encode_append, encode_cons, encode_cons, List.length_append,
    List.length_append,
    List.length_append, List.length_append]
  rfl

/-- A mark on another element leaves the lists as they are. -/
theorem Parsed.mark {lists : Lists} {ninh : Ninh} {before after : List Elem}
    (parsed : Parsed lists ninh (before ++ elem :: after)) (other : isNonInheritance elem = false) :
    Parsed lists ninh (before ++ marked elem :: after) := by
  rcases parsed with none | ⟨first, last, shape, isTrue, listLen, extnLen, smallIds, smallExtn,
    elemList, extnElemList⟩
  · exact .inl none
  have notIt : elem ≠ nonInheritance lists.ids lists.extensions := by
    rintro rfl
    exact Bool.false_ne_true (other.symm.trans (decide_eq_true ⟨rfl, rfl⟩))
  refine .inr ?_
  rcases List.append_eq_append_iff.mp shape with ⟨between, isFirst, isLast⟩ | ⟨between,
    isBefore, isLast⟩
  · cases between with
    | nil => exact absurd (List.cons.inj isLast).1 notIt
    | cons own between =>
      obtain ⟨rfl, rfl⟩ := List.cons.inj isLast
      refine ⟨before ++ marked elem :: between, last, by simp, isTrue, listLen, extnLen, smallIds,
        smallExtn, ?_, ?_⟩
      · rw [length_encode_marked, ← isFirst]
        exact elemList
      · rw [length_encode_marked, ← isFirst]
        exact extnElemList
  · cases between with
    | nil => exact absurd (List.cons.inj isLast).1.symm notIt
    | cons own between =>
      obtain ⟨rfl, rfl⟩ := List.cons.inj isLast
      exact ⟨first, between ++ marked elem :: after, by rw [isBefore]; simp, isTrue, listLen,
        extnLen, smallIds, smallExtn,
        elemList, extnElemList⟩

/-! ### The lists of a profile -/

variable {lists : Lists}

theorem int8_sub_one {len : Nat} (small : len < 2 ^ 7) : int8 (int8 (len + 1) - 1) = len := by
  unfold int8
  rw [Int.bmod_def, Int.bmod_def]
  split <;> split <;> omega

theorem length_nonInheritance (ids extensions : List Nat) :
    (nonInheritance ids extensions).body.length = ids.length + extensions.length + 3 := by
  simp [nonInheritance]
  omega

/-- The list of element IDs. -/
theorem parseList_eq (ninh : Ninh) (extnElem : Nat) {idsLen extnLen : Nat} (none : ninh.listLen = 0)
    (isLen : byteAt ninh.subCopy (extnElem + 3) = idsLen)
    (short : idsLen = 0 ∧ extnLen < 2 ^ 7 ∨ idsLen + extnLen + 1 < 2 ^ 7) :
    ∃ place remLen, ninh.parseList extnElem (int8 ((idsLen + extnLen + 3 : Nat) - 2)) =
        ({ ninh with listLen := idsLen, elemList := place }, remLen) ∧
      (idsLen ≠ 0 → place = extnElem + 4) ∧ int8 (remLen - 1) = extnLen := by
  have remLen : ((idsLen + extnLen + 3 : Nat) : Int) - 2 = (idsLen + extnLen : Nat) + 1 := by omega
  unfold Ninh.parseList
  dsimp only
  rw [isLen, remLen]
  by_cases empty : idsLen = 0
  · subst empty
    rw [if_neg (fun both => both.2 rfl), Nat.zero_add]
    refine ⟨ninh.elemList, _, ?_, fun isNot => absurd rfl isNot, int8_sub_one (by omega)⟩
    rw [← none]
  · have small : int8 ((idsLen + extnLen : Nat) + 1) = (idsLen + extnLen + 1 : Nat) := by
      rw [← Int.natCast_succ]
      exact int8_of_small (by omega)
    rw [small, if_pos ⟨by omega, empty⟩, if_pos (by omega)]
    refine ⟨extnElem + 4, _, rfl, fun _ => rfl, ?_⟩
    have left : ((idsLen + extnLen + 1 : Nat) : Int) - idsLen = extnLen + 1 := by omega
    rw [left]
    exact int8_sub_one (by omega)

/-- The list of element ID extensions. -/
theorem parseExtnList_eq (ninh : Ninh) (extnElem : Nat) {extnLen : Nat} (none : ninh.extnLen = 0)
    (isLen : byteAt ninh.subCopy (extnElem + 4 + ninh.listLen) = extnLen) :
    ∃ place, ninh.parseExtnList extnElem extnLen =
    { ninh with extnLen := extnLen, extnElemList := place } ∧
      (extnLen ≠ 0 → place = extnElem + ninh.listLen + 5) := by
  unfold Ninh.parseExtnList
  by_cases empty : extnLen = 0
  · subst empty
    refine ⟨ninh.extnElemList, ?_, fun isNot => absurd rfl isNot⟩
    rw [if_neg (by decide), ← none]
  · have isFound : (if ninh.listLen = 0 then byteAt ninh.subCopy (extnElem + 3 + 1)
        else byteAt ninh.subCopy (extnElem + 4 + ninh.listLen)) = extnLen := by
      split
      case isTrue noList =>
        rw [noList] at isLen
        exact isLen
      case isFalse => exact isLen
    refine ⟨extnElem + ninh.listLen + 4 + 1, ?_, fun _ => rfl⟩
    rw [if_pos (by omega)]
    dsimp only
    rw [isFound, if_pos empty, if_neg (fun differs => differs rfl)]

/-- **`util_parse_noninheritance_list`** finds both lists where they stand. -/
theorem parseNoninheritanceList_eq {lists : Lists} (before after : List Elem)
    (short : lists.ids = [] ∧ lists.extensions.length < 2 ^ 7 ∨
      lists.ids.length + lists.extensions.length + 1 < 2 ^ 7) :
    let elems := before ++ nonInheritance lists.ids lists.extensions :: after
    let ninh := parseNoninheritanceList (encode elems) (encode before).length
    Parsed lists ninh elems ∧ ninh.subCopy = encode elems := by
  dsimp only
  have shape : encode (before ++ nonInheritance lists.ids lists.extensions :: after) =
      encode before ++ ((nonInheritance lists.ids lists.extensions).bytes ++ encode after) := by
    rw [encode_append, encode_cons]
  have length := length_nonInheritance lists.ids lists.extensions
  have isLength : byteAt (encode (before ++ nonInheritance lists.ids lists.extensions :: after))
      ((encode before).length + 1) = lists.ids.length + lists.extensions.length + 3 := by
    rw [shape, byteAt_length, length]
  have isIdsLen : byteAt (encode (before ++ nonInheritance lists.ids lists.extensions :: after))
      ((encode before).length + 3) = lists.ids.length := by
    rw [shape, show (encode before).length + 3 = (encode before).length + 2 + 1 from rfl,
      byteAt_body (by omega)]
    rfl
  have isExtnLen : byteAt (encode (before ++ nonInheritance lists.ids lists.extensions :: after))
      ((encode before).length + 4 + lists.ids.length) = lists.extensions.length := by
    have inside : 2 + lists.ids.length <
      (nonInheritance lists.ids lists.extensions).body.length := by omega
    rw [shape, show (encode before).length + 4 + lists.ids.length =
        (encode before).length + 2 + (2 + lists.ids.length) by
      omega, byteAt_body inside]
    simp [nonInheritance, Nat.add_comm 2]
  have shortLens : lists.ids.length = 0 ∧ lists.extensions.length < 2 ^ 7 ∨
      lists.ids.length + lists.extensions.length + 1 < 2 ^ 7 := by
    rwa [List.length_eq_zero_iff]
  obtain ⟨elemList, remLen, isList, isElemList, isRem⟩ := parseList_eq
    ⟨0, 0, true, 0, 0, encode (before ++ nonInheritance lists.ids lists.extensions :: after)⟩
    (encode before).length rfl
    isIdsLen shortLens
  obtain ⟨extnElemList, isExtnList, isExtnElemList⟩ := parseExtnList_eq
    ⟨lists.ids.length, 0, true, elemList, 0,
      encode (before ++ nonInheritance lists.ids lists.extensions :: after)⟩
    (encode before).length rfl isExtnLen
  have isNinh :
    parseNoninheritanceList (encode (before ++ nonInheritance lists.ids lists.extensions :: after))
      (encode before).length = ⟨lists.ids.length, lists.extensions.length, true, elemList,
        extnElemList,
        encode (before ++ nonInheritance lists.ids lists.extensions :: after)⟩ := by
    unfold parseNoninheritanceList
    dsimp only
    rw [isLength, isIdsLen, if_pos (by omega), isList]
    dsimp only
    rw [isRem, isExtnList]
  rw [isNinh]
  refine ⟨.inr ⟨before, after, rfl, rfl, rfl, rfl, by omega, by omega, fun some => isElemList ?_,
    fun some => isExtnElemList ?_⟩, rfl⟩
  · rwa [Ne, List.length_eq_zero_iff]
  · rwa [Ne, List.length_eq_zero_iff]

theorem findNinh_eq (profile : Profile lists elems)
    (short : lists.ids = [] ∧ lists.extensions.length < 2 ^ 7 ∨
      lists.ids.length + lists.extensions.length + 1 < 2 ^ 7) :
    Parsed lists (findNinh (encode elems)) elems ∧ (findNinh (encode elems)).subCopy =
        encode elems := by
  have extensions : ∀ elem ∈ elems, elem.id = 255 → 1 ≤ elem.body.length :=
    fun elem member => (profile.whole elem member).extension
  unfold findNinh
  rcases scanFindNoninheritanceIe_eq elems extensions
    with ⟨before, elem, after, isElems, isIt, _, isFound⟩ |
    ⟨none, isNone⟩
  · have member : elem ∈ elems.filter isNonInheritance :=
      List.mem_filter.mpr ⟨isElems ▸ List.mem_append_right _ List.mem_cons_self, isIt⟩
    have isElem : elem = nonInheritance lists.ids lists.extensions := by
      rcases profile.isList with one | ⟨empty, _⟩
      · rw [one] at member
        exact List.mem_singleton.mp member
      · rw [empty] at member
        exact absurd member List.not_mem_nil
    subst isElem isElems
    have isLength : byteAt (encode (before ++ nonInheritance lists.ids lists.extensions :: after))
        ((encode before).length + 1) = lists.ids.length + lists.extensions.length + 3 := by
      rw [encode_append, encode_cons, byteAt_length, length_nonInheritance]
    rw [isFound]
    dsimp only
    rw [isLength, if_pos (by omega)]
    exact parseNoninheritanceList_eq before after short
  · have empty : elems.filter isNonInheritance = [] :=
      List.filter_eq_nil_iff.mpr fun elem member => by
        rw [none elem member]; exact Bool.false_ne_true
    rw [isNone]
    rcases profile.isList with one | ⟨_, noIds, noExtensions⟩
    · rw [empty] at one
      exact absurd one.symm (List.cons_ne_nil _ _)
    · exact ⟨.inl ⟨rfl, noIds, noExtensions⟩, rfl⟩

end Qsdk.Inheritance
