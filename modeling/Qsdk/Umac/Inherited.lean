/-
**The rule of inheritance.**

Along the transmitted elements, an element of the profile is copied and marked, or the transmitted
one is copied. Where the look-up by the identifier alone finds what the rule asks for, the new
elements are those of the rule (`genNewIe_eq`), and no element of the profile is lost or taken twice
(`own_perm`).
-/

import Mathlib.Data.List.Perm.Basic
import Qsdk.Umac.NonInheritance

namespace Qsdk.Inheritance

open Qsdk.Elements

/-! ### One element -/

variable {elem : Elem} {elems : List Elem} {front rest : List Nat}

variable {own : Elem} {before after : List Elem} {newIe : List Nat} {ielen : Nat}

/-- How many bytes of a vendor's element are compared. -/
def headerLen (elem : Elem) : Nat := if elem.body.take 3 = [0x00, 0x40, 0x96] then 4 else 5

theorem take_three_iff (long : 5 ≤ elem.body.length) :
    elem.body.take 3 = [0x00, 0x40, 0x96] ↔
      byteAt (front ++ (elem.bytes ++ rest)) (front.length + 2) = 0x00 ∧
        byteAt (front ++ (elem.bytes ++ rest)) (front.length + 2 + 1) = 0x40 ∧
        byteAt (front ++ (elem.bytes ++ rest)) (front.length + 2 + 2) = 0x96 := by
  have first := @byteAt_body elem front rest 0 (by omega)
  rw [Nat.add_zero] at first
  rw [first, byteAt_body (show 1 < elem.body.length by omega),
    byteAt_body (show 2 < elem.body.length by omega)]
  obtain ⟨id, body⟩ := elem
  match body, long with
  | a :: b :: c :: _, _ => simp

theorem ouiHeaderLen_eq (long : 5 ≤ elem.body.length) :
    ouiHeaderLen (front ++ (elem.bytes ++ rest)) (front.length + 2) = headerLen elem := by
  unfold ouiHeaderLen headerLen
  exact if_congr (take_three_iff long).symm rfl rfl

theorem headerLen_le (elem : Elem) : 4 ≤ headerLen elem ∧ headerLen elem ≤ 5 := by
  unfold headerLen
  split
  · omega
  · omega

/-- The bytes that are compared are those of the identity. -/
theorem vendor_iff (isVendor : elem.id = 221) (same : own.id = elem.id)
    (long : 5 ≤ elem.body.length) (ownLong : 5 ≤ own.body.length) :
    elem.body.take (headerLen own) = own.body.take (headerLen own) ↔
        identity own = identity elem := by
  have isOwn : own.id = 221 := same.trans isVendor
  have notExtn : ¬ (221 = 255) := by decide
  have shape : identity own = (221, own.body.take (headerLen own)) ∧
      identity elem = (221, elem.body.take (headerLen elem)) := by
    unfold identity headerLen
    rw [isVendor, isOwn, if_neg notExtn, if_pos rfl, if_neg notExtn, if_pos rfl]
    exact ⟨rfl, rfl⟩
  have least := headerLen_le own
  have least' := headerLen_le elem
  rw [shape.1, shape.2, Prod.mk.injEq]
  constructor
  · intro bytes
    have three : elem.body.take 3 = own.body.take 3 := by
      have taken := congrArg (List.take 3) bytes
      rwa [List.take_take, List.take_take, Nat.min_eq_left (by omega)] at taken
    have lens : headerLen elem = headerLen own := by
      unfold headerLen
      rw [three]
    rw [lens, bytes]
    exact ⟨rfl, rfl⟩
  · rintro ⟨_, bytes⟩
    have lens := congrArg List.length bytes
    rw [List.length_take, List.length_take] at lens
    have lens : headerLen elem = headerLen own := by omega
    rw [bytes, lens]

/-- The identities agree. -/
theorem extension_iff (isExtn : elem.id = 255) (same : own.id = elem.id) :
    elem.body.head? = own.body.head? ↔ identity own = identity elem := by
  unfold identity
  rw [same, isExtn, if_pos rfl, if_pos rfl, Prod.mk.injEq, and_iff_right rfl]
  cases elem.body with
  | nil =>
    cases own.body with
    | nil => simp
    | cons => simp
  | cons =>
    cases own.body with
    | nil => simp
    | cons => simp [eq_comm]

theorem identity_eq_of_id (notExtn : elem.id ≠ 255) (notVendor : elem.id ≠ 221)
    (same : own.id = elem.id) :
    identity own = identity elem := by
  unfold identity
  rw [same, if_neg notExtn, if_neg notVendor, if_neg notExtn, if_neg notVendor]

theorem id_eq_of_identity (same : identity own = identity elem) : own.id = elem.id :=
    congrArg Prod.fst same

theorem putMarked_eq (room : newIe.length + own.bytes.length ≤ ielen) :
    (Merge.mk (encode (before ++ own :: after)) newIe).putMarked ielen (encode before).length =
      ⟨encode (before ++ marked own :: after), newIe ++ own.bytes⟩ := by
  have isBytes : ieBytes (encode (before ++ own :: after)) (encode before).length = own.bytes := by
    rw [encode_append, encode_cons, ieBytes_eq]
  unfold Merge.putMarked
  dsimp only
  rw [isBytes, if_pos room, set_encode]

theorem put_eq (subCopy : List Nat) (room : newIe.length + elem.bytes.length ≤ ielen) :
    (Merge.mk subCopy newIe).put ielen (ieBytes (front ++ (elem.bytes ++ rest)) front.length) =
      ⟨subCopy, newIe ++ elem.bytes⟩ := by
  unfold Merge.put
  rw [ieBytes_eq]
  exact if_pos room

/-- The look-up in the copy. -/
theorem scanFindIe_copy (eid : Nat) (elems : List Elem) :
    (∃ before elem after, elems = before ++ elem :: after ∧ elem.id = eid ∧
      (∀ other ∈ before, other.id ≠ eid) ∧
      scanFindIe eid (encode elems) (encode elems).length = some (encode before).length) ∨
    ((∀ elem ∈ elems, elem.id ≠ eid) ∧ scanFindIe eid (encode elems)
        (encode elems).length = none) := by
  have found := scanFindIe_eq eid elems []
  rwa [List.append_nil] at found

/-- What is decided for an element that the look-up finds. -/
theorem one_found
    (found : scanFindIe elem.id (encode (before ++ own :: after))
      (encode (before ++ own :: after)).length =
      some (encode before).length) (same : own.id = elem.id) (isWhole : Whole elem)
      (ownWhole : Whole own)
    (roomOwn : identity own = identity elem → newIe.length + own.bytes.length ≤ ielen)
    (room : identity own ≠ identity elem → newIe.length + elem.bytes.length ≤ ielen) :
    (Merge.mk (encode (before ++ own :: after)) newIe).one (front ++ (elem.bytes ++ rest)) ielen
        (encode (before ++ own :: after)).length front.length =
      if identity own = identity elem then
        ⟨encode (before ++ marked own :: after), newIe ++ own.bytes⟩
      else ⟨encode (before ++ own :: after), newIe ++ elem.bytes⟩ := by
  have shape : encode (before ++ own :: after) = encode before ++ (own.bytes ++ encode after) := by
    rw [encode_append, encode_cons]
  unfold Merge.one
  rw [byteAt_id, found]
  dsimp only
  by_cases isVendor : elem.id = 221
  · have long := isWhole.vendor isVendor
    have ownLong := ownWhole.vendor (same.trans isVendor)
    have remLen : (encode (before ++ own :: after)).length - (encode before).length ≥ 7 := by
      rw [shape, List.length_append, List.length_append, Elem.length_bytes]
      omega
    have least := headerLen_le own
    rw [if_pos ⟨isVendor, remLen⟩]
    have compared : ((front ++ (elem.bytes ++ rest)).drop (front.length + 2)).take
          (ouiHeaderLen (encode (before ++ own :: after)) ((encode before).length + 2)) =
        ((encode (before ++ own :: after)).drop ((encode before).length + 2)).take
          (ouiHeaderLen (encode (before ++ own :: after)) ((encode before).length + 2)) ↔
        identity own = identity elem := by
      rw [shape, ouiHeaderLen_eq ownLong, take_body (by omega), take_body (by omega),
        vendor_iff isVendor same long ownLong]
    by_cases agree : identity own = identity elem
    · rw [if_pos (compared.mpr agree), if_pos agree, putMarked_eq (roomOwn agree)]
    · rw [if_neg (fun bytes => agree (compared.mp bytes)), if_neg agree, put_eq _ (room agree)]
  · rw [if_neg (fun both => isVendor both.1)]
    by_cases isExtn : elem.id = 255
    · rw [if_pos isExtn]
      have heads := @byteAt_head elem front rest (isWhole.extension isExtn)
      have ownHeads := @byteAt_head own (encode before) (encode after)
        (ownWhole.extension (same.trans isExtn))
      have compared : byteAt (front ++ (elem.bytes ++ rest)) (front.length + 2) =
          byteAt (encode (before ++ own :: after)) ((encode before).length + 2) ↔
              identity own = identity elem := by
        rw [shape, ← extension_iff isExtn same, heads, ownHeads, Option.some.injEq]
      by_cases agree : identity own = identity elem
      · rw [if_pos (compared.mpr agree), if_pos agree, putMarked_eq (roomOwn agree)]
      · rw [if_neg (fun bytes => agree (compared.mp bytes)), if_neg agree, put_eq _ (room agree)]
    · have agree := identity_eq_of_id isExtn isVendor same
      rw [if_neg isExtn, if_pos agree, putMarked_eq (roomOwn agree)]

/-- Nothing of the same identifier. -/
theorem one_missing {elems : List Elem} (notMbssid : elem.id ≠ 71)
    (missing : scanFindIe elem.id (encode elems) (encode elems).length = none)
    (room : newIe.length + elem.bytes.length ≤ ielen) :
    (Merge.mk (encode elems) newIe).one (front ++ (elem.bytes ++ rest)) ielen
    (encode elems).length front.length =
      ⟨encode elems, newIe ++ elem.bytes⟩ := by
  unfold Merge.one
  rw [byteAt_id, missing]
  dsimp only
  rw [if_pos notMbssid, put_eq _ room]

/-! ### The loops -/

variable {lists : Lists} {ninh : Ninh} {ie behind : List Nat} {subieLen : Nat}

/-- Behind the last element the loop ends. -/
theorem mergeLoop_end (rounds : Nat) {tmpOld : Nat} (isEnd : tmpOld ≥ ielen) (merge : Merge) :
    mergeLoop ninh ie ielen subieLen rounds tmpOld merge = merge := by
  cases rounds with
  | zero => rfl
  | succ rounds => exact if_neg (by omega)

/-- One round of the loop. -/
theorem mergeLoop_round (rounds : Nat) (merge : Merge)
    (inside : front.length + elem.bytes.length ≤ ielen) :
    mergeLoop ninh (front ++ (elem.bytes ++ rest)) ielen subieLen (rounds + 1) front.length merge =
      mergeLoop ninh (front ++ (elem.bytes ++ rest)) ielen subieLen rounds
      (front ++ elem.bytes).length
        (if merge.nonInhIeFound ninh (front ++ (elem.bytes ++ rest)) front.length ||
          decide (elem.id = 0) then merge
          else merge.one (front ++ (elem.bytes ++ rest)) ielen subieLen front.length) := by
  have next : front.length + elem.body.length + 2 = (front ++ elem.bytes).length := by
    rw [List.length_append, Elem.length_bytes, Nat.add_assoc]
  have le : (front ++ elem.bytes).length ≤ ielen := by
    rw [List.length_append]
    exact inside
  rw [mergeLoop, byteAt_length, byteAt_id, next, if_pos le]
  split
  · rfl
  · dsimp only
    split
    case isTrue isEnd => exact (mergeLoop_end rounds isEnd _).symm
    case isFalse => rfl

theorem whole_marked (whole : Whole elem) : Whole (marked elem) := ⟨whole.length, nofun, nofun⟩

/-- The elements of a copy. -/
structure Fit (elems : List Elem) : Prop where
  whole : ∀ elem ∈ elems, Whole elem
  noMbssid : ∀ elem ∈ elems, elem.id ≠ 71

theorem Fit.mark (fit : Fit (before ++ own :: after)) : Fit (before ++ marked own :: after) := by
  refine ⟨fun elem member => ?_, fun elem member => ?_⟩
  · rcases List.mem_append.mp member with isIn | isIn
    · exact fit.whole elem (List.mem_append_left _ isIn)
    · rcases List.mem_cons.mp isIn with rfl | isIn
      · exact whole_marked (fit.whole own (List.mem_append_right _ List.mem_cons_self))
      · exact fit.whole elem (List.mem_append_right _ (List.mem_cons_of_mem _ isIn))
  · rcases List.mem_append.mp member with isIn | isIn
    · exact fit.noMbssid elem (List.mem_append_left _ isIn)
    · rcases List.mem_cons.mp isIn with rfl | isIn
      · exact fun isMbssid => absurd isMbssid (by simp [marked])
      · exact fit.noMbssid elem (List.mem_append_right _ (List.mem_cons_of_mem _ isIn))

/-- The copy is fit for use, with the lists where they were found. -/
structure Copy (lists : Lists) (ninh : Ninh) (elems : List Elem) : Prop extends Fit elems where
  parsed : Parsed lists ninh elems

theorem Copy.mark (copy : Copy lists ninh (before ++ own :: after))
    (other : isNonInheritance own = false) :
    Copy lists ninh (before ++ marked own :: after) :=
  ⟨copy.toFit.mark, copy.parsed.mark other⟩

/-- What the loop has done. -/
structure Merged (lists : Lists) (ninh : Ninh) (transmitted elems : List Elem) (newIe : List Nat)
    (merge : Merge) (elems' : List Elem) (heads : List (Origin × Elem)) : Prop where
  isMerge : merge = ⟨encode elems', newIe ++ encode (heads.map Prod.snd)⟩
  split : inherit lists.listed transmitted (live elems) = heads ++
    ((live elems').filter isRest).map (Origin.profile, ·)
  copy : Copy lists ninh elems'
  length : (encode elems').length = (encode elems).length

theorem isNonInheritance_of_identity (same : identity own = identity elem) :
    isNonInheritance own = isNonInheritance elem := by
  have sameId := id_eq_of_identity same
  refine decide_eq_decide.mpr ?_
  rw [sameId]
  refine and_congr_right fun isExtn => ?_
  rw [(extension_iff isExtn sameId).mpr same]

/-- No element of the identifier, or only one before all of the same identity. -/
theorem find?_identity_eq_none (missing : ∀ own ∈ elems, own.id ≠ elem.id) :
    (live elems).find? (fun own => decide (identity own = identity elem)) = none :=
  List.find?_eq_none.mpr fun own member same =>
    missing own (List.mem_filter.mp member).1 (id_eq_of_identity (of_decide_eq_true same))

theorem mergeLoop_eq {transmitted : List Elem} {rounds : Nat} (enough : transmitted.length ≤ rounds)
    (isLen : ielen = front.length + (encode transmitted).length) (is : Transmitted transmitted)
    (copy : Copy lists ninh elems) (clear : Clear lists.listed transmitted (live elems))
    (room : newIe.length +
        (encode ((inherit lists.listed transmitted (live elems)).map Prod.snd)).length ≤ ielen) :
    ∃ elems' heads, Merged lists ninh transmitted elems newIe
    (mergeLoop ninh (front ++ (encode transmitted ++ behind))
      ielen (encode elems).length rounds front.length ⟨encode elems, newIe⟩) elems' heads := by
  induction transmitted generalizing front rounds elems newIe with
  | nil =>
    rw [encode_nil, List.length_nil] at isLen
    rw [mergeLoop_end rounds (by omega)]
    exact ⟨elems, [], by simp, rfl, copy, rfl⟩
  | cons elem transmitted ih =>
    obtain ⟨rounds, rfl⟩ := Nat.exists_eq_add_of_lt (Nat.lt_of_lt_of_le (Nat.succ_pos _) enough)
    rw [Nat.zero_add] at enough ⊢
    have isWhole := is.whole elem List.mem_cons_self
    have later : Transmitted transmitted :=
      ⟨fun other member => is.whole other (List.mem_cons_of_mem _ member),
      fun other member => is.other other (List.mem_cons_of_mem _ member)⟩
    rw [encode_cons, List.length_append] at isLen
    have isLen' : ielen = (front ++ elem.bytes).length + (encode transmitted).length := by
      rw [List.length_append]
      omega
    -- the rest of the loop, from any copy and new elements on
    have further := fun elems newIe => @ih elems (front ++ elem.bytes) newIe rounds
      (Nat.le_of_succ_le_succ enough)
      isLen' later
    have shape : front ++ (encode (elem :: transmitted) ++ behind) =
        front ++ (elem.bytes ++ (encode transmitted ++ behind)) := by
      rw [encode_cons, List.append_assoc]
    rw [shape, mergeLoop_round rounds _ (by omega),
      nonInhIeFound_eq copy.parsed newIe isWhole.extension]
    simp only [List.append_assoc] at further
    by_cases skipped : elem.id = 0 ∨ elem.id = 71
    · rw [inherit, if_pos skipped] at room
      rw [Clear, if_pos skipped] at clear
      have unchanged :
          (if lists.listed elem || decide (elem.id = 0) then Merge.mk (encode elems) newIe else
          (Merge.mk (encode elems) newIe).one
            (front ++ (elem.bytes ++ (encode transmitted ++ behind))) ielen
            (encode elems).length front.length) = ⟨encode elems, newIe⟩ := by
        rcases skipped with isSsid | isMbssid
        · rw [if_pos (by simp [isSsid])]
        · split
          · rfl
          · rcases scanFindIe_copy elem.id elems with ⟨_, own, _, rfl, isId, _⟩ | ⟨_, missing⟩
            · exact absurd (isId.trans isMbssid)
                (copy.noMbssid own (List.mem_append_right _ List.mem_cons_self))
            · unfold Merge.one
              rw [byteAt_id, missing]
              exact if_neg (not_not.mpr isMbssid)
      rw [unchanged]
      obtain ⟨elems', heads, merged⟩ := further elems newIe copy clear room
      exact ⟨elems', heads, merged.isMerge, (by rw [inherit, if_pos skipped]; exact merged.split),
        merged.copy,
        merged.length⟩
    · have notSsid : elem.id ≠ 0 := fun isSsid => skipped (.inl isSsid)
      have notMbssid : elem.id ≠ 71 := fun isMbssid => skipped (.inr isMbssid)
      rw [inherit, if_neg skipped] at room
      rw [Clear, if_neg skipped] at clear
      rw [decide_eq_false notSsid, Bool.or_false]
      -- what is taken from the transmitted elements
      have takes : ∀ elems' heads, Merged lists ninh transmitted elems (newIe ++ elem.bytes)
          (mergeLoop ninh (front ++ (elem.bytes ++ (encode transmitted ++ behind))) ielen
            (encode elems).length rounds
            (front ++ elem.bytes).length ⟨encode elems, newIe ++ elem.bytes⟩) elems' heads →
          inherit lists.listed (elem :: transmitted) (live elems) =
            (.transmitted, elem) :: inherit lists.listed transmitted (live elems) →
          Merged lists ninh (elem :: transmitted) elems newIe
            (mergeLoop ninh (front ++ (elem.bytes ++ (encode transmitted ++ behind))) ielen
              (encode elems).length rounds
              (front ++ elem.bytes).length ⟨encode elems, newIe ++ elem.bytes⟩) elems'
            ((.transmitted, elem) :: heads) := by
        intro elems' heads merged isHead
        refine ⟨merged.isMerge.trans ?_, ?_, merged.copy, merged.length⟩
        · rw [List.map_cons, encode_cons, List.append_assoc]
        · rw [isHead, merged.split]
          rfl
      cases found : (live elems).find? fun own => decide (identity own = identity elem) with
      | none =>
        rw [found] at room clear
        dsimp only at room clear
        cases isListed : lists.listed elem with
        | true =>
          rw [isListed, if_pos rfl] at room
          rw [if_pos rfl]
          obtain ⟨elems', heads, merged⟩ := further elems newIe copy clear room
          refine ⟨elems', heads, merged.isMerge, ?_, merged.copy, merged.length⟩
          rw [inherit, if_neg skipped, found]
          dsimp only
          rw [isListed, if_pos rfl]
          exact merged.split
        | false =>
          rw [isListed, if_neg Bool.false_ne_true, List.map_cons, encode_cons, List.length_append]
            at room
          dsimp only at room
          have isHead : inherit lists.listed (elem :: transmitted) (live elems) =
              (.transmitted, elem) :: inherit lists.listed transmitted (live elems) := by
            rw [inherit, if_neg skipped, found]
            dsimp only
            rw [isListed, if_neg Bool.false_ne_true]
          have one : (Merge.mk (encode elems) newIe).one
            (front ++ (elem.bytes ++ (encode transmitted ++ behind))) ielen
              (encode elems).length front.length = ⟨encode elems, newIe ++ elem.bytes⟩ := by
            rcases scanFindIe_copy elem.id elems
              with ⟨before, own, after, rfl, isId, isFirst, isFound⟩ | ⟨_, missing⟩
            · have differs : identity own ≠ identity elem := by
                intro same
                have member : own ∈ live (before ++ own :: after) := List.mem_filter.mpr
                  ⟨List.mem_append_right _ List.mem_cons_self, decide_eq_true (isId ▸ notSsid)⟩
                exact absurd (decide_eq_true same) (List.find?_eq_none.mp found own member)
              have ownWhole := copy.whole own (List.mem_append_right _ List.mem_cons_self)
              rw [one_found isFound isId isWhole ownWhole (fun same => absurd same differs)
                (fun _ => by omega),
                if_neg differs]
            · exact one_missing notMbssid missing (by omega)
          rw [if_neg Bool.false_ne_true, one]
          obtain ⟨elems', heads, merged⟩ := further elems (newIe ++ elem.bytes) copy clear
            (by rw [List.length_append]; omega)
          exact ⟨elems', _, takes elems' heads merged isHead⟩
      | some first =>
        rw [found] at room clear
        dsimp only at room clear
        obtain ⟨notListed, ⟨own, isFirst, same⟩, clear⟩ := clear
        rw [List.map_cons, encode_cons, List.length_append] at room
        dsimp only at room
        rw [notListed, if_neg Bool.false_ne_true]
        rcases scanFindIe_copy elem.id elems with ⟨before, own', after, rfl, isId, none,
          isFound⟩ | ⟨missing, _⟩
        · have own'_live : own'.id ≠ 0 := isId ▸ notSsid
          have isOwn : own' = own := by
            have sameId :=
              @find?_live own' (fun own => decide (own.id = elem.id)) before after own'_live
              (fun other member _ => decide_eq_false (none other member)) (decide_eq_true isId)
            exact Option.some.inj (sameId.symm.trans isFirst)
          subst isOwn
          have before_other : ∀ other ∈ before, other.id ≠ 0 →
              decide (identity other = identity elem) = false :=
            fun other member _ => decide_eq_false fun agree =>
              none other member (id_eq_of_identity agree)
          have isIt :=
            @find?_live own' (fun own => decide (identity own = identity elem)) before
            after own'_live
            before_other (decide_eq_true same)
          have erased :=
            @eraseP_live own' (fun own => decide (identity own = identity elem)) before
            after own'_live
            before_other (decide_eq_true same)
          obtain rfl := Option.some.inj (found.symm.trans isIt)
          rw [erased] at clear room
          have ownWhole := copy.whole first (List.mem_append_right _ List.mem_cons_self)
          have isOther : isNonInheritance first = false :=
            (isNonInheritance_of_identity same).trans (is.other elem List.mem_cons_self).2.2
          rw [one_found isFound isId isWhole ownWhole (fun _ => by omega)
            (fun differs => absurd same differs), if_pos same]
          have lengths := length_encode_marked before after first
          obtain ⟨elems', heads, merged⟩ :=
            further (before ++ marked first :: after) (newIe ++ first.bytes)
            (copy.mark isOther) clear (by rw [List.length_append]; omega)
          rw [lengths] at merged
          refine ⟨elems', (.profile, first) :: heads, merged.isMerge.trans ?_, ?_, merged.copy,
            merged.length.trans lengths⟩
          · rw [List.map_cons, encode_cons, List.append_assoc]
          · rw [inherit, if_neg skipped, found]
            dsimp only
            rw [erased, merged.split]
            rfl
        · rw [find?_identity_eq_none missing] at found
          exact absurd found (Option.some_ne_none _).symm

/-- An element that is passed over in the end. -/
theorem skipsLast_eq (isWhole : Whole elem) :
    skipsLast (front ++ (elem.bytes ++ rest)) front.length = !isRest elem := by
  unfold skipsLast isRest isNonInheritance
  rw [byteAt_id, Bool.eq_iff_iff]
  by_cases isExtn : elem.id = 255
  · rw [@byteAt_head elem front rest (isWhole.extension isExtn)]
    simp [isExtn]
  · simp [isExtn]

theorem restLoop_end (rounds : Nat) {tmpNew : Nat} {merge : Merge} (isEnd : tmpNew ≥ subieLen) :
    restLoop ielen subieLen rounds tmpNew merge = merge := by
  cases rounds with
  | zero => rfl
  | succ rounds => exact if_neg (by omega)

/-- One round of the last loop. -/
theorem restLoop_round (rounds : Nat) (isWhole : Whole elem)
    (inside : front.length + elem.bytes.length ≤ subieLen) :
    restLoop ielen subieLen (rounds + 1) front.length ⟨front ++ (elem.bytes ++ rest), newIe⟩ =
      restLoop ielen subieLen rounds (front ++ elem.bytes).length
        (if isRest elem then (Merge.mk (front ++ (elem.bytes ++ rest)) newIe).put ielen
          (ieBytes (front ++ (elem.bytes ++ rest)) front.length) else
              ⟨front ++ (elem.bytes ++ rest), newIe⟩) := by
  have next : front.length + elem.body.length + 2 = (front ++ elem.bytes).length := by
    rw [List.length_append, Elem.length_bytes, Nat.add_assoc]
  have le : (front ++ elem.bytes).length ≤ subieLen := by
    rw [List.length_append]
    exact inside
  have choice : ∀ put skip : Merge,
    (if skipsLast (front ++ (elem.bytes ++ rest)) front.length then skip else put) =
      if isRest elem then put else skip := by
    intro put skip
    rw [skipsLast_eq isWhole]
    cases isRest elem with
    | true => rfl
    | false => rfl
  rw [restLoop]
  dsimp only
  rw [byteAt_length, next, if_pos le, choice]
  split
  case isTrue isEnd => exact (restLoop_end rounds isEnd).symm
  case isFalse => rfl

/-- **What is left of the profile** is copied in its order. -/
theorem restLoop_eq {rounds : Nat} (enough : elems.length ≤ rounds)
    (whole : ∀ elem ∈ elems, Whole elem) (isLen : subieLen = front.length + (encode elems).length)
    (room : newIe.length + (encode (elems.filter isRest)).length ≤ ielen) :
    (restLoop ielen subieLen rounds front.length ⟨front ++ encode elems, newIe⟩).newIe =
      newIe ++ encode (elems.filter isRest) := by
  induction elems generalizing front rounds newIe with
  | nil =>
    rw [encode_nil, List.length_nil] at isLen
    rw [restLoop_end rounds (by omega), List.filter_nil, encode_nil, List.append_nil,
      List.append_nil]
  | cons elem elems ih =>
    obtain ⟨rounds, rfl⟩ := Nat.exists_eq_add_of_lt (Nat.lt_of_lt_of_le (Nat.succ_pos _) enough)
    rw [Nat.zero_add] at enough ⊢
    have isWhole := whole elem List.mem_cons_self
    rw [encode_cons, List.length_append] at isLen
    have isLen' : subieLen = (front ++ elem.bytes).length + (encode elems).length := by
      rw [List.length_append]
      omega
    have further := fun newIe => @ih (front ++ elem.bytes) newIe rounds
      (Nat.le_of_succ_le_succ enough)
      (fun other member => whole other (List.mem_cons_of_mem _ member)) isLen'
    rw [encode_cons, restLoop_round rounds isWhole (by omega)]
    simp only [List.append_assoc] at further
    cases kept : isRest elem with
    | true =>
      rw [List.filter_cons_of_pos kept, encode_cons, List.length_append] at room
      rw [if_pos rfl, put_eq _ (by omega), further _ (by rw [List.length_append]; omega),
        List.filter_cons_of_pos kept, encode_cons, List.append_assoc]
    | false =>
      rw [List.filter_cons_of_neg (by rw [kept]; exact Bool.false_ne_true)] at room ⊢
      rw [if_neg Bool.false_ne_true, further _ room]

theorem filter_live (elems : List Elem) : (live elems).filter isRest = elems.filter isRest := by
  unfold live
  rw [List.filter_filter]
  refine List.filter_congr fun elem _ => ?_
  unfold isRest
  by_cases marked : elem.id = 0
  · simp [marked]
  · simp [marked]

/-! ### The whole -/

theorem putSsid_eq (elems : List Elem)
    (room : (encode (elems.find? fun elem => decide (elem.id = 0)).toList).length ≤ ielen) :
    (Merge.mk (encode elems) []).putSsid ielen (encode elems) =
      ⟨encode elems, encode (elems.find? fun elem => decide (elem.id = 0)).toList⟩ := by
  unfold Merge.putSsid
  rcases scanFindIe_copy 0 elems with ⟨before, ssid, after, rfl, isId, none,
    isFound⟩ | ⟨missing, isNone⟩
  · have isSsid : (before ++ ssid :: after).find? (fun elem => decide (elem.id = 0)) = some ssid :=
      List.find?_eq_some_iff_append.mpr ⟨decide_eq_true isId, before, after, rfl,
        fun other member => by rw [decide_eq_false (none other member)]; rfl⟩
    rw [isSsid, Option.toList_some, encode_cons, encode_nil, List.append_nil] at room ⊢
    rw [isFound]
    dsimp only
    rw [encode_append, encode_cons, put_eq _ (by rwa [List.length_nil, Nat.zero_add])]
    rfl
  · have isSsid : elems.find? (fun elem => decide (elem.id = 0)) = none :=
      List.find?_eq_none.mpr fun elem member isId => missing elem member (of_decide_eq_true isId)
    rw [isNone, isSsid]
    rfl

/-- The loop starts behind the first SSID, or at the first element. -/
theorem startOld_eq (transmitted : List Elem) (behind : List Nat) :
    ∃ skipped later, transmitted = skipped ++ later ∧
      startOld (encode transmitted ++ behind) (encode transmitted).length =
      (encode skipped).length ∧
      ((skipped = [] ∧ ∀ elem ∈ later, elem.id ≠ 0) ∨
        ∃ before ssid, skipped = before ++ [ssid] ∧ ssid.id = 0 ∧ ∀ elem ∈ before,
            elem.id ≠ 0) := by
  unfold startOld
  rcases scanFindIe_eq 0 transmitted behind with ⟨before, ssid, after, rfl, isId, none,
    isFound⟩ | ⟨none, isNone⟩
  · refine ⟨before ++ [ssid], after, by simp, ?_, .inr ⟨before, ssid, rfl, isId, none⟩⟩
    rw [isFound]
    dsimp only
    rw [encode_append, encode_cons, List.append_assoc, List.append_assoc, byteAt_length,
      encode_append, encode_cons,
      encode_nil, List.append_nil, List.length_append, Elem.length_bytes, Nat.add_assoc]
  · exact ⟨[], transmitted, rfl, by rw [isNone]; rfl, .inl ⟨rfl, none⟩⟩

theorem inherit_skipped {listed : Elem → Bool} {skipped : List Elem}
    (skip : ∀ elem ∈ skipped, elem.id = 0 ∨ elem.id = 71) (later profile : List Elem) :
    inherit listed (skipped ++ later) profile = inherit listed later profile ∧
      (Clear listed (skipped ++ later) profile ↔ Clear listed later profile) := by
  induction skipped with
  | nil => exact ⟨rfl, Iff.rfl⟩
  | cons elem skipped ih =>
    obtain ⟨here, further⟩ := List.forall_mem_cons.mp skip
    rw [List.cons_append, inherit, Clear, if_pos here, if_pos here]
    exact ih further

/-- **The new elements** are those of the rule. -/
theorem genNewIe_eq {alloc : Bool} {transmitted : List Elem} (behind : List Nat)
    (is : Transmitted transmitted) (profile : Profile lists elems)
    (meets : Meets lists alloc transmitted elems)
        (fits : (encode ((generated lists transmitted elems).map Prod.snd)).length ≤
          (encode transmitted).length) :
    genNewIe alloc (encode transmitted ++ behind) (encode transmitted).length (encode elems) =
      encode ((generated lists transmitted elems).map Prod.snd) := by
  have isGenerated : encode ((generated lists transmitted elems).map Prod.snd) =
      encode (elems.find? fun elem : Elem => decide (elem.id = 0)).toList ++
        encode ((inherit lists.listed transmitted (live elems)).map Prod.snd) := by
    unfold generated
    rw [List.map_append, List.map_map, encode_append]
    congr 2
    exact List.map_id _
  rw [isGenerated, List.length_append] at fits
  have notEmpty : (encode elems).length ≠ 0 := fun empty =>
    profile.nonempty (length_encode_eq_zero.mp empty)
  obtain ⟨parsed, isCopy⟩ := findNinh_eq profile meets.short
  obtain ⟨skipped, later, isTransmitted, isStart, isSkipped⟩ := startOld_eq transmitted behind
  have skip : ∀ elem ∈ skipped, elem.id = 0 ∨ elem.id = 71 := by
    rcases isSkipped with ⟨rfl, _⟩ | ⟨before, ssid, rfl, isSsid, none⟩
    · exact fun elem member => absurd member List.not_mem_nil
    · intro elem member
      rcases List.mem_append.mp member with isIn | isIt
      · exact .inr
          (meets.ssidFirst before ssid later (by rw [isTransmitted]; simp) isSsid none elem isIn)
      · exact .inl (List.mem_singleton.mp isIt ▸ isSsid)
  obtain ⟨isInherit, isClear⟩ := @inherit_skipped lists.listed skipped skip later (live elems)
  have clear : Clear lists.listed later (live elems) := isClear.mp (isTransmitted ▸ meets.clear)
  have isLater : Transmitted later := by
    refine ⟨fun elem member => is.whole elem ?_, fun elem member => is.other elem ?_⟩
    · exact isTransmitted ▸ List.mem_append_right _ member
    · exact isTransmitted ▸ List.mem_append_right _ member
  have isLen : (encode transmitted).length = (encode skipped).length + (encode later).length := by
    rw [isTransmitted, encode_append, List.length_append]
  have enough : later.length ≤ (encode transmitted).length := by
    have := two_le_length_encode later
    omega
  rw [← isTransmitted] at isInherit
  obtain ⟨elems', heads, merged⟩ := @mergeLoop_eq elems (encode skipped)
    (encode (elems.find? fun elem : Elem => decide (elem.id = 0)).toList)
    (encode transmitted).length lists
    (findNinh (encode elems)) behind later (encode transmitted).length enough isLen isLater
    ⟨⟨profile.whole, profile.noMbssid⟩, parsed⟩ clear (by rw [← isInherit]; exact fits)
  have memory : encode transmitted ++ behind = encode skipped ++ (encode later ++ behind) := by
    rw [isTransmitted, encode_append, List.append_assoc]
  have isWhole := merged.split
  rw [← isInherit, filter_live] at isWhole
  have taken : ((elems'.filter isRest).map (Origin.profile, ·)).map Prod.snd =
      elems'.filter isRest := by
    rw [List.map_map]
    exact List.map_id _
  rw [isWhole, List.map_append, encode_append, taken] at isGenerated fits
  have last :=
    @restLoop_eq elems' [] (encode (elems.find? fun elem : Elem => decide (elem.id = 0)).toList ++
    encode (heads.map Prod.snd)) (encode transmitted).length (encode elems).length
        (encode elems).length (by
      have := two_le_length_encode elems'
      have := merged.length
      omega) merged.copy.whole (by rw [List.length_nil, Nat.zero_add, merged.length])
      (by rw [List.length_append] at fits ⊢; omega)
  unfold genNewIe
  dsimp only
  rw [decide_eq_false notEmpty, meets.copied, if_neg (by decide), putSsid_eq elems (by omega),
    isStart, isCopy, memory,
    merged.isMerge, isGenerated]
  rw [List.nil_append] at last
  exact last.trans (List.append_assoc ..)

/-! ### Nothing is lost -/

theorem isRest_of_identity {elem own : Elem} (same : identity own = identity elem)
    (notSsid : elem.id ≠ 0) (other : elem.id ≠ 83 ∧ elem.id ≠ 85 ∧ isNonInheritance elem = false) :
        isRest own = true := by
  unfold isRest
  rw [id_eq_of_identity same, isNonInheritance_of_identity same, other.2.2,
    decide_eq_true ⟨other.1, notSsid, other.2.1⟩]
  rfl

/-- What is taken out of a list goes in front of it. -/
theorem perm_cons_eraseP {test : Elem → Bool} (found : elems.find? test = some own) :
    List.Perm elems (own :: elems.eraseP test) := by
  obtain ⟨isIt, before, after, rfl, none⟩ := List.find?_eq_some_iff_append.mp found
  have notBefore : ∀ other ∈ before, ¬ test other = true := fun other member isTest =>
    absurd (none other member) (by rw [isTest]; decide)
  rw [List.eraseP_append_right _ notBefore, List.eraseP_cons_of_pos isIt]
  exact List.perm_middle

theorem owns_inherit_perm {listed : Elem → Bool} {transmitted : List Elem}
    (is : Transmitted transmitted) (profile : List Elem) :
        List.Perm (owns (inherit listed transmitted profile)) (profile.filter isRest) := by
  induction transmitted generalizing profile with
  | nil =>
    have all : ((profile.filter isRest).map (Origin.profile, ·)).filter
      (fun elem => decide (elem.1 = Origin.profile)) =
        (profile.filter isRest).map (Origin.profile, ·) := by
      refine List.filter_eq_self.mpr fun elem member => ?_
      obtain ⟨own, _, rfl⟩ := List.mem_map.mp member
      rfl
    unfold owns
    rw [inherit, all, List.map_map]
    exact .of_eq (List.map_id _)
  | cons elem transmitted ih =>
    have further := @ih ⟨fun other member => is.whole other (List.mem_cons_of_mem _ member),
      fun other member => is.other other (List.mem_cons_of_mem _ member)⟩
    have other := is.other elem List.mem_cons_self
    rw [inherit]
    split
    case isTrue => exact further profile
    case isFalse some =>
      split
      case h_1 own found =>
        have same : identity own = identity elem :=
          of_decide_eq_true
            (@List.find?_some _ (fun own => decide (identity own = identity elem)) _ _ found)
        have isIt : isRest own = true :=
          isRest_of_identity same (fun isSsid => some (.inl isSsid)) other
        have split := (perm_cons_eraseP found).filter isRest
        rw [List.filter_cons_of_pos isIt] at split
        exact ((further _).cons own).trans split.symm
      case h_2 =>
        split
        case isTrue => exact further profile
        case isFalse => exact further profile

/-- **No element of the profile is lost or taken twice.** -/
theorem own_perm {transmitted : List Elem} (is : Transmitted transmitted)
    (profile : Profile lists elems) :
    List.Perm (owns (generated lists transmitted elems)) (elems.filter isKept) := by
  have ssid : (elems.find? fun elem => decide (elem.id = 0)).toList =
      elems.filter fun elem => decide (elem.id = 0) := by
    rw [← List.head?_filter]
    cases found : elems.filter fun elem => decide (elem.id = 0) with
    | nil => rfl
    | cons ssid more =>
      have atMost := profile.ssid
      rw [found, List.length_cons] at atMost
      rw [List.length_eq_zero_iff.mp (Nat.le_zero.mp (Nat.le_of_succ_le_succ atMost))]
      rfl
  have first :
    owns ((elems.find? fun elem => decide (elem.id = 0)).toList.map (Origin.profile, ·)) =
      elems.filter fun elem => decide (elem.id = 0) := by
    rw [← ssid]
    cases elems.find? fun elem => decide (elem.id = 0) with
    | none => rfl
    | some elem => rfl
  have kept : (elems.filter isKept).filter (fun elem => decide (elem.id = 0)) =
      elems.filter fun elem => decide (elem.id = 0) := by
    rw [List.filter_filter]
    refine List.filter_congr fun elem _ => ?_
    by_cases isSsid : elem.id = 0
    · simp [isSsid, isKept, isNonInheritance]
    · simp [isSsid]
  have others : (elems.filter isKept).filter (fun elem => !decide (elem.id = 0)) =
      elems.filter isRest := by
    rw [List.filter_filter]
    refine List.filter_congr fun elem _ => ?_
    unfold isKept isRest
    by_cases isSsid : elem.id = 0
    · simp [isSsid]
    · simp [isSsid]
  have split : owns (generated lists transmitted elems) =
    (elems.filter fun elem => decide (elem.id = 0)) ++
      owns (inherit lists.listed transmitted (live elems)) := by
    rw [← first]
    unfold owns generated
    rw [List.filter_append, List.map_append]
    rfl
  have rest := @owns_inherit_perm lists.listed transmitted is (live elems)
  rw [filter_live] at rest
  have whole := List.filter_append_perm (fun elem => decide (elem.id = 0)) (elems.filter isKept)
  rw [kept, others] at whole
  rw [split]
  exact (rest.append_left _).trans whole

/-- An SSID in front has nothing before it. -/
theorem ssidFirst_of_head {transmitted : List Elem} (isSsid : elem.id = 0) (before : List Elem)
    (own : Elem) (after : List Elem) (split : elem :: transmitted = before ++ own :: after)
    (_ : own.id = 0) (none : ∀ other ∈ before, other.id ≠ 0) : ∀ other ∈ before, other.id = 71 := by
  cases before with
  | nil => exact fun other member => absurd member List.not_mem_nil
  | cons first before =>
    obtain ⟨rfl, _⟩ := List.cons.inj split
    exact absurd isSsid (none elem List.mem_cons_self)

/-- **The elements of a non-transmitted BSS** are those of the rule, each element of the profile
once. -/
theorem new_elements {alloc : Bool} {transmitted : List Elem} (behind : List Nat)
    (is : Transmitted transmitted) (profile : Profile lists elems)
    (meets : Meets lists alloc transmitted elems)
        (fits : (encode ((generated lists transmitted elems).map Prod.snd)).length ≤
          (encode transmitted).length) :
    genNewIe alloc (encode transmitted ++ behind) (encode transmitted).length (encode elems) =
        encode ((generated lists transmitted elems).map Prod.snd) ∧
      List.Perm (owns (generated lists transmitted elems)) (elems.filter isKept) :=
  ⟨genNewIe_eq behind is profile meets fits, own_perm is profile⟩

/-- Rates and a vendor's element are replaced, HT capabilities are not taken over. -/
theorem rates_replaced :
    genNewIe true
    (encode [⟨0, [97, 98, 99]⟩, ⟨1, [2, 4, 11, 22]⟩, ⟨71, [1]⟩, ⟨45, [0, 1, 2, 3, 4, 5]⟩,
        ⟨221, [0, 1, 2, 3, 4, 9]⟩, ⟨48, [1, 0]⟩] ++ [1, 2, 3, 4]) 34
        (encode [⟨83, [1, 4]⟩, ⟨0, [120]⟩, ⟨85, [1]⟩, ⟨1, [12]⟩, ⟨221, [0, 1, 2, 3, 4, 8]⟩,
          nonInheritance [45] [], ⟨70, [1]⟩]) =
        encode [⟨0, [120]⟩, ⟨1, [12]⟩, ⟨221, [0, 1, 2, 3, 4, 8]⟩, ⟨48, [1, 0]⟩, ⟨70, [1]⟩] :=
  (@new_elements [⟨83, [1, 4]⟩, ⟨0, [120]⟩, ⟨85, [1]⟩, ⟨1, [12]⟩, ⟨221, [0, 1, 2, 3, 4, 8]⟩,
    nonInheritance [45] [],
      ⟨70, [1]⟩] ⟨[45], []⟩ true [⟨0, [97, 98, 99]⟩, ⟨1, [2, 4, 11, 22]⟩, ⟨71, [1]⟩,
      ⟨45, [0, 1, 2, 3, 4, 5]⟩,
      ⟨221, [0, 1, 2, 3, 4, 9]⟩, ⟨48, [1, 0]⟩] [1, 2, 3, 4] ⟨by decide, by decide⟩
    ⟨by decide, by decide, by decide, by decide, .inl (by decide)⟩
    ⟨rfl, ssidFirst_of_head rfl, .inr (by decide), by
      simp [Clear, identity, Lists.listed, nonInheritance]⟩ (by decide)).1

/-- A vendor's element of the profile that is not its first one is not found, and both are taken
over. -/
theorem vendor_not_replaced :
    ¬ ∀ (lists : Lists) (transmitted profile : List Elem) (behind : List Nat),
    Transmitted transmitted →
      Profile lists profile →
      (encode ((generated lists transmitted profile).map Prod.snd)).length ≤
      (encode transmitted).length →
      genNewIe true (encode transmitted ++ behind) (encode transmitted).length (encode profile) =
        encode ((generated lists transmitted profile).map Prod.snd) := by
  intro all
  have replaced := all ⟨[], []⟩ [⟨0, List.replicate 20 97⟩, ⟨221, [0, 1, 2, 3, 4, 9]⟩]
    [⟨83, [1, 4]⟩, ⟨0, [120]⟩, ⟨85, [1]⟩, ⟨221, [5, 6, 7, 8, 9]⟩, ⟨221, [0, 1, 2, 3, 4, 8]⟩] []
    ⟨by decide, by decide⟩ ⟨by decide, by decide, by decide, by decide, .inr (by decide)⟩
    (by decide)
  exact absurd replaced (by decide)

end Qsdk.Inheritance
