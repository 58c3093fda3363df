/-
**The records of a report.**

At the start of each round the report is what is left of the records so far, the records that are
still to come, and bytes that do not count any more. So the loop meets each record once
(`editLoop_eq`), and in the end the report and its lengths are those of what is left.
-/

import Qsdk.Multicast.ReportEdit

namespace Qsdk.ReportEdit

open Words

/-! ### Bytes that are moved -/

theorem moveDown_eq (front out back rest : List Nat) :
    moveDown (front ++ (out ++ (back ++ rest))) front.length
    (front.length + out.length) back.length =
      front ++ (back ++ ((out ++ back).drop back.length ++ rest)) := by
  have source : (front ++ (out ++ (back ++ rest))).drop (front.length + out.length) =
      back ++ rest := by
    rw [← List.append_assoc, ← List.length_append, List.drop_left]
  have behind : (front ++ (out ++ (back ++ rest))).drop (front.length + back.length) =
      (out ++ back).drop back.length ++ rest := by
    rw [List.drop_append, List.drop_eq_nil_of_le (Nat.le_add_right ..), Nat.add_sub_cancel_left,
      List.nil_append,
      ← List.append_assoc, List.drop_append_of_le_length
      (by rw [List.length_append]; exact Nat.le_add_left ..)]
  unfold moveDown
  rw [List.take_left, source, List.take_left, behind, List.append_assoc]

theorem length_flatten_of {src : Nat} {srcs : List (List Nat)}
    (sizes : ∀ bytes ∈ srcs, bytes.length = src) :
    srcs.flatten.length = srcs.length * src := by
  induction srcs with
  | nil => rw [List.flatten_nil, List.length_nil, List.length_nil, Nat.zero_mul]
  | cons first srcs ih =>
    obtain ⟨size, sizes⟩ := List.forall_mem_cons.mp sizes
    rw [List.flatten_cons, List.length_append, ih sizes, size, List.length_cons, Nat.succ_mul,
      Nat.add_comm]

/-- **The filter** leaves the sources that are not suppressed in front, in their order. -/
theorem sourceListFilter_eq {src rounds : Nat} (suppressed : List Nat → Bool) (front : List Nat)
    (done todo : List (List Nat)) (behind : List Nat)
    (sizes : ∀ bytes ∈ done ++ todo, bytes.length = src) (enough : todo.length ≤ rounds) :
    ∃ junk, sourceListFilter src suppressed front.length rounds
        (front ++ (done.flatten ++ (todo.flatten ++ behind))) done.length
        (done.length + todo.length) =
          (front ++
            (done.flatten ++
              ((todo.filter fun bytes => !suppressed bytes).flatten ++ (junk ++ behind))),
            done.length + (todo.filter fun bytes => !suppressed bytes).length) ∧
      junk.length + (todo.filter fun bytes => !suppressed bytes).length * src =
          todo.length * src := by
  induction todo generalizing done behind rounds with
  | nil =>
    refine ⟨[], ?_, by simp⟩
    cases rounds with
    | zero => rfl
    | succ rounds => exact if_neg (Nat.lt_irrefl _)
  | cons first todo ih =>
    obtain ⟨rounds, rfl⟩ := Nat.exists_eq_add_of_lt (Nat.lt_of_lt_of_le (Nat.succ_pos _) enough)
    rw [Nat.zero_add] at enough ⊢
    have size := sizes first (List.mem_append_right _ List.mem_cons_self)
    have doneLength :=
      length_flatten_of (fun bytes member => sizes bytes (List.mem_append_left _ member))
    have todoLength := length_flatten_of (fun bytes member =>
      sizes bytes (List.mem_append_right _ (List.mem_cons_of_mem _ member)) :
        ∀ bytes ∈ todo, bytes.length = src)
    have place : front.length + done.length * src = (front ++ done.flatten).length := by
      rw [List.length_append, doneLength]
    have shape : front ++ (done.flatten ++ ((first :: todo).flatten ++ behind)) =
        front ++ done.flatten ++ (first ++ (todo.flatten ++ behind)) := by
      rw [List.flatten_cons, List.append_assoc, List.append_assoc]
    have isFirst : ((front ++ done.flatten ++ (first ++ (todo.flatten ++ behind))).drop
        (front ++ done.flatten).length).take src = first := by
      rw [List.drop_left]
      exact List.take_left' size
    have lt : done.length < done.length + (first :: todo).length :=
      Nat.lt_add_of_pos_right (Nat.succ_pos _)
    rw [sourceListFilter, if_pos lt, place, shape, isFirst]
    cases out : suppressed first with
    | true =>
      have count : (done.length + (first :: todo).length - 1 - done.length) * src =
          todo.flatten.length := by
        rw [List.length_cons, todoLength, show done.length + (todo.length + 1) - 1 - done.length =
          todo.length by omega]
      have fewer : done.length + (first :: todo).length - 1 = done.length + todo.length := by
        rw [List.length_cons]
        omega
      rw [if_pos rfl, count, ← size, moveDown_eq, fewer, List.append_assoc front, size]
      obtain ⟨junk, isFilter, length⟩ :=
        ih done ((first ++ todo.flatten).drop todo.flatten.length ++ behind)
        (fun bytes member => sizes bytes (by
          rcases List.mem_append.mp member with isIn | isIn
          · exact List.mem_append_left _ isIn
          · exact List.mem_append_right _ (List.mem_cons_of_mem _ isIn)))
        (Nat.le_of_succ_le_succ enough)
      rw [List.filter_cons_of_neg (by rw [out]; decide)]
      refine ⟨junk ++ (first ++ todo.flatten).drop todo.flatten.length, ?_, ?_⟩
      · rw [isFilter, List.append_assoc junk]
      · rw [List.length_append, List.length_drop, List.length_append, size, List.length_cons,
          Nat.succ_mul]
        omega
    | false =>
      obtain ⟨junk, isFilter, length⟩ :=
          ih (done ++ [first]) behind (fun bytes member => sizes bytes (by
        rw [List.append_assoc] at member
        exact member)) (Nat.le_of_succ_le_succ enough)
      have isDone : (done ++ [first]).flatten = done.flatten ++ first := by
        rw [List.flatten_append, List.flatten_singleton]
      rw [isDone, List.length_append, List.length_singleton, List.append_assoc done.flatten,
        Nat.add_assoc,
        Nat.add_comm 1] at isFilter
      rw [if_neg Bool.false_ne_true, List.filter_cons_of_pos (by rw [out]; rfl), List.flatten_cons,
        List.length_cons,
        List.length_cons, List.append_assoc front, isFilter]
      refine ⟨junk, ?_, ?_⟩
      · rw [List.append_assoc done.flatten, List.append_assoc first, Nat.add_assoc done.length 1,
          Nat.add_comm 1]
      · rw [Nat.succ_mul, Nat.succ_mul]
        omega

/-! ### One record -/

variable {format : Format} {grec : Grec} {grecs : List Grec} {outcome : Outcome}
    {front junk tail : List Nat}
  {edit : Edit} {skbLen : Nat}

theorem be16At_here {value : Nat} (small : value < 65536) (front rest : List Nat) :
    be16At (front ++ (value / 256 % 256 :: value % 256 :: rest)) front.length = value := by
  unfold be16At
  rw [List.getElem?_append_right (Nat.le_refl _), List.getElem?_append_right (Nat.le_add_right ..),
    Nat.sub_self,
    Nat.add_sub_cancel_left]
  exact be16_split small

theorem putBe16_here (value old old' : Nat) (front rest : List Nat) :
    putBe16 (front ++ (old :: old' :: rest)) front.length value =
      front ++ (value / 256 % 256 :: value % 256 :: rest) := by
  unfold putBe16
  rw [List.set_append_right _ _ (Nat.le_refl _), List.set_append_right _ _ (Nat.le_add_right ..),
    Nat.sub_self,
    Nat.add_sub_cancel_left]
  rfl

/-- A record with any sources. -/
def Grec.withSrcs (grec : Grec) (srcs : List (List Nat)) : Grec := { grec with srcs := srcs }

theorem Grec.Fits.length_bytes (fits : grec.Fits format) :
    grec.bytes.length = format.grec + grec.srcs.length * format.src := by
  have kind := fits.kind
  have group := fits.group
  unfold Grec.bytes
  rw [List.length_append, List.length_append, List.length_append, length_flatten_of fits.srcs]
  simp only [List.length_cons, List.length_nil]
  omega

/-- What the number of sources is read from. -/
theorem Grec.bytes_append (grec : Grec) (front rest : List Nat) :
    front ++ (grec.bytes ++ rest) = (front ++ grec.kind) ++
    (grec.srcs.length / 256 % 256 :: grec.srcs.length % 256 ::
      (grec.group ++ (grec.srcs.flatten ++ rest))) := by
  unfold Grec.bytes
  simp only [List.append_assoc, List.cons_append, List.nil_append]

theorem Grec.Fits.number_at (fits : grec.Fits format) (front rest : List Nat) :
    be16At (front ++ (grec.bytes ++ rest)) (front.length + 2) = grec.srcs.length := by
  have place : front.length + 2 = (front ++ grec.kind).length := by
    rw [List.length_append, fits.kind]
  rw [grec.bytes_append, place]
  exact be16At_here fits.number _ _

/-- The report at the start of a round. -/
structure Edit.At (skbLen : Nat) (edit : Edit) (front : List Nat) (grecs : List Grec) : Prop where
  data : ∃ junk, edit.data = front ++ (encodeAll grecs ++ junk)
  len : edit.len = front.length
  prevOffset : edit.prevOffset = front.length
  tlen : edit.tlen = front.length + (encodeAll grecs).length
  total : edit.data.length = skbLen

/-- What a round has done. -/
structure Rounded (skbLen : Nat) (edit edit' : Edit) (front : List Nat) (grec : Grec)
    (grecs : List Grec) (left : Option Grec) (edits : Bool) : Prop where
  at' : edit'.At skbLen (front ++ encodeAll left.toList) grecs
  ngroup : edit'.ngroup + 1 = edit.ngroup + left.toList.length
  rebuild : edit'.rebuild = (edit.rebuild || edits)
  processed : edit'.processed = edit.processed ++ [grec.bytes]

theorem encodeAll_cons (grec : Grec) (grecs : List Grec) : encodeAll (grec :: grecs) = grec.bytes ++
    encodeAll grecs :=
  List.flatMap_cons

theorem encodeAll_singleton (grec : Grec) : encodeAll [grec] = grec.bytes := by
  rw [encodeAll_cons]
  exact List.append_nil _

/-- Nothing is taken out of the record. -/
theorem Edit.At.pass (isAt : edit.At skbLen front (grec :: grecs)) (edit' : Edit) {len : Nat}
    (isLen : len = front.length + grec.bytes.length) (data : edit'.data = edit.data)
    (tlen : edit'.tlen = edit.tlen) :
    (edit'.pass len).At skbLen (front ++ encodeAll (some grec).toList) grecs := by
  obtain ⟨junk, isData⟩ := isAt.data
  have isTlen := isAt.tlen
  rw [encodeAll_cons] at isData isTlen
  rw [List.length_append] at isTlen
  have one : encodeAll (some grec).toList = grec.bytes := encodeAll_singleton grec
  have isLen' : len = (front ++ grec.bytes).length := by rw [isLen, List.length_append]
  rw [one]
  refine ⟨⟨junk, ?_⟩, isLen', isLen', ?_, ?_⟩
  · rw [show (edit'.pass len).data = edit'.data from rfl, data, isData, List.append_assoc,
      List.append_assoc]
  · rw [show (edit'.pass len).tlen = edit'.tlen from rfl, tlen, isTlen, List.length_append,
      Nat.add_assoc]
  · rw [show (edit'.pass len).data = edit'.data from rfl, data]
    exact isAt.total

/-- The whole record is taken out, with any bytes of its size. -/
theorem Edit.delGrec_at {out : List Nat} {len : Nat}
    (isData : edit.data = front ++ (out ++ (encodeAll grecs ++ junk)))
    (isLen : len = front.length + out.length) (prevOffset : edit.prevOffset = front.length)
    (tlen : edit.tlen = front.length + out.length + (encodeAll grecs).length)
    (total : edit.data.length = skbLen) :
    ∃ edit', edit.delGrec len = some edit' ∧ edit'.At skbLen front grecs ∧
    edit'.ngroup = edit.ngroup - 1 ∧
      edit'.rebuild = true ∧ edit'.processed = edit.processed := by
  have moved : moveDown edit.data edit.prevOffset len (edit.tlen - len) =
      front ++ (encodeAll grecs ++
          ((out ++ encodeAll grecs).drop (encodeAll grecs).length ++ junk)) := by
    rw [isData, prevOffset, isLen, tlen, Nat.add_sub_cancel_left, moveDown_eq]
  unfold Edit.delGrec
  rw [if_neg (by omega)]
  refine ⟨_, rfl, ⟨⟨_, moved⟩, prevOffset, prevOffset, ?_, ?_⟩, rfl, rfl, rfl⟩
  · dsimp only
    omega
  · dsimp only
    rw [moved, ← total, isData]
    simp only [List.length_append, List.length_drop]
    omega

/-- The sources behind those that are left are taken out. -/
theorem Edit.delSources_at {out left : List Nat} {len bytes : Nat}
    (isData : edit.data = front ++ (left ++ (out ++ (encodeAll grecs ++ junk))))
    (isLen : len = front.length + left.length + out.length) (isBytes : bytes = out.length)
    (tlen : edit.tlen = front.length + left.length + out.length + (encodeAll grecs).length)
    (total : edit.data.length = skbLen) :
    ∃ edit', edit.delSources len bytes = some edit' ∧ edit'.At skbLen (front ++ left) grecs ∧
      edit'.ngroup = edit.ngroup ∧ edit'.rebuild = true ∧ edit'.processed = edit.processed := by
  have place : len - bytes = (front ++ left).length := by
    rw [List.length_append]
    omega
  have isLen' : len = (front ++ left).length + out.length := by
    rw [List.length_append]
    exact isLen
  have moved : moveDown edit.data (len - bytes) len (edit.tlen - len) =
      front ++ left ++
          (encodeAll grecs ++
            ((out ++ encodeAll grecs).drop (encodeAll grecs).length ++ junk)) := by
    rw [isData, place, isLen', tlen, ← List.append_assoc, List.length_append,
      Nat.add_sub_cancel_left,
      ← List.length_append, moveDown_eq]
  unfold Edit.delSources
  rw [if_neg (by omega)]
  refine ⟨_, rfl, ⟨⟨_, moved⟩, place, place, ?_, ?_⟩, rfl, rfl, rfl⟩
  · dsimp only
    rw [List.length_append]
    omega
  · dsimp only
    rw [moved, ← total, isData]
    simp only [List.length_append, List.length_drop]
    omega

/-- The record after the filter: those that are left, and bytes that do not count. -/
theorem Grec.Fits.filtered (fits : grec.Fits format) (suppressed : List Nat → Bool)
    (front rest : List Nat) :
    ∃ out, putBe16
    (sourceListFilter format.src suppressed (front.length + format.grec) grec.srcs.length
          (front ++ (grec.bytes ++ rest)) 0 grec.srcs.length).1 (front.length + 2)
        (grec.srcs.filter fun bytes => !suppressed bytes).length =
          front ++ ((grec.withSrcs (grec.srcs.filter fun bytes => !suppressed bytes)).bytes ++
            (out ++ rest)) ∧
      (sourceListFilter format.src suppressed (front.length + format.grec) grec.srcs.length
          (front ++ (grec.bytes ++ rest)) 0 grec.srcs.length).2 =
        (grec.srcs.filter fun bytes => !suppressed bytes).length ∧
      out.length + (grec.srcs.filter fun bytes => !suppressed bytes).length * format.src =
        grec.srcs.length * format.src := by
  have kind := fits.kind
  have group := fits.group
  have place : front.length + format.grec = (front ++ grec.kind ++
      (grec.srcs.length / 256 % 256 :: grec.srcs.length % 256 :: grec.group)).length := by
    simp only [List.length_append, List.length_cons]
    omega
  have shape : front ++ (grec.bytes ++ rest) = front ++ grec.kind ++
      (grec.srcs.length / 256 % 256 :: grec.srcs.length % 256 :: grec.group) ++
        (([] : List (List Nat)).flatten ++ (grec.srcs.flatten ++ rest)) := by
    rw [grec.bytes_append]
    simp only [List.append_assoc, List.cons_append, List.flatten_nil, List.nil_append]
  obtain ⟨out, isFilter, length⟩ := @sourceListFilter_eq format.src grec.srcs.length suppressed
    (front ++ grec.kind ++
    (grec.srcs.length / 256 % 256 :: grec.srcs.length % 256 :: grec.group)) [] grec.srcs rest
    (fun bytes member => fits.srcs bytes member) (Nat.le_refl _)
  rw [List.length_nil, Nat.zero_add, Nat.zero_add] at isFilter
  rw [place, shape, isFilter]
  refine ⟨out, ?_, rfl, length⟩
  have atNumber : front.length + 2 = (front ++ grec.kind).length := by rw [List.length_append, kind]
  dsimp only
  rw [Grec.bytes_append, atNumber, List.append_assoc (front ++ grec.kind), List.cons_append,
    List.cons_append,
    putBe16_here]
  simp only [Grec.withSrcs, List.flatten_nil, List.nil_append]

/-- **One round.** -/
theorem Edit.At.round (isAt : edit.At skbLen front (grec :: grecs)) (fits : grec.Fits format)
    (pulled : format.pulled ≤ format.grec) (enough : 1 ≤ edit.ngroup) (outcome : Outcome) :
    ∃ edit', edit.round format skbLen outcome = some edit' ∧
      Rounded skbLen edit edit' front grec grecs (outcome.left grec) (outcome.edits grec) := by
  obtain ⟨junk, isData⟩ := isAt.data
  have isTlen := isAt.tlen
  have isTotal := isAt.total
  rw [encodeAll_cons, List.length_append] at isTlen
  rw [encodeAll_cons, List.append_assoc] at isData
  have length := fits.length_bytes
  have lengths : skbLen = front.length +
      (grec.bytes.length + ((encodeAll grecs).length + junk.length)) := by
    rw [← isTotal, isData, List.length_append, List.length_append, List.length_append]
  have isNumber : be16At edit.data (front.length + 2) = grec.srcs.length := by
    rw [isData]
    exact fits.number_at front _
  have isLen : front.length + format.grec + grec.srcs.length * format.src =
    front.length + grec.bytes.length := by omega
  have met : (edit.data.drop front.length).take
      (front.length + format.grec + grec.srcs.length * format.src - front.length) = grec.bytes := by
    rw [isData, List.drop_left, isLen, Nat.add_sub_cancel_left, List.take_left]
  unfold Edit.round
  dsimp only
  rw [isAt.len, if_neg (by omega), isNumber, if_neg (by omega), met]
  cases outcome with
  | keep =>
    exact ⟨_, rfl, isAt.pass { edit with processed := edit.processed ++ [grec.bytes] } isLen
      rfl rfl, rfl,
      (Bool.or_false _).symm, rfl⟩
  | whole =>
    obtain ⟨edit', isDel, at', ngroup, rebuild, processed⟩ := @Edit.delGrec_at grecs front junk
      { edit with processed := edit.processed ++ [grec.bytes] } skbLen grec.bytes _ isData isLen
      isAt.prevOffset
      (by dsimp only; omega) isTotal
    refine ⟨edit', isDel, ?_, ?_, ?_, processed⟩
    · rw [show encodeAll (Outcome.left .whole grec).toList = [] from rfl, List.append_nil]
      exact at'
    · rw [ngroup]
      exact Nat.sub_add_cancel enough
    · rw [rebuild]
      exact (Bool.or_true _).symm
  | sources suppressed =>
    obtain ⟨out, isPut, isCount, outLength⟩ :=
      fits.filtered suppressed front (encodeAll grecs ++ junk)
    rw [← isData] at isPut isCount
    dsimp only
    rw [isCount, isPut]
    generalize isKept : grec.srcs.filter (fun bytes => !suppressed bytes) =
      kept at isPut isCount outLength ⊢
    have isLeft : Outcome.left (.sources suppressed) grec =
        if kept.length = grec.srcs.length then Option.some grec else if kept = [] then none
          else Option.some (grec.withSrcs kept) := by
      rw [← isKept]
      rfl
    have isEdits : Outcome.edits (.sources suppressed) grec =
        decide (kept.length ≠ grec.srcs.length) := by
      rw [← isKept]
      rfl
    have keptLe : kept.length ≤ grec.srcs.length := by
      rw [← isKept]
      exact List.length_filter_le _ _
    have keptSrcs : ∀ src ∈ kept, src.length = format.src := by
      intro src member
      rw [← isKept] at member
      exact fits.srcs src (List.mem_filter.mp member).1
    have keptFits : (grec.withSrcs kept).Fits format :=
      ⟨fits.kind, fits.group, keptSrcs, Nat.lt_of_le_of_lt keptLe fits.number⟩
    have keptLength := keptFits.length_bytes
    have keptNumber : (grec.withSrcs kept).srcs.length = kept.length := rfl
    rw [keptNumber] at keptLength
    rw [isLeft, isEdits]
    by_cases all : kept.length = grec.srcs.length
    · have isAll : kept = grec.srcs := by
        rw [← isKept] at all ⊢
        exact List.filter_eq_self.mpr (List.length_filter_eq_length_iff.mp all)
      have nothing : out = [] := by
        rw [all] at outLength
        exact List.length_eq_zero_iff.mp (by omega)
      have unchanged : front ++ ((grec.withSrcs kept).bytes ++ (out ++ (encodeAll grecs ++ junk))) =
          edit.data := by
        rw [isAll, nothing, isData]
        rfl
      rw [if_pos (by omega), if_pos all, decide_eq_false (not_not.mpr all)]
      exact ⟨_, rfl, isAt.pass { edit with
          data := front ++ ((grec.withSrcs kept).bytes ++ (out ++ (encodeAll grecs ++ junk)))
          processed := edit.processed ++ [grec.bytes] } isLen unchanged rfl, rfl,
            (Bool.or_false _).symm, rfl⟩
    · rw [if_neg (by omega), if_neg all, decide_eq_true all]
      by_cases none : kept = []
      · have noLength : kept.length = 0 := List.length_eq_zero_iff.mpr none
        rw [if_pos noLength, if_pos none]
        obtain ⟨edit', isDel, at', ngroup, rebuild, processed⟩ := @Edit.delGrec_at grecs front junk
          { edit with
            data := front ++ ((grec.withSrcs kept).bytes ++ (out ++ (encodeAll grecs ++ junk)))
            processed := edit.processed ++ [grec.bytes] } skbLen ((grec.withSrcs kept).bytes ++ out)
          (front.length + format.grec + grec.srcs.length * format.src) (by rw [List.append_assoc])
          (by rw [List.length_append]; omega) isAt.prevOffset
          (by dsimp only; rw [List.length_append]; omega)
          (by dsimp only; simp only [List.length_append]; omega)
        refine ⟨edit', isDel, ?_, ?_, ?_, processed⟩
        · rw [show encodeAll (Option.none : Option Grec).toList = [] from rfl, List.append_nil]
          exact at'
        · rw [ngroup]
          exact Nat.sub_add_cancel enough
        · rw [rebuild]
          exact (Bool.or_true _).symm
      · have someLength : kept.length ≠ 0 := fun empty => none (List.length_eq_zero_iff.mp empty)
        have isOut : (grec.srcs.length - kept.length) * format.src = out.length := by
          rw [Nat.sub_mul]
          omega
        rw [if_neg someLength, if_neg none]
        obtain ⟨edit', isDel, at', ngroup, rebuild, processed⟩ :=
          @Edit.delSources_at grecs front junk
          { edit with
            data := front ++ ((grec.withSrcs kept).bytes ++ (out ++ (encodeAll grecs ++ junk)))
            processed := edit.processed ++ [grec.bytes] } skbLen out (grec.withSrcs kept).bytes
          (front.length + format.grec + grec.srcs.length * format.src) _ rfl (by omega) isOut
          (by dsimp only; omega) (by dsimp only; simp only [List.length_append]; omega)
        have one : encodeAll (Option.some (grec.withSrcs kept)).toList =
            (grec.withSrcs kept).bytes :=
          encodeAll_singleton _
        refine ⟨edit', isDel, ?_, congrArg (· + 1) ngroup,
          rebuild.trans (Bool.or_true _).symm, processed⟩
        rw [one]
        exact at'

/-! ### The loop -/

/-- **Each record is met once**, and what is left of the records is put together. -/
theorem editLoop_eq (outcome : Nat → Outcome) (i : Nat) (isAt : edit.At skbLen front grecs)
    (fits : ∀ grec ∈ grecs, grec.Fits format) (pulled : format.pulled ≤ format.grec)
    (enough : grecs.length ≤ edit.ngroup) :
    ∃ edit', editLoop format skbLen outcome grecs.length i edit = some edit' ∧
      edit'.At skbLen (front ++ encodeAll (leftOf outcome i grecs)) [] ∧
      edit'.ngroup + grecs.length = edit.ngroup + (leftOf outcome i grecs).length ∧
      edit'.rebuild = (edit.rebuild || editsOf outcome i grecs) ∧
      edit'.processed = edit.processed ++ grecs.map Grec.bytes := by
  induction grecs generalizing front edit i with
  | nil =>
    refine ⟨edit, rfl, ?_, rfl, (Bool.or_false _).symm, (List.append_nil _).symm⟩
    rw [show encodeAll (leftOf outcome i []) = [] from rfl, List.append_nil]
    exact isAt
  | cons grec grecs ih =>
    obtain ⟨isFit, fits⟩ := List.forall_mem_cons.mp fits
    rw [List.length_cons] at enough
    obtain ⟨edit', isRound, rounded⟩ := isAt.round isFit pulled (by omega) (outcome i)
    have left := rounded.ngroup
    obtain ⟨last, isLoop, at', ngroup, rebuild, processed⟩ := ih (i + 1) rounded.at' fits (by omega)
    have isEncoded : encodeAll (leftOf outcome i (grec :: grecs)) =
        encodeAll ((outcome i).left grec).toList ++ encodeAll (leftOf outcome (i + 1) grecs) := by
      rw [leftOf]
      exact List.flatMap_append
    refine ⟨last, ?_, ?_, ?_, ?_, ?_⟩
    · rw [List.length_cons, editLoop, isRound]
      exact isLoop
    · rw [isEncoded, ← List.append_assoc]
      exact at'
    · rw [leftOf, List.length_append, List.length_cons]
      omega
    · rw [rebuild, rounded.rebuild, editsOf, Bool.or_assoc]
    · rw [processed, rounded.processed, List.map_cons, List.append_assoc]
      rfl

end Qsdk.ReportEdit
