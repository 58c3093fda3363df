/-
**The window check of TCP.**

Sequence numbers are numbers modulo 2^32. `sfe_ipv4_recv_tcp` compares them by their signed
differences, so its check does not depend on where the numbers of the two directions start
(`afterOptions_shift`), with one exception: the acknowledgement that it goes by is the largest
number among the acknowledgement and the right edges of the SACK blocks, compared as plain numbers.
This is the latest of them exactly if they are less than 2^31 apart as plain numbers
(`Largest.latest_iff`).
-/

import Qsdk.Sfe.Basic
import Qsdk.Sfe.TcpOptions
import Mathlib.Tactic.Ring

namespace Qsdk.Sfe.Ipv4

/-- A segment with an acknowledgement, as far as the check reads it. `len` is the length of the
packet, with an IP header of 20 bytes. -/
structure TcpSegment where
  seq : BitVec 32
  ackSeq : BitVec 32
  doff : BitVec 4
  window : BitVec 16
  memory : Memory
  len : BitVec 32

/-- The exceptions with which the check has the connection removed and flushed. -/
inductive WindowException
  | seqExceedsRightEdge
  | smallDataOffs
  | badSack
  | bigDataOffs
  | seqBeforeLeftEdge
  | ackExceedsRightEdge
  | ackBeforeLeftEdge
  deriving DecidableEq, Repr

/-- `SFE_IPV4_TCP_MAX_ACK_WINDOW`. -/
def tcpMaxAckWindow : BitVec 32 := 65520

/-- The data offset in bytes. -/
def TcpSegment.dataOffs (segment : TcpSegment) : Nat := segment.doff.toNat <<< 2

/-- The check from the data offset on, and the states of the match and of its counter match after
it. -/
def afterOptions (cm counterCm : TcpState) (segment : TcpSegment) (sack : BitVec 32) :
    Except WindowException (TcpState × TcpState) :=
  let dataOffs := segment.dataOffs + 20
  if segment.len.toNat < dataOffs then .error .bigDataOffs
  else
    let end_ := segment.seq + segment.len - BitVec.ofNat 32 dataOffs
    if (end_ - (cm.end_ - counterCm.maxWin - 1)).toInt < 0 then .error .seqBeforeLeftEdge
    else if 0 < (sack - (counterCm.end_ + 1)).toInt then .error .ackExceedsRightEdge
    else if (sack - (counterCm.end_ - cm.maxWin - tcpMaxAckWindow - 1)).toInt < 0 then
      .error .ackBeforeLeftEdge
    else
      let scaledWin := segment.window.zeroExtend 32 <<< cm.winScale.toNat + (sack - segment.ackSeq)
      let maxEnd := sack + scaledWin
      .ok ({ cm with
          maxWin := if cm.maxWin < scaledWin then scaledWin else cm.maxWin
          end_ := if 0 ≤ (end_ - cm.end_).toInt then end_ else cm.end_ },
        { counterCm with
          maxEnd := if 0 ≤ (maxEnd - counterCm.maxEnd).toInt then maxEnd else counterCm.maxEnd })

/-- The check of the sequence numbers in `sfe_ipv4_recv_tcp`. -/
def checkWindow (noSeqCheck : Bool) (cm counterCm : TcpState) (segment : TcpSegment) :
    Except WindowException (TcpState × TcpState) :=
  if noSeqCheck then .ok (cm, counterCm)
  else if 0 < (segment.seq - (cm.maxEnd + 1)).toInt then .error .seqExceedsRightEdge
  else if segment.dataOffs < 20 then .error .smallDataOffs
  else
    match processTcpOptionSack segment.memory segment.dataOffs segment.ackSeq with
    | none => .error .badSack
    | some parsed => if !parsed.ok then .error .badSack else
      afterOptions cm counterCm segment parsed.ack

/-! ### The right edges -/

/-- The words at every eighth byte. -/
def edgesFrom (memory : Memory) : (at_ count : Nat) → List (BitVec 32)
  | _, 0 => []
  | at_, count + 1 => edgeAt memory at_ :: edgesFrom memory (at_ + 8) count

/-- The number of blocks of a SACK option. -/
def blocks (memory : Memory) (at_ : Nat) : Nat := ((memory (at_ + 1)).toNat - 2) / 8

/-- The right edges of the option at a place, if it is a good SACK option. -/
def rightEdgesOf (memory : Memory) (dataOffs at_ : Nat) : List (BitVec 32) :=
  if memory at_ = tcpoptSack ∧ ¬Bad memory dataOffs at_ then edgesFrom memory (at_ + 6)
    (blocks memory at_) else []

/-- The acknowledgement and all right edges of a segment. -/
def TcpSegment.acks (segment : TcpSegment) : List (BitVec 32) :=
  segment.ackSeq ::
    (options segment.memory segment.dataOffs).flatMap (rightEdgesOf segment.memory segment.dataOffs)

/-- The parser stops at the option at a place and refuses the segment. -/
def Refused (memory : Memory) (dataOffs at_ : Nat) : Prop :=
  HasLength memory at_ ∧
    if memory at_ = tcpoptSack then Bad memory dataOffs at_ else (memory (at_ + 1)).toNat < 2

/-- The largest of some numbers. -/
def Largest (largest : BitVec 32) (numbers : List (BitVec 32)) : Prop :=
  largest ∈ numbers ∧ ∀ number ∈ numbers, number.toNat ≤ largest.toNat

/-- The latest of some sequence numbers. -/
def Latest (latest : BitVec 32) (numbers : List (BitVec 32)) : Prop :=
  latest ∈ numbers ∧ ∀ number ∈ numbers, 0 ≤ (latest - number).toInt

/-- The numbers are less than 2^31 apart, as plain numbers. -/
def Near (numbers : List (BitVec 32)) : Prop :=
  ∀ one ∈ numbers, ∀ other ∈ numbers, one.toNat < other.toNat + 2147483648

variable {memory memory' : Memory} {dataOffs ptr size fuel re length at_ : Nat}
    {sack ack a b : BitVec 32}
  {numbers others : List (BitVec 32)} {largest latest : BitVec 32}

theorem Largest.trans {first next : BitVec 32} (one : Largest next (first :: numbers))
    (two : Largest largest (next :: others)) : Largest largest (first :: (numbers ++ others)) := by
  obtain ⟨isIn, atMost⟩ := one
  obtain ⟨isIn', atMost'⟩ := two
  have grows := atMost' next List.mem_cons_self
  refine ⟨?_, ?_⟩
  · rcases List.mem_cons.mp isIn' with rfl | later
    · rw [← List.cons_append]
      exact List.mem_append_left others isIn
    · exact List.mem_cons_of_mem first (List.mem_append_right numbers later)
  · intro number member
    rw [← List.cons_append] at member
    rcases List.mem_append.mp member with early | later
    · exact (atMost number early).trans grows
    · exact atMost' number (List.mem_cons_of_mem next later)

theorem largest_max (one other : BitVec 32) : Largest (if one < other then other else one)
    [one, other] := by
  unfold Largest
  split_ifs with less
  · have := BitVec.lt_def.mp less
    simp
    omega
  · have := Nat.not_lt.mp fun less' => less (BitVec.lt_def.mpr less')
    simp
    omega

/-- **Largest is latest exactly if all are near.** -/
theorem Largest.latest_iff (is : Largest largest numbers) : Latest largest numbers ↔
    Near numbers := by
  obtain ⟨isIn, atMost⟩ := is
  have signed : ∀ number ∈ numbers, 0 ≤ (largest - number).toInt ↔
      largest.toNat < number.toNat + 2147483648 := by
    intro number member
    have := atMost number member
    have := largest.isLt
    rw [BitVec.toInt_eq_toNat_cond, BitVec.toNat_sub]
    split_ifs <;> omega
  constructor
  · rintro ⟨-, late⟩ one isOne other isOther
    have := (signed other isOther).mp (late other isOther)
    have := atMost one isOne
    omega
  · intro near
    refine ⟨isIn, fun number member => (signed number member).mpr (near largest isIn number member)⟩

/-- The latest of shifted numbers is the latest one, shifted. -/
theorem Latest.shift {latest' : BitVec 32} (one : Latest latest numbers)
    (two : Latest latest' (numbers.map (· + b))) : latest' = latest + b := by
  obtain ⟨isIn, late⟩ := one
  obtain ⟨isIn', late'⟩ := two
  obtain ⟨other, isOther, rfl⟩ := List.mem_map.mp isIn'
  have forth := late other isOther
  have back := late' (latest + b) (List.mem_map.mpr ⟨latest, isIn, rfl⟩)
  have same : other + b - (latest + b) = other - latest := by ring
  rw [same] at back
  have equal : other = latest := by
    rw [BitVec.toInt_eq_toNat_cond, BitVec.toNat_sub] at forth back
    refine BitVec.eq_of_toNat_eq ?_
    have := other.isLt
    have := latest.isLt
    split_ifs at forth back <;> omega
  rw [equal]

/-! ### What the parser leaves -/

/-- The inner loop leaves the largest right edge. -/
theorem sackLoop_largest {count : Nat} (enough : count < fuel) (rest : re + 8 * count = size + 4)
    (max : size < 252) :
    ∃ sack' reads, sackLoop memory ptr size fuel re sack = some (sack', reads) ∧
      Largest sack' (sack :: edgesFrom memory (ptr + re) count) := by
  induction count generalizing fuel re sack with
  | zero =>
    cases fuel with
    | zero => omega
    | succ fuel =>
      rw [sackLoop, if_neg (by omega)]
      exact ⟨sack, [], rfl, by simp [Largest, edgesFrom]⟩
  | succ count ih =>
    cases fuel with
    | zero => omega
    | succ fuel =>
      have next : (re + 8) % 256 = re + 8 := Nat.mod_eq_of_lt (by omega)
      obtain ⟨sack', reads, same, largest⟩ := @ih fuel (re + 8)
        (if sack < edgeAt memory (ptr + re) then edgeAt memory (ptr + re) else sack)
        (by omega) (by omega)
      refine ⟨sack', [ptr + re, ptr + re + 1, ptr + re + 2, ptr + re + 3] ++ reads, ?_, ?_⟩
      · rw [sackLoop, if_pos (by omega)]
        dsimp only
        rw [next, same]
        rfl
      · exact (largest_max sack (edgeAt memory (ptr + re))).trans largest

/-- An option that is not refused, and at which the parser goes on. -/
theorem result_of_good {rest : List Nat} {parsed : Parsed} {next : BitVec 32} {reads : List Nat}
    (accepted : ¬Refused memory dataOffs length)
    (here : Largest next (ack :: rightEdgesOf memory dataOffs length))
    (later : (parsed.ok = false ↔ ∃ at_ ∈ rest, Refused memory dataOffs at_) ∧
      (parsed.ok = true →
          Largest parsed.ack (next :: rest.flatMap (rightEdgesOf memory dataOffs)))) :
    ((parsed.after reads).ok = false ↔ ∃ at_ ∈ length :: rest, Refused memory dataOffs at_) ∧
      ((parsed.after reads).ok = true → Largest (parsed.after reads).ack
        (ack :: (length :: rest).flatMap (rightEdgesOf memory dataOffs))) := by
  refine ⟨?_, fun ok => ?_⟩
  · have others : (∃ at_ ∈ length :: rest, Refused memory dataOffs at_) ↔
        ∃ at_ ∈ rest, Refused memory dataOffs at_ := by simp [accepted]
    rw [others]
    exact later.1
  · rw [List.flatMap_cons]
    exact here.trans (later.2 ok)

theorem largest_self : Largest ack [ack] := by simp [Largest]

/-- The acknowledgement and the largest edge, counted from 0. -/
theorem Largest.of_zero {edge : BitVec 32} (is : Largest edge (0 :: numbers)) :
    Largest (if ack < edge then edge else ack) (ack :: numbers) := by
  obtain ⟨isIn, atMost⟩ := is
  unfold Largest
  split_ifs with less
  · have above := BitVec.lt_def.mp less
    refine ⟨?_, ?_⟩
    · rcases List.mem_cons.mp isIn with rfl | isEdge
      · exact absurd above (Nat.not_lt_zero _)
      · exact List.mem_cons_of_mem ack isEdge
    · intro number member
      rcases List.mem_cons.mp member with rfl | isEdge
      · omega
      · exact atMost number (List.mem_cons_of_mem 0 isEdge)
  · have below := Nat.not_lt.mp fun less' => less (BitVec.lt_def.mpr less')
    refine ⟨List.mem_cons_self, fun number member => ?_⟩
    rcases List.mem_cons.mp member with rfl | isEdge
    · exact Nat.le_refl _
    · exact (atMost number (List.mem_cons_of_mem 0 isEdge)).trans below

theorem rightEdgesOf_of_ne (notSack : memory length ≠ tcpoptSack) :
    rightEdgesOf memory dataOffs length = [] :=
  if_neg fun both => notSack both.1

/-- **What the outer loop returns**: false if it stops at an option that is refused, and else the
largest of the acknowledgement and the right edges. -/
theorem optionLoop_result (left : 0 < fuel) (enough : dataOffs < length + fuel) :
    ∃ parsed, optionLoop memory dataOffs fuel length ack = some parsed ∧
      (parsed.ok = false ↔ ∃ at_ ∈ optionsFrom memory dataOffs fuel length,
        Refused memory dataOffs at_) ∧
      (parsed.ok = true → Largest parsed.ack
        (ack :: (optionsFrom memory dataOffs fuel length).flatMap
            (rightEdgesOf memory dataOffs))) := by
  induction fuel generalizing length ack with
  | zero => omega
  | succ fuel ih =>
    rw [optionLoop, optionsFrom]
    by_cases inside : length < dataOffs
    · rw [if_pos inside, if_pos inside]
      dsimp only
      by_cases sack : memory length = tcpoptSack
      · have hasLength := hasLength_of_sack sack
        rw [if_neg hasLength.1, if_neg hasLength.1, if_pos sack]
        by_cases bad : Bad memory dataOffs length
        · rw [if_pos ((bad_iff_of_sack sack).mp bad), if_pos (.inr bad)]
          refine ⟨_, rfl, ?_, fun ok => by cases ok⟩
          simp [Refused, hasLength, sack, bad]
        · have accepted := mt (bad_iff_of_sack sack).mpr bad
          have goesOn : ¬(memory length = tcpoptEol ∨ Bad memory dataOffs length) := by
            simp [hasLength.2, bad]
          rw [if_neg accepted, if_neg goesOn]
          have count : 1 + 1 + 4 + 8 * blocks memory length = (memory (length + 1)).toNat + 4 := by
            unfold blocks
            omega
          have sizeMax := (memory (length + 1)).isLt
          obtain ⟨edge, reads, ran, largest⟩ :=
            @sackLoop_largest memory length (memory (length + 1)).toNat 32 (1 + 1 + 4)
            0 (blocks memory length) (by omega) count (by omega)
          obtain ⟨parsed, same, later⟩ := @ih (length + (memory (length + 1)).toNat)
            (if ack < edge then edge else ack) (by omega) (by omega)
          rw [ran]
          refine ⟨_, by dsimp only; rw [same]; rfl,
            result_of_good (by simp [Refused, sack, bad]) ?_ later⟩
          have edges : rightEdgesOf memory dataOffs length =
              edgesFrom memory (length + (1 + 1 + 4)) (blocks memory length) := if_pos ⟨sack, bad⟩
          rw [edges]
          exact largest.of_zero
      · have noEdges := @rightEdgesOf_of_ne memory dataOffs length sack
        by_cases nop : memory length = tcpoptNop
        · rw [if_pos nop, if_pos nop]
          obtain ⟨parsed, same, later⟩ := @ih (length + 1) ack (by omega) (by omega)
          have accepted : ¬Refused memory dataOffs length := fun refused => refused.1.1 nop
          refine ⟨_, by rw [same]; rfl, result_of_good accepted ?_ later⟩
          rw [noEdges]
          exact largest_self
        · rw [if_neg nop, if_neg nop, if_neg sack]
          by_cases eol : memory length = tcpoptEol
          · have accepted : ¬Refused memory dataOffs length := fun refused => refused.1.2 eol
            rw [if_pos eol, if_pos (.inl eol)]
            refine ⟨_, rfl, by simp [accepted], fun _ => ?_⟩
            rw [List.flatMap_cons, noEdges]
            exact largest_self
          · have hasLength : HasLength memory length := ⟨nop, eol⟩
            rw [if_neg eol]
            by_cases short : (memory (length + 1)).toNat < 2
            · rw [if_pos short, if_pos (.inr ⟨hasLength, .inr (.inl short)⟩)]
              have refused : Refused memory dataOffs length := ⟨hasLength, by rwa [if_neg sack]⟩
              refine ⟨_, rfl, ?_, fun ok => by cases ok⟩
              simp [refused]
            · have accepted : ¬Refused memory dataOffs length := by
                rintro ⟨-, refused⟩
                rw [if_neg sack] at refused
                exact short refused
              have here : Largest ack (ack :: rightEdgesOf memory dataOffs length) := by
                rw [noEdges]
                exact largest_self
              rw [if_neg short]
              obtain ⟨parsed, same, later⟩ :=
                @ih (length + (memory (length + 1)).toNat) ack (by omega) (by omega)
              refine ⟨_, by rw [same]; rfl, ?_⟩
              by_cases bad : Bad memory dataOffs length
              · rw [if_pos (.inr bad)]
                have past := (bad_iff_of_long hasLength sack short).mp bad
                have beyond : ¬length + (memory (length + 1)).toNat < dataOffs := by omega
                refine result_of_good accepted here ?_
                cases fuel with
                | zero => omega
                | succ fuel =>
                  rw [optionLoop, if_neg beyond] at same
                  cases same
                  exact ⟨by simp, fun _ => largest_self⟩
              · rw [if_neg fun either => either.elim eol bad]
                exact result_of_good accepted here later
    · rw [if_neg inside, if_neg inside]
      exact ⟨_, rfl, by simp, fun _ => largest_self⟩

/-- **What the parser returns.** -/
theorem processTcpOptionSack_result (memory : Memory) (dataOffs : Nat) (ack : BitVec 32) :
    ∃ parsed, processTcpOptionSack memory dataOffs ack = some parsed ∧
      (parsed.ok = false ↔ ∃ at_ ∈ options memory dataOffs, Refused memory dataOffs at_) ∧
      (parsed.ok = true → Largest parsed.ack
        (ack :: (options memory dataOffs).flatMap (rightEdgesOf memory dataOffs))) := by
  obtain ⟨parsed, ran, result⟩ := @optionLoop_result memory dataOffs (dataOffs + 1) 20 ack
    (by omega) (by omega)
  unfold processTcpOptionSack
  by_cases only : (onlyTimestamp memory dataOffs).1 = true
  · rw [if_pos only]
    rw [optionLoop_onlyTimestamp only] at ran
    exact ⟨_, rfl, by cases ran; exact result⟩
  · rw [if_neg only, ran]
    exact ⟨_, rfl, result⟩

/-! ### Shifted segments -/

/-- All the sequence numbers of a direction are moved. -/
def shiftState (tcp : TcpState) (by_ : BitVec 32) : TcpState :=
  { tcp with end_ := tcp.end_ + by_, maxEnd := tcp.maxEnd + by_ }

/-- The option at a place is the same in two segments, but for the edges of SACK blocks, which are
moved. -/
def ShiftedAt (memory memory' : Memory) (dataOffs : Nat) (by_ : BitVec 32) (at_ : Nat) : Prop :=
  memory' at_ = memory at_ ∧ memory' (at_ + 1) = memory (at_ + 1) ∧
    (memory at_ = tcpoptSack → ¬Bad memory dataOffs at_ → ∀ block < blocks memory at_,
      edgeAt memory' (at_ + 2 + 8 * block) = edgeAt memory (at_ + 2 + 8 * block) + by_ ∧
      edgeAt memory' (at_ + 6 + 8 * block) = edgeAt memory (at_ + 6 + 8 * block) + by_)

/-- A segment with its sequence number moved, and its acknowledgement and the edges of its SACK
blocks. -/
structure Shifted (a b : BitVec 32) (segment segment' : TcpSegment) : Prop where
  seq : segment'.seq = segment.seq + a
  ackSeq : segment'.ackSeq = segment.ackSeq + b
  doff : segment'.doff = segment.doff
  window : segment'.window = segment.window
  len : segment'.len = segment.len
  options : ∀ at_ ∈ options segment.memory segment.dataOffs,
    ShiftedAt segment.memory segment'.memory segment.dataOffs b at_

theorem ShiftedAt.hasLength (shifted : ShiftedAt memory memory' dataOffs b at_) :
    HasLength memory' at_ ↔ HasLength memory at_ := by
  rw [HasLength, HasLength, shifted.1]

theorem ShiftedAt.bad (shifted : ShiftedAt memory memory' dataOffs b at_) :
    Bad memory' dataOffs at_ ↔ Bad memory dataOffs at_ := by
  rw [Bad, Bad, shifted.hasLength, shifted.1, shifted.2.1]

theorem ShiftedAt.refused (shifted : ShiftedAt memory memory' dataOffs b at_) :
    Refused memory' dataOffs at_ ↔ Refused memory dataOffs at_ := by
  rw [Refused, Refused, shifted.hasLength, shifted.bad, shifted.1, shifted.2.1]

theorem edgesFrom_shift {count : Nat}
    (moved : ∀ block < count, edgeAt memory' (at_ + 8 * block) =
        edgeAt memory (at_ + 8 * block) + b) :
    edgesFrom memory' at_ count = (edgesFrom memory at_ count).map (· + b) := by
  induction count generalizing at_ with
  | zero => rfl
  | succ count ih =>
    have first := moved 0 (Nat.succ_pos count)
    rw [Nat.mul_zero, Nat.add_zero] at first
    rw [edgesFrom, edgesFrom, List.map_cons, first, ih]
    intro block below
    have := moved (block + 1) (Nat.succ_lt_succ below)
    rwa [Nat.mul_succ, Nat.add_comm (8 * block) 8, ← Nat.add_assoc] at this

theorem ShiftedAt.rightEdgesOf (shifted : ShiftedAt memory memory' dataOffs b at_) :
    rightEdgesOf memory' dataOffs at_ = (rightEdgesOf memory dataOffs at_).map (· + b) := by
  have sameBlocks : blocks memory' at_ = blocks memory at_ := by rw [blocks, blocks, shifted.2.1]
  unfold Ipv4.rightEdgesOf
  simp only [shifted.1, shifted.bad, sameBlocks]
  split_ifs with sack
  · exact edgesFrom_shift fun block below => (shifted.2.2 sack.1 sack.2 block below).2
  · rfl

/-- The options of a shifted segment are at the same places. -/
theorem optionsFrom_shift (shifted : ∀ at_ ∈ optionsFrom memory dataOffs fuel length,
    ShiftedAt memory memory' dataOffs b at_) :
    optionsFrom memory' dataOffs fuel length = optionsFrom memory dataOffs fuel length := by
  induction fuel generalizing length with
  | zero => rfl
  | succ fuel ih =>
    rw [optionsFrom] at shifted
    rw [optionsFrom, optionsFrom]
    by_cases inside : length < dataOffs
    · rw [if_pos inside] at shifted
      obtain ⟨here, later⟩ := List.forall_mem_cons.mp shifted
      rw [if_pos inside, if_pos inside]
      simp only [here.1, here.2.1, here.bad]
      split_ifs at later ⊢ with nop ends
      · rw [ih later]
      · rfl
      · rw [ih later]
    · rw [if_neg inside, if_neg inside]

variable {cm counterCm : TcpState} {segment segment' : TcpSegment} {noSeqCheck : Bool}

theorem Shifted.sameOffs (shifted : Shifted a b segment segment') :
    segment'.dataOffs = segment.dataOffs := by
  rw [TcpSegment.dataOffs, TcpSegment.dataOffs, shifted.doff]

theorem Shifted.places (shifted : Shifted a b segment segment') :
    Ipv4.options segment'.memory segment'.dataOffs =
        Ipv4.options segment.memory segment.dataOffs := by
  rw [shifted.sameOffs]
  exact optionsFrom_shift shifted.options

theorem Shifted.acks (shifted : Shifted a b segment segment') :
    segment'.acks = segment.acks.map (· + b) := by
  unfold TcpSegment.acks
  rw [shifted.places, shifted.sameOffs, shifted.ackSeq, List.map_cons, List.map_flatMap]
  congr 1
  exact List.flatMap_congr fun at_ isIn => (shifted.options at_ isIn).rightEdgesOf

/-- **From the effective acknowledgement on, the check is one of serial arithmetic.** -/
theorem afterOptions_shift (shifted : Shifted a b segment segment') (cm counterCm : TcpState)
    (sack : BitVec 32) :
    afterOptions (shiftState cm a) (shiftState counterCm b) segment' (sack + b) =
      (afterOptions cm counterCm segment sack).map fun states =>
          (shiftState states.1 a, shiftState states.2 b) := by
  have fields : segment'.seq + segment'.len - BitVec.ofNat 32 (segment'.dataOffs + 20) =
      segment.seq + segment.len - BitVec.ofNat 32 (segment.dataOffs + 20) + a := by
    rw [shifted.seq, shifted.len, shifted.sameOffs]
    ring
  unfold afterOptions
  dsimp only
  rw [fields, shifted.len, shifted.sameOffs, shifted.window, shifted.ackSeq]
  generalize segment.seq + segment.len - BitVec.ofNat 32 (segment.dataOffs + 20) = end_
  have leftEdge : end_ + a - ((shiftState cm a).end_ - (shiftState counterCm b).maxWin - 1) =
      end_ - (cm.end_ - counterCm.maxWin - 1) := by
    show end_ + a - (cm.end_ + a - counterCm.maxWin - 1) = _
    ring
  have sent : sack + b - ((shiftState counterCm b).end_ + 1) = sack - (counterCm.end_ + 1) := by
    show sack + b - (counterCm.end_ + b + 1) = _
    ring
  have ackEdge :
    sack + b - ((shiftState counterCm b).end_ - (shiftState cm a).maxWin - tcpMaxAckWindow - 1) =
      sack - (counterCm.end_ - cm.maxWin - tcpMaxAckWindow - 1) := by
    show sack + b - (counterCm.end_ + b - cm.maxWin - tcpMaxAckWindow - 1) = _
    ring
  have ahead : sack + b - (segment.ackSeq + b) = sack - segment.ackSeq := by ring
  have advanced : end_ + a - (shiftState cm a).end_ = end_ - cm.end_ := by
    show end_ + a - (cm.end_ + a) = _
    ring
  have scale : (shiftState cm a).winScale = cm.winScale := rfl
  have win : (shiftState cm a).maxWin = cm.maxWin := rfl
  rw [leftEdge, sent, ackEdge, ahead, advanced, scale, win]
  generalize segment.window.zeroExtend 32 <<< cm.winScale.toNat + (sack - segment.ackSeq) =
    scaledWin
  have opened : sack + b + scaledWin - (shiftState counterCm b).maxEnd =
      sack + scaledWin - counterCm.maxEnd := by
    show sack + b + scaledWin - (counterCm.maxEnd + b) = _
    ring
  have moved : sack + b + scaledWin = sack + scaledWin + b := by ring
  rw [opened, moved]
  split_ifs <;> rfl

/-- The check goes on behind the options: it comes to them, and does not refuse them. -/
def Accepts (noSeqCheck : Bool) (cm : TcpState) (segment : TcpSegment) : Prop :=
  noSeqCheck = false ∧ ¬0 < (segment.seq - (cm.maxEnd + 1)).toInt ∧ ¬segment.dataOffs < 20 ∧
    ¬∃ at_ ∈ options segment.memory segment.dataOffs, Refused segment.memory segment.dataOffs at_

/-- The effective acknowledgement is the latest one of the acknowledgement and the right edges. -/
def LatestAck (segment : TcpSegment) : Prop :=
  ∃ parsed, processTcpOptionSack segment.memory segment.dataOffs segment.ackSeq = some parsed ∧
    Latest parsed.ack segment.acks

/-- The check of the shifted segment has the same verdict, and its states are shifted. -/
def Commutes (noSeqCheck : Bool) (cm counterCm : TcpState) (segment segment' : TcpSegment)
    (a b : BitVec 32) : Prop :=
  checkWindow noSeqCheck (shiftState cm a) (shiftState counterCm b) segment' =
    (checkWindow noSeqCheck cm counterCm segment).map fun states =>
    (shiftState states.1 a, shiftState states.2 b)

theorem Shifted.accepts (shifted : Shifted a b segment segment') :
    Accepts noSeqCheck (shiftState cm a) segment' ↔ Accepts noSeqCheck cm segment := by
  have edge : segment.seq + a - ((shiftState cm a).maxEnd + 1) = segment.seq - (cm.maxEnd + 1) := by
    show segment.seq + a - (cm.maxEnd + a + 1) = _
    ring
  have refused : (∃ at_ ∈ Ipv4.options segment'.memory segment'.dataOffs,
        Refused segment'.memory segment'.dataOffs at_) ↔
      ∃ at_ ∈ Ipv4.options segment.memory segment.dataOffs,
          Refused segment.memory segment.dataOffs at_ := by
    rw [shifted.places, shifted.sameOffs]
    refine exists_congr fun at_ => and_congr_right fun isIn => ?_
    exact (shifted.options at_ isIn).refused
  rw [Accepts, Accepts, refused, shifted.seq, edge, shifted.sameOffs]

theorem latestAck_iff (accepts : Accepts noSeqCheck cm segment) : LatestAck segment ↔
    Near segment.acks := by
  obtain ⟨-, -, -, accepted⟩ := accepts
  obtain ⟨parsed, ran, verdict, largest⟩ :=
    processTcpOptionSack_result segment.memory segment.dataOffs segment.ackSeq
  have ok : parsed.ok = true := by
    rw [← Bool.not_eq_false, verdict]
    exact accepted
  have isLatest : LatestAck segment ↔ Latest parsed.ack segment.acks := by
    unfold LatestAck
    rw [ran]
    simp
  rw [isLatest]
  exact (largest ok).latest_iff

theorem checkWindow_of_accepts {parsed : Parsed} (accepts : Accepts noSeqCheck cm segment)
    (ran : processTcpOptionSack segment.memory segment.dataOffs segment.ackSeq = some parsed) :
    checkWindow noSeqCheck cm counterCm segment = afterOptions cm counterCm segment parsed.ack := by
  obtain ⟨check, inWindow, offset, accepted⟩ := accepts
  obtain ⟨parsed', ran', verdict, -⟩ :=
    processTcpOptionSack_result segment.memory segment.dataOffs segment.ackSeq
  cases ran.symm.trans ran'
  have ok : parsed.ok = true := by
    rw [← Bool.not_eq_false, verdict]
    exact accepted
  rw [checkWindow, check, if_neg Bool.false_ne_true, if_neg inWindow, if_neg offset, ran]
  simp [ok]

/-- A segment that is not accepted is treated by its flags and sizes alone. -/
theorem Shifted.commutes_of_not_accepts (shifted : Shifted a b segment segment')
    (refused : ¬Accepts noSeqCheck cm segment) :
        Commutes noSeqCheck cm counterCm segment segment' a b := by
  have refused' := mt shifted.accepts.mp refused
  have edge : segment'.seq - ((shiftState cm a).maxEnd + 1) = segment.seq - (cm.maxEnd + 1) := by
    rw [shifted.seq]
    show segment.seq + a - (cm.maxEnd + a + 1) = _
    ring
  unfold Commutes checkWindow
  cases noSeqCheck with
  | true => rfl
  | false =>
    rw [if_neg Bool.false_ne_true, if_neg Bool.false_ne_true, edge, shifted.sameOffs]
    by_cases outside : 0 < (segment.seq - (cm.maxEnd + 1)).toInt
    · rw [if_pos outside, if_pos outside]
      rfl
    · rw [if_neg outside, if_neg outside]
      by_cases small : segment.dataOffs < 20
      · rw [if_pos small, if_pos small]
        rfl
      · rw [if_neg small, if_neg small]
        have isRefused : ∃ at_ ∈ Ipv4.options segment.memory segment.dataOffs,
            Refused segment.memory segment.dataOffs at_ := by
          by_contra accepted
          exact refused ⟨rfl, outside, small, accepted⟩
        have isRefused' : ∃ at_ ∈ Ipv4.options segment'.memory segment'.dataOffs,
            Refused segment'.memory segment'.dataOffs at_ := by
          by_contra accepted
          exact refused' ⟨rfl, by rwa [edge], by rwa [shifted.sameOffs], accepted⟩
        obtain ⟨parsed, ran, verdict, -⟩ :=
          processTcpOptionSack_result segment.memory segment.dataOffs segment.ackSeq
        obtain ⟨parsed', ran', verdict', -⟩ :=
          processTcpOptionSack_result segment'.memory segment'.dataOffs segment'.ackSeq
        rw [shifted.sameOffs] at ran'
        rw [ran, ran']
        simp only [verdict.mpr isRefused, verdict'.mpr isRefused', Bool.not_false, if_true]
        rfl

/-- **When the check of the window is one of serial arithmetic**: exactly if, as long as it comes to
the options and accepts them, the acknowledgement and the right edges are near, before and after
they are shifted. -/
theorem checkWindow_shift_iff (shifted : Shifted a b segment segment') :
    (Commutes noSeqCheck cm counterCm segment segment' a b ∧
        (Accepts noSeqCheck cm segment → LatestAck segment ∧ LatestAck segment')) ↔
      (Accepts noSeqCheck cm segment → Near segment.acks ∧ Near segment'.acks) := by
  have latest : Accepts noSeqCheck cm segment →
      (LatestAck segment ∧ LatestAck segment' ↔ Near segment.acks ∧ Near segment'.acks) := by
    intro accepts
    rw [latestAck_iff accepts, latestAck_iff (shifted.accepts.mpr accepts)]
  constructor
  · rintro ⟨-, isLatest⟩ accepts
    exact (latest accepts).mp (isLatest accepts)
  · intro near
    refine ⟨?_, fun accepts => (latest accepts).mpr (near accepts)⟩
    by_cases accepts : Accepts noSeqCheck cm segment
    · obtain ⟨⟨parsed, ran, isLatest⟩, ⟨parsed', ran', isLatest'⟩⟩ :=
        (latest accepts).mpr (near accepts)
      rw [shifted.acks] at isLatest'
      have moved := isLatest.shift isLatest'
      unfold Commutes
      rw [checkWindow_of_accepts accepts ran, checkWindow_of_accepts
        (shifted.accepts.mpr accepts) ran', moved]
      exact afterOptions_shift shifted cm counterCm parsed.ack
    · exact shifted.commutes_of_not_accepts accepts

/-! ### A block behind the wrap -/

/-- The options NOP, NOP and SACK with one block. -/
def oneBlock (left right : BitVec 32) : Memory := fun at_ =>
  if at_ = 20 then tcpoptNop
  else if at_ = 21 then tcpoptNop
  else if at_ = 22 then tcpoptSack
  else if at_ = 23 then 10
  else if at_ < 28 then (left >>> (8 * (27 - at_))).truncate 8
  else if at_ < 32 then (right >>> (8 * (31 - at_))).truncate 8
  else 0

/-- A segment without data that acknowledges and has one block. -/
def oneBlockSegment (ackSeq left right : BitVec 32) : TcpSegment :=
    ⟨1000, ackSeq, 8, 500, oneBlock left right, 52⟩

/-- The two directions of a connection; the end of the second is given. -/
def flowState : TcpState := ⟨0, 1000, 1000, 2000⟩
def returnState (end_ : BitVec 32) : TcpState := ⟨0, 1000, end_, end_⟩

/-- The numbers 100 and 300 are near, and so are 356 and 556. -/
theorem near_blocks_shift :
    Commutes false flowState (returnState 400) (oneBlockSegment 100 200 300)
    (oneBlockSegment 356 456 556) 0 256 ∧
      (Accepts false flowState (oneBlockSegment 100 200 300) →
        LatestAck (oneBlockSegment 100 200 300) ∧ LatestAck (oneBlockSegment 356 456 556)) := by
  have shifted : Shifted 0 256 (oneBlockSegment 100 200 300) (oneBlockSegment 356 456 556) :=
    ⟨by decide, by decide, rfl, rfl, rfl, by unfold ShiftedAt; decide⟩
  have acks : (oneBlockSegment 100 200 300).acks = [100, 300] := by decide
  refine (checkWindow_shift_iff shifted).mpr fun _ => ⟨?_, ?_⟩
  · rw [acks]
    simp [Near]
  · rw [shifted.acks, acks]
    simp [Near]

/-- **Behind the wrap the earlier number is taken**: the block ends at 16, 32 after the
acknowledgement, but its number is the smaller one. Shifted by 256, the block is the larger one. -/
theorem wrapped_block_not_shifted :
    ¬∀ (noSeqCheck : Bool) (cm counterCm : TcpState) (segment segment' : TcpSegment)
    (a b : BitVec 32),
      Shifted a b segment segment' →
        Commutes noSeqCheck cm counterCm segment segment' a b ∧
          (Accepts noSeqCheck cm segment → LatestAck segment ∧ LatestAck segment') := by
  intro serial
  have commutes := (serial false flowState (returnState 20) (oneBlockSegment 0xfffffff0 8 16)
    (oneBlockSegment 0xf0 0x108 0x110) 0 0x100
    ⟨by decide, by decide, rfl, rfl, rfl, by unfold ShiftedAt; decide⟩).1
  exact absurd (congrArg Except.toOption commutes) (by decide)

end Qsdk.Sfe.Ipv4
