/-
**The parser of TCP options.**

`sfe_ipv4_process_tcp_option_sack` goes through the options of a segment for the right edges of its
SACK blocks. What is in memory from the TCP header on is a function here, also beyond the end of the
packet, and the parser says which bytes it has read. It always ends (`processTcpOptionSack_spec`).
But the data offset is compared with the length of the packet only later, the length byte of an
option is read without a look at the data offset, and that an option ends before the data offset is
only checked for SACK. `processTcpOptionSack_right_iff` says when none of this matters.
-/

import Mathlib.Data.BitVec
import Mathlib.Data.List.Basic
import Mathlib.Algebra.Group.Nat.Defs

namespace Qsdk.Sfe.Ipv4

/-- The bytes from the TCP header on, in memory. -/
abbrev Memory := Nat → BitVec 8

def tcpoptEol : BitVec 8 := 0
def tcpoptNop : BitVec 8 := 1
def tcpoptSack : BitVec 8 := 5
def tcpoptTimestamp : BitVec 8 := 8
def tcpolenTimestamp : BitVec 8 := 10

/-- The number that four bytes make, the first one first. -/
def edgeAt (memory : Memory) (at_ : Nat) : BitVec 32 :=
  (memory at_).zeroExtend 32 <<< 24 ||| (memory (at_ + 1)).zeroExtend 32 <<< 16 |||
    (memory (at_ + 2)).zeroExtend 32 <<< 8 ||| (memory (at_ + 3)).zeroExtend 32

/-- What the parser returns, the acknowledgement that it leaves, and where it has read. -/
structure Parsed where
  ok : Bool
  ack : BitVec 32
  reads : List Nat

/-- There were reads before. -/
def Parsed.after (reads : List Nat) (parsed : Parsed) : Parsed :=
    { parsed with reads := reads ++ parsed.reads }

/-- The inner loop, over the right edges of a SACK option at `ptr`. `re` is a `u8`. -/
def sackLoop (memory : Memory) (ptr size : Nat) : (fuel re : Nat) → BitVec 32 →
    Option (BitVec 32 × List Nat)
  | 0, _, _ => none
  | fuel + 1, re, sack =>
    if re < size then
      let sackRe := edgeAt memory (ptr + re)
      (sackLoop memory ptr size fuel ((re + 8) % 256) (if sack < sackRe then sackRe else sack)).map
        fun (sack, reads) => (sack, [ptr + re, ptr + re + 1, ptr + re + 2, ptr + re + 3] ++ reads)
    else some (sack, [])

/-- The outer loop, over the options. -/
def optionLoop (memory : Memory) (dataOffs : Nat) : (fuel length : Nat) → BitVec 32 → Option Parsed
  | 0, _, _ => none
  | fuel + 1, length, ack =>
    if length < dataOffs then
      let kind := memory length
      let size := (memory (length + 1)).toNat
      if kind = tcpoptNop then (optionLoop memory dataOffs fuel (length + 1) ack).map
        (Parsed.after [length])
      else if kind = tcpoptSack then
        if size < 1 + 1 + 8 ∨ (size - (1 + 1)) % 8 ≠ 0 ∨ dataOffs - length < size then
          some ⟨false, ack, [length, length + 1]⟩
        else
          match sackLoop memory length size 32 (1 + 1 + 4) 0 with
          | none => none
          | some (sack, reads) =>
            (optionLoop memory dataOffs fuel (length + size) (if ack < sack then sack else ack)).map
              (Parsed.after ([length, length + 1] ++ reads))
      else if kind = tcpoptEol then some ⟨true, ack, [length]⟩
      else if size < 2 then some ⟨false, ack, [length, length + 1]⟩
      else (optionLoop memory dataOffs fuel (length + size) ack).map
        (Parsed.after [length, length + 1])
    else some ⟨true, ack, []⟩

/-- The check for a packet with nothing but a timestamp, and where it reads. -/
def onlyTimestamp (memory : Memory) (dataOffs : Nat) : Bool × List Nat :=
  if dataOffs ≠ 20 + 10 + 1 + 1 then (false, [])
  else if memory 20 ≠ tcpoptNop then (false, [20])
  else if memory 21 ≠ tcpoptNop then (false, [20, 21])
  else if memory 22 ≠ tcpoptTimestamp then (false, [20, 21, 22])
  else (decide (memory 23 = tcpolenTimestamp), [20, 21, 22, 23])

/-- `sfe_ipv4_process_tcp_option_sack`. The fuel is always enough. -/
def processTcpOptionSack (memory : Memory) (dataOffs : Nat) (ack : BitVec 32) : Option Parsed :=
  if (onlyTimestamp memory dataOffs).1 then some ⟨true, ack, (onlyTimestamp memory dataOffs).2⟩
  else (optionLoop memory dataOffs (dataOffs + 1) 20 ack).map
    (Parsed.after (onlyTimestamp memory dataOffs).2)

/-! ### What the options are -/

/-- The option at a place is no padding and not the end of the list, so that it has a length
byte. -/
def HasLength (memory : Memory) (at_ : Nat) : Prop := memory at_ ≠ tcpoptNop ∧
    memory at_ ≠ tcpoptEol

/-- The option at a place has a bad length byte: it is missing, smaller than 2, runs past the data
offset, or is not 2 plus a positive multiple of 8 in a SACK option. -/
def Bad (memory : Memory) (dataOffs at_ : Nat) : Prop :=
  HasLength memory at_ ∧
    (dataOffs ≤ at_ + 1 ∨ (memory (at_ + 1)).toNat < 2 ∨ dataOffs < at_ + (memory (at_ + 1)).toNat ∨
      (memory at_ = tcpoptSack ∧
        ¬(10 ≤ (memory (at_ + 1)).toNat ∧ ((memory (at_ + 1)).toNat - 2) % 8 = 0)))

instance (memory : Memory) (at_ : Nat) : Decidable (HasLength memory at_) :=
  inferInstanceAs (Decidable (_ ∧ _))

instance (memory : Memory) (dataOffs at_ : Nat) : Decidable (Bad memory dataOffs at_) :=
  inferInstanceAs (Decidable (_ ∧ _))

/-- The places of the options before the data offset, up to the first EOL or the first option with a
bad length. -/
def optionsFrom (memory : Memory) (dataOffs : Nat) : (fuel at_ : Nat) → List Nat
  | 0, _ => []
  | fuel + 1, at_ =>
    if at_ < dataOffs then
      at_ :: (if memory at_ = tcpoptNop then optionsFrom memory dataOffs fuel (at_ + 1)
        else if memory at_ = tcpoptEol ∨ Bad memory dataOffs at_ then []
        else optionsFrom memory dataOffs fuel (at_ + (memory (at_ + 1)).toNat))
    else []

/-- The places of the options of a segment. -/
def options (memory : Memory) (dataOffs : Nat) : List Nat :=
    optionsFrom memory dataOffs (dataOffs + 1) 20

/-- Some option up to the first EOL has a bad length. -/
def Malformed (memory : Memory) (dataOffs : Nat) : Prop := ∃ at_ ∈ options memory dataOffs,
    Bad memory dataOffs at_

/-- What is needed of an option for the parser to be right about it: its kind and its length byte
are in the packet, and so is all of a good SACK option; its length byte is before the data offset;
and it does not run past the data offset, unless it is SACK. -/
def Safe (memory : Memory) (dataOffs packetLen at_ : Nat) : Prop :=
  at_ < packetLen ∧
    (HasLength memory at_ → at_ + 1 < packetLen ∧ at_ + 1 < dataOffs ∧
      (memory at_ = tcpoptSack → ¬Bad memory dataOffs at_ →
        at_ + (memory (at_ + 1)).toNat ≤ packetLen) ∧
      (memory at_ ≠ tcpoptSack → 2 ≤ (memory (at_ + 1)).toNat →
        at_ + (memory (at_ + 1)).toNat ≤ dataOffs))

/-- Every byte that was read is before the data offset and before the end of the packet. -/
def Bounded (dataOffs packetLen : Nat) (reads : List Nat) : Prop :=
    ∀ at_ ∈ reads, at_ < dataOffs ∧ at_ < packetLen

variable {memory : Memory} {dataOffs packetLen ptr size fuel re length : Nat} {sack ack : BitVec 32}
    {reads : List Nat}

@[simp]
theorem bounded_append {others : List Nat} : Bounded dataOffs packetLen (reads ++ others) ↔
    Bounded dataOffs packetLen reads ∧ Bounded dataOffs packetLen others := by
  unfold Bounded
  rw [List.forall_mem_append]

theorem hasLength_of_sack (isSack : memory length = tcpoptSack) : HasLength memory length := by
  unfold HasLength
  rw [isSack]
  decide

/-- What the parser asks of a SACK option is that its length byte is not bad. -/
theorem bad_iff_of_sack (isSack : memory length = tcpoptSack) : Bad memory dataOffs length ↔
    (memory (length + 1)).toNat < 1 + 1 + 8 ∨ ((memory (length + 1)).toNat - (1 + 1)) % 8 ≠ 0 ∨
      dataOffs - length < (memory (length + 1)).toNat := by
  have hasLength := hasLength_of_sack isSack
  simp only [Bad, hasLength, true_and, isSack]
  omega

/-- Another option that is not too short has a bad length byte if it runs past the data offset. -/
theorem bad_iff_of_long (hasLength : HasLength memory length) (notSack : memory length ≠ tcpoptSack)
    (long : ¬(memory (length + 1)).toNat < 2) :
    Bad memory dataOffs length ↔ dataOffs < length + (memory (length + 1)).toNat := by
  simp only [Bad, hasLength, true_and, notSack, false_and, or_false]
  omega

/-- The inner loop ends, and reads up to the end of the option. -/
theorem sackLoop_spec (sizeRest : size % 8 = 2) (sizeMax : size < 256) (reRest : re % 8 = 6)
    (reMax : re ≤ size + 4) (enough : size + 12 ≤ re + 8 * fuel) :
    ∃ sack' reads, sackLoop memory ptr size fuel re sack = some (sack', reads) ∧
      (∀ at_ ∈ reads, ptr + re ≤ at_ ∧ at_ < ptr + size) ∧
          (re < size → ptr + size - 1 ∈ reads) := by
  induction fuel generalizing re sack with
  | zero => omega
  | succ fuel ih =>
    rw [sackLoop]
    split_ifs with more
    · have next : (re + 8) % 256 = re + 8 := Nat.mod_eq_of_lt (by omega)
      obtain ⟨sack', reads, same, inside, reachesEnd⟩ := @ih (re + 8)
        (if sack < edgeAt memory (ptr + re) then edgeAt memory (ptr + re) else sack) (by omega)
        (by omega) (by omega)
      refine ⟨sack', [ptr + re, ptr + re + 1, ptr + re + 2, ptr + re + 3] ++ reads, ?_, ?_, ?_⟩
      · dsimp only
        rw [next, same]
        rfl
      · intro at_ isIn
        rcases List.mem_append.mp isIn with here | later
        · simp only [List.mem_cons, List.not_mem_nil, or_false] at here
          omega
        · have := inside at_ later
          omega
      · intro _
        by_cases last : re + 8 < size
        · exact List.mem_append_right _ (reachesEnd last)
        · refine List.mem_append_left reads ?_
          simp only [List.mem_cons, List.not_mem_nil, or_false]
          omega
    · exact ⟨sack, [], rfl, by simp, fun more' => absurd more' more⟩

/-- A good option, of which all that is read is where it should be. -/
theorem right_iff_of_good {rest : List Nat} {parsed : Parsed} (good : ¬Bad memory dataOffs length)
    (here : Bounded dataOffs packetLen reads ↔ Safe memory dataOffs packetLen length)
    (later : (Bounded dataOffs packetLen parsed.reads ∧
        (parsed.ok = false ↔ ∃ at_ ∈ rest, Bad memory dataOffs at_)) ↔
      ∀ at_ ∈ rest, Safe memory dataOffs packetLen at_) :
    (Bounded dataOffs packetLen (parsed.after reads).reads ∧
        ((parsed.after reads).ok = false ↔ ∃ at_ ∈ length :: rest, Bad memory dataOffs at_)) ↔
      ∀ at_ ∈ length :: rest, Safe memory dataOffs packetLen at_ := by
  have others : (∃ at_ ∈ length :: rest, Bad memory dataOffs at_) ↔
      ∃ at_ ∈ rest, Bad memory dataOffs at_ := by
    simp [good]
  rw [others, List.forall_mem_cons, ← later, ← here]
  show (Bounded dataOffs packetLen (reads ++ parsed.reads) ∧ _) ↔ _
  rw [bounded_append, and_assoc]
  rfl

/-- An option at which the parser stops. -/
theorem right_iff_of_last {ok : Bool} (verdict : ok = false ↔ Bad memory dataOffs length)
    (here : Bounded dataOffs packetLen reads ↔ Safe memory dataOffs packetLen length) :
    (Bounded dataOffs packetLen reads ∧ (ok = false ↔ ∃ at_ ∈ [length], Bad memory dataOffs at_)) ↔
      ∀ at_ ∈ [length], Safe memory dataOffs packetLen at_ := by
  simp only [List.mem_singleton, exists_eq_left, forall_eq, verdict, here, and_true]

/-- **What the outer loop does from an option on.** -/
theorem optionLoop_spec (left : 0 < fuel) (enough : dataOffs < length + fuel) :
    ∃ parsed, optionLoop memory dataOffs fuel length ack = some parsed ∧
      ((Bounded dataOffs packetLen parsed.reads ∧
          (parsed.ok = false ↔ ∃ at_ ∈ optionsFrom memory dataOffs fuel length,
            Bad memory dataOffs at_)) ↔
        ∀ at_ ∈ optionsFrom memory dataOffs fuel length, Safe memory dataOffs packetLen at_) := by
  induction fuel generalizing length ack with
  | zero => omega
  | succ fuel ih =>
    rw [optionLoop, optionsFrom]
    by_cases inside : length < dataOffs
    · rw [if_pos inside, if_pos inside]
      dsimp only
      by_cases nop : memory length = tcpoptNop
      · rw [if_pos nop, if_pos nop]
        have noLength : ¬HasLength memory length := fun hasLength => hasLength.1 nop
        obtain ⟨parsed, same, later⟩ := @ih (length + 1) ack (by omega) (by omega)
        refine ⟨_, by rw [same]; rfl, right_iff_of_good (fun bad => noLength bad.1) ?_ later⟩
        simp [Bounded, Safe, noLength, inside]
      · rw [if_neg nop, if_neg nop]
        by_cases sack : memory length = tcpoptSack
        · have hasLength := hasLength_of_sack sack
          have notEol : memory length ≠ tcpoptEol := hasLength.2
          rw [if_pos sack]
          by_cases bad : Bad memory dataOffs length
          · have refused := (bad_iff_of_sack sack).mp bad
            rw [if_pos refused, if_pos (.inr bad)]
            refine ⟨_, rfl, right_iff_of_last (by simp [bad]) ?_⟩
            simp only [Bounded, Safe, List.mem_cons, List.not_mem_nil, or_false,
              forall_eq_or_imp, forall_eq]
            simp only [hasLength, sack, bad, true_imp_iff, not_true_eq_false, false_imp_iff,
              ne_eq, and_true]
            omega
          · have accepted := mt (bad_iff_of_sack sack).mpr bad
            rw [if_neg accepted]
            have goesOn : ¬(memory length = tcpoptEol ∨ Bad memory dataOffs length) := by
              simp [notEol, bad]
            rw [if_neg goesOn]
            have sizeMax := (memory (length + 1)).isLt
            obtain ⟨edge, edgeReads, ran, within, reachesEnd⟩ := @sackLoop_spec memory length
              (memory (length + 1)).toNat 32 (1 + 1 + 4) 0 (by omega) sizeMax (by omega)
              (by omega) (by omega)
            obtain ⟨parsed, same, later⟩ := @ih (length + (memory (length + 1)).toNat)
              (if ack < edge then edge else ack) (by omega) (by omega)
            rw [ran]
            refine ⟨_, by dsimp only; rw [same]; rfl, right_iff_of_good bad ?_ later⟩
            have last := reachesEnd (by omega)
            constructor
            · intro bounded
              have first := bounded length (by simp)
              have second := bounded (length + 1) (by simp)
              have third := bounded _ (List.mem_append_right _ last)
              refine ⟨first.2, fun _ =>
                ⟨second.2, second.1, fun _ _ => by omega, fun notSack => absurd sack notSack⟩⟩
            · rintro ⟨first, needs⟩ at_ isIn
              obtain ⟨second, before, whole, -⟩ := needs hasLength
              have whole := whole sack bad
              rcases List.mem_append.mp isIn with head | edges
              · simp only [List.mem_cons, List.not_mem_nil, or_false] at head
                omega
              · have := within at_ edges
                omega
        · rw [if_neg sack]
          by_cases eol : memory length = tcpoptEol
          · have noLength : ¬HasLength memory length := fun hasLength => hasLength.2 eol
            rw [if_pos eol, if_pos (.inl eol)]
            refine ⟨_, rfl, right_iff_of_last ?_ ?_⟩
            · simp [Bad, noLength]
            · simp [Bounded, Safe, noLength, inside]
          · have hasLength : HasLength memory length := ⟨nop, eol⟩
            rw [if_neg eol]
            by_cases short : (memory (length + 1)).toNat < 2
            · have bad : Bad memory dataOffs length := ⟨hasLength, .inr (.inl short)⟩
              rw [if_pos short, if_pos (.inr bad)]
              refine ⟨_, rfl, right_iff_of_last (by simp [bad]) ?_⟩
              simp only [Bounded, Safe, List.mem_cons, List.not_mem_nil, or_false,
                forall_eq_or_imp, forall_eq]
              simp only [hasLength, sack, true_imp_iff, false_imp_iff, ne_eq,
                not_false_eq_true, true_and]
              omega
            · rw [if_neg short]
              obtain ⟨parsed, same, later⟩ :=
                @ih (length + (memory (length + 1)).toNat) ack (by omega) (by omega)
              refine ⟨_, by rw [same]; rfl, ?_⟩
              by_cases bad : Bad memory dataOffs length
              · -- the option runs past the data offset, which the loop takes for the end
                rw [if_pos (.inr bad)]
                have past := (bad_iff_of_long hasLength sack short).mp bad
                have beyond : ¬length + (memory (length + 1)).toNat < dataOffs := by omega
                have ended : parsed.ok = true := by
                  cases fuel with
                  | zero => omega
                  | succ fuel =>
                    rw [optionLoop, if_neg beyond] at same
                    cases same
                    rfl
                refine iff_of_false ?_ ?_
                · rintro ⟨-, verdict⟩
                  have refused := verdict.mpr ⟨length, List.mem_singleton.mpr rfl, bad⟩
                  have accepted : (parsed.after [length, length + 1]).ok = true := ended
                  rw [accepted] at refused
                  cases refused
                · intro safe
                  obtain ⟨-, needs⟩ := safe length (List.mem_singleton.mpr rfl)
                  obtain ⟨-, before, -, fits⟩ := needs hasLength
                  have := fits sack (by omega)
                  omega
              · have goesOn : ¬(memory length = tcpoptEol ∨ Bad memory dataOffs length) := by
                  simp [eol, bad]
                rw [if_neg goesOn]
                refine right_iff_of_good bad ?_ later
                have fits := mt (bad_iff_of_long hasLength sack short).mpr bad
                simp only [Bounded, Safe, List.mem_cons, List.not_mem_nil, or_false,
                  forall_eq_or_imp, forall_eq]
                simp only [hasLength, sack, true_imp_iff, false_imp_iff, ne_eq,
                  not_false_eq_true, true_and]
                omega
    · rw [if_neg inside, if_neg inside]
      refine ⟨_, rfl, ?_⟩
      simp [Bounded]

/-! ### The check for a timestamp -/

/-- Where the outer loop reads of an option. -/
theorem optionLoop_reads {parsed : Parsed} (inside : length < dataOffs)
    (same : optionLoop memory dataOffs (fuel + 1) length ack = some parsed) :
    length ∈ parsed.reads ∧ (HasLength memory length → length + 1 ∈ parsed.reads) ∧
      (memory length = tcpoptNop → ∃ next, optionLoop memory dataOffs fuel (length + 1) ack =
        some next ∧
        parsed.reads = length :: next.reads) := by
  rw [optionLoop, if_pos inside] at same
  dsimp only at same
  by_cases nop : memory length = tcpoptNop
  · rw [if_pos nop] at same
    obtain ⟨next, ran, rfl⟩ := Option.map_eq_some_iff.mp same
    exact ⟨List.mem_cons_self, fun hasLength => absurd nop hasLength.1, fun _ => ⟨next, ran, rfl⟩⟩
  · rw [if_neg nop] at same
    refine ⟨?_, ?_, fun nop' => absurd nop' nop⟩
    all_goals
      split_ifs at same with sack refused eol short
      · cases same
        simp
      · split at same
        · cases same
        · obtain ⟨next, -, rfl⟩ := Option.map_eq_some_iff.mp same
          simp [Parsed.after]
      · cases same
        simp [HasLength, eol]
      · cases same
        simp
      · obtain ⟨next, -, rfl⟩ := Option.map_eq_some_iff.mp same
        simp [Parsed.after]

/-- The loop does the same as the check for a timestamp, if this is what there is. -/
theorem optionLoop_onlyTimestamp (only : (onlyTimestamp memory dataOffs).1 = true) :
    optionLoop memory dataOffs (dataOffs + 1) 20 ack =
      some ⟨true, ack, (onlyTimestamp memory dataOffs).2⟩ := by
  unfold onlyTimestamp at only ⊢
  split_ifs at only ⊢ with offset first second kind
  have size := of_decide_eq_true only
  have offset := not_not.mp offset
  subst offset
  have first := not_not.mp first
  have second := not_not.mp second
  have kind := not_not.mp kind
  simp [optionLoop, first, second, kind, size, tcpoptNop, tcpoptTimestamp, tcpoptSack, tcpoptEol,
    tcpolenTimestamp,
    Parsed.after]

/-- The check for a timestamp reads nothing that the loop does not read. -/
theorem onlyTimestamp_reads {parsed : Parsed}
    (ran : optionLoop memory dataOffs (dataOffs + 1) 20 ack = some parsed) :
    ∀ at_ ∈ (onlyTimestamp memory dataOffs).2, at_ ∈ parsed.reads := by
  unfold onlyTimestamp
  by_cases offset : dataOffs = 20 + 10 + 1 + 1
  · subst offset
    obtain ⟨here, -, onNop⟩ := optionLoop_reads (by omega) ran
    rw [if_neg (by omega)]
    by_cases first : memory 20 = tcpoptNop
    · obtain ⟨next, ran, same⟩ := onNop first
      rw [same, if_neg (not_not.mpr first)]
      obtain ⟨here, -, onNop⟩ := optionLoop_reads (by omega) ran
      by_cases second : memory 21 = tcpoptNop
      · obtain ⟨next, ran, same⟩ := onNop second
        rw [same, if_neg (not_not.mpr second)]
        obtain ⟨here, onLength, -⟩ := optionLoop_reads (by omega) ran
        by_cases kind : memory 22 = tcpoptTimestamp
        · have hasLength : HasLength memory 22 := by
            unfold HasLength
            rw [kind]
            decide
          rw [if_neg (not_not.mpr kind)]
          simp [here, onLength hasLength]
        · rw [if_pos kind]
          simp [here]
      · rw [if_pos second]
        simp [here]
    · rw [if_pos first]
      simpa using here
  · rw [if_pos offset]
    simp

/-! ### The result -/

/-- **The parser ends, and when it is right**: every byte it reads is before the data offset and
before the end of the packet, and it returns false exactly for malformed options, if and only if
every option up to the first EOL is safe. -/
theorem processTcpOptionSack_right_iff (memory : Memory) (dataOffs packetLen : Nat)
    (ack : BitVec 32) :
    ∃ parsed, processTcpOptionSack memory dataOffs ack = some parsed ∧
      ((Bounded dataOffs packetLen parsed.reads ∧ (parsed.ok = false ↔ Malformed memory dataOffs)) ↔
        ∀ at_ ∈ options memory dataOffs, Safe memory dataOffs packetLen at_) := by
  obtain ⟨parsed, ran, right⟩ := @optionLoop_spec memory dataOffs packetLen (dataOffs + 1) 20 ack
    (by omega) (by omega)
  unfold processTcpOptionSack
  by_cases only : (onlyTimestamp memory dataOffs).1 = true
  · rw [if_pos only]
    rw [optionLoop_onlyTimestamp only] at ran
    exact ⟨_, rfl, by cases ran; exact right⟩
  · rw [if_neg only, ran]
    refine ⟨_, rfl, ?_⟩
    have bounded : Bounded dataOffs packetLen
      (parsed.after (onlyTimestamp memory dataOffs).2).reads ↔
        Bounded dataOffs packetLen parsed.reads := by
      show Bounded dataOffs packetLen (_ ++ parsed.reads) ↔ _
      rw [bounded_append]
      refine ⟨And.right, fun loop =>
        ⟨fun at_ isIn => loop at_ (onlyTimestamp_reads ran at_ isIn), loop⟩⟩
    rw [bounded]
    exact right

/-- **The options lie behind the end of the packet**: the data offset says that there are four bytes
of options, but the packet ends with the fixed header. -/
theorem read_behind_packet :
    ¬∀ (memory : Memory) (dataOffs packetLen : Nat) (ack : BitVec 32), dataOffs ≤ 60 →
    20 ≤ packetLen →
      ∃ parsed, processTcpOptionSack memory dataOffs ack = some parsed ∧
        Bounded dataOffs packetLen parsed.reads ∧
            (parsed.ok = false ↔ Malformed memory dataOffs) := by
  intro right
  obtain ⟨parsed, ran, bounded, -⟩ := right (fun _ => tcpoptEol) 24 20 0 (by decide) (by decide)
  cases ran
  exact absurd (bounded 20 List.mem_cons_self).2 (by decide)

end Qsdk.Sfe.Ipv4
