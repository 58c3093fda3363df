/-
**The times of radar pulses.**

`dfs_calculate_timestamps` puts a prefix before the 32-bit time of a pulse and raises it when the 32
bits have wrapped, by the number of wraps that the full time stamps tell. It compares with
`rn_last_ts`, which is a `uint16_t` and holds 16 bits of the last time, and where the low part has
grown across a wrap it takes one wrap less than there were. A step is right exactly if it is within
reach (`Reaches`), and then all differences of times are kept exactly if every step is
(`faithful_iff`): otherwise the times fall back by whole wraps and never make up for it.
-/

import Mathlib.Data.List.Chain
import Mathlib.Algebra.Group.Nat.Defs
import Mathlib.Algebra.Ring.Int.Defs

namespace Qsdk.Radar

/-! ### Model -/

/-- `struct dfs_event`, its times and its duration. -/
structure Event where
  fullTs : BitVec 64
  ts : BitVec 32
  dur : BitVec 8

/-- `struct dfs_rinfo`, as far as the times go. -/
structure RInfo where
  lastfullTs : BitVec 64
  lastTs : BitVec 16
  lastUniqueTs : BitVec 32
  tsPrefix : BitVec 64

namespace RInfo

/-- `(DFS_TSMASK - rn_last_ts) + 1 + re_ts`, which is computed in 32 bits. -/
def wrapped (rn : RInfo) (re : Event) : BitVec 32 :=
    (0xFFFFFFFF - rn.lastTs.setWidth 32) + 1 + re.ts

/-- `dfs_check_ts_wrap`. -/
def checkTsWrap (rn : RInfo) (re : Event) (deltafullTs : BitVec 64) : BitVec 64 :=
  if deltafullTs > (rn.wrapped re).setWidth 64 then deltafullTs -
    (rn.wrapped re).setWidth 64 else deltafullTs

/-- `dfs_calculate_ts_prefix`. -/
def calculateTsPrefix (rn : RInfo) (re : Event) : BitVec 64 :=
  let deltafullTs := re.fullTs - rn.lastfullTs
  if re.ts ≤ rn.lastTs.setWidth 32 then
    let tsPrefix := rn.tsPrefix + (1 : BitVec 64) <<< 32
    let deltafullTs := rn.checkTsWrap re deltafullTs >>> 32
    if deltafullTs > 1 then tsPrefix + (deltafullTs - 1) <<< 32 else tsPrefix
  else if deltafullTs > 0xFFFFFFFF then rn.tsPrefix + (deltafullTs >>> 32 - 1) <<< 32
  else rn.tsPrefix

/-- `dfs_calculate_timestamps`, with `this_ts`. -/
def calculateTimestamps (rn : RInfo) (re : Event) : RInfo × BitVec 64 :=
  let rn :=
    if rn.lastfullTs = 0 then { rn with tsPrefix := 0 }
    else { rn with
      lastUniqueTs := if re.dur = 0 ∧ re.ts = rn.lastUniqueTs then rn.lastUniqueTs else re.ts
      tsPrefix := rn.calculateTsPrefix re }
  ({ rn with lastfullTs := re.fullTs, lastTs := re.ts.setWidth 16 },
    rn.tsPrefix ||| re.ts.setWidth 64)

end RInfo

/-- A pulse, with its true time. -/
structure TruePulse where
  time : BitVec 64
  dur : BitVec 8

/-- The event of a pulse. -/
def TruePulse.event (pulse : TruePulse) : Event := ⟨pulse.time, pulse.time.setWidth 32, pulse.dur⟩

/-- The times of pulses, each beside the true one. -/
def timestamps (rn : RInfo) : List TruePulse → List (BitVec 64 × BitVec 64)
  | [] => []
  | pulse :: pulses =>
    (pulse.time, (rn.calculateTimestamps pulse.event).2) ::
      timestamps (rn.calculateTimestamps pulse.event).1 pulses

/-- **The times are as far apart as the true ones.** -/
def Faithful (times : List (BitVec 64 × BitVec 64)) : Prop :=
  ∀ x ∈ times, ∀ y ∈ times, (x.2.toNat : Int) - y.2.toNat = x.1.toNat - y.1.toNat

/-- The steps that are right: within a wrap, into the next one with a low part that is not above the
last 16 bits of the old one, or from a low part of 16 bits to the same. -/
def Reaches (old new : BitVec 64) : Prop :=
  new.toNat / 2 ^ 32 = old.toNat / 2 ^ 32 ∨
    (new.toNat / 2 ^ 32 = old.toNat / 2 ^ 32 + 1 ∧ new.toNat % 2 ^ 32 ≤ old.toNat % 2 ^ 16) ∨
    (new.toNat % 2 ^ 32 = old.toNat % 2 ^ 32 ∧ old.toNat % 2 ^ 32 < 2 ^ 16)

/-! ### A step -/

/-- The last pulse was this one, and the prefix is so many wraps behind its time. -/
structure RInfo.Behind (rn : RInfo) (time : BitVec 64) (wraps : Nat) : Prop where
  lastfullTs : rn.lastfullTs = time
  lastTs : rn.lastTs = (time.setWidth 32).setWidth 16
  tsPrefix : rn.tsPrefix.toNat + 2 ^ 32 * wraps = 2 ^ 32 * (time.toNat / 2 ^ 32)

variable {rn : RInfo} {time next : BitVec 64} {wraps : Nat}

/-- The two parts of a time. -/
theorem prefix_or {high : BitVec 64} (time : BitVec 64) (whole : high.toNat % 2 ^ 32 = 0) :
    (high ||| (time.setWidth 32).setWidth 64).toNat = high.toNat + time.toNat % 2 ^ 32 := by
  have low : time.toNat % 2 ^ 32 < 2 ^ 32 := Nat.mod_lt _ (by decide)
  have shifted : high.toNat = 2 ^ 32 * (high.toNat / 2 ^ 32) := by omega
  rw [BitVec.toNat_or, BitVec.toNat_setWidth, BitVec.toNat_setWidth,
    Nat.mod_eq_of_lt (by omega), shifted,
    Nat.two_pow_add_eq_or_of_lt low]

/-- The wraps that a step adds to the prefix, in numbers: `low` of the new time against the `last`
16 bits of the old. -/
def gained (low last delta : Nat) : Nat :=
  if low ≤ last then
    let wrapped := (2 ^ 32 - last + low) % 2 ^ 32
    max (if wrapped < delta then (delta - wrapped) / 2 ^ 32 else delta / 2 ^ 32) 1
  else delta / 2 ^ 32 - 1

/-- Never too many wraps are counted, and all of them exactly within reach. -/
theorem gained_spec {old new : Nat} (later : old < new) :
    gained (new % 2 ^ 32) (old % 2 ^ 16) (new - old) ≤ new / 2 ^ 32 - old / 2 ^ 32 ∧
      (gained (new % 2 ^ 32) (old % 2 ^ 16) (new - old) = new / 2 ^ 32 - old / 2 ^ 32 ↔
        new / 2 ^ 32 = old / 2 ^ 32 ∨
        (new / 2 ^ 32 = old / 2 ^ 32 + 1 ∧ new % 2 ^ 32 ≤ old % 2 ^ 16) ∨
          (new % 2 ^ 32 = old % 2 ^ 32 ∧ old % 2 ^ 32 < 2 ^ 16)) := by
  unfold gained
  dsimp only
  split
  · split <;> omega
  · omega

theorem RInfo.Behind.calculateTsPrefix_eq (behind : rn.Behind time wraps) (later : time < next)
    (dur : BitVec 8) :
    (rn.calculateTsPrefix (TruePulse.event ⟨next, dur⟩)).toNat =
      (rn.tsPrefix.toNat + 2 ^ 32 * gained (next.toNat % 2 ^ 32) (time.toNat % 2 ^ 16)
        (next.toNat - time.toNat)) %
        2 ^ 64 := by
  have later : time.toNat < next.toNat := later
  have delta : (next - rn.lastfullTs).toNat = next.toNat - time.toNat := by
    rw [behind.lastfullTs]
    bv_omega
  have low : (next.setWidth 32).toNat = next.toNat % 2 ^ 32 := BitVec.toNat_setWidth ..
  have last : (rn.lastTs.setWidth 32).toNat = time.toNat % 2 ^ 16 := by
    rw [behind.lastTs]
    bv_omega
  have wrapped : (rn.wrapped (TruePulse.event ⟨next, dur⟩)).toNat =
      (2 ^ 32 - time.toNat % 2 ^ 16 + next.toNat % 2 ^ 32) % 2 ^ 32 := by
    unfold RInfo.wrapped TruePulse.event
    dsimp only
    bv_omega
  unfold RInfo.calculateTsPrefix RInfo.checkTsWrap gained
  generalize rn.wrapped _ = width at wrapped ⊢
  rw [← wrapped]
  unfold TruePulse.event
  dsimp only
  generalize next - rn.lastfullTs = apart at delta ⊢
  rw [← delta, ← low, ← last]
  generalize next.setWidth 32 = lowBits, rn.lastTs.setWidth 32 = lastBits
  have width64 : (width.setWidth 64).toNat = width.toNat := by bv_omega
  by_cases small : lowBits ≤ lastBits
  · rw [if_pos small, if_pos (show lowBits.toNat ≤ lastBits.toNat from small)]
    by_cases exceeds : apart > width.setWidth 64
    · have overNat : width.toNat < apart.toNat := width64 ▸ exceeds
      have less : (apart - width.setWidth 64).toNat = apart.toNat - width.toNat := by bv_omega
      rw [if_pos exceeds, if_pos overNat, ← less]
      generalize apart - width.setWidth 64 = rest
      split <;> bv_omega
    · have overNat : ¬ width.toNat < apart.toNat := width64 ▸ exceeds
      rw [if_neg exceeds, if_neg overNat]
      split <;> bv_omega
  · rw [if_neg small, if_neg (show ¬ lowBits.toNat ≤ lastBits.toNat from small)]
    split <;> bv_omega

/-- The prefix of the next time. -/
theorem RInfo.Behind.calculateTsPrefix (behind : rn.Behind time wraps) (later : time < next)
    (dur : BitVec 8) :
    ∃ more, (rn.calculateTsPrefix (TruePulse.event ⟨next, dur⟩)).toNat + 2 ^ 32 * more =
      2 ^ 32 * (next.toNat / 2 ^ 32) ∧ wraps ≤ more ∧ (more = wraps ↔ Reaches time next) := by
  have eq := behind.calculateTsPrefix_eq later dur
  have tsPrefix := behind.tsPrefix
  have later : time.toNat < next.toNat := later
  have bound := next.isLt
  obtain ⟨most, all⟩ := gained_spec later
  generalize (rn.calculateTsPrefix _).toNat = raised at eq ⊢
  generalize gained _ _ _ = more at eq most all
  refine ⟨wraps + (next.toNat / 2 ^ 32 - time.toNat / 2 ^ 32 - more), by omega, by omega, ?_⟩
  refine Iff.trans ?_ all
  omega

/-- **A pulse:** its time is behind by no fewer wraps than the last one, and by as many exactly
within reach. -/
theorem RInfo.Behind.calculateTimestamps (behind : rn.Behind time wraps) (started : 0 < time)
    (later : time < next) (dur : BitVec 8) :
    ∃ more, (rn.calculateTimestamps (TruePulse.event ⟨next, dur⟩)).1.Behind next more ∧
      (rn.calculateTimestamps (TruePulse.event ⟨next, dur⟩)).2.toNat + 2 ^ 32 * more = next.toNat ∧
        wraps ≤ more ∧ (more = wraps ↔ Reaches time next) := by
  obtain ⟨more, tsPrefix, atLeast, same⟩ := behind.calculateTsPrefix later dur
  have running : rn.lastfullTs ≠ 0 := by
    rw [behind.lastfullTs]
    exact (BitVec.pos_iff_ne_zero time).mp started
  unfold RInfo.calculateTimestamps
  rw [if_neg running]
  refine ⟨more, ⟨rfl, rfl, tsPrefix⟩, ?_, atLeast, same⟩
  show (rn.calculateTsPrefix _ ||| (next.setWidth 32).setWidth 64).toNat + _ = _
  rw [prefix_or next (by omega)]
  omega

/-- The first pulse: the prefix is blanked. -/
theorem RInfo.calculateTimestamps_first (start : rn.lastfullTs = 0) (pulse : TruePulse) :
    (rn.calculateTimestamps pulse.event).1.Behind pulse.time (pulse.time.toNat / 2 ^ 32) ∧
      (rn.calculateTimestamps pulse.event).2.toNat + 2 ^ 32 * (pulse.time.toNat / 2 ^ 32) =
          pulse.time.toNat := by
  unfold RInfo.calculateTimestamps
  rw [if_pos start]
  refine ⟨⟨rfl, rfl, Nat.zero_add _⟩, ?_⟩
  show ((0 : BitVec 64) ||| (pulse.time.setWidth 32).setWidth 64).toNat + _ = _
  rw [prefix_or pulse.time rfl]
  exact (congrArg (· + _) (Nat.zero_add _)).trans (Nat.mod_add_div ..)

/-! ### Runs -/

/-- Along a run the times stay as far behind as they are exactly if every step is within reach. -/
theorem RInfo.Behind.run_iff (behind : rn.Behind time wraps) (started : 0 < time)
    (pulses : List TruePulse) (increasing : (time :: pulses.map (·.time)).IsChain (· < ·)) :
    (∀ x ∈ timestamps rn pulses, x.2.toNat + 2 ^ 32 * wraps = x.1.toNat) ↔
      (time :: pulses.map (·.time)).IsChain Reaches := by
  induction pulses generalizing rn time wraps with
  | nil => simp [timestamps]
  | cons pulse pulses ih =>
    rw [List.map_cons, List.isChain_cons_cons] at increasing ⊢
    obtain ⟨later, rest⟩ := increasing
    obtain ⟨more, behind', this, _, same⟩ := behind.calculateTimestamps started later pulse.dur
    have positive : 0 < pulse.time := BitVec.lt_trans started later
    unfold timestamps
    rw [List.forall_mem_cons]
    constructor
    · rintro ⟨first, others⟩
      have isSame : more = wraps := by
        have first : (rn.calculateTimestamps (TruePulse.event ⟨pulse.time, pulse.dur⟩)).2.toNat +
          2 ^ 32 * wraps =
          pulse.time.toNat := first
        omega
      exact ⟨same.mp isSame, (ih (isSame ▸ behind') positive rest).mp others⟩
    · rintro ⟨reaches, chain⟩
      obtain rfl := same.mpr reaches
      exact ⟨this, (ih behind' positive rest).mpr chain⟩

/-- The times are as far apart as the true ones exactly when all are as far behind as the first. -/
theorem faithful_cons_iff {x : BitVec 64 × BitVec 64} {times : List (BitVec 64 × BitVec 64)}
    {behind : Nat} (first : x.2.toNat + behind = x.1.toNat) :
    Faithful (x :: times) ↔ ∀ y ∈ times, y.2.toNat + behind = y.1.toNat := by
  constructor
  · intro faithful y member
    have apart := faithful y (List.mem_cons_of_mem _ member) x List.mem_cons_self
    omega
  · intro all y isY z isZ
    have every : ∀ y ∈ x :: times, y.2.toNat + behind = y.1.toNat :=
      List.forall_mem_cons.mpr ⟨first, all⟩
    have ofY := every y isY
    have ofZ := every z isZ
    omega

/-- **Pulse times are reconstructed faithfully exactly when every step is within reach.** -/
theorem faithful_iff (start : rn.lastfullTs = 0) (pulses : List TruePulse)
    (positive : ∀ first ∈ pulses.head?, 0 < first.time)
    (increasing : (pulses.map (·.time)).Pairwise (· < ·)) :
    Faithful (timestamps rn pulses) ↔ (pulses.map (·.time)).IsChain Reaches := by
  cases pulses with
  | nil => exact iff_of_true (fun _ member => absurd member List.not_mem_nil) List.isChain_nil
  | cons pulse pulses =>
    obtain ⟨behind, this⟩ := RInfo.calculateTimestamps_first start pulse
    unfold timestamps
    rw [faithful_cons_iff this, List.map_cons]
    exact behind.run_iff (positive pulse rfl) pulses increasing.isChain

/-- Nothing is known yet. -/
def RInfo.init : RInfo := ⟨0, 0, 0, 0⟩

/-- 65 ms that go across a wrap: the low part is over the 16 bits that are kept of the old one, so
no wrap is seen, and the second time comes out before the first. -/
theorem not_faithful_across_wrap :
    ¬ Faithful (timestamps RInfo.init [⟨0xFFFF0001, 1⟩, ⟨0x100000002, 1⟩]) := by
  intro faithful
  have apart := faithful (0x100000002, 2) (by decide) (0xFFFF0001, 0xFFFF0001) (by decide)
  exact absurd apart (by decide)

/-- Into the next wrap with a low part that is small enough. -/
theorem faithful_across_wrap :
    Faithful (timestamps RInfo.init [⟨0xFFFF0002, 1⟩, ⟨0x100000001, 1⟩]) :=
  (faithful_iff rfl _ (by decide) (by decide)).mpr (by simp [Reaches])

end Qsdk.Radar
