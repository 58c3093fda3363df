/-
**The delay lines of the radar filters.**

Each filter has a ring with the pulses that it has taken. A pulse that is added cuts off those
before it that are too old, going back from it to the first of them. The ages are cut to 32 bits: a
pulse that was taken longer ago than that can look young again, and one that starts after the pulse
looks very old. `Fits` is what a pulse has to meet so that neither happens.

What the pattern checks answer is left open, and so are the times between the pulses, which they
rewrite.
-/

import Qsdk.Lib.Ring
import Mathlib.Algebra.Group.Nat.Defs

namespace Qsdk.DelayLines

/-! ### Model -/

/-- What `dfs_delayelem` has of a pulse. -/
structure Taken where
  deTs : Nat
  deDur : Nat
  deRssi : Nat
  deSegId : Nat
  deSidx : Int
  deDeltaPeak : Int
  dePsidxDiff : Int
  deSeqNum : Nat

/-- `struct dfs_delayelem`. -/
structure DelayElem where
  deTime : Nat
  taken : Taken

/-- `DFS_MAX_DL_SIZE`. -/
def maxDlSize : Nat := 64

/-- `struct dfs_delayline`. What was added since the last reset, the newest first, is not in the
source. -/
structure DelayLine where
  elems : Ring DelayElem
  dlLastTs : Nat
  added : List Taken

/-- What `dfs_pulse` has of a pulse. -/
structure Pulse where
  pTime : Nat
  pDur : Nat
  pRssi : Nat
  pSidx : Int
  pDeltaPeak : Int
  pPsidxDiff : Int

structure PulseElem where
  pSeqNum : Nat
  pulse : Pulse

/-- `DFS_MAX_PULSE_BUFFER_SIZE`. -/
def maxPulseBufferSize : Nat := 1024

/-- `struct dfs_pulseline`, with what was added since the last reset. -/
structure PulseLine where
  elems : Ring PulseElem
  added : List Pulse

/-- `struct dfs_filter`. -/
structure Filter where
  rfMinpri : Nat
  rfMaxpri : Nat
  rfFilterlen : Nat
  rfPatterntype : Nat
  rfMindur : Nat
  rfMaxdur : Nat
  rfIgnorePriWindow : Nat
  rfDl : DelayLine

/-- `struct dfs_filtertype`. -/
structure FilterType where
  ftMinpri : Nat
  ftRssithresh : Nat
  ftLastTs : Nat
  ftFilters : List Filter

/-- `struct dfs_event`, with the time that `dfs_calculate_timestamps` has for it. -/
structure Event where
  thisTs : Nat
  reDur : Nat
  reRssi : Nat
  reSegId : Nat
  reSidx : Int
  reDeltaPeak : Int
  rePsidxDiff : Int
  reChanindex : Nat

/-- What a pattern check answers: that a radar is found, whether it is a real one, and the times
that it leaves. -/
structure Check where
  found : Bool
  isReal : Bool
  times : Nat → Nat

/-- What `dfs_dur_check`, the check for bin 5 and, for each filter of each type, the pattern check
answer. -/
structure Answers where
  dur : Nat
  bin5Found : Bool
  bin5Dur : Nat
  check : Nat → Nat → Check

/-- `dfs_ftindextable`. No duration has a filter type twice (`dfs_fill_filter_type`). -/
structure FtIndexTable where
  types : Nat → List Nat
  once : ∀ dur, (types dur).Nodup

/-- `struct wlan_dfs`. -/
structure Dfs where
  pulses : PulseLine
  radarf : List FilterType
  ftindextable : FtIndexTable
  seqNum : Nat
  testTs : Nat
  lowestPriLimit : Nat
  priMultiplier : Nat
  durMultiplier : Nat
  isBbTlv : Bool
  isCnDomain : Bool
  interference : Nat → Bool
  radarq : List (Event × Answers)

/-- `MAX_EVENTS` and `MAX_DUR_FOR_LOW_RSSI`. -/
def maxEvents : Nat := 100

def maxDurForLowRssi : Nat := 4

/-- `dfs_reset_filtertype`, for one line. -/
def DelayLine.zeroed : DelayLine :=
  ⟨⟨fun _ => ⟨0, ⟨0, 0, 0, 0, 0, 0, 0, 0⟩⟩, 0, maxDlSize - 1, 0⟩, 0, []⟩

/-- `dfs_reset_alldelaylines`. -/
def Dfs.resetAlldelaylines (dfs : Dfs) : Dfs :=
  { dfs with
    pulses := ⟨⟨dfs.pulses.elems.elems, 0, maxPulseBufferSize - 1, 0⟩, []⟩
    radarf := dfs.radarf.map fun ft =>
      { ft with ftFilters := ft.ftFilters.map fun rf => { rf with rfDl := .zeroed } } }

/-- A difference of times, in 64 bits. -/
def sub64 (a b : Nat) : Nat := (a + 2 ^ 64 - b) % 2 ^ 64

/-- The cutting loop of `dfs_add_pulse`, going back from the place `index`. -/
def cut (thisTs filterlen : Nat) : Nat → Nat → Nat → Ring DelayElem → Ring DelayElem
  | 0, _, _, ring => ring
  | fuel + 1, n, index, ring =>
    if n < ring.num - 1 then
      let index := (index + maxDlSize - 1) % maxDlSize
      let window := sub64 thisTs (ring.elems index).taken.deTs % 2 ^ 32
      cut thisTs filterlen fuel (n + 1) index
        (if window > filterlen then
          { ring with first := (index + 1) % maxDlSize, num := n + 1 } else ring)
    else ring

/-- What is added of a pulse. -/
def Event.taken (re : Event) (reDur thisTs seqNum : Nat) : Taken :=
  ⟨thisTs, reDur, re.reRssi, re.reSegId, re.reSidx, re.reDeltaPeak, re.rePsidxDiff, seqNum⟩

/-- `dfs_add_pulse`. -/
def DelayLine.addPulse (dl : DelayLine) (filterlen deltaT : Nat) (taken : Taken) : DelayLine :=
  let ring := dl.elems.push maxDlSize ⟨deltaT % 2 ^ 32, taken⟩
  { dl with
    elems := cut taken.deTs filterlen maxDlSize 0 ring.last ring, added := taken :: dl.added }

/-- `dfs_reject_on_pri`: whether the pulse is rejected, and whether the last time is set. -/
def Filter.rejectOnPri (rf : Filter) (priMultiplier deltaT : Nat) : Bool × Bool :=
  if deltaT < rf.rfMinpri ∧ deltaT ≠ 0 then (true, false)
  else if rf.rfIgnorePriWindow > 0 then
    if deltaT < rf.rfMinpri then (true, true) else (false, false)
  else if deltaT > priMultiplier * rf.rfMaxpri ∨ deltaT < rf.rfMinpri then (true, true)
  else (false, false)

/-- The time since the last pulse of the filter. -/
def Filter.deltaT (rf : Filter) (thisTs : Nat) : Nat :=
  if thisTs < rf.rfDl.dlLastTs then (2 ^ 64 - 1 - rf.rfDl.dlLastTs + thisTs + 1) % 2 ^ 64 else
    thisTs - rf.rfDl.dlLastTs

/-- The pattern check of a filter: `dfs_staggered_check`, `dfs_handle_fixedpattern` and the rest of
`dfs_bin_check` with `dfs_confirm_radar_check`. The results are that a radar is found, and that a
false one is. -/
def Filter.check (rf : Filter) (isCnDomain : Bool) (check : Check) : Filter × Bool × Bool :=
  let rewritten := rf.rfDl.elems.map fun i elem => { elem with deTime := check.times i }
  if rf.rfPatterntype = 2 then ({ rf with rfDl := { rf.rfDl with elems := rewritten } },
    check.found, false)
  else if rf.rfPatterntype = 1 then
    if check.found then
      ({ rf with rfDl := { rf.rfDl with elems := { rf.rfDl.elems with num := 0 }, added := [] } },
        true, false)
    else (rf, false, false)
  else
    let rf := { rf with rfDl := { rf.rfDl with elems := rewritten } }
    if check.found && !isCnDomain then (rf, check.isReal, !check.isReal) else
      (rf, check.found, false)

/-- One filter in `__dfs_process_radarevent`. -/
def Filter.process (rf : Filter) (dfs : Dfs) (re : Event) (reDur thisTs : Nat) (check : Check) :
    Filter × Bool × Bool :=
  if rf.rfMindur ≤ reDur ∧ reDur ≤ rf.rfMaxdur then
    let deltaT := rf.deltaT thisTs
    match rf.rejectOnPri dfs.priMultiplier deltaT with
    | (true, true) => ({ rf with rfDl := { rf.rfDl with dlLastTs := thisTs } }, false, false)
    | (true, false) => (rf, false, false)
    | (false, _) =>
      let rf :=
        { rf with
          rfDl := rf.rfDl.addPulse rf.rfFilterlen deltaT (re.taken reDur thisTs dfs.seqNum) }
      let (rf, found, falseFound) := rf.check dfs.isCnDomain check
      ({ rf with rfDl := { rf.rfDl with dlLastTs := thisTs } }, found, falseFound)
  else (rf, false, false)

/-- `__dfs_process_radarevent`: the filters one after the other, until one of them finds
something. -/
def processFilters (dfs : Dfs) (re : Event) (reDur thisTs : Nat) (check : Nat → Check) :
    Nat → List Filter → List Filter × Bool × Bool
  | _, [] => ([], false, false)
  | p, rf :: rest =>
    let (rf, found, falseFound) := rf.process dfs re reDur thisTs (check p)
    if found || falseFound then (rf :: rest, found, falseFound)
    else
      let (rest, found, falseFound) := processFilters dfs re reDur thisTs check (p + 1) rest
      (rf :: rest, found, falseFound)

/-- A pulse that the filter type does not let through, for its strength or for the time since the
last one. -/
def FilterType.rejects (ft : FilterType) (re : Event) (reDur thisTs : Nat) : Bool :=
  let deltaT := sub64 thisTs ft.ftLastTs
  (decide (re.reRssi < ft.ftRssithresh) && decide (reDur > maxDurForLowRssi)) ||
    (decide (deltaT < ft.ftMinpri) && decide (deltaT ≠ 0))

/-- The `while` of `dfs_check_if_nonbin5` over the filter types for the duration. -/
def checkIfNonbin5 (dfs : Dfs) (re : Event) (reDur thisTs : Nat) (check : Nat → Nat → Check) :
    List Nat → List FilterType → List FilterType × Bool × Bool
  | [], radarf => (radarf, false, false)
  | t :: table, radarf =>
    match radarf[t]? with
    | none => checkIfNonbin5 dfs re reDur thisTs check table radarf
    | some ft =>
      if ft.rejects re reDur thisTs then checkIfNonbin5 dfs re reDur thisTs check table radarf
      else
        let (filters, found, falseFound) :=
          processFilters dfs re reDur thisTs (check t) 0 ft.ftFilters
        let radarf := radarf.set t { ft with ftFilters := filters, ftLastTs := thisTs }
        if found || falseFound then (radarf, found, falseFound)
        else checkIfNonbin5 dfs re reDur thisTs check table radarf

/-- `dfs_round`. -/
def dfsRound (val : Nat) : Nat := if val - val / 100 * 100 < 50 then val / 100 else val / 100 + 1

/-- `dfs_process_pulse_dur`. -/
def Dfs.processPulseDur (dfs : Dfs) (reDur : Nat) : Nat :=
  if reDur = 0 then 1 else if dfs.isBbTlv then reDur else dfsRound (dfs.durMultiplier * reDur) % 256

/-- The start of a pulse. -/
def Dfs.start (dfs : Dfs) (re : Event) : Nat :=
  let reDur := dfs.processPulseDur re.reDur
  if !dfs.isBbTlv ∧ reDur ≠ 1 then sub64 re.thisTs reDur else re.thisTs

/-- A pulse for the pulse line. -/
def Event.pulse (re : Event) (reDur thisTs : Nat) : Pulse :=
  ⟨thisTs, reDur, re.reRssi, re.reSidx, re.reDeltaPeak, re.rePsidxDiff⟩

/-- The addition to the pulse line, in `dfs_add_to_pulseline` and in
`dfs_conditional_clear_delaylines`. The number is what stands there from before. -/
def PulseLine.add (pl : PulseLine) (pulse : Pulse) : PulseLine :=
  ⟨pl.elems.push maxPulseBufferSize
    ⟨(pl.elems.elems (pl.elems.next maxPulseBufferSize)).pSeqNum, pulse⟩,
    pulse :: pl.added⟩

/-- The number of the last pulse. -/
def PulseLine.setSeqNum (pl : PulseLine) (seqNum : Nat) : PulseLine :=
  { pl with elems := pl.elems.map fun i elem => if i = pl.elems.last then
    { elem with pSeqNum := seqNum } else elem }

/-- `dfs_add_to_pulseline`. -/
def Dfs.addToPulseline (dfs : Dfs) (re : Event) : Dfs :=
  let thisTs := dfs.start re
  { dfs with
    pulses := dfs.pulses.add (re.pulse (dfs.processPulseDur re.reDur) thisTs),
    testTs := thisTs % 2 ^ 32 }

/-- The difference of its time to that of the pulse before. -/
def Dfs.diffTs (dfs : Dfs) (re : Event) : Nat := sub64 (dfs.start re) dfs.testTs % 2 ^ 32

/-- `dfs_log_event`. -/
def Dfs.logEvent (dfs : Dfs) : Dfs :=
  let seqNum := (dfs.seqNum + 1) % 2 ^ 32
  { dfs with seqNum := seqNum, pulses := dfs.pulses.setSeqNum seqNum }

/-- Pulses that are too close for any filter. -/
def Dfs.clears (dfs : Dfs) (diffTs : Nat) : Bool := decide (diffTs < dfs.lowestPriLimit)

/-- `dfs_conditional_clear_delaylines`. -/
def Dfs.conditionalClearDelaylines (dfs : Dfs) (re : Event) (reDur thisTs diffTs : Nat) : Dfs :=
  if dfs.clears diffTs then
    let dfs := { dfs.resetAlldelaylines with radarq := [] }
    { dfs with seqNum := 1, pulses := (dfs.pulses.add (re.pulse reDur thisTs)).setSeqNum 1 }
  else dfs

/-- `dfs_skip_the_event`. -/
def Dfs.skipTheEvent (dfs : Dfs) (re : Event) : Bool :=
  decide (re.reChanindex ≥ 64) || dfs.interference re.reChanindex

/-- An event in `dfs_process_each_radarevent` until the filters. -/
def Dfs.recorded (dfs : Dfs) (re : Event) (answers : Answers) : Dfs :=
  (dfs.addToPulseline re).logEvent.conditionalClearDelaylines re answers.dur (dfs.start re)
    (dfs.diffTs re)

/-- The checks in `dfs_process_each_radarevent`. -/
def Dfs.checkAll (dfs : Dfs) (re : Event) (answers : Answers) (thisTs : Nat) : Dfs × Bool × Bool :=
  if answers.bin5Found then (dfs, true, false)
  else
    let (radarf, found, falseFound) := checkIfNonbin5 dfs re answers.bin5Dur thisTs answers.check
      (dfs.ftindextable.types answers.bin5Dur) dfs.radarf
    ({ dfs with radarf := radarf }, found, falseFound)

/-- **An event** in `dfs_process_each_radarevent`. The results are that a radar is found, and that a
false one is. -/
def Dfs.processEvent (dfs : Dfs) (re : Event) (answers : Answers) : Dfs × Bool × Bool :=
  if dfs.skipTheEvent re then (dfs, false, false)
  else (dfs.recorded re answers).checkAll re answers (dfs.start re)

/-- The `while` of `dfs_process_each_radarevent`. -/
def Dfs.processEach : Nat → Dfs → Dfs × Bool × Bool
  | 0, dfs => (dfs, false, false)
  | fuel + 1, dfs =>
    match dfs.radarq with
    | [] => (dfs, false, false)
    | (re, answers) :: radarq =>
      let (dfs, found, falseFound) := { dfs with radarq := radarq }.processEvent re answers
      if found || falseFound then (dfs, found, falseFound) else processEach fuel dfs

/-- What `dfs_process_radarevent` comes upon: no channel, one without radar, a simulated radar, that
is valid or not, too few pulses, or enough of them with their multiplier. -/
inductive Sees
  | noChan
  | nonDfs
  | bangradar (valid : Bool)
  | few
  | pulses (priMultiplier : Nat)

/-- A call of `dfs_process_radarevent`, after some events were queued. -/
structure Call where
  queued : List (Event × Answers)
  sees : Sees

/-- `dfs_radarfound_reset_vars` and `dfs_false_radarfound_reset_vars`. -/
def Dfs.finish (dfs : Dfs) (found falseFound : Bool) : Dfs :=
  let dfs := if found then { dfs.resetAlldelaylines with radarq := [] } else dfs
  if falseFound then { dfs.resetAlldelaylines with radarq := [], seqNum := 0 } else dfs

/-- `dfs_process_radarevent`. -/
def Dfs.processRadarevent (dfs : Dfs) (call : Call) : Dfs :=
  let dfs := { dfs with radarq := dfs.radarq ++ call.queued }
  match call.sees with
  | .noChan => dfs
  | .nonDfs => { dfs.resetAlldelaylines with radarq := [] }
  | .bangradar valid => dfs.finish valid false
  | .few => dfs
  | .pulses priMultiplier =>
    let (dfs, found, falseFound) :=
      { dfs with priMultiplier := priMultiplier }.processEach maxEvents
    dfs.finish found falseFound

/-! ### What is promised -/

/-- The pulses within the length of the filter before or after the newest one, the newest first. -/
def window (filterlen : Nat) : List Taken → List Taken
  | [] => []
  | newest :: older =>
    ((newest :: older).filter fun taken =>
      decide (taken.deTs ≤ newest.deTs + filterlen ∧ newest.deTs ≤ taken.deTs + filterlen)).take
        maxDlSize

/-- The pulses of a line, the newest first. -/
def DelayLine.pulses (dl : DelayLine) : List Taken :=
    ((dl.elems.contents maxDlSize).map (·.taken)).reverse

/-- **A line is a faithful window** of what was added. -/
structure DelayLine.Faithful (filterlen : Nat) (dl : DelayLine) : Prop where
  num : dl.elems.num ≤ maxDlSize
  last : dl.elems.num ≠ 0 → dl.elems.last = (dl.elems.first + dl.elems.num - 1) % maxDlSize
  pulses : dl.pulses = window filterlen dl.added

structure PulseLine.Faithful (pl : PulseLine) : Prop where
  num : pl.elems.num ≤ maxPulseBufferSize
  last : pl.elems.num ≠ 0 → pl.elems.last = (pl.elems.first + pl.elems.num - 1) % maxPulseBufferSize
  pulses : ((pl.elems.contents maxPulseBufferSize).map (·.pulse)).reverse =
    pl.added.take maxPulseBufferSize

/-- **All lines are faithful.** -/
structure Dfs.Faithful (dfs : Dfs) : Prop where
  pulses : dfs.pulses.Faithful
  lines : ∀ ft ∈ dfs.radarf, ∀ rf ∈ ft.ftFilters, rf.rfDl.Faithful rf.rfFilterlen

/-- What a pulse has to meet in a line that takes it: it does not start before another one, and the
newest of those that are too old looks too old in 32 bits. -/
structure DelayLine.Fits (dl : DelayLine) (filterlen thisTs : Nat) : Prop where
  notBefore : ∀ taken ∈ dl.pulses, taken.deTs ≤ thisTs
  noWrap : ∀ taken, (dl.pulses.find? fun taken => decide (taken.deTs + filterlen < thisTs)) =
    some taken →
    filterlen < (thisTs - taken.deTs) % 2 ^ 32

/-- A filter takes a pulse. -/
def Filter.Takes (rf : Filter) (dfs : Dfs) (reDur thisTs : Nat) : Prop :=
  (rf.rfMindur ≤ reDur ∧ reDur ≤ rf.rfMaxdur) ∧
    (rf.rejectOnPri dfs.priMultiplier (rf.deltaT thisTs)).1 = false

/-- What an event has to meet, where it comes to the filters and the lines are not cleared for
it. -/
def Dfs.Meets (dfs : Dfs) (re : Event) (answers : Answers) : Prop :=
  dfs.skipTheEvent re = false → answers.bin5Found = false → dfs.clears (dfs.diffTs re) = false →
    ∀ ft ∈ dfs.radarf, ∀ rf ∈ ft.ftFilters,
      rf.Takes dfs answers.bin5Dur (dfs.start re) → rf.rfDl.Fits rf.rfFilterlen (dfs.start re)

/-- The events that are processed in a call meet what they have to. -/
def Dfs.EachMeets : Nat → Dfs → Prop
  | 0, _ => True
  | fuel + 1, dfs =>
    match dfs.radarq with
    | [] => True
    | (re, answers) :: radarq =>
      let before := { dfs with radarq := radarq }
      before.Meets re answers ∧
        ((before.processEvent re answers).2 = (false, false) →
          EachMeets fuel (before.processEvent re answers).1)

/-- The lines are faithful after each event that is processed in a call. -/
def Dfs.EachFaithful : Nat → Dfs → Prop
  | 0, _ => True
  | fuel + 1, dfs =>
    match dfs.radarq with
    | [] => True
    | (re, answers) :: radarq =>
      let before := { dfs with radarq := radarq }
      (before.processEvent re answers).1.Faithful ∧
        ((before.processEvent re answers).2 = (false, false) →
          EachFaithful fuel (before.processEvent re answers).1)

/-- What is asked of a call, where `each` is asked of the events that it processes. -/
def Dfs.During (each : Nat → Dfs → Prop) (dfs : Dfs) (call : Call) : Prop :=
  match call.sees with
  | .pulses priMultiplier =>
    each maxEvents { dfs with radarq := dfs.radarq ++ call.queued, priMultiplier := priMultiplier }
  | _ => True

/-- Every event of some calls meets what it has to. -/
def AllMeet : Dfs → List Call → Prop
  | _, [] => True
  | dfs, call :: calls => dfs.During Dfs.EachMeets call ∧ AllMeet (dfs.processRadarevent call) calls

/-- **The lines are faithful throughout.** -/
def AllFaithful : Dfs → List Call → Prop
  | dfs, [] => dfs.Faithful
  | dfs, call :: calls =>
    dfs.Faithful ∧ dfs.During Dfs.EachFaithful call ∧ AllFaithful (dfs.processRadarevent call) calls

end Qsdk.DelayLines
