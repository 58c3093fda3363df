/-
**The preCAC list.**

`dfs_init_precac_list` makes an entry with a tree for each root channel. The operations look for the
first entry in whose range a subchannel is, each with a range of its own, and change the tree of
this entry.

All trees of one bandwidth are the same up to a shift of their frequencies, so that they are well
formed is seen on one of them.
-/

import Qsdk.Dfs.PrecacCounts
import Mathlib.Algebra.Group.Nat.Defs

namespace Qsdk.Dfs

/-- A root channel, `struct dfs_channel_bw`. -/
structure DfsChannelBw where
  dfsPriChFreq : Nat
  dfsCenterChFreq : Nat
  dfsMaxBw : Nat
  deriving DecidableEq, Repr

/-- `struct dfs_precac_entry`. -/
structure DfsPrecacEntry where
  centerChFreq : Nat
  bw : Nat
  treeRoot : PrecacTree
  deriving DecidableEq, Repr

/-! ### Creating the tree of a root channel -/

/-- `check_if_freq_is_allowed`. -/
def checkIfFreqIsAllowed (freq : Nat) : Bool :=
    !decide (freq ∈ [5740, 5760, 5780, 5800, 5750, 5770, 5790])

/-- `initial_and_next_offsets` of the bandwidth, with one entry for each level of the tree. -/
def initialAndNextOffsets (bandwidth : Nat) : List (Int × Nat) :=
  if bandwidth = 20 then [(0, 20)]
  else if bandwidth = 40 then [(0, 40), (-10, 20)]
  else if bandwidth = 80 then [(0, 80), (-20, 40), (-30, 20)]
  else if bandwidth = 160 then [(0, 160), (-40, 80), (-60, 40), (-70, 20)]
  else if bandwidth = 320 then [(0, 320), (-80, 160), (-120, 80), (-140, 40), (-150, 20)]
  else []

/-- The offsets at each level, from the initial one on and below the boundary, in steps. -/
def offsets (bandwidth : Nat) : List (Int × Nat) :=
  let topLvlStep := ((initialAndNextOffsets bandwidth).headD (0, 0)).2
  (initialAndNextOffsets bandwidth).zipIdx.flatMap fun ((initial, step), level) =>
    (List.range ((topLvlStep + step - 1) / step)).map fun index => (initial + index * step, level)

/-- The node that `dfs_create_precac_tree_for_freq` makes for an offset at a level. -/
def levelNode (chFreq bandwidth : Nat) (isNodePartOf165Tree : Bool) (slot : Int × Nat) :
    PrecacTreeNode :=
  initPrecacTreeNode (chFreq + slot.1).toNat (bandwidth / 2 ^ slot.2)
    (if isNodePartOf165Tree then slot.2 + 1 else slot.2)

/-- `dfs_create_precac_tree_for_freq`, from the given root on. -/
def createPrecacTree (chFreq bandwidth : Nat) (isNodePartOf165Tree : Bool) (tree : PrecacTree) :
    PrecacTree :=
  (((offsets bandwidth).map (levelNode chFreq bandwidth isNodePartOf165Tree)).filter fun node =>
    checkIfFreqIsAllowed node.chFreq).foldl (fun tree node => tree.insertNode node) tree

/-- The tree of `dfs_precac_create_165mhz_precac_entry`. -/
def create165mhzPrecacTree : PrecacTree :=
  .node (initPrecacTreeNode 5730 160 0) (createPrecacTree 5690 80 true .nil)
    (createPrecacTree 5775 80 true .nil)

/-- `dfs_precac_create_165mhz_precac_entry` or `dfs_precac_create_precac_entry`. -/
def createPrecacEntry (root : DfsChannelBw) : DfsPrecacEntry :=
  if root.dfsMaxBw = 165 then ⟨5730, 160, create165mhzPrecacTree⟩
  else ⟨root.dfsCenterChFreq, root.dfsMaxBw,
    createPrecacTree root.dfsCenterChFreq root.dfsMaxBw false .nil⟩

/-! ### The operations on the list -/

/-- `dfs_is_freq_within_range`, for the range of an entry. -/
def DfsPrecacEntry.isFreqWithinRange (entry : DfsPrecacEntry) (frequency : Nat) : Bool :=
  let rightEdge := if entry.centerChFreq = 5650 then entry.centerChFreq + 80 else
    entry.centerChFreq + entry.bw / 2
  decide (entry.centerChFreq < frequency + entry.bw / 2 ∧ frequency < rightEdge)

/-- `IS_WITHIN_RANGE_STRICT`, as `dfs_unmark_precac_nol_for_freq` uses it. -/
def DfsPrecacEntry.isWithinHalfBw (entry : DfsPrecacEntry) (frequency : Nat) : Bool :=
  decide (entry.centerChFreq < frequency + entry.bw / 2 ∧ frequency <
    entry.centerChFreq + entry.bw / 2)

/-- `IS_WITHIN_RANGE` with `VHT160_FREQ_OFFSET`, as `dfs_unmark_rcac_done` uses it. -/
def DfsPrecacEntry.isWithinVht160 (entry : DfsPrecacEntry) (frequency : Nat) : Bool :=
  decide (entry.centerChFreq ≤ frequency + 75 ∧ frequency ≤ entry.centerChFreq + 75)

/-- The tree of the first entry that is asked for is changed. -/
def onFirst (isIt : DfsPrecacEntry → Bool) (change : PrecacTree → PrecacTree) :
    List DfsPrecacEntry → List DfsPrecacEntry
  | [] => []
  | entry :: rest =>
    if isIt entry then { entry with treeRoot := change entry.treeRoot } :: rest
    else entry :: onFirst isIt change rest

/-- What is done for one 20 MHz subchannel. -/
inductive SubchannelOp
  | cacDone
  | radar
  | nolExpiry
  | rcacReset
  deriving DecidableEq, Repr

/-- Which entry it is done to. -/
def SubchannelOp.isIt (op : SubchannelOp) (entry : DfsPrecacEntry) (freq : Nat) : Bool :=
  match op with
  | cacDone => entry.isFreqWithinRange freq
  | radar => entry.isFreqWithinRange freq
  | nolExpiry => entry.isWithinHalfBw freq
  | rcacReset => entry.isWithinVht160 freq

/-- What is done to the tree of this entry. -/
def SubchannelOp.change (op : SubchannelOp) (freq : Nat) (tree : PrecacTree) : PrecacTree :=
  match op with
  | cacDone => tree.markAsCacDone freq
  | radar => tree.markAsNol freq
  | nolExpiry => tree.unmarkAsNol freq
  | rcacReset => tree.unmarkAsCacDone freq

/-- The body of the loop over the subchannels. -/
def SubchannelOp.apply (list : List DfsPrecacEntry) (step : SubchannelOp × Nat) :
    List DfsPrecacEntry :=
  onFirst (fun entry => step.1.isIt entry step.2) (step.1.change step.2) list

/-- `enum phy_ch_width`, as far as the preCAC list goes by it. -/
inductive PhyChWidth
  | width20
  | width40
  | width80
  | width160
  | width80p80
  | other
  deriving DecidableEq, Repr

/-- `dfs_find_subchannels_for_center_freq`. -/
def findSubchannelsForCenterFreq (priCenterFreq secCenterFreq : Nat) : PhyChWidth → List Nat
  | .width20 => [priCenterFreq]
  | .width40 => [priCenterFreq - 10, priCenterFreq + 10]
  | .width80 => [priCenterFreq - 30, priCenterFreq - 10, priCenterFreq + 10, priCenterFreq + 30]
  | .width80p80 => [priCenterFreq - 30, priCenterFreq - 10, priCenterFreq + 10, priCenterFreq + 30,
      secCenterFreq - 30, secCenterFreq - 10, secCenterFreq + 10, secCenterFreq + 30]
  | .width160 => [priCenterFreq - 70, priCenterFreq - 50, priCenterFreq - 30, priCenterFreq - 10,
      priCenterFreq + 10, priCenterFreq + 30, priCenterFreq + 50, priCenterFreq + 70]
  | .other => []

/-- A call of one of the functions that change the list. -/
inductive Call
  | markPrecacDone (priChFreq secChFreq : Nat) (chWidth : PhyChWidth)
  | markPrecacNol (freqLst : List Nat)
  | unmarkPrecacNol (chanFreq : Nat)
  | unmarkRcacDone (mhzFreqSeg0 mhzFreqSeg1 : Nat) (chWidth : PhyChWidth)
  deriving Repr

/-- What a call does, subchannel by subchannel: the loops of `dfs_mark_precac_done_for_freq`,
`dfs_mark_precac_nol_for_freq`, `dfs_unmark_precac_nol_for_freq` (no loop) and
`dfs_unmark_rcac_done`. -/
def Call.steps : Call → List (SubchannelOp × Nat)
  | markPrecacDone priChFreq secChFreq chWidth =>
    if priChFreq = 0 then []
    else (findSubchannelsForCenterFreq priChFreq secChFreq chWidth).map (.cacDone, ·)
  | markPrecacNol freqLst => freqLst.map (.radar, ·)
  | unmarkPrecacNol chanFreq => [(.nolExpiry, chanFreq)]
  | unmarkRcacDone mhzFreqSeg0 mhzFreqSeg1 chWidth =>
    let (priChFreq, secChFreq) := if chWidth = .width160 then (mhzFreqSeg1, 0) else
      (mhzFreqSeg0, mhzFreqSeg1)
    if priChFreq = 0 then []
    else (findSubchannelsForCenterFreq priChFreq secChFreq chWidth).map (.rcacReset, ·)

/-- The list after a call. -/
def Call.exec (list : List DfsPrecacEntry) (call : Call) : List DfsPrecacEntry :=
  call.steps.foldl SubchannelOp.apply list

/-- Whether `dfs_init_precac_list` leaves a root channel out: it has no centre, or an entry with
this centre. -/
def isLeftOut (list : List DfsPrecacEntry) (root : DfsChannelBw) : Bool :=
  list.any (fun entry => entry.centerChFreq = root.dfsCenterChFreq) ||
    decide (root.dfsCenterChFreq = 0)

/-- One turn of the loop of `dfs_init_precac_list`, if all memory can be allocated. `nonDfs` is the
centre of the 80 MHz part of a root channel that needs no DFS (0 if there is none), which
`dfs_mark_non_dfs_as_precac_done` learns from the channel list. -/
def addRoot (nonDfs : DfsChannelBw → Nat) (list : List DfsPrecacEntry) (root : DfsChannelBw) :
    List DfsPrecacEntry :=
  if isLeftOut list root then list
  else (Call.markPrecacDone (nonDfs root) 0 .width80).exec (list ++ [createPrecacEntry root])

/-- `dfs_init_precac_list`. -/
def initPrecacList (nonDfs : DfsChannelBw → Nat) (roots : List DfsChannelBw) :
    List DfsPrecacEntry :=
  roots.foldl (addRoot nonDfs) []

/-- `dfs_is_precac_done_on_ht20_40_80_160_165_chan_for_freq`. -/
def isPrecacDoneForFreq (list : List DfsPrecacEntry) (chanFreq : Nat) : Bool :=
  match list.find? fun entry => entry.isFreqWithinRange chanFreq with
  | some entry => entry.treeRoot.findCacStatus chanFreq
  | none => false

/-- The modes of a channel that `dfs_is_precac_done` tells apart. -/
inductive ChanMode
  | mode20
  | mode40
  | mode80
  | mode160
  | mode165
  | mode8080
  | other
  deriving DecidableEq, Repr

/-- `struct dfs_channel`, as far as `dfs_is_precac_done` reads it. -/
structure DfsChannel where
  is5ghz : Bool
  mode : ChanMode
  isDfs : Bool
  isDfsCfreq2 : Bool
  dfsChMhzFreqSeg1 : Nat
  dfsChMhzFreqSeg2 : Nat
  deriving DecidableEq, Repr

/-- The centre that `dfs_is_precac_done` asks for, unless the channel is 80+80. -/
def DfsChannel.cfreq (chan : DfsChannel) : Nat :=
  match chan.mode with
  | .mode160 => chan.dfsChMhzFreqSeg2
  | .mode165 => 5730
  | _ => chan.dfsChMhzFreqSeg1

/-- `dfs_is_precac_done_on_ht8080_chan`. -/
def isPrecacDoneOnHt8080Chan (list : List DfsPrecacEntry) (chan : DfsChannel) : Bool :=
  let primaryFound := if chan.isDfs then isPrecacDoneForFreq list chan.dfsChMhzFreqSeg1 else true
  if chan.isDfsCfreq2 && primaryFound then isPrecacDoneForFreq list chan.dfsChMhzFreqSeg2 else
    primaryFound

/-- `dfs_is_precac_done`. -/
def isPrecacDone (list : List DfsPrecacEntry) (chan : DfsChannel) : Bool :=
  if !chan.is5ghz then false
  else match chan.mode with
    | .mode20 | .mode40 | .mode80 | .mode160 | .mode165 => isPrecacDoneForFreq list chan.cfreq
    | .mode8080 => isPrecacDoneOnHt8080Chan list chan
    | .other => false

end Qsdk.Dfs
