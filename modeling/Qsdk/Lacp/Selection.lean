/-
**The active aggregator.**

All policies but one keep a single aggregator of an LACP instance active. `selectActiveAggregator`
walks over the aggregators that have ports and whose link is up, and keeps the better one of two
(`selectionCompare`, whose order is `Greater`). The walk starts with the aggregator that was active
before, if its link is up: whether it still has ports is not asked. One that has lost its ports
since can stay (`free_stays_active`); every other choice is optimal (`active_is_best_iff`).
-/

import Qsdk.Lib.Best
import Mathlib.Data.Prod.Lex
import Mathlib.Data.List.Nodup
import Mathlib.Order.BooleanAlgebra.Defs
import Mathlib.Order.BoundedOrder.Lattice
import Mathlib.Algebra.GroupWithZero.Nat

namespace Qsdk.Lacp

/-- `enum lacp_ad_select_alg`. -/
inductive AdSelect
  | all
  | stable
  | bandwidth
  | count
deriving DecidableEq

/-- `struct lacpd_port`, its `actor_port_info.key`. -/
structure Port where
  key : BitVec 16
deriving DecidableEq

/-- `lacpd_port_key_to_speed`: from the bit `idx` on, of the `n` that are left. -/
def keyToSpeedFrom (speedKey : BitVec 32) (idx speed : Nat) : Nat → Nat
  | 0 => 0
  | n + 1 => if speedKey.getLsbD idx then speed else keyToSpeedFrom speedKey (idx + 1)
    (speed * 10) n

def keyToSpeed (speedKey : BitVec 32) : Nat := keyToSpeedFrom speedKey 0 1 5

/-- `lacp_port_key_get_speed`. -/
def keyGetSpeed (key : BitVec 16) : BitVec 32 := ((key.setWidth 32) >>> 1) &&& 0x1f

/-- `struct lacpd_aggregator`. -/
structure Aggregator where
  aggregatorIdentifier : BitVec 32
  individualAggregator : Bool
  actorOperAggregatorKey : BitVec 16
  partnerSystem : BitVec 48
  isFree : Bool
  devIfindex : BitVec 32
  ports : List Port
deriving DecidableEq

/-- `mac_addr_is_empty`. -/
def macAddrIsEmpty (addr : BitVec 48) : Bool := addr = 0

namespace Aggregator

variable (agg : Aggregator)

/-- The ports are counted, and their speeds added, as the comparison does. -/
def numOfPorts : Nat := agg.ports.length

def totalBandwidth : Nat := (agg.ports.map fun port => keyToSpeed (keyGetSpeed port.key)).sum

end Aggregator

/-- `lacpd_aggregator_selection_compare`. -/
def selectionCompare (adSelect : AdSelect) : Option Aggregator → Aggregator → Aggregator
  | none, curr => curr
  | some best, curr =>
    if curr.individualAggregator = false ∧ best.individualAggregator = true then curr
    else if curr.individualAggregator = true ∧ best.individualAggregator = false then best
    else if macAddrIsEmpty curr.partnerSystem = false ∧
      macAddrIsEmpty best.partnerSystem = true then curr
    else if macAddrIsEmpty curr.partnerSystem = true ∧
      macAddrIsEmpty best.partnerSystem = false then best
    else if adSelect = .count ∧ curr.numOfPorts > best.numOfPorts then curr
    else if adSelect = .count ∧ curr.numOfPorts < best.numOfPorts then best
    else if adSelect ≠ .all ∧ curr.totalBandwidth > best.totalBandwidth then curr
    else best

/-- `struct lacpd_lacp`. The identifiers are unique in an instance, and none is zero. -/
structure Instance where
  adSelect : AdSelect
  aggregators : List Aggregator
  activeAggregator : BitVec 32
  unique : (aggregators.map (·.aggregatorIdentifier)).Nodup
  initialized : ∀ agg ∈ aggregators, agg.aggregatorIdentifier ≠ 0

namespace Instance

variable (lacp : Instance) (linkStatus : BitVec 32 → Bool)

/-- `lacpd_aggregator_lookup` with `lacpd_aggregator_selector_by_id`. -/
def lookup (id : BitVec 32) : Option Aggregator :=
  lacp.aggregators.find? fun agg =>
    decide (agg.aggregatorIdentifier ≠ 0 ∧ id ≠ 0 ∧ agg.aggregatorIdentifier = id)

/-- The link of an aggregator's device is up. -/
def isUp (agg : Aggregator) : Bool := linkStatus agg.devIfindex

/-- The aggregator that is active before. -/
def active : Option Aggregator := lacp.lookup lacp.activeAggregator

/-- What the walk over the aggregators ends with. -/
def best : Option Aggregator :=
  lacp.aggregators.foldl (fun best agg =>
      if agg.isFree = false ∧ isUp linkStatus agg = true then
        some (selectionCompare lacp.adSelect best agg) else best)
    (lacp.active.filter (isUp linkStatus))

/-- The stable policy keeps the old active aggregator. -/
def keepsActive (active best : Aggregator) : Bool :=
  !active.ports.isEmpty && isUp linkStatus active &&
    (!macAddrIsEmpty active.partnerSystem ||
      (macAddrIsEmpty active.partnerSystem && macAddrIsEmpty best.partnerSystem)) &&
    !(active.actorOperAggregatorKey == 0 && best.actorOperAggregatorKey != 0)

/-- What is active after, and the devices that are disabled and enabled. -/
structure Selected where
  activeAggregator : BitVec 32
  disabled : Option (BitVec 32)
  enabled : Option (BitVec 32)
deriving DecidableEq

/-- `lacpd_select_active_aggregator`, when the policy is not `LACP_AD_SELECT_ALG_ALL`: the
identifier, and the device that is disabled. -/
def choose : BitVec 32 × Option (BitVec 32) :=
  match lacp.best linkStatus, lacp.active with
  | none, _ => (0, none)
  | some best, none => (best.aggregatorIdentifier, none)
  | some best, some active =>
    if lacp.adSelect = .stable ∧ keepsActive linkStatus active best = true then
      (active.aggregatorIdentifier, none)
    else if best = active then (active.aggregatorIdentifier, none)
    else (best.aggregatorIdentifier, some active.devIfindex)

/-- `lacpd_select_active_aggregator`. -/
def selectActiveAggregator : Selected :=
  if lacp.adSelect = .all then ⟨lacp.activeAggregator, none, none⟩
  else
    let chosen := lacp.choose linkStatus
    ⟨chosen.1, chosen.2, (lacp.lookup chosen.1).map (·.devIfindex)⟩

end Instance

/-! ### What is chosen -/

section Order

variable (adSelect : AdSelect)

/-- **The order of the aggregators.** Not individual, then with a partner that has replied, then
with more ports under the count policy, then with more bandwidth. -/
def Greater (agg other : Aggregator) : Prop :=
  (agg.individualAggregator = false ∧ other.individualAggregator = true) ∨
    agg.individualAggregator = other.individualAggregator ∧
      ((macAddrIsEmpty agg.partnerSystem = false ∧ macAddrIsEmpty other.partnerSystem = true) ∨
        macAddrIsEmpty agg.partnerSystem = macAddrIsEmpty other.partnerSystem ∧
          ((adSelect = .count ∧ other.numOfPorts < agg.numOfPorts) ∨
            (adSelect = .count → agg.numOfPorts = other.numOfPorts) ∧
            other.totalBandwidth < agg.totalBandwidth))

/-- The rank of an aggregator in that order. -/
def rank (agg : Aggregator) : Bool ×ₗ Bool ×ₗ Nat ×ₗ Nat :=
  toLex (!agg.individualAggregator, toLex (!macAddrIsEmpty agg.partnerSystem,
    toLex (if adSelect = .count then agg.numOfPorts else 0, agg.totalBandwidth)))

theorem greater_iff (agg other : Aggregator) : Greater adSelect agg other ↔
    rank adSelect other < rank adSelect agg := by
  unfold Greater rank
  rw [Prod.Lex.toLex_lt_toLex, Prod.Lex.toLex_lt_toLex, Prod.Lex.toLex_lt_toLex]
  cases agg.individualAggregator <;> cases other.individualAggregator <;>
    cases macAddrIsEmpty agg.partnerSystem <;> cases macAddrIsEmpty other.partnerSystem <;>
    by_cases isCount : adSelect = .count <;> simp [isCount, eq_comm]

theorem bool_same {a b : Bool} (first : ¬ (a = false ∧ b = true))
    (second : ¬ (a = true ∧ b = false)) : a = b := by
  cases a <;> cases b <;> simp_all

/-- The comparison keeps the better one. -/
theorem selectionCompare_some (notAll : adSelect ≠ .all) (best curr : Aggregator) :
    selectionCompare adSelect (some best) curr = Best.keepBetter (rank adSelect) best curr := by
  unfold Best.keepBetter selectionCompare
  dsimp only
  by_cases better : Greater adSelect curr best
  · rw [if_pos ((greater_iff adSelect curr best).mp better)]
    rcases better with individual | ⟨sameIndividual,
      replied | ⟨samePartner, ports | ⟨samePorts, bandwidth⟩⟩⟩
    · rw [if_pos individual]
    · rw [if_neg (by simp [sameIndividual]), if_neg (by simp [sameIndividual]), if_pos replied]
    · rw [if_neg (by simp [sameIndividual]), if_neg (by simp [sameIndividual]),
        if_neg (by simp [samePartner]),
        if_neg (by simp [samePartner]), if_pos ports]
    · rw [if_neg (by simp [sameIndividual]), if_neg (by simp [sameIndividual]),
        if_neg (by simp [samePartner]),
        if_neg (by simp [samePartner]), if_neg fun more =>
        absurd (samePorts more.1) (Nat.ne_of_gt more.2),
        if_neg fun fewer => absurd (samePorts fewer.1) (Nat.ne_of_lt fewer.2),
        if_pos ⟨notAll, bandwidth⟩]
  · rw [if_neg fun less => better ((greater_iff adSelect curr best).mpr less)]
    rw [if_neg fun individual => better (.inl individual)]
    split
    · rfl
    rename_i notIndividual
    have sameIndividual := bool_same (fun individual => better (.inl individual)) notIndividual
    rw [if_neg fun replied => better (.inr ⟨sameIndividual, .inl replied⟩)]
    split
    · rfl
    rename_i notReplied
    have samePartner :=
      bool_same (fun replied => better (.inr ⟨sameIndividual, .inl replied⟩)) notReplied
    rw [if_neg fun ports => better (.inr ⟨sameIndividual, .inr ⟨samePartner, .inl ports⟩⟩)]
    split
    · rfl
    rename_i notFewer
    refine if_neg fun bandwidth =>
      better (.inr ⟨sameIndividual, .inr ⟨samePartner, .inr ⟨fun isCount => ?_, bandwidth.2⟩⟩⟩)
    refine Nat.le_antisymm ?_ (Nat.le_of_not_lt fun fewer => notFewer ⟨isCount, fewer⟩)
    exact Nat.le_of_not_lt fun more =>
      better (.inr ⟨sameIndividual, .inr ⟨samePartner, .inl ⟨isCount, more⟩⟩⟩)

end Order

namespace Instance

variable (lacp : Instance) (linkStatus : BitVec 32 → Bool)

/-- An aggregator with ports whose link is up. -/
def Eligible (agg : Aggregator) : Prop := agg ∈ lacp.aggregators ∧ agg.isFree = false ∧
    isUp linkStatus agg = true

/-- **The active aggregator is eligible, there is one if there can be, and no eligible one is
greater.** -/
structure Optimal (id : BitVec 32) : Prop where
  eligible : ∀ agg, lacp.lookup id = some agg → lacp.Eligible linkStatus agg
  chosen : ∀ agg, lacp.Eligible linkStatus agg → ∃ active, lacp.lookup id = some active
  best : ∀ active agg, lacp.lookup id = some active → lacp.Eligible linkStatus agg →
    ¬ Greater lacp.adSelect agg active

/-- **The previous active aggregator is kept**, unless it has no ports, is down, or loses to the
best one on its partner or its key. -/
def Kept (id : BitVec 32) : Prop :=
  ∀ active best, lacp.active = some active → lacp.best linkStatus = some best → active.ports ≠ [] →
    isUp linkStatus active = true →
    ¬ (macAddrIsEmpty active.partnerSystem = true ∧ macAddrIsEmpty best.partnerSystem = false) →
    ¬ (active.actorOperAggregatorKey = 0 ∧ best.actorOperAggregatorKey ≠ 0) →
    lacp.lookup id = some active

/-- What is promised of the choice. -/
def Promised : Prop :=
  (lacp.adSelect = .count ∨ lacp.adSelect = .bandwidth →
    lacp.Optimal linkStatus (lacp.selectActiveAggregator linkStatus).activeAggregator) ∧
  (lacp.adSelect = .stable →
    lacp.Kept linkStatus (lacp.selectActiveAggregator linkStatus).activeAggregator)

variable {lacp linkStatus} {agg active chosen : Aggregator} {id : BitVec 32}

theorem mem_of_lookup (found : lacp.lookup id = some agg) : agg ∈ lacp.aggregators ∧
    agg.aggregatorIdentifier = id := by
  have isIt := List.find?_some found
  exact ⟨List.mem_of_find?_eq_some found, (of_decide_eq_true isIt).2.2⟩

/-- An aggregator is found by its identifier. -/
theorem lookup_self (member : agg ∈ lacp.aggregators) : lacp.lookup agg.aggregatorIdentifier =
    some agg := by
  have initialized := lacp.initialized agg member
  cases found : lacp.lookup agg.aggregatorIdentifier with
  | none =>
    have missed := List.find?_eq_none.mp found agg member
    exact absurd (by simpa using missed) initialized
  | some other =>
    obtain ⟨isOther, sameId⟩ := mem_of_lookup found
    rw [List.inj_on_of_nodup_map lacp.unique isOther member sameId]

theorem lookup_zero : lacp.lookup 0 = none := by
  refine List.find?_eq_none.mpr fun agg _ => ?_
  simp

/-! ### The walk -/

variable (lacp linkStatus)

/-- The eligible aggregators, in their order. -/
def eligibles : List Aggregator :=
  lacp.aggregators.filter fun agg => decide (agg.isFree = false ∧ isUp linkStatus agg = true)

variable {lacp linkStatus}

theorem mem_eligibles : agg ∈ lacp.eligibles linkStatus ↔ lacp.Eligible linkStatus agg := by
  unfold eligibles Eligible
  rw [List.mem_filter, decide_eq_true_eq]

theorem best_eq : lacp.best linkStatus = (lacp.eligibles linkStatus).foldl
    (fun best agg => some (selectionCompare lacp.adSelect best agg))
        (lacp.active.filter (isUp linkStatus)) := by
  unfold best eligibles
  rw [List.foldl_filter]
  simp

theorem foldl_some (notAll : lacp.adSelect ≠ .all) (list : List Aggregator) (seed : Aggregator) :
    list.foldl (fun best agg => some (selectionCompare lacp.adSelect best agg)) (some seed) =
      some (list.foldl (Best.keepBetter (rank lacp.adSelect)) seed) := by
  induction list generalizing seed with
  | nil => rfl
  | cons agg list ih =>
    rw [List.foldl_cons, List.foldl_cons, selectionCompare_some _ notAll]
    exact ih _

/-- Nothing is left only if nothing can be. -/
theorem best_none (notAll : lacp.adSelect ≠ .all) (none : lacp.best linkStatus = none) :
    lacp.eligibles linkStatus = [] := by
  rw [best_eq] at none
  cases hasOne : lacp.eligibles linkStatus with
  | nil => rfl
  | cons agg list =>
    exfalso
    rw [hasOne, List.foldl_cons, foldl_some notAll] at none
    cases none

/-- What is left is eligible, or the aggregator that was active before. -/
theorem best_spec (notAll : lacp.adSelect ≠ .all) (isBest : lacp.best linkStatus = some chosen) :
    (lacp.Eligible linkStatus chosen ∨ lacp.active = some chosen ∧ isUp linkStatus chosen = true) ∧
      ∀ agg, lacp.Eligible linkStatus agg → ¬ Greater lacp.adSelect agg chosen := by
  rw [best_eq] at isBest
  cases seeded : lacp.active.filter (isUp linkStatus) with
  | some seed =>
    rw [seeded, foldl_some notAll] at isBest
    obtain rfl := Option.some.inj isBest
    refine ⟨?_, fun agg eligible greater => ?_⟩
    · rcases Best.foldl_mem (rank lacp.adSelect) (lacp.eligibles linkStatus) seed with same | member
      · rw [same]
        exact .inr (Option.filter_eq_some_iff.mp seeded)
      · exact .inl (mem_eligibles.mp member)
    · exact absurd ((greater_iff _ _ _).mp greater)
        (not_lt_of_ge (Best.rank_le_foldl (mem_eligibles.mpr eligible)))
  | none =>
    rw [seeded] at isBest
    cases hasOne : lacp.eligibles linkStatus with
    | nil =>
      rw [hasOne] at isBest
      cases isBest
    | cons first list =>
      rw [hasOne, List.foldl_cons, foldl_some notAll] at isBest
      obtain rfl := Option.some.inj isBest
      refine ⟨.inl (mem_eligibles.mp ?_), fun agg eligible greater => ?_⟩
      · rw [hasOne]
        rcases Best.foldl_mem (rank lacp.adSelect) list first with same | member
        · rw [selectionCompare, same]
          exact List.mem_cons_self
        · exact List.mem_cons_of_mem _ member
      · refine absurd ((greater_iff _ _ _).mp greater) (not_lt_of_ge ?_)
        have member := mem_eligibles.mpr eligible
        rw [hasOne] at member
        rcases List.mem_cons.mp member with rfl | member
        · exact Best.rank_seed_le
        · exact Best.rank_le_foldl member

/-- The aggregator that was active before stays without a greater one. -/
theorem best_stays (notAll : lacp.adSelect ≠ .all) (isActive : lacp.active = some active)
    (up : isUp linkStatus active = true) (none : ∀ agg, lacp.Eligible linkStatus agg →
        ¬ Greater lacp.adSelect agg active) :
    lacp.best linkStatus = some active := by
  rw [best_eq, Option.filter_eq_some_iff.mpr ⟨isActive, up⟩, foldl_some notAll]
  refine congrArg some (Best.foldl_eq_seed fun agg member less => ?_)
  exact none agg (mem_eligibles.mp member) ((greater_iff _ _ _).mpr less)

/-! ### The choice -/

theorem selectActiveAggregator_id (notAll : lacp.adSelect ≠ .all) :
    (lacp.selectActiveAggregator linkStatus).activeAggregator = (lacp.choose linkStatus).1 := by
  unfold selectActiveAggregator
  rw [if_neg notAll]

/-- Under the count and the bandwidth policy the best one becomes active. -/
theorem choose_best (notStable : lacp.adSelect ≠ .stable) :
    (lacp.choose linkStatus).1 = ((lacp.best linkStatus).map (·.aggregatorIdentifier)).getD 0 := by
  unfold choose
  split
  · rename_i none
    rw [none]
    rfl
  · rename_i isBest _
    rw [isBest]
    rfl
  · rename_i best active isBest _
    rw [if_neg fun keeps => notStable keeps.1, isBest]
    split
    · rename_i same
      rw [← same]
      rfl
    · rfl

theorem lookup_best (notAll : lacp.adSelect ≠ .all) (notStable : lacp.adSelect ≠ .stable) :
    lacp.lookup (lacp.choose linkStatus).1 = lacp.best linkStatus := by
  rw [choose_best notStable]
  cases isBest : lacp.best linkStatus with
  | none => exact lookup_zero
  | some chosen =>
    refine lookup_self ?_
    rcases (best_spec notAll isBest).1 with eligible | isActive
    · exact eligible.1
    · exact (mem_of_lookup isActive.1).1

/-- Under the stable policy the previous one is kept. -/
theorem kept (stable : lacp.adSelect = .stable) :
    lacp.Kept linkStatus (lacp.selectActiveAggregator linkStatus).activeAggregator := by
  intro active best isActive isBest hasPorts up notPartner notKey
  have notAll : lacp.adSelect ≠ .all := by simp [stable]
  have keeps : keepsActive linkStatus active best = true := by
    have partner : macAddrIsEmpty active.partnerSystem = true →
        macAddrIsEmpty best.partnerSystem = true := fun isEmpty =>
      Bool.eq_true_of_not_eq_false fun replied => notPartner ⟨isEmpty, replied⟩
    have key : active.actorOperAggregatorKey ≠ 0 ∨ best.actorOperAggregatorKey = 0 :=
      (not_and_or.mp notKey).imp_right not_not.mp
    unfold keepsActive
    cases isEmpty : macAddrIsEmpty active.partnerSystem with
    | true => simpa [hasPorts, up, partner isEmpty] using key
    | false => simpa [hasPorts, up] using key
  have chosen : (lacp.choose linkStatus).1 = active.aggregatorIdentifier := by
    unfold choose
    rw [isBest, isActive]
    dsimp only
    rw [if_pos ⟨stable, keeps⟩]
  rw [selectActiveAggregator_id notAll, chosen]
  exact lookup_self (mem_of_lookup isActive).1

/-- **The choice is as promised**, unless the previous active aggregator has become free, its link
is still up, and no eligible one is greater. -/
theorem active_is_best_iff (lacp : Instance) (linkStatus : BitVec 32 → Bool) :
    lacp.Promised linkStatus ↔
      (lacp.adSelect = .count ∨ lacp.adSelect = .bandwidth) → ∀ active, lacp.active = some active →
        active.isFree = false ∨ isUp linkStatus active = false ∨
          ∃ agg, lacp.Eligible linkStatus agg ∧ Greater lacp.adSelect agg active := by
  constructor
  · intro promised policy active isActive
    by_contra stale
    obtain ⟨notFree, up, none⟩ := not_or.mp stale |>.imp_right not_or.mp
    have isUp : isUp linkStatus active = true := by simpa using up
    have notAll : lacp.adSelect ≠ .all := by rcases policy with same | same <;> simp [same]
    have notStable : lacp.adSelect ≠ .stable := by rcases policy with same | same <;> simp [same]
    have optimal := promised.1 policy
    rw [selectActiveAggregator_id notAll] at optimal
    have stays := best_stays notAll isActive isUp fun agg eligible greater =>
      none ⟨agg, eligible, greater⟩
    exact notFree (optimal.eligible active ((lookup_best notAll notStable).trans stays)).2.1
  · refine fun condition => ⟨fun policy => ?_, kept⟩
    have notAll : lacp.adSelect ≠ .all := by rcases policy with same | same <;> simp [same]
    have notStable : lacp.adSelect ≠ .stable := by rcases policy with same | same <;> simp [same]
    rw [selectActiveAggregator_id notAll]
    refine ⟨fun chosen found => ?_, fun agg eligible => ?_, fun chosen agg found => ?_⟩
    · rw [lookup_best notAll notStable] at found
      obtain ⟨eligible | ⟨isActive, up⟩, none⟩ := best_spec notAll found
      · exact eligible
      · rcases condition policy chosen isActive with notFree | down | ⟨agg, eligible, greater⟩
        · exact ⟨(mem_of_lookup isActive).1, notFree, up⟩
        · exact absurd (up.symm.trans down) (by simp)
        · exact absurd greater (none agg eligible)
    · rw [lookup_best notAll notStable]
      cases isBest : lacp.best linkStatus with
      | none => exact absurd (mem_eligibles.mpr eligible) (by
        rw [best_none notAll isBest]; exact List.not_mem_nil)
      | some chosen => exact ⟨chosen, rfl⟩
    · rw [lookup_best notAll notStable] at found
      exact (best_spec notAll found).2 agg

/-- An aggregator that has lost its ports stays active beside one with a port, as the latter is
individual. -/
theorem free_stays_active :
    ∃ (lacp : Instance) (linkStatus : BitVec 32 → Bool), lacp.adSelect = .count ∧
        ¬ lacp.Promised linkStatus := by
  refine ⟨⟨.count, [⟨1, false, 0, 0, true, 11, []⟩, ⟨2, true, 4, 0, false, 12, [⟨4⟩]⟩],
    1, by decide, by decide⟩,
    fun _ => true, rfl, fun promised => ?_⟩
  have eligible := (promised.1 (.inl rfl)).eligible ⟨1, false, 0, 0, true, 11, []⟩ (by decide)
  exact absurd eligible.2.1 (by decide)

end Instance

end Qsdk.Lacp
