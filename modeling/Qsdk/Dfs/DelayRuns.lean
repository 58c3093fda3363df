/-
**Runs of the radar filters.**

A line that holds the pulses within the length of its filter still does so after a pulse that fits
is added: the ring loses its oldest element if it is full, and the loop keeps what is in front of
the first element that is too old. The check of a fixed pattern that finds a radar leaves a line
with a wrong first place, but all lines are reset before the next pulse.
-/

import Qsdk.Dfs.DelayLines

namespace Qsdk.DelayLines

/-! ### Lists -/

section Lists

variable {α : Type} {l : List α} {p q : α → Bool}

/-- What is taken from what is taken. -/
theorem takeWhile_of_imp (imp : ∀ x ∈ l, q x = true → p x = true) :
    (l.takeWhile p).takeWhile q = l.takeWhile q := by
  induction l with
  | nil => rfl
  | cons x l ih =>
    have rest := ih fun y member => imp y (List.mem_cons_of_mem _ member)
    cases taken : q x with
    | true =>
      rw [List.takeWhile_cons_of_pos (imp x List.mem_cons_self taken),
        List.takeWhile_cons_of_pos taken,
        List.takeWhile_cons_of_pos taken, rest]
    | false =>
      have stop : ¬ q x = true := by
        rw [taken]
        exact Bool.false_ne_true
      rw [List.takeWhile_cons_of_neg stop]
      by_cases more : p x = true
      · rw [List.takeWhile_cons_of_pos more, List.takeWhile_cons_of_neg stop]
      · rw [List.takeWhile_cons_of_neg more]
        rfl

/-- Another test that agrees up to the first element that fails. -/
theorem takeWhile_congr_until (imp : ∀ x ∈ l, p x = true → q x = true)
    (stop : ∀ x, (l.find? fun x => !p x) = some x → q x = false) :
        l.takeWhile q = l.takeWhile p := by
  induction l with
  | nil => rfl
  | cons x l ih =>
    cases taken : p x with
    | true =>
      rw [List.takeWhile_cons_of_pos taken, List.takeWhile_cons_of_pos
        (imp x List.mem_cons_self taken), ih
        (fun y member => imp y (List.mem_cons_of_mem _ member)) fun y found => stop y (by
          rw [List.find?_cons_of_neg (by rw [taken]; decide)]
          exact found)]
    | false =>
      have fails := stop x (List.find?_cons_of_pos (by rw [taken]; rfl))
      have notP : ¬ p x = true := by
        rw [taken]
        exact Bool.false_ne_true
      have notQ : ¬ q x = true := by
        rw [fails]
        exact Bool.false_ne_true
      rw [List.takeWhile_cons_of_neg notP, List.takeWhile_cons_of_neg notQ]

/-- A test that fails from some element on. -/
theorem filter_eq_takeWhile (sorted : l.Pairwise fun x y => p y = true → p x = true) :
    l.filter p = l.takeWhile p := by
  induction l with
  | nil => rfl
  | cons x l ih =>
    obtain ⟨first, rest⟩ := List.pairwise_cons.mp sorted
    cases taken : p x with
    | true => rw [List.filter_cons_of_pos taken, List.takeWhile_cons_of_pos taken, ih rest]
    | false =>
      have stop : ¬ p x = true := by
        rw [taken]
        exact Bool.false_ne_true
      rw [List.filter_cons_of_neg stop, List.takeWhile_cons_of_neg stop]
      exact List.filter_eq_nil_iff.mpr fun y member more => stop (first y member more)

end Lists

/-! ### The loop -/

/-- What the loop takes for young. -/
def looksYoung (thisTs filterlen : Nat) (elem : DelayElem) : Bool :=
  decide (sub64 thisTs elem.taken.deTs % 2 ^ 32 ≤ filterlen)

/-- The elements before the newest one, the newest first. -/
def before (ring : Ring DelayElem) : List DelayElem := (ring.contents maxDlSize).reverse.tail

variable {ring : Ring DelayElem} {thisTs filterlen : Nat}

theorem length_before : (before ring).length = ring.num - 1 := by
  unfold before
  rw [List.length_tail, List.length_reverse, Ring.length_contents]

/-- The element that the loop comes to. -/
theorem drop_before {n index : Nat} (inside : n < ring.num - 1)
    (place : index = (ring.first + (ring.num - 1 - n)) % maxDlSize) :
    (index + maxDlSize - 1) % maxDlSize = (ring.first + (ring.num - 1 - (n + 1))) % maxDlSize ∧
      (before ring).drop n =
        ring.elems ((index + maxDlSize - 1) % maxDlSize) :: (before ring).drop (n + 1) := by
  have moved : (index + maxDlSize - 1) % maxDlSize = (ring.first + (ring.num - 1 - (n + 1))) %
      maxDlSize := by
    unfold maxDlSize at place ⊢
    omega
  refine ⟨moved, ?_⟩
  have less : n < (before ring).length := length_before.symm ▸ inside
  rw [List.drop_eq_getElem_cons less, moved]
  congr 1
  have length : (ring.contents maxDlSize).length = ring.num := Ring.length_contents
  simp only [before, List.getElem_tail, List.getElem_reverse, Ring.contents_get, length]

/-- **The loop** keeps what is in front of the first element that looks too old. -/
theorem cut_eq (fuel : Nat) {n index : Nat} (some' : ring.num ≠ 0) (le : n ≤ ring.num - 1)
    (enough : ring.num ≤ fuel + n) (place : index = (ring.first + (ring.num - 1 - n)) % maxDlSize)
    (first : ring.first < maxDlSize) :
    cut thisTs filterlen fuel n index ring = ring.drop maxDlSize
      (ring.num - 1 -
          (n + (((before ring).drop n).takeWhile (looksYoung thisTs filterlen)).length)) := by
  have whole : ring.drop maxDlSize 0 = ring := by
    unfold Ring.drop
    rw [Nat.add_zero, Nat.mod_eq_of_lt first]
    rfl
  induction fuel generalizing n index with
  | zero => omega
  | succ fuel ih =>
    unfold cut
    by_cases inside : n < ring.num - 1
    · obtain ⟨moved, rest⟩ := drop_before inside place
      rw [if_pos inside, rest]
      dsimp only
      generalize (index + maxDlSize - 1) % maxDlSize = index' at moved rest ⊢
      by_cases young : sub64 thisTs (ring.elems index').taken.deTs % 2 ^ 32 ≤ filterlen
      · have isYoung : looksYoung thisTs filterlen (ring.elems index') = true :=
          decide_eq_true young
        rw [if_neg (Nat.not_lt.mpr young), ih (by omega) (by omega) moved,
          List.takeWhile_cons_of_pos isYoung,
          List.length_cons]
        congr 1
        omega
      · have old : filterlen < sub64 thisTs (ring.elems index').taken.deTs % 2 ^ 32 :=
          Nat.lt_of_not_le young
        have isOld : ¬ looksYoung thisTs filterlen (ring.elems index') = true :=
          fun wrong => young (of_decide_eq_true wrong)
        rw [if_pos old, List.takeWhile_cons_of_neg isOld, List.length_nil, Nat.add_zero]
        have stopped : ∀ fuel, cut thisTs filterlen fuel (n + 1) index'
            { ring with first := (index' + 1) % maxDlSize, num := n + 1 } =
              { ring with first := (index' + 1) % maxDlSize, num := n + 1 } := by
          intro fuel
          cases fuel with
          | zero => rfl
          | succ fuel => exact if_neg (Nat.not_lt.mpr (Nat.sub_le ..))
        rw [stopped]
        unfold Ring.drop
        rw [moved, Nat.mod_add_mod]
        congr 1
        · congr 1
          omega
        · omega
    · have none : (before ring).drop n = [] := by
        rw [List.drop_eq_nil_iff, length_before]
        omega
      rw [if_neg inside, none, List.takeWhile_nil, List.length_nil,
        show ring.num - 1 - (n + 0) = 0 by omega, whole]

/-- What the loop keeps, from the newest element on. -/
theorem cut_contents (valid : ring.Valid maxDlSize) (some' : ring.num ≠ 0) :
    (cut thisTs filterlen maxDlSize 0 ring.last ring).Valid maxDlSize ∧ ∃ newest,
      (ring.contents maxDlSize).reverse = newest :: before ring ∧
        ((cut thisTs filterlen maxDlSize 0 ring.last ring).contents maxDlSize).reverse =
          newest :: (before ring).takeWhile (looksYoung thisTs filterlen) := by
  have num := valid.num
  have place : ring.last = (ring.first + (ring.num - 1 - 0)) % maxDlSize := by
    rw [valid.last_eq some', Nat.sub_zero, Nat.add_sub_assoc (Nat.pos_of_ne_zero some')]
  have result : cut thisTs filterlen maxDlSize 0 ring.last ring = _ :=
    cut_eq maxDlSize some' (Nat.zero_le _) num place valid.first
  rw [List.drop_zero, Nat.zero_add] at result
  rw [result]
  refine ⟨valid.drop (by omega), ?_⟩
  cases reverse : (ring.contents maxDlSize).reverse with
  | nil =>
    have length := congrArg List.length reverse
    rw [List.length_reverse, Ring.length_contents] at length
    exact absurd length some'
  | cons newest older =>
    have rest : before ring = older := by
      unfold before
      rw [reverse]
      rfl
    have length : older.length = ring.num - 1 := rest ▸ length_before
    have kept : (older.takeWhile (looksYoung thisTs filterlen)).length ≤ older.length :=
      (List.takeWhile_sublist _).length_le
    refine ⟨newest, by rw [rest], ?_⟩
    rw [rest, Ring.contents_drop, List.reverse_drop, reverse, Ring.length_contents,
      show ring.num - (ring.num - 1 - (older.takeWhile (looksYoung thisTs filterlen)).length) =
        (older.takeWhile (looksYoung thisTs filterlen)).length + 1 by omega, List.take_succ_cons]
    congr 1
    exact ((List.prefix_iff_eq_take).mp (List.takeWhile_prefix _)).symm

/-! ### A line -/

/-- A pulse that is not too old for a new one. -/
def young (filterlen thisTs : Nat) (taken : Taken) : Bool :=
    decide (thisTs ≤ taken.deTs + filterlen)

/-- The pulses from the newest one until one is too old for it. -/
def recent (filterlen : Nat) : List Taken → List Taken
  | [] => []
  | newest :: older => (newest :: older).takeWhile (young filterlen newest.deTs)

/-- **The invariant of a line.** -/
structure DelayLine.Good (filterlen : Nat) (dl : DelayLine) : Prop where
  valid : dl.elems.Valid maxDlSize
  pulses : dl.pulses = (recent filterlen dl.added).take maxDlSize
  sorted : dl.added.Pairwise fun newer older => older.deTs ≤ newer.deTs

variable {dl : DelayLine} {taken : Taken}

theorem DelayLine.Good.faithful (good : dl.Good filterlen) : dl.Faithful filterlen where
  num := good.valid.num
  last := good.valid.last_eq
  pulses := by
    have sorted := good.sorted
    rw [good.pulses]
    cases added : dl.added with
    | nil => rfl
    | cons newest older =>
      rw [added] at sorted
      obtain ⟨first, _⟩ := List.pairwise_cons.mp sorted
      unfold recent window young
      dsimp only
      rw [← filter_eq_takeWhile]
      · congr 1
        refine List.filter_congr fun t member => decide_eq_decide.mpr ?_
        have le : t.deTs ≤ newest.deTs := by
          rcases List.mem_cons.mp member with rfl | later
          · exact Nat.le_refl _
          · exact first t later
        exact ⟨fun near => ⟨Nat.le_trans le (Nat.le_add_right ..), near⟩, fun both => both.2⟩
      · refine sorted.imp fun {x y} le near => decide_eq_true ?_
        exact Nat.le_trans (of_decide_eq_true near) (Nat.add_le_add_right le _)

theorem DelayLine.good_zeroed : DelayLine.zeroed.Good filterlen where
  valid := Ring.valid_empty _ (by decide)
  pulses := rfl
  sorted := List.Pairwise.nil

/-- Nothing in front of the newest pulse is newer than one that fits. -/
theorem DelayLine.Fits.all_le (fits : dl.Fits filterlen thisTs) (good : dl.Good filterlen) :
    ∀ t ∈ dl.added, t.deTs ≤ thisTs := by
  have sorted := good.sorted
  have pulses := good.pulses
  have notBefore := fits.notBefore
  cases added : dl.added with
  | nil => exact fun t member => absurd member List.not_mem_nil
  | cons newest older =>
    rw [added] at sorted pulses
    have isYoung : young filterlen newest.deTs newest = true := decide_eq_true (Nat.le_add_right ..)
    have inside : newest ∈ dl.pulses := by
      rw [pulses]
      unfold recent
      dsimp only
      rw [List.takeWhile_cons_of_pos isYoung]
      exact List.mem_cons_self
    intro t member
    rcases List.mem_cons.mp member with rfl | later
    · exact notBefore t inside
    · exact Nat.le_trans ((List.pairwise_cons.mp sorted).1 t later) (notBefore newest inside)

/-- What looks young in a line in which a pulse fits is young. -/
theorem DelayLine.Fits.looksYoung (fits : dl.Fits filterlen thisTs) :
    dl.pulses.takeWhile (fun t => decide (sub64 thisTs t.deTs % 2 ^ 32 ≤ filterlen)) =
      dl.pulses.takeWhile (young filterlen thisTs) := by
  have age : ∀ t : Taken, t.deTs ≤ thisTs → sub64 thisTs t.deTs % 2 ^ 32 =
      (thisTs - t.deTs) % 2 ^ 32 := by
    intro t le
    unfold sub64
    omega
  refine takeWhile_congr_until (fun t member isYoung => decide_eq_true ?_) fun t found =>
    decide_eq_false ?_
  · have near : thisTs ≤ t.deTs + filterlen := of_decide_eq_true isYoung
    rw [age t (fits.notBefore t member)]
    exact Nat.le_trans (Nat.mod_le ..) (by omega)
  · have same : (fun t : Taken => !young filterlen thisTs t) = fun t =>
        decide (t.deTs + filterlen < thisTs) := by
      funext t
      rw [young, ← decide_not]
      exact decide_eq_decide.mpr Nat.not_le
    rw [same] at found
    rw [age t (fits.notBefore t (List.mem_of_find?_eq_some found))]
    exact Nat.not_le.mpr (fits.noWrap t found)

/-- **A pulse that fits** keeps the invariant. -/
theorem DelayLine.Good.addPulse (good : dl.Good filterlen) (fits : dl.Fits filterlen taken.deTs)
    (deltaT : Nat) :
    (dl.addPulse filterlen deltaT taken).Good filterlen := by
  have pushed := good.valid.push (⟨deltaT % 2 ^ 32, taken⟩ : DelayElem)
  have contents := Ring.contents_push good.valid (⟨deltaT % 2 ^ 32, taken⟩ : DelayElem)
  obtain ⟨valid, newest, reverse, kept⟩ :=
    @cut_contents _ taken.deTs filterlen pushed (Ring.num_push good.valid _)
  rw [contents, List.take_cons (show 0 < maxDlSize by decide)] at reverse
  obtain ⟨rfl, rest⟩ := List.cons.inj reverse
  refine ⟨valid, ?_, List.pairwise_cons.mpr ⟨fits.all_le good, good.sorted⟩⟩
  have isYoung : young filterlen taken.deTs taken = true := decide_eq_true (Nat.le_add_right ..)
  have older : (dl.added.takeWhile (young filterlen taken.deTs)).take (maxDlSize - 1) =
      ((dl.pulses.take (maxDlSize - 1)).takeWhile
        fun t => decide (sub64 taken.deTs t.deTs % 2 ^ 32 ≤ filterlen)) := by
    rw [← List.take_takeWhile, fits.looksYoung, good.pulses, ← List.take_takeWhile, List.take_take,
      Nat.min_eq_left (by decide)]
    cases added : dl.added with
    | nil => rfl
    | cons last before =>
      unfold recent
      dsimp only
      have le := fits.all_le good last (added ▸ List.mem_cons_self)
      have imp : ∀ t ∈ last :: before, young filterlen taken.deTs t = true →
          young filterlen last.deTs t = true :=
        fun t _ near => decide_eq_true (Nat.le_trans le (of_decide_eq_true near))
      rw [takeWhile_of_imp imp]
  have result : (dl.addPulse filterlen deltaT taken).pulses = ((cut taken.deTs filterlen maxDlSize 0
      (dl.elems.push maxDlSize ⟨deltaT % 2 ^ 32, taken⟩).last
      (dl.elems.push maxDlSize ⟨deltaT % 2 ^ 32, taken⟩)).contents maxDlSize).reverse.map
          (·.taken) :=
    List.map_reverse.symm
  rw [result, kept, ← rest]
  show _ = (recent filterlen (taken :: dl.added)).take maxDlSize
  unfold recent
  dsimp only
  rw [List.takeWhile_cons_of_pos isYoung, List.take_cons (show 0 < maxDlSize by decide), older,
    List.map_cons]
  unfold DelayLine.pulses
  rw [← List.map_reverse, ← List.map_take, List.takeWhile_map]
  rfl

/-! ### The pulse line -/

structure PulseLine.Good (pl : PulseLine) : Prop where
  valid : pl.elems.Valid maxPulseBufferSize
  pulses : ((pl.elems.contents maxPulseBufferSize).map (·.pulse)).reverse =
    pl.added.take maxPulseBufferSize

variable {pl : PulseLine}

theorem PulseLine.Good.faithful (good : pl.Good) : pl.Faithful :=
    ⟨good.valid.num, good.valid.last_eq, good.pulses⟩

theorem PulseLine.Good.add (good : pl.Good) (pulse : Pulse) : (pl.add pulse).Good where
  valid := good.valid.push _
  pulses := by
    unfold PulseLine.add
    rw [← List.map_reverse, Ring.contents_push good.valid, List.map_take, List.map_cons,
      List.map_reverse, good.pulses,
      List.take_cons (show 0 < maxPulseBufferSize by decide),
      List.take_cons (show 0 < maxPulseBufferSize by decide),
      List.take_take]
    rfl

theorem PulseLine.Good.setSeqNum (good : pl.Good) (seqNum : Nat) : (pl.setSeqNum seqNum).Good where
  valid := good.valid.map _
  pulses := by
    refine Eq.trans ?_ good.pulses
    refine congrArg List.reverse (Ring.contents_map pl.elems
      (fun i elem => if i = pl.elems.last then { elem with pSeqNum := seqNum } else elem)
      (·.pulse) (·.pulse)
      fun i elem => ?_)
    split <;> rfl

/-! ### A filter -/

/-- What holds of a filter after a pulse: its line is faithful, and unless a radar is found all is
well with it. -/
def Filter.Stands (rf : Filter) (found : Bool) : Prop :=
  rf.rfDl.Faithful rf.rfFilterlen ∧ (found = false → rf.rfDl.Good rf.rfFilterlen)

variable {rf : Filter}

theorem Filter.stands_of_good (good : rf.rfDl.Good rf.rfFilterlen) (found : Bool) :
    rf.Stands found :=
  ⟨good.faithful, fun _ => good⟩

theorem DelayLine.Good.rewrite (good : dl.Good filterlen) (times : Nat → Nat) :
    ({ dl with elems := dl.elems.map fun i (elem : DelayElem) => { elem with deTime := times i } } :
      DelayLine).Good filterlen where
  valid := good.valid.map fun i (elem : DelayElem) => { elem with deTime := times i }
  pulses := by
    refine Eq.trans ?_ good.pulses
    exact congrArg List.reverse (Ring.contents_map dl.elems
      (fun i (elem : DelayElem) => { elem with deTime := times i }) (·.taken) (·.taken) fun _ _ =>
      rfl)
  sorted := good.sorted

theorem DelayLine.Good.lastTs (good : dl.Good filterlen) (lastTs : Nat) :
    ({ dl with dlLastTs := lastTs } : DelayLine).Good filterlen :=
  ⟨good.valid, good.pulses, good.sorted⟩

/-- **A pattern check** leaves a faithful line. -/
theorem Filter.check_stands (good : rf.rfDl.Good rf.rfFilterlen) (isCnDomain : Bool) (check : Check)
    (lastTs : Nat) :
    ({ (rf.check isCnDomain check).1 with
      rfDl := { (rf.check isCnDomain check).1.rfDl with dlLastTs := lastTs } } : Filter).Stands
        (rf.check isCnDomain check).2.1 := by
  unfold Filter.check
  dsimp only
  split
  · exact stands_of_good ((good.rewrite check.times).lastTs lastTs) _
  · split
    · split
      · refine ⟨⟨Nat.zero_le _, fun some' => absurd rfl some', rfl⟩, fun wrong =>
          absurd wrong.symm Bool.false_ne_true⟩
      · exact stands_of_good (good.lastTs lastTs) _
    · split
      · exact stands_of_good ((good.rewrite check.times).lastTs lastTs) _
      · exact stands_of_good ((good.rewrite check.times).lastTs lastTs) _

variable {dfs : Dfs} {re : Event} {reDur : Nat}

/-- **One filter.** -/
theorem Filter.process_stands (re : Event) (good : rf.rfDl.Good rf.rfFilterlen)
    (fits : rf.Takes dfs reDur thisTs → rf.rfDl.Fits rf.rfFilterlen thisTs) (check : Check) :
    (rf.process dfs re reDur thisTs check).1.Stands (rf.process dfs re reDur thisTs check).2.1 := by
  unfold Filter.process
  split
  case isFalse => exact stands_of_good good _
  case isTrue inside =>
    dsimp only
    split
    case h_1 => exact stands_of_good (good.lastTs thisTs) _
    case h_2 => exact stands_of_good good _
    case h_3 accepted =>
      have added :
        (rf.rfDl.addPulse rf.rfFilterlen (rf.deltaT thisTs) (re.taken reDur thisTs dfs.seqNum)).Good
          rf.rfFilterlen := good.addPulse (fits ⟨inside, congrArg Prod.fst accepted⟩) _
      exact @check_stands { rf with rfDl := _ } added dfs.isCnDomain check thisTs

/-- **The filters of a type.** -/
theorem processFilters_stands (re : Event) {filters : List Filter}
    (all : ∀ rf ∈ filters, rf.rfDl.Good rf.rfFilterlen ∧
      (rf.Takes dfs reDur thisTs → rf.rfDl.Fits rf.rfFilterlen thisTs))
          (check : Nat → Check) (p : Nat) :
    ∀ rf ∈ (processFilters dfs re reDur thisTs check p filters).1,
      rf.Stands (processFilters dfs re reDur thisTs check p filters).2.1 := by
  induction filters generalizing p with
  | nil => exact fun rf member => absurd member List.not_mem_nil
  | cons first rest ih =>
    obtain ⟨good, fits⟩ := all first List.mem_cons_self
    have stands := Filter.process_stands re good fits (check p)
    have later := ih (fun rf member => all rf (List.mem_cons_of_mem _ member)) (p + 1)
    unfold processFilters
    dsimp only
    split
    case isTrue =>
      intro rf member
      rcases List.mem_cons.mp member with rfl | inRest
      · exact stands
      · exact Filter.stands_of_good (all rf (List.mem_cons_of_mem _ inRest)).1 _
    case isFalse goesOn =>
      intro rf member
      rcases List.mem_cons.mp member with rfl | inRest
      · have notFound : (first.process dfs re reDur thisTs (check p)).2.1 = false := by
          by_contra found
          exact goesOn (Bool.or_eq_true_iff.mpr (.inl (by simpa using found)))
        exact Filter.stands_of_good (stands.2 notFound) _
      · exact later rf inRest

/-- **The filter types for a duration.** -/
theorem checkIfNonbin5_stands (re : Event) {table : List Nat} {radarf : List FilterType}
    (once : table.Nodup) (good : ∀ ft ∈ radarf, ∀ rf ∈ ft.ftFilters, rf.rfDl.Good rf.rfFilterlen)
    (fits : ∀ t ∈ table, ∀ ft, radarf[t]? = some ft → ∀ rf ∈ ft.ftFilters,
      rf.Takes dfs reDur thisTs → rf.rfDl.Fits rf.rfFilterlen thisTs) (check : Nat → Nat → Check) :
    ∀ ft ∈ (checkIfNonbin5 dfs re reDur thisTs check table radarf).1, ∀ rf ∈ ft.ftFilters,
      rf.Stands (checkIfNonbin5 dfs re reDur thisTs check table radarf).2.1 := by
  induction table generalizing radarf with
  | nil => exact fun ft member rf inside => Filter.stands_of_good (good ft member rf inside) _
  | cons t table ih =>
    obtain ⟨fresh, once⟩ := List.nodup_cons.mp once
    have skip := ih once good fun t' member => fits t' (List.mem_cons_of_mem _ member)
    unfold checkIfNonbin5
    split
    case h_1 => exact skip
    case h_2 ft isHere =>
      split
      case isTrue => exact skip
      case isFalse =>
        dsimp only
        have here := List.mem_of_getElem? isHere
        have before : ∀ rf ∈ ft.ftFilters, rf.rfDl.Good rf.rfFilterlen ∧
            (rf.Takes dfs reDur thisTs → rf.rfDl.Fits rf.rfFilterlen thisTs) :=
          fun rf inside => ⟨good ft here rf inside, fits t List.mem_cons_self ft isHere rf inside⟩
        have stands := processFilters_stands re before (check t) 0
        have others : ∀ ft' ∈ radarf.set t { ft with
            ftFilters := (processFilters dfs re reDur thisTs (check t) 0 ft.ftFilters).1,
              ftLastTs := thisTs },
            ft'.ftFilters = (processFilters dfs re reDur thisTs (check t) 0 ft.ftFilters).1 ∨
                ft' ∈ radarf := by
          intro ft' member
          rcases List.mem_or_eq_of_mem_set member with earlier | rfl
          · exact .inr earlier
          · exact .inl rfl
        split
        case isTrue =>
          intro ft' member rf inside
          rcases others ft' member with same | earlier
          · exact stands rf (same ▸ inside)
          · exact Filter.stands_of_good (good ft' earlier rf inside) _
        case isFalse goesOn =>
          have notFound :
              (processFilters dfs re reDur thisTs (check t) 0 ft.ftFilters).2.1 = false := by
            by_contra found
            exact goesOn (Bool.or_eq_true_iff.mpr (.inl (by simpa using found)))
          refine ih once (fun ft' member rf inside => ?_) fun t' member ft' isThere rf inside => ?_
          · rcases others ft' member with same | earlier
            · exact (stands rf (same ▸ inside)).2 notFound
            · exact good ft' earlier rf inside
          · have elsewhere : t ≠ t' := by
              rintro rfl
              exact fresh member
            rw [List.getElem?_set_ne elsewhere] at isThere
            exact fits t' (List.mem_cons_of_mem _ member) ft' isThere rf inside

/-! ### Events -/

/-- **The invariant.** -/
structure Dfs.Good (dfs : Dfs) : Prop where
  pulses : dfs.pulses.Good
  lines : ∀ ft ∈ dfs.radarf, ∀ rf ∈ ft.ftFilters, rf.rfDl.Good rf.rfFilterlen

theorem Dfs.Good.faithful (good : dfs.Good) : dfs.Faithful :=
  ⟨good.pulses.faithful, fun ft member rf inside => (good.lines ft member rf inside).faithful⟩

/-- Each line of a reset is new. -/
theorem Dfs.resetAlldelaylines_line {ft : FilterType} (member : ft ∈ dfs.resetAlldelaylines.radarf)
    {rf : Filter} (inside : rf ∈ ft.ftFilters) : rf.rfDl = .zeroed := by
  obtain ⟨ft, _, rfl⟩ := List.mem_map.mp member
  obtain ⟨rf, _, rfl⟩ := List.mem_map.mp inside
  rfl

theorem Dfs.good_reset (dfs : Dfs) : dfs.resetAlldelaylines.Good where
  pulses := ⟨Ring.valid_empty _ (by decide), rfl⟩
  lines _ member _ inside := (resetAlldelaylines_line member inside).symm ▸ DelayLine.good_zeroed

/-- **The part before the filters.** -/
theorem Dfs.Good.recorded (good : dfs.Good) (re : Event) (answers : Answers) :
    (dfs.recorded re answers).Good := by
  have logged : (dfs.addToPulseline re).logEvent.Good :=
    ⟨(good.pulses.add _).setSeqNum _, good.lines⟩
  unfold Dfs.recorded Dfs.conditionalClearDelaylines
  split
  case isTrue =>
    have reset := (dfs.addToPulseline re).logEvent.good_reset
    exact ⟨(reset.pulses.add _).setSeqNum _, reset.lines⟩
  case isFalse => exact logged

/-- A pulse that is asked for nothing fits in a line without pulses. -/
theorem DelayLine.fits_zeroed : DelayLine.zeroed.Fits filterlen thisTs :=
  ⟨fun _ member => absurd member List.not_mem_nil, fun _ found =>
    absurd found.symm (Option.some_ne_none _)⟩

/-- The pulse fits in every line that takes it, after what comes before the filters. -/
theorem Dfs.Meets.recorded {answers : Answers} (meets : dfs.Meets re answers)
    (notSkipped : dfs.skipTheEvent re = false) (notBin5 : answers.bin5Found = false) :
    ∀ ft ∈ (dfs.recorded re answers).radarf, ∀ rf ∈ ft.ftFilters,
      rf.Takes (dfs.recorded re answers) answers.bin5Dur (dfs.start re) →
        rf.rfDl.Fits rf.rfFilterlen (dfs.start re) := by
  have same : (dfs.addToPulseline re).logEvent.clears (dfs.diffTs re) =
    dfs.clears (dfs.diffTs re) := rfl
  unfold Dfs.recorded Dfs.conditionalClearDelaylines
  rw [same]
  cases far : dfs.clears (dfs.diffTs re) with
  | true =>
    rw [if_pos rfl]
    intro ft member rf inside _
    have line : rf.rfDl = .zeroed :=
      @resetAlldelaylines_line (dfs.addToPulseline re).logEvent _ member _ inside
    exact line.symm ▸ DelayLine.fits_zeroed
  | false =>
    rw [if_neg Bool.false_ne_true]
    exact meets notSkipped notBin5 far

/-- **The checks** leave faithful lines, and unless a radar is found all is well with them. -/
theorem Dfs.Good.checkAll {answers : Answers} (good : dfs.Good)
    (fits : answers.bin5Found = false → ∀ ft ∈ dfs.radarf, ∀ rf ∈ ft.ftFilters,
      rf.Takes dfs answers.bin5Dur thisTs → rf.rfDl.Fits rf.rfFilterlen thisTs) :
    (dfs.checkAll re answers thisTs).1.Faithful ∧
      ((dfs.checkAll re answers thisTs).2.1 = false → (dfs.checkAll re answers thisTs).1.Good) := by
  unfold Dfs.checkAll
  cases bin5 : answers.bin5Found with
  | true =>
    rw [if_pos rfl]
    exact ⟨good.faithful, fun _ => good⟩
  | false =>
    rw [if_neg Bool.false_ne_true]
    have stands := checkIfNonbin5_stands re (dfs.ftindextable.once answers.bin5Dur) good.lines
      (fun t _ ft isHere rf inside => fits bin5 ft (List.mem_of_getElem? isHere) rf inside)
      answers.check
    generalize checkIfNonbin5 dfs re answers.bin5Dur thisTs answers.check
      (dfs.ftindextable.types answers.bin5Dur) dfs.radarf = result at stands ⊢
    obtain ⟨radarf, found, falseFound⟩ := result
    exact ⟨⟨good.pulses.faithful, fun ft member rf inside => (stands ft member rf inside).1⟩,
      fun notFound =>
      ⟨good.pulses, fun ft member rf inside => (stands ft member rf inside).2 notFound⟩⟩

/-- **An event.** -/
theorem Dfs.Good.processEvent {answers : Answers} (good : dfs.Good) (meets : dfs.Meets re answers) :
    (dfs.processEvent re answers).1.Faithful ∧
      ((dfs.processEvent re answers).2.1 = false → (dfs.processEvent re answers).1.Good) := by
  unfold Dfs.processEvent
  cases skipped : dfs.skipTheEvent re with
  | true =>
    rw [if_pos rfl]
    exact ⟨good.faithful, fun _ => good⟩
  | false =>
    rw [if_neg Bool.false_ne_true]
    exact (good.recorded re answers).checkAll (meets.recorded skipped)

/-- **The events of a call.** -/
theorem Dfs.Good.processEach (fuel : Nat) (good : dfs.Good) (meets : dfs.EachMeets fuel) :
    dfs.EachFaithful fuel ∧
        ((dfs.processEach fuel).2.1 = false → (dfs.processEach fuel).1.Good) := by
  induction fuel generalizing dfs with
  | zero => exact ⟨trivial, fun _ => good⟩
  | succ fuel ih =>
    unfold Dfs.EachMeets at meets
    unfold Dfs.EachFaithful Dfs.processEach
    split
    case h_1 => exact ⟨trivial, fun _ => good⟩
    case h_2 re answers radarq isQueue =>
      rw [isQueue] at meets
      dsimp only at meets ⊢
      have good' : ({ dfs with radarq := radarq } : Dfs).Good := ⟨good.pulses, good.lines⟩
      obtain ⟨faithful, goesOn⟩ := good'.processEvent meets.1
      generalize ({ dfs with radarq := radarq } : Dfs).processEvent re answers =
        result at meets faithful goesOn ⊢
      obtain ⟨after, found, falseFound⟩ := result
      dsimp only at meets faithful goesOn ⊢
      cases found with
      | true =>
        exact ⟨⟨faithful, fun wrong => absurd (congrArg Prod.fst wrong).symm Bool.false_ne_true⟩,
          fun wrong => absurd wrong.symm Bool.false_ne_true⟩
      | false =>
        cases falseFound with
        | true =>
          exact ⟨⟨faithful, fun wrong => absurd (congrArg Prod.snd wrong).symm Bool.false_ne_true⟩,
            fun _ => goesOn rfl⟩
        | false =>
          obtain ⟨rest, last⟩ := ih (goesOn rfl) (meets.2 rfl)
          exact ⟨⟨faithful, fun _ => rest⟩, last⟩

/-- All is well after a call: where a radar is found, all lines are reset. -/
theorem Dfs.finish_good {found : Bool} (good : found = false → dfs.Good) (falseFound : Bool) :
    (dfs.finish found falseFound).Good := by
  have first : (if found then { dfs.resetAlldelaylines with radarq := [] } else dfs).Good := by
    cases found with
    | true => exact ⟨dfs.good_reset.pulses, dfs.good_reset.lines⟩
    | false => exact good rfl
  unfold Dfs.finish
  generalize (if found then { dfs.resetAlldelaylines with radarq := [] } else dfs) = dfs at first
  cases falseFound with
  | true => exact ⟨dfs.good_reset.pulses, dfs.good_reset.lines⟩
  | false => exact first

/-- **A call.** -/
theorem Dfs.Good.processRadarevent (good : dfs.Good) {call : Call}
    (meets : dfs.During Dfs.EachMeets call) :
    dfs.During Dfs.EachFaithful call ∧ (dfs.processRadarevent call).Good := by
  have queued : ({ dfs with radarq := dfs.radarq ++ call.queued } : Dfs).Good :=
    ⟨good.pulses, good.lines⟩
  unfold Dfs.During at meets ⊢
  unfold Dfs.processRadarevent
  cases sees : call.sees with
  | noChan => exact ⟨trivial, queued⟩
  | nonDfs =>
    have reset := ({ dfs with radarq := dfs.radarq ++ call.queued } : Dfs).good_reset
    exact ⟨trivial, reset.pulses, reset.lines⟩
  | bangradar valid => exact ⟨trivial, finish_good (fun _ => queued) false⟩
  | few => exact ⟨trivial, queued⟩
  | pulses priMultiplier =>
    rw [sees] at meets
    have before :
        ({ dfs with radarq := dfs.radarq ++ call.queued, priMultiplier := priMultiplier } :
          Dfs).Good :=
      ⟨good.pulses, good.lines⟩
    obtain ⟨each, last⟩ := before.processEach maxEvents meets
    exact ⟨each, finish_good last _⟩

/-- **The lines are faithful** throughout every run of calls, from a reset on. -/
theorem faithful_of_meets (dfs : Dfs) (calls : List Call)
    (meet : AllMeet dfs.resetAlldelaylines calls) :
    AllFaithful dfs.resetAlldelaylines calls := by
  have good := dfs.good_reset
  generalize dfs.resetAlldelaylines = dfs at good meet
  induction calls generalizing dfs with
  | nil => exact good.faithful
  | cons call calls ih =>
    obtain ⟨each, good'⟩ := good.processRadarevent meet.1
    exact ⟨good.faithful, each, ih _ good' meet.2⟩

/-- A radio with one filter, for pulses that are 100 to 1000 us apart. -/
def radio : Dfs where
  pulses := ⟨⟨fun _ => ⟨0, ⟨0, 0, 0, 0, 0, 0⟩⟩, 0, 0, 0⟩, []⟩
  radarf := [⟨100, 0, 0, [⟨100, 1000, 5000, 0, 1, 10, 0, .zeroed⟩]⟩]
  ftindextable := ⟨fun _ => [0], fun _ => List.pairwise_singleton _ 0⟩
  seqNum := 0
  testTs := 0
  lowestPriLimit := 100
  priMultiplier := 2
  durMultiplier := 100
  isBbTlv := true
  isCnDomain := false
  interference _ := false
  radarq := []

/-- A pulse for it, in which no radar is found, with the times of the line. -/
def quiet (thisTs : Nat) (times : List Nat) : Event × Answers :=
  (⟨thisTs, 5, 20, 0, 0, 0, 0, 0⟩,
    ⟨5, false, 5, fun _ _ => ⟨false, false, fun i => times.getD i 0⟩⟩)

/-- Pulses that are close together. -/
theorem close_faithful :
    AllFaithful radio.resetAlldelaylines
        [⟨[quiet 500 [500], quiet 1400 [500, 900]], .pulses 2⟩] := by
  have fits : ∀ {dfs : Dfs} {re : Event} {answers : Answers} (thisTs : Nat), dfs.start re = thisTs →
      (∀ ft ∈ dfs.radarf, ∀ rf ∈ ft.ftFilters, (∀ t ∈ rf.rfDl.pulses, t.deTs ≤ thisTs) ∧
        (rf.rfDl.pulses.find? fun t => decide (t.deTs + rf.rfFilterlen < thisTs)).isNone = true) →
          dfs.Meets re answers := by
    intro dfs re answers thisTs start all _ _ _ ft member rf inside _
    obtain ⟨notBefore, none⟩ := all ft member rf inside
    rw [start]
    exact ⟨notBefore, fun t found => absurd (found.symm.trans (Option.isNone_iff_eq_none.mp none))
      (Option.some_ne_none _)⟩
  refine faithful_of_meets radio _ ⟨⟨?_, fun _ => ⟨?_, fun _ => trivial⟩⟩, trivial⟩
  · exact fits 500 rfl (by decide +kernel)
  · exact fits 1400 rfl (by decide +kernel)

/-- The times do not decrease, and are less than `2 ^ 32` us apart. -/
def Ordered (events : List (Event × Answers)) : Prop :=
  (events.map fun event => event.1.thisTs).IsChain fun earlier later => earlier ≤ later ∧
    later < earlier + 2 ^ 32

/-- A pulse that was taken more than `2 ^ 32` us ago, with one in between that is not, stays in the
line. -/
theorem longAgo_not_faithful :
    Ordered [quiet 500 [500], quiet 4294967295 [500], quiet 4294968295 [500, 1000]] ∧
      ¬ AllFaithful radio.resetAlldelaylines
        [⟨[quiet 500 [500], quiet 4294967295 [500], quiet 4294968295 [500, 1000]], .pulses 2⟩] := by
  refine ⟨by unfold Ordered; decide, fun ⟨_, _, last⟩ => ?_⟩
  have all : ((radio.resetAlldelaylines.processRadarevent
      ⟨[quiet 500 [500], quiet 4294967295 [500], quiet 4294968295 [500, 1000]],
          .pulses 2⟩).radarf.all fun ft =>
        ft.ftFilters.all fun rf =>
          decide (rf.rfDl.pulses.length = (window rf.rfFilterlen rf.rfDl.added).length)) = true :=
    List.all_eq_true.mpr fun ft member => List.all_eq_true.mpr fun rf inside =>
      decide_eq_true (congrArg List.length (last.lines ft member rf inside).pulses)
  exact absurd all (by decide +kernel)

end Qsdk.DelayLines
