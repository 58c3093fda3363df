/-
**Classifier assignments over any run.**

Each call changes the assignments of one connection and the list of one type. Of the references on a
classifier, those that connections hold are one for its assignment and one for each unassign that
was left to iterations (`World.Kept.assignedRefs`): this is what a deferred unassign forgets to
drop.
-/

import Qsdk.Ecm.Assignment
import Mathlib.Data.List.TakeWhile

set_option linter.unusedSectionVars false

namespace Qsdk.Ecm.Assignment

variable {Conn Cls : Type} [DecidableEq Conn] [DecidableEq Cls] {typeGet : Cls → Nat} {types : Nat}
variable {world : World Conn Cls} {ci : Conn} {ca : Cls}

/-! ### Small facts -/

@[simp]
theorem State.setByType_self (state : State Conn Cls) (ci : Conn) (caType : Nat) (ca : Option Cls) :
    state.setByType ci caType ca ci caType = ca := by
  simp [State.setByType]

theorem State.setByType_type (state : State Conn Cls) (ci : Conn) {caType other : Nat}
    (ca : Option Cls) (different : other ≠ caType) : state.setByType ci caType ca ci other =
        state.assignmentsByType ci other := by
  simp [State.setByType, Function.update_of_ne different]

theorem State.setByType_conn (state : State Conn Cls) {ci other : Conn} (caType otherType : Nat)
    (ca : Option Cls) (different : other ≠ ci) :
    state.setByType ci caType ca other otherType = state.assignmentsByType other otherType := by
  simp [State.setByType, Function.update_of_ne different]

/-- In a list that is sorted, what comes after the place of a new element is greater. -/
theorem lt_of_mem_dropWhile {cells : List Cls} {newCaType : Nat}
    (sorted : cells.Pairwise fun ca other => typeGet ca < typeGet other) :
    ∀ ca ∈ cells.dropWhile (fun ca => !decide (newCaType < typeGet ca)),
        newCaType < typeGet ca := by
  induction cells with
  | nil => intro ca member; cases member
  | cons head rest ih =>
    obtain ⟨below, sortedRest⟩ := List.pairwise_cons.mp sorted
    intro ca member
    by_cases isHere : newCaType < typeGet head
    · rw [List.dropWhile_cons_of_neg (by simp [isHere])] at member
      rcases List.mem_cons.mp member with rfl | inRest
      · exact isHere
      · exact Nat.lt_trans isHere (below ca inRest)
    · rw [List.dropWhile_cons_of_pos (by simp [isHere])] at member
      exact ih sortedRest ca member

theorem not_lt_of_mem_takeWhile {cells : List Cls} {newCaType : Nat} :
    ∀ ca ∈ cells.takeWhile (fun ca => !decide (newCaType < typeGet ca)),
        ¬newCaType < typeGet ca := by
  intro ca member
  have := List.mem_takeWhile_imp member
  simpa using this

/-- What is stored now was given now, or is stored as before. -/
theorem State.setByType_cases {state : State Conn Cls} {caType otherType : Nat} {given : Option Cls}
    {conn : Conn} {other : Cls} (stored : state.setByType ci caType given conn otherType =
        some other) :
    (conn = ci ∧ otherType = caType ∧ given = some other) ∨ state.assignmentsByType conn otherType =
        some other := by
  by_cases isCi : conn = ci
  · subst isCi
    by_cases sameType : otherType = caType
    · subst sameType
      rw [State.setByType_self] at stored
      exact .inl ⟨rfl, rfl, stored⟩
    · rw [State.setByType_type _ _ _ sameType] at stored
      exact .inr stored
  · rw [State.setByType_conn _ _ _ _ isCi] at stored
    exact .inr stored

/-! ### The list of a type -/

section Lists

variable {caType : Nat} {call : Call Conn}

/-- The list that a call is for is kept, and the others are as before. -/
theorem World.Kept.lists_step (kept : world.Kept typeGet types)
    (legal : (world.lists caType).Legal call) (other : Nat) :
        (Function.update world.lists caType ((world.lists caType).step call) other).Kept := by
  by_cases same : other = caType
  · subst same
    rw [Function.update_self]
    exact (kept.lists other).step legal
  · rw [Function.update_of_ne same]
    exact kept.lists other

theorem World.Kept.tals_step (kept : world.Kept typeGet types) {tal : TypeList Conn}
    (isTal : ((world.lists caType).step call).tal = tal) (other : Nat) :
    (Function.update world.lists caType ((world.lists caType).step call) other).tal =
      Function.update world.state.typeLists caType tal other := by
  by_cases same : other = caType
  · subst same
    rw [Function.update_self, Function.update_self, isTal]
  · rw [Function.update_of_ne same, Function.update_of_ne same]
    exact kept.tals other

/-- The list of a type says which connections have a classifier of it. -/
theorem World.Kept.assigned_step (kept : world.Kept typeGet types) (notDefault : caType ≠ 0)
    {given : Option Cls} (records : ((world.lists caType).step call).assigned =
      Function.update (world.lists caType).assigned ci given.isSome) (other : Nat) (conn : Conn) :
    (Function.update world.lists caType ((world.lists caType).step call) other).assigned conn =
      (decide (other ≠ 0) && (world.state.setByType ci caType given conn other).isSome) := by
  by_cases sameType : other = caType
  · subst sameType
    rw [Function.update_self, records]
    by_cases isCi : conn = ci
    · subst isCi
      simp [notDefault]
    · rw [Function.update_of_ne isCi, State.setByType_conn _ _ _ _ isCi, kept.assigned]
  · rw [Function.update_of_ne sameType, kept.assigned]
    by_cases isCi : conn = ci
    · subst isCi
      rw [State.setByType_type _ _ _ sameType]
    · rw [State.setByType_conn _ _ _ _ isCi]

end Lists

/-! ### A classifier is assigned -/

/-- The classifiers of the connection before the place of a new one. -/
def World.before (typeGet : Cls → Nat) (world : World Conn Cls) (ci : Conn) (ca : Cls) : List Cls :=
  (world.cells ci).takeWhile fun other => !decide (typeGet ca < typeGet other)

/-- The classifiers of the connection behind the place of a new one. -/
def World.behind (typeGet : Cls → Nat) (world : World Conn Cls) (ci : Conn) (ca : Cls) : List Cls :=
  (world.cells ci).dropWhile fun other => !decide (typeGet ca < typeGet other)

theorem World.before_append_behind (typeGet : Cls → Nat) (world : World Conn Cls) (ci : Conn)
    (ca : Cls) :
    world.before typeGet ci ca ++ world.behind typeGet ci ca = world.cells ci :=
  List.takeWhile_append_dropWhile

/-- The lists with a new classifier. -/
def World.inserted (typeGet : Cls → Nat) (world : World Conn Cls) (ci : Conn) (ca : Cls) :
    Conn → List Cls :=
  Function.update world.cells ci (world.before typeGet ci ca ++ ca :: world.behind typeGet ci ca)

theorem World.inserted_self : world.inserted typeGet ci ca ci =
    world.before typeGet ci ca ++ ca :: world.behind typeGet ci ca :=
  Function.update_self ..

theorem World.inserted_of_ne {conn : Conn} (isNot : conn ≠ ci) :
    world.inserted typeGet ci ca conn = world.cells conn :=
  Function.update_of_ne isNot ..

theorem World.mem_inserted {conn : Conn} {other : Cls} :
    other ∈ world.inserted typeGet ci ca conn ↔ (conn = ci ∧ other = ca) ∨
        other ∈ world.cells conn := by
  by_cases isCi : conn = ci
  · subst isCi
    rw [World.inserted_self, ← World.before_append_behind typeGet world conn ca]
    simp only [List.mem_append, List.mem_cons]
    tauto
  · rw [World.inserted_of_ne isCi]
    tauto

/-- The place of the new classifier is found. -/
theorem World.Kept.place_eq (kept : world.Kept typeGet types) :
    place typeGet world.state.caLinks (typeGet ca) types none (world.state.assignments ci) =
      ((world.before typeGet ci ca).getLast?, (world.behind typeGet ci ca).head?) := by
  rw [kept.head, Assignment.place_eq (kept.chained ci) (kept.length ci), Option.or_none]
  rfl

section Assigned

variable (kept : world.Kept typeGet types)
include kept

/-- A classifier that no connection has is in no list. -/
theorem World.Kept.fresh
    (unused : ∀ other caType, world.state.assignmentsByType other caType ≠ some ca) (conn : Conn) :
        ca ∉ world.cells conn :=
  fun member => unused conn _ ((kept.stored conn ca).mp member)

/-- Of a type with no assignment no classifier is in the list. -/
theorem World.Kept.noType (free : world.state.assignmentsByType ci (typeGet ca) = none) :
    ∀ other ∈ world.cells ci, typeGet other ≠ typeGet ca := by
  intro other member same
  have stored := (kept.stored ci other).mp member
  rw [same, free] at stored
  cases stored

theorem World.Kept.inserted_chained (fresh : ∀ conn, ca ∉ world.cells conn) (conn : Conn) :
    (world.state.caLinks.insertBetween (world.before typeGet ci ca).getLast?
      (world.behind typeGet ci ca).head? ca).Chained none
          (world.inserted typeGet ci ca conn) none := by
  by_cases isCi : conn = ci
  · subst isCi
    have chained := kept.chained conn
    have nodup := kept.nodup conn
    have notIn := fresh conn
    rw [← World.before_append_behind typeGet world conn ca] at chained nodup notIn
    rw [World.inserted_self]
    exact chained.insertBetween nodup notIn
  · rw [World.inserted_of_ne isCi]
    refine (kept.chained conn).insertBetween_frame (fresh conn) fun other member inCi => ?_
    rw [World.before_append_behind] at inCi
    exact isCi (kept.apart conn ci other member inCi)

theorem World.Kept.inserted_head (conn : Conn) :
    (if (world.before typeGet ci ca).getLast? = none then
      Function.update world.state.assignments ci (some ca) else world.state.assignments) conn =
      (world.inserted typeGet ci ca conn).head? := by
  by_cases isCi : conn = ci
  · subst isCi
    rw [World.inserted_self]
    cases isFront : world.before typeGet conn ca with
    | nil => simp
    | cons first rest =>
      rw [if_neg (by simp [List.getLast?_eq_none_iff]), kept.head,
        ← World.before_append_behind typeGet world conn ca, isFront]
      rfl
  · rw [World.inserted_of_ne isCi, ← kept.head]
    split_ifs
    · exact Function.update_of_ne isCi _ _
    · rfl

theorem World.Kept.inserted_sorted (free : world.state.assignmentsByType ci (typeGet ca) = none)
    (conn : Conn) :
    (world.inserted typeGet ci ca conn).Pairwise fun ca other => typeGet ca < typeGet other := by
  by_cases isCi : conn = ci
  · subst isCi
    have sorted := kept.sorted conn
    have above := @lt_of_mem_dropWhile Cls _ typeGet _ (typeGet ca) sorted
    rw [← World.before_append_behind typeGet world conn ca] at sorted
    obtain ⟨sortedFront, sortedBack, across⟩ := List.pairwise_append.mp sorted
    have below : ∀ other ∈ world.before typeGet conn ca, typeGet other < typeGet ca := by
      intro other member
      have notAbove := @not_lt_of_mem_takeWhile Cls _ typeGet _ _ other member
      have different := kept.noType free other ((List.takeWhile_prefix _).subset member)
      omega
    rw [World.inserted_self]
    refine List.pairwise_append.mpr ⟨sortedFront, List.pairwise_cons.mpr ⟨above, sortedBack⟩, ?_⟩
    intro other member later isLater
    rcases List.mem_cons.mp isLater with rfl | inBack
    · exact below other member
    · exact across other member later inBack
  · rw [World.inserted_of_ne isCi]
    exact kept.sorted conn

theorem World.Kept.inserted_stored (free : world.state.assignmentsByType ci (typeGet ca) = none)
    (conn : Conn) (other : Cls) : other ∈ world.inserted typeGet ci ca conn ↔
      world.state.setByType ci (typeGet ca) (some ca) conn (typeGet other) = some other := by
  rw [World.mem_inserted]
  constructor
  · rintro (⟨rfl, rfl⟩ | isIn)
    · exact State.setByType_self ..
    · by_cases isCi : conn = ci
      · subst isCi
        rw [State.setByType_type _ _ _ (kept.noType free other isIn), ← kept.stored]
        exact isIn
      · rw [State.setByType_conn _ _ _ _ isCi, ← kept.stored]
        exact isIn
  · intro stored
    rcases State.setByType_cases stored with ⟨isCi, -, same⟩ | old
    · exact .inl ⟨isCi, (Option.some.inj same).symm⟩
    · exact .inr ((kept.stored conn other).mpr old)

theorem World.Kept.inserted_apart (fresh : ∀ conn, ca ∉ world.cells conn) (first second : Conn)
    (other : Cls) (inFirst : other ∈ world.inserted typeGet ci ca first)
    (inSecond : other ∈ world.inserted typeGet ci ca second) :
    first = second := by
  rcases World.mem_inserted.mp inFirst with ⟨rfl, rfl⟩ | old
  · rcases World.mem_inserted.mp inSecond with ⟨rfl, -⟩ | old
    · rfl
    · exact absurd old (fresh second)
  · rcases World.mem_inserted.mp inSecond with ⟨rfl, rfl⟩ | alsoOld
    · exact absurd old (fresh first)
    · exact kept.apart first second other old alsoOld

/-- The list of the type of an assigned classifier, if the type has one. -/
theorem World.Kept.assign_lists (free : world.state.assignmentsByType ci (typeGet ca) = none)
    {after : World Conn Cls} (isAfter : world.step typeGet types (.assign ci ca) = after) :
    (∀ caType, (after.lists caType).Kept) ∧
      (∀ caType, (after.lists caType).tal = (if typeGet ca = 0 then world.state.typeLists else
        Function.update world.state.typeLists (typeGet ca)
          ((world.state.typeLists (typeGet ca)).assign ci)) caType) ∧
      ∀ caType conn, (after.lists caType).assigned conn =
        (decide (caType ≠ 0) &&
            (world.state.setByType ci (typeGet ca) (some ca) conn caType).isSome) := by
  have isLists : after.lists = if typeGet ca = 0 then world.lists
      else Function.update world.lists (typeGet ca)
          ((world.lists (typeGet ca)).step (.assign ci)) := by
    rw [← isAfter]
    rfl
  rw [isLists]
  split_ifs with isDefault
  · refine ⟨kept.lists, kept.tals, fun caType conn => ?_⟩
    rw [kept.assigned]
    by_cases zero : caType = 0
    · simp [zero]
    · by_cases isCi : conn = ci
      · subst isCi
        rw [State.setByType_type _ _ _ (isDefault ▸ zero)]
      · rw [State.setByType_conn _ _ _ _ isCi]
  · refine ⟨kept.lists_step ?_, kept.tals_step ?_, kept.assigned_step isDefault rfl⟩
    · show (world.lists (typeGet ca)).assigned ci = false
      rw [kept.assigned, free]
      simp
    · rw [← kept.tals]
      rfl

/-- The other classifiers are assigned as before. -/
theorem World.Kept.isAssigned_inserted (free : world.state.assignmentsByType ci (typeGet ca) = none)
    {other : Cls} (isNot : other ≠ ca) :
    (∃ conn, world.state.setByType ci (typeGet ca) (some ca) conn (typeGet other) = some other) ↔
      world.state.IsAssigned typeGet other := by
  refine exists_congr fun conn => ?_
  rw [← kept.inserted_stored free, ← kept.stored, World.mem_inserted]
  exact or_iff_right fun both => isNot both.2

end Assigned

/-- **A classifier is assigned.** -/
theorem World.Kept.assign (kept : world.Kept typeGet types)
    (legal : world.Legal typeGet types (.assign ci ca)) :
    (world.step typeGet types (.assign ci ca)).Kept typeGet types := by
  obtain ⟨bound, free, unused⟩ := legal
  have fresh := kept.fresh unused
  obtain ⟨lists, tals, assigned⟩ := kept.assign_lists free rfl
  have isState : (world.step typeGet types (.assign ci ca)).state =
      { caLinks := world.state.caLinks.insertBetween (world.before typeGet ci ca).getLast?
          (world.behind typeGet ci ca).head? ca
        assignments := if (world.before typeGet ci ca).getLast? = none then
          Function.update world.state.assignments ci (some ca) else world.state.assignments
        assignmentsByType := world.state.setByType ci (typeGet ca) (some ca)
        typeLists := if typeGet ca = 0 then world.state.typeLists else
          Function.update world.state.typeLists (typeGet ca)
            ((world.state.typeLists (typeGet ca)).assign ci)
        refs := Function.update world.state.refs ca (world.state.refs ca + 1) } := by
    simp only [World.step, State.exec, State.assign, kept.place_eq]
  refine ⟨?_, ?_, kept.inserted_sorted free, ?_, ?_, kept.inserted_apart fresh, lists,
    ?_, ?_, ?_, ?_⟩
  all_goals rw [isState]
  · exact kept.inserted_chained fresh
  · exact kept.inserted_head
  · exact kept.inserted_stored free
  · intro conn caType other stored
    rcases State.setByType_cases stored with ⟨-, rfl, same⟩ | old
    · cases same
      exact ⟨rfl, bound⟩
    · exact kept.typed conn caType other old
  · exact tals
  · exact assigned
  · intro other isAssigned
    show Function.update world.state.refs ca (world.state.refs ca + 1) other =
      1 + world.deferred other
    by_cases isCa : other = ca
    · subst isCa
      rw [Function.update_self, kept.otherRefs]
      · omega
      · rintro ⟨conn, stored⟩
        exact unused conn _ stored
    · rw [Function.update_of_ne isCa]
      exact kept.assignedRefs other ((kept.isAssigned_inserted free isCa).mp isAssigned)
  · intro other notAssigned
    show Function.update world.state.refs ca (world.state.refs ca + 1) other = world.deferred other
    have isCa : other ≠ ca := by
      rintro rfl
      exact notAssigned ⟨ci, State.setByType_self _ _ _ _⟩
    rw [Function.update_of_ne isCa]
    exact kept.otherRefs other fun isAssigned =>
      notAssigned ((kept.isAssigned_inserted free isCa).mpr isAssigned)

/-! ### A classifier is unassigned -/

theorem State.unassign_of_not (notUnassigns : ¬world.Unassigns typeGet types ci ca) :
    world.state.unassign typeGet types ci ca = world.state := by
  unfold State.unassign
  by_cases above : types ≤ typeGet ca
  · rw [if_pos above]
  · rw [if_neg above]
    by_cases empty : world.state.assignmentsByType ci (typeGet ca) = none
    · rw [if_pos empty]
    · exact absurd ⟨Nat.lt_of_not_le above, empty⟩ notUnassigns

/-- The lists without a classifier. -/
def World.erased (world : World Conn Cls) (ci : Conn) (ca : Cls) : Conn → List Cls :=
  Function.update world.cells ci ((world.cells ci).erase ca)

theorem World.erased_self : world.erased ci ca ci = (world.cells ci).erase ca :=
    Function.update_self ..

theorem World.erased_of_ne {conn : Conn} (isNot : conn ≠ ci) :
    world.erased ci ca conn = world.cells conn :=
  Function.update_of_ne isNot ..

section Unassigned

variable (kept : world.Kept typeGet types)
    (stored : world.state.assignmentsByType ci (typeGet ca) = some ca)
include kept stored

/-- Only its connection has the classifier. -/
theorem World.Kept.only {conn : Conn} (isIn : ca ∈ world.cells conn) : conn = ci :=
  kept.apart conn ci ca isIn ((kept.stored ci ca).mpr stored)

theorem World.Kept.mem_erased {conn : Conn} {other : Cls} :
    other ∈ world.erased ci ca conn ↔ other ≠ ca ∧ other ∈ world.cells conn := by
  by_cases isCi : conn = ci
  · subst isCi
    rw [World.erased_self, (kept.nodup conn).mem_erase_iff]
  · rw [World.erased_of_ne isCi]
    refine ⟨fun isIn => ⟨?_, isIn⟩, fun both => both.2⟩
    rintro rfl
    exact isCi (kept.only stored isIn)

/-- What is stored now is what was stored, but for the classifier. -/
theorem World.Kept.erased_stored (conn : Conn) (other : Cls) : other ∈ world.erased ci ca conn ↔
    world.state.setByType ci (typeGet ca) none conn (typeGet other) = some other := by
  rw [kept.mem_erased stored]
  constructor
  · rintro ⟨isNot, isIn⟩
    have old := (kept.stored conn other).mp isIn
    by_cases isCi : conn = ci
    · subst isCi
      have different : typeGet other ≠ typeGet ca := by
        intro same
        rw [same, stored] at old
        exact isNot (Option.some.inj old).symm
      rw [State.setByType_type _ _ _ different]
      exact old
    · rw [State.setByType_conn _ _ _ _ isCi]
      exact old
  · intro now
    rcases State.setByType_cases now with ⟨-, -, same⟩ | old
    · cases same
    · refine ⟨?_, (kept.stored conn other).mpr old⟩
      rintro rfl
      obtain rfl := kept.only stored ((kept.stored conn other).mpr old)
      rw [State.setByType_self] at now
      cases now

theorem World.Kept.erased_chained (conn : Conn) :
    (⟨Function.update (world.state.caLinks.unlink ca).next ca none,
      Function.update (world.state.caLinks.unlink ca).prev ca none⟩ : Links Cls).Chained none
        (world.erased ci ca conn) none := by
  have member : ca ∈ world.cells ci := (kept.stored ci ca).mpr stored
  have unlinked : (world.state.caLinks.unlink ca).Chained none (world.erased ci ca conn) none := by
    by_cases isCi : conn = ci
    · subst isCi
      rw [World.erased_self]
      exact (kept.chained conn).unlink (kept.nodup conn) member
    · rw [World.erased_of_ne isCi]
      refine (kept.chained ci).unlink_frame member (kept.nodup ci)
        (kept.chained conn) fun other isIn inCi => ?_
      exact isCi (kept.apart conn ci other isIn inCi)
  have different : ∀ other ∈ world.erased ci ca conn, other ≠ ca :=
    fun other isIn => ((kept.mem_erased stored).mp isIn).1
  exact unlinked.congr (fun other isIn => Function.update_of_ne (different other isIn) _ _)
    fun other isIn => Function.update_of_ne (different other isIn) _ _

theorem World.Kept.erased_head (conn : Conn) :
    (if world.state.caLinks.prev ca = none then
      Function.update world.state.assignments ci (world.state.caLinks.next ca) else
        world.state.assignments) conn =
      (world.erased ci ca conn).head? := by
  by_cases isCi : conn = ci
  · subst isCi
    obtain ⟨front, back, split⟩ := List.append_of_mem ((kept.stored conn ca).mpr stored)
    have chained := kept.chained conn
    have nodup := kept.nodup conn
    rw [split] at chained nodup
    obtain ⟨isPrev, isNext⟩ := chained.fields
    have notFront : ca ∉ front := fun inFront =>
      (List.nodup_append.mp nodup).2.2 ca inFront ca List.mem_cons_self rfl
    rw [World.erased_self, isPrev, isNext, split, List.erase_append_right _ notFront,
      List.erase_cons_head]
    cases isFront : front with
    | nil => simp
    | cons first rest =>
      rw [if_neg (by simp [List.getLast?_eq_none_iff]), kept.head, split, isFront]
      rfl
  · rw [World.erased_of_ne isCi, ← kept.head]
    split_ifs
    · exact Function.update_of_ne isCi _ _
    · rfl

omit stored in
theorem World.Kept.erased_sorted (conn : Conn) :
    (world.erased ci ca conn).Pairwise fun ca other => typeGet ca < typeGet other := by
  by_cases isCi : conn = ci
  · subst isCi
    rw [World.erased_self]
    exact (kept.sorted conn).sublist List.erase_sublist
  · rw [World.erased_of_ne isCi]
    exact kept.sorted conn

/-- The other classifiers are assigned as before. -/
theorem World.Kept.isAssigned_erased (other : Cls) :
    (∃ conn, world.state.setByType ci (typeGet ca) none conn (typeGet other) = some other) ↔
      other ≠ ca ∧ world.state.IsAssigned typeGet other := by
  unfold State.IsAssigned
  rw [← exists_and_left]
  refine exists_congr fun conn => ?_
  rw [← kept.erased_stored stored, kept.mem_erased stored, kept.stored]

end Unassigned

/-- **A classifier is unassigned.** -/
theorem World.Kept.unassign (kept : world.Kept typeGet types)
    (legal : world.Legal typeGet types (.unassign ci ca))
    (sound : world.Sound typeGet (.unassign ci ca)) :
    (world.step typeGet types (.unassign ci ca)).Kept typeGet types := by
  by_cases unassigns : world.Unassigns typeGet types ci ca
  swap
  · have next : world.step typeGet types (.unassign ci ca) = world := by
      have notDeferred : ¬(world.Unassigns typeGet types ci ca ∧
          0 < (world.state.typeLists (typeGet ca)).iterationCount ci) :=
          fun both => unassigns both.1
      unfold World.step
      simp only [State.exec, State.unassign_of_not unassigns, if_neg unassigns, if_neg notDeferred]
    rw [next]
    exact kept
  have stored : world.state.assignmentsByType ci (typeGet ca) = some ca :=
    sound.resolve_right unassigns.2
  have notDefault : typeGet ca ≠ 0 := legal
  have next : world.step typeGet types (.unassign ci ca) =
      { state := { caLinks := ⟨Function.update (world.state.caLinks.unlink ca).next ca none,
                     Function.update (world.state.caLinks.unlink ca).prev ca none⟩
                   assignments := if world.state.caLinks.prev ca = none then
                     Function.update world.state.assignments ci (world.state.caLinks.next ca) else
                       world.state.assignments
                   assignmentsByType := world.state.setByType ci (typeGet ca) none
                   typeLists := Function.update world.state.typeLists (typeGet ca)
                     ((world.state.typeLists (typeGet ca)).unassign ci)
                   refs := if 0 < (world.state.typeLists (typeGet ca)).iterationCount ci then
                     world.state.refs
                     else Function.update world.state.refs ca (world.state.refs ca - 1) }
        cells := world.erased ci ca
        lists := Function.update world.lists (typeGet ca)
          ((world.lists (typeGet ca)).step (.unassign ci))
        deferred := if 0 < (world.state.typeLists (typeGet ca)).iterationCount ci then
          Function.update world.deferred ca (world.deferred ca + 1) else world.deferred } := by
    have effective : world.state.unassign typeGet types ci ca = _ :=
      (if_neg (Nat.not_le_of_lt unassigns.1)).trans (if_neg unassigns.2)
    unfold World.step
    simp only [State.exec, effective, unassigns, true_and, if_true]
    rfl
  rw [next]
  refine ⟨kept.erased_chained stored, kept.erased_head stored, kept.erased_sorted,
    kept.erased_stored stored, ?_, ?_,
    kept.lists_step ?_, kept.tals_step ?_, kept.assigned_step notDefault rfl, ?_, ?_⟩
  · intro conn caType other now
    rcases State.setByType_cases now with ⟨-, -, same⟩ | old
    · cases same
    · exact kept.typed conn caType other old
  · intro first second other inFirst inSecond
    exact kept.apart first second other ((kept.mem_erased stored).mp inFirst).2
      ((kept.mem_erased stored).mp inSecond).2
  · show (world.lists (typeGet ca)).assigned ci = true
    rw [kept.assigned, stored]
    simp [notDefault]
  · rw [← kept.tals]
    rfl
  · intro other isAssigned
    obtain ⟨isNot, isOld⟩ := (kept.isAssigned_erased stored other).mp isAssigned
    have old := kept.assignedRefs other isOld
    dsimp only
    split_ifs
    · rw [Function.update_of_ne isNot]
      exact old
    · rw [Function.update_of_ne isNot]
      exact old
  · intro other notAssigned
    dsimp only
    by_cases isCa : other = ca
    · subst isCa
      have old := kept.assignedRefs other ⟨ci, stored⟩
      split_ifs
      · rw [Function.update_self, old]
        omega
      · rw [Function.update_self, old]
        omega
    · have old := kept.otherRefs other fun isOld =>
        notAssigned ((kept.isAssigned_erased stored other).mpr ⟨isCa, isOld⟩)
      split_ifs
      · rw [Function.update_of_ne isCa]
        exact old
      · rw [Function.update_of_ne isCa]
        exact old

/-! ### Every call -/

/-- **An iteration goes on.** -/
theorem World.Kept.iterate (kept : world.Kept typeGet types) {caType : Nat} {call : Call Conn}
    (legal : world.Legal typeGet types (.iterate caType call)) :
    (world.step typeGet types (.iterate caType call)).Kept typeGet types := by
  obtain ⟨iterates, legal⟩ := legal
  have sameTal : ((world.lists caType).step call).tal =
      (world.state.typeLists caType).exec call := by
    rw [← kept.tals]
    cases call with
    | assign ci => cases iterates
    | unassign ci => cases iterates
    | first id => rfl
    | next id ci => rfl
    | deref id ci => rfl
  have sameAssigned : ((world.lists caType).step call).assigned =
      (world.lists caType).assigned := by
    cases call with
    | assign ci => cases iterates
    | unassign ci => cases iterates
    | first id => rfl
    | next id ci => rfl
    | deref id ci => rfl
  refine ⟨kept.chained, kept.head, kept.sorted, kept.stored, kept.typed, kept.apart,
    kept.lists_step legal,
    kept.tals_step sameTal, ?_, kept.assignedRefs, kept.otherRefs⟩
  intro other conn
  show (Function.update world.lists caType ((world.lists caType).step call) other).assigned conn = _
  by_cases same : other = caType
  · subst same
    rw [Function.update_self, sameAssigned]
    exact kept.assigned other conn
  · rw [Function.update_of_ne same]
    exact kept.assigned other conn

/-- **A run keeps the assignments and the lists.** -/
theorem World.Kept.run {calls : List (DbCall Conn Cls)} (kept : world.Kept typeGet types)
    (along : world.Along typeGet types calls) :
        (world.run typeGet types calls).Kept typeGet types := by
  induction calls generalizing world with
  | nil => exact kept
  | cons call rest ih =>
    obtain ⟨⟨legal, sound⟩, later⟩ := along
    refine ih ?_ later
    cases call with
    | assign ci ca => exact kept.assign legal
    | unassign ci ca => exact kept.unassign legal sound
    | iterate caType call => exact kept.iterate legal

end Qsdk.Ecm.Assignment
