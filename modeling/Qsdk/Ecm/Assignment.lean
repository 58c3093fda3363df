/-
**The classifiers of the connections of the ECM database.**

A connection has the classifiers that are assigned to it in a list, by their types, and in an array.
The default classifier, of the type 0, is on no list of connections. `ECM_CLASSIFIER_TYPES` depends
on what is compiled in (`types`).

`World` has beside the state what the lists are, what the iterations have been given, and how many
unassigns were left to the iterations. The last ones never drop the reference on their classifier.
-/

import Qsdk.Ecm.TypeList
import Mathlib.Data.List.Perm.Subperm

set_option linter.unusedSectionVars false

namespace Qsdk.Ecm.Assignment

/-! ### The functions -/

/-- The fields of the connections, of the classifiers and of the lists by type. `refs` counts the
references that connections have on a classifier. -/
structure State (Conn Cls : Type) where
  caLinks : Links Cls
  assignments : Conn → Option Cls
  assignmentsByType : Conn → Nat → Option Cls
  typeLists : Nat → TypeList Conn
  refs : Cls → Int

variable {Conn Cls : Type} [DecidableEq Conn] [DecidableEq Cls] (typeGet : Cls → Nat) (types : Nat)

/-- The loop that finds the place of a new classifier: what it comes after, and before. A list has
no more classifiers than there are types. -/
def place (links : Links Cls) (newCaType : Nat) : Nat → Option Cls → Option Cls →
    Option Cls × Option Cls
  | 0, caPrev, ca => (caPrev, ca)
  | _ + 1, caPrev, none => (caPrev, none)
  | fuel + 1, caPrev, some ca =>
    if newCaType < typeGet ca then (caPrev, some ca) else place links newCaType fuel (some ca)
      (links.next ca)

def State.setByType (state : State Conn Cls) (ci : Conn) (caType : Nat) (ca : Option Cls) : Conn →
    Nat → Option Cls :=
  Function.update state.assignmentsByType ci
    (Function.update (state.assignmentsByType ci) caType ca)

/-- `ecm_db_connection_classifier_assign`. -/
def State.assign (state : State Conn Cls) (ci : Conn) (newCa : Cls) : State Conn Cls :=
  let neighbours := place typeGet state.caLinks (typeGet newCa) types none (state.assignments ci)
  { caLinks := state.caLinks.insertBetween neighbours.1 neighbours.2 newCa
    assignments := if neighbours.1 = none then Function.update state.assignments ci
      (some newCa) else state.assignments
    assignmentsByType := state.setByType ci (typeGet newCa) (some newCa)
    typeLists := if typeGet newCa = 0 then state.typeLists
      else Function.update state.typeLists (typeGet newCa)
        ((state.typeLists (typeGet newCa)).assign ci)
    refs := Function.update state.refs newCa (state.refs newCa + 1) }

/-- `ecm_db_connection_classifier_unassign`, with `_ecm_db_connection_classifier_unassign`. It asks
whether the type has an assignment, not which; and it returns before it drops the reference if an
iteration holds the entry. -/
def State.unassign (state : State Conn Cls) (ci : Conn) (cci : Cls) : State Conn Cls :=
  if types ≤ typeGet cci then state
  else if state.assignmentsByType ci (typeGet cci) = none then state
  else
    let links := state.caLinks.unlink cci
    { caLinks := ⟨Function.update links.next cci none, Function.update links.prev cci none⟩
      assignments := if state.caLinks.prev cci = none then
        Function.update state.assignments ci (state.caLinks.next cci) else state.assignments
      assignmentsByType := state.setByType ci (typeGet cci) none
      typeLists := Function.update state.typeLists (typeGet cci)
        ((state.typeLists (typeGet cci)).unassign ci)
      refs := if 0 < (state.typeLists (typeGet cci)).iterationCount ci then state.refs
        else Function.update state.refs cci (state.refs cci - 1) }

/-- What is called. An iteration over the list of a type has a number. -/
inductive DbCall (Conn Cls : Type)
  | assign (ci : Conn) (newCa : Cls)
  | unassign (ci : Conn) (cci : Cls)
  | iterate (caType : Nat) (call : Call Conn)

/-- The list of a type after a call of an iteration. -/
def TypeList.exec (tal : TypeList Conn) : Call Conn → TypeList Conn
  | .first _ => tal.getAndRefFirst.2
  | .next _ ci => (tal.getAndRefNext ci).2
  | .deref _ ci => tal.deref ci
  | _ => tal

def State.exec (state : State Conn Cls) : DbCall Conn Cls → State Conn Cls
  | .assign ci newCa => state.assign typeGet types ci newCa
  | .unassign ci cci => state.unassign typeGet types ci cci
  | .iterate caType call =>
    { state with
      typeLists := Function.update state.typeLists caType ((state.typeLists caType).exec call) }

/-! ### What is told beside the state -/

/-- The state, with the assignments of the connections in order, what is told beside the lists by
type, and how many unassigns of a classifier were left to iterations. -/
structure World (Conn Cls : Type) where
  state : State Conn Cls
  cells : Conn → List Cls
  lists : Nat → Tracked Conn
  deferred : Cls → Nat

/-- A call that unassigns something. -/
def World.Unassigns (world : World Conn Cls) (ci : Conn) (cci : Cls) : Prop :=
  typeGet cci < types ∧ world.state.assignmentsByType ci (typeGet cci) ≠ none

instance (world : World Conn Cls) (ci : Conn) (cci : Cls) :
    Decidable (world.Unassigns typeGet types ci cci) :=
  inferInstanceAs (Decidable (_ ∧ _))

/-- The world after a call. -/
def World.step (world : World Conn Cls) (call : DbCall Conn Cls) : World Conn Cls where
  state := world.state.exec typeGet types call
  cells := match call with
    | .assign ci newCa => Function.update world.cells ci
        ((world.cells ci).takeWhile (fun ca => !decide (typeGet newCa < typeGet ca)) ++
          newCa :: (world.cells ci).dropWhile fun ca => !decide (typeGet newCa < typeGet ca))
    | .unassign ci cci => if world.Unassigns typeGet types ci cci then
        Function.update world.cells ci ((world.cells ci).erase cci) else world.cells
    | .iterate _ _ => world.cells
  lists := match call with
    | .assign ci newCa => if typeGet newCa = 0 then world.lists
        else Function.update world.lists (typeGet newCa)
          ((world.lists (typeGet newCa)).step (.assign ci))
    | .unassign ci cci => if world.Unassigns typeGet types ci cci then
        Function.update world.lists (typeGet cci) ((world.lists (typeGet cci)).step (.unassign ci))
          else world.lists
    | .iterate caType call => Function.update world.lists caType ((world.lists caType).step call)
  deferred := match call with
    | .unassign ci cci => if world.Unassigns typeGet types ci cci ∧
          0 < (world.state.typeLists (typeGet cci)).iterationCount ci then
        Function.update world.deferred cci (world.deferred cci + 1) else world.deferred
    | _ => world.deferred

/-- A call of an iteration. -/
def Call.Iterates : Call Conn → Prop
  | .assign _ => False
  | .unassign _ => False
  | _ => True

/-- The calls that may be made. A classifier is assigned that no connection has, with a type that
has no assignment. The default classifier is not unassigned. Iterations go as `Tracked.Legal`
says. -/
def World.Legal (world : World Conn Cls) : DbCall Conn Cls → Prop
  | .assign ci newCa => typeGet newCa < types ∧
    world.state.assignmentsByType ci (typeGet newCa) = none ∧
      ∀ other caType, world.state.assignmentsByType other caType ≠ some newCa
  | .unassign _ cci => typeGet cci ≠ 0
  | .iterate caType call => call.Iterates ∧ (world.lists caType).Legal call

/-- **The unassigns that do what is meant**: of the classifier that is assigned, or of a type with
no assignment. -/
def World.Sound (world : World Conn Cls) : DbCall Conn Cls → Prop
  | .unassign ci cci => world.state.assignmentsByType ci (typeGet cci) = some cci ∨
      world.state.assignmentsByType ci (typeGet cci) = none
  | _ => True

/-- All calls of a run are such. -/
def World.Along (world : World Conn Cls) : List (DbCall Conn Cls) → Prop
  | [] => True
  | call :: rest => (world.Legal typeGet types call ∧ world.Sound typeGet call) ∧
    (world.step typeGet types call).Along rest

def World.run (world : World Conn Cls) (calls : List (DbCall Conn Cls)) : World Conn Cls :=
  calls.foldl (World.step typeGet types) world

/-- No classifier is assigned, and no iteration has begun. -/
def Tracked.start : Tracked Conn where
  tal := ⟨⟨fun _ => none, fun _ => none⟩, none, 0, fun _ => 0, fun _ => false⟩
  conns := []
  assigned := fun _ => false
  iterations := fun _ => ⟨false, fun _ => false, [], false⟩
  holds := []

def World.start : World Conn Cls where
  state := ⟨⟨fun _ => none, fun _ => none⟩, fun _ => none, fun _ _ => none, fun _ =>
    Tracked.start.tal, fun _ => 0⟩
  cells := fun _ => []
  lists := fun _ => Tracked.start
  deferred := fun _ => 0

/-! ### The invariant -/

/-- The classifier is assigned to some connection. -/
def State.IsAssigned (state : State Conn Cls) (ca : Cls) : Prop :=
    ∃ ci, state.assignmentsByType ci (typeGet ca) = some ca

/-- **What every run keeps.** -/
structure World.Kept (world : World Conn Cls) : Prop where
  chained : ∀ ci, world.state.caLinks.Chained none (world.cells ci) none
  head : ∀ ci, world.state.assignments ci = (world.cells ci).head?
  sorted : ∀ ci, (world.cells ci).Pairwise fun ca other => typeGet ca < typeGet other
  stored : ∀ ci ca, ca ∈ world.cells ci ↔ world.state.assignmentsByType ci (typeGet ca) = some ca
  typed : ∀ ci caType ca, world.state.assignmentsByType ci caType = some ca →
    typeGet ca = caType ∧ caType < types
  apart : ∀ ci other ca, ca ∈ world.cells ci → ca ∈ world.cells other → ci = other
  lists : ∀ caType, (world.lists caType).Kept
  tals : ∀ caType, (world.lists caType).tal = world.state.typeLists caType
  assigned : ∀ caType ci, (world.lists caType).assigned ci =
    (decide (caType ≠ 0) && (world.state.assignmentsByType ci caType).isSome)
  assignedRefs : ∀ ca, world.state.IsAssigned typeGet ca →
    world.state.refs ca = 1 + world.deferred ca
  otherRefs : ∀ ca, ¬world.state.IsAssigned typeGet ca → world.state.refs ca = world.deferred ca

theorem Tracked.start_kept : (Tracked.start : Tracked Conn).Kept := by
  refine ⟨trivial, rfl, List.nodup_nil, rfl, ?_, ?_, fun _ => rfl, ?_, ?_⟩
  · intro ci
    simp [Tracked.start]
  · intro ci pending
    cases pending
  · intro hold member
    cases member
  · intro id
    exact ⟨fun _ => ⟨rfl, rfl⟩, (fun _ isStay => by cases isStay),
      (fun _ isLast => by cases isLast),
      (fun done => by cases done)⟩

theorem World.start_kept : (World.start : World Conn Cls).Kept typeGet types := by
  refine ⟨fun _ => trivial, fun _ => rfl, fun _ => List.Pairwise.nil, ?_, ?_, ?_, fun _ =>
    Tracked.start_kept,
    fun _ => rfl, ?_, ?_, fun _ _ => rfl⟩
  · intro ci ca
    simp [World.start]
  · intro ci caType ca stored
    cases stored
  · intro ci other ca member
    cases member
  · intro caType ci
    simp [World.start, Tracked.start]
  · rintro ca ⟨ci, stored⟩
    cases stored

variable {typeGet types} {world : World Conn Cls} {ci : Conn} {ca : Cls}

theorem World.Kept.nodup (kept : world.Kept typeGet types) (ci : Conn) : (world.cells ci).Nodup :=
  (kept.sorted ci).imp fun less same => by
    rw [same] at less
    exact Nat.lt_irrefl _ less

/-- A connection has no more assignments than there are types. -/
theorem World.Kept.length (kept : world.Kept typeGet types) (ci : Conn) :
    (world.cells ci).length ≤ types := by
  have nodup : ((world.cells ci).map typeGet).Nodup := by
    refine List.pairwise_map.mpr ((kept.sorted ci).imp fun less same => ?_)
    rw [same] at less
    exact Nat.lt_irrefl _ less
  have subset : (world.cells ci).map typeGet ⊆ List.range types := by
    intro caType member
    obtain ⟨ca, isIn, rfl⟩ := List.mem_map.mp member
    exact List.mem_range.mpr (kept.typed ci _ ca ((kept.stored ci ca).mp isIn)).2
  have length := (List.subperm_of_subset nodup subset).length_le
  simpa using length

/-- The loop finds the place between the classifiers of lower types and those of higher ones. -/
theorem place_eq {links : Links Cls} {newCaType fuel : Nat} {before : Option Cls} {cells : List Cls}
    (chained : links.Chained before cells none) (enough : cells.length ≤ fuel) :
    place typeGet links newCaType fuel before cells.head? =
      ((cells.takeWhile fun ca => !decide (newCaType < typeGet ca)).getLast?.or before,
        (cells.dropWhile fun ca => !decide (newCaType < typeGet ca)).head?) := by
  induction cells generalizing before fuel with
  | nil => cases fuel <;> simp [place]
  | cons ca rest ih =>
    obtain ⟨-, isNext, chainedRest⟩ := chained
    cases fuel with
    | zero => simp at enough
    | succ fuel =>
      rw [List.head?_cons, place]
      by_cases isHere : newCaType < typeGet ca
      · simp [isHere]
      · rw [if_neg isHere, isNext, Option.or_none, ih chainedRest (by simpa using enough)]
        simp only [isHere, decide_false, Bool.not_false, List.takeWhile_cons_of_pos,
          List.dropWhile_cons_of_pos,
          Prod.mk.injEq, and_true]
        cases isLast : (rest.takeWhile fun ca => !decide (newCaType < typeGet ca)).getLast? with
        | none => simp [List.getLast?_eq_none_iff.mp isLast]
        | some last => simp [List.getLast?_cons, isLast]

end Qsdk.Ecm.Assignment
