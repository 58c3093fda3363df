/-
**The connections of one classifier type.**

An entry of the list may be held by iterations that go on outside of the lock. An unassign of such
an entry only sets its pending flag; whichever iteration drops the entry last takes it out of the
list. A new entry goes in front.

So the order of the entries that stay never changes, and the entry that an iteration holds stays:
what an iteration has still to visit is what comes after the entry that it was given last
(`Iteration.Sound`).
-/

import Qsdk.Lib.Linked
import Mathlib.Data.List.Basic
import Mathlib.Data.List.Nodup

set_option linter.unusedSectionVars false

namespace Qsdk.Ecm.Assignment

/-! ### The functions -/

/-- `struct ecm_db_connection_classifier_type_assignment_list`, with the `type_assignment` of this
type of every connection. -/
structure TypeList (Conn : Type) where
  links : Links Conn
  typeAssignmentsList : Option Conn
  typeAssignmentCount : Nat
  iterationCount : Conn → Nat
  pendingUnassign : Conn → Bool

variable {Conn : Type} [DecidableEq Conn]

/-- The part of `ecm_db_connection_classifier_assign` that adds the connection to the list. -/
def TypeList.assign (tal : TypeList Conn) (ci : Conn) : TypeList Conn :=
  if tal.pendingUnassign ci then
    { tal with pendingUnassign := Function.update tal.pendingUnassign ci false }
  else { tal with
    links := tal.links.pushFront tal.typeAssignmentsList ci
    typeAssignmentsList := some ci
    typeAssignmentCount := tal.typeAssignmentCount + 1 }

/-- `_ecm_db_classifier_type_assignment_remove`. -/
def TypeList.remove (tal : TypeList Conn) (ci : Conn) : TypeList Conn :=
  let links := tal.links.unlink ci
  { tal with
    links := ⟨Function.update links.next ci none, Function.update links.prev ci none⟩
    typeAssignmentsList := if tal.links.prev ci = none then tal.links.next ci else
      tal.typeAssignmentsList
    pendingUnassign := Function.update tal.pendingUnassign ci false
    typeAssignmentCount := tal.typeAssignmentCount - 1 }

/-- The part of `_ecm_db_connection_classifier_unassign` that takes the connection off the list, or
leaves this to the iterations that hold it. -/
def TypeList.unassign (tal : TypeList Conn) (ci : Conn) : TypeList Conn :=
  if 0 < tal.iterationCount ci then
    { tal with pendingUnassign := Function.update tal.pendingUnassign ci true }
  else tal.remove ci

/-- The loops of the two functions that follow. They end at the end of the list, which has
`type_assignment_count` entries. -/
def TypeList.notPending (tal : TypeList Conn) (ci : Option Conn) : Option Conn :=
  tal.links.walk (fun ci => !tal.pendingUnassign ci) tal.typeAssignmentCount ci

def TypeList.hold (tal : TypeList Conn) (ci : Conn) : TypeList Conn :=
  { tal with iterationCount := Function.update tal.iterationCount ci (tal.iterationCount ci + 1) }

/-- `ecm_db_connection_by_classifier_type_assignment_get_and_ref_first`. -/
def TypeList.getAndRefFirst (tal : TypeList Conn) : Option Conn × TypeList Conn :=
  match tal.notPending tal.typeAssignmentsList with
  | some ci => (some ci, tal.hold ci)
  | none => (none, tal)

/-- `ecm_db_connection_by_classifier_type_assignment_get_and_ref_next`. -/
def TypeList.getAndRefNext (tal : TypeList Conn) (ci : Conn) : Option Conn × TypeList Conn :=
  match tal.notPending (tal.links.next ci) with
  | some cin => (some cin, tal.hold cin)
  | none => (none, tal)

/-- `ecm_db_connection_by_classifier_type_assignment_deref`. -/
def TypeList.deref (tal : TypeList Conn) (ci : Conn) : TypeList Conn :=
  let dropped :=
    { tal with iterationCount := Function.update tal.iterationCount ci (tal.iterationCount ci - 1) }
  if tal.pendingUnassign ci = true ∧ dropped.iterationCount ci = 0 then
    dropped.remove ci else dropped

/-! ### What is told beside the list -/

/-- An iteration over the list: the connections that were assigned when it began and have been ever
since, those that it was given so far, and whether it has come to the end. -/
structure Iteration (Conn : Type) where
  begun : Bool
  stays : Conn → Bool
  visited : List Conn
  finished : Bool

/-- A list, with its connections in order, those that are assigned, the iterations, and the
references that these hold. -/
structure Tracked (Conn : Type) where
  tal : TypeList Conn
  conns : List Conn
  assigned : Conn → Bool
  iterations : Nat → Iteration Conn
  holds : List (Nat × Conn)

/-- What is called for a list. -/
inductive Call (Conn : Type)
  | assign (ci : Conn)
  | unassign (ci : Conn)
  | first (iteration : Nat)
  | next (iteration : Nat) (ci : Conn)
  | deref (iteration : Nat) (ci : Conn)

/-- An iteration is given a connection, or comes to the end. -/
def Iteration.given (iteration : Iteration Conn) : Option Conn → Iteration Conn
  | some ci => { iteration with begun := true, visited := iteration.visited ++ [ci] }
  | none => { iteration with begun := true, finished := true }

/-- A list after a call. -/
def Tracked.step (t : Tracked Conn) : Call Conn → Tracked Conn
  | .assign ci => { t with
      tal := t.tal.assign ci
      conns := if t.tal.pendingUnassign ci then t.conns else ci :: t.conns
      assigned := Function.update t.assigned ci true }
  | .unassign ci => { t with
      tal := t.tal.unassign ci
      conns := if 0 < t.tal.iterationCount ci then t.conns else t.conns.erase ci
      assigned := Function.update t.assigned ci false
      iterations := fun id =>
        { t.iterations id with stays := Function.update (t.iterations id).stays ci false } }
  | .first id => { t with
      tal := t.tal.getAndRefFirst.2
      iterations := Function.update t.iterations id
        ({ t.iterations id with stays := t.assigned }.given t.tal.getAndRefFirst.1)
      holds := t.tal.getAndRefFirst.1.toList.map (id, ·) ++ t.holds }
  | .next id ci => { t with
      tal := (t.tal.getAndRefNext ci).2
      iterations := Function.update t.iterations id
        ((t.iterations id).given (t.tal.getAndRefNext ci).1)
      holds := (t.tal.getAndRefNext ci).1.toList.map (id, ·) ++ t.holds }
  | .deref id ci => { t with
      tal := t.tal.deref ci
      conns := if t.tal.pendingUnassign ci = true ∧ t.tal.iterationCount ci =
        1 then t.conns.erase ci else t.conns
      holds := t.holds.erase (id, ci) }

/-- The calls that may be made: a connection is assigned when it is not, and unassigned when it is;
an iteration begins once, asks for the next connection with the one that it was given last and still
holds, and drops what it holds. -/
def Tracked.Legal (t : Tracked Conn) : Call Conn → Prop
  | .assign ci => t.assigned ci = false
  | .unassign ci => t.assigned ci = true
  | .first id => (t.iterations id).begun = false
  | .next id ci => (t.iterations id).visited.getLast? = some ci ∧ (id, ci) ∈ t.holds ∧
    (t.iterations id).finished = false
  | .deref id ci => (id, ci) ∈ t.holds

instance decidableLegal (t : Tracked Conn) : (call : Call Conn) → Decidable (t.Legal call)
  | .assign ci => inferInstanceAs (Decidable (t.assigned ci = false))
  | .unassign ci => inferInstanceAs (Decidable (t.assigned ci = true))
  | .first id => inferInstanceAs (Decidable ((t.iterations id).begun = false))
  | .next id ci =>
    inferInstanceAs (Decidable ((t.iterations id).visited.getLast? = some ci ∧ (id, ci) ∈ t.holds ∧
      (t.iterations id).finished = false))
  | .deref id ci => inferInstanceAs (Decidable ((id, ci) ∈ t.holds))

/-! ### The invariant -/

/-- Of an iteration that holds the connection it was given last, the connections that stay are
visited, once, but for those that come after it in the list. At the end all of them are visited,
once. -/
structure Iteration.Sound (iteration : Iteration Conn) (id : Nat) (t : Tracked Conn) : Prop where
  fresh : iteration.begun = false → iteration.visited = [] ∧ iteration.finished = false
  stays : ∀ ci, iteration.stays ci = true → iteration.begun = true → t.assigned ci = true
  ahead : ∀ ci, iteration.visited.getLast? = some ci → (id, ci) ∈ t.holds →
    ∀ other, iteration.stays other = true →
    ([ci, other].Sublist t.conns → other ∉ iteration.visited) ∧
      (¬[ci, other].Sublist t.conns → iteration.visited.count other = 1)
  all : iteration.finished = true → ∀ ci, iteration.stays ci = true → iteration.visited.count ci = 1

/-- **What every run keeps.** -/
structure Tracked.Kept (t : Tracked Conn) : Prop where
  chained : t.tal.links.Chained none t.conns none
  head : t.tal.typeAssignmentsList = t.conns.head?
  nodup : t.conns.Nodup
  count : t.tal.typeAssignmentCount = t.conns.length
  mem : ∀ ci, ci ∈ t.conns ↔ t.assigned ci = true ∨ t.tal.pendingUnassign ci = true
  pending : ∀ ci, t.tal.pendingUnassign ci = true → t.assigned ci = false ∧ 0 <
    t.tal.iterationCount ci
  holds : ∀ ci, t.tal.iterationCount ci = (t.holds.map Prod.snd).count ci
  held : ∀ hold ∈ t.holds, hold.2 ∈ t.conns
  iterations : ∀ id, (t.iterations id).Sound id t

variable {t : Tracked Conn} {ci : Conn}

theorem Tracked.Kept.iterationCount_pos (kept : t.Kept) : 0 < t.tal.iterationCount ci ↔
    ∃ id, (id, ci) ∈ t.holds := by
  rw [kept.holds ci, List.count_pos_iff, List.mem_map]
  constructor
  · rintro ⟨⟨id, other⟩, member, rfl⟩
    exact ⟨id, member⟩
  · rintro ⟨id, member⟩
    exact ⟨(id, ci), member, rfl⟩

/-- An entry is taken out of the list. -/
theorem Tracked.Kept.chained_remove (kept : t.Kept) (member : ci ∈ t.conns) :
    (t.tal.remove ci).links.Chained none (t.conns.erase ci) none ∧
      (t.tal.remove ci).typeAssignmentsList = (t.conns.erase ci).head? ∧
      (t.tal.remove ci).typeAssignmentCount = (t.conns.erase ci).length := by
  have gone : ci ∉ t.conns.erase ci := kept.nodup.not_mem_erase
  refine ⟨?_, ?_, ?_⟩
  · refine (kept.chained.unlink kept.nodup member).congr ?_ ?_
    · intro other isIn
      exact Function.update_of_ne (fun same => gone (by rw [same] at isIn; exact isIn)) _ _
    · intro other isIn
      exact Function.update_of_ne (fun same => gone (by rw [same] at isIn; exact isIn)) _ _
  · obtain ⟨front, back, split⟩ := List.append_of_mem member
    have chained := kept.chained
    have nodup := kept.nodup
    rw [split] at chained nodup
    obtain ⟨isPrev, isNext⟩ := chained.fields
    have notIn : ci ∉ front := fun inFront =>
      (List.nodup_append.mp nodup).2.2 ci inFront ci List.mem_cons_self rfl
    show (if t.tal.links.prev ci = none then t.tal.links.next ci else t.tal.typeAssignmentsList) = _
    rw [isPrev, isNext, kept.head, split, List.erase_append_right _ notIn, List.erase_cons_head]
    cases front with
    | nil => rfl
    | cons first rest =>
      rw [if_neg (by simp [List.getLast?_eq_none_iff])]
      rfl
  · show t.tal.typeAssignmentCount - 1 = _
    rw [kept.count, List.length_erase_of_mem member]

/-- The walk over the entries after a part of the list finds the first one that is not pending. -/
theorem Tracked.Kept.notPending (kept : t.Kept) {front back : List Conn}
    (split : t.conns = front ++ back) :
    t.tal.notPending back.head? = back.find? fun ci => !t.tal.pendingUnassign ci := by
  have chained := kept.chained
  rw [split] at chained
  obtain ⟨-, chainedBack⟩ := (Links.chained_append front back).mp chained
  refine chainedBack.walk _ _ ?_
  rw [kept.count, split, List.length_append]
  omega

/-! ### What comes after an entry -/

theorem sublist_pair_iff {front back : List Conn} {first second : Conn}
    (nodup : (front ++ first :: back).Nodup) :
    [first, second].Sublist (front ++ first :: back) ↔ second ∈ back := by
  constructor
  · intro sublist
    induction front with
    | nil =>
      cases sublist with
      | cons _ inBack =>
        have again : first ∈ back := inBack.subset List.mem_cons_self
        exact absurd again (List.nodup_cons.mp nodup).1
      | cons_cons _ rest => exact List.singleton_sublist.mp rest
    | cons head front ih =>
      obtain ⟨notIn, nodup⟩ := List.nodup_cons.mp nodup
      cases sublist with
      | cons _ rest => exact ih nodup rest
      | cons_cons _ _ => exact absurd (List.mem_append_right front List.mem_cons_self) notIn
  · intro isIn
    exact ((List.singleton_sublist.mpr isIn).cons_cons first).trans
      (List.sublist_append_right front _)

theorem sublist_pair_cons {conns : List Conn} {first second : Conn} (different : first ≠ ci) :
    [first, second].Sublist (ci :: conns) ↔ [first, second].Sublist conns := by
  constructor
  · intro sublist
    cases sublist with
    | cons _ rest => exact rest
    | cons_cons _ _ => exact absurd rfl different
  · exact fun sublist => sublist.cons ci

theorem sublist_pair_erase {conns : List Conn} {first second : Conn} (notFirst : first ≠ ci)
    (notSecond : second ≠ ci) :
    [first, second].Sublist (conns.erase ci) ↔ [first, second].Sublist conns := by
  constructor
  · exact fun sublist => sublist.trans List.erase_sublist
  · intro sublist
    have erased := sublist.erase ci
    have none : ci ∉ [first, second] := by
      simp [notFirst.symm, notSecond.symm]
    rwa [List.erase_of_not_mem none] at erased

/-! ### One step -/

/-- A connection is assigned. -/
theorem Tracked.Kept.assign (kept : t.Kept) (legal : t.Legal (.assign ci)) :
    (t.step (.assign ci)).Kept := by
  have notAssigned : t.assigned ci = false := legal
  have iterations : ∀ conns : List Conn,
      (∀ first second, first ∈ t.conns →
        ([first, second].Sublist conns ↔ [first, second].Sublist t.conns)) →
      ∀ tal : TypeList Conn, ∀ id, (t.iterations id).Sound id
        { t with tal := tal, conns := conns, assigned := Function.update t.assigned ci true } := by
    intro conns same tal id
    obtain ⟨fresh, stays, ahead, all⟩ := kept.iterations id
    refine ⟨fresh, ?_, ?_, all⟩
    · intro other isStay begun
      show Function.update t.assigned ci true other = true
      by_cases isCi : other = ci
      · rw [isCi, Function.update_self]
      · rw [Function.update_of_ne isCi]
        exact stays other isStay begun
    · intro current isLast holds other isStay
      rw [same current other (kept.held _ holds)]
      exact ahead current isLast holds other isStay
  by_cases isPending : t.tal.pendingUnassign ci = true
  · have next : t.step (.assign ci) = { t with
        tal := { t.tal with pendingUnassign := Function.update t.tal.pendingUnassign ci false }
        conns := t.conns
        assigned := Function.update t.assigned ci true } := by
      simp only [Tracked.step, TypeList.assign, isPending, if_true]
    rw [next]
    refine ⟨kept.chained, kept.head, kept.nodup, kept.count, ?_, ?_, kept.holds, kept.held,
      iterations _ (fun _ _ _ => Iff.rfl) _⟩
    · intro other
      rw [kept.mem]
      by_cases isCi : other = ci
      · subst isCi
        simp [isPending]
      · simp [Function.update_of_ne isCi]
    · intro other pending
      have isNot : other ≠ ci := by
        rintro rfl
        simp at pending
      have old := kept.pending other (by simpa [Function.update_of_ne isNot] using pending)
      simpa [Function.update_of_ne isNot] using old
  · have fresh : ci ∉ t.conns := by
      rw [kept.mem]
      simp [notAssigned, isPending]
    have next : t.step (.assign ci) = { t with
        tal := { t.tal with
          links := t.tal.links.pushFront t.tal.typeAssignmentsList ci
          typeAssignmentsList := some ci
          typeAssignmentCount := t.tal.typeAssignmentCount + 1 }
        conns := ci :: t.conns
        assigned := Function.update t.assigned ci true } := by
      simp only [Tracked.step, TypeList.assign, isPending, if_false, Bool.false_eq_true]
    rw [next]
    refine ⟨?_, rfl, List.nodup_cons.mpr ⟨fresh, kept.nodup⟩, ?_, ?_, ?_, kept.holds, ?_,
      iterations _ ?_ _⟩
    · show (t.tal.links.pushFront t.tal.typeAssignmentsList ci).Chained none (ci :: t.conns) none
      rw [kept.head]
      exact kept.chained.pushFront kept.nodup fresh
    · show t.tal.typeAssignmentCount + 1 = _
      rw [kept.count, List.length_cons]
    · intro other
      rw [List.mem_cons, kept.mem]
      by_cases isCi : other = ci
      · subst isCi
        simp
      · simp [isCi]
    · intro other pending
      have isNot : other ≠ ci := fun same => isPending (by rw [← same]; exact pending)
      have old := kept.pending other pending
      simpa [Function.update_of_ne isNot] using old
    · exact fun hold member => List.mem_cons_of_mem _ (kept.held hold member)
    · intro first second member
      exact sublist_pair_cons fun same => fresh (by rw [← same]; exact member)

/-- An entry that no iteration holds is taken out of the list. -/
theorem Tracked.Kept.removed (kept : t.Kept) (member : ci ∈ t.conns) {iterationCount : Conn → Nat}
    {assigned : Conn → Bool} {holds : List (Nat × Conn)} {iterations : Nat → Iteration Conn}
    (counted : ∀ other, iterationCount other = (holds.map Prod.snd).count other)
    (none : iterationCount ci = 0) (fewer : ∀ hold ∈ holds, hold ∈ t.holds)
    (notAssigned : assigned ci = false) (sameAssigned : ∀ other, other ≠ ci →
      assigned other = t.assigned other)
    (sameCount : ∀ other, other ≠ ci → iterationCount other = t.tal.iterationCount other)
    (sound : ∀ id, (iterations id).begun = (t.iterations id).begun ∧
      (iterations id).visited = (t.iterations id).visited ∧
      (iterations id).finished = (t.iterations id).finished ∧
      (∀ other, (iterations id).stays other = true →
        (t.iterations id).stays other = true ∧ ((iterations id).begun = true → other ≠ ci))) :
    ({ tal := { t.tal with iterationCount := iterationCount }.remove ci
       conns := t.conns.erase ci, assigned := assigned, iterations := iterations, holds := holds } :
           Tracked Conn).Kept := by
  obtain ⟨chained, head, length⟩ := kept.chained_remove member
  have notHeld : ∀ hold ∈ holds, hold.2 ≠ ci := by
    intro hold isHold same
    have := List.count_pos_iff.mpr (List.mem_map_of_mem (f := Prod.snd) isHold)
    rw [← counted, same, none] at this
    exact Nat.lt_irrefl 0 this
  refine ⟨chained, head, kept.nodup.erase ci, length, ?_, ?_, counted, ?_, ?_⟩
  · intro other
    rw [kept.nodup.mem_erase_iff, kept.mem]
    show _ ↔ assigned other = true ∨ Function.update t.tal.pendingUnassign ci false other = true
    by_cases isCi : other = ci
    · subst isCi
      simp [notAssigned]
    · simp [isCi, sameAssigned other isCi]
  · intro other pending
    have isNot : other ≠ ci := by
      rintro rfl
      have : Function.update t.tal.pendingUnassign other false other = true := pending
      simp at this
    have old := kept.pending other (by
      have : Function.update t.tal.pendingUnassign ci false other = true := pending
      rwa [Function.update_of_ne isNot] at this)
    rw [← sameAssigned other isNot, ← sameCount other isNot] at old
    exact old
  · intro hold isHold
    exact (kept.nodup.mem_erase_iff).mpr ⟨notHeld hold isHold, kept.held hold (fewer _ isHold)⟩
  · intro id
    obtain ⟨begun, visited, finished, fewerStay⟩ := sound id
    obtain ⟨fresh, stays, ahead, all⟩ := kept.iterations id
    refine ⟨?_, ?_, ?_, ?_⟩
    · rw [begun, visited, finished]
      exact fresh
    · intro other isStay isBegun
      obtain ⟨wasStay, isNot⟩ := fewerStay other isStay
      show assigned other = true
      rw [sameAssigned other (isNot isBegun)]
      exact stays other wasStay (begun ▸ isBegun)
    · intro current isLast isHold other isStay
      rw [visited] at isLast ⊢
      obtain ⟨wasStay, isNot⟩ := fewerStay other isStay
      have isBegun : (iterations id).begun = true := by
        by_contra notBegun
        have := (fresh (begun ▸ by simpa using notBegun)).1
        rw [this] at isLast
        cases isLast
      have pair := @sublist_pair_erase Conn _ ci t.conns current other (notHeld _ isHold)
        (isNot isBegun)
      show ([current, other].Sublist (t.conns.erase ci) → _) ∧
        (¬[current, other].Sublist (t.conns.erase ci) → _)
      rw [pair]
      exact ahead current isLast (fewer _ isHold) other wasStay
    · intro isFinished other isStay
      rw [visited]
      exact all (finished ▸ isFinished) other (fewerStay other isStay).1

/-- A connection is unassigned, at once or when the iterations that hold it are done with it. -/
theorem Tracked.Kept.unassign (kept : t.Kept) (legal : t.Legal (.unassign ci)) :
    (t.step (.unassign ci)).Kept := by
  have isAssigned : t.assigned ci = true := legal
  have member : ci ∈ t.conns := (kept.mem ci).mpr (.inl isAssigned)
  by_cases isHeld : 0 < t.tal.iterationCount ci
  · have next : t.step (.unassign ci) = { t with
        tal := { t.tal with pendingUnassign := Function.update t.tal.pendingUnassign ci true }
        assigned := Function.update t.assigned ci false
        iterations := fun id =>
          { t.iterations id with stays := Function.update (t.iterations id).stays ci false } } := by
      simp only [Tracked.step, TypeList.unassign, isHeld, if_true]
    rw [next]
    have stayed : ∀ id other, Function.update (t.iterations id).stays ci false other = true →
        other ≠ ci ∧ (t.iterations id).stays other = true := by
      intro id other isStay
      by_cases isCi : other = ci
      · subst isCi
        simp at isStay
      · exact ⟨isCi, by simpa [Function.update_of_ne isCi] using isStay⟩
    refine ⟨kept.chained, kept.head, kept.nodup, kept.count, ?_, ?_, kept.holds, kept.held, ?_⟩
    · intro other
      rw [kept.mem]
      by_cases isCi : other = ci
      · subst isCi
        simp [isAssigned]
      · simp [Function.update_of_ne isCi]
    · intro other pending
      by_cases isCi : other = ci
      · subst isCi
        exact ⟨Function.update_self _ _ _, isHeld⟩
      · have old := kept.pending other (by simpa [Function.update_of_ne isCi] using pending)
        simpa [Function.update_of_ne isCi] using old
    · intro id
      obtain ⟨fresh, stays, ahead, all⟩ := kept.iterations id
      refine ⟨fresh, ?_, ?_, ?_⟩
      · intro other isStay begun
        obtain ⟨isNot, wasStay⟩ := stayed id other isStay
        show Function.update t.assigned ci false other = true
        rw [Function.update_of_ne isNot]
        exact stays other wasStay begun
      · intro current isLast isHold other isStay
        exact ahead current isLast isHold other (stayed id other isStay).2
      · intro isFinished other isStay
        exact all isFinished other (stayed id other isStay).2
  · have next : t.step (.unassign ci) =
        { tal := { t.tal with iterationCount := t.tal.iterationCount }.remove ci
          conns := t.conns.erase ci
          assigned := Function.update t.assigned ci false
          iterations := fun id =>
            { t.iterations id with stays := Function.update (t.iterations id).stays ci false }
          holds := t.holds } := by
      simp only [Tracked.step, TypeList.unassign, isHeld, if_false]
    rw [next]
    refine kept.removed member kept.holds (by omega) (fun _ isHold => isHold)
      (Function.update_self _ _ _)
      (fun other isNot => Function.update_of_ne isNot _ _) (fun _ _ => rfl) ?_
    intro id
    refine ⟨rfl, rfl, rfl, ?_⟩
    intro other isStay
    by_cases isCi : other = ci
    · subst isCi
      simp at isStay
    · exact ⟨by simpa [Function.update_of_ne isCi] using isStay, fun _ => isCi⟩

/-- What an iteration is given: the first entry after a part of the list that is not pending. -/
theorem Tracked.Kept.given (kept : t.Kept) {front back : List Conn}
    (split : t.conns = front ++ back) :
    (∀ ci, t.tal.notPending back.head? = some ci → t.assigned ci = true ∧
      ∃ skipped rest, back = skipped ++ ci :: rest ∧ ∀ other ∈ skipped, t.assigned other = false) ∧
    (t.tal.notPending back.head? = none → ∀ other ∈ back, t.assigned other = false) := by
  rw [kept.notPending split]
  constructor
  · intro ci found
    obtain ⟨notPending, skipped, rest, splitBack, skips⟩ := List.find?_eq_some_iff_append.mp found
    have member : ci ∈ t.conns := by
      rw [split, splitBack]
      simp
    refine ⟨?_, skipped, rest, splitBack, fun other isSkipped => ?_⟩
    · rcases (kept.mem ci).mp member with isAssigned | isPending
      · exact isAssigned
      · simp [isPending] at notPending
    · exact (kept.pending other (by simpa using skips other isSkipped)).1
  · intro none other isBack
    have := List.find?_eq_none.mp none other isBack
    exact (kept.pending other (by simpa using this)).1

/-- An iteration takes a hold of an entry, or comes to the end. -/
theorem Tracked.Kept.hold (kept : t.Kept) {id : Nat} {found : Option Conn}
    {iteration : Iteration Conn} (isIn : ∀ ci ∈ found, ci ∈ t.conns)
    (sound : iteration.Sound id { t with
      tal := found.elim t.tal t.tal.hold
      iterations := Function.update t.iterations id iteration
      holds := found.toList.map (id, ·) ++ t.holds }) :
    ({ t with
      tal := found.elim t.tal t.tal.hold
      iterations := Function.update t.iterations id iteration
      holds := found.toList.map (id, ·) ++ t.holds } : Tracked Conn).Kept := by
  have others : ∀ other, other ≠ id → (t.iterations other).Sound other { t with
      tal := found.elim t.tal t.tal.hold
      iterations := Function.update t.iterations id iteration
      holds := found.toList.map (id, ·) ++ t.holds } := by
    intro other isNot
    obtain ⟨fresh, stays, ahead, all⟩ := kept.iterations other
    refine ⟨fresh, stays, ?_, all⟩
    intro current isLast isHold
    refine ahead current isLast ?_
    rcases List.mem_append.mp isHold with new | old
    · obtain ⟨ci, -, same⟩ := List.mem_map.mp new
      exact absurd (congrArg Prod.fst same).symm isNot
    · exact old
  have iterations : ∀ other, (Function.update t.iterations id iteration other).Sound other { t with
      tal := found.elim t.tal t.tal.hold
      iterations := Function.update t.iterations id iteration
      holds := found.toList.map (id, ·) ++ t.holds } := by
    intro other
    by_cases own : other = id
    · subst own
      rw [Function.update_self]
      exact sound
    · rw [Function.update_of_ne own]
      exact others other own
  cases found with
  | none => exact ⟨kept.chained, kept.head, kept.nodup, kept.count, kept.mem, kept.pending,
    kept.holds, kept.held, iterations⟩
  | some ci =>
    refine ⟨kept.chained, kept.head, kept.nodup, kept.count, kept.mem, ?_, ?_, ?_, iterations⟩
    · intro other pending
      obtain ⟨notAssigned, positive⟩ := kept.pending other pending
      refine ⟨notAssigned, ?_⟩
      show 0 < Function.update t.tal.iterationCount ci (t.tal.iterationCount ci + 1) other
      by_cases isCi : other = ci
      · rw [isCi, Function.update_self]
        exact Nat.succ_pos _
      · rw [Function.update_of_ne isCi]
        exact positive
    · intro other
      show Function.update t.tal.iterationCount ci (t.tal.iterationCount ci + 1) other =
        (ci :: t.holds.map Prod.snd).count other
      by_cases isCi : other = ci
      · rw [isCi, Function.update_self, kept.holds, List.count_cons_self]
      · rw [Function.update_of_ne isCi, kept.holds, List.count_cons_of_ne fun same =>
          isCi same.symm]
    · intro hold member
      rcases List.mem_cons.mp member with rfl | old
      · exact isIn ci rfl
      · exact kept.held hold old

theorem TypeList.getAndRefFirst_eq (tal : TypeList Conn) : tal.getAndRefFirst =
    (tal.notPending tal.typeAssignmentsList,
        (tal.notPending tal.typeAssignmentsList).elim tal tal.hold) := by
  unfold TypeList.getAndRefFirst
  cases tal.notPending tal.typeAssignmentsList <;> rfl

theorem TypeList.getAndRefNext_eq (tal : TypeList Conn) (ci : Conn) : tal.getAndRefNext ci =
    (tal.notPending (tal.links.next ci),
        (tal.notPending (tal.links.next ci)).elim tal tal.hold) := by
  unfold TypeList.getAndRefNext
  cases tal.notPending (tal.links.next ci) <;> rfl

/-- An iteration begins. -/
theorem Tracked.Kept.first (kept : t.Kept) {id : Nat} (legal : t.Legal (.first id)) :
    (t.step (.first id)).Kept := by
  obtain ⟨noVisits, notFinished⟩ := (kept.iterations id).fresh legal
  obtain ⟨gives, none⟩ := kept.given (List.nil_append t.conns).symm
  rw [← kept.head] at gives none
  have next : t.step (.first id) = { t with
      tal := (t.tal.notPending t.tal.typeAssignmentsList).elim t.tal t.tal.hold
      iterations := Function.update t.iterations id
        ({ t.iterations id with stays := t.assigned }.given
          (t.tal.notPending t.tal.typeAssignmentsList))
      holds := (t.tal.notPending t.tal.typeAssignmentsList).toList.map (id, ·) ++ t.holds } := by
    simp only [Tracked.step, TypeList.getAndRefFirst_eq]
  rw [next]
  refine kept.hold ?_ ?_
  · intro ci found
    exact (kept.mem ci).mpr (.inl (gives ci found).1)
  · cases found : t.tal.notPending t.tal.typeAssignmentsList with
    | none =>
      refine ⟨(fun notBegun => by cases notBegun), fun _ isStay _ => isStay, ?_, ?_⟩
      · intro current isLast
        rw [show (Iteration.given { t.iterations id with stays := t.assigned } .none).visited =
          (t.iterations id).visited from rfl, noVisits] at isLast
        cases isLast
      · intro _ other isStay
        have isAssigned : t.assigned other = true := isStay
        rw [none found other ((kept.mem other).mpr (.inl isAssigned))] at isAssigned
        cases isAssigned
    | some ci =>
      obtain ⟨-, skipped, rest, split, skips⟩ := gives ci found
      have nodup := kept.nodup
      rw [split] at nodup
      have visited :
          (Iteration.given { t.iterations id with stays := t.assigned } (some ci)).visited =
          [ci] := by
        show (t.iterations id).visited ++ [ci] = [ci]
        rw [noVisits]
        rfl
      refine ⟨(fun notBegun => by cases notBegun), fun _ isStay _ => isStay, ?_, ?_⟩
      · intro current isLast _ other isStay
        have isAssigned : t.assigned other = true := isStay
        rw [visited] at isLast ⊢
        obtain rfl : ci = current := by simpa using isLast
        show ([ci, other].Sublist t.conns → _) ∧ (¬[ci, other].Sublist t.conns → _)
        rw [split, sublist_pair_iff nodup]
        constructor
        · intro isAfter same
          have notIn := (List.nodup_cons.mp (List.nodup_append.mp nodup).2.1).1
          rw [List.mem_singleton.mp same] at isAfter
          exact notIn isAfter
        · intro notAfter
          have member := (kept.mem other).mpr (.inl isAssigned)
          rw [split] at member
          rcases List.mem_append.mp member with isSkipped | inRest
          · rw [skips other isSkipped] at isAssigned
            cases isAssigned
          · rcases List.mem_cons.mp inRest with rfl | isAfter
            · simp
            · exact absurd isAfter notAfter
      · intro isFinished
        have : (t.iterations id).finished = true := isFinished
        rw [notFinished] at this
        cases this

/-- An iteration goes on. -/
theorem Tracked.Kept.next (kept : t.Kept) {id : Nat} (legal : t.Legal (.next id ci)) :
    (t.step (.next id ci)).Kept := by
  obtain ⟨isLast, isHold, notFinished⟩ := legal
  obtain ⟨fresh, stays, ahead, all⟩ := kept.iterations id
  have isBegun : (t.iterations id).begun = true := by
    by_contra notBegun
    rw [(fresh (by simpa using notBegun)).1] at isLast
    cases isLast
  have member : ci ∈ t.conns := kept.held _ isHold
  obtain ⟨front, back, split⟩ := List.append_of_mem member
  have nodup := kept.nodup
  rw [split] at nodup
  have nextIs : t.tal.links.next ci = back.head? := by
    have chained := kept.chained
    rw [split] at chained
    exact chained.fields.2
  obtain ⟨gives, none⟩ := @Tracked.Kept.given Conn _ t kept (front ++ [ci]) back
    (by rw [split]; simp)
  rw [← nextIs] at gives none
  have after : ∀ other, [ci, other].Sublist t.conns ↔ other ∈ back := by
    intro other
    rw [split]
    exact sublist_pair_iff nodup
  have next : t.step (.next id ci) = { t with
      tal := (t.tal.notPending (t.tal.links.next ci)).elim t.tal t.tal.hold
      iterations := Function.update t.iterations id
        ((t.iterations id).given (t.tal.notPending (t.tal.links.next ci)))
      holds := (t.tal.notPending (t.tal.links.next ci)).toList.map (id, ·) ++ t.holds } := by
    simp only [Tracked.step, TypeList.getAndRefNext_eq]
  rw [next]
  refine kept.hold ?_ ?_
  · intro other found
    exact (kept.mem other).mpr (.inl (gives other found).1)
  · cases found : t.tal.notPending (t.tal.links.next ci) with
    | none =>
      refine ⟨(fun notBegun => by cases notBegun), fun other isStay _ =>
        stays other isStay isBegun, ahead, ?_⟩
      intro _ other isStay
      refine (ahead ci isLast isHold other isStay).2 fun sublist => ?_
      have isAssigned := stays other isStay isBegun
      rw [none found other ((after other).mp sublist)] at isAssigned
      cases isAssigned
    | some cin =>
      obtain ⟨-, skipped, rest, splitBack, skips⟩ := gives cin found
      have nodupNext : ((front ++ ci :: skipped) ++ cin :: rest).Nodup := by
        rw [splitBack] at nodup
        simpa using nodup
      have splitNext : t.conns = (front ++ ci :: skipped) ++ cin :: rest := by
        rw [split, splitBack]
        simp
      have notIn : cin ∉ rest := (List.nodup_cons.mp (List.nodup_append.mp nodupNext).2.1).1
      refine ⟨(fun notBegun => by cases notBegun), fun other isStay _ =>
        stays other isStay isBegun, ?_, ?_⟩
      · intro current isCurrent _ other isStay
        have isAssigned := stays other isStay isBegun
        obtain ⟨notYet, once⟩ := ahead ci isLast isHold other isStay
        rw [after] at notYet once
        have visited : ((t.iterations id).given (some cin)).visited = (t.iterations id).visited ++
          [cin] := rfl
        rw [visited] at isCurrent ⊢
        obtain rfl : cin = current := by simpa using isCurrent
        show ([cin, other].Sublist t.conns → _) ∧ (¬[cin, other].Sublist t.conns → _)
        rw [splitNext, sublist_pair_iff nodupNext]
        constructor
        · intro isAfter inVisited
          rcases List.mem_append.mp inVisited with old | new
          · exact notYet (by rw [splitBack]; simp [isAfter]) old
          · rw [List.mem_singleton.mp new] at isAfter
            exact notIn isAfter
        · intro notAfter
          rw [List.count_append]
          by_cases isNext : other = cin
          · subst isNext
            have := notYet (by rw [splitBack]; simp)
            rw [List.count_eq_zero_of_not_mem this]
            simp
          · have notBack : other ∉ back := by
              intro inBack
              rw [splitBack] at inBack
              rcases List.mem_append.mp inBack with isSkipped | inRest
              · rw [skips other isSkipped] at isAssigned
                cases isAssigned
              · rcases List.mem_cons.mp inRest with same | isAfter
                · exact isNext same
                · exact notAfter isAfter
            rw [once notBack]
            simp [Ne.symm isNext]
      · intro isFinished
        have : (t.iterations id).finished = true := isFinished
        rw [notFinished] at this
        cases this

theorem count_erase_hold {holds : List (Nat × Conn)} {id : Nat} (isHold : (id, ci) ∈ holds)
    (other : Conn) :
    (holds.map Prod.snd).count other = (((holds.erase (id, ci)).map Prod.snd).count other) + if ci =
        other then 1 else 0 := by
  have perm := ((List.perm_cons_erase isHold).map Prod.snd).count_eq other
  rw [perm, List.map_cons, List.count_cons]
  simp

/-- An iteration drops an entry, and takes it out of the list if it was the last one to hold it. -/
theorem Tracked.Kept.deref (kept : t.Kept) {id : Nat} (legal : t.Legal (.deref id ci)) :
    (t.step (.deref id ci)).Kept := by
  have isHold : (id, ci) ∈ t.holds := legal
  have positive : 0 < t.tal.iterationCount ci := kept.iterationCount_pos.mpr ⟨id, isHold⟩
  have fewer : ∀ hold ∈ t.holds.erase (id, ci), hold ∈ t.holds :=
    fun _ member => List.mem_of_mem_erase member
  have counted : ∀ other, Function.update t.tal.iterationCount ci
    (t.tal.iterationCount ci - 1) other =
      ((t.holds.erase (id, ci)).map Prod.snd).count other := by
    intro other
    have erased := count_erase_hold isHold other
    rw [← kept.holds] at erased
    by_cases isCi : other = ci
    · subst isCi
      rw [Function.update_self]
      simp only [if_true] at erased
      omega
    · rw [Function.update_of_ne isCi]
      rw [if_neg fun same => isCi same.symm] at erased
      omega
  have last : t.tal.iterationCount ci - 1 = 0 ↔ t.tal.iterationCount ci = 1 := by omega
  by_cases removes : t.tal.pendingUnassign ci = true ∧ t.tal.iterationCount ci = 1
  · have notAssigned := (kept.pending ci removes.1).1
    have next : t.step (.deref id ci) =
        { tal := { t.tal with
            iterationCount := Function.update t.tal.iterationCount ci
              (t.tal.iterationCount ci - 1) }.remove ci
          conns := t.conns.erase ci
          assigned := t.assigned
          iterations := t.iterations
          holds := t.holds.erase (id, ci) } := by
      simp only [Tracked.step, TypeList.deref, Function.update_self, removes, and_self, if_true]
    rw [next]
    refine kept.removed (kept.held _ isHold) counted ?_ fewer notAssigned (fun _ _ => rfl)
      (fun other isNot => Function.update_of_ne isNot _ _) ?_
    · rw [Function.update_self]
      omega
    · intro other
      refine ⟨rfl, rfl, rfl, fun conn isStay => ⟨isStay, fun begun same => ?_⟩⟩
      have isAssigned := (kept.iterations other).stays conn isStay begun
      rw [same, notAssigned] at isAssigned
      cases isAssigned
  · have next : t.step (.deref id ci) = { t with
        tal := { t.tal with
          iterationCount := Function.update t.tal.iterationCount ci (t.tal.iterationCount ci - 1) }
        holds := t.holds.erase (id, ci) } := by
      simp only [Tracked.step, TypeList.deref, Function.update_self, last, removes, if_false]
    rw [next]
    refine ⟨kept.chained, kept.head, kept.nodup, kept.count, kept.mem, ?_, counted,
      fun hold member => kept.held hold (fewer hold member), ?_⟩
    · intro other pending
      obtain ⟨notAssigned, positive⟩ := kept.pending other pending
      refine ⟨notAssigned, ?_⟩
      show 0 < Function.update t.tal.iterationCount ci (t.tal.iterationCount ci - 1) other
      by_cases isCi : other = ci
      · subst isCi
        rw [Function.update_self]
        have notOne : t.tal.iterationCount other ≠ 1 := fun one => removes ⟨pending, one⟩
        omega
      · rw [Function.update_of_ne isCi]
        exact positive
    · intro other
      obtain ⟨fresh, stays, ahead, all⟩ := kept.iterations other
      exact ⟨fresh, stays, fun current isLast isHold => ahead current isLast (fewer _ isHold), all⟩

/-- **One call keeps the list.** -/
theorem Tracked.Kept.step {call : Call Conn} (kept : t.Kept) (legal : t.Legal call) :
    (t.step call).Kept := by
  cases call with
  | assign ci => exact kept.assign legal
  | unassign ci => exact kept.unassign legal
  | first id => exact kept.first legal
  | next id ci => exact kept.next legal
  | deref id ci => exact kept.deref legal

end Qsdk.Ecm.Assignment
