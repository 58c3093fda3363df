/- **Classifier assignment and type iteration are sound, but for the references of deferred
unassigns.**

`assignments_sound` puts together what every run keeps, if no unassign is of another classifier than
the one assigned. `leaked_reference` is the shortest run in which a reference is forgotten.
-/

import Qsdk.Ecm.AssignmentRuns

set_option linter.unusedSectionVars false

namespace Qsdk.Ecm.Assignment

variable {Conn Cls : Type} [DecidableEq Conn] [DecidableEq Cls] {typeGet : Cls → Nat} {types : Nat}

/-- What a call gives to its iteration. -/
def TypeList.given (tal : TypeList Conn) : Call Conn → Option Conn
  | .first _ => tal.getAndRefFirst.1
  | .next _ ci => (tal.getAndRefNext ci).1
  | _ => none

/-- **An iteration is given connections only that are assigned.** -/
theorem Tracked.Kept.given_assigned {t : Tracked Conn} (kept : t.Kept) {call : Call Conn}
    (legal : t.Legal call) {ci : Conn} (given : t.tal.given call = some ci) :
        t.assigned ci = true := by
  cases call with
  | assign _ => cases given
  | unassign _ => cases given
  | first _ =>
    have found : t.tal.getAndRefFirst.1 = some ci := given
    rw [TypeList.getAndRefFirst_eq, kept.head] at found
    exact ((kept.given (List.nil_append t.conns).symm).1 ci found).1
  | next _ other =>
    have found : (t.tal.getAndRefNext other).1 = some ci := given
    obtain ⟨front, back, split⟩ := List.append_of_mem (kept.held _ legal.2.1)
    have chained := kept.chained
    rw [split] at chained
    rw [TypeList.getAndRefNext_eq, chained.fields.2] at found
    have split' : t.conns = (front ++ [other]) ++ back := by
      rw [split]
      simp
    exact ((kept.given split').1 ci found).1
  | deref _ _ => cases given

/-- An unassign changes nothing exactly if its type has no assignment, whichever classifier it is
of. -/
theorem State.unassign_eq_self_iff (state : State Conn Cls) {ci : Conn} {cci : Cls}
    (bound : typeGet cci < types) :
    state.unassign typeGet types ci cci = state ↔
        state.assignmentsByType ci (typeGet cci) = none := by
  unfold State.unassign
  rw [if_neg (Nat.not_le_of_lt bound)]
  constructor
  · intro same
    by_contra isSome
    rw [if_neg isSome] at same
    have cleared := congrArg (fun state => state.assignmentsByType ci (typeGet cci)) same
    dsimp only at cleared
    rw [State.setByType_self] at cleared
    exact isSome cleared.symm
  · exact fun none => if_pos none

theorem World.run_state (world : World Conn Cls) (calls : List (DbCall Conn Cls)) :
    (world.run typeGet types calls).state = calls.foldl (State.exec typeGet types) world.state := by
  induction calls generalizing world with
  | nil => rfl
  | cons call rest ih => exact ih (world.step typeGet types call)

/-- **What holds in every state of every run** whose unassigns are of the assigned classifier, or of
a type with no assignment: the assignments of a connection are those of the array, sorted by type;
the list of a type that is not the default has the connections with an assignment, or with one that
is left to iterations; an iteration that has come to the end was given every connection that stayed
assigned once, and is never given one that is not assigned; connections hold one reference on a
classifier that is assigned, and one more for each unassign of it that was deferred; and what is not
assigned can be unassigned without effect exactly if its type has no assignment. -/
theorem assignments_sound {calls : List (DbCall Conn Cls)}
    (along : (World.start : World Conn Cls).Along typeGet types calls) :
    let world := (World.start : World Conn Cls).run typeGet types calls
    world.state = calls.foldl (State.exec typeGet types) World.start.state ∧
      (∀ ci, ∃ cells, world.state.caLinks.Chained none cells none ∧
        world.state.assignments ci = cells.head? ∧
        (cells.Pairwise fun ca other => typeGet ca < typeGet other) ∧
        ∀ ca, ca ∈ cells ↔ ∃ caType, world.state.assignmentsByType ci caType = some ca) ∧
      (∀ caType, caType ≠ 0 →
        ∃ conns, (world.state.typeLists caType).links.Chained none conns none ∧
        (world.state.typeLists caType).typeAssignmentsList = conns.head? ∧ conns.Nodup ∧
        (world.state.typeLists caType).typeAssignmentCount = conns.length ∧
        ∀ ci, ci ∈ conns ↔ world.state.assignmentsByType ci caType ≠ none ∨
          (world.state.typeLists caType).pendingUnassign ci = true) ∧
      (∀ caType id, ((world.lists caType).iterations id).finished = true →
        ∀ ci, ((world.lists caType).iterations id).stays ci = true →
          ((world.lists caType).iterations id).visited.count ci = 1) ∧
      (∀ caType call, (world.lists caType).Legal call →
        ∀ ci, (world.state.typeLists caType).given call = some ci →
        world.state.assignmentsByType ci caType ≠ none) ∧
      (∀ ca, (world.state.IsAssigned typeGet ca → world.state.refs ca = 1 + world.deferred ca) ∧
        (¬world.state.IsAssigned typeGet ca → world.state.refs ca = world.deferred ca)) ∧
      ∀ ci cci, typeGet cci < types → world.state.assignmentsByType ci (typeGet cci) ≠ some cci →
        (world.state.unassign typeGet types ci cci = world.state ↔
          world.state.assignmentsByType ci (typeGet cci) = none) := by
  intro world
  have kept : world.Kept typeGet types := (World.start_kept typeGet types).run along
  refine ⟨World.run_state _ _, ?_, ?_, ?_, ?_, fun ca =>
    ⟨kept.assignedRefs ca, kept.otherRefs ca⟩, ?_⟩
  · intro ci
    refine ⟨world.cells ci, kept.chained ci, kept.head ci, kept.sorted ci, fun ca => ?_⟩
    rw [kept.stored]
    constructor
    · exact fun stored => ⟨typeGet ca, stored⟩
    · rintro ⟨caType, stored⟩
      rw [(kept.typed ci caType ca stored).1]
      exact stored
  · intro caType notDefault
    have list := kept.lists caType
    have assigned := kept.assigned caType
    have tal := kept.tals caType
    have chained := list.chained
    have head := list.head
    have count := list.count
    have mem := list.mem
    rw [tal] at chained head count mem
    refine ⟨(world.lists caType).conns, chained, head, list.nodup, count, fun ci => ?_⟩
    rw [mem, assigned]
    simp [notDefault, Option.isSome_iff_ne_none]
  · intro caType id finished ci stays
    exact ((kept.lists caType).iterations id).all finished ci stays
  · intro caType call legal ci given none
    rw [← kept.tals] at given
    have isAssigned := (kept.lists caType).given_assigned legal given
    rw [kept.assigned, none] at isAssigned
    simp at isAssigned
  · exact fun ci cci bound _ => world.state.unassign_eq_self_iff bound

/-- Two connections are assigned; an iteration is given the first, then the second, which is
unassigned meanwhile. -/
def overlapping : List (DbCall Bool Bool) :=
  [.assign false false, .assign true true, .iterate 1 (.first 0), .iterate 1 (.next 0 true),
    .iterate 1 (.deref 0 true),
    .unassign false false, .iterate 1 (.next 0 false), .iterate 1 (.deref 0 false)]

theorem assignments_sound_overlapping :
    ((((World.start : World Bool Bool).run (fun _ => 1) 2 overlapping).lists 1).iterations
        0).visited.count true = 1 := by
  have along : (World.start : World Bool Bool).Along (fun _ => 1) 2 overlapping := by
    refine ⟨⟨⟨by decide, rfl, ?_⟩, trivial⟩, ⟨⟨by decide, rfl, ?_⟩, trivial⟩,
      ⟨⟨trivial, by decide⟩, trivial⟩,
      ⟨⟨trivial, by decide⟩, trivial⟩, ⟨⟨trivial, by decide⟩, trivial⟩, ⟨Nat.one_ne_zero, .inl rfl⟩,
      ⟨⟨trivial, by decide⟩, trivial⟩, ⟨⟨trivial, by decide⟩, trivial⟩, trivial⟩
    · rintro other caType ⟨⟩
    · intro other caType stored
      have kept : (World.start.step (fun _ => 1) 2 (.assign false false) : World Bool Bool).Kept
          (fun _ => 1) 2 := by
        refine (World.start_kept _ _).assign ⟨by decide, rfl, ?_⟩
        rintro other caType ⟨⟩
      obtain ⟨rfl, -⟩ := kept.typed other caType true stored
      cases other <;> cases stored
  exact (assignments_sound along).2.2.2.1 1 0 (by decide) true (by decide)

/-- **A deferred unassign never drops its reference.** -/
theorem leaked_reference :
    ¬∀ calls : List (DbCall Unit Unit), (World.start : World Unit Unit).Along (fun _ => 1) 2 calls →
      ∀ ca, ¬(calls.foldl (State.exec (fun _ => 1) 2) World.start.state).IsAssigned
      (fun _ => 1) ca →
        (calls.foldl (State.exec (fun _ => 1) 2) World.start.state).refs ca = 0 := by
  intro dropped
  have along : (World.start : World Unit Unit).Along (fun _ => 1) 2
      [.assign () (), .iterate 1 (.first 0), .unassign () (), .iterate 1 (.deref 0 ())] := by
    refine ⟨⟨⟨by decide, rfl, ?_⟩, trivial⟩, ⟨⟨trivial, by decide⟩, trivial⟩,
      ⟨Nat.one_ne_zero, .inl rfl⟩,
      ⟨⟨trivial, by decide⟩, trivial⟩, trivial⟩
    rintro other caType ⟨⟩
  have none := dropped _ along () (by
    rintro ⟨ci, stored⟩
    cases stored)
  revert none
  decide

end Qsdk.Ecm.Assignment
