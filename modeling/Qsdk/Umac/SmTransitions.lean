/-
**Transitions are carried out.**

A table that `wlan_sm_create` accepts has no loop among its parents (`create_parents`). Where its
initial substates form no loop either, and no transition to an invalid state is asked for while none
is in progress, the machine is always consistent (`World.Kept.run`): `in_state_transition` is set
exactly while a transition is in progress, and every transition that starts ends in the innermost
initial substate of its target.
-/

import Qsdk.Umac.SmEngine

namespace Qsdk.SmEngine

variable {table : Table} {world after : World} {state : Nat}

/-- Following `next` from a state leads to `stateNone`, and does not leave the table on the way. -/
inductive Ends (table : Table) (next : StateInfo → Nat) : Nat → Prop
  | none : Ends table next stateNone
  | step {state : Nat} {info : StateInfo} : table[state]? = some info →
    Ends table next (next info) →
      Ends table next state

/-- `inner` is the innermost initial substate of `state`. -/
inductive Innermost (table : Table) : Nat → Nat → Prop
  | here {state : Nat} {info : StateInfo} : table[state]? = some info →
    info.initialSubstate = stateNone →
      Innermost table state state
  | within {state inner : Nat} {info : StateInfo} : table[state]? = some info →
    info.initialSubstate ≠ stateNone →
      Innermost table info.initialSubstate inner → Innermost table state inner

/-! ### What an accepted table promises -/

theorem checkParents_ends {rounds : Nat} {visited : List Nat}
    (checked : checkParents table rounds visited state = true) :
        Ends table StateInfo.parentState state := by
  induction rounds generalizing visited state with
  | zero => simp [checkParents] at checked
  | succ rounds ih =>
    unfold checkParents at checked
    split at checked
    · rename_i isNone
      rw [isNone]
      exact .none
    · split at checked
      · cases checked
      · split at checked
        · cases checked
        · rename_i info isInfo
          refine .step isInfo ?_
          split at checked
          · rename_i isRoot
            rw [isRoot]
            exact .none
          · split at checked
            · cases checked
            · split at checked
              · exact ih checked
              · cases checked

/-- **No loop among the parents of an accepted table.** -/
theorem create_parents {initState : Nat} {sm : Sm} (created : create initState table = some sm)
    (inTable : state < table.length) : Ends table StateInfo.parentState state := by
  unfold create at created
  split at created
  · cases created
  · split at created
    · rename_i valid
      have checked := List.all_eq_true.mp valid state (List.mem_range.mpr inTable)
      unfold validateStateInfo at checked
      split at checked
      · cases checked
      · split at checked
        · cases checked
        · rename_i info _ named
          have same : info.state = state := by omega
          rw [same] at checked
          exact checkParents_ends checked
    · cases created

theorem create_eq {initState : Nat} {sm : Sm} (created : create initState table = some sm) :
    sm = ⟨initState, table, eventNone, false⟩ ∧ table.length ≤ maxStates := by
  unfold create at created
  split at created
  · cases created
  · rename_i few
    split at created
    · exact ⟨(Option.some.inj created).symm, by omega⟩
    · cases created

theorem valid_iff {sm : Sm} :
    sm.valid state = true ↔ state ≠ stateNone ∧ state < maxStates ∧
        state < sm.stateInfo.length := by
  unfold Sm.valid
  simp
  omega

theorem getElem?_of_lt (inTable : state < table.length) : ∃ info, table[state]? = some info :=
  ⟨table[state], List.getElem?_eq_getElem inTable⟩

theorem lt_of_getElem? {info : StateInfo} (isInfo : table[state]? = some info) :
    state < table.length :=
  (List.getElem?_eq_some_iff.mp isInfo).1

/-- Of two states that follow each other, the second is `stateNone` or in the table. -/
theorem Ends.lt {next : StateInfo → Nat} (ends : Ends table next state)
    (isSome : state ≠ stateNone) :
    state < table.length := by
  cases ends with
  | none => exact absurd rfl isSome
  | step isInfo => exact lt_of_getElem? isInfo

theorem Ends.next {next : StateInfo → Nat} {info : StateInfo} (ends : Ends table next state)
    (few : table.length ≤ maxStates) (isInfo : table[state]? = some info) :
        Ends table next (next info) := by
  cases ends with
  | none =>
    have := lt_of_getElem? isInfo
    unfold stateNone at this
    unfold maxStates at few
    omega
  | step isInfo' further =>
    obtain rfl := Option.some.inj (isInfo.symm.trans isInfo')
    exact further

/-! ### The invariant -/

/-- The table is fit for use: both hierarchies end. -/
structure Sound (table : Table) : Prop where
  few : table.length ≤ maxStates
  parents : ∀ state < table.length, Ends table StateInfo.parentState state
  substates : ∀ state < table.length, Ends table StateInfo.initialSubstate state

/-- What a transition in progress has done so far. -/
def Frame.Progress (table : Table) (curState : Nat) : Frame → Prop
  | .routine | .handler => True
  | .exiting cur state => Ends table StateInfo.parentState cur ∧ state < table.length
  | .entering cur state =>
      (cur = stateNone ∧ Innermost table state curState) ∨
      (cur < table.length ∧ ∀ inner, Innermost table cur inner → Innermost table state inner)
  | .entered cur state =>
      cur < table.length ∧ ∀ inner, Innermost table cur inner → Innermost table state inner

/-- The consistent worlds. -/
structure World.Kept (table : Table) (world : World) : Prop where
  states : world.sm.stateInfo = table
  current : world.sm.curState < table.length
  flag : world.sm.inStateTransition = world.inTransition
  single : world.stack.countP Frame.isTransition ≤ 1
  progress : ∀ frame ∈ world.stack, frame.Progress table world.sm.curState

theorem World.Kept.ofStart {sm : Sm} (isTable : sm.stateInfo = table)
    (current : sm.curState < table.length) (isIdle : sm.inStateTransition = false) :
        (World.start sm).Kept table :=
  ⟨isTable, current, isIdle, Nat.zero_le _, fun _ member => absurd member List.not_mem_nil⟩

theorem inTransition_eq_false : world.inTransition = false ↔
    world.stack.countP Frame.isTransition = 0 := by
  rw [World.inTransition, List.any_eq_false, List.countP_eq_zero]

/-- Above a transition in progress there is no other. -/
theorem World.Kept.rest_countP (kept : world.Kept table) {frame : Frame} {rest : List Frame}
    (isStack : world.stack = frame :: rest) (isTransition : frame.isTransition = true) :
    rest.countP Frame.isTransition = 0 := by
  have single := kept.single
  rw [isStack, List.countP_cons_of_pos isTransition] at single
  omega

/-- The frames that are not transitions promise nothing about the current state. -/
theorem Frame.Progress.of_not_transition {frame : Frame} (plain : ¬ frame.isTransition = true)
    (curState : Nat) :
    frame.Progress table curState := by
  cases frame with
  | routine => exact trivial
  | handler => exact trivial
  | exiting _ _ => exact absurd rfl plain
  | entering _ _ => exact absurd rfl plain
  | entered _ _ => exact absurd rfl plain

/-! ### Steps -/

theorem World.Kept.shown {info : StateInfo} (sound : Sound table) (kept : world.Kept table)
    (isInfo : table[state]? = some info) (flag : Bool) :
    ∃ name, { world.sm with inStateTransition := flag }.shown info = some name := by
  unfold Sm.shown
  split
  · exact ⟨info, rfl⟩
  · rename_i hasParent
    rw [kept.states]
    exact getElem?_of_lt
      (((sound.parents _ (lt_of_getElem? isInfo)).next sound.few isInfo).lt hasParent)

/-- **A request for a valid state is taken up, when no transition is in progress.** -/
theorem transitionTo_of_valid (sound : Sound table) (kept : world.Kept table)
    (isIdle : world.inTransition = false) (valid : world.sm.valid state = true) :
    world.transitionTo state = some { world with
      sm := { world.sm with inStateTransition := true }
      stack := .exiting world.sm.curState state :: world.stack } := by
  obtain ⟨_, _, inTable⟩ := valid_iff.mp valid
  have isTable := kept.states
  rw [isTable] at inTable
  obtain ⟨old, isOld⟩ := getElem?_of_lt kept.current
  obtain ⟨new, isNew⟩ := getElem?_of_lt inTable
  obtain ⟨oldName, isOldName⟩ := kept.shown sound isOld true
  obtain ⟨newName, isNewName⟩ := kept.shown sound isNew true
  have valid' : { world.sm with inStateTransition := true }.valid state = true := valid
  unfold World.transitionTo
  rw [kept.flag, isIdle, if_neg (by simp)]
  dsimp only
  rw [if_pos valid', isTable, isOld, isNew]
  simp only [Option.bind_eq_bind, Option.bind_some]
  rw [← isTable, isOldName, isNewName]
  rfl

/-- **A request made during a transition changes nothing.** -/
theorem transitionTo_of_inTransition (kept : world.Kept table)
    (inTransition : world.inTransition = true) :
    world.transitionTo state = some world := by
  unfold World.transitionTo
  rw [kept.flag, inTransition, if_pos rfl]

theorem World.Kept.transitionTo (sound : Sound table) (kept : world.Kept table)
    (asked : world.sm.inStateTransition = false → world.sm.valid state = true)
    (stepped : world.transitionTo state = some after) : after.Kept table := by
  cases inTransition : world.inTransition with
  | true =>
    rw [transitionTo_of_inTransition kept inTransition] at stepped
    obtain rfl := Option.some.inj stepped
    exact kept
  | false =>
    have valid := asked (kept.flag.trans inTransition)
    rw [transitionTo_of_valid sound kept inTransition valid] at stepped
    obtain rfl := Option.some.inj stepped
    have none := inTransition_eq_false.mp inTransition
    have inTable : state < table.length := by
      rw [← kept.states]
      exact (valid_iff.mp valid).2.2
    refine ⟨kept.states, kept.current, rfl, ?_, ?_⟩
    · refine Nat.le_of_eq ?_
      rw [List.countP_cons_of_pos (by rfl), none]
    · intro frame member
      rcases List.mem_cons.mp member with rfl | member
      · exact ⟨sound.parents _ kept.current, inTable⟩
      · exact kept.progress frame member

theorem World.Kept.dispatch {event : Nat} (kept : world.Kept table)
    (stepped : world.dispatch event = some after) :
    after.Kept table := by
  unfold World.dispatch at stepped
  split at stepped
  · obtain rfl := Option.some.inj stepped
    exact ⟨kept.states, kept.current, kept.flag, kept.single, kept.progress⟩
  · dsimp only at stepped
    split at stepped
    · obtain rfl := Option.some.inj stepped
      exact ⟨kept.states, kept.current, kept.flag, kept.single, kept.progress⟩
    · obtain ⟨info, _, stepped⟩ := Option.bind_eq_some_iff.mp stepped
      obtain rfl := Option.some.inj stepped
      refine ⟨kept.states, kept.current, kept.flag, kept.single, ?_⟩
      intro frame member
      rcases List.mem_cons.mp member with rfl | member
      · exact trivial
      · exact kept.progress frame member

theorem World.Kept.ret {handled : Bool} (kept : world.Kept table)
    (stepped : world.ret handled = some after) :
    after.Kept table := by
  have popped : ∀ {frame : Frame} {rest : List Frame} {status : Status},
    world.stack = frame :: rest →
      frame.isTransition = false →
          World.Kept table { world with stack := rest, status := status } := by
    intro frame rest status isStack plain
    have flag := kept.flag
    have single := kept.single
    rw [World.inTransition, isStack, List.any_cons, plain, Bool.false_or] at flag
    rw [isStack, List.countP_cons_of_neg (by simp [plain])] at single
    exact ⟨kept.states, kept.current, flag, single, fun frame member =>
      kept.progress frame (isStack ▸ List.mem_cons_of_mem _ member)⟩
  unfold World.ret at stepped
  split at stepped
  · rename_i isStack
    obtain rfl := Option.some.inj stepped
    exact popped isStack rfl
  · rename_i isStack
    obtain rfl := Option.some.inj stepped
    exact popped isStack rfl
  · cases stepped

/-! ### The loops -/

/-- The transition in progress is at `frame`, with a routine above it or not. -/
theorem World.Kept.replaced (kept : world.Kept table) {frame next : Frame} {rest : List Frame}
    {curState : Nat} (isStack : world.stack = frame :: rest)
    (isTransition : frame.isTransition = true) (isNext : next.isTransition = true)
    (current : curState < table.length) (progress : next.Progress table curState) (above : Bool) :
    World.Kept table { world with
      sm := { world.sm with curState := curState }
      stack := if above then .routine :: next :: rest else next :: rest } := by
  have flag : world.sm.inStateTransition = true := by
    rw [kept.flag, World.inTransition, isStack, List.any_cons, isTransition, Bool.true_or]
  have none := kept.rest_countP isStack isTransition
  have plain : ∀ frame ∈ rest, ¬ frame.isTransition = true := List.countP_eq_zero.mp none
  have others : ∀ frame ∈ next :: rest, frame.Progress table curState := by
    intro frame member
    rcases List.mem_cons.mp member with rfl | member
    · exact progress
    · exact .of_not_transition (plain frame member) _
  cases above with
  | true =>
    refine ⟨kept.states, current, ?_, ?_, ?_⟩
    · exact flag.trans (by simp [World.inTransition, isNext])
    · refine Nat.le_of_eq ?_
      rw [if_pos rfl, List.countP_cons_of_neg (by simp [Frame.isTransition]),
        List.countP_cons_of_pos isNext, none]
    · intro frame member
      rw [if_pos rfl] at member
      rcases List.mem_cons.mp member with rfl | member
      · exact trivial
      · exact others frame member
  | false =>
    refine ⟨kept.states, current, ?_, ?_, others⟩
    · exact flag.trans (by simp [World.inTransition, isNext])
    · refine Nat.le_of_eq ?_
      rw [if_neg (by simp), List.countP_cons_of_pos isNext, none]

/-- One round of the loop over the exit routines. -/
theorem World.Kept.exiting (sound : Sound table) (kept : world.Kept table) {cur : Nat}
    {rest : List Frame} (isStack : world.stack = .exiting cur state :: rest) :
    ∃ after, world.resume = some after ∧ after.Kept table ∧
      ((cur = stateNone ∧ after.stack = .entering state state :: rest) ∨
        ∃ (info : StateInfo) (above : Bool), table[cur]? = some info ∧
          after.stack = if above then .routine :: .exiting info.parentState state :: rest
            else .exiting info.parentState state :: rest) := by
  obtain ⟨ends, inTable⟩ := kept.progress (.exiting cur state) (isStack ▸ List.mem_cons_self)
  unfold World.resume
  rw [isStack]
  dsimp only
  by_cases isNone : cur = stateNone
  · rw [if_pos isNone]
    have progress : (Frame.entering state state).Progress table world.sm.curState :=
      .inr ⟨inTable, fun _ same => same⟩
    exact ⟨_, rfl, kept.replaced isStack rfl rfl kept.current progress false, .inl ⟨isNone, rfl⟩⟩
  · obtain ⟨info, isInfo⟩ := getElem?_of_lt (ends.lt isNone)
    rw [if_neg isNone, kept.states, isInfo]
    have progress : (Frame.exiting info.parentState state).Progress table world.sm.curState :=
      ⟨ends.next sound.few isInfo, inTable⟩
    exact ⟨_, rfl, kept.replaced isStack rfl rfl kept.current progress info.smExit,
      .inr ⟨info, info.smExit, rfl, rfl⟩⟩

/-- One round of the loop over the entry routines, up to the entry routine. -/
theorem World.Kept.entering (kept : world.Kept table) {cur : Nat} {rest : List Frame}
    (isStack : world.stack = .entering cur state :: rest) (isSome : cur ≠ stateNone) :
    ∃ after, world.resume = some after ∧ after.Kept table ∧
      ∃ above : Bool, after.stack = if above then .routine :: .entered cur state ::
          rest else .entered cur state :: rest := by
  have progress := kept.progress (.entering cur state) (isStack ▸ List.mem_cons_self)
  obtain ⟨inTable, inner⟩ := progress.resolve_left fun isNone => isSome isNone.1
  obtain ⟨info, isInfo⟩ := getElem?_of_lt inTable
  unfold World.resume
  rw [isStack]
  dsimp only
  rw [if_neg isSome, kept.states, isInfo]
  have progress : (Frame.entered cur state).Progress table world.sm.curState := ⟨inTable, inner⟩
  exact ⟨_, rfl, kept.replaced isStack rfl rfl kept.current progress info.smEntry,
    info.smEntry, rfl⟩

/-- The rest of that round. -/
theorem World.Kept.entered (sound : Sound table) (kept : world.Kept table) {cur : Nat}
    {rest : List Frame} (isStack : world.stack = .entered cur state :: rest) :
    ∃ after, world.resume = some after ∧ after.Kept table ∧
      ∃ info, table[cur]? = some info ∧ after.stack = .entering info.initialSubstate state ::
          rest := by
  obtain ⟨inTable, inner⟩ := kept.progress (.entered cur state) (isStack ▸ List.mem_cons_self)
  obtain ⟨info, isInfo⟩ := getElem?_of_lt inTable
  have ends := (sound.substates cur inTable).next sound.few isInfo
  have next : ∃ next, world.sm.substate info = some next ∧ next = info.initialSubstate ∧
      (Frame.entering next state).Progress table cur := by
    unfold Sm.substate
    rw [kept.states]
    by_cases isLeaf : info.initialSubstate = stateNone
    · rw [if_pos isLeaf]
      exact ⟨_, rfl, isLeaf.symm, .inl ⟨rfl, inner cur (.here isInfo isLeaf)⟩⟩
    · obtain ⟨below, isBelow⟩ := getElem?_of_lt (ends.lt isLeaf)
      rw [if_neg isLeaf, isBelow]
      exact ⟨_, rfl, rfl, .inr ⟨ends.lt isLeaf, fun deepest further =>
        inner deepest (.within isInfo isLeaf further)⟩⟩
  obtain ⟨next, isNext, same, progress⟩ := next
  unfold World.resume
  rw [isStack]
  dsimp only
  have isRead : world.sm.stateInfo[cur]? = some info := by rw [kept.states, isInfo]
  rw [isRead]
  dsimp only [Option.bind_eq_bind, Option.bind_some]
  rw [isNext]
  exact ⟨_, rfl, kept.replaced isStack rfl rfl inTable progress false, info, isInfo, by rw [same]⟩

/-- **The end of a transition**: the machine is in the innermost initial substate of the target. -/
theorem World.Kept.ended (kept : world.Kept table) (few : table.length ≤ maxStates)
    {rest : List Frame} (isStack : world.stack = .entering stateNone state :: rest) :
    ∃ after, world.resume = some after ∧ after.Kept table ∧ after.stack = rest ∧
      after.inTransition = false ∧ Innermost table state after.sm.curState := by
  have none := kept.rest_countP isStack rfl
  have progress := kept.progress (.entering stateNone state) (isStack ▸ List.mem_cons_self)
  have innermost : Innermost table state world.sm.curState := by
    rcases progress with ⟨_, innermost⟩ | ⟨inTable, _⟩
    · exact innermost
    · unfold stateNone at inTable
      unfold maxStates at few
      omega
  unfold World.resume
  rw [isStack]
  dsimp only
  rw [if_pos rfl]
  refine ⟨_, rfl, ⟨kept.states, kept.current, ?_, ?_, ?_⟩, rfl,
    inTransition_eq_false.mpr none, innermost⟩
  · exact (inTransition_eq_false.mpr none).symm
  · show rest.countP Frame.isTransition ≤ 1
    omega
  · exact fun frame member => kept.progress frame (isStack ▸ List.mem_cons_of_mem _ member)

theorem World.Kept.resume (sound : Sound table) (kept : world.Kept table)
    (stepped : world.resume = some after) :
    after.Kept table := by
  match isStack : world.stack with
  | [] | .routine :: _ | .handler :: _ =>
    unfold World.resume at stepped
    rw [isStack] at stepped
    cases stepped
  | .exiting cur state :: rest =>
    obtain ⟨next, isNext, keptNext, _⟩ := kept.exiting sound isStack
    exact Option.some.inj (isNext.symm.trans stepped) ▸ keptNext
  | .entering cur state :: rest =>
    by_cases isNone : cur = stateNone
    · subst isNone
      obtain ⟨next, isNext, keptNext, _⟩ := kept.ended sound.few isStack
      exact Option.some.inj (isNext.symm.trans stepped) ▸ keptNext
    · obtain ⟨next, isNext, keptNext, _⟩ := kept.entering isStack isNone
      exact Option.some.inj (isNext.symm.trans stepped) ▸ keptNext
  | .entered cur state :: rest =>
    obtain ⟨next, isNext, keptNext, _⟩ := kept.entered sound isStack
    exact Option.some.inj (isNext.symm.trans stepped) ▸ keptNext

/-! ### Runs -/

/-- While no transition is in progress, only valid states are asked for. -/
def World.Proper (world : World) (act : Act) : Prop :=
  ∀ state, act = .transitionTo state → world.sm.inStateTransition = false →
    world.sm.valid state = true

/-- What every step of a run meets, in the world it is made in. -/
def World.Along (world : World) (meets : World → Act → Prop) : List Act → Prop
  | [] => True
  | act :: acts => meets world act ∧ ∀ next, world.step act = some next → next.Along meets acts

theorem World.Kept.step {act : Act} (sound : Sound table) (kept : world.Kept table)
    (proper : world.Proper act) (stepped : world.step act = some after) : after.Kept table := by
  cases act with
  | transitionTo state =>
    simp only [World.step] at stepped
    split at stepped
    · exact kept.transitionTo sound (proper state rfl) stepped
    · cases stepped
  | dispatch event =>
    simp only [World.step] at stepped
    split at stepped
    · exact kept.dispatch stepped
    · cases stepped
  | ret handled => exact kept.ret stepped
  | resume => exact kept.resume sound stepped

theorem World.Kept.run {acts : List Act} (sound : Sound table) (kept : world.Kept table)
    (proper : world.Along World.Proper acts) (ran : world.run acts = some after) :
        after.Kept table := by
  induction acts generalizing world with
  | nil => exact Option.some.inj ran ▸ kept
  | cons act acts ih =>
    obtain ⟨here, further⟩ := proper
    obtain ⟨next, stepped, ran⟩ := Option.bind_eq_some_iff.mp ran
    exact ih (kept.step sound here stepped) (further next stepped) ran

/-! ### Transitions end -/

/-- Routines only return, and the transition goes on. -/
def Continues (acts : List Act) : Prop := ∀ act ∈ acts, act = .resume ∨ act = .ret true

/-- When routines return, the transition to `state` ends, and leaves the calls in `rest`. -/
def World.Finishes (table : Table) (world : World) (state : Nat) (rest : List Frame) : Prop :=
  ∃ acts after, Continues acts ∧ world.run acts = some after ∧ after.stack = rest ∧
    after.sm.inStateTransition = false ∧ Innermost table state after.sm.curState

theorem World.Finishes.resume {next : World} {rest : List Frame}
    (resumed : world.resume = some next) (finishes : next.Finishes table state rest) :
        world.Finishes table state rest := by
  obtain ⟨acts, after, continues, ran, ends⟩ := finishes
  refine ⟨.resume :: acts, after, ?_, ?_, ends⟩
  · intro act member
    rcases List.mem_cons.mp member with rfl | member
    · exact .inl rfl
    · exact continues act member
  · simp only [World.run, World.step, resumed]
    exact ran

theorem World.Finishes.ret {next : World} {rest : List Frame}
    (returned : world.ret true = some next) (finishes : next.Finishes table state rest) :
        world.Finishes table state rest := by
  obtain ⟨acts, after, continues, ran, ends⟩ := finishes
  refine ⟨.ret true :: acts, after, ?_, ?_, ends⟩
  · intro act member
    rcases List.mem_cons.mp member with rfl | member
    · exact .inr rfl
    · exact continues act member
  · simp only [World.run, World.step, returned]
    exact ran

/-- A call that is not a transition returns. -/
theorem World.Kept.returns (kept : world.Kept table) {frame : Frame} {rest : List Frame}
    (isStack : world.stack = frame :: rest) (plain : ¬ frame.isTransition = true) :
    ∃ next, world.ret true = some next ∧ next.Kept table ∧ next.stack = rest := by
  have returned : ∃ next, world.ret true = some next ∧ next.stack = rest := by
    unfold World.ret
    rw [isStack]
    cases frame with
    | routine => exact ⟨_, rfl, rfl⟩
    | handler => exact ⟨_, rfl, rfl⟩
    | exiting _ _ => exact absurd rfl plain
    | entering _ _ => exact absurd rfl plain
    | entered _ _ => exact absurd rfl plain
  obtain ⟨next, returned, isRest⟩ := returned
  exact ⟨next, returned, kept.ret returned, isRest⟩

/-- A routine above the transition returns first. -/
theorem World.Kept.finishes_above (kept : world.Kept table) {frame : Frame} {rest : List Frame}
    {above : Bool} (isStack : world.stack = if above then .routine :: frame ::
      rest else frame :: rest)
    (finishes : ∀ {next : World}, next.Kept table → next.stack = frame :: rest →
      next.Finishes table state rest) : world.Finishes table state rest := by
  cases above with
  | false => exact finishes kept isStack
  | true =>
    obtain ⟨next, returned, keptNext, isNext⟩ := kept.returns isStack (by simp [Frame.isTransition])
    exact .ret returned (finishes keptNext isNext)

/-- **The loop over the entry routines ends**: the induction is on the initial substates still to be
entered. -/
theorem World.Kept.entering_finishes (sound : Sound table) {cur : Nat} {rest : List Frame}
    (ends : Ends table StateInfo.initialSubstate cur) :
    ∀ {world : World}, world.Kept table → world.stack = .entering cur state :: rest →
      world.Finishes table state rest := by
  have last : ∀ {world : World}, world.Kept table →
    world.stack = .entering stateNone state :: rest →
      world.Finishes table state rest := by
    intro world kept isStack
    obtain ⟨after, resumed, keptAfter, isRest, idle, innermost⟩ := kept.ended sound.few isStack
    exact .resume resumed ⟨[], after, fun _ member => absurd member List.not_mem_nil, rfl, isRest,
      keptAfter.flag.trans idle, innermost⟩
  induction ends with
  | none => exact last
  | @step cur info isInfo _ ih =>
    intro world kept isStack
    by_cases isNone : cur = stateNone
    · exact last kept (isNone ▸ isStack)
    · obtain ⟨next, resumed, keptNext, above, isNext⟩ := kept.entering isStack isNone
      refine .resume resumed (keptNext.finishes_above isNext ?_)
      intro entered keptEntered isEntered
      obtain ⟨next', resumed', keptNext', info', isInfo', isNext'⟩ :=
        keptEntered.entered sound isEntered
      obtain rfl := Option.some.inj (isInfo.symm.trans isInfo')
      exact .resume resumed' (ih keptNext' isNext')

/-- **The loop over the exit routines ends**: the induction is on the parents still to be left. -/
theorem World.Kept.exiting_finishes (sound : Sound table) {cur : Nat} {rest : List Frame}
    (inTable : state < table.length) (ends : Ends table StateInfo.parentState cur) :
    ∀ {world : World}, world.Kept table → world.stack = .exiting cur state :: rest →
      world.Finishes table state rest := by
  induction ends with
  | none =>
    intro world kept isStack
    obtain ⟨next, resumed, keptNext, left⟩ := kept.exiting sound isStack
    rcases left with ⟨_, isNext⟩ | ⟨info, above, isInfo, isNext⟩
    · exact .resume resumed
        (entering_finishes sound (sound.substates state inTable) keptNext isNext)
    · have beyond := lt_of_getElem? isInfo
      have few := sound.few
      unfold stateNone at beyond
      unfold maxStates at few
      omega
  | @step cur info isInfo _ ih =>
    intro world kept isStack
    obtain ⟨next, resumed, keptNext, left⟩ := kept.exiting sound isStack
    rcases left with ⟨_, isNext⟩ | ⟨info', above, isInfo', isNext⟩
    · exact .resume resumed
        (entering_finishes sound (sound.substates state inTable) keptNext isNext)
    · obtain rfl := Option.some.inj (isInfo.symm.trans isInfo')
      exact .resume resumed (keptNext.finishes_above isNext ih)

/-- **A transition in progress ends**, whatever runs inside it. The induction is on the calls above
it. -/
theorem World.Kept.finishes (sound : Sound table) (kept : world.Kept table)
    (inTransition : world.inTransition = true) :
    ∃ state rest, world.Finishes table state rest := by
  obtain ⟨stack, isStack⟩ : ∃ stack, world.stack = stack := ⟨_, rfl⟩
  induction stack generalizing world with
  | nil =>
    rw [World.inTransition, isStack] at inTransition
    cases inTransition
  | cons frame rest ih =>
    have progress := kept.progress frame (isStack ▸ List.mem_cons_self)
    by_cases plain : frame.isTransition = true
    · cases frame with
      | routine => cases plain
      | handler => cases plain
      | exiting cur state =>
        exact ⟨state, rest, exiting_finishes sound progress.2 progress.1 kept isStack⟩
      | entering cur state =>
        rcases progress with ⟨isNone, _⟩ | ⟨inTable, _⟩
        · exact ⟨state, rest, entering_finishes sound (isNone ▸ .none) kept isStack⟩
        · exact ⟨state, rest, entering_finishes sound (sound.substates cur inTable) kept isStack⟩
      | entered cur state =>
        obtain ⟨next, resumed, keptNext, info, isInfo, isNext⟩ := kept.entered sound isStack
        have ends := (sound.substates cur progress.1).next sound.few isInfo
        exact ⟨state, rest, .resume resumed (entering_finishes sound ends keptNext isNext)⟩
    · obtain ⟨next, returned, keptNext, isNext⟩ := kept.returns isStack plain
      have still : next.inTransition = true := by
        rw [World.inTransition, isStack, List.any_cons, Bool.or_eq_true] at inTransition
        rw [World.inTransition, isNext]
        exact inTransition.resolve_left plain
      obtain ⟨state, left, finishes⟩ := ih keptNext still isNext
      exact ⟨state, left, .ret returned finishes⟩

/-- A request for a valid state from outside is carried out. -/
theorem World.Kept.carriedOut (sound : Sound table) (kept : world.Kept table)
    (isIdle : world.inTransition = false) (valid : world.sm.valid state = true) :
    ∃ next, world.step (.transitionTo state) = some next ∧
        next.Finishes table state world.stack := by
  have taken := transitionTo_of_valid sound kept isIdle valid
  have inTable : state < table.length := by
    rw [← kept.states]
    exact (valid_iff.mp valid).2.2
  have callable : world.callable = true := by
    unfold World.callable
    split
    · rfl
    · rename_i frame rest isStack
      rw [World.inTransition, isStack, List.any_cons, Bool.or_eq_false_iff] at isIdle
      rw [isIdle.1]
      rfl
  have keptNext := kept.transitionTo sound (fun _ => valid) taken
  refine ⟨_, ?_, exiting_finishes sound inTable (sound.parents _ kept.current) keptNext rfl⟩
  simp only [World.step, callable, if_true]
  exact taken

/-- The last round of a transition. -/
theorem World.Kept.lastRound (sound : Sound table) (kept : world.Kept table)
    (resumed : world.resume = some after) (isIdle : after.inTransition = false) :
    ∃ state rest, world.stack = .entering stateNone state :: rest ∧ after.stack = rest ∧
      Innermost table state after.sm.curState := by
  have goesOn : ∀ {frame : Frame} {rest : List Frame} {above : Bool}, frame.isTransition = true →
      after.stack = (if above then .routine :: frame :: rest else frame :: rest) → False := by
    intro frame rest above isTransition isStack
    rw [World.inTransition, isStack] at isIdle
    cases above <;> simp [isTransition] at isIdle
  match isStack : world.stack with
  | [] | .routine :: _ | .handler :: _ =>
    unfold World.resume at resumed
    rw [isStack] at resumed
    cases resumed
  | .exiting cur state :: rest =>
    obtain ⟨next, isNext, _, left⟩ := kept.exiting sound isStack
    obtain rfl := Option.some.inj (isNext.symm.trans resumed)
    rcases left with ⟨_, left⟩ | ⟨info, above, _, left⟩
    · exact (@goesOn _ _ false rfl left).elim
    · exact (goesOn rfl left).elim
  | .entering cur state :: rest =>
    by_cases isNone : cur = stateNone
    · subst isNone
      obtain ⟨next, isNext, _, isRest, _, innermost⟩ := kept.ended sound.few isStack
      obtain rfl := Option.some.inj (isNext.symm.trans resumed)
      exact ⟨state, rest, rfl, isRest, innermost⟩
    · obtain ⟨next, isNext, _, above, left⟩ := kept.entering isStack isNone
      obtain rfl := Option.some.inj (isNext.symm.trans resumed)
      exact (goesOn rfl left).elim
  | .entered cur state :: rest =>
    obtain ⟨next, isNext, _, info, _, left⟩ := kept.entered sound isStack
    obtain rfl := Option.some.inj (isNext.symm.trans resumed)
    exact (@goesOn _ _ false rfl left).elim

/-- **The engine never gets stuck**, for a table whose initial substates end and an initial state of
the table, as long as no transition to an invalid state is asked for while none is in progress. -/
theorem transitions_carried_out {initState : Nat} {sm : Sm}
    (created : create initState table = some sm) (initial : initState < table.length)
    (substates : ∀ state < table.length, Ends table StateInfo.initialSubstate state)
    {acts : List Act} (proper : (World.start sm).Along World.Proper acts)
    (ran : (World.start sm).run acts = some world) :
    -- a rejected request changes nothing
    (∀ state, world.Proper (.transitionTo state) → world.rejects state = true →
      world.transitionTo state = some world) ∧
    -- the flag is set exactly during a transition
    world.sm.inStateTransition = world.inTransition ∧
    -- a valid request from outside is taken up, and its transition ends when the routines return
    (world.inTransition = false → ∀ state, world.sm.valid state = true →
      ∃ next, world.step (.transitionTo state) = some next ∧
      next.Finishes table state world.stack) ∧
    -- a transition in progress can always be ended, and however it ends, it ends in its target
    (world.inTransition = true → (∃ state rest, world.Finishes table state rest) ∧
      ∀ after, world.resume = some after → after.inTransition = false →
        ∃ state rest, world.stack = .entering stateNone state :: rest ∧ after.stack = rest ∧
          Innermost table state after.sm.curState) := by
  obtain ⟨isSm, few⟩ := create_eq created
  have sound : Sound table := ⟨few, fun _ inTable => create_parents created inTable, substates⟩
  have start : (World.start sm).Kept table := by
    subst isSm
    exact .ofStart rfl initial rfl
  have kept := start.run sound proper ran
  refine ⟨?_, kept.flag, fun isIdle state valid => kept.carriedOut sound isIdle valid,
      fun inTransition =>
    ⟨kept.finishes sound inTransition, fun after resumed isIdle =>
      kept.lastRound sound resumed isIdle⟩⟩
  intro state asked rejected
  have inTransition : world.inTransition = true := by
    cases flag : world.sm.inStateTransition with
    | true => exact kept.flag.symm.trans flag
    | false =>
      rw [World.rejects, flag, asked state rfl flag] at rejected
      cases rejected
  exact transitionTo_of_inTransition kept inTransition

/-- Two states without routines. -/
def twoStates : Table :=
    [⟨0, stateNone, stateNone, false, false, false⟩, ⟨1, stateNone, stateNone, false, false, true⟩]

/-- The second state is left, whose exit routine asks for a transition of its own. -/
theorem transitions_carried_out_two :
    ∃ world, (World.start ⟨1, twoStates, eventNone, false⟩).run
        [.transitionTo 0, .resume, .transitionTo 1, .ret true] = some world ∧
      world.sm.inStateTransition = world.inTransition := by
  have ends : ∀ state < twoStates.length, Ends twoStates StateInfo.initialSubstate state := by
    intro state inTable
    obtain ⟨info, isInfo⟩ := getElem?_of_lt inTable
    refine .step isInfo ?_
    have leaf : ∀ info ∈ twoStates, info.initialSubstate = stateNone := by decide
    rw [leaf info (List.mem_of_getElem? isInfo)]
    exact .none
  have proper : (World.start ⟨1, twoStates, eventNone, false⟩).Along World.Proper
      [.transitionTo 0, .resume, .transitionTo 1, .ret true] := by
    refine ⟨fun state same _ => ?_, fun next isNext =>
        ⟨fun _ same => (by cases same), fun next' isNext' =>
      ⟨fun state same flag => ?_, fun next'' isNext'' =>
        ⟨fun _ same => (by cases same), fun _ _ => trivial⟩⟩⟩⟩
    · cases same
      decide
    · obtain rfl := Option.some.inj isNext
      obtain rfl := Option.some.inj isNext'
      cases flag
  have created : create 1 twoStates = some ⟨1, twoStates, eventNone, false⟩ := by decide
  exact ⟨_, rfl, (transitions_carried_out created (by decide) ends proper rfl).2.1⟩

/-- **The flag is left set**: after a request for an invalid state no transition is in progress, and
a request for a valid state is not carried out. -/
theorem stuck_after_invalid :
    ∃ world, (World.start ⟨0, twoStates, eventNone, false⟩).run [.transitionTo 2] = some world ∧
      world ≠ World.start ⟨0, twoStates, eventNone, false⟩ ∧
      world.sm.inStateTransition = true ∧ world.inTransition = false ∧
      world.sm.valid 1 = true ∧ world.run [.transitionTo 1] = some world ∧ world.sm.curState = 0 :=
  ⟨_, rfl, by decide, by decide, by decide, by decide, by decide, by decide⟩

end Qsdk.SmEngine
