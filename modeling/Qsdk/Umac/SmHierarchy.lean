/-
**Entry and exit routines in balance.**

`wlan_sm_transition_to` calls exit routines up the parents of the current state, and entry routines
down the initial substates of its target. `wlan_sm_create` checks the parents only, and the two
fields need not fit together. Here a transition runs to its end, with routines that return, and
every call is noted down.
-/

import Qsdk.Umac.SmTransitions

namespace Qsdk.SmEngine

/-! ### Transitions that run to their end -/

/-- A call of a routine. A routine that is not there does nothing. -/
inductive Call
  | entry (state : Nat)
  | exit (state : Nat)
deriving DecidableEq

/-- The loop over the exit routines. The last call is the first in the list. -/
def exitLoop (table : Table) : Nat → Nat → List Call → Option (List Call)
  | 0, _, _ => none
  | rounds + 1, curState, calls =>
    if curState = stateNone then some calls
    else do
      let info ← table[curState]?
      exitLoop table rounds info.parentState (.exit curState :: calls)

/-- The loop over the entry routines. -/
def entryLoop : Nat → Nat → Sm × List Call → Option (Sm × List Call)
  | 0, _, _ => none
  | rounds + 1, curState, (sm, calls) =>
    if curState = stateNone then some (sm, calls)
    else do
      let info ← sm.stateInfo[curState]?
      let next ← sm.substate info
      entryLoop rounds next ({ sm with curState := curState }, .entry curState :: calls)

/-- `wlan_sm_transition_to`, in at most so many rounds of each loop. -/
def Sm.transition (rounds : Nat) (sm : Sm) (calls : List Call) (state : Nat) :
    Option (Sm × List Call) :=
  if sm.inStateTransition then some (sm, calls)
  else
    let sm := { sm with inStateTransition := true }
    if sm.valid state then do
      let old ← sm.stateInfo[sm.curState]?
      let new ← sm.stateInfo[state]?
      let _ ← sm.shown old
      let _ ← sm.shown new
      let calls ← exitLoop sm.stateInfo rounds sm.curState calls
      let (sm, calls) ← entryLoop rounds state (sm, calls)
      some ({ sm with inStateTransition := false }, calls)
    else some (sm, calls)

/-- One transition after the other. -/
def transitions (rounds : Nat) : List Nat → Sm × List Call → Option (Sm × List Call)
  | [], machine => some machine
  | state :: rest, (sm, calls) => do
    let machine ← sm.transition rounds calls state
    transitions rounds rest machine

/-! ### What is promised -/

/-- The last call for the state was of its entry routine. -/
def Opened (state : Nat) : List Call → Prop
  | [] => False
  | .entry other :: calls => other = state ∨ Opened state calls
  | .exit other :: calls => other ≠ state ∧ Opened state calls

/-- Behind the calls of `before`, an exit routine is called only where the last call was of the
entry routine. -/
def Balanced (before : List Call) : List Call → Prop
  | [] => True
  | .entry _ :: calls => Balanced before calls
  | .exit state :: calls => Opened state (calls ++ before) ∧ Balanced before calls

/-- Following `next` from a state leads to the other one, within the table. -/
inductive Leads (table : Table) (next : StateInfo → Nat) : Nat → Nat → Prop
  | here {state : Nat} {info : StateInfo} : table[state]? = some info → Leads table next state state
  | step {state other : Nat} {info : StateInfo} : table[state]? = some info →
      Leads table next (next info) other → Leads table next state other

/-- **The hierarchy is respected** after some transitions, of which the first has led to `first`. -/
structure Respects (table : Table) (first last : Sm × List Call) : Prop where
  leaf : ∃ info, table[last.1.curState]? = some info ∧ info.initialSubstate = stateNone
  entered : ∀ state, Opened state last.2 ↔ Leads table StateInfo.parentState last.1.curState state
  balanced : ∃ calls, last.2 = calls ++ first.2 ∧ Balanced first.2 calls

/-- The transitions end, without a look beyond the table, and respect the hierarchy. -/
def Respected (table : Table) (start : Sm) (target : Nat) (rest : List Nat) : Prop :=
  ∃ rounds first last, start.transition rounds [] target = some first ∧
    transitions rounds rest first = some last ∧
    Respects table first last

/-- **A target that fits:** its initial substates form no loop and are in the table, and the states
on the way are the last one and its ancestors. -/
structure Fits (table : Table) (target : Nat) : Prop where
  ends : Ends table StateInfo.initialSubstate target
  mirrored : ∀ inner, Innermost table target inner → ∀ state,
    Leads table StateInfo.initialSubstate target state ↔
    Leads table StateInfo.parentState inner state

variable {table : Table} {state other rounds : Nat} {next : StateInfo → Nat}

/-! ### Chains of states -/

theorem Leads.further {info : StateInfo} {below : StateInfo} (leads : Leads table next state other)
    (isInfo : table[other]? = some info) (isNext : table[next info]? = some below) :
    Leads table next state (next info) := by
  induction leads with
  | here isState =>
    obtain rfl := Option.some.inj (isInfo.symm.trans isState)
    exact .step isState (.here isNext)
  | step isState _ ih => exact .step isState (ih isInfo)

theorem Leads.isIn (leads : Leads table next state other) : ∃ info, table[other]? = some info := by
  induction leads with
  | here isState => exact ⟨_, isState⟩
  | step _ _ ih => exact ih

theorem Leads.fromIn (leads : Leads table next state other) : ∃ info,
    table[state]? = some info := by
  cases leads with
  | here isState => exact ⟨_, isState⟩
  | step isState _ => exact ⟨_, isState⟩

theorem not_leads_none (few : table.length ≤ maxStates) : ¬ Leads table next stateNone other := by
  intro leads
  obtain ⟨info, isInfo⟩ := leads.fromIn
  have := lt_of_getElem? isInfo
  unfold stateNone at this
  unfold maxStates at few
  omega

/-- **No way back** on a chain that ends. -/
theorem Ends.no_return (few : table.length ≤ maxStates) (ends : Ends table next state) :
    ∀ info, table[state]? = some info → ¬ Leads table next (next info) state := by
  induction ends with
  | none => exact fun info isInfo _ =>
    not_leads_none few (.here isInfo : Leads table next stateNone stateNone)
  | step isInfo ends ih =>
    intro info isInfo' leads
    obtain rfl := Option.some.inj (isInfo.symm.trans isInfo')
    obtain ⟨below, isBelow⟩ := leads.fromIn
    refine ih below isBelow ?_
    cases leads with
    | here isSelf =>
      obtain rfl := Option.some.inj (isInfo.symm.trans isBelow)
      exact .here isSelf
    | step isBelow' further =>
      obtain rfl := Option.some.inj (isBelow.symm.trans isBelow')
      exact further.further isInfo isBelow

/-! ### Calls -/

variable {calls before : List Call} {states : List Nat}

/-- What is open behind entry routines. -/
theorem opened_entries : Opened state (states.map Call.entry ++ calls) ↔
    state ∈ states ∨ Opened state calls := by
  induction states with
  | nil => simp
  | cons first rest ih =>
    rw [List.map_cons, List.cons_append, Opened, ih, List.mem_cons, or_assoc, eq_comm]

/-- What is open behind exit routines. -/
theorem opened_exits : Opened state (states.map Call.exit ++ calls) ↔
    state ∉ states ∧ Opened state calls := by
  induction states with
  | nil => simp
  | cons first rest ih =>
    rw [List.map_cons, List.cons_append, Opened, ih, List.mem_cons, not_or, and_assoc, ne_comm]

theorem balanced_append {later : List Call} :
    Balanced before (later ++ calls) ↔ Balanced (calls ++ before) later ∧
        Balanced before calls := by
  induction later with
  | nil => exact (and_iff_right trivial).symm
  | cons call later ih =>
    cases call with
    | entry other => exact ih
    | exit other =>
      rw [List.cons_append, Balanced, Balanced, ih, List.append_assoc, and_assoc]

theorem balanced_entries : Balanced before (states.map Call.entry) := by
  induction states with
  | nil => exact trivial
  | cons first rest ih => exact ih

/-- Exit routines of different states that are open. -/
theorem balanced_exits (nodup : states.Nodup) (opened : ∀ state ∈ states, Opened state before) :
    Balanced before (states.map Call.exit) := by
  induction states with
  | nil => exact trivial
  | cons first rest ih =>
    obtain ⟨fresh, nodup⟩ := List.nodup_cons.mp nodup
    exact ⟨opened_exits.mpr ⟨fresh, opened first List.mem_cons_self⟩,
      ih nodup fun state member => opened state (List.mem_cons_of_mem _ member)⟩

/-! ### The loops -/

/-- **The loop over the exit routines** ends just where the parents do. -/
theorem exitLoop_some {after : List Call} (few : table.length ≤ maxStates)
    (done : exitLoop table rounds state calls = some after) :
    Ends table StateInfo.parentState state ∧ ∃ states : List Nat, after = states.map Call.exit ++
    calls ∧ states.Nodup ∧
      ∀ other, other ∈ states ↔ Leads table StateInfo.parentState state other := by
  induction rounds generalizing state calls with
  | zero => cases done
  | succ rounds ih =>
    unfold exitLoop at done
    split at done
    case isTrue isNone =>
      subst isNone
      obtain rfl := Option.some.inj done
      exact ⟨.none, [], rfl, List.nodup_nil, fun other =>
        iff_of_false List.not_mem_nil (not_leads_none few)⟩
    case isFalse =>
      obtain ⟨info, isInfo, done⟩ := Option.bind_eq_some_iff.mp done
      obtain ⟨ends, states, isAfter, nodup, member⟩ := ih done
      have here : Ends table StateInfo.parentState state := .step isInfo ends
      refine ⟨here, states ++ [state], ?_, ?_, fun other => ?_⟩
      · rw [isAfter, List.map_append, List.append_assoc]
        rfl
      · refine List.nodup_append.mpr ⟨nodup, List.pairwise_singleton _ _,
          fun other isIn again isAgain same => ?_⟩
        obtain rfl := List.mem_singleton.mp isAgain
        exact here.no_return few info isInfo ((member _).mp (same ▸ isIn))
      · rw [List.mem_append, List.mem_singleton, member]
        constructor
        · rintro (leads | rfl)
          · exact .step isInfo leads
          · exact .here isInfo
        · intro leads
          cases leads with
          | here _ => exact .inr rfl
          | step isInfo' leads =>
            obtain rfl := Option.some.inj (isInfo.symm.trans isInfo')
            exact .inl leads

theorem exitLoop_of_ends (ends : Ends table StateInfo.parentState state) :
    ∃ rounds, ∀ calls, ∃ after, exitLoop table rounds state calls = some after := by
  induction ends with
  | none => exact ⟨1, fun calls => ⟨calls, rfl⟩⟩
  | @step state info isInfo _ ih =>
    obtain ⟨rounds, ends⟩ := ih
    refine ⟨rounds + 1, fun calls => ?_⟩
    unfold exitLoop
    split
    · exact ⟨calls, rfl⟩
    · rw [isInfo]
      exact ends (.exit state :: calls)

theorem exitLoop_mono {after : List Call} (done : exitLoop table rounds state calls = some after)
    (more : Nat) :
    exitLoop table (rounds + more) state calls = some after := by
  induction rounds generalizing state calls with
  | zero => cases done
  | succ rounds ih =>
    rw [Nat.add_right_comm]
    unfold exitLoop at done ⊢
    split at done
    case isTrue isNone => rwa [if_pos isNone]
    case isFalse isSome =>
      rw [if_neg isSome]
      obtain ⟨info, isInfo, done⟩ := Option.bind_eq_some_iff.mp done
      exact Option.bind_eq_some_iff.mpr ⟨info, isInfo, ih done⟩

theorem substate_eq {sm : Sm} {info : StateInfo} {next : Nat}
    (isNext : sm.substate info = some next) :
    next = info.initialSubstate ∧ (next ≠ stateNone → next < sm.stateInfo.length) := by
  unfold Sm.substate at isNext
  split at isNext
  case isTrue isLeaf =>
    obtain rfl := Option.some.inj isNext
    exact ⟨isLeaf.symm, fun isSome => absurd rfl isSome⟩
  case isFalse =>
    obtain ⟨below, isBelow, rfl⟩ := Option.map_eq_some_iff.mp isNext
    exact ⟨rfl, fun _ => lt_of_getElem? isBelow⟩

/-- **The loop over the entry routines** ends just where the initial substates do, in the last of
them. -/
theorem entryLoop_some {sm : Sm} {after : Sm × List Call} (few : table.length ≤ maxStates)
    (isTable : sm.stateInfo = table) (done : entryLoop rounds state (sm, calls) = some after) :
    Ends table StateInfo.initialSubstate state ∧
      (state ≠ stateNone → Innermost table state after.1.curState) ∧
      after.1 = { sm with curState := after.1.curState } ∧
      ∃ states : List Nat, after.2 = states.map Call.entry ++ calls ∧
        ∀ other, other ∈ states ↔ Leads table StateInfo.initialSubstate state other := by
  induction rounds generalizing state sm calls with
  | zero => cases done
  | succ rounds ih =>
    unfold entryLoop at done
    split at done
    case isTrue isNone =>
      subst isNone
      obtain rfl := Option.some.inj done
      exact ⟨.none, fun isSome => absurd rfl isSome, rfl, [], rfl, fun other =>
        iff_of_false List.not_mem_nil (not_leads_none few)⟩
    case isFalse isSome =>
      obtain ⟨info, isInfo, done⟩ := Option.bind_eq_some_iff.mp done
      obtain ⟨next, isNext, done⟩ := Option.bind_eq_some_iff.mp done
      obtain ⟨rfl, _⟩ := substate_eq isNext
      have isTable' : ({ sm with curState := state } : Sm).stateInfo = table := isTable
      rw [isTable] at isInfo
      obtain ⟨ends, innermost, same, states, isAfter, member⟩ := ih isTable' done
      refine ⟨.step isInfo ends, fun _ => ?_, same, states ++ [state], ?_, fun other => ?_⟩
      · by_cases isLeaf : info.initialSubstate = stateNone
        · rw [isLeaf] at done
          cases rounds with
          | zero => cases done
          | succ rounds =>
            obtain rfl := Option.some.inj ((if_pos rfl).symm.trans done)
            exact .here isInfo isLeaf
        · exact .within isInfo isLeaf (innermost isLeaf)
      · rw [isAfter, List.map_append, List.append_assoc]
        rfl
      · rw [List.mem_append, List.mem_singleton, member]
        constructor
        · rintro (leads | rfl)
          · exact .step isInfo leads
          · exact .here isInfo
        · intro leads
          cases leads with
          | here _ => exact .inr rfl
          | step isInfo' leads =>
            obtain rfl := Option.some.inj (isInfo.symm.trans isInfo')
            exact .inl leads

theorem entryLoop_of_ends (ends : Ends table StateInfo.initialSubstate state) :
    ∃ rounds, ∀ (sm : Sm) calls, sm.stateInfo = table →
        ∃ after, entryLoop rounds state (sm, calls) = some after := by
  induction ends with
  | none => exact ⟨1, fun sm calls _ => ⟨(sm, calls), rfl⟩⟩
  | @step state info isInfo further ih =>
    obtain ⟨rounds, ends⟩ := ih
    refine ⟨rounds + 1, fun sm calls isTable => ?_⟩
    have isNext : sm.substate info = some info.initialSubstate := by
      unfold Sm.substate
      split
      case isTrue isLeaf => rw [isLeaf]
      case isFalse isSome =>
        obtain ⟨below, isBelow⟩ := getElem?_of_lt (further.lt isSome)
        rw [isTable, isBelow]
        rfl
    unfold entryLoop
    split
    · exact ⟨(sm, calls), rfl⟩
    · have isRead : sm.stateInfo[state]? = some info := isTable ▸ isInfo
      rw [isRead, Option.bind_eq_bind, Option.bind_some, isNext]
      exact ends { sm with curState := state } (.entry state :: calls) isTable

theorem entryLoop_mono {machine after : Sm × List Call}
    (done : entryLoop rounds state machine = some after) (more : Nat) :
        entryLoop (rounds + more) state machine = some after := by
  induction rounds generalizing state machine with
  | zero => cases done
  | succ rounds ih =>
    obtain ⟨sm, calls⟩ := machine
    rw [Nat.add_right_comm]
    unfold entryLoop at done ⊢
    split at done
    case isTrue isNone => rwa [if_pos isNone]
    case isFalse isSome =>
      rw [if_neg isSome]
      obtain ⟨info, isInfo, done⟩ := Option.bind_eq_some_iff.mp done
      obtain ⟨next, isNext, done⟩ := Option.bind_eq_some_iff.mp done
      exact Option.bind_eq_some_iff.mpr
        ⟨info, isInfo, Option.bind_eq_some_iff.mpr ⟨next, isNext, ih done⟩⟩

/-! ### One transition -/

/-- The machine is between transitions. -/
structure Sm.Idle (table : Table) (sm : Sm) : Prop where
  isTable : sm.stateInfo = table
  flag : sm.inStateTransition = false

theorem Innermost.unique {inner again : Nat} (one : Innermost table state inner)
    (two : Innermost table state again) :
    inner = again := by
  induction one with
  | here isInfo isLeaf =>
    cases two with
    | here _ _ => rfl
    | within isInfo' isSome _ =>
      obtain rfl := Option.some.inj (isInfo.symm.trans isInfo')
      exact absurd isLeaf isSome
  | within isInfo isSome _ ih =>
    cases two with
    | here isInfo' isLeaf =>
      obtain rfl := Option.some.inj (isInfo.symm.trans isInfo')
      exact absurd isLeaf isSome
    | within isInfo' _ further =>
      obtain rfl := Option.some.inj (isInfo.symm.trans isInfo')
      exact ih further

theorem Innermost.leaf {inner : Nat} (innermost : Innermost table state inner) :
    ∃ info, table[inner]? = some info ∧ info.initialSubstate = stateNone := by
  induction innermost with
  | here isInfo isLeaf => exact ⟨_, isInfo, isLeaf⟩
  | within _ _ _ ih => exact ih

theorem Sm.Idle.valid {sm : Sm} (few : table.length ≤ maxStates) (idle : sm.Idle table)
    (inTable : state < table.length) :
        ({ sm with inStateTransition := true } : Sm).valid state = true := by
  refine valid_iff.mpr ⟨?_, Nat.lt_of_lt_of_le inTable few, idle.isTable ▸ inTable⟩
  unfold stateNone
  unfold maxStates at few
  omega

/-- What a transition has done. -/
structure Moved (table : Table) (sm : Sm) (calls : List Call) (state : Nat) (after : Sm × List Call)
    (exits entries : List Nat) : Prop where
  current : sm.curState < table.length
  ends : Ends table StateInfo.initialSubstate state
  innermost : Innermost table state after.1.curState
  idle : after.1.Idle table
  isCalls : after.2 = entries.map Call.entry ++ (exits.map Call.exit ++ calls)
  nodup : exits.Nodup
  exited : ∀ other, other ∈ exits ↔ Leads table StateInfo.parentState sm.curState other
  entered : ∀ other, other ∈ entries ↔ Leads table StateInfo.initialSubstate state other

/-- **A transition that ends.** -/
theorem Sm.Idle.moved {sm : Sm} {after : Sm × List Call} (few : table.length ≤ maxStates)
    (idle : sm.Idle table) (inTable : state < table.length)
    (done : sm.transition rounds calls state = some after) :
    ∃ exits entries, Moved table sm calls state after exits entries := by
  have isTable := idle.isTable
  unfold Sm.transition at done
  rw [idle.flag, if_neg Bool.false_ne_true] at done
  dsimp only at done
  rw [if_pos (idle.valid few inTable), isTable] at done
  obtain ⟨old, isOld, done⟩ := Option.bind_eq_some_iff.mp done
  obtain ⟨_, _, done⟩ := Option.bind_eq_some_iff.mp done
  obtain ⟨_, _, done⟩ := Option.bind_eq_some_iff.mp done
  obtain ⟨_, _, done⟩ := Option.bind_eq_some_iff.mp done
  obtain ⟨exited, isExited, done⟩ := Option.bind_eq_some_iff.mp done
  obtain ⟨⟨last, made⟩, isLast, done⟩ := Option.bind_eq_some_iff.mp done
  obtain rfl := Option.some.inj done
  obtain ⟨_, exits, isExits, nodup, exitMember⟩ := exitLoop_some few isExited
  have isTable' : ({ sm with stateInfo := table, inStateTransition := true } : Sm).stateInfo =
    table := rfl
  obtain ⟨ends, innermost, same, entries, isEntries, entryMember⟩ :=
    entryLoop_some few isTable' isLast
  have isSome : state ≠ stateNone := by
    unfold stateNone
    unfold maxStates at few
    omega
  have kept : last.stateInfo = table := congrArg Sm.stateInfo same
  exact ⟨exits, entries, lt_of_getElem? isOld, ends, innermost isSome, ⟨kept, rfl⟩,
    isExits ▸ isEntries, nodup,
    exitMember, entryMember⟩

/-- **Enough rounds** for a transition. -/
theorem Sm.Idle.ends {sm : Sm} (few : table.length ≤ maxStates)
    (parents : ∀ state < table.length, Ends table StateInfo.parentState state)
    (idle : sm.Idle table) (current : sm.curState < table.length)
    (ends : Ends table StateInfo.initialSubstate state) (inTable : state < table.length) :
    ∃ rounds, ∀ calls, ∃ after, sm.transition rounds calls state = some after := by
  obtain ⟨exitRounds, exits⟩ := exitLoop_of_ends (parents sm.curState current)
  obtain ⟨entryRounds, entries⟩ := entryLoop_of_ends ends
  refine ⟨exitRounds + entryRounds, fun calls => ?_⟩
  have isTable := idle.isTable
  have shown : ∀ (cur : Nat) (info : StateInfo), table[cur]? = some info →
      ∃ name, ({ sm with inStateTransition := true } : Sm).shown info = some name := by
    intro cur info isInfo
    unfold Sm.shown
    split
    · exact ⟨info, rfl⟩
    case isFalse hasParent =>
      have next := (parents cur (lt_of_getElem? isInfo)).next few isInfo
      obtain ⟨parent, isParent⟩ := getElem?_of_lt (next.lt hasParent)
      exact ⟨parent, isTable ▸ isParent⟩
  obtain ⟨old, isOld⟩ := getElem?_of_lt current
  obtain ⟨new, isNew⟩ := getElem?_of_lt inTable
  obtain ⟨oldName, isOldName⟩ := shown _ old isOld
  obtain ⟨newName, isNewName⟩ := shown _ new isNew
  obtain ⟨exited, isExited⟩ := exits calls
  obtain ⟨entered, isEntered⟩ := entries { sm with inStateTransition := true } exited isTable
  have isExited' := exitLoop_mono isExited entryRounds
  have isEntered' := entryLoop_mono isEntered exitRounds
  rw [Nat.add_comm] at isEntered'
  refine ⟨({ entered.1 with inStateTransition := false }, entered.2), ?_⟩
  unfold Sm.transition
  rw [idle.flag, if_neg Bool.false_ne_true]
  dsimp only
  rw [if_pos (idle.valid few inTable)]
  refine Option.bind_eq_some_iff.mpr ⟨old, isTable ▸ isOld, ?_⟩
  refine Option.bind_eq_some_iff.mpr ⟨new, isTable ▸ isNew, ?_⟩
  refine Option.bind_eq_some_iff.mpr ⟨oldName, isOldName, ?_⟩
  refine Option.bind_eq_some_iff.mpr ⟨newName, isNewName, ?_⟩
  refine Option.bind_eq_some_iff.mpr ⟨exited, isTable ▸ isExited', ?_⟩
  exact Option.bind_eq_some_iff.mpr ⟨entered, isEntered', rfl⟩

theorem Sm.transition_mono {sm : Sm} {after : Sm × List Call}
    (done : sm.transition rounds calls state = some after) (more : Nat) :
        sm.transition (rounds + more) calls state = some after := by
  unfold Sm.transition at done ⊢
  split at done
  case isTrue busy => rwa [if_pos busy]
  case isFalse free =>
    rw [if_neg free]
    dsimp only at done ⊢
    split at done
    case isFalse invalid => rwa [if_neg invalid]
    case isTrue valid =>
      rw [if_pos valid]
      obtain ⟨old, isOld, done⟩ := Option.bind_eq_some_iff.mp done
      obtain ⟨new, isNew, done⟩ := Option.bind_eq_some_iff.mp done
      obtain ⟨oldName, isOldName, done⟩ := Option.bind_eq_some_iff.mp done
      obtain ⟨newName, isNewName, done⟩ := Option.bind_eq_some_iff.mp done
      obtain ⟨exited, isExited, done⟩ := Option.bind_eq_some_iff.mp done
      obtain ⟨entered, isEntered, done⟩ := Option.bind_eq_some_iff.mp done
      refine Option.bind_eq_some_iff.mpr ⟨old, isOld, Option.bind_eq_some_iff.mpr ⟨new, isNew, ?_⟩⟩
      refine Option.bind_eq_some_iff.mpr
        ⟨oldName, isOldName, Option.bind_eq_some_iff.mpr ⟨newName, isNewName, ?_⟩⟩
      refine Option.bind_eq_some_iff.mpr ⟨exited, exitLoop_mono isExited more, ?_⟩
      exact Option.bind_eq_some_iff.mpr ⟨entered, entryLoop_mono isEntered more, done⟩

theorem transitions_mono {rest : List Nat} {machine after : Sm × List Call}
    (done : transitions rounds rest machine = some after) (more : Nat) :
    transitions (rounds + more) rest machine = some after := by
  induction rest generalizing machine with
  | nil => exact done
  | cons state rest ih =>
    obtain ⟨between, isBetween, done⟩ := Option.bind_eq_some_iff.mp done
    exact Option.bind_eq_some_iff.mpr ⟨between, Sm.transition_mono isBetween more, ih done⟩

theorem transitions_append {rest : List Nat} {machine after : Sm × List Call} :
    transitions rounds (rest ++ [state]) machine = some after ↔
      ∃ between, transitions rounds rest machine = some between ∧
        between.1.transition rounds between.2 state = some after := by
  induction rest generalizing machine with
  | nil =>
    constructor
    · intro done
      obtain ⟨last, isLast, done⟩ := Option.bind_eq_some_iff.mp done
      exact ⟨machine, rfl, isLast.trans done⟩
    · rintro ⟨between, isBetween, done⟩
      obtain rfl := Option.some.inj isBetween
      exact Option.bind_eq_some_iff.mpr ⟨after, done, rfl⟩
  | cons first rest ih =>
    constructor
    · intro done
      obtain ⟨second, isSecond, done⟩ := Option.bind_eq_some_iff.mp done
      obtain ⟨between, isBetween, done⟩ := ih.mp done
      exact ⟨between, Option.bind_eq_some_iff.mpr ⟨second, isSecond, isBetween⟩, done⟩
    · rintro ⟨between, isBetween, done⟩
      obtain ⟨second, isSecond, isBetween⟩ := Option.bind_eq_some_iff.mp isBetween
      exact Option.bind_eq_some_iff.mpr ⟨second, isSecond, ih.mpr ⟨between, isBetween, done⟩⟩

/-! ### Step by step -/

theorem World.run_append {world between : World} {acts : List Act}
    (ran : world.run acts = some between) (more : List Act) :
        world.run (acts ++ more) = between.run more := by
  induction acts generalizing world with
  | nil => exact congrArg (World.run · more) (Option.some.inj ran)
  | cons act acts ih =>
    obtain ⟨next, isNext, ran⟩ := Option.bind_eq_some_iff.mp ran
    have further := ih ran
    rw [List.cons_append, World.run, isNext]
    exact further

/-- A routine that is there returns at once. -/
theorem World.run_routine {world : World} {frames : List Frame} (above : Bool)
    (isStack : world.stack = if above then .routine :: frames else frames) :
    ∃ acts, world.run acts = some { world with stack := frames } := by
  cases above with
  | true =>
    refine ⟨[.ret true], Option.bind_eq_some_iff.mpr ⟨{ world with stack := frames }, ?_, rfl⟩⟩
    show world.ret true = _
    unfold World.ret
    rw [isStack]
    rfl
  | false =>
    obtain ⟨sm, stack, status⟩ := world
    obtain rfl : stack = frames := isStack
    exact ⟨[], rfl⟩

theorem exitLoop_run {world : World} {target : Nat} {frames : List Frame} {after : List Call}
    (isTable : world.sm.stateInfo = table) (isStack : world.stack = .exiting state target :: frames)
    (done : exitLoop table rounds state calls = some after) :
    ∃ acts, world.run acts = some { world with stack := .entering target target :: frames } := by
  induction rounds generalizing state calls world with
  | zero => cases done
  | succ rounds ih =>
    unfold exitLoop at done
    split at done
    case isTrue isNone =>
      refine ⟨[.resume], Option.bind_eq_some_iff.mpr ⟨_, ?_, rfl⟩⟩
      show world.resume = _
      unfold World.resume
      rw [isStack]
      exact if_pos isNone
    case isFalse isSome =>
      obtain ⟨info, isInfo, done⟩ := Option.bind_eq_some_iff.mp done
      rw [← isTable] at isInfo
      have isNext : world.step .resume = some { world with
          stack := if info.smExit then .routine :: .exiting info.parentState target :: frames
            else .exiting info.parentState target :: frames } := by
        show world.resume = _
        unfold World.resume
        rw [isStack]
        dsimp only
        rw [if_neg isSome, isInfo]
        rfl
      obtain ⟨acts, ran⟩ := World.run_routine info.smExit (by rfl : World.stack { world with
        stack := if info.smExit then .routine :: .exiting info.parentState target :: frames
          else .exiting info.parentState target :: frames } = _)
      obtain ⟨more, further⟩ := @ih info.parentState (.exit state :: calls)
        { world with stack := .exiting info.parentState target :: frames } isTable rfl done
      refine ⟨.resume :: (acts ++ more), Option.bind_eq_some_iff.mpr ⟨_, isNext, ?_⟩⟩
      rw [World.run_append ran]
      exact further

theorem entryLoop_run {world : World} {target : Nat} {frames : List Frame} {after : Sm × List Call}
    (isStack : world.stack = .entering state target :: frames)
    (done : entryLoop rounds state (world.sm, calls) = some after) :
    ∃ acts, world.run acts = some { world with
      sm := { after.1 with inStateTransition := false }, stack := frames } := by
  induction rounds generalizing state calls world with
  | zero => cases done
  | succ rounds ih =>
    unfold entryLoop at done
    split at done
    case isTrue isNone =>
      obtain rfl := Option.some.inj done
      refine ⟨[.resume], Option.bind_eq_some_iff.mpr ⟨_, ?_, rfl⟩⟩
      show world.resume = _
      unfold World.resume
      rw [isStack]
      exact if_pos isNone
    case isFalse isSome =>
      obtain ⟨info, isInfo, done⟩ := Option.bind_eq_some_iff.mp done
      obtain ⟨next, isNext, done⟩ := Option.bind_eq_some_iff.mp done
      have isEntry : world.step .resume = some { world with
          stack := if info.smEntry then .routine :: .entered state target :: frames
            else .entered state target :: frames } := by
        show world.resume = _
        unfold World.resume
        rw [isStack]
        dsimp only
        rw [if_neg isSome, isInfo]
        rfl
      have isEntered : World.step { world with stack := .entered state target :: frames } .resume =
          some { world with
                 sm := { world.sm with curState := state },
                 stack := .entering next target :: frames } := by
        unfold World.step World.resume
        dsimp only
        rw [isInfo, Option.bind_eq_bind, Option.bind_some, isNext]
        rfl
      obtain ⟨acts, ran⟩ := World.run_routine info.smEntry (by rfl : World.stack { world with
        stack := if info.smEntry then .routine :: .entered state target :: frames
          else .entered state target :: frames } = _)
      obtain ⟨more, further⟩ := @ih _ _ { world with
        sm := { world.sm with curState := state }, stack :=
          .entering next target :: frames } rfl done
      refine ⟨.resume :: (acts ++ .resume :: more), Option.bind_eq_some_iff.mpr ⟨_, isEntry, ?_⟩⟩
      rw [World.run_append ran]
      exact Option.bind_eq_some_iff.mpr ⟨_, isEntered, further⟩

/-- **A transition that ends is one of the runs** in which anything may be called at any time. -/
theorem Sm.Idle.run {world : World} {after : Sm × List Call} (few : table.length ≤ maxStates)
    (idle : world.sm.Idle table) (callable : world.callable = true) (inTable : state < table.length)
    (done : world.sm.transition rounds calls state = some after) :
    ∃ acts, world.run (.transitionTo state :: acts) = some { world with sm := after.1 } := by
  unfold Sm.transition at done
  rw [idle.flag, if_neg Bool.false_ne_true] at done
  dsimp only at done
  rw [if_pos (idle.valid few inTable)] at done
  obtain ⟨old, isOld, done⟩ := Option.bind_eq_some_iff.mp done
  obtain ⟨new, isNew, done⟩ := Option.bind_eq_some_iff.mp done
  obtain ⟨oldName, isOldName, done⟩ := Option.bind_eq_some_iff.mp done
  obtain ⟨newName, isNewName, done⟩ := Option.bind_eq_some_iff.mp done
  obtain ⟨exited, isExited, done⟩ := Option.bind_eq_some_iff.mp done
  obtain ⟨entered, isEntered, done⟩ := Option.bind_eq_some_iff.mp done
  obtain rfl := Option.some.inj done
  have begins : world.step (.transitionTo state) = some { world with
      sm := { world.sm with inStateTransition := true }
      stack := .exiting world.sm.curState state :: world.stack } := by
    show (if world.callable then world.transitionTo state else none) = _
    rw [if_pos callable]
    unfold World.transitionTo
    rw [idle.flag, if_neg Bool.false_ne_true]
    dsimp only
    rw [if_pos (idle.valid few inTable), isOld, isNew]
    simp only [Option.bind_eq_bind, Option.bind_some]
    rw [isOldName, isNewName]
    rfl
  obtain ⟨acts, ran⟩ := @exitLoop_run world.sm.stateInfo world.sm.curState rounds calls { world with
    sm := { world.sm with inStateTransition := true }
    stack := .exiting world.sm.curState state :: world.stack } state world.stack exited rfl
      rfl isExited
  obtain ⟨more, further⟩ := @entryLoop_run state rounds exited { world with
    sm := { world.sm with inStateTransition := true }, stack :=
      .entering state state :: world.stack } state
      world.stack entered rfl isEntered
  refine ⟨acts ++ more, Option.bind_eq_some_iff.mpr ⟨_, begins, ?_⟩⟩
  rw [World.run_append ran]
  exact further

/-! ### Runs -/

/-- A transition opens what it enters, beside what was open and is not left. -/
theorem Moved.opened {sm : Sm} {after : Sm × List Call} {exits entries : List Nat}
    (moved : Moved table sm calls state after exits entries) :
    Opened other after.2 ↔ Leads table StateInfo.initialSubstate state other ∨
      (¬ Leads table StateInfo.parentState sm.curState other ∧ Opened other calls) := by
  rw [moved.isCalls, opened_entries, opened_exits, moved.entered, moved.exited]

/-- **Only the entered states are open**, where only the current state and its ancestors were. -/
theorem Moved.opened_of {sm : Sm} {after : Sm × List Call} {exits entries : List Nat}
    (moved : Moved table sm calls state after exits entries)
    (were : Opened other calls → Leads table StateInfo.parentState sm.curState other) :
    Opened other after.2 ↔ Leads table StateInfo.initialSubstate state other :=
  moved.opened.trans (or_iff_left fun isLeft => isLeft.1 (were isLeft.2))

/-- A transition to a state that fits, with nothing open but what it leaves. -/
theorem Moved.respects {sm : Sm} {first after : Sm × List Call} {exits entries : List Nat}
    (fits : Fits table state) (moved : Moved table sm calls state after exits entries)
    (were : ∀ other, Opened other calls → Leads table StateInfo.parentState sm.curState other)
    (balanced : ∃ calls, after.2 = calls ++ first.2 ∧ Balanced first.2 calls) :
        Respects table first after :=
  ⟨moved.innermost.leaf, fun other => (moved.opened_of (were other)).trans
    (fits.mirrored after.1.curState moved.innermost other), balanced⟩

/-- **One more transition.** -/
theorem Respects.moved {first between after : Sm × List Call} {exits entries : List Nat}
    (respects : Respects table first between) (fits : Fits table state)
    (moved : Moved table between.1 between.2 state after exits entries) :
        Respects table first after := by
  obtain ⟨older, isOlder, balanced⟩ := respects.balanced
  refine moved.respects fits (fun other => (respects.entered other).mp) ?_
  refine ⟨entries.map Call.entry ++ (exits.map Call.exit ++ older), ?_, ?_⟩
  · rw [moved.isCalls, isOlder, List.append_assoc, List.append_assoc]
  · refine balanced_append.mpr ⟨balanced_entries, balanced_append.mpr ⟨?_, balanced⟩⟩
    rw [← isOlder]
    exact balanced_exits moved.nodup fun other member =>
      (respects.entered other).mpr ((moved.exited other).mp member)

/-- **All further transitions.** -/
theorem Respects.run {rest : List Nat} {first between : Sm × List Call}
    (few : table.length ≤ maxStates) (parents : ∀ state < table.length,
      Ends table StateInfo.parentState state)
    (respects : Respects table first between) (idle : between.1.Idle table)
    (fits : ∀ state ∈ rest, Fits table state) (inTable : ∀ state ∈ rest, state < table.length) :
    ∃ rounds last, transitions rounds rest between = some last ∧ Respects table first last := by
  induction rest generalizing between with
  | nil => exact ⟨0, between, rfl, respects⟩
  | cons state rest ih =>
    have isFit := fits state List.mem_cons_self
    have isIn := inTable state List.mem_cons_self
    obtain ⟨info, isInfo, _⟩ := respects.leaf
    obtain ⟨rounds, ends⟩ := idle.ends few parents (lt_of_getElem? isInfo) isFit.ends isIn
    obtain ⟨after, isAfter⟩ := ends between.2
    obtain ⟨exits, entries, moved⟩ := idle.moved few isIn isAfter
    obtain ⟨more, last, isLast, respects⟩ := ih (respects.moved isFit moved) moved.idle
      (fun state member => fits state (List.mem_cons_of_mem _ member))
      (fun state member => inTable state (List.mem_cons_of_mem _ member))
    have isLast' := transitions_mono isLast rounds
    rw [Nat.add_comm] at isLast'
    exact ⟨rounds + more, last,
      Option.bind_eq_some_iff.mpr ⟨after, Sm.transition_mono isAfter more, isLast'⟩, respects⟩

/-- **Targets that fit** are enough. -/
theorem respected_of_fits {start : Sm} {target : Nat} {rest : List Nat}
    (few : table.length ≤ maxStates) (parents : ∀ state < table.length,
      Ends table StateInfo.parentState state) (idle : start.Idle table)
    (current : start.curState < table.length) (fit : Fits table target)
    (isIn : target < table.length) (fits : ∀ state ∈ rest, Fits table state)
    (inTable : ∀ state ∈ rest, state < table.length) :
    Respected table start target rest := by
  obtain ⟨rounds, ends⟩ := idle.ends few parents current fit.ends isIn
  obtain ⟨first, isFirst⟩ := ends []
  obtain ⟨exits, entries, moved⟩ := idle.moved few isIn isFirst
  have respects : Respects table first first :=
    moved.respects fit (fun _ => False.elim) ⟨[], rfl, trivial⟩
  obtain ⟨more, last, isLast, respects⟩ := respects.run few parents moved.idle fits inTable
  have isLast' := transitions_mono isLast rounds
  rw [Nat.add_comm] at isLast'
  exact ⟨rounds + more, first, last, Sm.transition_mono isFirst more, isLast', respects⟩

/-- A transition after which the hierarchy is respected, and before which it was. -/
theorem Moved.fits {sm : Sm} {first after : Sm × List Call} {exits entries : List Nat}
    (moved : Moved table sm calls state after exits entries)
    (were : ∀ other, Opened other calls → Leads table StateInfo.parentState sm.curState other)
    (respects : Respects table first after) : Fits table state := by
  refine ⟨moved.ends, fun inner innermost other => ?_⟩
  rw [innermost.unique moved.innermost, ← respects.entered other]
  exact (moved.opened_of (were other)).symm

/-- What is known of the machine after some transitions. -/
theorem transitions_idle {rest : List Nat} {machine last : Sm × List Call}
    (few : table.length ≤ maxStates) (idle : machine.1.Idle table)
    (inTable : ∀ state ∈ rest, state < table.length)
    (done : transitions rounds rest machine = some last) : last.1.Idle table := by
  induction rest generalizing machine with
  | nil => exact Option.some.inj done ▸ idle
  | cons state rest ih =>
    obtain ⟨between, isBetween, done⟩ := Option.bind_eq_some_iff.mp done
    obtain ⟨_, _, moved⟩ := idle.moved few (inTable state List.mem_cons_self) isBetween
    exact ih moved.idle (fun state member => inTable state (List.mem_cons_of_mem _ member)) done

theorem Respected.first {start : Sm} {target : Nat} (few : table.length ≤ maxStates)
    (idle : start.Idle table) (isIn : target < table.length)
    (respected : Respected table start target []) :
    start.curState < table.length ∧ Fits table target := by
  obtain ⟨rounds, first, last, isFirst, isLast, respects⟩ := respected
  obtain rfl := Option.some.inj isLast
  obtain ⟨_, _, moved⟩ := idle.moved few isIn isFirst
  exact ⟨moved.current, moved.fits (fun _ => False.elim) respects⟩

theorem Respected.fits {start : Sm} {target : Nat} {rest : List Nat}
    (few : table.length ≤ maxStates) (idle : start.Idle table) (isIn : target < table.length)
    (inTable : ∀ state ∈ rest, state < table.length) (stateIn : state < table.length)
    (before : Respected table start target rest)
    (after : Respected table start target (rest ++ [state])) : Fits table state := by
  obtain ⟨rounds, first, between, isFirst, isBetween, respects⟩ := before
  obtain ⟨more, first', last, isFirst', isLast, respects'⟩ := after
  obtain ⟨between', isBetween', isLast⟩ := transitions_append.mp isLast
  -- the two runs are the same, for the larger number of rounds
  have first_eq := Sm.transition_mono isFirst more
  have first_eq' := Sm.transition_mono isFirst' rounds
  rw [Nat.add_comm, first_eq] at first_eq'
  obtain rfl := Option.some.inj first_eq'
  have between_eq := transitions_mono isBetween more
  have between_eq' := transitions_mono isBetween' rounds
  rw [Nat.add_comm, between_eq] at between_eq'
  obtain rfl := Option.some.inj between_eq'
  obtain ⟨_, _, movedFirst⟩ := idle.moved few isIn isFirst
  have idleBetween := transitions_idle few movedFirst.idle inTable isBetween
  obtain ⟨_, _, moved⟩ := idleBetween.moved few stateIn isLast
  exact moved.fits (fun other => (respects.entered other).mp) respects'

theorem create_idle {initState : Nat} {start : Sm} (created : create initState table = some start) :
    table.length ≤ maxStates ∧ start.Idle table ∧ start.curState = initState ∧
      ∀ state < table.length, Ends table StateInfo.parentState state := by
  obtain ⟨rfl, few⟩ := create_eq created
  exact ⟨few, ⟨rfl, rfl⟩, rfl, fun state inTable => create_parents created inTable⟩

/-- **When the hierarchy is respected.** -/
theorem respected_iff {initState : Nat} {start : Sm} (created : create initState table = some start)
    {target : Nat} {rest : List Nat} (inTable : ∀ state ∈ target :: rest, state < table.length) :
    (∀ done, done <+: rest → Respected table start target done) ↔
      initState < table.length ∧ ∀ state ∈ target :: rest, Fits table state := by
  obtain ⟨few, idle, rfl, parents⟩ := create_idle created
  have isIn := inTable target List.mem_cons_self
  have restIn : ∀ state ∈ rest, state < table.length := fun state member =>
    inTable state (List.mem_cons_of_mem _ member)
  constructor
  · intro respected
    obtain ⟨current, fit⟩ := (respected [] List.nil_prefix).first few idle isIn
    refine ⟨current, fun state member => ?_⟩
    rcases List.mem_cons.mp member with rfl | member
    · exact fit
    · obtain ⟨earlier, later, rfl⟩ := List.append_of_mem member
      have earlierIn : ∀ state ∈ earlier, state < table.length := fun state member =>
        restIn state (List.mem_append_left _ member)
      refine Respected.fits few idle isIn earlierIn (restIn state member)
        (respected earlier (List.prefix_append _ _)) (respected (earlier ++ [state]) ?_)
      exact ⟨later, by rw [List.append_assoc]; rfl⟩
  · rintro ⟨current, fits⟩ done ⟨later, rfl⟩
    have member : ∀ state ∈ done, state ∈ target :: (done ++ later) := fun state member =>
      List.mem_cons_of_mem _ (List.mem_append_left _ member)
    exact respected_of_fits few parents idle current (fits target List.mem_cons_self) isIn
      (fun state isDone => fits state (member state isDone)) fun state isDone =>
      inTable state (member state isDone)

/-- A superstate with an initial substate and another one. -/
def threeStates : Table :=
  [⟨0, stateNone, 1, true, true, true⟩, ⟨1, 0, stateNone, false, true, true⟩,
    ⟨2, 0, stateNone, false, true, true⟩]

theorem threeStates_fits : Fits threeStates 0 := by
  have top : threeStates[0]? = some ⟨0, stateNone, 1, true, true, true⟩ := rfl
  have below : threeStates[1]? = some ⟨1, 0, stateNone, false, true, true⟩ := rfl
  refine ⟨.step top (.step below .none), fun inner innermost state => ?_⟩
  obtain rfl := innermost.unique (.within top (by decide) (.here below rfl))
  have none : ∀ next state, ¬ Leads threeStates next stateNone state :=
    fun next state => not_leads_none (by decide)
  constructor
  · intro leads
    cases leads with
    | here _ => exact .step below (.here top)
    | step isTop leads =>
      obtain rfl := Option.some.inj (top.symm.trans isTop)
      cases leads with
      | here _ => exact .here below
      | step isBelow leads =>
        obtain rfl := Option.some.inj (below.symm.trans isBelow)
        exact absurd leads (none _ _)
  · intro leads
    cases leads with
    | here _ => exact .step top (.here below)
    | step isBelow leads =>
      obtain rfl := Option.some.inj (below.symm.trans isBelow)
      cases leads with
      | here _ => exact .here top
      | step isTop leads =>
        obtain rfl := Option.some.inj (top.symm.trans isTop)
        exact absurd leads (none _ _)

theorem threeStates_respected : Respected threeStates ⟨0, threeStates, eventNone, false⟩ 0 [0] :=
  (respected_iff (by decide : create 0 threeStates = some ⟨0, threeStates, eventNone, false⟩)
    (by decide)).mpr
    ⟨by decide, fun state member => by
      obtain rfl : state = 0 := by simpa using member
      exact threeStates_fits⟩ [0] List.prefix_rfl

/-- The other substate as a target: its superstate is not entered, and yet left. -/
theorem not_respected : create 0 threeStates = some ⟨0, threeStates, eventNone, false⟩ ∧
    ¬ Respected threeStates ⟨0, threeStates, eventNone, false⟩ 2 [] := by
  refine ⟨by decide, fun respected => ?_⟩
  have other : threeStates[2]? = some ⟨2, 0, stateNone, false, true, true⟩ := rfl
  have fits := (respected.first (by decide) ⟨rfl, rfl⟩ (by decide)).2
  have leads := (fits.mirrored 2 (.here other rfl) 0).mpr (.step other (.here rfl))
  cases leads with
  | step isOther leads =>
    obtain rfl := Option.some.inj (other.symm.trans isOther)
    exact not_leads_none (by decide) leads

end Qsdk.SmEngine
