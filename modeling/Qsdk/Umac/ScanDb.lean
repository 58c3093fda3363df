/-
**The scan cache.**

A node of the cache (`struct scan_cache_node`) is deleted in two steps: its cookie is cleared, and
it is unlinked and freed when its last reference is given back. The hash lists are one list here, of
which a bucket is the part with that hash. Each operation is what one section under `scan_db_lock`
does with nodes; it has no result when it would touch a node that is freed.

`ScanDb.Exact` is the accounting: every linked node's count is the number of references that are
held, and one for the cookie. Each section keeps it as long as it is called with references that are
held.
-/

import Qsdk.Lib.First
import Mathlib.Data.List.Nodup
import Mathlib.Data.List.Range
import Mathlib.Data.List.Perm.Basic

set_option linter.unusedSectionVars false

namespace Qsdk.ScanCache

/-- `struct scan_cache_node`. The cookie is `SCAN_NODE_ACTIVE_COOKIE` or cleared. -/
structure Node (Entry : Type) where
  id : Nat
  entry : Entry
  refCnt : Nat
  active : Bool
deriving DecidableEq

/-- `struct scan_dbs`, and which nodes have been freed. Nodes are numbered as they are allocated. -/
structure ScanDb (Entry : Type) where
  nodes : List (Node Entry)
  numEntries : Nat
  freed : List Nat
  nextId : Nat
deriving DecidableEq

variable {Entry : Type}

namespace ScanDb

/-- The linked node. -/
def find (db : ScanDb Entry) (id : Nat) : Option (Node Entry) :=
    db.nodes.find? fun node => decide (node.id = id)

/-- A change of a linked node. -/
def onNode (db : ScanDb Entry) (id : Nat) (change : Node Entry → Node Entry) : ScanDb Entry :=
  { db with nodes := First.modify (fun node => decide (node.id = id)) change db.nodes }

/-- `scm_del_scan_node_from_db`. -/
def delScanNodeFromDb (db : ScanDb Entry) (id : Nat) : ScanDb Entry :=
  { db with
    nodes := db.nodes.eraseP fun node => decide (node.id = id)
    numEntries := db.numEntries - 1
    freed := id :: db.freed }

/-- `scm_scan_entry_get_ref`. -/
def getRef (db : ScanDb Entry) (id : Nat) : Option (ScanDb Entry) :=
  match db.find id with
  | none => none
  | some _ => some (db.onNode id fun node => { node with refCnt := node.refCnt + 1 })

/-- `scm_scan_entry_put_ref`. -/
def putRef (db : ScanDb Entry) (id : Nat) : Option (ScanDb Entry) :=
  match db.find id with
  | none => none
  | some node =>
    if node.refCnt = 0 then some db
    else if node.refCnt - 1 = 0 then some (db.delScanNodeFromDb id)
    else some (db.onNode id fun node => { node with refCnt := node.refCnt - 1 })

/-- `scm_scan_entry_del`. -/
def entryDel (db : ScanDb Entry) (id : Nat) : Option (ScanDb Entry) :=
  match db.find id with
  | none => none
  | some node =>
    if node.active = false then some db
    else if node.refCnt = 0 then some db
    else (db.onNode id fun node => { node with active := false }).putRef id

/-- `qdf_list_insert_before`. -/
def insertBefore (id : Nat) (node : Node Entry) : List (Node Entry) → List (Node Entry)
  | [] => []
  | other :: nodes => if other.id = id then node :: other :: nodes else other ::
    insertBefore id node nodes

/-- `scm_add_scan_node`. -/
def addScanNode (db : ScanDb Entry) (entry : Entry) (dup : Option Nat) : Option (ScanDb Entry) :=
  let node : Node Entry := ⟨db.nextId, entry, 1, true⟩
  match dup with
  | none => some { db with
      nodes := db.nodes ++ [node]
      numEntries := db.numEntries + 1
      nextId := db.nextId + 1 }
  | some dup =>
    match db.find dup with
    | none => none
    | some _ => some { db with
        nodes := insertBefore dup node db.nodes
        numEntries := db.numEntries + 1
        nextId := db.nextId + 1 }

/-- `scm_get_next_valid_node`: the first active node of the bucket, behind the node if there is
one. -/
def getNextValidNode (db : ScanDb Entry) (hash : Entry → Nat) (bucket : Nat) (cur : Option Nat) :
    Option (Node Entry) :=
  let behind := match cur with
    | none => db.nodes
    | some cur => (db.nodes.dropWhile fun node : Node Entry => decide (node.id ≠ cur)).tail
  behind.find? fun node : Node Entry => node.active && decide (hash node.entry = bucket)

/-- The reference on the node is given back, if there is one. -/
def putRefIf (db : ScanDb Entry) : Option Nat → Option (ScanDb Entry)
  | none => some db
  | some id => db.putRef id

/-- `scm_get_next_node`: the reference on the node is given back, and one on the next taken. -/
def getNextNode (db : ScanDb Entry) (hash : Entry → Nat) (bucket : Nat) (cur : Option Nat) :
    Option (ScanDb Entry × Option Nat) :=
  (db.putRefIf cur).bind fun db' =>
    match db.getNextValidNode hash bucket cur with
    | none => some (db', none)
    | some node => (db'.getRef node.id).map fun db' => (db', some node.id)

/-! ### Accounting -/

/-- **The accounting of the cache** with these references held. -/
structure Exact (db : ScanDb Entry) (refs : List Nat) : Prop where
  numEntries : db.numEntries = db.nodes.length
  refCnt : ∀ node ∈ db.nodes, node.refCnt = refs.count node.id + if node.active then 1 else 0
  positive : ∀ node ∈ db.nodes, 0 < node.refCnt
  held : ∀ id ∈ refs, id ∈ db.nodes.map (·.id)
  once : (db.nodes.map (·.id) ++ db.freed).Perm (List.range db.nextId)

variable {db : ScanDb Entry} {refs rest : List Nat} {id : Nat} {node changed : Node Entry}
  {front back : List (Node Entry)}

theorem Exact.nodup (exact : db.Exact refs) : (db.nodes.map (·.id) ++ db.freed).Nodup :=
  exact.once.nodup_iff.mpr List.nodup_range

theorem Exact.perm {refs' : List Nat} (exact : db.Exact refs) (same : refs.Perm refs') :
    db.Exact refs' :=
  ⟨exact.numEntries, fun node member => (same.count_eq node.id) ▸ exact.refCnt node member,
    exact.positive,
    fun id held => exact.held id (same.mem_iff.mpr held), exact.once⟩

/-- A linked node, and the list around it. -/
theorem Exact.split (exact : db.Exact refs) (linked : id ∈ db.nodes.map (·.id)) :
    ∃ front node back, db.nodes = front ++ node :: back ∧ node.id = id ∧
    (∀ other ∈ front, other.id ≠ id) ∧
      ∀ other ∈ back, other.id ≠ id := by
  obtain ⟨node, member, isId⟩ := List.mem_map.mp linked
  obtain ⟨front, back, isNodes⟩ := List.append_of_mem member
  have ids := (List.nodup_append.mp exact.nodup).1
  rw [isNodes, List.map_append, List.map_cons] at ids
  obtain ⟨_, inBack, apart⟩ := List.nodup_append.mp ids
  refine ⟨front, node, back, isNodes, isId, fun other listed same => ?_,
    fun other listed same => ?_⟩
  · exact apart other.id (List.mem_map_of_mem listed) node.id List.mem_cons_self
      (same.trans isId.symm)
  · exact (List.nodup_cons.mp inBack).1 (List.mem_map.mpr ⟨other, listed, same.trans isId.symm⟩)

theorem find_eq (isNodes : db.nodes = front ++ node :: back) (isId : node.id = id)
    (before : ∀ other ∈ front, other.id ≠ id) : db.find id = some node := by
  unfold find
  rw [isNodes]
  exact First.find_append (by simpa using before) (by simpa using isId)

theorem onNode_nodes (isNodes : db.nodes = front ++ node :: back) (isId : node.id = id)
    (before : ∀ other ∈ front, other.id ≠ id) (change : Node Entry → Node Entry) :
    (db.onNode id change).nodes = front ++ change node :: back := by
  unfold onNode
  dsimp only
  rw [isNodes, First.modify_append (by simpa using before) (by simpa using isId)]

theorem mem_split {other : Node Entry} (member : other ∈ front ++ node :: back) :
    other = node ∨ other ∈ front ++ back := by
  rcases List.mem_append.mp member with inFront | rest
  · exact .inr (List.mem_append_left _ inFront)
  · rcases List.mem_cons.mp rest with same | inBack
    · exact .inl same
    · exact .inr (List.mem_append_right _ inBack)

theorem mem_of_others {other : Node Entry} (isNodes : db.nodes = front ++ node :: back)
    (listed : other ∈ front ++ back) :
    other ∈ db.nodes := by
  rw [isNodes]
  exact (List.mem_append.mp listed).elim (List.mem_append_left _) fun inBack =>
    List.mem_append_right _ (List.mem_cons_of_mem _ inBack)

/-- **A node changes, and the references on it.** -/
theorem Exact.replaced (exact : db.Exact refs) (isNodes : db.nodes = front ++ node :: back)
    (isId : node.id = id) (before : ∀ other ∈ front, other.id ≠ id)
    (behind : ∀ other ∈ back, other.id ≠ id) {change : Node Entry → Node Entry} {refs' : List Nat}
    (sameId : (change node).id = node.id)
    (refCnt : (change node).refCnt = refs'.count id + if (change node).active then 1 else 0)
    (positive : 0 < (change node).refCnt) (others : ∀ other, other ≠ id →
        refs'.count other = refs.count other) :
    (db.onNode id change).Exact refs' := by
  have nodes := onNode_nodes isNodes isId before change
  have ids : (db.onNode id change).nodes.map (·.id) = db.nodes.map (·.id) := by
    rw [nodes, isNodes, List.map_append, List.map_append, List.map_cons, List.map_cons, sameId]
  have apart : ∀ other ∈ front ++ back, other.id ≠ id := List.forall_mem_append.mpr ⟨before, behind⟩
  have old : ∀ other ∈ front ++ back, other ∈ db.nodes := fun _ => mem_of_others isNodes
  refine ⟨?_, fun other member => ?_, fun other member => ?_, fun other held => ?_,
    ids ▸ exact.once⟩
  · have lengths := congrArg List.length ids
    rw [List.length_map, List.length_map] at lengths
    rw [lengths]
    exact exact.numEntries
  · rcases mem_split (nodes ▸ member) with rfl | listed
    · rw [sameId, isId]
      exact refCnt
    · rw [others other.id (apart other listed)]
      exact exact.refCnt other (old other listed)
  · rcases mem_split (nodes ▸ member) with rfl | listed
    · exact positive
    · exact exact.positive other (old other listed)
  · rw [ids]
    by_cases same : other = id
    · rw [same, isNodes, ← isId]
      exact List.mem_map_of_mem (List.mem_append_right _ List.mem_cons_self)
    · refine exact.held other (List.count_pos_iff.mp ?_)
      rw [← others other same]
      exact List.count_pos_iff.mpr held

/-- **A node without references is unlinked and freed.** -/
theorem Exact.unlinked (exact : db.Exact refs) (isNodes : db.nodes = front ++ node :: back)
    (isId : node.id = id) (before : ∀ other ∈ front, other.id ≠ id)
    (behind : ∀ other ∈ back, other.id ≠ id) {refs' : List Nat} (unheld : refs'.count id = 0)
    (others : ∀ other, other ≠ id → refs'.count other = refs.count other) :
    (db.delScanNodeFromDb id).Exact refs' := by
  have nodes : (db.delScanNodeFromDb id).nodes = front ++ back := by
    unfold delScanNodeFromDb
    dsimp only
    rw [isNodes]
    exact First.eraseP_append (by simpa using before) (by simpa using isId)
  have apart : ∀ other ∈ front ++ back, other.id ≠ id := List.forall_mem_append.mpr ⟨before, behind⟩
  have old : ∀ other ∈ front ++ back, other ∈ db.nodes := fun _ => mem_of_others isNodes
  refine ⟨?_, fun other member => ?_, fun other member => ?_, fun other held => ?_, ?_⟩
  · rw [nodes]
    show db.numEntries - 1 = _
    rw [exact.numEntries, isNodes]
    simp only [List.length_append, List.length_cons]
    omega
  · rw [nodes] at member
    rw [others other.id (apart other member)]
    exact exact.refCnt other (old other member)
  · rw [nodes] at member
    exact exact.positive other (old other member)
  · have isOther : other ≠ id := fun same => absurd (List.count_pos_iff.mpr held)
      (by rw [same]; omega)
    have linked :=
      exact.held other (List.count_pos_iff.mp (others other isOther ▸ List.count_pos_iff.mpr held))
    rw [isNodes] at linked
    rw [nodes]
    obtain ⟨holder, member, isHolder⟩ := List.mem_map.mp linked
    rcases mem_split member with rfl | listed
    · exact absurd (isHolder.symm.trans isId) isOther
    · exact List.mem_map.mpr ⟨holder, listed, isHolder⟩
  · have once := exact.once
    rw [isNodes, List.map_append, List.map_cons, isId] at once
    rw [nodes, List.map_append]
    show (front.map (·.id) ++ back.map (·.id) ++ id :: db.freed).Perm (List.range db.nextId)
    refine List.Perm.trans ?_ once
    refine List.perm_middle.trans ?_
    rw [List.append_assoc, List.append_assoc, List.cons_append]
    exact List.perm_middle.symm

/-! ### Sections -/

/-- A linked node whose cookie is set. -/
def IsActive (db : ScanDb Entry) (id : Nat) : Prop := ∃ node ∈ db.nodes, node.id = id ∧
    node.active = true

theorem IsActive.linked (isActive : db.IsActive id) : id ∈ db.nodes.map (·.id) := by
  obtain ⟨node, member, isId, _⟩ := isActive
  exact List.mem_map.mpr ⟨node, member, isId⟩

/-- A change that leaves ids and cookies alone. -/
theorem IsActive.onNode {other : Nat} (isActive : db.IsActive other)
    {change : Node Entry → Node Entry} (sameId : ∀ node, (change node).id = node.id)
    (sameCookie : ∀ node, (change node).active = node.active) :
    (db.onNode id change).IsActive other := by
  obtain ⟨node, member, isId, active⟩ := isActive
  rcases First.mem_modify_of_mem (p := fun node : Node Entry => decide (node.id = id)) change member
    with same | ⟨_, changed⟩
  · exact ⟨node, same, isId, active⟩
  · exact ⟨change node, changed, (sameId node).trans isId, (sameCookie node).trans active⟩

theorem Exact.getRef (exact : db.Exact refs) (linked : id ∈ db.nodes.map (·.id)) :
    ∃ db', db.getRef id = some db' ∧ db'.Exact (id :: refs) ∧ ∀ other, db.IsActive other →
        db'.IsActive other := by
  obtain ⟨front, node, back, isNodes, isId, before, behind⟩ := exact.split linked
  have member : node ∈ db.nodes := isNodes ▸ List.mem_append_right _ List.mem_cons_self
  have refCnt := exact.refCnt node member
  unfold ScanDb.getRef
  rw [find_eq isNodes isId before]
  refine ⟨_, rfl, exact.replaced isNodes isId before behind rfl ?_
    (Nat.succ_pos _) fun other isOther => ?_,
    fun other isActive => isActive.onNode (fun _ => rfl) fun _ => rfl⟩
  · rw [isId] at refCnt
    rw [List.count_cons_self]
    dsimp only
    omega
  · exact List.count_cons_of_ne (Ne.symm isOther)

/-- **A reference that is held is given back**; the node goes with the last one, and then its cookie
is cleared. -/
theorem Exact.putRef (exact : db.Exact (id :: refs)) :
    ∃ db', db.putRef id = some db' ∧ db'.Exact refs ∧ ∀ other, db.IsActive other →
        db'.IsActive other := by
  obtain ⟨front, node, back, isNodes, isId, before, behind⟩ :=
    exact.split (exact.held id List.mem_cons_self)
  have member : node ∈ db.nodes := isNodes ▸ List.mem_append_right _ List.mem_cons_self
  have refCnt := exact.refCnt node member
  rw [isId, List.count_cons_self] at refCnt
  have others : ∀ other, other ≠ id → refs.count other = (id :: refs).count other :=
    fun other isOther => (List.count_cons_of_ne (Ne.symm isOther)).symm
  unfold ScanDb.putRef
  rw [find_eq isNodes isId before]
  dsimp only
  rw [if_neg (by omega)]
  split
  · rename_i last
    refine ⟨_, rfl, exact.unlinked isNodes isId before behind (by omega) others, ?_⟩
    rintro other ⟨holder, listed, isOther, active⟩
    refine ⟨holder, ?_, isOther, active⟩
    have differs : ¬ decide (holder.id = id) = true := by
      intro same
      have cookie : holder.active = false := by
        rw [isNodes] at listed
        rcases mem_split listed with rfl | listed
        · cases cookie : holder.active with
          | false => rfl
          | true =>
            rw [cookie] at refCnt
            simp only [if_true] at refCnt
            omega
        · exact absurd (of_decide_eq_true same)
            ((List.mem_append.mp listed).elim (before holder) (behind holder))
      rw [cookie] at active
      cases active
    exact (List.mem_eraseP_of_neg (p := fun node : Node Entry => decide (node.id = id)) differs).mpr
      listed
  · rename_i more
    refine ⟨_, rfl, exact.replaced isNodes isId before behind rfl ?_
      (Nat.pos_of_ne_zero more) others,
      fun other isActive => isActive.onNode (fun _ => rfl) fun _ => rfl⟩
    dsimp only
    omega

/-- Without its cookie, a node is held by whoever has cleared it. -/
theorem Exact.cleared (exact : db.Exact refs) (isNodes : db.nodes = front ++ node :: back)
    (isId : node.id = id) (before : ∀ other ∈ front, other.id ≠ id)
    (behind : ∀ other ∈ back, other.id ≠ id) (active : node.active = true) :
    (db.onNode id fun node => { node with active := false }).Exact (id :: refs) := by
  have member : node ∈ db.nodes := isNodes ▸ List.mem_append_right _ List.mem_cons_self
  have refCnt := exact.refCnt node member
  refine exact.replaced isNodes isId before behind rfl ?_
    (exact.positive node member) fun other isOther => ?_
  · rw [isId, if_pos active] at refCnt
    rw [List.count_cons_self]
    exact refCnt
  · exact List.count_cons_of_ne (Ne.symm isOther)

/-- **A node is deleted**: its cookie's reference goes to the caller, who gives it back. -/
theorem Exact.entryDel (exact : db.Exact refs) (linked : id ∈ db.nodes.map (·.id)) :
    ∃ db', db.entryDel id = some db' ∧ db'.Exact refs := by
  obtain ⟨front, node, back, isNodes, isId, before, behind⟩ := exact.split linked
  have positive := exact.positive node (isNodes ▸ List.mem_append_right _ List.mem_cons_self)
  unfold ScanDb.entryDel
  rw [find_eq isNodes isId before]
  dsimp only
  split
  · exact ⟨db, rfl, exact⟩
  · rename_i active
    rw [if_neg (by omega)]
    obtain ⟨db', given, kept, _⟩ :=
      (exact.cleared isNodes isId before behind (by simpa using active)).putRef
    exact ⟨db', given, kept⟩

theorem insertBefore_append (isId : node.id = id) (before : ∀ other ∈ front, other.id ≠ id)
    (new : Node Entry) :
    insertBefore id new (front ++ node :: back) = front ++ new :: node :: back := by
  induction front with
  | nil => exact if_pos isId
  | cons other front ih =>
    rw [List.cons_append, insertBefore, if_neg (before other List.mem_cons_self),
      ih fun other listed => before other (List.mem_cons_of_mem _ listed), List.cons_append]

/-- **A node is added.** -/
theorem Exact.addScanNode (exact : db.Exact refs) (entry : Entry) {dup : Option Nat}
    (linked : ∀ id, dup = some id → id ∈ db.nodes.map (·.id)) :
    ∃ db', db.addScanNode entry dup = some db' ∧ db'.Exact refs := by
  have added : ∀ nodes : List (Node Entry), nodes.Perm (⟨db.nextId, entry, 1, true⟩ :: db.nodes) →
      ScanDb.Exact
        { db with
          nodes := nodes, numEntries := db.numEntries + 1, nextId := db.nextId + 1 } refs := by
    intro nodes same
    have fresh : db.nextId ∉ db.nodes.map (·.id) ++ db.freed := fun old => by
      have small := exact.once.mem_iff.mp old
      rw [List.mem_range] at small
      omega
    refine ⟨?_, fun node member => ?_, fun node member => ?_, fun id held => ?_, ?_⟩
    · rw [same.length_eq, List.length_cons]
      exact congrArg (· + 1) exact.numEntries
    · rcases List.mem_cons.mp (same.mem_iff.mp member) with rfl | member
      · have unheld : refs.count db.nextId = 0 := List.count_eq_zero.mpr fun held =>
          fresh (List.mem_append_left _ (exact.held _ held))
        dsimp only
        rw [unheld]
        rfl
      · exact exact.refCnt node member
    · rcases List.mem_cons.mp (same.mem_iff.mp member) with rfl | member
      · exact Nat.one_pos
      · exact exact.positive node member
    · exact (same.map _).mem_iff.mpr (List.mem_cons_of_mem _ (exact.held id held))
    · dsimp only
      rw [List.range_succ]
      refine ((same.map (·.id)).append_right db.freed).trans ?_
      exact (exact.once.cons db.nextId).trans (List.perm_append_singleton _ _).symm
  unfold ScanDb.addScanNode
  cases dup with
  | none => exact ⟨_, rfl, added _ (List.perm_append_singleton _ _)⟩
  | some dup =>
    obtain ⟨front, node, back, isNodes, isId, before, _⟩ := exact.split (linked dup rfl)
    dsimp only
    rw [find_eq isNodes isId before]
    refine ⟨_, rfl, added _ ?_⟩
    rw [isNodes, insertBefore_append isId before]
    exact List.perm_middle

theorem getNextValidNode_isActive {hash : Entry → Nat} {bucket : Nat} {cur : Option Nat}
    (found : db.getNextValidNode hash bucket cur = some node) : db.IsActive node.id := by
  unfold ScanDb.getNextValidNode at found
  have passes := List.find?_some found
  have member : node ∈ db.nodes := by
    have listed := List.mem_of_find?_eq_some found
    cases cur with
    | none => exact listed
    | some cur => exact (List.dropWhile_sublist _).subset (List.mem_of_mem_tail listed)
  exact ⟨node, member, rfl, (Bool.and_eq_true _ _ ▸ passes).1⟩

theorem Exact.putRefIf {cur : Option Nat} (exact : db.Exact (cur.toList ++ refs)) :
    ∃ db', db.putRefIf cur = some db' ∧ db'.Exact refs ∧ ∀ other, db.IsActive other →
        db'.IsActive other := by
  cases cur with
  | none => exact ⟨db, rfl, exact, fun _ isActive => isActive⟩
  | some cur => exact Exact.putRef exact

/-- **The next node is held in place of the one before, and it is active.** -/
theorem Exact.getNextNode {hash : Entry → Nat} {bucket : Nat} {cur : Option Nat}
    (exact : db.Exact (cur.toList ++ refs)) :
    ∃ db' next, db.getNextNode hash bucket cur = some (db', next) ∧
    db'.Exact (next.toList ++ refs) ∧
      ∀ id, next = some id → db'.IsActive id := by
  obtain ⟨between, isBetween, exactBetween, stays⟩ := exact.putRefIf
  unfold ScanDb.getNextNode
  rw [isBetween, Option.bind_some]
  cases found : db.getNextValidNode hash bucket cur with
  | none => exact ⟨between, none, rfl, exactBetween, fun _ wrong => (nomatch wrong)⟩
  | some node =>
    have isActive := stays _ (getNextValidNode_isActive found)
    obtain ⟨db', got, exactGot, still⟩ := exactBetween.getRef isActive.linked
    dsimp only
    rw [got]
    exact ⟨db', some node.id, rfl, exactGot, fun id same => Option.some.inj same ▸ still _ isActive⟩

end ScanDb

end Qsdk.ScanCache
