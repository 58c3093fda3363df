/-
**The active entries of the scan cache.**

What the sections do with the nodes whose cookie is set: taking and giving back references leaves
them alone, deleting a node takes its entry out, and adding one puts it in.
-/

import Qsdk.Umac.ScanDb

set_option linter.unusedSectionVars false

namespace Qsdk.ScanCache.ScanDb

variable {Entry : Type} {db db' : ScanDb Entry} {refs : List Nat} {id : Nat} {node : Node Entry}
  {front back : List (Node Entry)}

/-- The active nodes of a list, with their entries. -/
def activeOf (nodes : List (Node Entry)) : List (Nat × Entry) :=
  (nodes.filter fun node => node.active).map fun node => (node.id, node.entry)

/-- The active entries. -/
def entries (db : ScanDb Entry) : List (Nat × Entry) := activeOf db.nodes

theorem activeOf_append (front back : List (Node Entry)) (node : Node Entry) :
    activeOf (front ++ node :: back) = activeOf front ++ (activeOf [node] ++ activeOf back) := by
  unfold activeOf
  rw [← List.singleton_append, List.filter_append, List.filter_append, List.map_append,
    List.map_append]

theorem mem_entries {x : Nat × Entry} :
    x ∈ db.entries ↔ ∃ node ∈ db.nodes, node.active = true ∧ (node.id, node.entry) = x := by
  simp [entries, activeOf, and_assoc]

/-- A change that leaves id, entry and cookie alone. -/
theorem entries_onNode (isNodes : db.nodes = front ++ node :: back) (isId : node.id = id)
    (before : ∀ other ∈ front, other.id ≠ id) {change : Node Entry → Node Entry}
    (same : activeOf [change node] = activeOf [node]) : (db.onNode id change).entries =
        db.entries := by
  unfold entries
  rw [onNode_nodes isNodes isId before, isNodes, activeOf_append, activeOf_append, same]

theorem Exact.getRef_entries (exact : db.Exact refs) (linked : id ∈ db.nodes.map (·.id))
    (got : db.getRef id = some db') :
    db'.entries = db.entries ∧ db'.nextId = db.nextId ∧ db'.numEntries = db.numEntries := by
  obtain ⟨front, node, back, isNodes, isId, before, behind⟩ := exact.split linked
  unfold ScanDb.getRef at got
  rw [find_eq isNodes isId before] at got
  obtain rfl := Option.some.inj got
  refine ⟨entries_onNode isNodes isId before ?_, rfl, rfl⟩
  cases active : node.active <;> simp [activeOf, active]

theorem Exact.putRef_entries (exact : db.Exact (id :: refs)) (given : db.putRef id = some db') :
    db'.entries = db.entries ∧ db'.nextId = db.nextId := by
  obtain ⟨front, node, back, isNodes, isId, before, behind⟩ :=
    exact.split (exact.held id List.mem_cons_self)
  have member : node ∈ db.nodes := isNodes ▸ List.mem_append_right _ List.mem_cons_self
  have refCnt := exact.refCnt node member
  rw [isId, List.count_cons_self] at refCnt
  unfold ScanDb.putRef at given
  rw [find_eq isNodes isId before] at given
  dsimp only at given
  rw [if_neg (by omega)] at given
  split at given
  · rename_i last
    obtain rfl := Option.some.inj given
    refine ⟨?_, rfl⟩
    have inactive : node.active = false := by
      cases cookie : node.active with
      | false => rfl
      | true =>
        rw [cookie, if_pos rfl] at refCnt
        omega
    have nodes : (db.delScanNodeFromDb id).nodes = front ++ back := by
      unfold delScanNodeFromDb
      dsimp only
      rw [isNodes]
      exact First.eraseP_append (by simpa using before) (by simpa using isId)
    unfold entries
    rw [nodes, isNodes, activeOf_append]
    simp [activeOf, inactive]
  · obtain rfl := Option.some.inj given
    refine ⟨entries_onNode isNodes isId before ?_, rfl⟩
    cases active : node.active <;> simp [activeOf, active]

theorem Exact.putRefIf_entries {cur : Option Nat} (exact : db.Exact (cur.toList ++ refs))
    (given : db.putRefIf cur = some db') : db'.entries = db.entries ∧ db'.nextId = db.nextId := by
  cases cur with
  | none =>
    obtain rfl := Option.some.inj given
    exact ⟨rfl, rfl⟩
  | some cur => exact Exact.putRef_entries exact given

theorem Exact.getNextNode_entries {hash : Entry → Nat} {bucket : Nat} {cur next : Option Nat}
    (exact : db.Exact (cur.toList ++ refs))
    (got : db.getNextNode hash bucket cur = some (db', next)) :
    db'.entries = db.entries := by
  obtain ⟨between, given, exactBetween, stays⟩ := exact.putRefIf
  have same := (exact.putRefIf_entries given).1
  unfold ScanDb.getNextNode at got
  rw [given, Option.bind_some] at got
  cases found : db.getNextValidNode hash bucket cur with
  | none =>
    rw [found] at got
    obtain ⟨rfl, -⟩ := Prod.mk.inj (Option.some.inj got)
    exact same
  | some node =>
    rw [found] at got
    obtain ⟨taken, isTaken, isPair⟩ := Option.map_eq_some_iff.mp got
    obtain ⟨rfl, -⟩ := Prod.mk.inj isPair
    have linked := (stays _ (getNextValidNode_isActive found)).linked
    exact (exactBetween.getRef_entries linked isTaken).1.trans same

/-- Nodes with other ids are not affected when an id is left out. -/
theorem filter_activeOf {nodes : List (Node Entry)} (apart : ∀ node ∈ nodes, node.id ≠ id) :
    (activeOf nodes).filter (fun x => decide (x.1 ≠ id)) = activeOf nodes := by
  refine List.filter_eq_self.mpr fun x member => ?_
  obtain ⟨node, listed, rfl⟩ := List.mem_map.mp member
  simpa using apart node (List.mem_of_mem_filter listed)

/-- **A deleted node's entry goes.** -/
theorem Exact.entryDel_entries (exact : db.Exact refs) (linked : id ∈ db.nodes.map (·.id))
    (deleted : db.entryDel id = some db') :
    db'.entries = db.entries.filter (fun x => decide (x.1 ≠ id)) ∧ db'.nextId = db.nextId := by
  obtain ⟨front, node, back, isNodes, isId, before, behind⟩ := exact.split linked
  have positive := exact.positive node (isNodes ▸ List.mem_append_right _ List.mem_cons_self)
  have without : db.entries.filter (fun x => decide (x.1 ≠ id)) = activeOf front ++
      activeOf back := by
    have own : (activeOf [node]).filter (fun x => decide (x.1 ≠ id)) = [] := by
      cases active : node.active <;> simp [activeOf, active, isId]
    unfold entries
    rw [isNodes, activeOf_append, List.filter_append, List.filter_append, own,
      filter_activeOf before,
      filter_activeOf behind, List.nil_append]
  unfold ScanDb.entryDel at deleted
  rw [find_eq isNodes isId before] at deleted
  dsimp only at deleted
  split at deleted
  · rename_i inactive
    obtain rfl := Option.some.inj deleted
    refine ⟨?_, rfl⟩
    rw [without]
    unfold entries
    rw [isNodes, activeOf_append]
    simp [activeOf, inactive]
  · rename_i active
    rw [if_neg (by omega)] at deleted
    obtain ⟨same, nextId⟩ :=
      (exact.cleared isNodes isId before behind (by simpa using active)).putRef_entries deleted
    refine ⟨?_, nextId⟩
    rw [same, without]
    unfold entries
    rw [onNode_nodes isNodes isId before, activeOf_append]
    simp [activeOf]

/-- **An added node's entry comes.** -/
theorem Exact.addScanNode_entries (exact : db.Exact refs) (entry : Entry) {dup : Option Nat}
    (linked : ∀ id, dup = some id → id ∈ db.nodes.map (·.id))
    (added : db.addScanNode entry dup = some db') :
    db'.entries.Perm ((db.nextId, entry) :: db.entries) := by
  have of_perm : ∀ nodes : List (Node Entry), nodes.Perm (⟨db.nextId, entry, 1, true⟩ :: db.nodes) →
      (activeOf nodes).Perm ((db.nextId, entry) :: db.entries) := by
    intro nodes same
    exact ((same.filter _).map _).trans (by simp [activeOf, entries])
  unfold ScanDb.addScanNode at added
  cases dup with
  | none =>
    obtain rfl := Option.some.inj added
    exact of_perm _ (List.perm_append_singleton _ _)
  | some dup =>
    obtain ⟨front, node, back, isNodes, isId, before, _⟩ := exact.split (linked dup rfl)
    dsimp only at added
    rw [find_eq isNodes isId before] at added
    obtain rfl := Option.some.inj added
    refine of_perm _ ?_
    rw [isNodes, insertBefore_append isId before]
    exact List.perm_middle

/-- Without references held every linked node is active. -/
theorem Exact.length_entries (exact : db.Exact []) : db.numEntries = db.entries.length := by
  have all : db.nodes.filter (fun node => node.active) = db.nodes := by
    refine List.filter_eq_self.mpr fun node member => ?_
    have refCnt := exact.refCnt node member
    have positive := exact.positive node member
    rw [List.count_nil] at refCnt
    cases active : node.active with
    | true => rfl
    | false =>
      rw [active, if_neg (by simp)] at refCnt
      omega
  unfold entries activeOf
  rw [all, List.length_map]
  exact exact.numEntries

theorem Exact.entries_nodup (exact : db.Exact refs) : (db.entries.map Prod.fst).Nodup := by
  have ids := (List.nodup_append.mp exact.nodup).1
  unfold entries activeOf
  rw [List.map_map]
  exact ids.sublist (List.filter_sublist.map _)

theorem Exact.linked_of_entries (exact : db.Exact refs) {x : Nat × Entry}
    (member : x ∈ db.entries) :
    x.1 ∈ db.nodes.map (·.id) ∧ x.1 < db.nextId := by
  obtain ⟨node, listed, _, rfl⟩ := mem_entries.mp member
  have linked : node.id ∈ db.nodes.map (·.id) := List.mem_map_of_mem listed
  exact ⟨linked, List.mem_range.mp (exact.once.mem_iff.mp (List.mem_append_left _ linked))⟩

end Qsdk.ScanCache.ScanDb
