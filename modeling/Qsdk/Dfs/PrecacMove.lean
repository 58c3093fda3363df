/-
**PreCAC entries that change their radio.**

`dfs_reinit_precac_lists` walks the list of the source with `TAILQ_FOREACH` and moves each entry in
the frequency range to the tail of the other list, where a second walk has taken out the entries
with the same key. Both walks go on from the entry that they have just taken out, and `TAILQ_REMOVE`
clears its link (`TRASHIT`). So each of them ends with its first match (`reinit_spec`), and
everything is moved exactly when there is no second one (`moves_iff`).
-/

import Qsdk.Lib.Linked
import Mathlib.Data.List.Nodup
import Mathlib.Algebra.Group.Nat.Defs

namespace Qsdk.PrecacMove

/-- The radio that an entry belongs to (`dfs`). -/
inductive Radio
  | source
  | dest
deriving DecidableEq

/-- `struct dfs_precac_entry`, without its links. -/
structure Entry (Tree : Type) where
  vht80ChFreq : Nat
  treeRoot : Tree
  dfs : Radio

/-- The head of a `TAILQ`. -/
structure Tailq (Cell : Type) where
  first : Option Cell
  last : Option Cell

/-- The lists of two radios, and their entries. -/
structure Radios (Cell Tree : Type) where
  links : Links Cell
  src : Tailq Cell
  dest : Tailq Cell
  entries : Cell → Entry Tree

variable {Cell Tree : Type} [DecidableEq Cell]

/-- What `TAILQ_REMOVE` does to the links: it clears those of the cell itself. -/
def trashed (links : Links Cell) (cell : Cell) : Links Cell where
  next := Function.update (links.unlink cell).next cell none
  prev := Function.update (links.unlink cell).prev cell none

namespace Tailq

/-- `TAILQ_REMOVE`. -/
def remove (queue : Tailq Cell) (links : Links Cell) (cell : Cell) : Tailq Cell where
  first := if links.prev cell = none then links.next cell else queue.first
  last := if links.next cell = none then links.prev cell else queue.last

/-- `TAILQ_INSERT_TAIL`. -/
def insertTail (queue : Tailq Cell) (cell : Cell) : Tailq Cell where
  first := if queue.last = none then some cell else queue.first
  last := some cell

end Tailq

namespace Radios

def removeDest (radios : Radios Cell Tree) (cell : Cell) : Radios Cell Tree :=
  { radios with links := trashed radios.links cell, dest := radios.dest.remove radios.links cell }

def removeSrc (radios : Radios Cell Tree) (cell : Cell) : Radios Cell Tree :=
  { radios with links := trashed radios.links cell, src := radios.src.remove radios.links cell }

/-- The entry becomes the last of the destination. -/
def handOver (radios : Radios Cell Tree) (cell : Cell) : Radios Cell Tree :=
  { radios with
    links := radios.links.append radios.dest.last cell
    dest := radios.dest.insertTail cell
    entries := Function.update radios.entries cell { radios.entries cell with dfs := .dest } }

/-- The inner loop. Without fuel it has no result. -/
def removeSame (freq : Nat) : Nat → Radios Cell Tree → Option Cell → Option (Radios Cell Tree)
  | _, radios, none => some radios
  | 0, _, some _ => none
  | fuel + 1, radios, some cell =>
    let radios := if (radios.entries cell).vht80ChFreq = freq then
      radios.removeDest cell else radios
    removeSame freq fuel radios (radios.links.next cell)

/-- The key of an entry is in the range. -/
def InRange (radios : Radios Cell Tree) (low high : Nat) (cell : Cell) : Prop :=
  low ≤ (radios.entries cell).vht80ChFreq ∧ (radios.entries cell).vht80ChFreq ≤ high

instance (radios : Radios Cell Tree) (low high : Nat) (cell : Cell) :
    Decidable (radios.InRange low high cell) :=
  inferInstanceAs (Decidable (_ ∧ _))

/-- The outer loop. -/
def moveInRange (low high : Nat) : Nat → Radios Cell Tree → Option Cell → Option (Radios Cell Tree)
  | _, radios, none => some radios
  | 0, _, some _ => none
  | fuel + 1, radios, some cell =>
    if radios.InRange low high cell then
      (removeSame (radios.entries cell).vht80ChFreq fuel radios radios.dest.first).bind
          fun radios =>
        let radios := (radios.removeSrc cell).handOver cell
        moveInRange low high fuel radios (radios.links.next cell)
    else moveInRange low high fuel radios (radios.links.next cell)

/-- `dfs_reinit_precac_lists`, for two radios that are not the same. -/
def reinitPrecacLists (radios : Radios Cell Tree) (etsi : Bool) (low high : Nat) (fuel : Nat) :
    Option (Radios Cell Tree) :=
  if etsi = false ∨ radios.src.first = none then some radios else
    moveInRange low high fuel radios radios.src.first

/-- The lists that the links stand for. -/
structure Holds (radios : Radios Cell Tree) (src dest : List Cell) : Prop where
  chainedSrc : radios.links.Chained none src none
  chainedDest : radios.links.Chained none dest none
  nodup : (src ++ dest).Nodup
  src : radios.src = ⟨src.head?, src.getLast?⟩
  dest : radios.dest = ⟨dest.head?, dest.getLast?⟩

/-- **Nothing is lost:** the entries in the range are the destination's, and replace those with the
same key. -/
structure Moved (radios radios' : Radios Cell Tree) (low high : Nat)
    (src dest src' dest' : List Cell) : Prop where
  holds : radios'.Holds src' dest'
  once : ∀ cell ∈ src, radios.InRange low high cell → dest'.count cell = 1
  owned : ∀ cell ∈ src, radios.InRange low high cell → radios'.entries cell =
    { radios.entries cell with dfs := .dest }
  noOlder : ∀ cell ∈ src, radios.InRange low high cell → ∀ old ∈ dest,
    (radios.entries old).vht80ChFreq = (radios.entries cell).vht80ChFreq → old ∉ dest'
  left : src' = src.filter fun cell => ¬ radios.InRange low high cell
  untouched : ∀ old ∈ dest, (∀ cell ∈ src, radios.InRange low high cell →
    (radios.entries old).vht80ChFreq ≠ (radios.entries cell).vht80ChFreq) →
      old ∈ dest' ∧ radios'.entries old = radios.entries old

/-- The function terminates, and nothing is lost. -/
def Moves (radios : Radios Cell Tree) (low high : Nat) (src dest : List Cell) : Prop :=
  ∃ radios' bound, (∀ fuel, bound ≤ fuel → radios.reinitPrecacLists true low high fuel =
    some radios') ∧
    ∃ src' dest', radios.Moved radios' low high src dest src' dest'

end Radios

/-! ### One removal -/

section Removal

variable {links : Links Cell} {cells others : List Cell} {cell : Cell}

theorem trashed_chained (chained : links.Chained none cells none) (nodup : cells.Nodup)
    (member : cell ∈ cells) :
    (trashed links cell).Chained none (cells.erase cell) none := by
  have apart : ∀ other ∈ cells.erase cell, other ≠ cell := fun other inside same =>
    (nodup.not_mem_erase) (same ▸ inside)
  exact (chained.unlink nodup member).congr
    (fun other inside => Function.update_of_ne (apart other inside) ..)
    fun other inside => Function.update_of_ne (apart other inside) ..

theorem trashed_frame (chained : links.Chained none cells none) (nodup : cells.Nodup)
    (member : cell ∈ cells) (chainedOthers : links.Chained none others none)
    (apart : ∀ other ∈ others, other ∉ cells) :
    (trashed links cell).Chained none others none := by
  have ne : ∀ other ∈ others, other ≠ cell := fun other inside same =>
    apart other inside (same ▸ member)
  exact (chained.unlink_frame member nodup chainedOthers apart).congr
    (fun other inside => Function.update_of_ne (ne other inside) ..)
    fun other inside => Function.update_of_ne (ne other inside) ..

theorem Tailq.remove_eq (chained : links.Chained none cells none) (nodup : cells.Nodup)
    (member : cell ∈ cells) :
    Tailq.remove ⟨cells.head?, cells.getLast?⟩ links cell =
        ⟨(cells.erase cell).head?, (cells.erase cell).getLast?⟩ := by
  rw [chained.head_erase nodup member, chained.getLast_erase nodup member]
  rfl

end Removal

namespace Radios

variable {radios : Radios Cell Tree} {src dest : List Cell} {cell : Cell} {low high fuel freq : Nat}

theorem Holds.removeDest (holds : radios.Holds src dest) (member : cell ∈ dest) :
    (radios.removeDest cell).Holds src (dest.erase cell) := by
  obtain ⟨nodupSrc, nodupDest, apart⟩ := List.nodup_append.mp holds.nodup
  refine ⟨?_, trashed_chained holds.chainedDest nodupDest member, ?_, holds.src, ?_⟩
  · exact trashed_frame holds.chainedDest nodupDest member holds.chainedSrc
      fun other inSrc inDest => apart other inSrc other inDest rfl
  · exact holds.nodup.sublist (List.Sublist.append_left List.erase_sublist src)
  · show radios.dest.remove radios.links cell = _
    rw [holds.dest]
    exact Tailq.remove_eq holds.chainedDest nodupDest member

theorem Holds.removeSrc (holds : radios.Holds src dest) (member : cell ∈ src) :
    (radios.removeSrc cell).Holds (src.erase cell) dest := by
  obtain ⟨nodupSrc, nodupDest, apart⟩ := List.nodup_append.mp holds.nodup
  refine ⟨trashed_chained holds.chainedSrc nodupSrc member, ?_, ?_, ?_, holds.dest⟩
  · exact trashed_frame holds.chainedSrc nodupSrc member holds.chainedDest
      fun other inDest inSrc => apart other inSrc other inDest rfl
  · exact holds.nodup.sublist (List.Sublist.append_right List.erase_sublist dest)
  · show radios.src.remove radios.links cell = _
    rw [holds.src]
    exact Tailq.remove_eq holds.chainedSrc nodupSrc member

theorem Holds.handOver (holds : radios.Holds src dest) (fresh : cell ∉ src ++ dest) :
    (radios.handOver cell).Holds src (dest ++ [cell]) := by
  obtain ⟨nodupSrc, nodupDest, apart⟩ := List.nodup_append.mp holds.nodup
  have notSrc : cell ∉ src := fun inside => fresh (List.mem_append_left _ inside)
  have notDest : cell ∉ dest := fun inside => fresh (List.mem_append_right _ inside)
  have last : radios.dest.last = dest.getLast? := by rw [holds.dest]
  refine ⟨?_, ?_, ?_, holds.src, ?_⟩
  · show (radios.links.append radios.dest.last cell).Chained none src none
    rw [last]
    exact holds.chainedSrc.append_frame notSrc fun other inSrc inDest =>
      apart other inSrc other inDest rfl
  · show (radios.links.append radios.dest.last cell).Chained none (dest ++ [cell]) none
    rw [last]
    exact holds.chainedDest.append nodupDest notDest
  · rw [← List.append_assoc]
    exact List.nodup_append.mpr ⟨holds.nodup, List.nodup_singleton cell,
        fun other inside same isSame equal =>
      fresh (List.mem_singleton.mp isSame ▸ equal ▸ inside)⟩
  · show radios.dest.insertTail cell = _
    unfold Tailq.insertTail
    rw [holds.dest]
    cases dest with
    | nil => rfl
    | cons first rest => simp [List.getLast?_cons]

/-! ### The loops -/

/-- The destination without its first entry with the key. -/
def withoutSame (radios : Radios Cell Tree) (freq : Nat) (dest : List Cell) : Radios Cell Tree :=
  match dest.find? fun cell => decide ((radios.entries cell).vht80ChFreq = freq) with
  | none => radios
  | some old => radios.removeDest old

/-- **The inner loop takes out the first entry with the key**, and ends there. -/
theorem removeSame_spec {front rest : List Cell}
    (chained : radios.links.Chained none (front ++ rest) none) (enough : rest.length ≤ fuel) :
    removeSame freq fuel radios rest.head? = some (radios.withoutSame freq rest) := by
  induction rest generalizing front fuel with
  | nil => cases fuel <;> rfl
  | cons cell rest ih =>
    obtain ⟨fuel, rfl⟩ := Nat.exists_eq_add_one_of_ne_zero
      (Nat.ne_of_gt (Nat.lt_of_lt_of_le (Nat.succ_pos _) enough))
    unfold withoutSame
    rw [List.head?_cons, removeSame, List.find?_cons]
    by_cases same : (radios.entries cell).vht80ChFreq = freq
    · have ends : (radios.removeDest cell).links.next cell = none := Function.update_self ..
      rw [if_pos same, decide_eq_true same]
      dsimp only
      rw [ends]
      cases fuel <;> rfl
    · rw [if_neg same, decide_eq_false same]
      dsimp only
      rw [chained.fields.2]
      have behind : radios.links.Chained none ((front ++ [cell]) ++ rest) none := by
        rwa [List.append_assoc]
      exact ih behind (by simpa using enough)

/-- The key, and the tail of the destination. -/
def moveOne (radios : Radios Cell Tree) (dest : List Cell) (cell : Cell) : Radios Cell Tree :=
  ((radios.withoutSame (radios.entries cell).vht80ChFreq dest).removeSrc cell).handOver cell

/-- The first entry in the range is moved. -/
def moveFirst (radios : Radios Cell Tree) (low high : Nat) (src dest : List Cell) :
    Radios Cell Tree :=
  match src.find? fun cell => decide (radios.InRange low high cell) with
  | none => radios
  | some cell => radios.moveOne dest cell

theorem moveOne_next : (radios.moveOne dest cell).links.next cell = none :=
    Links.append_next_self ..

/-- **The outer loop moves the first entry in the range**, and ends there. -/
theorem moveInRange_spec {front rest : List Cell} (holds : radios.Holds (front ++ rest) dest)
    (enough : rest.length + dest.length ≤ fuel) :
    moveInRange low high fuel radios rest.head? = some (radios.moveFirst low high rest dest) := by
  induction rest generalizing front fuel with
  | nil => cases fuel <;> rfl
  | cons cell rest ih =>
    rw [List.length_cons] at enough
    obtain ⟨fuel, rfl⟩ := Nat.exists_eq_add_one_of_ne_zero (show fuel ≠ 0 by omega)
    unfold moveFirst
    rw [List.head?_cons, moveInRange, List.find?_cons]
    by_cases inside : radios.InRange low high cell
    · rw [if_pos inside, decide_eq_true inside, holds.dest]
      have chained : radios.links.Chained none ([] ++ dest) none := holds.chainedDest
      rw [removeSame_spec chained (by omega), Option.bind_some]
      show moveInRange low high fuel (radios.moveOne dest cell)
        ((radios.moveOne dest cell).links.next cell) = _
      rw [moveOne_next]
      cases fuel <;> rfl
    · rw [if_neg inside, decide_eq_false inside, holds.chainedSrc.fields.2]
      have behind : radios.Holds ((front ++ [cell]) ++ rest) dest := by rwa [List.append_assoc]
      exact ih behind (by omega)

/-- **The function terminates**, and moves the first entry in the range. -/
theorem reinit_spec (holds : radios.Holds src dest) (enough : src.length + dest.length ≤ fuel) :
    radios.reinitPrecacLists true low high fuel = some (radios.moveFirst low high src dest) := by
  unfold reinitPrecacLists
  have first : radios.src.first = src.head? := by rw [holds.src]
  rw [first]
  split
  · rename_i empty
    have none : src.head? = none := empty.resolve_left (by simp)
    obtain rfl := List.head?_eq_none_iff.mp none
    rfl
  · have whole : radios.Holds ([] ++ src) dest := holds
    exact moveInRange_spec whole enough

/-! ### What is moved -/

/-- The destination's first entry with the key. -/
def sameKey (radios : Radios Cell Tree) (dest : List Cell) (cell : Cell) : Option Cell :=
  dest.find? fun old =>
    decide ((radios.entries old).vht80ChFreq = (radios.entries cell).vht80ChFreq)

/-- The destination's list after the move. -/
def destAfter (radios : Radios Cell Tree) (dest : List Cell) (cell : Cell) : List Cell :=
  (match radios.sameKey dest cell with
    | none => dest
    | some old => dest.erase old) ++ [cell]

theorem Holds.moveOne (holds : radios.Holds src dest) (member : cell ∈ src) :
    (radios.moveOne dest cell).Holds (src.erase cell) (radios.destAfter dest cell) ∧
      (radios.moveOne dest cell).entries =
        Function.update radios.entries cell { radios.entries cell with dfs := .dest } := by
  obtain ⟨nodupSrc, _, apart⟩ := List.nodup_append.mp holds.nodup
  have gone : cell ∉ src.erase cell := nodupSrc.not_mem_erase
  have notDest : cell ∉ dest := fun inDest => apart cell member cell inDest rfl
  unfold Radios.moveOne withoutSame destAfter sameKey
  cases found : dest.find? fun old =>
      decide ((radios.entries old).vht80ChFreq = (radios.entries cell).vht80ChFreq) with
  | none =>
    refine ⟨(holds.removeSrc member).handOver fun inside => ?_, rfl⟩
    exact (List.mem_append.mp inside).elim gone notDest
  | some old =>
    refine ⟨((holds.removeDest (List.mem_of_find?_eq_some found)).removeSrc member).handOver
      fun inside => ?_, rfl⟩
    exact (List.mem_append.mp inside).elim gone fun inDest => notDest (List.mem_of_mem_erase inDest)

/-- There is at most one entry to move, and at most one to replace. -/
structure Single (radios : Radios Cell Tree) (low high : Nat) (src dest : List Cell) : Prop where
  source : ∀ a ∈ src, ∀ b ∈ src, radios.InRange low high a → radios.InRange low high b → a = b
  dest : ∀ cell ∈ src, radios.InRange low high cell → ∀ a ∈ dest, ∀ b ∈ dest,
    (radios.entries a).vht80ChFreq = (radios.entries cell).vht80ChFreq →
      (radios.entries b).vht80ChFreq = (radios.entries cell).vht80ChFreq → a = b

theorem mem_destAfter (nodup : dest.Nodup) {other : Cell} :
    other ∈ radios.destAfter dest cell ↔ other = cell ∨
        (other ∈ dest ∧ radios.sameKey dest cell ≠ some other) := by
  unfold destAfter
  rw [List.mem_append, List.mem_singleton, or_comm]
  refine or_congr_right ?_
  cases radios.sameKey dest cell with
  | none => simp
  | some old =>
    rw [nodup.mem_erase_iff, and_comm]
    exact and_congr_right fun _ =>
      not_congr ⟨fun same => congrArg some same.symm, fun same => (Option.some.inj same).symm⟩

omit [DecidableEq Cell] in
/-- The links stand for these lists only. -/
theorem Holds.unique {src' dest' : List Cell} (holds : radios.Holds src dest)
    (holds' : radios.Holds src' dest') :
    src = src' ∧ dest = dest' :=
  ⟨holds.chainedSrc.eq_of_head holds'.chainedSrc
    (congrArg Tailq.first (holds.src.symm.trans holds'.src)),
    holds.chainedDest.eq_of_head holds'.chainedDest
    (congrArg Tailq.first (holds.dest.symm.trans holds'.dest))⟩

/-- If it is the only one to move, and there is at most one to replace, nothing is lost. -/
theorem Holds.moved_of_single (holds : radios.Holds src dest)
    (single : radios.Single low high src dest) (member : cell ∈ src)
    (inside : radios.InRange low high cell) :
    radios.Moved (radios.moveOne dest cell) low high src dest (src.erase cell)
        (radios.destAfter dest cell) := by
  obtain ⟨nodupSrc, nodupDest, apart⟩ := List.nodup_append.mp holds.nodup
  obtain ⟨after, entries⟩ := holds.moveOne member
  have only : ∀ other ∈ src, radios.InRange low high other → other = cell :=
      fun other inSrc inRange =>
    single.source other inSrc cell member inRange inside
  have nodupAfter := (List.nodup_append.mp after.nodup).2.1
  refine ⟨after, fun other inSrc inRange => ?_, fun other inSrc inRange => ?_,
    fun other inSrc inRange old isOld same => ?_,
    ?_, fun old isOld different => ⟨?_, ?_⟩⟩
  · obtain rfl := only other inSrc inRange
    exact List.count_eq_one_of_mem nodupAfter ((mem_destAfter nodupDest).mpr (.inl rfl))
  · obtain rfl := only other inSrc inRange
    rw [entries, Function.update_self]
  · obtain rfl := only other inSrc inRange
    rw [mem_destAfter nodupDest]
    rintro (rfl | ⟨_, notFirst⟩)
    · exact apart old inSrc old isOld rfl
    · cases found : radios.sameKey dest other with
      | none => exact of_decide_eq_false (by simpa using List.find?_eq_none.mp found old isOld) same
      | some first =>
        have isSame : (radios.entries first).vht80ChFreq = (radios.entries other).vht80ChFreq := by
          simpa using List.find?_some found
        have equal := single.dest other inSrc inRange first
          (List.mem_of_find?_eq_some found) old isOld isSame same
        exact notFirst (found.trans (congrArg some equal))
  · rw [nodupSrc.erase_eq_filter]
    refine List.filter_congr fun other inSrc => ?_
    rw [Bool.eq_iff_iff, bne_iff_ne, decide_eq_true_eq]
    exact not_congr ⟨fun same => same ▸ inside, only other inSrc⟩
  · refine (mem_destAfter nodupDest).mpr
      (.inr ⟨isOld, fun found => different cell member inside ?_⟩)
    simpa using List.find?_some found
  · rw [entries, Function.update_of_ne fun same => apart cell member old isOld same.symm]

/-- If nothing is lost, it was the only one to move, and there was at most one to replace. -/
theorem Holds.single_of_moved {src' dest' : List Cell} (holds : radios.Holds src dest)
    (member : cell ∈ src) (inside : radios.InRange low high cell)
    (moved : radios.Moved (radios.moveOne dest cell) low high src dest src' dest') :
    radios.Single low high src dest := by
  obtain ⟨nodupSrc, nodupDest, apart⟩ := List.nodup_append.mp holds.nodup
  obtain ⟨rfl, rfl⟩ := moved.holds.unique (holds.moveOne member).1
  have only : ∀ other ∈ src, radios.InRange low high other → other = cell := by
    intro other inSrc inRange
    by_contra differs
    have stays : other ∈ src.erase cell := (List.mem_erase_of_ne differs).mpr inSrc
    rw [moved.left] at stays
    exact of_decide_eq_true (List.mem_filter.mp stays).2 inRange
  have replaced : ∀ old ∈ dest, (radios.entries old).vht80ChFreq =
    (radios.entries cell).vht80ChFreq →
      radios.sameKey dest cell = some old := by
    intro old isOld same
    by_contra differs
    exact moved.noOlder cell member inside old isOld same
      ((mem_destAfter nodupDest).mpr (.inr ⟨isOld, differs⟩))
  refine ⟨fun a inA b inB rangeA rangeB => (only a inA rangeA).trans (only b inB rangeB).symm, ?_⟩
  intro other inSrc inRange a isA b isB sameA sameB
  obtain rfl := only other inSrc inRange
  exact Option.some.inj ((replaced a isA sameA).symm.trans (replaced b isB sameB))

theorem Holds.single_of_moves (holds : radios.Holds src dest)
    (moves : radios.Moves low high src dest) :
    radios.Single low high src dest := by
  obtain ⟨radios', bound, terminates, src', dest', moved⟩ := moves
  have ran := @reinit_spec _ _ _ radios src dest low high (bound + (src.length + dest.length)) holds
    (Nat.le_add_left _ _)
  obtain rfl := Option.some.inj (ran.symm.trans (terminates _ (Nat.le_add_right _ _)))
  unfold moveFirst at moved
  cases found : src.find? fun cell => decide (radios.InRange low high cell) with
  | none =>
    have outside : ∀ cell ∈ src, ¬ radios.InRange low high cell := by
      simpa using List.find?_eq_none.mp found
    exact ⟨fun a inA _ _ inside => absurd inside (outside a inA),
      fun cell inSrc inside => absurd inside (outside cell inSrc)⟩
  | some cell =>
    rw [found] at moved
    exact holds.single_of_moved (List.mem_of_find?_eq_some found)
      (by simpa using List.find?_some found) moved

theorem Holds.moves_of_single (holds : radios.Holds src dest)
    (single : radios.Single low high src dest) :
    radios.Moves low high src dest := by
  refine ⟨radios.moveFirst low high src dest, src.length + dest.length, fun fuel =>
    reinit_spec holds, ?_⟩
  unfold moveFirst
  cases found : src.find? fun cell => decide (radios.InRange low high cell) with
  | none =>
    have outside : ∀ cell ∈ src, ¬ radios.InRange low high cell := by
      simpa using List.find?_eq_none.mp found
    refine ⟨src, dest, holds, fun cell inSrc inside => absurd inside (outside cell inSrc),
      fun cell inSrc inside => absurd inside (outside cell inSrc),
      fun cell inSrc inside => absurd inside (outside cell inSrc), ?_, fun old isOld _ =>
      ⟨isOld, rfl⟩⟩
    exact (List.filter_eq_self.mpr fun cell inSrc => decide_eq_true (outside cell inSrc)).symm
  | some cell =>
    exact ⟨_, _, holds.moved_of_single single (List.mem_of_find?_eq_some found)
      (by simpa using List.find?_some found)⟩

/-- **Everything is moved, and nothing else, exactly when there is at most one entry to move and one
to replace.** -/
theorem moves_iff (holds : radios.Holds src dest) :
    radios.Moves low high src dest ↔ radios.Single low high src dest :=
  ⟨holds.single_of_moves, holds.moves_of_single⟩

/-- A source with the keys 5530 and 5610, and an empty destination. -/
def twoEntries : Radios Nat Unit where
  links := { next := fun cell => if cell = 0 then some 1 else none, prev :=
    fun cell => if cell = 1 then some 0 else none }
  src := ⟨some 0, some 1⟩
  dest := ⟨none, none⟩
  entries := fun cell => ⟨if cell = 0 then 5530 else 5610, (), .source⟩

theorem twoEntries_holds : twoEntries.Holds [0, 1] [] where
  chainedSrc := ⟨rfl, rfl, rfl, rfl, trivial⟩
  chainedDest := trivial
  nodup := by decide
  src := rfl
  dest := rfl

/-- Both are in the range, and only the first is moved. -/
theorem twoEntries_not_moves : ¬ twoEntries.Moves 5490 5730 [0, 1] [] := fun moves =>
  absurd ((twoEntries_holds.single_of_moves moves).source 0 (by decide) 1 (by decide) (by decide)
    (by decide)) (by decide)

/-- Only the first is in the range. -/
theorem twoEntries_moves : twoEntries.Moves 5490 5570 [0, 1] [] := by
  refine (moves_iff twoEntries_holds).mpr ⟨?_, fun _ _ _ a isA => absurd isA List.not_mem_nil⟩
  decide

end Radios

end Qsdk.PrecacMove
