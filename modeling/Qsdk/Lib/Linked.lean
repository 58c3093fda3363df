/-
**Doubly linked lists in a heap of cells.**

The cells of a heap carry a `next` and a `prev` field (`Links`). `Links.Chained` says that a list of
cells is linked up in both directions, from the cell before it to the cell after it. The three
operations that programs write by hand, `pushFront`, `append` and `unlink`, turn a chain of a list
into the chain of the list with the cell in front, at the end, and without the cell; `popFront`
takes the first cell. A walk along `next` finds what a search of the list finds (`Chained.walk`).
-/

import Mathlib.Logic.Function.Basic
import Mathlib.Data.List.Basic

namespace Qsdk

variable {Cell : Type}

/-- The two link fields of the cells of a heap. -/
@[ext]
structure Links (Cell : Type) where
  next : Cell → Option Cell
  prev : Cell → Option Cell

namespace Links

/-- The cells are linked in their order, between the cells `before` and `after`. -/
def Chained (links : Links Cell) : Option Cell → List Cell → Option Cell → Prop
  | _, [], _ => True
  | before, cell :: rest, after =>
      links.prev cell = before ∧ links.next cell = rest.head?.or after ∧
        links.Chained (some cell) rest after

variable {links changed : Links Cell} {before after : Option Cell}

/-- Only the fields of its own cells matter to a chain. -/
theorem Chained.congr {cells : List Cell} (chained : links.Chained before cells after)
    (next : ∀ cell ∈ cells, changed.next cell = links.next cell)
    (prev : ∀ cell ∈ cells, changed.prev cell = links.prev cell) :
    changed.Chained before cells after := by
  induction cells generalizing before with
  | nil => trivial
  | cons cell rest ih =>
      obtain ⟨isPrev, isNext, chainedRest⟩ := chained
      refine ⟨?_, ?_, ?_⟩
      · rw [prev cell List.mem_cons_self, isPrev]
      · rw [next cell List.mem_cons_self, isNext]
      · exact ih chainedRest (fun other mem => next other (List.mem_cons_of_mem _ mem))
          (fun other mem => prev other (List.mem_cons_of_mem _ mem))

/-- A chain of two lists is the chain of the first up to the second, and of the second from the
first. -/
theorem chained_append (first second : List Cell) :
    links.Chained before (first ++ second) after ↔
      links.Chained before first (second.head?.or after) ∧
        links.Chained (first.getLast?.or before) second after := by
  induction first generalizing before with
  | nil => simp [Chained]
  | cons cell rest ih =>
      have head : (rest ++ second).head?.or after = rest.head?.or (second.head?.or after) := by
        cases rest <;> simp
      have last : (cell :: rest).getLast?.or before = rest.getLast?.or (some cell) := by
        cases h : rest.getLast? with
        | none =>
            have empty : rest = [] := List.getLast?_eq_none_iff.mp h
            subst empty
            rfl
        | some other => simp [List.getLast?_cons, h]
      rw [List.cons_append, Chained, ih, head, last, Chained]
      tauto

/-- The fields of a cell in the middle of a chain. -/
theorem Chained.fields {front back : List Cell} {cell : Cell}
    (chained : links.Chained none (front ++ cell :: back) none) :
    links.prev cell = front.getLast? ∧ links.next cell = back.head? := by
  obtain ⟨-, isPrev, isNext, -⟩ := (chained_append front (cell :: back)).mp chained
  refine ⟨?_, ?_⟩
  · rw [isPrev, Option.or_none]
  · rw [isNext, Option.or_none]

/-- The cell after a cell of a closed chain is null or a cell of the chain. -/
theorem Chained.next_mem {cells : List Cell} {cell : Cell}
    (chained : links.Chained none cells none) (mem : cell ∈ cells) :
    ∀ other ∈ links.next cell, other ∈ cells := by
  obtain ⟨front, back, rfl⟩ := List.append_of_mem mem
  intro other isNext
  rw [chained.fields.2] at isNext
  have inBack : other ∈ back := List.mem_of_head? isNext
  exact List.mem_append_right _ (List.mem_cons_of_mem _ inBack)

/-- Of the last cell of a chain only the link behind it changes. -/
theorem Chained.retarget {cells : List Cell} {target : Option Cell}
    (chained : links.Chained before cells after) (nodup : cells.Nodup)
    (next : ∀ cell ∈ cells, cells.getLast? ≠ some cell → changed.next cell = links.next cell)
    (last : ∀ cell ∈ cells.getLast?, changed.next cell = target)
    (prev : ∀ cell ∈ cells, changed.prev cell = links.prev cell) :
    changed.Chained before cells target := by
  rcases cells.eq_nil_or_concat with empty | ⟨front, cell, split⟩
  · rw [empty]
    trivial
  · rw [List.concat_eq_append] at split
    subst split
    have isLast : (front ++ [cell]).getLast? = some cell := by simp
    have notIn : cell ∉ front := by
      intro mem
      exact (List.nodup_append.mp nodup).2.2 cell mem cell List.mem_cons_self rfl
    obtain ⟨chainedFront, isPrev, -, -⟩ := (chained_append front [cell]).mp chained
    refine (chained_append front [cell]).mpr ⟨?_, ?_, ?_, trivial⟩
    · refine chainedFront.congr ?_ ?_
      · intro other mem
        refine next other (List.mem_append_left _ mem) ?_
        intro equal
        rw [isLast, Option.some.injEq] at equal
        exact notIn (by rw [equal]; exact mem)
      · intro other mem
        exact prev other (List.mem_append_left _ mem)
    · rw [prev cell (by simp), isPrev]
    · rw [last cell (by rw [isLast]; rfl)]
      rfl

/-- Of the first cell of a chain only the link before it changes. -/
theorem Chained.rebase {cells : List Cell} {source : Option Cell}
    (chained : links.Chained before cells after) (nodup : cells.Nodup)
    (next : ∀ cell ∈ cells, changed.next cell = links.next cell)
    (first : ∀ cell ∈ cells.head?, changed.prev cell = source)
    (prev : ∀ cell ∈ cells, cells.head? ≠ some cell → changed.prev cell = links.prev cell) :
    changed.Chained source cells after := by
  cases cells with
  | nil => trivial
  | cons cell rest =>
      obtain ⟨-, isNext, chainedRest⟩ := chained
      refine ⟨first cell rfl, ?_, ?_⟩
      · rw [next cell List.mem_cons_self, isNext]
      · refine chainedRest.congr ?_ ?_
        · exact fun other mem => next other (List.mem_cons_of_mem _ mem)
        · intro other mem
          refine prev other (List.mem_cons_of_mem _ mem) ?_
          intro equal
          rw [List.head?_cons, Option.some.injEq] at equal
          exact (List.nodup_cons.mp nodup).1 (by rw [equal]; exact mem)

/-! ### The operations -/

section Operations

variable [DecidableEq Cell]

/-- Link a cell in front of the chain that starts at `head`. -/
def pushFront (links : Links Cell) (head : Option Cell) (cell : Cell) : Links Cell where
  next := Function.update links.next cell head
  prev := match head with
    | some first => Function.update (Function.update links.prev cell none) first (some cell)
    | none => Function.update links.prev cell none

/-- Link a cell after the chain that ends at `tail`. -/
def append (links : Links Cell) (tail : Option Cell) (cell : Cell) : Links Cell where
  next := match tail with
    | some last => Function.update (Function.update links.next last (some cell)) cell none
    | none => Function.update links.next cell none
  prev := Function.update links.prev cell tail

/-- Link a cell between two neighbours, or at an end. -/
def insertBetween (links : Links Cell) (before after : Option Cell) (cell : Cell) : Links Cell where
  next := match before with
    | some other => Function.update (Function.update links.next other (some cell)) cell after
    | none => Function.update links.next cell after
  prev := match after with
    | some other => Function.update (Function.update links.prev cell before) other (some cell)
    | none => Function.update links.prev cell before

/-- Link the neighbours of a cell to each other. -/
def unlink (links : Links Cell) (cell : Cell) : Links Cell :=
  let next := match links.prev cell with
    | some before => Function.update links.next before (links.next cell)
    | none => links.next
  { next := next
    prev := match next cell with
      | some after => Function.update links.prev after (links.prev cell)
      | none => links.prev }

theorem pushFront_next (head : Option Cell) (cell other : Cell) (ne : other ≠ cell) :
    (links.pushFront head cell).next other = links.next other :=
  Function.update_of_ne ne _ _

theorem pushFront_prev (head : Option Cell) (cell other : Cell) (ne : other ≠ cell)
    (notHead : head ≠ some other) : (links.pushFront head cell).prev other = links.prev other := by
  cases head with
  | none => exact Function.update_of_ne ne _ _
  | some first =>
      have notFirst : other ≠ first := fun equal => notHead (by rw [equal])
      show Function.update (Function.update links.prev cell none) first (some cell) other = _
      rw [Function.update_of_ne notFirst, Function.update_of_ne ne]

/-- **Linking a fresh cell in front chains the list with the cell in front.** -/
theorem Chained.pushFront {cells : List Cell} {cell : Cell}
    (chained : links.Chained none cells none) (nodup : cells.Nodup) (fresh : cell ∉ cells) :
    (links.pushFront cells.head? cell).Chained none (cell :: cells) none := by
  cases cells with
  | nil =>
      refine ⟨Function.update_self _ _ _, ?_, trivial⟩
      exact Function.update_self _ _ _
  | cons first rest =>
      obtain ⟨-, isNext, chainedRest⟩ := chained
      have neFirst : first ≠ cell := fun equal => fresh (by rw [equal]; exact List.mem_cons_self)
      have notIn : first ∉ rest := (List.nodup_cons.mp nodup).1
      refine ⟨?_, ?_, ?_, ?_, ?_⟩
      · show Function.update (Function.update links.prev cell none) first (some cell) cell = none
        rw [Function.update_of_ne neFirst.symm, Function.update_self]
      · exact Function.update_self _ _ _
      · exact Function.update_self _ _ _
      · exact (pushFront_next _ _ _ neFirst).trans isNext
      · refine chainedRest.congr ?_ ?_
        · intro other mem
          refine pushFront_next _ _ _ ?_
          exact fun equal => fresh (by rw [← equal]; exact List.mem_cons_of_mem _ mem)
        · intro other mem
          refine pushFront_prev _ _ _ ?_ ?_
          · exact fun equal => fresh (by rw [← equal]; exact List.mem_cons_of_mem _ mem)
          · intro equal
            rw [List.head?_cons, Option.some.injEq] at equal
            exact notIn (by rw [equal]; exact mem)

theorem append_next (tail : Option Cell) (cell other : Cell) (ne : other ≠ cell)
    (notTail : tail ≠ some other) : (links.append tail cell).next other = links.next other := by
  cases tail with
  | none => exact Function.update_of_ne ne _ _
  | some last =>
      have notLast : other ≠ last := fun equal => notTail (by rw [equal])
      show Function.update (Function.update links.next last (some cell)) cell none other = _
      rw [Function.update_of_ne ne, Function.update_of_ne notLast]

theorem append_prev (tail : Option Cell) (cell other : Cell) (ne : other ≠ cell) :
    (links.append tail cell).prev other = links.prev other :=
  Function.update_of_ne ne _ _

theorem append_next_self (tail : Option Cell) (cell : Cell) :
    (links.append tail cell).next cell = none := by
  cases tail with
  | none => exact Function.update_self _ _ _
  | some last => exact Function.update_self _ _ _

/-- **Linking a fresh cell at the end chains the list with the cell at the end.** -/
theorem Chained.append {cells : List Cell} {cell : Cell} (chained : links.Chained none cells none)
    (nodup : cells.Nodup) (fresh : cell ∉ cells) :
    (links.append cells.getLast? cell).Chained none (cells ++ [cell]) none := by
  have ne : ∀ other ∈ cells, other ≠ cell := fun other mem equal =>
    fresh (by rw [← equal]; exact mem)
  refine (chained_append cells [cell]).mpr ⟨?_, ?_, ?_, trivial⟩
  · refine chained.retarget nodup ?_ ?_ ?_
    · exact fun other mem notLast => append_next _ _ _ (ne other mem) notLast
    · intro other isLast
      have mem : other ∈ cells := List.mem_of_getLast? isLast
      rw [Option.mem_def.mp isLast]
      show Function.update (Function.update links.next other (some cell)) cell none other = _
      rw [Function.update_of_ne (ne other mem), Function.update_self]
      rfl
    · exact fun other mem => append_prev _ _ _ (ne other mem)
  · rw [Option.or_none]
    exact Function.update_self _ _ _
  · exact append_next_self _ _

theorem insertBetween_next (before after : Option Cell) (cell other : Cell) (ne : other ≠ cell) :
    (links.insertBetween before after cell).next other =
      if before = some other then some cell else links.next other := by
  cases before with
  | none =>
      rw [if_neg (by simp)]
      exact Function.update_of_ne ne _ _
  | some first =>
      show Function.update (Function.update links.next first (some cell)) cell after other = _
      rw [Function.update_of_ne ne]
      by_cases equal : other = first
      · subst equal
        simp
      · rw [Function.update_of_ne equal, if_neg fun same => equal (Option.some.inj same).symm]

theorem insertBetween_prev (before after : Option Cell) (cell other : Cell) (ne : other ≠ cell) :
    (links.insertBetween before after cell).prev other =
      if after = some other then some cell else links.prev other := by
  cases after with
  | none =>
      rw [if_neg (by simp)]
      exact Function.update_of_ne ne _ _
  | some last =>
      show Function.update (Function.update links.prev cell before) last (some cell) other = _
      by_cases equal : other = last
      · subst equal
        simp
      · rw [Function.update_of_ne equal, Function.update_of_ne ne,
          if_neg fun same => equal (Option.some.inj same).symm]

theorem insertBetween_next_self (before after : Option Cell) (cell : Cell) :
    (links.insertBetween before after cell).next cell = after := by
  cases before <;> exact Function.update_self _ _ _

theorem insertBetween_prev_self (before after : Option Cell) (cell : Cell)
    (notAfter : after ≠ some cell) :
    (links.insertBetween before after cell).prev cell = before := by
  cases after with
  | none => exact Function.update_self _ _ _
  | some last =>
      show Function.update (Function.update links.prev cell before) last (some cell) cell = before
      rw [Function.update_of_ne fun equal => notAfter (by rw [equal]), Function.update_self]

/-- **Linking a fresh cell between two parts of a list chains the list with the cell between
them.** -/
theorem Chained.insertBetween {front back : List Cell} {cell : Cell}
    (chained : links.Chained none (front ++ back) none) (nodup : (front ++ back).Nodup)
    (fresh : cell ∉ front ++ back) :
    (links.insertBetween front.getLast? back.head? cell).Chained none
        (front ++ cell :: back) none := by
  obtain ⟨nodupFront, nodupBack, apart⟩ := List.nodup_append.mp nodup
  obtain ⟨chainedFront, chainedBack⟩ := (chained_append front back).mp chained
  have neFront : ∀ other ∈ front, other ≠ cell :=
    fun other mem equal => fresh (by rw [← equal]; exact List.mem_append_left _ mem)
  have neBack : ∀ other ∈ back, other ≠ cell :=
    fun other mem equal => fresh (by rw [← equal]; exact List.mem_append_right _ mem)
  refine (chained_append front (cell :: back)).mpr ⟨?_, ?_, ?_, ?_⟩
  · refine chainedFront.retarget nodupFront ?_ ?_ ?_
    · intro other mem notLast
      rw [insertBetween_next _ _ _ _ (neFront other mem), if_neg notLast]
    · intro other isLast
      rw [insertBetween_next _ _ _ _ (neFront other (List.mem_of_getLast? isLast)),
        if_pos (Option.mem_def.mp isLast)]
      rfl
    · intro other mem
      rw [insertBetween_prev _ _ _ _ (neFront other mem), if_neg]
      intro isHead
      exact apart other mem other (List.mem_of_head? isHead) rfl
  · rw [Option.or_none]
    exact insertBetween_prev_self _ _ _ fun isHead => neBack cell (List.mem_of_head? isHead) rfl
  · rw [Option.or_none]
    exact insertBetween_next_self _ _ _
  · refine chainedBack.rebase nodupBack ?_ ?_ ?_
    · intro other mem
      rw [insertBetween_next _ _ _ _ (neBack other mem), if_neg]
      intro isLast
      exact apart other (List.mem_of_getLast? isLast) other mem rfl
    · intro other isHead
      rw [insertBetween_prev _ _ _ _ (neBack other (List.mem_of_head? isHead)),
        if_pos (Option.mem_def.mp isHead)]
    · intro other mem notHead
      rw [insertBetween_prev _ _ _ _ (neBack other mem), if_neg notHead]

/-- Linking a fresh cell into one chain leaves the other chains as they are. -/
theorem Chained.insertBetween_frame {front back others : List Cell} {cell : Cell}
    (chainedOthers : links.Chained none others none) (fresh : cell ∉ others)
    (apart : ∀ other ∈ others, other ∉ front ++ back) :
    (links.insertBetween front.getLast? back.head? cell).Chained none others none := by
  have ne : ∀ other ∈ others, other ≠ cell := fun other mem equal =>
    fresh (by rw [← equal]; exact mem)
  refine chainedOthers.congr ?_ ?_
  · intro other mem
    rw [insertBetween_next _ _ _ _ (ne other mem), if_neg]
    exact fun isLast => apart other mem (List.mem_append_left _ (List.mem_of_getLast? isLast))
  · intro other mem
    rw [insertBetween_prev _ _ _ _ (ne other mem), if_neg]
    exact fun isHead => apart other mem (List.mem_append_right _ (List.mem_of_head? isHead))

/-- What `unlink` does to the `next` fields. -/
theorem unlink_next (cell other : Cell) :
    (links.unlink cell).next other =
      if links.prev cell = some other then links.next cell else links.next other := by
  unfold unlink
  cases h : links.prev cell with
  | none => simp
  | some before =>
      by_cases equal : other = before
      · subst equal
        simp
      · have ne : before ≠ other := fun same => equal same.symm
        simp [Function.update_of_ne equal, ne]

/-- What `unlink` does to the `prev` fields, for a cell that is not its own predecessor. -/
theorem unlink_prev (cell other : Cell) (notSelf : links.prev cell ≠ some cell) :
    (links.unlink cell).prev other =
      if links.next cell = some other then links.prev cell else links.prev other := by
  have same : (links.unlink cell).next cell = links.next cell := by
    rw [unlink_next, if_neg notSelf]
  have unfolded : (links.unlink cell).prev = match (links.unlink cell).next cell with
      | some after => Function.update links.prev after (links.prev cell)
      | none => links.prev := rfl
  rw [unfolded, same]
  cases h : links.next cell with
  | none => simp
  | some after =>
      by_cases equal : other = after
      · subst equal
        simp
      · have ne : after ≠ other := fun same => equal same.symm
        simp [Function.update_of_ne equal, ne]

/-- **Unlinking a cell of a chain chains the list without the cell.** -/
theorem Chained.unlink {cells : List Cell} {cell : Cell} (chained : links.Chained none cells none)
    (nodup : cells.Nodup) (mem : cell ∈ cells) :
    (links.unlink cell).Chained none (cells.erase cell) none := by
  obtain ⟨front, back, rfl⟩ := List.append_of_mem mem
  obtain ⟨nodupFront, nodupCons, apart⟩ := List.nodup_append.mp nodup
  obtain ⟨notInBack, nodupBack⟩ := List.nodup_cons.mp nodupCons
  have notInFront : cell ∉ front := fun inFront => apart cell inFront cell List.mem_cons_self rfl
  obtain ⟨isPrev, isNext⟩ := chained.fields
  have notSelf : links.prev cell ≠ some cell := by
    rw [isPrev]
    exact fun equal => notInFront (List.mem_of_getLast? equal)
  rw [List.erase_append_right _ notInFront, List.erase_cons_head]
  obtain ⟨chainedFront, -, -, chainedBack⟩ := (chained_append front (cell :: back)).mp chained
  refine (chained_append front back).mpr ⟨?_, ?_⟩
  · refine chainedFront.retarget nodupFront ?_ ?_ ?_
    · intro other _ notLast
      rw [unlink_next, isPrev, if_neg notLast]
    · intro other isLast
      rw [unlink_next, isPrev, if_pos (Option.mem_def.mp isLast), isNext, Option.or_none]
    · intro other inFront
      rw [unlink_prev _ _ notSelf, isNext, if_neg]
      intro equal
      exact apart other inFront other (List.mem_cons_of_mem _ (List.mem_of_head? equal)) rfl
  · rw [Option.or_none]
    refine chainedBack.rebase nodupBack ?_ ?_ ?_
    · intro other inBack
      rw [unlink_next, isPrev, if_neg]
      intro equal
      exact apart other (List.mem_of_getLast? equal) other (List.mem_cons_of_mem _ inBack) rfl
    · intro other isHead
      rw [unlink_prev _ _ notSelf, isNext, if_pos (Option.mem_def.mp isHead), isPrev]
    · intro other _ notHead
      rw [unlink_prev _ _ notSelf, isNext, if_neg notHead]

/-- Unlinking a cell leaves the chains it is not part of as they are. -/
theorem Chained.unlink_frame {cells others : List Cell} {cell : Cell}
    (chained : links.Chained none cells none) (mem : cell ∈ cells) (nodup : cells.Nodup)
    (chainedOthers : links.Chained none others none) (apart : ∀ other ∈ others, other ∉ cells) :
    (links.unlink cell).Chained none others none := by
  obtain ⟨front, back, rfl⟩ := List.append_of_mem mem
  obtain ⟨isPrev, isNext⟩ := chained.fields
  have notSelf : links.prev cell ≠ some cell := by
    rw [isPrev]
    intro equal
    exact (List.nodup_append.mp nodup).2.2 cell (List.mem_of_getLast? equal) cell
      List.mem_cons_self rfl
  refine chainedOthers.congr ?_ ?_
  · intro other inOthers
    rw [unlink_next, isPrev, if_neg]
    intro equal
    exact apart other inOthers (List.mem_append_left _ (List.mem_of_getLast? equal))
  · intro other inOthers
    rw [unlink_prev _ _ notSelf, isNext, if_neg]
    intro equal
    exact apart other inOthers
      (List.mem_append_right _ (List.mem_cons_of_mem _ (List.mem_of_head? equal)))

/-- Linking a fresh cell in front of one chain leaves the other chains as they are. -/
theorem Chained.pushFront_frame {cells others : List Cell} {cell : Cell}
    (chainedOthers : links.Chained none others none) (fresh : cell ∉ others)
    (apart : ∀ other ∈ others, other ∉ cells) :
    (links.pushFront cells.head? cell).Chained none others none := by
  refine chainedOthers.congr ?_ ?_
  · intro other mem
    exact pushFront_next _ _ _ (fun equal => fresh (by rw [← equal]; exact mem))
  · intro other mem
    refine pushFront_prev _ _ _ (fun equal => fresh (by rw [← equal]; exact mem)) ?_
    exact fun isHead => apart other mem (List.mem_of_head? isHead)

end Operations

/-! ### The ends of a chain -/

section Ends

variable [DecidableEq Cell] {cells : List Cell} {cell : Cell}

/-- The first cell after a cell is unlinked. -/
theorem Chained.head_erase (chained : links.Chained none cells none) (nodup : cells.Nodup)
    (mem : cell ∈ cells) :
    (cells.erase cell).head? = if links.prev cell = none then links.next cell else cells.head? := by
  obtain ⟨front, back, rfl⟩ := List.append_of_mem mem
  obtain ⟨isPrev, isNext⟩ := chained.fields
  have notIn : cell ∉ front := fun inFront =>
    (List.nodup_append.mp nodup).2.2 cell inFront cell List.mem_cons_self rfl
  rw [List.erase_append_right _ notIn, List.erase_cons_head, isPrev, isNext]
  cases front with
  | nil => simp
  | cons first rest => simp [List.getLast?_cons]

/-- The last cell after a cell is unlinked. -/
theorem Chained.getLast_erase (chained : links.Chained none cells none) (nodup : cells.Nodup)
    (mem : cell ∈ cells) :
    (cells.erase cell).getLast? = if links.next cell = none then links.prev cell else
        cells.getLast? := by
  obtain ⟨front, back, rfl⟩ := List.append_of_mem mem
  obtain ⟨isPrev, isNext⟩ := chained.fields
  have notIn : cell ∉ front := fun inFront =>
    (List.nodup_append.mp nodup).2.2 cell inFront cell List.mem_cons_self rfl
  rw [List.erase_append_right _ notIn, List.erase_cons_head, isPrev, isNext]
  cases back with
  | nil => simp
  | cons first rest => simp [List.getLast?_append, List.getLast?_cons]

/-- Take the first cell out: the one behind it gets no predecessor. -/
def popFront (links : Links Cell) (cell : Cell) : Links Cell :=
  match links.next cell with
  | some after => { links with prev := Function.update links.prev after none }
  | none => links

theorem popFront_eq (first : links.prev cell = none) : links.popFront cell = links.unlink cell := by
  unfold popFront unlink
  cases next : links.next cell with
  | none => simp [first, next]
  | some after => simp [first, next]

/-- **Taking the first cell out leaves the chain of the others.** -/
theorem Chained.popFront (chained : links.Chained none (cell :: cells) none)
    (nodup : (cell :: cells).Nodup) :
    (links.popFront cell).Chained none cells none := by
  have unlinked := chained.unlink nodup List.mem_cons_self
  rwa [List.erase_cons_head, ← popFront_eq chained.1] at unlinked

theorem Chained.popFront_frame {others : List Cell}
    (chained : links.Chained none (cell :: cells) none) (nodup : (cell :: cells).Nodup)
    (chainedOthers : links.Chained none others none)
    (apart : ∀ other ∈ others, other ∉ cell :: cells) :
        (links.popFront cell).Chained none others none := by
  rw [popFront_eq chained.1]
  exact chained.unlink_frame List.mem_cons_self nodup chainedOthers apart

theorem append_eq (tail : Option Cell) : links.append tail cell =
    links.insertBetween tail none cell := by
  cases tail <;> rfl

theorem Chained.append_frame {others : List Cell} (chainedOthers : links.Chained none others none)
    (fresh : cell ∉ others) (apart : ∀ other ∈ others, other ∉ cells) :
    (links.append cells.getLast? cell).Chained none others none := by
  rw [append_eq]
  have apart' : ∀ other ∈ others, other ∉ cells ++ [] := by
    intro other mem
    rw [List.append_nil]
    exact apart other mem
  exact chainedOthers.insertBetween_frame fresh apart'

end Ends

/-- The links stand for one list from a head on. -/
theorem Chained.eq_of_head {before' : Option Cell} {cells cells' : List Cell}
    (chained : links.Chained before cells none) (chained' : links.Chained before' cells' none)
    (same : cells.head? = cells'.head?) : cells = cells' := by
  induction cells generalizing before before' cells' with
  | nil => exact (List.head?_eq_none_iff.mp same.symm).symm
  | cons cell rest ih =>
      cases cells' with
      | nil => cases same
      | cons cell' rest' =>
          obtain rfl := Option.some.inj same
          obtain ⟨-, isNext, chainedRest⟩ := chained
          obtain ⟨-, isNext', chainedRest'⟩ := chained'
          rw [Option.or_none] at isNext isNext'
          rw [ih chainedRest chainedRest' (isNext.symm.trans isNext')]

/-! ### Walks -/

/-- The first cell that passes the test, along `next` from a cell on, over at most `fuel` cells. -/
def walk (links : Links Cell) (test : Cell → Bool) : Nat → Option Cell → Option Cell
  | 0, _ => none
  | _ + 1, none => none
  | fuel + 1, some cell =>
      if test cell then some cell else links.walk test fuel (links.next cell)

/-- **A walk along a chain finds what a search of the list finds**, when it may visit every cell. -/
theorem Chained.walk {cells : List Cell} (chained : links.Chained before cells none)
    (test : Cell → Bool) (fuel : Nat) (enough : cells.length ≤ fuel) :
    links.walk test fuel cells.head? = cells.find? test := by
  induction cells generalizing before fuel with
  | nil => cases fuel <;> rfl
  | cons cell rest ih =>
      obtain ⟨-, isNext, chainedRest⟩ := chained
      cases fuel with
      | zero => simp at enough
      | succ fuel =>
          rw [List.head?_cons, Links.walk, List.find?_cons]
          cases test cell with
          | true => rfl
          | false =>
              rw [isNext, Option.or_none]
              exact ih chainedRest fuel (by simpa using enough)

end Links

end Qsdk
