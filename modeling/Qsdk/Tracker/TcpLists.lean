/-
**The lists of the TCP tracker.**

A buffer that the tracker keeps is in two lists: in the order of reception, linked through the
private fields of the buffer, and in that of the data which can be read or in that of the data which
is still to come, linked through the fields of the buffer itself. The pointer operations of the
source are here, each with the list that it makes: `Recvd.Holds` and `Space.Holds` say which lists
the pointers are.
-/

import Qsdk.Lib.Linked
import Mathlib.Data.BitVec
import Mathlib.Algebra.Order.BigOperators.Group.List
import Mathlib.Algebra.Ring.Int.Defs

namespace Qsdk.Tracker

/-- `struct sk_buff`, as far as it is counted. The sizes of a buffer fit into an `int`. -/
structure SkBuff where
  address : Nat
  len : Nat
  truesize : Nat
  len_lt : len < 2147483648
  truesize_pos : 0 < truesize
  truesize_lt : truesize < 2147483648
  deriving DecidableEq

/-- The list in the order of reception, with its counters. The links are `next` and `prev` of the
private fields. -/
structure Recvd where
  links : Links SkBuff
  recvdOrder : Option SkBuff
  recvdOrderLast : Option SkBuff
  recvdBytesTotal : Int
  recvdCount : Int

/-- The lists of the data in order and in the future. The links are `next` and `prev` of the
buffers. -/
structure Space where
  links : Links SkBuff
  inOrder : Option SkBuff
  inOrderLast : Option SkBuff
  inOrderCount : Int
  future : Option SkBuff

/-! ### The order of reception -/

/-- A buffer leaves the order of reception, from anywhere. -/
def Recvd.remove (recvd : Recvd) (skb : SkBuff) : Recvd where
  links := recvd.links.unlink skb
  recvdOrder := if recvd.links.prev skb = none then recvd.links.next skb else recvd.recvdOrder
  recvdOrderLast := if recvd.links.next skb = none then recvd.links.prev skb else
    recvd.recvdOrderLast
  recvdCount := recvd.recvdCount - 1
  recvdBytesTotal := recvd.recvdBytesTotal - skb.truesize

/-- A buffer is put at the end of the order of reception. -/
def Recvd.push (recvd : Recvd) (skb : SkBuff) : Recvd where
  links := recvd.links.append recvd.recvdOrderLast skb
  recvdOrder := if recvd.recvdOrderLast = none then some skb else recvd.recvdOrder
  recvdOrderLast := some skb
  recvdCount := recvd.recvdCount + 1
  recvdBytesTotal := recvd.recvdBytesTotal + skb.truesize

/-- The bytes that some buffers take. -/
def truesizes (skbs : List SkBuff) : Int := (skbs.map fun skb => (skb.truesize : Int)).sum

/-- The length of some buffers. -/
def lens (skbs : List SkBuff) : Int := (skbs.map fun skb => (skb.len : Int)).sum

/-- The pointers are those of a list, and the counters are right. -/
structure Recvd.Holds (recvd : Recvd) (skbs : List SkBuff) : Prop where
  chained : recvd.links.Chained none skbs none
  recvdOrder : recvd.recvdOrder = skbs.head?
  recvdOrderLast : recvd.recvdOrderLast = skbs.getLast?
  recvdCount : recvd.recvdCount = skbs.length
  recvdBytesTotal : recvd.recvdBytesTotal = truesizes skbs
  nodup : skbs.Nodup

section Recvd

variable {recvd : Recvd} {skbs : List SkBuff} {skb : SkBuff}

theorem truesizes_erase (mem : skb ∈ skbs) : truesizes (skbs.erase skb) =
    truesizes skbs - skb.truesize := by
  have sum := List.sum_map_erase (fun skb : SkBuff => (skb.truesize : Int)) mem
  unfold truesizes
  omega

theorem lens_erase (mem : skb ∈ skbs) : lens (skbs.erase skb) = lens skbs - skb.len := by
  have sum := List.sum_map_erase (fun skb : SkBuff => (skb.len : Int)) mem
  unfold lens
  omega

theorem truesizes_append (skbs others : List SkBuff) : truesizes (skbs ++ others) =
    truesizes skbs + truesizes others := by
  simp [truesizes]

theorem lens_append (skbs others : List SkBuff) : lens (skbs ++ others) =
    lens skbs + lens others := by
  simp [lens]

theorem truesizes_singleton (skb : SkBuff) : truesizes [skb] = skb.truesize := by simp [truesizes]

theorem lens_singleton (skb : SkBuff) : lens [skb] = skb.len := by simp [lens]

theorem truesizes_nonneg (skbs : List SkBuff) : 0 ≤ truesizes skbs := by
  apply List.sum_nonneg
  simp

theorem Recvd.Holds.remove (holds : recvd.Holds skbs) (mem : skb ∈ skbs) :
    (recvd.remove skb).Holds (skbs.erase skb) where
  chained := holds.chained.unlink holds.nodup mem
  recvdOrder := by rw [holds.chained.head_erase holds.nodup mem, ← holds.recvdOrder, Recvd.remove]
  recvdOrderLast := by rw [holds.chained.getLast_erase holds.nodup mem, ← holds.recvdOrderLast,
    Recvd.remove]
  recvdCount := by
    have positive := List.length_pos_of_mem mem
    simp only [Recvd.remove, holds.recvdCount, List.length_erase_of_mem mem]
    omega
  recvdBytesTotal := by rw [truesizes_erase mem, ← holds.recvdBytesTotal, Recvd.remove]
  nodup := holds.nodup.erase skb

theorem Recvd.Holds.push (holds : recvd.Holds skbs) (fresh : skb ∉ skbs) :
    (recvd.push skb).Holds (skbs ++ [skb]) where
  chained := by
    rw [Recvd.push, holds.recvdOrderLast]
    exact holds.chained.append holds.nodup fresh
  recvdOrder := by
    rw [Recvd.push, holds.recvdOrderLast, holds.recvdOrder]
    cases skbs <;> simp [List.getLast?_cons]
  recvdOrderLast := by simp [Recvd.push]
  recvdCount := by simp [Recvd.push, holds.recvdCount]
  recvdBytesTotal := by simp [Recvd.push, holds.recvdBytesTotal, truesizes]
  nodup := by
    rw [List.nodup_append]
    refine ⟨holds.nodup, List.nodup_singleton _, ?_⟩
    rintro other mem _ same rfl
    exact fresh (List.mem_singleton.mp same ▸ mem)

end Recvd

/-! ### The data in order and in the future -/

/-- A buffer is put at the end of the data in order. -/
def Space.pushInOrder (space : Space) (skb : SkBuff) : Space where
  links := space.links.append space.inOrderLast skb
  inOrder := if space.inOrderLast = none then some skb else space.inOrder
  inOrderLast := some skb
  inOrderCount := space.inOrderCount + 1
  future := space.future

/-- The first buffer leaves the data in order. -/
def Space.popInOrder (space : Space) (skb : SkBuff) : Space where
  links := space.links.popFront skb
  inOrder := space.links.next skb
  inOrderLast := if space.links.next skb = none then none else space.inOrderLast
  inOrderCount := space.inOrderCount - 1
  future := space.future

/-- The first buffer leaves the data in the future. -/
def Space.popFuture (space : Space) (skb : SkBuff) : Space :=
  { space with links := space.links.popFront skb, future := space.links.next skb }

/-- A buffer is put between two others of the data in the future, or at an end. -/
def Space.insertFuture (space : Space) (pskb nskb : Option SkBuff) (skb : SkBuff) : Space :=
  { space with
    links := space.links.insertBetween pskb nskb skb
    future := if pskb = none then some skb else space.future }

/-- The pointers are those of two lists. -/
structure Space.Holds (space : Space) (inOrder future : List SkBuff) : Prop where
  inOrderChained : space.links.Chained none inOrder none
  inOrder_eq : space.inOrder = inOrder.head?
  inOrderLast_eq : space.inOrderLast = inOrder.getLast?
  inOrderCount_eq : space.inOrderCount = inOrder.length
  futureChained : space.links.Chained none future none
  future_eq : space.future = future.head?
  nodup : (inOrder ++ future).Nodup

section Space

variable {space : Space} {inOrder future : List SkBuff} {skb : SkBuff}

theorem Space.Holds.apart (holds : space.Holds inOrder future) : ∀ other ∈ future,
    other ∉ inOrder :=
  fun other inFuture inOrder =>
    (List.nodup_append.mp holds.nodup).2.2 other inOrder other inFuture rfl

theorem Space.Holds.pushInOrder (holds : space.Holds inOrder future)
    (fresh : skb ∉ inOrder ++ future) :
    (space.pushInOrder skb).Holds (inOrder ++ [skb]) future := by
  rw [List.mem_append, not_or] at fresh
  exact {
    inOrderChained := by
      rw [Space.pushInOrder, holds.inOrderLast_eq]
      exact holds.inOrderChained.append (List.nodup_append.mp holds.nodup).1 fresh.1
    inOrder_eq := by
      rw [Space.pushInOrder, holds.inOrderLast_eq, holds.inOrder_eq]
      cases inOrder <;> simp [List.getLast?_cons]
    inOrderLast_eq := by simp [Space.pushInOrder]
    inOrderCount_eq := by simp [Space.pushInOrder, holds.inOrderCount_eq]
    futureChained := by
      rw [Space.pushInOrder, holds.inOrderLast_eq]
      exact holds.futureChained.append_frame fresh.2 holds.apart
    future_eq := holds.future_eq
    nodup := by
      have moved : (skb :: (inOrder ++ future)).Nodup :=
        List.nodup_cons.mpr ⟨by simpa using fresh, holds.nodup⟩
      rw [List.append_assoc]
      exact (List.perm_middle.symm.nodup_iff).mp moved }

theorem Space.Holds.popInOrder (holds : space.Holds (skb :: inOrder) future) :
    (space.popInOrder skb).Holds inOrder future where
  inOrderChained := holds.inOrderChained.popFront (List.nodup_append.mp holds.nodup).1
  inOrder_eq := holds.inOrderChained.2.1.trans Option.or_none
  inOrderLast_eq := by
    have next : space.links.next skb = inOrder.head? := by simpa using holds.inOrderChained.2.1
    rw [Space.popInOrder, next, holds.inOrderLast_eq]
    cases inOrder <;> simp [List.getLast?_cons]
  inOrderCount_eq := by simp [Space.popInOrder, holds.inOrderCount_eq]
  futureChained :=
    holds.inOrderChained.popFront_frame (List.nodup_append.mp holds.nodup).1
      holds.futureChained holds.apart
  future_eq := holds.future_eq
  nodup := (List.nodup_cons.mp holds.nodup).2

theorem Space.Holds.popFuture (holds : space.Holds inOrder (skb :: future)) :
    (space.popFuture skb).Holds inOrder future where
  inOrderChained :=
    holds.futureChained.popFront_frame (List.nodup_append.mp holds.nodup).2.1 holds.inOrderChained
      fun other mem inFuture => holds.apart other inFuture mem
  inOrder_eq := holds.inOrder_eq
  inOrderLast_eq := holds.inOrderLast_eq
  inOrderCount_eq := holds.inOrderCount_eq
  futureChained := holds.futureChained.popFront (List.nodup_append.mp holds.nodup).2.1
  future_eq := holds.futureChained.2.1.trans Option.or_none
  nodup := (List.nodup_cons.mp ((List.perm_middle.nodup_iff).mp holds.nodup)).2

theorem Space.Holds.insertFuture {front back : List SkBuff}
    (holds : space.Holds inOrder (front ++ back)) (fresh : skb ∉ inOrder ++ (front ++ back)) :
    (space.insertFuture front.getLast? back.head? skb).Holds inOrder (front ++ skb :: back) := by
  rw [List.mem_append, not_or] at fresh
  exact {
    inOrderChained :=
      holds.inOrderChained.insertBetween_frame fresh.1 fun other mem inFuture =>
        holds.apart other inFuture mem
    inOrder_eq := holds.inOrder_eq
    inOrderLast_eq := holds.inOrderLast_eq
    inOrderCount_eq := holds.inOrderCount_eq
    futureChained := holds.futureChained.insertBetween
      (List.nodup_append.mp holds.nodup).2.1 fresh.2
    future_eq := by
      rw [Space.insertFuture, holds.future_eq]
      cases front <;> simp [List.getLast?_cons]
    nodup := by
      have moved : (skb :: (inOrder ++ (front ++ back))).Nodup :=
        List.nodup_cons.mpr ⟨by simpa using fresh, holds.nodup⟩
      rw [← List.append_assoc] at moved ⊢
      exact (List.perm_middle.symm.nodup_iff).mp moved }

end Space

end Qsdk.Tracker
