/-
**Words of two bytes.**

Bytes in network order are summed up as words of two bytes, and the complement of the folded sum,
put in the place of a word that was zero, makes the sum a multiple of `65535`.
-/

import Mathlib.Data.Nat.ModEq
import Qsdk.Lib.OnesComplement

namespace Qsdk.Words

open OnesComplement

/-- The sum of the words, with a zero behind a last single byte. -/
def wordsSum : List Nat → Nat
  | [] => 0
  | [high] => high * 256
  | high :: low :: bytes => high * 256 + low + wordsSum bytes

/-- A word in network order. -/
def be16At (bytes : List Nat) (pos : Nat) : Nat := bytes[pos]?.getD 0 * 256 + bytes[pos + 1]?.getD 0

/-- A word is written in network order. -/
def putBe16 (bytes : List Nat) (pos value : Nat) : List Nat :=
  (bytes.set pos (value / 256 % 256)).set (pos + 1) (value % 256)

/-- The complement of a sum that is folded twice. -/
def complement (sum : Nat) : Nat := 65535 - fold 16 (fold 16 sum)

variable {bytes front : List Nat} {pos value sum : Nat}

@[simp] theorem length_putBe16 (bytes : List Nat) (pos value : Nat) :
    (putBe16 bytes pos value).length = bytes.length := by
  unfold putBe16
  rw [List.length_set, List.length_set]

theorem be16_split (small : value < 65536) : value / 256 % 256 * 256 + value % 256 =
    value := by omega

theorem be16At_put (small : value < 65536) (inside : pos + 1 < bytes.length) :
    be16At (putBe16 bytes pos value) pos = value := by
  unfold be16At putBe16
  rw [List.getElem?_set_ne (by omega), List.getElem?_set_self (by omega),
    List.getElem?_set_self (by rw [List.length_set]; exact inside)]
  exact be16_split small

theorem be16At_put_other {other : Nat} (apart : pos + 1 < other ∨ other + 1 < pos) :
    be16At (putBe16 bytes pos value) other = be16At bytes other := by
  unfold be16At putBe16
  rw [List.getElem?_set_ne (by omega), List.getElem?_set_ne (by omega),
    List.getElem?_set_ne (by omega),
    List.getElem?_set_ne (by omega)]

theorem putBe16_append (inside : pos + 1 < front.length) (bytes : List Nat) :
    putBe16 (front ++ bytes) pos value = putBe16 front pos value ++ bytes := by
  unfold putBe16
  rw [List.set_append_left _ _ (by omega),
    List.set_append_left _ _ (by rw [List.length_set]; exact inside)]

theorem be16At_append (inside : pos + 1 < front.length) (bytes : List Nat) :
    be16At (front ++ bytes) pos = be16At front pos := by
  unfold be16At
  rw [List.getElem?_append_left (by omega), List.getElem?_append_left inside]

/-- A word that is written takes the place of the old one in the sum. -/
theorem wordsSum_put {place : Nat} (small : value < 65536) (inside : 2 * place + 1 < bytes.length) :
    wordsSum (putBe16 bytes (2 * place) value) + be16At bytes (2 * place) =
        wordsSum bytes + value := by
  induction place generalizing bytes with
  | zero =>
    match bytes, inside with
    | high :: low :: bytes, _ =>
      have split : value / 256 % 256 * 256 + value % 256 = value := be16_split small
      have put : putBe16 (high :: low :: bytes) (2 * 0) value = value / 256 % 256 :: value % 256 ::
        bytes := rfl
      have at' : be16At (high :: low :: bytes) (2 * 0) = high * 256 + low := rfl
      simp only [put, at', wordsSum, split]
      omega
  | succ place ih =>
    match bytes, inside with
    | high :: low :: bytes, inside =>
      have further := @ih bytes (by
        rw [List.length_cons, List.length_cons] at inside
        omega)
      have put : putBe16 (high :: low :: bytes) (2 * (place + 1)) value =
          high :: low :: putBe16 bytes (2 * place) value := rfl
      have at' : be16At (high :: low :: bytes) (2 * (place + 1)) = be16At bytes (2 * place) := rfl
      rw [put, at', wordsSum, wordsSum]
      omega

/-- A sum of bytes is bounded by their number. -/
theorem wordsSum_le (small : ∀ byte ∈ bytes, byte < 256) : wordsSum bytes ≤
    65535 * (bytes.length / 2 + 1) := by
  induction bytes using wordsSum.induct with
  | case1 => exact Nat.zero_le _
  | case2 high =>
    have := small high List.mem_cons_self
    rw [wordsSum, List.length_singleton]
    omega
  | case3 high low bytes ih =>
    have one := small high List.mem_cons_self
    have two := small low (List.mem_cons_of_mem _ List.mem_cons_self)
    have rest := ih fun byte member =>
      small byte (List.mem_cons_of_mem _ (List.mem_cons_of_mem _ member))
    rw [wordsSum, List.length_cons, List.length_cons]
    omega

theorem complement_lt (sum : Nat) : complement sum < 65536 :=
    Nat.lt_of_le_of_lt (Nat.sub_le ..) (by decide)

/-- A sum and its complement are a multiple of `65535`. -/
theorem dvd_add_complement (bound : sum < 2 ^ 32) : 65535 ∣ sum + complement sum := by
  have small : fold 16 (fold 16 sum) < 2 ^ 16 := fold_fold_lt (by omega)
  have same : fold 16 (fold 16 sum) ≡ sum [MOD 2 ^ 16 - 1] := fold_modEq.trans fold_modEq
  have zero : fold 16 (fold 16 sum) + complement sum = 65535 := by
    unfold complement
    omega
  have whole := same.add_right (complement sum)
  rw [zero] at whole
  exact (Nat.modEq_zero_iff_dvd.mp (whole.symm.trans (by decide)))

end Qsdk.Words
