/- GID: LocalDesktop/Smithay/SerialCounter
   generality: G
   digest: The serials of the counter, and their order however often it has wrapped around. -/

import LocalDesktop.Smithay.CachedState
import Mathlib.Data.List.Range

set_option autoImplicit false
set_option relaxedAutoImplicit false

namespace LocalDesktop.Smithay.Serial

variable {i j n counter : Nat}

/-- `next_serial`: a serial, and the counter of 32 bits after it. -/
def nextSerial (counter : Nat) : Nat × Nat :=
  let counter := if counter = 0 then 1 else counter
  (counter, next counter)

def nth (n : Nat) : Nat := n % (2 ^ 32 - 1) + 1

/-- The counter as it stands when `n` serials have been drawn. -/
def Drawn (n counter : Nat) : Prop := (nextSerial counter).1 = nth n

theorem drawn_zero : Drawn 0 1 := rfl

theorem Drawn.succ (h : Drawn n counter) : Drawn (n + 1) (nextSerial counter).2 := by
  have hvalue : (if counter = 0 then 1 else counter) = n % (2 ^ 32 - 1) + 1 := h
  have hlt : n % (2 ^ 32 - 1) < 2 ^ 32 - 1 := Nat.mod_lt _ (by decide)
  simp only [Drawn, nextSerial, nth, next, hvalue]
  split <;> omega

private theorem lt_iff_near_or_far {a b : Nat} :
    lt a b = true ↔ a < b ∧ b - a < (2 ^ 32 - 1) / 2 ∨ b < a ∧ (2 ^ 32 - 1) / 2 ≤ a - b := by
  simp only [lt]
  by_cases hba : b < a
  · rw [if_pos hba]
    split <;> simp only [decide_eq_true_eq] <;> omega
  · rw [if_neg hba]
    split <;> simp only [decide_eq_true_eq] <;> omega

private theorem lt_nth_iff (hij : i ≤ j + (2 ^ 31 - 2)) (hji : j ≤ i + (2 ^ 31 - 2)) :
    lt (nth i) (nth j) = true ↔ i < j := by
  rw [lt_iff_near_or_far, nth, nth]
  omega

private theorem nth_inj (hij : i ≤ j + (2 ^ 31 - 2)) (hji : j ≤ i + (2 ^ 31 - 2)) :
    nth i = nth j ↔ i = j := by
  simp only [nth]
  omega

theorem pairwise_nth (i : Nat) (hn : n < 2 ^ 31) :
    ((List.range' i n).map nth).Pairwise fun a b => lt a b = true ∧ lt b a = false ∧ a ≠ b := by
  rw [List.pairwise_map]
  have hrange : (List.range' i n 1).Pairwise (· < ·) := List.pairwise_lt_range'
  refine hrange.imp_of_mem ?_
  intro a b ha hb hab
  obtain ⟨hia, han⟩ := List.mem_range'_1.mp ha
  obtain ⟨hib, hbn⟩ := List.mem_range'_1.mp hb
  refine ⟨(lt_nth_iff (by omega) (by omega)).mpr hab, ?_, ?_⟩
  · rw [Bool.eq_false_iff, ne_eq, lt_nth_iff (by omega) (by omega)]
    omega
  · rw [ne_eq, nth_inj (by omega) (by omega)]
    omega

theorem lt_self : lt n n = false := by simp [lt]

end LocalDesktop.Smithay.Serial
