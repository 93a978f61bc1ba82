/- GID: LocalDesktop/Foundation/Rounding
   generality: G
   digest: How far a sum is off when each number is cut to an integer on its own. -/

import Mathlib.Algebra.Order.BigOperators.Group.List
import Mathlib.Algebra.Order.Floor.Ring
import Mathlib.Tactic.Linarith
import Mathlib.Tactic.Ring

set_option autoImplicit false
set_option relaxedAutoImplicit false

namespace LocalDesktop.Foundation.Rounding

variable {α : Type} [Field α] [LinearOrder α] [IsStrictOrderedRing α] [FloorRing α]

def truncate (x : α) : ℤ := if 0 ≤ x then ⌊x⌋ else ⌈x⌉

/-- Towards zero, and at most to the ends of a range. -/
def cut (low high : ℤ) (x : α) : ℤ := max low (min high (truncate x))

def fractional (x : α) : Bool := decide ((⌊x⌋ : α) ≠ x)

/-- How far a number lies outside of a range. -/
def beyond (low high : ℤ) (x : α) : α := max 0 (max (low - x) (x - high))

variable {low high : ℤ} {x : α} {xs : List α}

private theorem abs_truncate_sub_lt (x : α) : |(truncate x : α) - x| < 1 := by
  have hfloor := Int.floor_le x
  have hnext := Int.lt_floor_add_one x
  have hceil := Int.le_ceil x
  have hbefore := Int.ceil_lt_add_one x
  rw [abs_lt, truncate]
  split_ifs
  · constructor <;> linarith
  · constructor <;> linarith

private theorem truncate_of_whole (hx : fractional x = false) : (truncate x : α) = x := by
  have hfloor : (⌊x⌋ : α) = x := by simpa [fractional] using hx
  rw [truncate]
  split_ifs
  · exact hfloor
  · rw [← hfloor, Int.ceil_intCast]

private theorem le_truncate (hlow : (low : α) ≤ x) : low ≤ truncate x := by
  have hfloor : low ≤ ⌊x⌋ := Int.le_floor.mpr hlow
  rw [truncate]
  split_ifs
  · exact hfloor
  · exact hfloor.trans (Int.floor_le_ceil x)

private theorem truncate_le (hhigh : x ≤ high) : truncate x ≤ high := by
  have hceil : ⌈x⌉ ≤ high := Int.ceil_le.mpr hhigh
  rw [truncate]
  split_ifs
  · exact (Int.floor_le_ceil x).trans hceil
  · exact hceil

private theorem cut_of_mem (hlow : (low : α) ≤ x) (hhigh : x ≤ high) :
    cut low high x = truncate x := by
  rw [cut, min_eq_right (truncate_le hhigh), max_eq_right (le_truncate hlow)]

omit [FloorRing α] in
theorem beyond_of_mem (hlow : (low : α) ≤ x) (hhigh : x ≤ high) : beyond low high x = 0 := by
  apply max_eq_left
  exact max_le (sub_nonpos.mpr hlow) (sub_nonpos.mpr hhigh)

private theorem abs_cut_sub_of_lt (hrange : low ≤ high) (hx : x < low) :
    |(cut low high x : α) - x| = beyond low high x := by
  have hends : (low : α) ≤ high := by exact_mod_cast hrange
  have hcut : cut low high x = low := max_eq_left ((min_le_right _ _).trans (truncate_le hx.le))
  have hfar : x - high ≤ low - x := by linarith
  rw [hcut, abs_of_pos (sub_pos.mpr hx), beyond, max_eq_left hfar, max_eq_right (sub_pos.mpr hx).le]

private theorem abs_cut_sub_of_gt (hrange : low ≤ high) (hx : (high : α) < x) :
    |(cut low high x : α) - x| = beyond low high x := by
  have hends : (low : α) ≤ high := by exact_mod_cast hrange
  have hcut : cut low high x = high := by
    rw [cut, min_eq_left (le_truncate hx.le), max_eq_right hrange]
  have hfar : low - x ≤ x - high := by linarith
  rw [hcut, abs_sub_comm, abs_of_pos (sub_pos.mpr hx), beyond, max_eq_right hfar,
    max_eq_right (sub_pos.mpr hx).le]

private theorem abs_cut_sub_lt (hrange : low ≤ high) (x : α) :
    |(cut low high x : α) - x| < beyond low high x + 1 := by
  rcases lt_or_ge x low with hlow | hlow
  · rw [abs_cut_sub_of_lt hrange hlow]
    exact lt_add_one _
  · rcases lt_or_ge (high : α) x with hhigh | hhigh
    · rw [abs_cut_sub_of_gt hrange hhigh]
      exact lt_add_one _
    · rw [cut_of_mem hlow hhigh, beyond_of_mem hlow hhigh, zero_add]
      exact abs_truncate_sub_lt x

private theorem abs_cut_sub_of_whole (hrange : low ≤ high) (hx : fractional x = false) :
    |(cut low high x : α) - x| = beyond low high x := by
  rcases lt_or_ge x low with hlow | hlow
  · exact abs_cut_sub_of_lt hrange hlow
  · rcases lt_or_ge (high : α) x with hhigh | hhigh
    · exact abs_cut_sub_of_gt hrange hhigh
    · rw [cut_of_mem hlow hhigh, beyond_of_mem hlow hhigh, truncate_of_whole hx, sub_self, abs_zero]

/-! Sums. -/

/-- What may be lost of a number: less than one if it is not whole, and all that is outside of the
range. -/
def loss (low high : ℤ) (x : α) : α := beyond low high x + if fractional x then 1 else 0

private theorem abs_cut_sub_le_loss (hrange : low ≤ high) (x : α) :
    |(cut low high x : α) - x| ≤ loss low high x := by
  cases hx : fractional x with
  | true => simpa [loss, hx] using (abs_cut_sub_lt hrange x).le
  | false => simpa [loss, hx] using (abs_cut_sub_of_whole hrange hx).le

private theorem abs_cut_sub_lt_loss (hrange : low ≤ high) (hx : fractional x = true) :
    |(cut low high x : α) - x| < loss low high x := by
  simpa [loss, hx] using abs_cut_sub_lt hrange x

omit [IsStrictOrderedRing α] in
private theorem sum_loss (low high : ℤ) (xs : List α) :
    (xs.map (loss low high)).sum = (xs.map (beyond low high)).sum + xs.countP fractional := by
  induction xs with
  | nil => simp
  | cons x xs ih =>
    simp only [List.map_cons, List.sum_cons, List.countP_cons, ih, loss]
    push_cast
    ring

private theorem abs_sum_cut_sub_le_sum (low high : ℤ) (xs : List α) :
    |((xs.map (cut low high)).sum : α) - xs.sum| ≤
      (xs.map fun x => |(cut low high x : α) - x|).sum := by
  induction xs with
  | nil => simp
  | cons x xs ih =>
    simp only [List.map_cons, List.sum_cons, Int.cast_add]
    rw [add_sub_add_comm]
    exact (abs_add_le _ _).trans (add_le_add_right ih _)

theorem abs_sum_cut_sub_le (hrange : low ≤ high) (xs : List α) :
    |((xs.map (cut low high)).sum : α) - xs.sum| ≤
      (xs.map (beyond low high)).sum + xs.countP fractional := by
  rw [← sum_loss]
  apply (abs_sum_cut_sub_le_sum low high xs).trans
  exact List.sum_le_sum fun x _ => abs_cut_sub_le_loss hrange x

theorem abs_sum_cut_sub_lt (hrange : low ≤ high) (hsome : 0 < xs.countP fractional) :
    |((xs.map (cut low high)).sum : α) - xs.sum| <
      (xs.map (beyond low high)).sum + xs.countP fractional := by
  obtain ⟨x, hmem, hx⟩ := List.countP_pos_iff.mp hsome
  rw [← sum_loss]
  apply (abs_sum_cut_sub_le_sum low high xs).trans_lt
  exact List.sum_lt_sum _ _ (fun y _ => abs_cut_sub_le_loss hrange y)
    ⟨x, hmem, abs_cut_sub_lt_loss hrange hx⟩

end LocalDesktop.Foundation.Rounding
