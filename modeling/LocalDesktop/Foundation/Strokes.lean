/- GID: LocalDesktop/Foundation/Strokes
   generality: G
   digest: Keys pressed and released: how many are held, and which of their codes are marked. -/

import LocalDesktop.Foundation.Transition
import Mathlib.Data.Finset.Image
import Mathlib.Data.Finset.Card

/-!
A keyboard has keys, each with a code that it may share with others. An observer
who only sees the codes marks one when a key with it is pressed and takes the
mark away when such a key is released. Another one counts.
-/

set_option autoImplicit false
set_option relaxedAutoImplicit false

namespace LocalDesktop.Foundation.Strokes

open Transition

variable {K C : Type} [DecidableEq K] [DecidableEq C]

inductive Stroke (K : Type)
  | press (k : K)
  | release (k : K)
  deriving DecidableEq

def Stroke.hold (keys : Finset K) : Stroke K → Finset K
  | .press k => insert k keys
  | .release k => keys.erase k

def held (strokes : List (Stroke K)) : Finset K := strokes.foldl Stroke.hold ∅

def Stroke.mark (code : K → C) (codes : Finset C) : Stroke K → Finset C
  | .press k => insert (code k) codes
  | .release k => codes.erase (code k)

def marked (code : K → C) (strokes : List (Stroke K)) : Finset C :=
  strokes.foldl (Stroke.mark code) ∅

/-- A counter of a machine word that does not go below zero. -/
def Stroke.count (size n : Nat) : Stroke K → Nat
  | .press _ => (n + 1) % size
  | .release _ => n - 1

def tally (size : Nat) (strokes : List (Stroke K)) : Nat :=
  strokes.foldl (Stroke.count size) 0

/-- A key that is up is pressed, one that is down is released. -/
def Stroke.Fits (keys : Finset K) : Stroke K → Prop
  | .press k => k ∉ keys
  | .release k => k ∈ keys

def Alternating : List (Stroke K) → Prop := AtEvery fun pre stroke => stroke.Fits (held pre)

/-- No key is released while another one with its code is down. -/
def Apart (code : K → C) : List (Stroke K) → Prop := AtEvery fun pre stroke =>
  ∀ k, stroke = .release k → ∀ other ∈ held pre, code other = code k → other = k

variable {code : K → C} {strokes : List (Stroke K)} {stroke : Stroke K} {size : Nat}

theorem held_snoc : held (strokes ++ [stroke]) = stroke.hold (held strokes) := by
  rw [held, List.foldl_append]
  rfl

omit [DecidableEq K] in
theorem marked_snoc : marked code (strokes ++ [stroke]) = stroke.mark code (marked code strokes) := by
  rw [marked, List.foldl_append]
  rfl

omit [DecidableEq K] in
theorem tally_snoc : tally size (strokes ++ [stroke]) = stroke.count size (tally size strokes) := by
  rw [tally, List.foldl_append]
  rfl

omit [DecidableEq K] in
theorem marked_append {before after : List (Stroke K)} (hnone : marked code before = ∅) :
    marked code (before ++ after) = marked code after := by
  rw [marked, List.foldl_append, ← marked, hnone, marked]

omit [DecidableEq K] in
theorem tally_append {before after : List (Stroke K)} (hzero : tally size before = 0) :
    tally size (before ++ after) = tally size after := by
  rw [tally, List.foldl_append, ← tally, hzero, tally]

theorem card_held_le (strokes : List (Stroke K)) : (held strokes).card ≤ strokes.length := by
  induction strokes using List.reverseRecOn with
  | nil => exact Nat.le_refl 0
  | append_singleton strokes stroke ih =>
    rw [held_snoc, List.length_append, List.length_singleton]
    cases stroke with
    | press k => exact (Finset.card_insert_le k _).trans (Nat.succ_le_succ ih)
    | release k => exact ((Finset.card_erase_le).trans ih).trans (Nat.le_succ _)

/-! The codes. -/

theorem marked_subset : marked code strokes ⊆ (held strokes).image code := by
  induction strokes using List.reverseRecOn with
  | nil => exact Finset.empty_subset _
  | append_singleton strokes stroke ih =>
    rw [held_snoc, marked_snoc]
    intro c hc
    cases stroke with
    | press k =>
      rw [Stroke.hold, Finset.image_insert]
      exact Finset.insert_subset_insert _ ih hc
    | release k =>
      obtain ⟨hne, hc⟩ := Finset.mem_erase.mp hc
      obtain ⟨k', hk', rfl⟩ := Finset.mem_image.mp (ih hc)
      have hk : k' ≠ k := fun e => hne (congrArg code e)
      exact Finset.mem_image_of_mem _ (Finset.mem_erase.mpr ⟨hk, hk'⟩)

private theorem mark_image {keys : Finset K}
    (happart : ∀ k, stroke = .release k → ∀ other ∈ keys, code other = code k → other = k) :
    stroke.mark code (keys.image code) = (stroke.hold keys).image code := by
  cases stroke with
  | press k => rw [Stroke.mark, Stroke.hold, Finset.image_insert]
  | release k =>
    ext c
    simp only [Stroke.mark, Stroke.hold, Finset.mem_erase, Finset.mem_image]
    constructor
    · rintro ⟨hne, other, hother, rfl⟩
      exact ⟨other, ⟨fun e => hne (congrArg code e), hother⟩, rfl⟩
    · rintro ⟨other, ⟨hne, hother⟩, rfl⟩
      exact ⟨fun e => hne (happart k rfl other hother e), other, hother, rfl⟩

private theorem marked_eq (happart : Apart code strokes) :
    marked code strokes = (held strokes).image code := by
  induction strokes using List.reverseRecOn with
  | nil => rfl
  | append_singleton strokes stroke ih =>
    rw [held_snoc, marked_snoc, ih (AtEvery.before happart)]
    exact mark_image (AtEvery.last happart)

/-- Where the marks are the codes of the keys that are down before and after a stroke, it meets no
other key with its code. -/
private theorem apart_of_marked (hbefore : marked code strokes = (held strokes).image code)
    (hafter : marked code (strokes ++ [stroke]) = (held (strokes ++ [stroke])).image code) (k : K)
    (hrelease : stroke = .release k) (other : K) (hother : other ∈ held strokes)
    (hcode : code other = code k) : other = k := by
  subst hrelease
  by_contra hne
  rw [held_snoc, marked_snoc, hbefore] at hafter
  have hdown : code other ∈ ((Stroke.release k).hold (held strokes)).image code :=
    Finset.mem_image_of_mem _ (Finset.mem_erase.mpr ⟨hne, hother⟩)
  rw [← hafter] at hdown
  exact (Finset.mem_erase.mp hdown).1 hcode

/-- The marks are always the codes of the keys that are down if and only if no key is released while
another one with its code is down. -/
theorem marked_eq_iff :
    (∀ pre post, strokes = pre ++ post → marked code pre = (held pre).image code) ↔
      Apart code strokes := by
  constructor
  · intro hall pre stroke post hsplit
    have hafter := hall (pre ++ [stroke]) post (by simp [hsplit])
    exact apart_of_marked (hall pre _ hsplit) hafter
  · intro happart pre post hsplit
    subst hsplit
    exact marked_eq (AtEvery.before happart)

/-! The counter. -/

private theorem card_hold_le (keys : Finset K) (hfits : stroke.Fits keys) {n : Nat}
    (hn : n ≤ keys.card) :
    stroke.count size n ≤ (stroke.hold keys).card := by
  cases stroke with
  | press k =>
    rw [Stroke.count, Stroke.hold, Finset.card_insert_of_notMem hfits]
    exact (Nat.mod_le _ _).trans (Nat.succ_le_succ hn)
  | release k =>
    rw [Stroke.count, Stroke.hold, Finset.card_erase_of_mem hfits]
    omega

theorem tally_le_card (halternating : Alternating strokes) :
    tally size strokes ≤ (held strokes).card := by
  induction strokes using List.reverseRecOn with
  | nil => exact Nat.le_refl 0
  | append_singleton strokes stroke ih =>
    rw [tally_snoc, held_snoc]
    exact card_hold_le _ (AtEvery.last halternating) (ih (AtEvery.before halternating))

omit [DecidableEq K] in
theorem tally_lt (hsize : 0 < size) : tally size strokes < size := by
  induction strokes using List.reverseRecOn with
  | nil => exact hsize
  | append_singleton strokes stroke ih =>
    rw [tally_snoc]
    cases stroke with
    | press k => exact Nat.mod_lt _ hsize
    | release k => exact (Nat.sub_le _ _).trans_lt ih

theorem tally_eq_card (halternating : Alternating strokes)
    (hsmall : ∀ pre post, strokes = pre ++ post → (held pre).card < size) :
    tally size strokes = (held strokes).card := by
  induction strokes using List.reverseRecOn with
  | nil => rfl
  | append_singleton strokes stroke ih =>
    have hbefore := ih (AtEvery.before halternating) fun pre post hsplit =>
      hsmall pre (post ++ [stroke]) (by rw [hsplit, List.append_assoc])
    have hlast := hsmall _ [] (List.append_nil _).symm
    have hfits := AtEvery.last halternating
    rw [held_snoc] at hlast
    rw [tally_snoc, held_snoc, hbefore]
    cases stroke with
    | press k =>
      rw [Stroke.hold, Finset.card_insert_of_notMem hfits] at hlast ⊢
      exact Nat.mod_eq_of_lt hlast
    | release k => rw [Stroke.count, Stroke.hold, Finset.card_erase_of_mem hfits]

/-- The counter is always the number of keys that are down if and only if these are always fewer
than the machine word holds. -/
theorem tally_eq_iff (hsize : 0 < size) (halternating : Alternating strokes) :
    (∀ pre post, strokes = pre ++ post → tally size pre = (held pre).card) ↔
      ∀ pre post, strokes = pre ++ post → (held pre).card < size := by
  constructor
  · intro hall pre post hsplit
    rw [← hall pre post hsplit]
    exact tally_lt hsize
  · intro hsmall pre post hsplit
    subst hsplit
    refine tally_eq_card (AtEvery.before halternating) fun pre' post' hsplit => ?_
    exact hsmall pre' (post' ++ post) (by rw [hsplit, List.append_assoc])

end LocalDesktop.Foundation.Strokes
