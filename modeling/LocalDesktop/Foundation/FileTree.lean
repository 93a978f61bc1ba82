/- GID: LocalDesktop/Foundation/FileTree
   generality: G
   digest: A computable file system: a finite list of nodes under absolute paths. -/

import LocalDesktop.Foundation.Strings
import Mathlib.Data.List.Infix

set_option autoImplicit false
set_option relaxedAutoImplicit false

namespace LocalDesktop.Foundation.FileTree

open Strings (Text)

/-- The components of an absolute path. -/
abbrev Path := List String

/-- The content of a regular file: UTF-8 text, or bytes that are not. -/
inductive Data
  | text (t : Text)
  | bytes (b : List UInt8)
  deriving DecidableEq

/-- Where a symbolic link points; a relative target starts at the link's directory. -/
structure Target where
  absolute : Bool
  path : Path
  deriving DecidableEq

inductive Node
  | dir
  | file (d : Data)
  | symlink (target : Target)
  deriving DecidableEq

structure Tree where
  entries : List (Path × Node)

namespace Tree

def get (t : Tree) (p : Path) : Option Node :=
  (t.entries.find? fun e => e.1 = p).map Prod.snd

def set (t : Tree) (p : Path) (n : Node) : Tree := ⟨(p, n) :: t.entries⟩

/-- Everything at or below a path disappears. -/
def prune (t : Tree) (p : Path) : Tree := ⟨t.entries.filter fun e => ¬p <+: e.1⟩

/-- Only the node at the path itself disappears. -/
def erase (t : Tree) (p : Path) : Tree := ⟨t.entries.filter fun e => e.1 ≠ p⟩

/-- The whole subtree at `p` appears at `q` in place of what was there. -/
def move (t : Tree) (p q : Path) : Tree :=
  ⟨(t.entries.filter fun e => ¬q <+: e.1).map fun e =>
    if p <+: e.1 then (q ++ e.1.drop p.length, e.2) else e⟩

private def mkdir (t : Tree) (p : Path) : Tree := if (t.get p).isSome then t else t.set p .dir

/-- Make a directory of every ancestor of a path, and of the path, where nothing is. -/
def mkdirs (t : Tree) (p : Path) : Tree := p.inits.foldl mkdir t

/-- The directory has an entry. -/
def occupied (t : Tree) (p : Path) : Bool := t.entries.any fun e => p <+: e.1 && e.1 ≠ p

end Tree

variable {t t' : Tree} {p q r : Path} {n : Node}

@[simp] theorem get_set_self (t : Tree) (p : Path) (n : Node) : (t.set p n).get p = some n := by
  simp [Tree.get, Tree.set]

theorem get_set_of_ne (h : p ≠ q) : (t.set p n).get q = t.get q := by
  simp [Tree.get, Tree.set, h]

private theorem find?_filter_of_imp {α : Type} (keep wanted : α → Bool) (l : List α)
    (h : ∀ a, wanted a = true → keep a = true) :
    (l.filter keep).find? wanted = l.find? wanted := by
  rw [List.find?_filter]
  congr 1
  funext a
  by_cases ha : wanted a = true
  · simp [ha, h a ha]
  · simp [ha]

theorem get_prune (t : Tree) (p q : Path) :
    (t.prune p).get q = if p <+: q then none else t.get q := by
  unfold Tree.get Tree.prune
  split
  · rename_i h
    rw [Option.map_eq_none_iff, List.find?_eq_none]
    intro e he
    have hkeep := (List.mem_filter.mp he).2
    simp only [decide_eq_true_eq] at hkeep ⊢
    exact fun heq => hkeep (heq ▸ h)
  · rename_i h
    rw [find?_filter_of_imp]
    intro e he
    simp only [decide_eq_true_eq] at he ⊢
    exact fun hp => h (he ▸ hp)

theorem get_erase (t : Tree) (p q : Path) :
    (t.erase p).get q = if p = q then none else t.get q := by
  unfold Tree.get Tree.erase
  split
  · rename_i h
    rw [Option.map_eq_none_iff, List.find?_eq_none]
    intro e he
    have hkeep := (List.mem_filter.mp he).2
    simp only [decide_eq_true_eq] at hkeep ⊢
    exact fun heq => hkeep (heq.trans h.symm)
  · rename_i h
    rw [find?_filter_of_imp]
    intro e he
    simp only [decide_eq_true_eq] at he ⊢
    exact fun hp => h (hp.symm.trans he)

private theorem get_cons (e : Path × Node) (es : List (Path × Node)) (r : Path) :
    Tree.get ⟨e :: es⟩ r = if e.1 = r then some e.2 else Tree.get ⟨es⟩ r := by
  by_cases h : e.1 = r <;> simp [Tree.get, h]

theorem get_move_outside (hp : ¬p <+: r) (hq : ¬q <+: r) : (t.move p q).get r = t.get r := by
  obtain ⟨entries⟩ := t
  induction entries with
  | nil => rfl
  | cons e es ih =>
    rw [get_cons, ← ih]
    by_cases heq : q <+: e.1
    · have hne : e.1 ≠ r := fun h => hq (h ▸ heq)
      simp [Tree.move, heq, hne]
    · by_cases hep : p <+: e.1
      · have hne : e.1 ≠ r := fun h => hp (h ▸ hep)
        have hmoved : q ++ e.1.drop p.length ≠ r := fun h => hq (h ▸ List.prefix_append q _)
        simp only [Tree.move, List.filter_cons, heq, not_false_eq_true, decide_true, if_true,
          List.map_cons, hep, get_cons, if_neg hmoved, if_neg hne]
      · simp only [Tree.move, List.filter_cons, heq, not_false_eq_true, decide_true, if_true,
          List.map_cons, hep, if_false, get_cons]

theorem get_move_below (hqp : ¬q <+: p) (hpq : ¬p <+: q) (r : Path) :
    (t.move p q).get (q ++ r) = t.get (p ++ r) := by
  obtain ⟨entries⟩ := t
  have apart : ¬q <+: p ++ r := by
    intro h
    rcases List.prefix_or_prefix_of_prefix h (List.prefix_append p r) with h | h
    · exact hqp h
    · exact hpq h
  induction entries with
  | nil => rfl
  | cons e es ih =>
    rw [get_cons, ← ih]
    by_cases heq : q <+: e.1
    · have hne : e.1 ≠ p ++ r := fun h => apart (h ▸ heq)
      simp [Tree.move, heq, hne]
    · by_cases hep : p <+: e.1
      · obtain ⟨s, hs⟩ := hep
        have hiff : q ++ e.1.drop p.length = q ++ r ↔ e.1 = p ++ r := by
          rw [← hs, List.drop_left, List.append_cancel_left_eq, List.append_cancel_left_eq]
        simp only [Tree.move, List.filter_cons, heq, not_false_eq_true, decide_true, if_true,
          List.map_cons, show p <+: e.1 from ⟨s, hs⟩, get_cons, if_congr hiff rfl rfl]
      · have hne : e.1 ≠ q ++ r := fun h => heq (h ▸ List.prefix_append q r)
        have hne' : e.1 ≠ p ++ r := fun h => hep (h ▸ List.prefix_append p r)
        simp only [Tree.move, List.filter_cons, heq, not_false_eq_true, decide_true, if_true,
          List.map_cons, hep, if_false, get_cons, if_neg hne, if_neg hne']

theorem get_move_target (hqp : ¬q <+: p) (hpq : ¬p <+: q) : (t.move p q).get q = t.get p := by
  have hbelow := get_move_below (t := t) hqp hpq []
  rwa [List.append_nil, List.append_nil] at hbelow

theorem get_move_source (hqp : ¬q <+: p) (hpq : ¬p <+: q) (r : Path) :
    (t.move p q).get (p ++ r) = none := by
  rw [Tree.get, Option.map_eq_none_iff, List.find?_eq_none]
  intro e he
  simp only [decide_eq_true_eq]
  rintro heq
  obtain ⟨e', -, rfl⟩ := List.mem_map.mp he
  by_cases hp : p <+: e'.1
  · rw [if_pos hp] at heq
    have hq : q <+: p ++ r := heq ▸ List.prefix_append _ _
    exact (List.prefix_or_prefix_of_prefix hq (List.prefix_append p r)).elim hqp hpq
  · rw [if_neg hp] at heq
    exact hp (heq ▸ List.prefix_append _ _)

private theorem get_mkdir (t : Tree) (p q : Path) :
    (t.mkdir p).get q = (t.get q).or (if p = q then some .dir else none) := by
  unfold Tree.mkdir
  by_cases hpq : p = q
  · subst hpq
    cases h : t.get p <;> simp [h]
  · rw [if_neg hpq, Option.or_none]
    split
    · rfl
    · exact get_set_of_ne hpq

theorem get_mkdirs (t : Tree) (p q : Path) :
    (t.mkdirs p).get q = (t.get q).or (if q <+: p then some .dir else none) := by
  have hfold : ∀ (ps : List Path) (t : Tree),
      (ps.foldl Tree.mkdir t).get q = (t.get q).or (if q ∈ ps then some .dir else none) := by
    intro ps
    induction ps with
    | nil => simp
    | cons p ps ih =>
      intro t
      rw [List.foldl_cons, ih, get_mkdir, Option.or_assoc]
      congr 1
      by_cases hp : p = q
      · simp [hp]
      · simp [hp, Ne.symm hp]
  rw [Tree.mkdirs, hfold]
  simp only [List.mem_inits]

private theorem occupied_iff : t.occupied p = true ↔ ∃ q, p <+: q ∧ q ≠ p ∧
    (t.get q).isSome = true := by
  obtain ⟨entries⟩ := t
  simp only [Tree.occupied, List.any_eq_true, Bool.and_eq_true, decide_eq_true_eq]
  constructor
  · rintro ⟨e, he, hpre, hne⟩
    refine ⟨e.1, hpre, hne, ?_⟩
    rw [Tree.get, Option.isSome_map, List.find?_isSome]
    exact ⟨e, he, by simp⟩
  · rintro ⟨q, hpre, hne, hsome⟩
    rw [Tree.get, Option.isSome_map, List.find?_isSome] at hsome
    obtain ⟨e, he, heq⟩ := hsome
    obtain rfl : e.1 = q := by simpa using heq
    exact ⟨e, he, hpre, hne⟩

theorem occupied_of_get (hpre : p <+: q) (hne : q ≠ p) (h : (t.get q).isSome = true) :
    t.occupied p = true :=
  occupied_iff.mpr ⟨q, hpre, hne, h⟩

theorem occupied_mono (h : t.occupied p = true)
    (hkeep : ∀ q, p <+: q → (t.get q).isSome = true → (t'.get q).isSome = true) :
    t'.occupied p = true := by
  obtain ⟨q, hpre, hne, hsome⟩ := occupied_iff.mp h
  exact occupied_of_get hpre hne (hkeep q hpre hsome)

/-- Two trees hold the same nodes at and below a path. -/
def SameBelow (p : Path) (t t' : Tree) : Prop := ∀ q, p <+: q → t'.get q = t.get q

theorem SameBelow.occupied_eq (h : SameBelow p t t') : t'.occupied p = t.occupied p := by
  rw [Bool.eq_iff_iff, occupied_iff, occupied_iff]
  refine exists_congr fun q => and_congr_right fun hpre => ?_
  rw [h q hpre]

theorem SameBelow.refl (p : Path) (t : Tree) : SameBelow p t t := fun _ _ => rfl

end LocalDesktop.Foundation.FileTree
