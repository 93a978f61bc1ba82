/- GID: LocalDesktop/Foundation/RelativePath
   generality: G
   digest: Relative paths, and where they lead below one root and below another. -/

import LocalDesktop.Foundation.FileTree

set_option autoImplicit false
set_option relaxedAutoImplicit false

namespace LocalDesktop.Foundation.RelativePath

open FileTree (Path)

/-- From a directory to one of its entries; the parent of the root is the root. -/
def enter (dir : Path) (component : String) : Path :=
  if component = "." then dir
  else if component = ".." then dir.dropLast
  else dir ++ [component]

/-- Where a path leads, with no symbolic link on the way. -/
def walk (dir path : Path) : Path := path.foldl enter dir

/-- The same for a path that may not leave the root. -/
def walkInside : Path → Path → Option Path
  | dir, [] => some dir
  | dir, component :: path =>
    if component = ".." ∧ dir = [] then none else walkInside (enter dir component) path

/-- A path of names only. -/
def Plain (path : Path) : Prop := ∀ component ∈ path, component ≠ "." ∧ component ≠ ".."

instance plainDecidable (path : Path) : Decidable (Plain path) :=
  inferInstanceAs (Decidable (∀ component ∈ path, _))

variable {dir path root target : Path} {component : String}

private theorem enter_append (h : ¬(component = ".." ∧ dir = [])) :
    enter (root ++ dir) component = root ++ enter dir component := by
  unfold enter
  split
  · rfl
  · split
    · next hup => exact List.dropLast_append_of_ne_nil fun hnil => h ⟨hup, hnil⟩
    · rw [List.append_assoc]

/-- What stays inside its root leads to the same place below every other root. -/
theorem walk_of_walkInside (h : walkInside dir path = some target) :
    walk (root ++ dir) path = root ++ target := by
  induction path generalizing dir with
  | nil =>
    cases h
    rfl
  | cons component path ih =>
    rw [walkInside] at h
    split at h
    · cases h
    · next hinside =>
      rw [walk, List.foldl_cons, enter_append hinside]
      exact ih h

private theorem walkInside_plain (h : Plain path) : walkInside dir path = some (dir ++ path) := by
  induction path generalizing dir with
  | nil => rw [walkInside, List.append_nil]
  | cons component path ih =>
    obtain ⟨⟨hhere, hup⟩, hrest⟩ := List.forall_mem_cons.mp h
    rw [walkInside, if_neg fun hout => hup hout.1, enter, if_neg hhere, if_neg hup, ih hrest,
      List.append_assoc, List.singleton_append]

private theorem walkInside_up (root dir path : Path) :
    walkInside (root ++ dir) (List.replicate dir.length ".." ++ path) = walkInside root path := by
  induction dir using List.reverseRecOn with
  | nil => rw [List.append_nil, List.length_nil, List.replicate_zero, List.nil_append]
  | append_singleton dir component ih =>
    have hne : root ++ (dir ++ [component]) ≠ [] := by simp
    rw [List.length_append, List.length_singleton, List.replicate_succ, List.cons_append,
      walkInside, if_neg fun hout => hne hout.2, ← List.append_assoc]
    simpa [enter] using ih

/-- The way to a path from a directory: up from where they part, and down again. -/
def relative : Path → Path → Path
  | component :: path, other :: dir =>
    if component = other then relative path dir
    else List.replicate (dir.length + 1) ".." ++ component :: path
  | path, dir => List.replicate dir.length ".." ++ path

theorem walkInside_relative (root dir : Path) (hpath : Plain path) :
    walkInside (root ++ dir) (relative path dir) = some (root ++ path) := by
  induction path generalizing root dir with
  | nil =>
    have hup := walkInside_up root dir []
    simpa [relative, walkInside] using hup
  | cons component path ih =>
    cases dir with
    | nil => simpa [relative] using walkInside_plain hpath
    | cons other dir =>
      rw [relative]
      split
      · next hsame =>
        have hrest : Plain path := (List.forall_mem_cons.mp hpath).2
        have hbelow := ih (root ++ [component]) dir hrest
        rw [← hsame]
        simpa using hbelow
      · exact (walkInside_up root (other :: dir) _).trans (walkInside_plain hpath)

end LocalDesktop.Foundation.RelativePath
