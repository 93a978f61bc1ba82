/- GID: LocalDesktop/Smithay/CommitHooks
   generality: G
   digest: The hooks that run after the commit of a surface, and how often they run. -/

import LocalDesktop.Smithay.CommitRuns

/-!
A transaction applies the state of each of its surfaces, runs the hooks of the
surface and only then looks at the buffer. So a hook sees the buffer that the
surface had before.
-/

set_option autoImplicit false
set_option relaxedAutoImplicit false

namespace LocalDesktop.Smithay.Surfaces

open Foundation.Forest

variable {ρ : Type} {hook : Surface → Bool → ρ → ρ} {s s' : Surfaces} {x surface : Surface} {r : ρ}
  {world : World} {dimensions : WlBuffer → Option Size} {n : Nat} {t : Transaction}

section Hooks

variable (hook)

/-- One surface of a transaction, with what the hook does. -/
def applyPlaceWith (dimensions : WlBuffer → Option Size) (p : Surfaces × ρ)
    (place : Surface × Nat) : Surfaces × ρ :=
  if p.1.alive place.1 then
    let s := p.1.transform place.1 (PrivateSurfaceData.applyState place.2)
    let r := hook place.1 (s.data place.1).rendered.isSome p.2
    (onCommitBufferHandler dimensions s place.1, r)
  else
    p

def applyTransactionWith (dimensions : WlBuffer → Option Size) (p : Surfaces × ρ)
    (t : Transaction) : Surfaces × ρ :=
  t.surfaces.foldl (applyPlaceWith hook dimensions) p

def commitWith (world : World) (s : Surfaces) (surface : Surface) (r : ρ) : Surfaces × ρ :=
  match s.enqueueCommit surface with
  | (s, some client) =>
    let (ready, s) := dequeue world s client
    ready.foldl (applyTransactionWith hook world.dimensions) (s, r)
  | (s, none) => (s, r)

end Hooks

private theorem fst_applyTransactionWith {p : Surfaces × ρ} :
    (applyTransactionWith hook dimensions p t).1 = applyTransaction dimensions p.1 t := by
  rw [applyTransactionWith, applyTransaction]
  induction t.surfaces generalizing p with
  | nil => rfl
  | cons place places ih =>
    rw [List.foldl_cons, List.foldl_cons, ih, applyPlaceWith]
    split <;> rfl

theorem fst_commitWith : (commitWith hook world s surface r).1 = commit world s surface := by
  have hready : ∀ (ready : List Transaction) (p : Surfaces × ρ),
      (ready.foldl (applyTransactionWith hook world.dimensions) p).1 =
        ready.foldl (applyTransaction world.dimensions) p.1 := by
    intro ready
    induction ready with
    | nil => exact fun _ => rfl
    | cons t ready ih =>
      intro p
      rw [List.foldl_cons, List.foldl_cons, ih, fst_applyTransactionWith]
  rw [commitWith, commit]
  obtain ⟨queued, client⟩ := s.enqueueCommit surface
  cases client with
  | none => rfl
  | some client => exact hready _ _

theorem snd_commitWith_kept {I : ρ → Prop} (hkeep : ∀ y b r, I r → I (hook y b r)) (hr : I r) :
    I (commitWith hook world s surface r).2 := by
  have hplaces : ∀ (places : List (Surface × Nat)) (p : Surfaces × ρ), I p.2 →
      I (places.foldl (applyPlaceWith hook world.dimensions) p).2 := by
    intro places
    induction places with
    | nil => exact fun _ hp => hp
    | cons place places ih =>
      intro p hp
      refine ih _ ?_
      rw [applyPlaceWith]
      split
      · exact hkeep _ _ _ hp
      · exact hp
  have hready : ∀ (ready : List Transaction) (p : Surfaces × ρ), I p.2 →
      I (ready.foldl (applyTransactionWith hook world.dimensions) p).2 := by
    intro ready
    induction ready with
    | nil => exact fun _ hp => hp
    | cons t ready ih => exact fun p hp => ih _ (hplaces t.surfaces p hp)
  rw [commitWith]
  split
  · exact hready _ _ hr
  · exact hr

/-! The hooks of one surface that is the root of its tree. -/

section Root

variable {β : Type} {get : ρ → β} {f : Bool → β → β} {p : Surfaces × ρ}

private theorem rendered_onCommitBufferHandler {y : Surface} (hforest : s.Forest)
    (halive : s.alive y = true) (hroot : (s.data x).parent = none) (hne : y ≠ x) :
    ((onCommitBufferHandler dimensions s y).data x).rendered = (s.data x).rendered := by
  have hnot : x ∉ s.tree false y := by
    rw [mem_tree hforest halive]
    intro habove
    rcases Links.above_iff.mp habove with hself | hanc
    · exact hne hself.symm
    · obtain ⟨parent, -, hparent⟩ := Links.ancestor_iff_above_parent.mp hanc
      exact absurd (hroot.symm.trans hparent) (by simp)
  have hlist : ∀ (surfaces : List Surface) (s' : Surfaces), x ∉ surfaces →
      (surfaces.foldl (fun st z => st.transform z (PrivateSurfaceData.updateBuffer dimensions))
        s').data x = s'.data x := by
    intro surfaces
    induction surfaces with
    | nil => exact fun _ _ => rfl
    | cons z surfaces ih =>
      intro s' hx
      obtain ⟨hz, hrest⟩ := not_or.mp (mt List.mem_cons.mpr hx)
      rw [List.foldl_cons, ih _ hrest, transform, send_data, modify_data_of_ne hz]
  rw [onCommitBufferHandler]
  split
  · rfl
  · rw [mapTree_eq_foldl (fun _ _ => rfl) fun _ _ => rfl]
    exact congrArg PrivateSurfaceData.rendered (hlist _ s hnot)

private theorem fst_applyPlaceWith {place : Surface × Nat} :
    AppliedAll p.1 (applyPlaceWith hook dimensions p place).1 := by
  have hplace := AppliedAll.place dimensions p.1 place
  rw [applyPlaceWith]
  split at hplace
  next halive => simpa [halive] using hplace
  next halive => simpa [halive] using hplace

private theorem rendered_applyPlaceWith {place : Surface × Nat} (hforest : p.1.Forest)
    (hroot : (p.1.data x).parent = none) (hne : place.1 ≠ x) :
    ((applyPlaceWith hook dimensions p place).1.data x).rendered = (p.1.data x).rendered := by
  rw [applyPlaceWith]
  split
  next halive =>
    have hshape : (p.1.transform place.1 (PrivateSurfaceData.applyState place.2)).shape =
        p.1.shape := (Elementary.applyState p.1 place.1 place.2).shape
    have hsame : (p.1.transform place.1 (PrivateSurfaceData.applyState place.2)).data x =
        p.1.data x := by rw [transform, send_data, modify_data_of_ne hne.symm]
    refine (rendered_onCommitBufferHandler ?_ ?_ ?_ hne).trans ?_
    · rwa [Forest, links_of_shape hshape, nodes, surfaces_of_shape hshape]
    · rwa [alive_of_shape hshape]
    · rwa [hsame]
    · rw [hsame]
  · rfl

section Places

variable (hself : ∀ b r, get (hook x b r) = f b (get r))
  (hother : ∀ y b r, y ≠ x → get (hook y b r) = get r)
include hother

private theorem get_applyPlaceWith_of_ne {place : Surface × Nat} (hne : place.1 ≠ x) :
    get (applyPlaceWith hook dimensions p place).2 = get p.2 := by
  rw [applyPlaceWith]
  split
  · exact hother _ _ _ hne
  · rfl

private theorem get_foldl_of_not_mem {places : List (Surface × Nat)}
    (hx : x ∉ places.map Prod.fst) :
    get (places.foldl (applyPlaceWith hook dimensions) p).2 = get p.2 := by
  induction places generalizing p with
  | nil => rfl
  | cons place places ih =>
    rw [List.map_cons, List.mem_cons, not_or] at hx
    rw [List.foldl_cons, ih hx.2, get_applyPlaceWith_of_ne hother (Ne.symm hx.1)]

include hself

private theorem get_foldl {places : List (Surface × Nat)} (hnodup : (places.map Prod.fst).Nodup)
    (hx : x ∈ places.map Prod.fst) (hforest : p.1.Forest) (halive : p.1.alive x = true)
    (hroot : (p.1.data x).parent = none) :
    get (places.foldl (applyPlaceWith hook dimensions) p).2 =
      f (p.1.data x).rendered.isSome (get p.2) := by
  induction places generalizing p with
  | nil => cases hx
  | cons place places ih =>
    rw [List.map_cons] at hnodup hx
    obtain ⟨hplace, hrest⟩ := List.nodup_cons.mp hnodup
    rw [List.foldl_cons]
    by_cases heq : place.1 = x
    · have happlied : ((p.1.transform x (PrivateSurfaceData.applyState place.2)).data x).rendered =
          (p.1.data x).rendered := by
        rw [transform, send_data, modify_data_self]
        rfl
      rw [get_foldl_of_not_mem hother (heq ▸ hplace), applyPlaceWith, heq, if_pos halive, hself,
        happlied]
    · have happlied : (applyPlaceWith hook dimensions p place).1.shape = p.1.shape :=
        fst_applyPlaceWith.shape
      rw [ih hrest ((List.mem_cons.mp hx).resolve_left (Ne.symm heq)),
        rendered_applyPlaceWith hforest hroot heq, get_applyPlaceWith_of_ne hother heq]
      · rwa [Forest, links_of_shape happlied, nodes, surfaces_of_shape happlied]
      · rwa [alive_of_shape happlied]
      · exact (congrFun (congrArg Shape.parent happlied) x).trans hroot

/-- The commit of a root that is not synchronized runs its hook once, and the hook sees the buffer
from before the commit. -/
theorem get_commitWith (hforest : s.Forest) (hord : s.Ordered n) (hn : n + 1 ≤ 2 ^ 31 - 1)
    (halive : s.alive x = true) (hroot : (s.data x).parent = none)
    (hdesync : s.isEffectivelySync s.fuel x = false) :
    get (commitWith hook world s x r).2 = f (s.data x).rendered.isSome (get r) := by
  obtain ⟨queued, client, hqueued, hdequeue⟩ :=
    dequeue_commit world hforest hord hn halive hdesync
  have hshape : (s.commitStates x).shape = s.shape := shape_commitStates
  have hplaces : x ∈ (s.commitTransaction x).surfaces.map Prod.fst := by
    have hin : x ∈ s.together x := List.mem_append_right _ (List.mem_singleton.mpr rfl)
    obtain ⟨j, hj, -⟩ := covers_commitTransaction hforest hord hn halive hin
    exact List.mem_map_of_mem hj
  have hsame : ((s.commitStates x).data x).rendered = (s.data x).rendered := by
    rw [data_commitStates hforest halive]
    split <;> rfl
  simp only [commitWith, hqueued, hdequeue, List.foldl_cons, List.foldl_nil]
  rw [applyTransactionWith, get_foldl hself hother (fits_commitTransaction x hord).nodup hplaces]
  · exact congrArg (fun b : Option WlBuffer => f b.isSome (get r)) hsame
  · have hforest' : (s.commitStates x).Forest := by
      rwa [Forest, links_of_shape hshape, nodes, surfaces_of_shape hshape]
    exact hforest'
  · have halive' : (s.commitStates x).alive x = true := by rwa [alive_of_shape hshape]
    exact halive'
  · exact (congrFun (congrArg Shape.parent hshape) x).trans hroot

end Places

end Root

end LocalDesktop.Smithay.Surfaces
