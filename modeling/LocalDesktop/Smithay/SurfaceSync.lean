/- GID: LocalDesktop/Smithay/SurfaceSync
   generality: G
   digest: What a commit applies at once, and what it leaves to the commit of a parent. -/

import LocalDesktop.Smithay.SurfaceRuns

set_option autoImplicit false
set_option relaxedAutoImplicit false

namespace LocalDesktop.Smithay.Surfaces

open Foundation.Forest Foundation.Transition

variable {s s' : Surfaces} {x y surface : Surface} {fuel : Nat} {t : Transaction}

theorem links_of_shape (hshape : s'.shape = s.shape) : s'.links = s.links := by
  apply links_eq
  · exact congrFun (congrArg Shape.parent hshape)
  · exact congrFun (congrArg Shape.children hshape)

theorem surfaces_of_shape (hshape : s'.shape = s.shape) : s'.surfaces = s.surfaces :=
  congrArg Shape.surfaces hshape

theorem alive_of_shape (hshape : s'.shape = s.shape) : s'.alive = s.alive := by
  funext x
  rw [alive, alive, surfaces_of_shape hshape]

theorem fuel_of_shape (hshape : s'.shape = s.shape) : s'.fuel = s.fuel := by
  rw [Surfaces.fuel, Surfaces.fuel, surfaces_of_shape hshape]

theorem isDirectSync_of_shape (hshape : s'.shape = s.shape) :
    (s'.data x).isDirectSync = (s.data x).isDirectSync := by
  have hsync : (s'.data x).sync = (s.data x).sync := congrFun (congrArg Shape.sync hshape) x
  rw [PrivateSurfaceData.isDirectSync, PrivateSurfaceData.isDirectSync, hsync]

private theorem getChildren_of_shape (hshape : s'.shape = s.shape) :
    s'.getChildren x = s.getChildren x := by
  have hchildren : (s'.data x).children = (s.data x).children :=
    congrFun (congrArg Shape.children hshape) x
  rw [getChildren, getChildren, hchildren]

private theorem isEffectivelySync_eq_any : s.isEffectivelySync fuel surface =
    (s.links.chain fuel surface).any fun a => (s.data a).isDirectSync := by
  induction fuel generalizing surface with
  | zero => rfl
  | succ fuel ih =>
    have hparent : s.links.parent surface = (s.data surface).parent := rfl
    rw [isEffectivelySync, Links.chain, List.any_cons, hparent]
    cases hdirect : (s.data surface).isDirectSync with
    | true => rfl
    | false =>
      cases (s.data surface).parent with
      | none => rfl
      | some parent => simpa using ih

theorem isEffectivelySync_iff (hforest : s.Forest) :
    s.isEffectivelySync s.fuel surface = true ↔
      ∃ a, s.links.Above a surface ∧ (s.data a).isDirectSync = true := by
  rw [isEffectivelySync_eq_any, List.any_eq_true]
  simp only [hforest.mem_chain nodes_card_lt_fuel]

/-! One pass over the surfaces that commit together. -/

def commitData (d : PrivateSurfaceData) : PrivateSurfaceData :=
  nextTransaction (d.commitState d.currentTxid).1

def commitOne (s : Surfaces) (x : Surface) : Surfaces :=
  (s.transform x (PrivateSurfaceData.commitState (s.data x).currentTxid)).modify x nextTransaction

def commitEach (surfaces : List Surface) (s : Surfaces) : Surfaces := surfaces.foldl commitOne s

/-- A surface after all surfaces below it. -/
def below (s : Surfaces) (x : Surface) : List Surface := s.links.post s.fuel x

/-- What `commit_sync_surface_tree` puts into a transaction. -/
def gather (s : Surfaces) : Nat → Surface → Transaction → Transaction
  | 0, _, t => t
  | fuel + 1, x, t =>
    (((s.getChildren x).foldl (fun t child => gather s fuel child t)
      (s.data x).pendingTransaction).insert x (s.data x).currentTxid).mergeInto s.alive t

section Pass

private theorem data_commitOne : (s.commitOne y).data x =
    if x = y then commitData (s.data x) else s.data x := by
  rw [commitOne, data_modify, transform, send_data, data_modify, data_modify, if_pos rfl]
  split
  next hx => rw [hx, commitData]
  · rfl

theorem shape_commitState {id : Nat} :
    (s.transform x (PrivateSurfaceData.commitState id)).shape = s.shape :=
  shape_transform (fun _ => rfl) (fun _ => rfl) (fun _ => rfl) fun _ => rfl

private theorem shape_commitOne : (s.commitOne y).shape = s.shape := by
  rw [commitOne, shape_modify rfl rfl rfl rfl, shape_commitState]

theorem shape_commitEach {surfaces : List Surface} : (commitEach surfaces s).shape = s.shape := by
  induction surfaces generalizing s with
  | nil => rfl
  | cons y ys ih => exact ih.trans shape_commitOne

private theorem commitEach_append {ys zs : List Surface} :
    commitEach (ys ++ zs) s = commitEach zs (commitEach ys s) := List.foldl_append

theorem data_commitEach {surfaces : List Surface} (hnodup : surfaces.Nodup) :
    (commitEach surfaces s).data x = if x ∈ surfaces then commitData (s.data x) else s.data x := by
  induction surfaces generalizing s with
  | nil => rfl
  | cons y ys ih =>
    obtain ⟨hy, hys⟩ := List.nodup_cons.mp hnodup
    rw [commitEach, List.foldl_cons, ← commitEach, ih hys, data_commitOne]
    by_cases hx : x = y
    · simp [hx, hy]
    · simp only [List.mem_cons, hx, false_or, if_false]

theorem gather_congr (hshape : s'.shape = s.shape)
    (hsame : ∀ y ∈ s.links.post fuel x, s'.data y = s.data y) :
    s'.gather fuel x t = s.gather fuel x t := by
  induction fuel generalizing x t with
  | zero => rfl
  | succ fuel ih =>
    have hself : s'.data x = s.data x := hsame x (by simp [Links.post])
    have hchildren : ∀ child ∈ s.getChildren x, ∀ t,
        s'.gather fuel child t = s.gather fuel child t := fun child hchild t =>
      ih fun y hy => hsame y (List.mem_append_left _ (List.mem_flatMap.mpr ⟨child, hchild, hy⟩))
    rw [gather, gather, hself, getChildren_of_shape hshape, alive_of_shape hshape,
      List.foldl_ext _ _ _ fun t child hchild => hchildren child hchild t]

theorem foldl_commit {children : List Surface} (joins : Surface → Bool)
    (step : Surfaces × Transaction → Surface → Surfaces × Transaction) (t : Transaction)
    (hnodup : (children.flatMap (s.links.post fuel)).Nodup)
    (hstep : ∀ (s' : Surfaces) (t : Transaction), s'.shape = s.shape → ∀ child ∈ children,
      step (s', t) child = if joins child then
        (commitEach (s'.links.post fuel child) s', s'.gather fuel child t) else (s', t)) :
    children.foldl step (s, t) =
      (commitEach ((children.filter joins).flatMap (s.links.post fuel)) s,
        (children.filter joins).foldl (fun t child => s.gather fuel child t) t) := by
  induction children generalizing s t with
  | nil => rfl
  | cons c cs ih =>
    obtain ⟨hc, hcs, hdisjoint⟩ := List.nodup_append'.mp (List.flatMap_cons ▸ hnodup)
    rw [List.foldl_cons, hstep s t rfl c List.mem_cons_self]
    by_cases hjoins : joins c = true
    · have hshape : (commitEach (s.links.post fuel c) s).shape = s.shape := shape_commitEach
      have hlinks := links_of_shape hshape
      have hlater := ih (s := commitEach (s.links.post fuel c) s) (s.gather fuel c t)
        (by rwa [hlinks]) fun s' t' hsame child hchild =>
          hstep s' t' (hsame.trans hshape) child (List.mem_cons_of_mem _ hchild)
      have hgather : ∀ child ∈ cs.filter joins, ∀ t,
          (commitEach (s.links.post fuel c) s).gather fuel child t = s.gather fuel child t := by
        intro child hchild t
        refine gather_congr hshape fun y hy => ?_
        have hnot : y ∉ s.links.post fuel c := fun hin =>
          hdisjoint hin (List.mem_flatMap.mpr ⟨child, List.mem_of_mem_filter hchild, hy⟩)
        rw [data_commitEach hc, if_neg hnot]
      rw [if_pos hjoins, hlater, hlinks, List.filter_cons_of_pos hjoins, List.flatMap_cons,
        commitEach_append, List.foldl_cons,
        List.foldl_ext _ _ _ fun t child hchild => hgather child hchild t]
    · rw [if_neg hjoins, List.filter_cons_of_neg hjoins]
      exact ih t hcs fun s' t' hsame child hchild =>
        hstep s' t' hsame child (List.mem_cons_of_mem _ hchild)

theorem commitSyncSurfaceTree_eq (hnodup : (s.links.post fuel x).Nodup) :
    commitSyncSurfaceTree fuel s x t =
      (commitEach (s.links.post fuel x) s, s.gather fuel x t) := by
  induction fuel generalizing s x t with
  | zero => rfl
  | succ fuel ih =>
    have hpost : s.links.post (fuel + 1) x =
        (s.getChildren x).flatMap (s.links.post fuel) ++ [x] := rfl
    rw [hpost] at hnodup ⊢
    obtain ⟨hbelow, -, hdisjoint⟩ := List.nodup_append'.mp hnodup
    have hx : x ∉ (s.getChildren x).flatMap (s.links.post fuel) := fun hin =>
      hdisjoint hin (List.mem_singleton.mpr rfl)
    have hstep : ∀ (s' : Surfaces) (t : Transaction), s'.shape = s.shape →
        ∀ child ∈ s.getChildren x, commitSyncSurfaceTree fuel s' child t =
          (commitEach (s'.links.post fuel child) s', s'.gather fuel child t) := by
      intro s' t hsame child hchild
      have hone := (List.nodup_flatMap.mp hbelow).1 child hchild
      exact ih (by rwa [links_of_shape hsame])
    have hloop := foldl_commit (fun _ => true)
      (fun p child => commitSyncSurfaceTree fuel p.1 child p.2) (s.data x).pendingTransaction
      hbelow hstep
    rw [List.filter_true] at hloop
    have hdata : (commitEach ((s.getChildren x).flatMap (s.links.post fuel)) s).data x = s.data x := by
      rw [data_commitEach hbelow, if_neg hx]
    have hone : commitEach [x] (commitEach ((s.getChildren x).flatMap (s.links.post fuel)) s) =
        ((commitEach ((s.getChildren x).flatMap (s.links.post fuel)) s).transform x
          (PrivateSurfaceData.commitState (s.data x).currentTxid)).modify x nextTransaction := by
      rw [commitEach, List.foldl_cons, List.foldl_nil, commitOne, hdata]
    rw [commitSyncSurfaceTree, hloop, commitEach_append]
    simp only [hdata, hone, gather, alive_of_shape (shape_commitState.trans shape_commitEach)]

end Pass

/-! What is gathered. -/

section Gather

variable {bound : Surface → Nat} {i : Nat}

theorem fits_foldl_gather {children : List Surface} (ht : t.Fits bound)
    (hgather : ∀ child ∈ children, ∀ t, t.Fits bound → (s.gather fuel child t).Fits bound) :
    (children.foldl (fun t child => s.gather fuel child t) t).Fits bound := by
  induction children generalizing t with
  | nil => exact ht
  | cons c cs ih =>
    exact ih (hgather c List.mem_cons_self t ht) fun child hchild =>
      hgather child (List.mem_cons_of_mem _ hchild)

theorem fits_gather (hpending : ∀ x, (s.data x).pendingTransaction.Fits bound)
    (hid : ∀ x, (s.data x).currentTxid < bound x) (ht : t.Fits bound) :
    (s.gather fuel x t).Fits bound := by
  induction fuel generalizing x t with
  | zero => exact ht
  | succ fuel ih =>
    rw [gather]
    refine Transaction.Fits.mergeInto (Transaction.Fits.insert ?_ (hid x)) ht
    exact fits_foldl_gather (hpending x) fun child _ t ht => ih ht

theorem covers_foldl_gather {children : List Surface} (ht : t.Fits bound)
    (hfits : ∀ child t, t.Fits bound → (s.gather fuel child t).Fits bound)
    (hgather : ∀ child t, t.Fits bound →
      t.Covers y i ∨ y ∈ s.links.post fuel child ∧ i ≤ (s.data y).currentTxid →
        (s.gather fuel child t).Covers y i)
    (hcovers : t.Covers y i ∨
      y ∈ children.flatMap (s.links.post fuel) ∧ i ≤ (s.data y).currentTxid) :
    (children.foldl (fun t child => s.gather fuel child t) t).Covers y i := by
  induction children generalizing t with
  | nil => exact hcovers.resolve_right (by simp)
  | cons c cs ih =>
    refine ih (hfits c t ht) ?_
    rcases hcovers with hcovers | ⟨hmem, hle⟩
    · exact .inl (hgather c t ht (.inl hcovers))
    · rw [List.flatMap_cons, List.mem_append] at hmem
      rcases hmem with hhead | htail
      · exact .inl (hgather c t ht (.inr ⟨hhead, hle⟩))
      · exact .inr ⟨htail, hle⟩

theorem covers_gather (hbound : ∀ x, bound x ≤ 2 ^ 31 - 1)
    (hpending : ∀ x, (s.data x).pendingTransaction.Fits bound)
    (hid : ∀ x, (s.data x).currentTxid < bound x) (halive : s.alive y = true)
    (ht : t.Fits bound)
    (hcovers : t.Covers y i ∨ y ∈ s.links.post fuel x ∧ i ≤ (s.data y).currentTxid) :
    (s.gather fuel x t).Covers y i := by
  induction fuel generalizing x t with
  | zero => exact hcovers.resolve_right (by simp [Links.post])
  | succ fuel ih =>
    have hchildren : ((s.getChildren x).foldl (fun t child => s.gather fuel child t)
        (s.data x).pendingTransaction).Fits bound :=
      fits_foldl_gather (hpending x) fun child _ t ht => fits_gather hpending hid ht
    rw [gather]
    refine Transaction.covers_mergeInto hbound (hchildren.insert (hid x)) ht ?_
    apply hcovers.imp_right
    rintro ⟨hmem, hle⟩
    refine ⟨halive, ?_⟩
    refine Transaction.covers_insert hbound hchildren (hid x) ?_
    rcases List.mem_append.mp hmem with hbelow | hself
    · left
      exact covers_foldl_gather (hpending x) (fun child t ht => fits_gather hpending hid ht)
        (fun child t ht hcovers => ih ht hcovers) (.inr ⟨hbelow, hle⟩)
    · obtain rfl := List.mem_singleton.mp hself
      exact .inr ⟨rfl, hle⟩

end Gather

end LocalDesktop.Smithay.Surfaces
