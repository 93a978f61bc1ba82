/- GID: LocalDesktop/Smithay/SurfaceApply
   generality: G
   digest: A commit that does not wait for a parent makes everything current that commits with it. -/

import LocalDesktop.Smithay.FrameCallbacks
import LocalDesktop.Smithay.SurfaceSync

set_option autoImplicit false
set_option relaxedAutoImplicit false

namespace LocalDesktop.Smithay

/-- What a commit overwrites; the buffer, the damage and the frame callbacks are accumulated. -/
structure SurfaceAttributes.Overwrites where
  bufferDelta : Option (Int × Int)
  bufferScale : Int
  bufferTransform : Transform
  opaqueRegion : Option RegionAttributes
  inputRegion : Option RegionAttributes
  clientScale : Nat

def SurfaceAttributes.overwrites (a : SurfaceAttributes) : SurfaceAttributes.Overwrites :=
  ⟨a.bufferDelta, a.bufferScale, a.bufferTransform, a.opaqueRegion, a.inputRegion, a.clientScale⟩

theorem overwritten_attributes : CachedState.Overwritten SurfaceAttributes.overwrites where
  commit_snapshot _ := rfl
  merge _ _ := rfl

theorem overwritten_location : CachedState.Overwritten SubsurfaceCachedState.location where
  commit_snapshot _ := rfl
  merge _ _ := rfl

namespace Surfaces

open Foundation.Forest CachedState

/-- The ids of the snapshots that wait. -/
def ids (d : PrivateSurfaceData) : List Nat :=
  d.attributes.cache.map Prod.fst ++ d.subsurface.cache.map Prod.fst

theorem ids_eq_nil_iff {d : PrivateSurfaceData} :
    ids d = [] ↔ d.attributes.cache = [] ∧ d.subsurface.cache = [] := by
  simp [ids]

/-! A surface while transactions are applied. -/

structure Applied (d d' : PrivateSurfaceData) : Prop where
  client : d'.client = d.client
  transaction : d'.pendingTransaction = d.pendingTransaction
  txid : d'.currentTxid = d.currentTxid
  attributes : d'.attributes.pending = d.attributes.pending
  subsurface : d'.subsurface.pending = d.subsurface.pending
  ids : ids d' ⊆ ids d
  overwrites : newest SurfaceAttributes.overwrites d'.attributes =
    newest SurfaceAttributes.overwrites d.attributes
  location : newest SubsurfaceCachedState.location d'.subsurface =
    newest SubsurfaceCachedState.location d.subsurface

namespace Applied

variable {d d' d'' : PrivateSurfaceData}

private theorem refl (d : PrivateSurfaceData) : Applied d d :=
  ⟨rfl, rfl, rfl, rfl, rfl, List.Subset.refl _, rfl, rfl⟩

private theorem trans (h : Applied d d') (h' : Applied d' d'') : Applied d d'' where
  client := h'.client.trans h.client
  transaction := h'.transaction.trans h.transaction
  txid := h'.txid.trans h.txid
  attributes := h'.attributes.trans h.attributes
  subsurface := h'.subsurface.trans h.subsurface
  ids := List.Subset.trans h'.ids h.ids
  overwrites := h'.overwrites.trans h.overwrites
  location := h'.location.trans h.location

private theorem applyState (d : PrivateSurfaceData) (id : Nat) : Applied d (d.applyState id).1 where
  client := rfl
  transaction := rfl
  txid := rfl
  attributes := rfl
  subsurface := rfl
  ids := (((List.dropWhile_sublist _).map Prod.fst).append
    ((List.dropWhile_sublist _).map Prod.fst)).subset
  overwrites := overwritten_attributes.newest_applyState id
  location := overwritten_location.newest_applyState id

private theorem of_current {attrs : SurfaceAttributes} {rendered : Option WlBuffer}
    (hsame : attrs.overwrites = d.attributes.current.overwrites) :
    Applied d { d with
      attributes := { d.attributes with current := attrs }, rendered := rendered } where
  client := rfl
  transaction := rfl
  txid := rfl
  attributes := rfl
  subsurface := rfl
  ids := List.Subset.refl _
  overwrites := by
    simp only [newest]
    cases d.attributes.cache.getLast? with
    | none => exact hsame
    | some last => rfl
  location := rfl

private theorem updateBuffer (d : PrivateSurfaceData) (dimensions : WlBuffer → Option Size) :
    Applied d (d.updateBuffer dimensions).1 := by
  simp only [PrivateSurfaceData.updateBuffer]
  split
  · split
    · exact of_current rfl
    · exact of_current rfl
  · exact of_current rfl
  · exact refl d

end Applied

/-! The application of a transaction. -/

section Apply

variable {s s' s'' : Surfaces} {x surface : Surface} {dimensions : WlBuffer → Option Size}
  {t : Transaction} {j : Nat}

structure AppliedAll (s s' : Surfaces) : Prop where
  shape : s'.shape = s.shape
  queues : s'.queues = s.queues
  data : ∀ x, Applied (s.data x) (s'.data x)

namespace AppliedAll

private theorem refl (s : Surfaces) : AppliedAll s s := ⟨rfl, rfl, fun _ => .refl _⟩

private theorem trans (h : AppliedAll s s') (h' : AppliedAll s' s'') : AppliedAll s s'' :=
  ⟨h'.shape.trans h.shape, h'.queues.trans h.queues, fun x => (h.data x).trans (h'.data x)⟩

private theorem foldl {α : Type} {step : Surfaces → α → Surfaces}
    (hstep : ∀ s a, AppliedAll s (step s a)) (l : List α) (s : Surfaces) :
    AppliedAll s (l.foldl step s) := by
  induction l generalizing s with
  | nil => exact .refl s
  | cons a l ih => exact (hstep s a).trans (ih (step s a))

private theorem transform {f : PrivateSurfaceData → PrivateSurfaceData × List WlBuffer}
    (hshape : (s.transform surface f).shape = s.shape) (hf : ∀ d, Applied d (f d).1) :
    AppliedAll s (s.transform surface f) where
  shape := hshape
  queues := rfl
  data x := by
    rw [Surfaces.transform, send_data, data_modify]
    split
    next hx => exact hx ▸ hf _
    · exact .refl _

private theorem onCommitBufferHandler (dimensions : WlBuffer → Option Size) (s : Surfaces)
    (surface : Surface) : AppliedAll s (onCommitBufferHandler dimensions s surface) := by
  rw [Surfaces.onCommitBufferHandler]
  split
  · exact .refl s
  · rw [mapTree_eq_foldl (fun _ _ => rfl) fun _ _ => rfl]
    exact foldl (fun s x => transform (Elementary.updateBuffer s x dimensions).shape
      fun d => .updateBuffer d dimensions) _ s

private theorem applyState {id : Nat} :
    AppliedAll s (s.transform surface (PrivateSurfaceData.applyState id)) :=
  transform (Elementary.applyState s surface id).shape fun d => .applyState d id

theorem place (dimensions : WlBuffer → Option Size) (s : Surfaces) (place : Surface × Nat) :
    AppliedAll s
    (if s.alive place.1 then
      Surfaces.onCommitBufferHandler dimensions
        (s.transform place.1 (PrivateSurfaceData.applyState place.2)) place.1
    else s) := by
  split
  · exact applyState.trans (onCommitBufferHandler _ _ _)
  · exact .refl s

theorem applyTransaction : AppliedAll s (applyTransaction dimensions s t) :=
  foldl (place dimensions) _ s

end AppliedAll

private theorem ids_applyState {d : PrivateSurfaceData}
    (hall : ∀ id ∈ ids d, Serial.lt j id = false) :
    ids (d.applyState j).1 = [] := by
  rw [ids_eq_nil_iff]
  constructor
  · refine applyState_cache_eq_nil fun entry hentry => hall entry.1 ?_
    exact List.mem_append_left _ (List.mem_map_of_mem hentry)
  · refine applyState_cache_eq_nil fun entry hentry => hall entry.1 ?_
    exact List.mem_append_right _ (List.mem_map_of_mem hentry)

theorem ids_foldl {places : List (Surface × Nat)} (halive : s.alive x = true)
    (hplace : (x, j) ∈ places) (hall : ∀ id ∈ ids (s.data x), Serial.lt j id = false) :
    ids ((places.foldl (fun s place =>
      if s.alive place.1 then
        onCommitBufferHandler dimensions
          (s.transform place.1 (PrivateSurfaceData.applyState place.2)) place.1
      else s) s).data x) = [] := by
  induction places generalizing s with
  | nil => cases hplace
  | cons head places ih =>
    have hhead := AppliedAll.place dimensions s head
    have htail := AppliedAll.foldl (AppliedAll.place dimensions) places
    rcases List.mem_cons.mp hplace with rfl | hrest
    · have hempty : ids ((s.transform x (PrivateSurfaceData.applyState j)).data x) = [] := by
        rw [transform, send_data, modify_data_self]
        exact ids_applyState hall
      rw [List.foldl_cons, if_pos halive]
      have hlater := (AppliedAll.onCommitBufferHandler dimensions
        (s.transform x (PrivateSurfaceData.applyState j)) x).trans (htail _)
      exact List.subset_nil.mp (hempty ▸ (hlater.data x).ids)
    · exact ih (alive_of_shape hhead.shape ▸ halive) hrest fun id hid =>
        hall id ((hhead.data x).ids hid)

end Apply

end Surfaces

end LocalDesktop.Smithay
