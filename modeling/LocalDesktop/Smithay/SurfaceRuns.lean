/- GID: LocalDesktop/Smithay/SurfaceRuns
   generality: G
   digest: Runs of requests in any order: the tree stays a forest, and which requests panic. -/

import LocalDesktop.Foundation.Transition
import LocalDesktop.Smithay.SurfaceCommit
import LocalDesktop.Smithay.SurfaceForest

set_option autoImplicit false
set_option relaxedAutoImplicit false

namespace LocalDesktop.Smithay.Surfaces

open Foundation.Forest Foundation.Transition

/-- The objects of a request exist, and those of one request are of one client; only
`get_subsurface` gives the role of a subsurface. -/
def Valid (s : Surfaces) : Request → Prop
  | .createSurface _ _ | .blockerCleared _ => True
  | .attach surface _ _ _ | .damage surface _ | .frame surface _ | .setOpaqueRegion surface _
  | .setInputRegion surface _ | .commit surface | .setBufferTransform surface _
  | .setBufferScale surface _ | .damageBuffer surface _ | .offset surface _ _
  | .destroySurface surface | .addBlocker surface _ => s.alive surface = true
  | .getSubsurface surface parent =>
    s.alive surface = true ∧ s.alive parent = true ∧
      (s.data surface).client = (s.data parent).client
  | .setPosition surface _ _ | .setSync surface | .setDesync surface
  | .destroySubsurface surface => surface ∈ s.subsurfaces
  | .placeAbove surface sibling | .placeBelow surface sibling =>
    surface ∈ s.subsurfaces ∧ s.alive sibling = true
  | .giveRole surface role => surface < s.created ∧ role ≠ .subsurface

/-- The requests of all clients, one at a time, in any order. -/
def system : System Surfaces (World × Request) where
  start := .empty
  step s label s' := Valid s label.2 ∧ request label.1 s label.2 = some s'

/-! What a commit is made of. -/

/-- One change on the way of a commit. None of them is about the tree. -/
inductive Elementary : Surfaces → Surfaces → Prop
  | commitState (s : Surfaces) (x : Surface) (id : Nat) :
      Elementary s (s.transform x (PrivateSurfaceData.commitState id))
  | applyState (s : Surfaces) (x : Surface) (id : Nat) :
      Elementary s (s.transform x (PrivateSurfaceData.applyState id))
  | updateBuffer (s : Surfaces) (x : Surface) (dimensions : WlBuffer → Option Size) :
      Elementary s (s.transform x (PrivateSurfaceData.updateBuffer dimensions))
  | transaction (s : Surfaces) (x : Surface) (t : Transaction) (id : Nat) :
      Elementary s (s.modify x fun d => { d with pendingTransaction := t, currentTxid := id })
  | queues (s : Surfaces) (queues : Client → List Transaction) :
      Elementary s { s with queues := queues }

def Elementaries : Surfaces → Surfaces → Prop := Relation.ReflTransGen Elementary

section Elementary

variable {s s' : Surfaces} {x surface : Surface} {world : World}

private theorem Elementary.single (hstep : Elementary s s') : Elementaries s s' := .single hstep

private theorem elementaries_foldl {α : Type} {step : Surfaces → α → Surfaces}
    (hstep : ∀ s a, Elementaries s (step s a)) (l : List α) (s : Surfaces) :
    Elementaries s (l.foldl step s) := by
  induction l generalizing s with
  | nil => exact .refl
  | cons a l ih => exact (hstep s a).trans (ih (step s a))

private theorem elementaries_foldl_pair {α β : Type} {step : Surfaces × β → α → Surfaces × β}
    (hstep : ∀ p a, Elementaries p.1 (step p a).1) (l : List α) (p : Surfaces × β) :
    Elementaries p.1 (l.foldl step p).1 := by
  induction l generalizing p with
  | nil => exact .refl
  | cons a l ih => exact (hstep p a).trans (ih (step p a))

private theorem elementary_nextTransaction : Elementary s (s.modify x nextTransaction) :=
  .transaction s x .new (Serial.next (s.data x).currentTxid)

private theorem elementaries_commitSyncSurfaceTree (fuel : Nat) (s : Surfaces) (surface : Surface)
    (t : Transaction) : Elementaries s (commitSyncSurfaceTree fuel s surface t).1 := by
  induction fuel generalizing s surface t with
  | zero => exact .refl
  | succ fuel ih =>
    rw [commitSyncSurfaceTree]
    have hchildren := elementaries_foldl_pair
      (fun (p : Surfaces × Transaction) child => ih p.1 child p.2)
      (s.getChildren surface) (s, (s.data surface).pendingTransaction)
    exact (hchildren.tail (.commitState _ _ _)).tail elementary_nextTransaction

private theorem elementaries_onCommitBufferHandler {dimensions : WlBuffer → Option Size} :
    Elementaries s (onCommitBufferHandler dimensions s surface) := by
  rw [onCommitBufferHandler]
  split
  · exact .refl
  · rw [mapTree_eq_foldl (fun _ _ => rfl) (fun _ _ => rfl)]
    exact elementaries_foldl (fun s x => .single (.updateBuffer s x dimensions)) _ s

private theorem elementaries_applyTransaction {dimensions : WlBuffer → Option Size}
    {t : Transaction} :
    Elementaries s (applyTransaction dimensions s t) := by
  apply elementaries_foldl
  intro s place
  split
  · exact (Elementary.single (.applyState _ _ _)).trans elementaries_onCommitBufferHandler
  · exact .refl

theorem elementaries_runQueue {client : Client} : Elementaries s (runQueue world s client) := by
  simp only [runQueue, dequeue]
  exact (Elementary.single (.queues s _)).trans
    (elementaries_foldl (fun _ _ => elementaries_applyTransaction) _ _)

private theorem elementaries_commitChild (isSync : Bool) (s : Surfaces) (t : Transaction)
    (surface : Surface) : Elementaries s (commitChild isSync s t surface).1 := by
  simp only [commitChild]
  split
  · exact elementaries_commitSyncSurfaceTree _ _ _ _
  · split
    · exact .single elementary_nextTransaction
    · exact .refl

private theorem elementaries_enqueueCommit : Elementaries s (s.enqueueCommit surface).1 := by
  have hchildren := elementaries_foldl_pair
    (fun (p : Surfaces × Transaction) child =>
      elementaries_commitChild (s.isEffectivelySync s.fuel surface) p.1 p.2 child)
    (s.getChildren surface)
    (s.transform surface (PrivateSurfaceData.commitState (s.data surface).currentTxid),
      ((s.transform surface (PrivateSurfaceData.commitState
        (s.data surface).currentTxid)).data surface).pendingTransaction)
  have hnext := ((Elementary.single (.commitState s surface _)).trans hchildren).tail
    (elementary_nextTransaction (x := surface))
  simp only [enqueueCommit]
  split
  · exact hnext.tail (.transaction _ _ _ _)
  · exact hnext.tail (.queues _ _)

theorem elementaries_commit : Elementaries s (commit world s surface) := by
  have hqueued : Elementaries s (s.enqueueCommit surface).1 := elementaries_enqueueCommit
  rw [commit]
  split
  next s₁ client hs =>
    rw [hs] at hqueued
    exact hqueued.trans elementaries_runQueue
  next s₁ hs =>
    rw [hs] at hqueued
    exact hqueued

end Elementary

/-! What the tree is about. -/

structure Shape where
  created : Nat
  surfaces : List Surface
  subsurfaces : List Surface
  parent : Surface → Option Surface
  children : Surface → List Surface
  role : Surface → Option Role
  sync : Surface → Option Bool

def shape (s : Surfaces) : Shape :=
  ⟨s.created, s.surfaces, s.subsurfaces, fun x => (s.data x).parent, fun x => (s.data x).children,
    fun x => (s.data x).role, fun x => (s.data x).sync⟩

section Shape

variable {s s' : Surfaces} {x surface : Surface} {f : PrivateSurfaceData → PrivateSurfaceData}

theorem shape_modify (hparent : (f (s.data surface)).parent = (s.data surface).parent)
    (hchildren : (f (s.data surface)).children = (s.data surface).children)
    (hrole : (f (s.data surface)).role = (s.data surface).role)
    (hsync : (f (s.data surface)).sync = (s.data surface).sync) :
    (s.modify surface f).shape = s.shape := by
  have hkeep : ∀ {β : Type} (read : PrivateSurfaceData → β),
      read (f (s.data surface)) = read (s.data surface) →
        (fun x => read ((s.modify surface f).data x)) = fun x => read (s.data x) := by
    intro β read hread
    funext x
    rw [data_modify]
    split
    next hx => rw [hread, hx]
    · rfl
  simp only [shape, modify_created, modify_surfaces, modify_subsurfaces]
  rw [hkeep PrivateSurfaceData.parent hparent, hkeep PrivateSurfaceData.children hchildren,
    hkeep PrivateSurfaceData.role hrole, hkeep PrivateSurfaceData.sync hsync]

theorem shape_send {events : List SurfaceEvent} : (s.send events).shape = s.shape := rfl

theorem shape_transform {f : PrivateSurfaceData → PrivateSurfaceData × List WlBuffer}
    (hparent : ∀ d, (f d).1.parent = d.parent) (hchildren : ∀ d, (f d).1.children = d.children)
    (hrole : ∀ d, (f d).1.role = d.role) (hsync : ∀ d, (f d).1.sync = d.sync) :
    (s.transform surface f).shape = s.shape := by
  rw [transform, shape_send]
  exact shape_modify (hparent _) (hchildren _) (hrole _) (hsync _)

private theorem updateBuffer_shape {dimensions : WlBuffer → Option Size} (d : PrivateSurfaceData) :
    (d.updateBuffer dimensions).1.parent = d.parent ∧
      (d.updateBuffer dimensions).1.children = d.children ∧
      (d.updateBuffer dimensions).1.role = d.role ∧
      (d.updateBuffer dimensions).1.sync = d.sync := by
  simp only [PrivateSurfaceData.updateBuffer]
  split
  · split <;> exact ⟨rfl, rfl, rfl, rfl⟩
  · exact ⟨rfl, rfl, rfl, rfl⟩
  · exact ⟨rfl, rfl, rfl, rfl⟩

theorem Elementary.shape (hstep : Elementary s s') : s'.shape = s.shape := by
  cases hstep with
  | commitState x id =>
    exact shape_transform (fun _ => rfl) (fun _ => rfl) (fun _ => rfl) (fun _ => rfl)
  | applyState x id =>
    exact shape_transform (fun _ => rfl) (fun _ => rfl) (fun _ => rfl) (fun _ => rfl)
  | updateBuffer x dimensions =>
    exact shape_transform (fun d => (updateBuffer_shape d).1) (fun d => (updateBuffer_shape d).2.1)
      (fun d => (updateBuffer_shape d).2.2.1) fun d => (updateBuffer_shape d).2.2.2
  | transaction x t id => exact shape_modify rfl rfl rfl rfl
  | queues queues => rfl

theorem shape_modifyPending {f : SurfaceAttributes → SurfaceAttributes} :
    (s.modifyPending surface f).shape = s.shape := shape_modify rfl rfl rfl rfl

private theorem shape_attach {buffer : Option WlBuffer} {x y : Int} :
    (s.attach surface buffer x y).shape = s.shape := by
  simp only [attach, shape_modifyPending]
  rw [apply_ite shape, shape_send, ite_self]

theorem Elementaries.shape (hsteps : Elementaries s s') : s'.shape = s.shape := by
  induction hsteps with
  | refl => rfl
  | tail _ hstep ih => exact hstep.shape.trans ih

theorem place_cases {sibling : Surface} {location : Location}
    (hplace : s.place surface location sibling = some s') :
    (∃ parent children, s' = s.modify parent fun d => { d with children := children }) ∨
      s' = s.send [.error surface .notSibling] := by
  obtain ⟨reordered, hreorder, rfl⟩ := Option.map_eq_some_iff.mp hplace
  cases reordered with
  | none => exact .inr rfl
  | some s' =>
    simp only [reorder, Option.bind_eq_bind, Option.bind_eq_some_iff] at hreorder
    obtain ⟨parent, -, children, -, hsome⟩ := hreorder
    obtain ⟨children, rfl, rfl⟩ := Option.map_eq_some_iff.mp (Option.some.inj hsome)
    exact .inl ⟨parent, children, rfl⟩

end Shape

/-! The tree in every state of a run. -/

structure Invariant (s : Surfaces) : Prop where
  forest : s.Forest
  created : ∀ x, s.alive x = true → x < s.created
  role : ∀ x, (s.data x).parent ≠ none → (s.data x).role = some .subsurface
  /-- A surface with an object of a subsurface has the flag. -/
  flag : ∀ x ∈ s.subsurfaces, x < s.created ∧ (s.data x).sync ≠ none

namespace Invariant

variable {s s' : Surfaces} {x surface parent sibling : Surface} {world : World} {r : Request}
  {client : Client} {version : Nat} {location : Location}

theorem of_shape (hinv : s.Invariant) (hshape : s'.shape = s.shape) : s'.Invariant := by
  have hcreated : s'.created = s.created := congrArg Shape.created hshape
  have hsurfaces : s'.surfaces = s.surfaces := congrArg Shape.surfaces hshape
  have hsubsurfaces : s'.subsurfaces = s.subsurfaces := congrArg Shape.subsurfaces hshape
  have hparent : ∀ x, (s'.data x).parent = (s.data x).parent :=
    congrFun (congrArg Shape.parent hshape)
  have hchildren : ∀ x, (s'.data x).children = (s.data x).children :=
    congrFun (congrArg Shape.children hshape)
  have hrole : ∀ x, (s'.data x).role = (s.data x).role := congrFun (congrArg Shape.role hshape)
  have hsync : ∀ x, (s'.data x).sync = (s.data x).sync := congrFun (congrArg Shape.sync hshape)
  have hlinks : s'.links = s.links := links_eq hparent hchildren
  refine ⟨?_, ?_, ?_, ?_⟩
  · rw [Forest, hlinks, nodes, hsurfaces]
    exact hinv.forest
  · intro x hx
    rw [hcreated]
    apply hinv.created
    simpa [alive, hsurfaces] using hx
  · intro x hx
    rw [hrole]
    exact hinv.role x (hparent x ▸ hx)
  · intro x hx
    rw [hsync, hcreated]
    exact hinv.flag x (hsubsurfaces ▸ hx)

theorem empty : Surfaces.empty.Invariant where
  forest := Links.WellFormed.empty
  created x hx := by simp [alive, Surfaces.empty] at hx
  role x hx := absurd rfl hx
  flag x hx := by cases hx

private theorem not_alive_created (hinv : s.Invariant) : s.alive s.created = false := by
  rw [Bool.eq_false_iff]
  intro halive
  exact lt_irrefl _ (hinv.created _ halive)

private theorem createSurface (hinv : s.Invariant) :
    (s.createSurface client version).Invariant where
  forest := forest_createSurface hinv.forest hinv.not_alive_created
  created x hx := by
    have hmem : s.alive x = true ∨ x = s.created := by
      simpa [alive, Surfaces.createSurface] using hx
    have hcreated : (s.createSurface client version).created = s.created + 1 := rfl
    rcases hmem with halive | rfl
    · exact hcreated ▸ Nat.lt_succ_of_lt (hinv.created x halive)
    · exact hcreated ▸ Nat.lt_succ_self _
  role x hx := by
    by_cases hne : x = s.created
    · subst hne
      simp [Surfaces.createSurface, PrivateSurfaceData.new] at hx
    · simp only [Surfaces.createSurface, Function.update_of_ne hne] at hx ⊢
      exact hinv.role x hx
  flag x hx := by
    obtain ⟨hlt, hflag⟩ := hinv.flag x hx
    refine ⟨Nat.lt_succ_of_lt hlt, ?_⟩
    simpa only [Surfaces.createSurface, Function.update_of_ne hlt.ne] using hflag

private theorem parent_unsetParent : ((s.unsetParent surface).data x).parent =
    if x = surface then none else (s.data x).parent := by
  rw [← Function.update_apply (fun x => (s.data x).parent)]
  exact congrFun (congrArg Links.parent links_unsetParent) x

private theorem unsetParent (hinv : s.Invariant) : (s.unsetParent surface).Invariant := by
  have hsame : (s.unsetParent surface).created = s.created ∧
      (s.unsetParent surface).subsurfaces = s.subsurfaces := by
    rw [Surfaces.unsetParent]
    split <;> exact ⟨rfl, rfl⟩
  refine ⟨forest_unsetParent hinv.forest, ?_, ?_, ?_⟩
  · intro x hx
    rw [hsame.1]
    apply hinv.created
    simpa [alive, unsetParent_surfaces] using hx
  · intro x hx
    rw [read_unsetParent (g := PrivateSurfaceData.role) (fun _ _ => rfl) fun _ _ => rfl]
    apply hinv.role
    rw [parent_unsetParent] at hx
    split at hx
    · exact absurd rfl hx
    · exact hx
  · intro x hx
    rw [hsame.1, read_unsetParent (g := PrivateSurfaceData.sync) (fun _ _ => rfl) fun _ _ => rfl]
    exact hinv.flag x (hsame.2 ▸ hx)

private theorem destroySurface (hinv : s.Invariant) : (s.destroySurface surface).Invariant := by
  have hsame : (s.destroySurface surface).created = s.created ∧
      (s.destroySurface surface).subsurfaces = s.subsurfaces := by
    simp only [Surfaces.destroySurface, cleanup, send_created, send_subsurfaces, modify_created,
      modify_subsurfaces, orphan, Surfaces.unsetParent]
    split <;> exact ⟨rfl, rfl⟩
  have hparent : ∀ x, ((s.destroySurface surface).data x).parent =
      if x = surface ∨ (s.data x).parent = some surface then none else (s.data x).parent :=
    congrFun (congrArg Links.parent (links_destroySurface hinv.forest))
  have hrole : ∀ x, ((s.destroySurface surface).data x).role = (s.data x).role := fun x =>
    read_cleanup (g := PrivateSurfaceData.role) (fun _ _ => rfl) (fun _ _ => rfl) fun _ => rfl
  have hsync : ∀ x, ((s.destroySurface surface).data x).sync = (s.data x).sync := fun x =>
    read_cleanup (g := PrivateSurfaceData.sync) (fun _ _ => rfl) (fun _ _ => rfl) fun _ => rfl
  refine ⟨forest_destroySurface hinv.forest, ?_, ?_, ?_⟩
  · intro x hx
    rw [hsame.1]
    apply hinv.created
    rw [← mem_nodes] at hx ⊢
    simp only [nodes, Surfaces.destroySurface, cleanup, send_surfaces, modify_surfaces, orphan,
      unsetParent_surfaces, List.mem_toFinset, List.mem_filter] at hx ⊢
    exact hx.1
  · intro x hx
    rw [hrole]
    apply hinv.role
    rw [hparent] at hx
    split at hx
    · exact absurd rfl hx
    · exact hx
  · intro x hx
    rw [hsync, hsame.1]
    exact hinv.flag x (hsame.2 ▸ hx)

private theorem setParent (hinv : s.Invariant) (hchild : s.alive surface = true)
    (hparent : s.alive parent = true) (hset : s.setParent surface parent = some s') :
    s'.Invariant := by
  have hforest := forest_setParent hinv.forest hchild hparent hset
  obtain ⟨-, -, -, rfl⟩ := setParent_eq_some_iff.mp hset
  refine ⟨hforest, hinv.created, ?_, ?_⟩
  · intro x hx
    by_cases hxs : x = surface
    · subst hxs
      by_cases hxp : x = parent <;> simp [data_modify, hxp]
    · by_cases hxp : x = parent
      · subst hxp
        simp only [data_modify, hxs, if_true, if_false] at hx ⊢
        exact hinv.role x hx
      · simp only [data_modify, hxs, hxp, if_false] at hx ⊢
        exact hinv.role x hx
  · intro x hx
    obtain ⟨hlt, hflag⟩ := hinv.flag x hx
    refine ⟨hlt, ?_⟩
    by_cases hxs : x = surface
    · by_cases hxp : x = parent <;> simp_all [data_modify]
    · by_cases hxp : x = parent <;> simp_all [data_modify]

private theorem reorder (hinv : s.Invariant) (hreorder : s.reorder surface location sibling =
    some (some s')) : s'.Invariant := by
  have hforest := forest_reorder hinv.forest hreorder
  simp only [Surfaces.reorder, Option.bind_eq_bind, Option.bind_eq_some_iff] at hreorder
  obtain ⟨p, -, cs, -, hsome⟩ := hreorder
  obtain ⟨cs, rfl, rfl⟩ := Option.map_eq_some_iff.mp (Option.some.inj hsome)
  refine ⟨hforest, hinv.created, ?_, ?_⟩
  · intro x hx
    by_cases hxp : x = p
    · subst hxp
      simp only [modify_data_self] at hx ⊢
      exact hinv.role x hx
    · rw [modify_data_of_ne hxp] at hx ⊢
      exact hinv.role x hx
  · intro x hx
    obtain ⟨hlt, hflag⟩ := hinv.flag x hx
    refine ⟨hlt, ?_⟩
    by_cases hxp : x = p
    · subst hxp
      simpa using hflag
    · rwa [modify_data_of_ne hxp]

theorem setRole {role : Role} (hinv : s.Invariant) (hother : role ≠ .subsurface)
    (hset : s.setRole surface role = some s') : s'.Invariant := by
  simp only [Surfaces.setRole] at hset
  split at hset
  · cases hset
  next hfree =>
    cases hset
    have hlinks : (s.modify surface fun d => { d with role := some role }).links = s.links :=
      links_modify rfl rfl
    refine ⟨by rw [Forest, hlinks]; exact hinv.forest, hinv.created, ?_, ?_⟩
    · intro x hx
      by_cases hxs : x = surface
      · subst hxs
        have hsub : (s.data x).role = some .subsurface := hinv.role x (by simpa using hx)
        exact absurd ⟨by simp [hsub], by simpa [hsub] using hother.symm⟩ hfree
      · rw [modify_data_of_ne hxs] at hx ⊢
        exact hinv.role x hx
    · intro x hx
      obtain ⟨hlt, hflag⟩ := hinv.flag x hx
      refine ⟨hlt, ?_⟩
      by_cases hxs : x = surface
      · subst hxs
        simpa using hflag
      · rwa [modify_data_of_ne hxs]

private theorem withFlag {sync : Option Bool} {subsurfaces : List Surface} (hinv : s.Invariant)
    (hsync : (s.data surface).sync ≠ none → sync ≠ none)
    (hsub : ∀ x ∈ subsurfaces, x ∈ s.subsurfaces ∨ x = surface ∧ sync ≠ none ∧ x < s.created) :
    ({ s with subsurfaces := subsurfaces }.modify surface fun d => { d with sync := sync }).Invariant
    := by
  have hlinks : ({ s with subsurfaces := subsurfaces }.modify surface fun d =>
      { d with sync := sync }).links = s.links := links_modify rfl rfl
  refine ⟨by rw [Forest, hlinks]; exact hinv.forest, hinv.created, ?_, ?_⟩
  · intro x hx
    by_cases hxs : x = surface
    · subst hxs
      simp only [modify_data_self] at hx ⊢
      exact hinv.role x hx
    · rw [modify_data_of_ne hxs] at hx ⊢
      exact hinv.role x hx
  · intro x hx
    rcases hsub x hx with hold | ⟨rfl, hsome, hlt⟩
    · obtain ⟨hlt, hflag⟩ := hinv.flag x hold
      refine ⟨hlt, ?_⟩
      by_cases hxs : x = surface
      · subst hxs
        simpa using hsync hflag
      · rwa [modify_data_of_ne hxs]
    · exact ⟨hlt, by simpa using hsome⟩

private theorem place (hinv : s.Invariant) (hplace : s.place surface location sibling = some s') :
    s'.Invariant := by
  obtain ⟨reordered, hreorder, rfl⟩ := Option.map_eq_some_iff.mp hplace
  cases reordered with
  | none => exact hinv.of_shape shape_send
  | some s' => exact hinv.reorder hreorder

private theorem getSubsurface (hinv : s.Invariant) (hsurface : s.alive surface = true)
    (hparent : s.alive parent = true) : (s.getSubsurface surface parent).Invariant := by
  rw [Surfaces.getSubsurface]
  split
  next s₁ hset =>
    have hinv₁ := hinv.setParent hsurface hparent hset
    obtain ⟨-, -, -, rfl⟩ := setParent_eq_some_iff.mp hset
    refine hinv₁.withFlag (fun _ => ?_) fun x hx => ?_
    · cases ((((s.modify surface _).modify parent _)).data surface).sync <;> simp
    · rcases List.mem_append.mp hx with hx | hx
      · exact .inl hx
      · obtain rfl := List.mem_singleton.mp hx
        refine .inr ⟨rfl, ?_, hinv.created x hsurface⟩
        cases ((((s.modify x _).modify parent _)).data x).sync <;> simp
  · exact hinv.of_shape shape_send

private theorem setSyncFlag {sync : Bool} (hinv : s.Invariant)
    (hset : s.setSyncFlag surface sync = some s') : s'.Invariant := by
  obtain ⟨-, -, rfl⟩ := Option.map_eq_some_iff.mp hset
  exact hinv.withFlag (fun _ => Option.some_ne_none _) fun x hx => .inl hx

private theorem destroySubsurface (hinv : s.Invariant)
    (hdestroy : s.destroySubsurface surface = some s') : s'.Invariant := by
  obtain ⟨s₁, hset, rfl⟩ := Option.map_eq_some_iff.mp hdestroy
  have hfewer : { s with subsurfaces := s.subsurfaces.erase surface }.Invariant :=
    ⟨hinv.forest, hinv.created, hinv.role, fun x hx => hinv.flag x (List.mem_of_mem_erase hx)⟩
  exact (hfewer.unsetParent.setSyncFlag hset).of_shape (shape_modify rfl rfl rfl rfl)

theorem request (hinv : s.Invariant) (hvalid : s.Valid r) (hr : Surfaces.request world s r =
    some s') : s'.Invariant := by
  cases r with
  | createSurface client version =>
    cases hr
    exact hinv.createSurface
  | attach surface buffer x y =>
    cases hr
    exact hinv.of_shape shape_attach
  | damage | frame | setOpaqueRegion | setInputRegion | setBufferTransform | damageBuffer | offset =>
    cases hr
    exact hinv.of_shape shape_modifyPending
  | commit surface =>
    cases hr
    exact (hinv.of_shape shape_modifyPending).of_shape elementaries_commit.shape
  | setBufferScale surface scale =>
    simp only [Surfaces.request] at hr
    split at hr
    · cases hr
      exact hinv.of_shape shape_modifyPending
    · cases hr
      exact hinv.of_shape shape_send
  | destroySurface surface =>
    cases hr
    exact hinv.destroySurface
  | getSubsurface surface parent =>
    cases hr
    exact hinv.getSubsurface hvalid.1 hvalid.2.1
  | setPosition | addBlocker =>
    cases hr
    exact hinv.of_shape (shape_modify rfl rfl rfl rfl)
  | placeAbove | placeBelow => exact hinv.place hr
  | setSync | setDesync => exact hinv.setSyncFlag hr
  | destroySubsurface surface => exact hinv.destroySubsurface hr
  | giveRole surface role =>
    cases hr
    cases hset : s.setRole surface role with
    | none => exact hinv.of_shape shape_send
    | some s' => exact hinv.setRole hvalid.2 hset
  | blockerCleared client =>
    cases hr
    exact hinv.of_shape elementaries_runQueue.shape

private theorem unsetParent_created : (s.unsetParent surface).created = s.created := by
  rw [Surfaces.unsetParent]
  split <;> rfl

private theorem cleanup_created : (s.cleanup surface).created = s.created := by
  simp only [cleanup, send_created, modify_created, orphan]
  exact unsetParent_created

private theorem setSyncFlag_created {sync : Bool} (hset : s.setSyncFlag surface sync = some s') :
    s'.created = s.created := by
  obtain ⟨-, -, rfl⟩ := Option.map_eq_some_iff.mp hset
  rfl

private theorem place_created (hplace : s.place surface location sibling = some s') :
    s'.created = s.created := by
  obtain ⟨parent, children, rfl⟩ | rfl := place_cases hplace
  · rfl
  · rfl

theorem created_le_request (hr : Surfaces.request world s r = some s') :
    s.created ≤ s'.created := by
  have hsame : ∀ {t : Surfaces}, t.shape = s.shape → s.created ≤ t.created := fun h =>
    (congrArg Shape.created h).ge
  cases r with
  | createSurface client version =>
    cases hr
    exact Nat.le_succ _
  | attach surface buffer x y =>
    cases hr
    exact hsame shape_attach
  | damage | frame | setOpaqueRegion | setInputRegion | setBufferTransform | damageBuffer | offset =>
    cases hr
    exact hsame shape_modifyPending
  | commit surface =>
    cases hr
    exact hsame (elementaries_commit.shape.trans shape_modifyPending)
  | setBufferScale surface scale =>
    simp only [Surfaces.request] at hr
    split at hr
    · cases hr
      exact hsame shape_modifyPending
    · cases hr
      exact hsame shape_send
  | destroySurface surface =>
    cases hr
    rw [Surfaces.destroySurface, cleanup_created]
  | getSubsurface surface parent =>
    cases hr
    simp only [Surfaces.getSubsurface]
    split
    next s₁ hset =>
      obtain ⟨-, -, -, rfl⟩ := setParent_eq_some_iff.mp hset
      exact le_rfl
    · exact le_rfl
  | setPosition | addBlocker =>
    cases hr
    exact le_rfl
  | placeAbove | placeBelow => exact (place_created hr).ge
  | setSync | setDesync => exact (setSyncFlag_created hr).ge
  | destroySubsurface surface =>
    obtain ⟨s₁, hset, rfl⟩ := Option.map_eq_some_iff.mp hr
    exact ((setSyncFlag_created hset).trans unsetParent_created).ge
  | giveRole surface role =>
    cases hr
    simp only [Surfaces.setRole]
    split <;> exact le_rfl
  | blockerCleared client =>
    cases hr
    exact hsame elementaries_runQueue.shape

end Invariant

/-! A role is for good. -/

/-- The role stays, and only a subsurface gets a flag. A new role is that of a subsurface, or the one
that is given. -/
structure RoleKept (given : Option Role) (d d' : PrivateSurfaceData) : Prop where
  role : ∀ role, d.role = some role → d'.role = some role
  sync : d'.sync ≠ none → d.sync ≠ none ∨ d'.role = some .subsurface
  fresh : ∀ role, d'.role = some role → d.role = some role ∨ role = .subsurface ∨
    given = some role

def RolesKept (given : Option Role) (s s' : Surfaces) : Prop :=
  ∀ x, RoleKept given (s.data x) (s'.data x)

def Request.given : Request → Option Role
  | .giveRole _ role => some role
  | _ => none

namespace RolesKept

variable {s s' s'' : Surfaces} {surface parent : Surface} {world : World} {r : Request}
  {given : Option Role}

private theorem of_same {d d' : PrivateSurfaceData} (hrole : d'.role = d.role)
    (hsync : d'.sync ≠ none → d.sync ≠ none) : RoleKept given d d' :=
  ⟨fun _ h => hrole.trans h, fun h => .inl (hsync h), fun _ h => .inl (hrole.symm.trans h)⟩

private theorem trans (h : RolesKept given s s') (h' : RolesKept given s' s'') :
    RolesKept given s s'' := by
  intro x
  obtain ⟨hrole, hsync, hfresh⟩ := h x
  obtain ⟨hrole', hsync', hfresh'⟩ := h' x
  exact ⟨fun role hold => hrole' role (hrole role hold),
    fun hflag => (hsync' hflag).elim (fun hmid => (hsync hmid).imp_right (hrole' _)) .inr,
    fun role hnew => (hfresh' role hnew).elim (hfresh role) .inr⟩

theorem of_shape (hshape : s'.shape = s.shape) : RolesKept given s s' := fun x =>
  of_same (congrFun (congrArg Shape.role hshape) x) (by
    rw [show (s'.data x).sync = (s.data x).sync from congrFun (congrArg Shape.sync hshape) x]
    exact id)

private theorem modify {f : PrivateSurfaceData → PrivateSurfaceData}
    (hf : RoleKept given (s.data surface) (f (s.data surface))) :
    RolesKept given s (s.modify surface f) := by
  intro x
  rw [data_modify]
  split
  next hx => exact hx ▸ hf
  · exact of_same rfl id

private theorem setSyncFlag {sync : Bool} (hset : s.setSyncFlag surface sync = some s') :
    RolesKept given s s' := by
  obtain ⟨flag, hflag, rfl⟩ := Option.map_eq_some_iff.mp hset
  exact modify (of_same rfl fun _ => by simp [hflag])

theorem setRole {role : Role} (hset : s.setRole surface role = some s') :
    RolesKept (some role) s s' := by
  simp only [Surfaces.setRole] at hset
  split at hset
  · cases hset
  next hfree =>
    cases hset
    refine modify ⟨fun old hold => ?_, .inl, fun _ hnew => .inr (.inr hnew)⟩
    have hsame : old = role := by simpa [hold] using hfree
    rw [hsame]

private theorem getSubsurface : RolesKept given s (s.getSubsurface surface parent) := by
  rw [Surfaces.getSubsurface]
  split
  next s₁ hset =>
    obtain ⟨⟨hne, -⟩, hfree, -, rfl⟩ := setParent_eq_some_iff.mp hset
    have hchild : RolesKept given s (s.modify surface fun d =>
        { d with role := some .subsurface, parent := some parent }) := by
      refine modify ⟨fun role hold => ?_, .inl, fun _ hnew =>
        .inr (.inl (Option.some.inj hnew).symm)⟩
      rcases hfree with hnone | hsub
      · simp [hold] at hnone
      · exact hsub.symm.trans hold
    have hparent : RolesKept given
        (s.modify surface fun d => { d with role := some .subsurface, parent := some parent })
        ((s.modify surface fun d => { d with role := some .subsurface, parent := some parent }).modify
          parent fun d => { d with children := d.children ++ [surface] }) :=
      modify (of_same rfl id)
    have hrole : (((s.modify surface fun d =>
        { d with role := some .subsurface, parent := some parent }).modify parent fun d =>
          { d with children := d.children ++ [surface] }).data surface).role =
            some .subsurface := by
      rw [modify_data_of_ne hne, modify_data_self]
    refine (hchild.trans hparent).trans fun x => ?_
    by_cases hx : x = surface
    · subst hx
      rw [modify_data_self]
      exact ⟨fun _ => id, fun _ => .inr hrole, fun _ => .inl⟩
    · rw [modify_data_of_ne hx]
      exact of_same rfl id
  · exact of_shape shape_send

private theorem unsetParent : RolesKept given s (s.unsetParent surface) := fun x =>
  of_same (read_unsetParent (g := PrivateSurfaceData.role) (fun _ _ => rfl) fun _ _ => rfl) (by
    rw [read_unsetParent (g := PrivateSurfaceData.sync) (fun _ _ => rfl) fun _ _ => rfl]
    exact id)

private theorem cleanup : RolesKept given s (s.cleanup surface) := fun x =>
  of_same (read_cleanup (g := PrivateSurfaceData.role) (fun _ _ => rfl) (fun _ _ => rfl)
    fun _ => rfl) (by
    rw [read_cleanup (g := PrivateSurfaceData.sync) (fun _ _ => rfl) (fun _ _ => rfl) fun _ => rfl]
    exact id)

theorem request (hr : Surfaces.request world s r = some s')
    (hcreate : ∀ client version, r ≠ .createSurface client version) :
    RolesKept r.given s s' := by
  cases r with
  | createSurface client version => exact absurd rfl (hcreate client version)
  | attach surface buffer x y =>
    cases hr
    exact of_shape shape_attach
  | damage | frame | setOpaqueRegion | setInputRegion | setBufferTransform | damageBuffer | offset =>
    cases hr
    exact of_shape shape_modifyPending
  | setPosition | addBlocker =>
    cases hr
    exact modify (of_same rfl id)
  | commit surface =>
    cases hr
    exact of_shape (elementaries_commit.shape.trans shape_modifyPending)
  | setBufferScale surface scale =>
    simp only [Surfaces.request] at hr
    split at hr
    · cases hr
      exact of_shape shape_modifyPending
    · cases hr
      exact of_shape shape_send
  | destroySurface surface =>
    cases hr
    have hgone : RolesKept none s
        { s with surfaces := s.surfaces.filter fun other => decide (other ≠ surface) } :=
      fun _ => of_same rfl id
    exact hgone.trans cleanup
  | getSubsurface surface parent =>
    cases hr
    exact getSubsurface
  | placeAbove | placeBelow =>
    obtain ⟨parent, children, rfl⟩ | rfl := place_cases hr
    · exact modify (of_same rfl id)
    · exact of_shape shape_send
  | setSync | setDesync => exact setSyncFlag hr
  | destroySubsurface surface =>
    obtain ⟨s₁, hset, rfl⟩ := Option.map_eq_some_iff.mp hr
    have hobject : RolesKept none s { s with subsurfaces := s.subsurfaces.erase surface } :=
      fun _ => of_same rfl id
    exact ((hobject.trans unsetParent).trans (setSyncFlag hset)).trans (modify (of_same rfl id))
  | giveRole surface role =>
    cases hr
    cases hset : s.setRole surface role with
    | none => exact of_shape shape_send
    | some s' => exact setRole hset
  | blockerCleared client =>
    cases hr
    exact of_shape elementaries_runQueue.shape

end RolesKept

theorem invariant_of_run {h : List (World × Request)} {s : Surfaces} (hrun : system.Run h s) :
    s.Invariant :=
  hrun.invariant (I := fun _ s => s.Invariant) .empty
    fun _ _ _ _ _ hinv hstep => hinv.request hstep.1 hstep.2

def pair : Surfaces := ((empty.createSurface 0 5).createSurface 0 5).getSubsurface 1 0

theorem run_pair : system.Run
    [(⟨fun _ => none, fun _ => .released⟩, .createSurface 0 5),
      (⟨fun _ => none, fun _ => .released⟩, .createSurface 0 5),
      (⟨fun _ => none, fun _ => .released⟩, .getSubsurface 1 0)] pair := by
  have hone : system.Run [(⟨fun _ => none, fun _ => .released⟩, .createSurface 0 5)]
      (empty.createSurface 0 5) := .snoc (.nil _) ⟨trivial, rfl⟩
  have htwo : system.Run [(⟨fun _ => none, fun _ => .released⟩, .createSurface 0 5),
      (⟨fun _ => none, fun _ => .released⟩, .createSurface 0 5)]
      ((empty.createSurface 0 5).createSurface 0 5) := .snoc hone ⟨trivial, rfl⟩
  exact .snoc htwo ⟨⟨rfl, rfl, rfl⟩, rfl⟩

section Runs

variable {h : List (World × Request)} {s : Surfaces} {root : Surface} {world : World} {r : Request}

/-- Whatever the clients ask for, the surfaces make up a forest, and a traversal of a tree meets
every surface of it once: upward in one order, downward in the opposite one. -/
theorem traversal_of_run (hrun : system.Run h s) (halive : s.alive root = true) :
    s.Forest ∧ ∃ stack : List Surface, stack.Nodup ∧ (∀ x, x ∈ stack ↔ s.links.Above root x) ∧
      ∀ (σ : Type) (processor : Surface → σ → σ) (reverse : Bool) (st : σ),
        s.mapTree (fun _ _ _ => .doChildren ()) (fun x _ st => processor x st) (fun _ _ _ => true)
            reverse s.fuel root () st =
          (true, (if reverse then stack.reverse else stack).foldl
            (fun st x => processor x st) st) := by
  have hforest := (invariant_of_run hrun).forest
  refine ⟨hforest, s.tree false root, nodup_tree hforest, fun x => mem_tree hforest halive, ?_⟩
  intro σ processor reverse st
  rw [mapTree_eq_foldl (fun _ _ => rfl) fun _ _ => rfl]
  cases reverse with
  | false => rfl
  | true =>
    rw [← tree_reverse]
    rfl

theorem traversal_of_pair : pair.Forest ∧ ∃ stack : List Surface, stack.Nodup ∧
    (∀ x, x ∈ stack ↔ pair.links.Above 0 x) ∧
      ∀ (σ : Type) (processor : Surface → σ → σ) (reverse : Bool) (st : σ),
        pair.mapTree (fun _ _ _ => .doChildren ()) (fun x _ st => processor x st)
          (fun _ _ _ => true) reverse pair.fuel 0 () st =
          (true, (if reverse then stack.reverse else stack).foldl
            (fun st x => processor x st) st) :=
  traversal_of_run run_pair rfl

/-- A subsurface comes to stand directly above or below the sibling or the parent, wherever it was
before, and the others keep their order; anything else than a sibling or the parent is refused. -/
theorem place_of_run {surface parent sibling : Surface} {location : Location}
    (hrun : system.Run h s) (hparent : (s.data surface).parent = some parent)
    (hne : sibling ≠ surface) :
    (sibling = parent ∨ (s.data sibling).parent = some parent →
      ∃ below above, (s.data parent).children.erase surface = below ++ sibling :: above ∧
        s.place surface location sibling = some (s.modify parent fun d =>
          { d with children := below ++ beside location surface sibling ++ above })) ∧
    (¬(sibling = parent ∨ (s.data sibling).parent = some parent) →
      s.place surface location sibling = some (s.send [.error surface .notSibling])) := by
  have hforest := (invariant_of_run hrun).forest
  have hmem : surface ∈ (s.data parent).children := hforest.child_mem hparent
  have hsibling : sibling ∈ (s.data parent).children ↔
      sibling = parent ∨ (s.data sibling).parent = some parent := by
    by_cases hself : sibling = parent
    · have hself_mem : parent ∈ (s.data parent).children :=
        (hforest.self_mem parent).mpr (hforest.parent_mem surface parent hparent).2
      simp [hself, hself_mem]
    · have hchildren : sibling ∈ (s.data parent).children ↔
          (s.data sibling).parent = some parent := hforest.mem_children parent sibling hself
      simp [hself, hchildren]
  rw [← hsibling]
  constructor
  · intro hin
    obtain ⟨below, above, herase, -, hcs⟩ := reorderChildren_of_mem location hmem hin hne
    refine ⟨below, above, herase, ?_⟩
    simp [place, reorder, hparent, hcs]
  · intro hout
    simp [place, reorder, hparent, reorderChildren_of_not_mem hmem hout]

theorem place_of_pair :
    ((0 = 0 ∨ (pair.data 0).parent = some 0) →
      ∃ below above, (pair.data 0).children.erase 1 = below ++ 0 :: above ∧
        pair.place 1 .before 0 = some (pair.modify 0 fun d =>
          { d with children := below ++ beside .before 1 0 ++ above })) ∧
    (¬(0 = 0 ∨ (pair.data 0).parent = some 0) →
      pair.place 1 .before 0 = some (pair.send [.error 1 .notSibling])) :=
  place_of_run run_pair rfl (by decide)

end Runs

end LocalDesktop.Smithay.Surfaces
