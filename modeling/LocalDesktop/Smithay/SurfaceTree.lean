/- GID: LocalDesktop/Smithay/SurfaceTree
   generality: G
   digest: The data of the surfaces and the tree that the subsurfaces make of them. -/

import LocalDesktop.Foundation.Forest
import LocalDesktop.Smithay.Transaction

set_option autoImplicit false
set_option relaxedAutoImplicit false

namespace LocalDesktop.Smithay

open Foundation.Forest

abbrev Client := Nat

/-- A `wl_callback`, by the object that the client made for it. -/
abbrev WlCallback := Nat

inductive BufferAssignment
  | removed
  | newBuffer (buffer : WlBuffer)
  deriving DecidableEq

inductive Transform
  | normal | rotated90 | rotated180 | rotated270
  | flipped | flipped90 | flipped180 | flipped270
  deriving DecidableEq

inductive Damage
  | surface (rect : Rectangle)
  | buffer (rect : Rectangle)
  deriving DecidableEq

inductive RectangleKind
  | add | subtract
  deriving DecidableEq

abbrev RegionAttributes := List (RectangleKind × Rectangle)

structure SurfaceAttributes where
  buffer : Option BufferAssignment
  bufferDelta : Option (Int × Int)
  bufferScale : Int
  bufferTransform : Transform
  opaqueRegion : Option RegionAttributes
  inputRegion : Option RegionAttributes
  damage : List Damage
  frameCallbacks : List WlCallback
  clientScale : Nat
  deriving DecidableEq

/-- The buffer that a merge takes out of the state, if it is another one that comes. -/
def replacedBuffer (old new : Option BufferAssignment) : List WlBuffer :=
  match old, new with
  | some (.newBuffer buffer), some new => if new = .newBuffer buffer then [] else [buffer]
  | _, _ => []

instance : Cacheable SurfaceAttributes where
  initial := ⟨none, none, 1, .normal, none, none, [], [], 1⟩
  commit self :=
    ({ self with buffer := none, bufferDelta := none, damage := [], frameCallbacks := [] }, self)
  mergeInto self into :=
    ({ buffer := self.buffer <|> into.buffer
       bufferDelta := self.bufferDelta
       bufferScale := self.bufferScale
       bufferTransform := self.bufferTransform
       opaqueRegion := self.opaqueRegion
       inputRegion := self.inputRegion
       damage := into.damage ++ self.damage
       frameCallbacks := into.frameCallbacks ++ self.frameCallbacks
       clientScale := self.clientScale },
      replacedBuffer into.buffer self.buffer)

structure SubsurfaceCachedState where
  location : Int × Int
  deriving DecidableEq

instance : Cacheable SubsurfaceCachedState where
  initial := ⟨(0, 0)⟩
  commit self := (self, self)
  mergeInto self _ := (self, [])

inductive Role
  | subsurface | xdgToplevel | xdgPopup | cursorImage | dndIcon
  deriving DecidableEq

inductive ProtocolError
  -- Passing non-zero x,y is protocol violation since versions 5
  | invalidOffset
  -- Scale must be positive
  | invalidScale
  -- Surface already has a role.
  | alreadyHasRole
  -- Provided surface is not a sibling or parent.
  | notSibling
  deriving DecidableEq

/-- What the clients are told of their surfaces. -/
inductive SurfaceEvent
  | done (surface : Surface) (callback : WlCallback) (time : Nat)
  | release (surface : Surface) (buffer : WlBuffer)
  | error (surface : Surface) (error : ProtocolError)
  deriving DecidableEq

structure PrivateSurfaceData where
  client : Client
  version : Nat
  parent : Option Surface
  children : List Surface
  role : Option Role
  /-- `SubsurfaceState`, once the surface was made a subsurface. -/
  sync : Option Bool
  attributes : CachedState SurfaceAttributes
  subsurface : CachedState SubsurfaceCachedState
  /-- The buffer of the `RendererSurfaceState`. -/
  rendered : Option WlBuffer
  pendingTransaction : Transaction
  currentTxid : Nat

def PrivateSurfaceData.new (client : Client) (version : Nat) : PrivateSurfaceData :=
  ⟨client, version, none, [], none, none, .new, .new, none, .new, 0⟩

/-- The surfaces of all clients; those not created yet are the numbers from `created` on. -/
structure Surfaces where
  created : Nat
  /-- `CompositorState::surfaces`, the ones that are not destroyed. -/
  surfaces : List Surface
  /-- The surface of every `wl_subsurface` object. -/
  subsurfaces : List Surface
  data : Surface → PrivateSurfaceData
  queues : Client → List Transaction
  /-- All that was sent, in order. -/
  events : List SurfaceEvent

namespace Surfaces

def empty : Surfaces := ⟨0, [], [], fun _ => .new 0 0, fun _ => [], []⟩

def alive (s : Surfaces) (surface : Surface) : Bool := s.surfaces.contains surface

def modify (s : Surfaces) (surface : Surface) (f : PrivateSurfaceData → PrivateSurfaceData) :
    Surfaces :=
  { s with data := Function.update s.data surface (f (s.data surface)) }

def send (s : Surfaces) (events : List SurfaceEvent) : Surfaces :=
  { s with events := s.events ++ events }

/-- More than any way up or down a tree is long. -/
def fuel (s : Surfaces) : Nat := s.surfaces.length + 1

section Access

variable {s : Surfaces} {surface x : Surface} {f : PrivateSurfaceData → PrivateSurfaceData}
  {events : List SurfaceEvent}

@[simp] theorem modify_data_self : (s.modify surface f).data surface = f (s.data surface) :=
  Function.update_self _ _ _

theorem modify_data_of_ne (hne : x ≠ surface) : (s.modify surface f).data x = s.data x :=
  Function.update_of_ne hne _ _

theorem data_modify :
    (s.modify surface f).data x = if x = surface then f (s.data surface) else s.data x :=
  Function.update_apply _ _ _ _

@[simp] theorem modify_surfaces : (s.modify surface f).surfaces = s.surfaces := rfl
@[simp] theorem modify_subsurfaces : (s.modify surface f).subsurfaces = s.subsurfaces := rfl
@[simp] theorem modify_created : (s.modify surface f).created = s.created := rfl
@[simp] theorem modify_queues : (s.modify surface f).queues = s.queues := rfl
@[simp] theorem modify_events : (s.modify surface f).events = s.events := rfl
@[simp] theorem send_data : (s.send events).data = s.data := rfl
@[simp] theorem send_surfaces : (s.send events).surfaces = s.surfaces := rfl
@[simp] theorem send_subsurfaces : (s.send events).subsurfaces = s.subsurfaces := rfl
@[simp] theorem send_created : (s.send events).created = s.created := rfl
@[simp] theorem send_queues : (s.send events).queues = s.queues := rfl
@[simp] theorem send_events : (s.send events).events = s.events ++ events := rfl

end Access

/-! The operations of `PrivateSurfaceData`. -/

def isAncestor (s : Surfaces) (a : Surface) : Nat → Surface → Bool
  | 0, _ => false
  | fuel + 1, b =>
    match (s.data b).parent with
    | some parent => if parent = a then true else isAncestor s a fuel parent
    | none => false

def getParent (s : Surfaces) (child : Surface) : Option Surface := (s.data child).parent

def getChildren (s : Surfaces) (parent : Surface) : List Surface :=
  (s.data parent).children.filter fun c => decide (c ≠ parent)

/-- A new surface, which `init` makes the first one in the list of its children. -/
def createSurface (s : Surfaces) (client : Client) (version : Nat) : Surfaces :=
  { s with
    created := s.created + 1
    surfaces := s.surfaces ++ [s.created]
    data := Function.update s.data s.created
      { PrivateSurfaceData.new client version with children := [s.created] } }

def setRole (s : Surfaces) (surface : Surface) (role : Role) : Option Surfaces :=
  if (s.data surface).role.isSome ∧ (s.data surface).role ≠ some role then
    none
  else
    some (s.modify surface fun d => { d with role := some role })

def setParent (s : Surfaces) (child parent : Surface) : Option Surfaces :=
  if child = parent ∨ s.isAncestor child s.fuel parent = true then
    none
  else if (s.data child).role.isSome ∧ (s.data child).role ≠ some .subsurface then
    none
  else if (s.data child).parent.isSome then
    none
  else
    let s := s.modify child fun d => { d with role := some .subsurface, parent := some parent }
    some (s.modify parent fun d => { d with children := d.children ++ [child] })

def unsetParent (s : Surfaces) (child : Surface) : Surfaces :=
  match (s.data child).parent with
  | some oldParent =>
    let s := s.modify child fun d => { d with parent := none }
    s.modify oldParent fun d =>
      { d with children := d.children.filter fun c => decide (c ≠ child) }
  | none => s

inductive Location
  | before | after
  deriving DecidableEq

/-- Where the surface comes to stand. The first `none` is an `unwrap` or an `insert` that panics,
the second one an error. -/
def reorderChildren (children : List Surface) (surface : Surface) (location : Location)
    (relativeTo : Surface) : Option (Option (List Surface)) := do
  let myIndex ← children.idxOf? surface
  match children.idxOf? relativeTo with
  | none => some none
  | some otherIndex =>
    let rest := children.eraseIdx myIndex
    let otherIndex := if myIndex < otherIndex then otherIndex - 1 else otherIndex
    let newIndex := match location with
      | .before => otherIndex
      | .after => otherIndex + 1
    if newIndex ≤ rest.length then some (some (rest.insertIdx newIndex surface)) else none

def reorder (s : Surfaces) (surface : Surface) (location : Location) (relativeTo : Surface) :
    Option (Option Surfaces) := do
  let parent ← (s.data surface).parent
  let children ← reorderChildren (s.data parent).children surface location relativeTo
  some (children.map fun children => s.modify parent fun d => { d with children := children })

/-- The buffers that a destroyed surface holds; the last one is let go by a destruction hook. -/
def heldBuffers (d : PrivateSurfaceData) : List WlBuffer :=
  let assigned := fun buffer : Option BufferAssignment =>
    match buffer with
    | some (.newBuffer buffer) => [buffer]
    | _ => []
  assigned d.attributes.current.buffer ++ assigned d.attributes.pending.buffer ++ d.rendered.toList

def orphan (s : Surfaces) (children : List Surface) : Surfaces :=
  { s with data := fun x => if x ∈ children then { s.data x with parent := none } else s.data x }

def cleanup (s : Surfaces) (surface : Surface) : Surfaces :=
  let released := (heldBuffers (s.data surface)).map (SurfaceEvent.release surface)
  let s := s.unsetParent surface
  let s := s.orphan (s.getChildren surface)
  let s := s.modify surface fun d =>
    { d with
      children := []
      attributes := { d.attributes with
        current := { d.attributes.current with buffer := none }
        pending := { d.attributes.pending with buffer := none } }
      rendered := none }
  s.send released

def destroySurface (s : Surfaces) (surface : Surface) : Surfaces :=
  { s with surfaces := s.surfaces.filter fun other => decide (other ≠ surface) }.cleanup surface

inductive TraversalAction (τ : Type)
  | doChildren (t : τ)
  | skipChildren
  | break

section MapTree

variable {σ τ : Type}

/-- `map`, with the state that the callbacks change; the tree itself is locked on the way. The
flag says whether to go on. -/
def mapTree (s : Surfaces) (filter : Surface → τ → σ → TraversalAction τ)
    (processor : Surface → τ → σ → σ) (postFilter : Surface → τ → σ → Bool) (reverse : Bool) :
    Nat → Surface → τ → σ → Bool × σ
  | 0, _, _, st => (true, st)
  | fuel + 1, surface, initial, st =>
    match filter surface initial st with
    | .doChildren t =>
      let children := (s.data surface).children
      let (goOn, st) := (if reverse then children.reverse else children).foldl
        (fun (goOn, st) c =>
          if !goOn then (false, st)
          else if c = surface then (true, processor surface initial st)
          else mapTree s filter processor postFilter reverse fuel c t st)
        (true, st)
      if goOn then (postFilter surface initial st, st) else (false, st)
    | .skipChildren => (true, processor surface initial st)
    | .break => (false, st)

end MapTree

end Surfaces

end LocalDesktop.Smithay
