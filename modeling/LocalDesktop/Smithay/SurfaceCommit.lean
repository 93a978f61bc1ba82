/- GID: LocalDesktop/Smithay/SurfaceCommit
   generality: G
   digest: Commits of surfaces and of synchronized subsurfaces, and the requests of the clients. -/

import LocalDesktop.Smithay.SurfaceTree

set_option autoImplicit false
set_option relaxedAutoImplicit false

namespace LocalDesktop.Smithay

namespace PrivateSurfaceData

/-- The sync flag of the surface itself. -/
def isDirectSync (d : PrivateSurfaceData) : Bool := d.sync.getD false

def commitState (currentTxid : Nat) (d : PrivateSurfaceData) :
    PrivateSurfaceData × List WlBuffer :=
  let (attributes, released) := d.attributes.commit (some currentTxid)
  let (subsurface, later) := d.subsurface.commit (some currentTxid)
  ({ d with attributes := attributes, subsurface := subsurface }, released ++ later)

def applyState (commitId : Nat) (d : PrivateSurfaceData) : PrivateSurfaceData × List WlBuffer :=
  let (attributes, released) := d.attributes.applyState commitId
  let (subsurface, later) := d.subsurface.applyState commitId
  ({ d with attributes := attributes, subsurface := subsurface }, released ++ later)

/-- What becomes of the buffer and the damage in `update_buffer`. A buffer without dimensions is
dropped, and so is a buffer of the renderer that another one replaces. -/
def updateBuffer (dimensions : WlBuffer → Option Size) (d : PrivateSurfaceData) :
    PrivateSurfaceData × List WlBuffer :=
  let attrs := d.attributes.current
  let withCurrent := fun current : SurfaceAttributes =>
    { d with attributes := { d.attributes with current := current } }
  match attrs.buffer with
  | some (.newBuffer buffer) =>
    if dimensions buffer = none then
      ({ withCurrent { attrs with buffer := none } with rendered := none }, d.rendered.toList)
    else
      ({ withCurrent { attrs with buffer := none, damage := [] } with rendered := some buffer },
        if d.rendered = some buffer then [] else d.rendered.toList)
  | some .removed =>
    ({ withCurrent { attrs with buffer := none } with rendered := none }, d.rendered.toList)
  | none => (d, [])

end PrivateSurfaceData

namespace Surfaces

def transform (s : Surfaces) (surface : Surface)
    (f : PrivateSurfaceData → PrivateSurfaceData × List WlBuffer) : Surfaces :=
  (s.modify surface fun d => (f d).1).send
    ((f (s.data surface)).2.map (SurfaceEvent.release surface))

def isEffectivelySync (s : Surfaces) : Nat → Surface → Bool
  | 0, _ => false
  | fuel + 1, surface =>
    if (s.data surface).isDirectSync then
      true
    else
      match (s.data surface).parent with
      | some parent => isEffectivelySync s fuel parent
      | none => false

/-- The next commit id, and a new pending transaction. -/
def nextTransaction (d : PrivateSurfaceData) : PrivateSurfaceData :=
  { d with pendingTransaction := .new, currentTxid := Serial.next d.currentTxid }

def commitSyncSurfaceTree : Nat → Surfaces → Surface → Transaction → Surfaces × Transaction
  | 0, s, _, parentTransaction => (s, parentTransaction)
  | fuel + 1, s, surface, parentTransaction =>
    let (s, transaction) := (s.getChildren surface).foldl
      (fun (s, transaction) child => commitSyncSurfaceTree fuel s child transaction)
      (s, (s.data surface).pendingTransaction)
    let currentTxid := (s.data surface).currentTxid
    let s := s.transform surface (PrivateSurfaceData.commitState currentTxid)
    let transaction := transaction.insert surface currentTxid
    (s.modify surface nextTransaction, transaction.mergeInto s.alive parentTransaction)

/-- `on_commit_buffer_handler`, the `commit` of the compositor's handler. -/
def onCommitBufferHandler (dimensions : WlBuffer → Option Size) (s : Surfaces) (surface : Surface) :
    Surfaces :=
  if s.isEffectivelySync s.fuel surface then
    s
  else
    (s.mapTree (fun _ _ _ => .doChildren ())
      (fun x _ (st : Surfaces) => st.transform x (PrivateSurfaceData.updateBuffer dimensions))
      (fun _ _ _ => true) false s.fuel surface () s).2

def applyTransaction (dimensions : WlBuffer → Option Size) (s : Surfaces) (t : Transaction) :
    Surfaces :=
  t.surfaces.foldl
    (fun s place =>
      if s.alive place.1 then
        onCommitBufferHandler dimensions
          (s.transform place.1 (PrivateSurfaceData.applyState place.2)) place.1
      else
        s)
    s

/-- What the world around has to say: the sizes of the buffers, and how the blockers are. -/
structure World where
  dimensions : WlBuffer → Option Size
  blockerState : Blocker → BlockerState

/-- The transactions that have nothing to wait for are taken out of the queue. -/
def dequeue (world : World) (s : Surfaces) (client : Client) : List Transaction × Surfaces :=
  let (ready, left) := Transaction.takeReady s.alive world.blockerState (s.queues client) []
  (ready, { s with queues := Function.update s.queues client left })

def runQueue (world : World) (s : Surfaces) (client : Client) : Surfaces :=
  let (ready, s) := dequeue world s client
  ready.foldl (applyTransaction world.dimensions) s

/-- A turn of the loop over the children: what their part in the commit is. -/
def commitChild (isSync : Bool) (s : Surfaces) (transaction : Transaction) (child : Surface) :
    Surfaces × Transaction :=
  let isChildSync := (s.data child).isDirectSync
  if !isSync && isChildSync then
    commitSyncSurfaceTree s.fuel s child transaction
  else if isSync || isChildSync then
    (s.modify child nextTransaction,
      (s.data child).pendingTransaction.mergeInto s.alive transaction)
  else
    (s, transaction)

/-- A commit up to the queue, and whose queue is to run then. -/
def enqueueCommit (s : Surfaces) (surface : Surface) : Surfaces × Option Client :=
  let isSync := s.isEffectivelySync s.fuel surface
  let children := s.getChildren surface
  let currentTxid := (s.data surface).currentTxid
  let s := s.transform surface (PrivateSurfaceData.commitState currentTxid)
  let (s, transaction) := children.foldl
    (fun (s, transaction) child => commitChild isSync s transaction child)
    (s, (s.data surface).pendingTransaction)
  let transaction := transaction.insert surface currentTxid
  let s := s.modify surface nextTransaction
  if isSync then
    (s.modify surface fun d => { d with pendingTransaction := transaction }, none)
  else
    let client := (s.data surface).client
    ({ s with queues := Function.update s.queues client (s.queues client ++ [transaction]) },
      some client)

def commit (world : World) (s : Surfaces) (surface : Surface) : Surfaces :=
  match s.enqueueCommit surface with
  | (s, some client) => runQueue world s client
  | (s, none) => s

/-! The requests, and the two calls for blockers. -/

inductive Request
  | createSurface (client : Client) (version : Nat)
  | attach (surface : Surface) (buffer : Option WlBuffer) (x y : Int)
  | damage (surface : Surface) (rect : Rectangle)
  | frame (surface : Surface) (callback : WlCallback)
  | setOpaqueRegion (surface : Surface) (region : Option RegionAttributes)
  | setInputRegion (surface : Surface) (region : Option RegionAttributes)
  | commit (surface : Surface)
  -- `none` is a value that the enumeration does not have.
  | setBufferTransform (surface : Surface) (transform : Option Transform)
  | setBufferScale (surface : Surface) (scale : Int)
  | damageBuffer (surface : Surface) (rect : Rectangle)
  | offset (surface : Surface) (x y : Int)
  | destroySurface (surface : Surface)
  | getSubsurface (surface parent : Surface)
  | setPosition (surface : Surface) (x y : Int)
  | placeAbove (surface sibling : Surface)
  | placeBelow (surface sibling : Surface)
  | setSync (surface : Surface)
  | setDesync (surface : Surface)
  | destroySubsurface (surface : Surface)
  | giveRole (surface : Surface) (role : Role)
  | addBlocker (surface : Surface) (blocker : Blocker)
  | blockerCleared (client : Client)
  deriving DecidableEq

def modifyPending (s : Surfaces) (surface : Surface) (f : SurfaceAttributes → SurfaceAttributes) :
    Surfaces :=
  s.modify surface fun d =>
    { d with attributes := { d.attributes with pending := f d.attributes.pending } }

/-- No scale override is ever set. -/
def clientScale : Nat := 1

def setClientScale (s : Surfaces) (surface : Surface) : Surfaces :=
  s.modifyPending surface fun pending => { pending with clientScale := clientScale }

/-- Since version 5 an offset is refused here, and does not count. -/
def attach (s : Surfaces) (surface : Surface) (buffer : Option WlBuffer) (x y : Int) : Surfaces :=
  let offset := if x ≠ 0 ∨ y ≠ 0 then some (x, y) else none
  let old := decide ((s.data surface).version < 5)
  let s := if !old && offset.isSome then s.send [.error surface .invalidOffset] else s
  let offset := if old then offset else none
  let assignment := match buffer with
    | some buffer => BufferAssignment.newBuffer buffer
    | none => .removed
  s.modifyPending surface fun pending =>
    { pending with bufferDelta := offset <|> pending.bufferDelta, buffer := some assignment }

def place (s : Surfaces) (surface : Surface) (location : Location) (sibling : Surface) :
    Option Surfaces :=
  (s.reorder surface location sibling).map fun reordered =>
    match reordered with
    | some s => s
    | none => s.send [.error surface .notSibling]

/-- `get_subsurface`; the flag of a surface that was a subsurface before stays as it is. -/
def getSubsurface (s : Surfaces) (surface parent : Surface) : Surfaces :=
  match s.setParent surface parent with
  | some s =>
    { s with subsurfaces := s.subsurfaces ++ [surface] }.modify surface fun d =>
      { d with sync := d.sync <|> some true }
  | none => s.send [.error surface .alreadyHasRole]

/-- The store of the flag; the `unwrap` panics if the surface was never made a subsurface. -/
def setSyncFlag (s : Surfaces) (surface : Surface) (sync : Bool) : Option Surfaces :=
  (s.data surface).sync.map fun _ => s.modify surface fun d => { d with sync := some sync }

def destroySubsurface (s : Surfaces) (surface : Surface) : Option Surfaces :=
  let s := { s with subsurfaces := s.subsurfaces.erase surface }.unsetParent surface
  (s.setSyncFlag surface true).map fun s => s.modify surface fun d =>
    { d with subsurface :=
      { d.subsurface with pending := Cacheable.initial, current := Cacheable.initial } }

/-- Nothing is left of a request that panics: the compositor is gone. -/
def request (world : World) (s : Surfaces) : Request → Option Surfaces
  | .createSurface client version => some (s.createSurface client version)
  | .attach surface buffer x y => some (s.attach surface buffer x y)
  | .damage surface rect =>
    some (s.modifyPending surface fun pending =>
      { pending with damage := pending.damage ++ [.surface rect] })
  | .frame surface callback =>
    some (s.modifyPending surface fun pending =>
      { pending with frameCallbacks := pending.frameCallbacks ++ [callback] })
  | .setOpaqueRegion surface region =>
    some (s.modifyPending surface fun pending => { pending with opaqueRegion := region })
  | .setInputRegion surface region =>
    some (s.modifyPending surface fun pending => { pending with inputRegion := region })
  | .commit surface => some (commit world (s.setClientScale surface) surface)
  | .setBufferTransform surface transform =>
    some (s.modifyPending surface fun pending =>
      { pending with bufferTransform := transform.getD pending.bufferTransform })
  | .setBufferScale surface scale =>
    if 1 ≤ scale then
      some (s.modifyPending surface fun pending => { pending with bufferScale := scale })
    else
      some (s.send [.error surface .invalidScale])
  | .damageBuffer surface rect =>
    some (s.modifyPending surface fun pending =>
      { pending with damage := pending.damage ++ [.buffer rect] })
  | .offset surface x y =>
    some (s.modifyPending surface fun pending => { pending with bufferDelta := some (x, y) })
  | .destroySurface surface => some (s.destroySurface surface)
  | .getSubsurface surface parent => some (s.getSubsurface surface parent)
  | .setPosition surface x y =>
    some (s.modify surface fun d =>
      { d with subsurface := { d.subsurface with pending := ⟨(x, y)⟩ } })
  | .placeAbove surface sibling => s.place surface .after sibling
  | .placeBelow surface sibling => s.place surface .before sibling
  | .setSync surface => s.setSyncFlag surface true
  | .setDesync surface => s.setSyncFlag surface false
  | .destroySubsurface surface => s.destroySubsurface surface
  | .giveRole surface role =>
    some ((s.setRole surface role).getD (s.send [.error surface .alreadyHasRole]))
  | .addBlocker surface blocker =>
    some (s.modify surface fun d =>
      { d with pendingTransaction := d.pendingTransaction.addBlocker blocker })
  | .blockerCleared client => some (s.runQueue world client)

end Surfaces

end LocalDesktop.Smithay
