/- GID: LocalDesktop/Smithay/XdgShell
   generality: G
   digest: Toplevels and popups: their states, the messages of a configure, hooks and parents. -/

import Mathlib.Data.List.Nodup
import LocalDesktop.Smithay.SurfaceTree
import LocalDesktop.Smithay.XdgRole

set_option autoImplicit false
set_option relaxedAutoImplicit false

namespace LocalDesktop.Smithay

inductive XdgState
  | maximized | fullscreen | resizing | activated
  | tiledLeft | tiledRight | tiledTop | tiledBottom
  | suspended
  deriving DecidableEq

/-- States without repetition, in the order in which they were set. -/
structure ToplevelStateSet where
  states : List XdgState
  nodup : states.Nodup
  deriving DecidableEq

namespace ToplevelStateSet

def empty : ToplevelStateSet := ⟨[], List.nodup_nil⟩

def set (s : ToplevelStateSet) (state : XdgState) : ToplevelStateSet :=
  if h : state ∈ s.states then
    s
  else
    ⟨s.states ++ [state], List.nodup_append'.mpr
      ⟨s.nodup, List.nodup_singleton state, List.disjoint_singleton.mpr h⟩⟩

def isTiled : XdgState → Bool
  | .tiledTop | .tiledBottom | .tiledLeft | .tiledRight => true
  | _ => false

/-- `into_filtered_states`, with its early returns. -/
def intoFilteredStates (s : ToplevelStateSet) (version : Nat) : List XdgState :=
  let tiledSupported := decide (2 ≤ version)
  let suspendedSupported := decide (6 ≤ version)
  if suspendedSupported then
    s.states
  else
    let containsSuspended := s.states.contains .suspended
    if tiledSupported && !containsSuspended then
      s.states
    else
      let containsTiled := s.states.any isTiled
      if !containsSuspended && !containsTiled then
        s.states
      else
        s.states.filter fun state =>
          if tiledSupported then decide (state ≠ .suspended)
          else decide (state ≠ .suspended) && !isTiled state

def since : XdgState → Nat
  | .suspended => 6
  | .tiledLeft | .tiledRight | .tiledTop | .tiledBottom => 2
  | _ => 1

theorem intoFilteredStates_eq {s : ToplevelStateSet} {version : Nat} (hversion : 1 ≤ version) :
    s.intoFilteredStates version = s.states.filter fun state => decide (since state ≤ version) := by
  have hall : (∀ state ∈ s.states, since state ≤ version) →
      s.states = s.states.filter fun state => decide (since state ≤ version) := by
    intro hknown
    rw [eq_comm, List.filter_eq_self]
    simpa using hknown
  simp only [intoFilteredStates]
  split
  next hsix =>
    refine hall fun state _ => ?_
    have hsix : 6 ≤ version := by simpa using hsix
    cases state <;> simp only [since] <;> omega
  next hsix =>
    have hsix : ¬6 ≤ version := by simpa using hsix
    split
    next htwo =>
      obtain ⟨htwo, hnone⟩ : 2 ≤ version ∧ .suspended ∉ s.states := by simpa using htwo
      refine hall fun state hstate => ?_
      cases state <;> first | exact absurd hstate hnone | (simp only [since]; omega)
    next htwo =>
      split
      next hplain =>
        obtain ⟨hnone, htiled⟩ : .suspended ∉ s.states ∧ ∀ x ∈ s.states, isTiled x = false := by
          simpa using hplain
        refine hall fun state hstate => ?_
        have hstate' := htiled state hstate
        cases state <;>
          first | exact absurd hstate hnone | exact absurd hstate' (by decide) | exact hversion
      · refine List.filter_congr fun state _ => ?_
        by_cases htwo : 2 ≤ version
        · cases state <;> simp [since, htwo, hsix, hversion]
        · cases state <;> simp [since, isTiled, htwo, hsix, hversion]

end ToplevelStateSet

inductive WmCapability
  | windowMenu | maximize | fullscreen | minimize
  deriving DecidableEq

/-- The output of a fullscreen toplevel and its decoration are never set. -/
structure ToplevelState where
  size : Option Size
  bounds : Option Size
  states : ToplevelStateSet
  capabilities : Finset WmCapability
  deriving DecidableEq

def ToplevelState.default : ToplevelState := ⟨none, none, .empty, ∅⟩

inductive ToplevelMessage
  | configureBounds (width height : Int)
  | wmCapabilities (capabilities : Finset WmCapability)
  | configure (width height : Int) (states : List XdgState)
  -- `xdg_surface.configure`
  | finish (serial : Nat)
  deriving DecidableEq

def sendToplevelConfigure (version : Nat) (configure : Configure ToplevelState)
    (sendBounds sendCapabilities : Bool) : List ToplevelMessage :=
  let size := configure.state.size.getD ⟨0, 0⟩
  let bounds := configure.state.bounds.getD ⟨0, 0⟩
  (if sendBounds && decide (4 ≤ version) then [.configureBounds bounds.w bounds.h] else []) ++
    (if sendCapabilities && decide (5 ≤ version) then
      [.wmCapabilities configure.state.capabilities] else []) ++
    [.configure size.w size.h (configure.state.states.intoFilteredStates version),
      .finish configure.serial]

structure XdgToplevelAttributes where
  role : RoleAttributes ToplevelState
  parent : Option Surface

namespace XdgToplevelAttributes

def default : XdgToplevelAttributes := ⟨.default .default, none⟩

def sendConfigure (version serial : Nat) (me : XdgToplevelAttributes) :
    Configure ToplevelState × List ToplevelMessage × XdgToplevelAttributes :=
  let current := me.role.currentServerState
  let (configure, role) := me.role.sendConfigure serial
  let boundsChanged :=
    !me.role.initialConfigureSent || decide (configure.state.bounds ≠ current.bounds)
  let capabilitiesChanged :=
    !me.role.initialConfigureSent || decide (configure.state.capabilities ≠ current.capabilities)
  (configure, sendToplevelConfigure version configure boundsChanged capabilitiesChanged,
    { me with role := role })

end XdgToplevelAttributes

/-! Popups. None of them is ever sent a configure. -/

/-- `PopupState`, without the positioner that the geometry comes from. -/
structure PopupState where
  geometry : Rectangle
  deriving DecidableEq

def PopupState.default : PopupState := ⟨⟨(0, 0), ⟨0, 0⟩⟩⟩

structure XdgPopupAttributes where
  role : RoleAttributes PopupState
  parent : Option Surface
  committed : Bool

namespace XdgPopupAttributes

def default : XdgPopupAttributes := ⟨.default .default, none, false⟩

/-- Unlike a toplevel's, the state of a popup that is not mapped does not come into effect. -/
def postCommitHook (hasBuffer : Bool) (me : XdgPopupAttributes) : XdgPopupAttributes :=
  let role := { me.role with
    initialConfigureSent :=
      me.role.initialConfigureSent && !(me.role.hasBuffer && !hasBuffer)
    hasBuffer := hasBuffer }
  { me with
    committed := true
    role :=
      if role.initialConfigureSent && role.lastAcked.isSome then
        { role with
          current := role.lastAcked.getD role.current
          currentSerial := role.configureSerial }
      else
        role }

end XdgPopupAttributes

/-- What the surfaces keep of their roles. What was once put in stays in. -/
structure ShellRoles where
  toplevels : Surface → Option XdgToplevelAttributes
  popups : Surface → Option XdgPopupAttributes

namespace ShellRoles

def empty : ShellRoles := ⟨fun _ => none, fun _ => none⟩

def setToplevel (r : ShellRoles) (surface : Surface) (attributes : XdgToplevelAttributes) :
    ShellRoles :=
  { r with toplevels := Function.update r.toplevels surface (some attributes) }

def setPopup (r : ShellRoles) (surface : Surface) (attributes : XdgPopupAttributes) :
    ShellRoles :=
  { r with popups := Function.update r.popups surface (some attributes) }

/-- The hook of a role is there as soon as its attributes are. -/
def invokePostCommitHooks (r : ShellRoles) (surface : Surface) (hasBuffer : Bool) : ShellRoles where
  toplevels := Function.update r.toplevels surface
    ((r.toplevels surface).map fun a => { a with role := a.role.commitHook hasBuffer })
  popups := Function.update r.popups surface
    ((r.popups surface).map (XdgPopupAttributes.postCommitHook hasBuffer))

def parent (r : ShellRoles) (surface : Surface) : Option Surface :=
  (r.toplevels surface).bind XdgToplevelAttributes.parent

/-- The loop of `is_valid_parent`. Nothing is known as long as it goes on. -/
def noLoop (r : ShellRoles) (child : Surface) : Nat → Option Surface → Option Bool
  | _, none => some true
  | 0, some _ => none
  | fuel + 1, some parent =>
    if child = parent then some false else r.noLoop child fuel (r.parent parent)

theorem noLoop_none {r : ShellRoles} {child : Surface} {fuel : Nat} :
    r.noLoop child fuel none = some true := by cases fuel <;> rfl

section Access

variable {r : ShellRoles} {surface y : Surface} {attributes : XdgToplevelAttributes}
  {popup : XdgPopupAttributes} {hasBuffer : Bool}

theorem toplevels_setToplevel : (r.setToplevel surface attributes).toplevels y =
    if y = surface then some attributes else r.toplevels y := Function.update_apply _ _ _ _

theorem forall_setToplevel {P : Surface → XdgToplevelAttributes → Prop}
    (hr : ∀ y b, r.toplevels y = some b → P y b) (hnew : P surface attributes) :
    ∀ y b, (r.setToplevel surface attributes).toplevels y = some b → P y b := by
  intro y b hb
  rw [toplevels_setToplevel] at hb
  split at hb
  next hy =>
    cases hb
    exact hy ▸ hnew
  · exact hr y b hb

theorem popups_setPopup : (r.setPopup surface popup).popups y =
    if y = surface then some popup else r.popups y := Function.update_apply _ _ _ _

@[simp] theorem popups_setToplevel : (r.setToplevel surface attributes).popups = r.popups := rfl
@[simp] theorem toplevels_setPopup : (r.setPopup surface popup).toplevels = r.toplevels := rfl
@[simp] theorem parent_setPopup : (r.setPopup surface popup).parent = r.parent := rfl

theorem parent_setToplevel : (r.setToplevel surface attributes).parent y =
    if y = surface then attributes.parent else r.parent y := by
  rw [parent, toplevels_setToplevel]
  split <;> rfl

theorem toplevels_invokePostCommitHooks :
    (r.invokePostCommitHooks surface hasBuffer).toplevels y = if y = surface then
      (r.toplevels surface).map fun a => { a with role := a.role.commitHook hasBuffer }
    else r.toplevels y := Function.update_apply _ _ _ _

theorem popups_invokePostCommitHooks :
    (r.invokePostCommitHooks surface hasBuffer).popups y = if y = surface then
      (r.popups surface).map (XdgPopupAttributes.postCommitHook hasBuffer)
    else r.popups y := Function.update_apply _ _ _ _

end Access

end ShellRoles

def isToplevelEquivalent (s : Surfaces) (surface : Surface) : Bool :=
  decide ((s.data surface).role = some .xdgToplevel)

def isValidParent (s : Surfaces) (r : ShellRoles) (fuel : Nat) (child parent : Surface) :
    Option Bool :=
  if !isToplevelEquivalent s parent then some false else r.noLoop child fuel (some parent)

end LocalDesktop.Smithay
