/- GID: LocalDesktop/Android/Backend/Wayland/Shell
   generality: G
   digest: The xdg shell of the compositor: role objects, configures and their acknowledgement. -/

import LocalDesktop.Android.Backend.Wayland.Redraw
import LocalDesktop.Smithay.CommitHooks
import LocalDesktop.Smithay.XdgShell

/-!
The requests of the clients again, with what the shell makes of them. A configure
is sent when a toplevel is made and when the client asks for it to be maximized
or fullscreen, and never otherwise.
-/

set_option autoImplicit false
set_option relaxedAutoImplicit false

namespace LocalDesktop.Android.Backend.Wayland

open Foundation.Transition Smithay Smithay.Surfaces

inductive ShellError
  -- xdg_surface must have a role.
  | notConstructed
  -- xdg_surface must have a role of xdg_toplevel or xdg_popup.
  | invalidRole
  -- wrong configure serial: {}
  | wrongConfigureSerial (serial : Nat)
  -- invalid parent toplevel
  | invalidParent
  deriving DecidableEq

inductive ShellEvent
  | configured (surface : Surface) (configure : Configure ToplevelState)
      (messages : List ToplevelMessage)
  -- A serial that is drawn for something else, as for an input event.
  | serial (serial : Nat)
  | error (surface : Surface) (error : ShellError)
  deriving DecidableEq

/-- The compositor with its shell. A role object is a number of its own. -/
structure Shell where
  base : Compositor
  /-- `State::size` -/
  size : Size
  /-- `SERIAL_COUNTER` -/
  counter : Nat
  /-- The version of every `xdg_toplevel` object. -/
  versions : Nat → Nat
  roles : ShellRoles
  /-- `XdgShellState::known_popups` -/
  knownPopups : List (Nat × Surface)
  /-- All that the clients are told by the shell, in order. -/
  events : List ShellEvent

inductive ShellRequest
  | surface (world : World) (request : Request)
  | getToplevel (toplevel version : Nat) (surface : Surface)
  | destroyToplevel (toplevel : Nat)
  | setMaximized (toplevel : Nat)
  | setFullscreen (toplevel : Nat)
  | setParent (toplevel : Nat) (parent : Option Nat)
  | getPopup (popup : Nat) (surface : Surface) (parent : Option Surface) (state : PopupState)
  | destroyPopup (popup : Nat)
  | ackConfigure (surface : Surface) (serial : Nat)

def defaultCapabilities : Finset WmCapability :=
  {.fullscreen, .maximize, .minimize, .windowMenu}

namespace Shell

def build : Shell := ⟨.build, ⟨1920, 1080⟩, 1, fun _ => 1, .empty, [], []⟩

def tell (s : Shell) (events : List ShellEvent) : Shell := { s with events := s.events ++ events }

def surfaceOf (known : List (Nat × Surface)) (object : Nat) : Option Surface :=
  (known.find? fun k => decide (k.1 = object)).map Prod.snd

/-- `ToplevelSurface::send_configure`. Nothing is left if an `unwrap` panics. -/
def sendConfigure (s : Shell) (toplevel : Nat) (surface : Surface) : Option Shell :=
  (s.roles.toplevels surface).map fun attributes =>
    let (serial, counter) := Serial.nextSerial s.counter
    let (configure, messages, attributes) :=
      attributes.sendConfigure (s.versions toplevel) serial
    { s with
      counter := counter
      roles := s.roles.setToplevel surface attributes }.tell
        [.configured surface configure messages]

/-- `new_toplevel` of the handler. -/
def newToplevel (s : Shell) (toplevel : Nat) (surface : Surface) : Option Shell := do
  let attributes ← s.roles.toplevels surface
  let role := attributes.role.withPendingState fun state =>
    { state with size := some s.size, states := state.states.set .activated }
  sendConfigure { s with roles := s.roles.setToplevel surface { attributes with role := role } }
    toplevel surface

/-- The attributes of a surface that becomes a toplevel, maybe not for the first time. -/
def initialAttributes (attributes : Option XdgToplevelAttributes) : XdgToplevelAttributes :=
  let attributes := attributes.getD .default
  { attributes with role :=
    { attributes.role with current :=
      { attributes.role.current with capabilities := defaultCapabilities } } }

/-- A surface that has another role keeps it, and the client is told so. -/
def getToplevel (s : Shell) (toplevel version : Nat) (surface : Surface) : Option Shell := do
  let base ← s.base.clientRequest (.getToplevel toplevel surface)
  if (s.base.state.setRole surface .xdgToplevel).isSome then
    newToplevel
      { s with
        base := base
        versions := Function.update s.versions toplevel version
        roles := s.roles.setToplevel surface (initialAttributes (s.roles.toplevels surface)) }
      toplevel surface
  else
    some { s with base := base }

def destroyToplevel (s : Shell) (toplevel : Nat) : Option Shell := do
  let base ← s.base.clientRequest (.destroyToplevel toplevel)
  match surfaceOf s.base.knownToplevels toplevel with
  | some surface =>
    (s.roles.toplevels surface).map fun _ =>
      { s with base := base, roles := s.roles.setToplevel surface .default }
  | none => some { s with base := base }

def getPopup (s : Shell) (popup : Nat) (surface : Surface) (parent : Option Surface)
    (state : PopupState) : Shell :=
  match s.base.state.setRole surface .xdgPopup with
  | some surfaces =>
    let role := { RoleAttributes.default PopupState.default with serverPending := some state }
    { s with
      base := { s.base with state := surfaces }
      roles := s.roles.setPopup surface ⟨role, parent, false⟩
      knownPopups := s.knownPopups ++ [(popup, surface)] }
  | none =>
    { s with base := { s.base with state := s.base.state.send [.error surface .alreadyHasRole] } }

def destroyPopup (s : Shell) (popup : Nat) : Option Shell :=
  match surfaceOf s.knownPopups popup with
  | some surface =>
    (s.roles.popups surface).map fun _ =>
      { s with
        roles := s.roles.setPopup surface .default
        knownPopups := s.knownPopups.eraseP fun known => decide (known.1 = popup) }
  | none => some s

def ackConfigure (s : Shell) (surface : Surface) (serial : Nat) : Option Shell :=
  match (s.base.state.data surface).role with
  | none => some (s.tell [.error surface .notConstructed])
  | some .xdgToplevel =>
    (s.roles.toplevels surface).map fun attributes =>
      match attributes.role.ackConfigure serial with
      | some role => { s with roles := s.roles.setToplevel surface { attributes with role := role } }
      | none => s.tell [.error surface (.wrongConfigureSerial serial)]
  | some .xdgPopup =>
    (s.roles.popups surface).map fun attributes =>
      match attributes.role.ackConfigure serial with
      | some role => { s with roles := s.roles.setPopup surface { attributes with role := role } }
      | none => s.tell [.error surface (.wrongConfigureSerial serial)]
  | some _ => some (s.tell [.error surface .invalidRole])

def fuel (s : Shell) : Nat := s.base.state.created + 1

/-- `set_parent`. Nothing is left of a loop that does not end. -/
def setParent (s : Shell) (child : Surface) (parent : Option Surface) : Option Shell :=
  let valid := match parent with
    | some parent => isValidParent s.base.state s.roles s.fuel child parent
    | none => some true
  valid.bind fun valid =>
    if valid then
      (s.roles.toplevels child).map fun attributes =>
        { s with roles := s.roles.setToplevel child { attributes with parent := parent } }
    else
      some (s.tell [.error child .invalidParent])

def surfaceRequest (s : Shell) (world : World) (request : Request) : Option Shell :=
  match request with
  | .commit surface =>
    let (surfaces, roles) := commitWith (fun x hasBuffer r => r.invokePostCommitHooks x hasBuffer)
      world (s.base.state.setClientScale surface) surface s.roles
    some { s with base := { s.base with state := surfaces }, roles := roles }
  | request =>
    (s.base.clientRequest (.surface world request)).map fun base => { s with base := base }

def request (s : Shell) : ShellRequest → Option Shell
  | .surface world request => s.surfaceRequest world request
  | .getToplevel toplevel version surface => s.getToplevel toplevel version surface
  | .destroyToplevel toplevel => s.destroyToplevel toplevel
  | .setMaximized toplevel | .setFullscreen toplevel =>
    (surfaceOf s.base.knownToplevels toplevel).bind (s.sendConfigure toplevel)
  | .setParent toplevel parent =>
    (surfaceOf s.base.knownToplevels toplevel).bind fun child =>
      s.setParent child (parent.bind (surfaceOf s.base.knownToplevels))
  | .getPopup popup surface parent state => some (s.getPopup popup surface parent state)
  | .destroyPopup popup => s.destroyPopup popup
  | .ackConfigure surface serial => s.ackConfigure surface serial

/-- The objects of a request are there, and only the shell gives its own roles. -/
def Valid (s : Shell) : ShellRequest → Prop
  | .surface world request =>
    s.base.Valid (.surface world request) ∧ request.given ≠ some .xdgToplevel ∧
      request.given ≠ some .xdgPopup
  | .getToplevel toplevel version surface =>
    s.base.Valid (.getToplevel toplevel surface) ∧ 1 ≤ version
  | .destroyToplevel toplevel | .setMaximized toplevel | .setFullscreen toplevel =>
    ∃ known ∈ s.base.knownToplevels, known.1 = toplevel
  | .setParent toplevel parent =>
    (∃ known ∈ s.base.knownToplevels, known.1 = toplevel) ∧
      ∀ p ∈ parent, ∃ known ∈ s.base.knownToplevels, known.1 = p
  | .getPopup popup surface parent _ =>
    surface < s.base.state.created ∧ (∀ known ∈ s.knownPopups, known.1 ≠ popup) ∧
      ∀ p ∈ parent, p < s.base.state.created
  | .destroyPopup popup => ∃ known ∈ s.knownPopups, known.1 = popup
  | .ackConfigure surface serial => surface < s.base.state.created ∧ serial < 2 ^ 32

inductive Step
  | connect (client : Client)
  -- The first part of a redraw: the frames, and a new connection.
  | frames (elapsed : Nat → Nat)
  -- The second part: the requests of the clients, one by one.
  | request (request : ShellRequest)
  -- `Event::Resumed`, with the size of the window.
  | resumed (size : Size)
  | input

/-- All of it in any order. -/
def system : System Shell Step where
  start := .build
  step s step s' :=
    match step with
    | .connect client =>
      s' = { s with base := { s.base with listener := s.base.listener ++ [client] } }
    | .frames elapsed => s' = { s with base := (s.base.sendAllFrames elapsed).accept }
    | .request request => s.Valid request ∧ s.request request = some s'
    | .resumed size => s' = { s with size := size }
    | .input =>
      s' = { s with counter := (Serial.nextSerial s.counter).2 }.tell
        [.serial (Serial.nextSerial s.counter).1]

def dispatch : System Shell ShellRequest where
  start := .build
  step s request s' := s.Valid request ∧ s.request request = some s'

inductive Turn
  | connect (client : Client)
  | redraw (elapsed : Nat → Nat) (requests : List ShellRequest)
  | resumed (size : Size)
  | input

/-- The frames of the last commits are sent before the requests are read. -/
def turns : System Shell Turn where
  start := .build
  step s turn s' :=
    match turn with
    | .connect client =>
      s' = { s with base := { s.base with listener := s.base.listener ++ [client] } }
    | .redraw elapsed requests =>
      Path dispatch { s with base := (s.base.sendAllFrames elapsed).accept } requests s'
    | .resumed size => s' = { s with size := size }
    | .input =>
      s' = { s with counter := (Serial.nextSerial s.counter).2 }.tell
        [.serial (Serial.nextSerial s.counter).1]

def Turn.steps : Turn → List Step
  | .connect client => [.connect client]
  | .redraw elapsed requests => .frames elapsed :: requests.map .request
  | .resumed size => [.resumed size]
  | .input => [.input]

end Shell

end LocalDesktop.Android.Backend.Wayland
