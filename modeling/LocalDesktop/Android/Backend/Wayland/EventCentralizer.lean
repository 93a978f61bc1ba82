/- GID: LocalDesktop/Android/Backend/Wayland/EventCentralizer
   generality: G
   digest: The state of the backend, and the window events as its own events. -/

import LocalDesktop.Android.Backend.Wayland.Input
import LocalDesktop.Android.Backend.Wayland.Keymap

set_option autoImplicit false
set_option relaxedAutoImplicit false

namespace LocalDesktop.Android.Backend.Wayland

open Smithay

/-- What a callback finds outside the backend: the monotonic clock in nanoseconds, the window of
the renderer, the surfaces of the clients, and how the calls end that the backend unwraps. -/
structure Scene where
  now : Nat
  innerSize : Size
  scaleFactor : ℚ
  toplevelSurfaces : List Surface
  alive : Surface → Bool
  -- Window, renderer, listener and display do what a resume or a redraw asks of them, and no
  -- request that the redraw dispatches panics.
  works : Bool

/-- The fields of the backend, of its compositor and of the compositor's state that the input
events and the life of the window have to do with. -/
structure WaylandBackend where
  size : Size
  space : Space
  output : Option Output
  startTime : Nat
  keyboard : KeyboardHandle
  touch : TouchHandle
  pointer : PointerHandle
  -- The renderer is there.
  graphicRenderer : Bool
  keyCounter : Nat
  scaleFactor : ℚ

/-- The backend that `setup` builds, with the compositor of `Compositor::build`. -/
def WaylandBackend.build (startTime : Nat) : WaylandBackend where
  size := ⟨1920, 1080⟩
  space := ⟨[]⟩
  output := none
  startTime := startTime
  keyboard := .new
  touch := .new
  pointer := .new
  graphicRenderer := false
  keyCounter := 0
  scaleFactor := 1

/-- `graphic_renderer.as_ref().unwrap().window().inner_size()` -/
def WaylandBackend.innerSize (backend : WaylandBackend) (scene : Scene) : Option Size :=
  if backend.graphicRenderer then some scene.innerSize else none

inductive TouchPhase
  | started | moved | ended | cancelled
  deriving DecidableEq

structure KeyEvent where
  physicalKey : PhysicalKey
  state : ElementState
  isRepeat : Bool
  deriving DecidableEq

inductive WindowEvent
  | resized (size : Size)
  | scaleFactorChanged (scaleFactor : ℚ)
  | redrawRequested
  | closeRequested
  | focused (focused : Bool)
  | keyboardInput (event : KeyEvent) (isSynthetic : Bool)
  | cursorMoved (position : Point)
  | mouseWheel (delta : MouseScrollDelta)
  | mouseInput (state : ElementState) (button : MouseButton)
  | touch (phase : TouchPhase) (location : Point) (id : Nat)
  | unhandled
  deriving DecidableEq

inductive CentralizedEvent
  | resized (size : Size) (scaleFactor : ℚ)
  | focus (focused : Bool)
  | input (event : InputEvent)
  | closeRequested
  | redraw
  | unsupported
  deriving DecidableEq

def asMillis (now : Nat) : Nat := now / 1000 / 1000 % 2 ^ 32

def RelativePosition.ofLocation (location : Point) (size : Size) : RelativePosition :=
  ⟨location.x / size.w, location.y / size.h⟩

/-- The touch events divide both coordinates by the width. -/
def RelativePosition.ofTouch (location : Point) (size : Size) : RelativePosition :=
  ⟨location.x / size.w, location.y / size.w⟩

def countKey (keyCounter : Nat) : ElementState → Nat
  | .pressed => (keyCounter + 1) % 2 ^ 32
  | .released => keyCounter - 1

/-- `none` is a panic. -/
def centralize (scene : Scene) (event : WindowEvent) (backend : WaylandBackend) :
    Option (CentralizedEvent × WaylandBackend) :=
  let time := asMillis scene.now
  match event with
  | .resized size => some (.resized size backend.scaleFactor, backend)
  | .scaleFactorChanged newScaleFactor => do
    let backend := { backend with scaleFactor := newScaleFactor }
    let size ← backend.innerSize scene
    some (.resized size backend.scaleFactor, backend)
  | .redrawRequested => some (.redraw, backend)
  | .closeRequested => some (.closeRequested, backend)
  | .focused focused => some (.focus focused, backend)
  | .keyboardInput event isSynthetic =>
    if !isSynthetic && !event.isRepeat then
      let keyCounter := countKey backend.keyCounter event.state
      let scancode := (physicalkeyToScancode event.physicalKey).getD 0
      some (.input (.keyboard ⟨time, scancode, keyCounter, event.state⟩),
        { backend with keyCounter := keyCounter })
    else
      some (.unsupported, backend)
  | .cursorMoved position => do
    let size ← backend.innerSize scene
    some (.input (.pointerMotionAbsolute ⟨time, .ofLocation position size, position⟩), backend)
  | .mouseWheel delta => some (.input (.pointerAxis ⟨time, delta⟩), backend)
  | .mouseInput state button =>
    some (.input (.pointerButton ⟨time, button, state, false⟩), backend)
  | .touch .started location id => do
    let size ← backend.innerSize scene
    some (.input (.touchDown ⟨time, .ofTouch location size, location, id⟩), backend)
  | .touch .moved location id => do
    let size ← backend.innerSize scene
    some (.input (.touchMotion ⟨time, .ofTouch location size, location, id⟩), backend)
  | .touch .ended _ id => do
    let _ ← backend.innerSize scene
    some (.input (.touchUp ⟨time, id⟩), backend)
  | .touch .cancelled _ id => some (.input (.touchCancel ⟨time, id⟩), backend)
  | .unhandled => some (.unsupported, backend)

end LocalDesktop.Android.Backend.Wayland
