/- GID: LocalDesktop/Android/Backend/Wayland/EventHandler
   generality: G
   digest: What the backend does with its events, and what it sends to the clients. -/

import LocalDesktop.Android.Backend.Wayland.EventCentralizer

set_option autoImplicit false
set_option relaxedAutoImplicit false

namespace LocalDesktop.Android.Backend.Wayland

open Smithay

def getSurface (scene : Scene) : Option Surface := scene.toplevelSurfaces.head?

def clamp (x lower upper : ℚ) : ℚ := max lower (min x upper)

/-- The sum of the widths of all outputs. -/
def maxX (geometries : List Rectangle) : Int :=
  geometries.foldl (fun acc geo => acc + geo.size.w) 0

def clampCoords (space : Space) (pos : Point) : Option Point :=
  if space.outputs = [] then
    some pos
  else do
    let geometries ← space.geometries
    let clampedX := clamp pos.x 0 (maxX geometries)
    match geometries.find? fun geo => geo.contains (asI32 clampedX, 0) with
    | some geo => some ⟨clampedX, clamp pos.y 0 geo.size.h⟩
    | none => some ⟨clampedX, pos.y⟩

def WaylandBackend.elapsed (backend : WaylandBackend) (scene : Scene) : Nat :=
  (scene.now - backend.startTime) / 1000000 % 2 ^ 32

/-- One axis of the frame: nothing is told of an axis that has not moved. -/
def withAmount (event : WinitMouseWheelEvent) (axis : Axis) (frame : AxisFrame) : AxisFrame :=
  let amount := (event.amount axis).getD ((event.amountV120 axis).getD 0 / 120)
  if amount ≠ 0 then
    let frame := (frame.withRelativeDirection axis (event.relativeDirection axis)).withValue
      axis amount
    match event.amountV120 axis with
    | some discrete => frame.withV120 axis (asI32 discrete)
    | none => frame
  else
    frame

def withStopOf (event : WinitMouseWheelEvent) (axis : Axis) (frame : AxisFrame) : AxisFrame :=
  if event.amount axis = some 0 then frame.withStop axis else frame

def axisFrame (event : WinitMouseWheelEvent) : AxisFrame :=
  withStopOf event .vertical (withStopOf event .horizontal (withAmount event .vertical
    (withAmount event .horizontal ((AxisFrame.new (timeMsec event.time)).withSource event.source))))

theorem read_axisFrame_of_kept {β : Type} {read : AxisFrame → β}
    (hdirection : ∀ axis direction frame,
      read (AxisFrame.withRelativeDirection frame axis direction) = read frame)
    (hvalue : ∀ axis value frame, read (AxisFrame.withValue frame axis value) = read frame)
    (hv120 : ∀ axis steps frame, read (AxisFrame.withV120 frame axis steps) = read frame)
    (hstop : ∀ axis frame, read (AxisFrame.withStop frame axis) = read frame)
    (event : WinitMouseWheelEvent) :
    read (axisFrame event) =
      read ((AxisFrame.new (timeMsec event.time)).withSource event.source) := by
  have hamount : ∀ axis frame, read (withAmount event axis frame) = read frame := by
    intro axis frame
    simp only [withAmount]
    split
    · split
      · rw [hv120, hvalue, hdirection]
      · rw [hvalue, hdirection]
    · rfl
  have hstopOf : ∀ axis frame, read (withStopOf event axis frame) = read frame := by
    intro axis frame
    rw [withStopOf]
    split
    · exact hstop axis frame
    · rfl
  rw [axisFrame, hstopOf, hstopOf, hamount, hamount]

/-- The place of the pointer in the compositor space. -/
def pointerLocation (space : Space) (event : WinitMouseMovedEvent) : Option Point := do
  let geometries ← space.geometries
  let maxY ← (geometries.map fun geo => geo.size.h).max?
  clampCoords space ⟨event.xTransformed (maxX geometries), event.yTransformed maxY⟩

def handleInput (scene : Scene) (event : InputEvent) (backend : WaylandBackend) :
    Option (WaylandBackend × List Sent) :=
  match event with
  | .keyboard event =>
    let (keyboard, sent) := backend.keyboard.input event.keyCode event.state.keyState
      (backend.elapsed scene)
    some ({ backend with keyboard := keyboard }, sent)
  | .touchDown event =>
    match getSurface scene with
    | some surface =>
      let (keyboard, focused) := backend.keyboard.setFocus (some surface)
      let (touch, sent) := backend.touch.down scene.alive (some (surface, 0))
        ⟨slot event.id, event.globalPosition, backend.elapsed scene⟩
      some ({ backend with keyboard := keyboard, touch := touch }, focused ++ sent)
    | none => some (backend, [])
  | .touchUp event =>
    match getSurface scene with
    | some _ =>
      let (touch, sent) := backend.touch.up scene.alive ⟨slot event.id, backend.elapsed scene⟩
      some ({ backend with touch := touch }, sent)
    | none => some (backend, [])
  | .touchMotion event =>
    match getSurface scene with
    | some surface =>
      let (touch, sent) := backend.touch.motion scene.alive (some (surface, 0))
        ⟨slot event.id, event.globalPosition, backend.elapsed scene⟩
      some ({ backend with touch := touch }, sent)
    | none => some (backend, [])
  | .pointerMotionAbsolute event => do
    let location ← pointerLocation backend.space event
    let (pointer, sent) := match getSurface scene with
      | some surface =>
        backend.pointer.motion scene.alive (some (surface, 0)) location (timeMsec event.time)
      | none => (backend.pointer, [])
    let (pointer, framed) := pointer.frame scene.alive
    some ({ backend with pointer := pointer }, sent ++ framed)
  | .pointerButton event =>
    let (keyboard, focused) := match getSurface scene with
      | some surface => backend.keyboard.setFocus (some surface)
      | none => (backend.keyboard, [])
    let (pointer, sent) := backend.pointer.button scene.alive event.buttonCode
      event.state.buttonState (timeMsec event.time)
    let (pointer, framed) := pointer.frame scene.alive
    some ({ backend with keyboard := keyboard, pointer := pointer }, focused ++ sent ++ framed)
  | .pointerAxis event =>
    let (pointer, sent) := backend.pointer.axis scene.alive (axisFrame event)
    let (pointer, framed) := pointer.frame scene.alive
    some ({ backend with pointer := pointer }, sent ++ framed)
  | .touchCancel _ => some (backend, [])

/-- A redraw renders, lets the clients' requests in and asks for the next one. What the requests do
to the surfaces belongs to the scene; that a client may start a drag, and put a grab of its own on
the seat, is not part of this. Closing ends the event loop. -/
def handle (scene : Scene) (event : CentralizedEvent) (backend : WaylandBackend) :
    Option (WaylandBackend × List Sent) :=
  match event with
  | .closeRequested => some (backend, [])
  | .redraw => if backend.graphicRenderer && scene.works then some (backend, []) else none
  | .input event => handleInput scene event backend
  | .resized _ _ | .focus _ | .unsupported => some (backend, [])

end LocalDesktop.Android.Backend.Wayland
