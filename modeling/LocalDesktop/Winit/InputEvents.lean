/- GID: LocalDesktop/Winit/InputEvents
   generality: G
   digest: The input events of an Android activity as window events of winit. -/

import LocalDesktop.Android.Backend.Wayland.EventCentralizer
import LocalDesktop.Winit.Keycodes

set_option autoImplicit false
set_option relaxedAutoImplicit false

namespace LocalDesktop.Winit

open Android.Backend.Wayland

/-! What the activity reports. -/

namespace Input

inductive ToolType
  | finger
  | other (code : Nat)
  deriving DecidableEq

inductive Source
  | mouse | touchpad
  | other (code : Nat)
  deriving DecidableEq

inductive MotionAction
  | down | up | move | cancel | outside | pointerDown | pointerUp | hoverMove | scroll | hoverEnter
  | hoverExit | buttonPress | buttonRelease
  | other (code : Nat)
  deriving DecidableEq

inductive Button
  | primary | secondary | tertiary | back | forward | stylusPrimary | stylusSecondary
  | other (code : Nat)
  deriving DecidableEq

structure Pointer where
  id : Nat
  x : ℚ
  y : ℚ
  toolType : ToolType
  hscroll : ℚ
  vscroll : ℚ
  deriving DecidableEq

/-- One of the pointers is the one that the action is about. -/
structure MotionEvent where
  action : MotionAction
  pointers : List Pointer
  pointerIndex : Fin pointers.length
  source : Source
  actionButton : Button
  deriving DecidableEq

inductive KeyAction
  | down | up
  | other (code : Nat)
  deriving DecidableEq

structure KeyEvent where
  keyCode : Keycode
  action : KeyAction
  repeatCount : Nat
  deriving DecidableEq

inductive InputEvent
  | motionEvent (event : MotionEvent)
  | keyEvent (event : KeyEvent)
  | other
  deriving DecidableEq

def MotionEvent.pointer (event : MotionEvent) : Pointer := event.pointers.get event.pointerIndex

def MotionEvent.ids (event : MotionEvent) : List Nat := event.pointers.map Pointer.id

end Input

open Input

inductive InputStatus
  | handled | unhandled
  deriving DecidableEq

/-! Motions. -/

def mouseButton : Button → MouseButton
  | .primary => .left
  | .secondary => .right
  | .tertiary => .middle
  | .back => .back
  | .forward => .forward
  | .stylusPrimary => .left
  | .stylusSecondary => .right
  | .other _ => .left

def buttonState : MotionAction → ElementState
  | .buttonPress | .down | .pointerDown => .pressed
  | _ => .released

def Input.MotionEvent.ofMouse (event : MotionEvent) : Bool :=
  event.source = .mouse || event.source = .touchpad

/-- Everything but fingers, and a trackpad even where it calls itself a finger. -/
def Input.MotionEvent.isPointing (event : MotionEvent) : Bool :=
  event.pointer.toolType ≠ .finger || event.ofMouse

/-- A mouse reports its buttons by other actions than `Down` and `Up`. -/
def pointingEvents (event : MotionEvent) : List WindowEvent :=
  match event.action with
  | .hoverMove | .move => [.cursorMoved ⟨event.pointer.x, event.pointer.y⟩]
  | .buttonPress | .buttonRelease | .pointerDown | .pointerUp | .down | .up | .cancel =>
    if event.ofMouse && (event.action = .down || event.action = .up) then []
    else [.mouseInput (buttonState event.action) (mouseButton event.actionButton)]
  | .scroll =>
    if event.pointer.hscroll ≠ 0 ∨ event.pointer.vscroll ≠ 0 then
      [.mouseWheel (.lineDelta event.pointer.hscroll event.pointer.vscroll)]
    else []
  | _ => []

def touchPhase : MotionAction → Option TouchPhase
  | .down | .pointerDown => some .started
  | .up | .pointerUp => some .ended
  | .move => some .moved
  | .cancel => some .cancelled
  | _ => none

/-- A pointer that comes or goes is told alone; a move and the end of a gesture tell all of them. -/
def touchedPointers (event : MotionEvent) : TouchPhase → List Pointer
  | .started | .ended => [event.pointer]
  | .moved | .cancelled => event.pointers

def touchEvents (event : MotionEvent) : List WindowEvent :=
  match touchPhase event.action with
  | some phase => (touchedPointers event phase).map fun pointer =>
    .touch phase ⟨pointer.x, pointer.y⟩ pointer.id
  | none => []

def motionEvents (event : MotionEvent) : List WindowEvent :=
  if event.isPointing then pointingEvents event else touchEvents event

/-! Keys. -/

def isVolumeKey (keycode : Keycode) : Bool :=
  keycode = .volumeUp || keycode = .volumeDown || keycode = .volumeMute

def keyState : KeyAction → ElementState
  | .down => .pressed
  | .up => .released
  | .other _ => .released

def keyboardInput (event : Input.KeyEvent) : WindowEvent :=
  .keyboardInput ⟨toPhysicalKey event.keyCode, keyState event.action, 0 < event.repeatCount⟩ false

/-- The window events are those that the handler is called with, one after the other. -/
def handleInputEvent (ignoreVolumeKeys : Bool) : Input.InputEvent → List WindowEvent × InputStatus
  | .motionEvent event => (motionEvents event, .handled)
  | .keyEvent event =>
    if isVolumeKey event.keyCode && ignoreVolumeKeys then ([], .unhandled)
    else ([keyboardInput event], .handled)
  | .other => ([], .handled)

end LocalDesktop.Winit
