/- GID: LocalDesktop/Android/Backend/Wayland/Input
   generality: G
   digest: The events of winit as input events of smithay. -/

import LocalDesktop.Smithay.Seat

set_option autoImplicit false
set_option relaxedAutoImplicit false

namespace LocalDesktop.Android.Backend.Wayland

open Smithay

inductive ElementState
  | pressed | released
  deriving DecidableEq

inductive MouseButton
  | left | right | middle | back | forward
  | other (button : Nat)
  deriving DecidableEq

inductive MouseScrollDelta
  | lineDelta (x y : ℚ)
  | pixelDelta (delta : Point)
  deriving DecidableEq

/-- Relative to the window, in both directions between 0 and 1. -/
structure RelativePosition where
  x : ℚ
  y : ℚ
  deriving DecidableEq

/-- `as i32`: towards zero, and at most to the ends of the range. -/
def asI32 (x : ℚ) : Int :=
  max (-2 ^ 31) (min (2 ^ 31 - 1) (if 0 ≤ x then ⌊x⌋ else ⌈x⌉))

/-- `Event::time_msec`, the time being meant in microseconds. -/
def timeMsec (time : Nat) : Nat := time / 1000 % 2 ^ 32

def slot (id : Nat) : TouchSlot := some (id % 2 ^ 32)

structure WinitKeyboardInputEvent where
  time : Nat
  key : Nat
  count : Nat
  state : ElementState
  deriving DecidableEq

def WinitKeyboardInputEvent.keyCode (event : WinitKeyboardInputEvent) : Nat :=
  (event.key + 8) % 2 ^ 32

def ElementState.keyState (state : ElementState) : KeyState :=
  if state = .pressed then .pressed else .released

def ElementState.buttonState (state : ElementState) : ButtonState :=
  if state = .pressed then .pressed else .released

structure WinitMouseMovedEvent where
  time : Nat
  position : RelativePosition
  globalPosition : Point
  deriving DecidableEq

def WinitMouseMovedEvent.xTransformed (event : WinitMouseMovedEvent) (width : Int) : ℚ :=
  max (event.position.x * width) 0

def WinitMouseMovedEvent.yTransformed (event : WinitMouseMovedEvent) (height : Int) : ℚ :=
  max (event.position.y * height) 0

structure WinitMouseWheelEvent where
  time : Nat
  delta : MouseScrollDelta
  deriving DecidableEq

namespace WinitMouseWheelEvent

def source (event : WinitMouseWheelEvent) : AxisSource :=
  match event.delta with
  | .lineDelta _ _ => .wheel
  | .pixelDelta _ => .continuous

def amount (event : WinitMouseWheelEvent) (axis : Axis) : Option ℚ :=
  match axis, event.delta with
  | .horizontal, .pixelDelta delta => some (-delta.x)
  | .vertical, .pixelDelta delta => some (-delta.y)
  | _, .lineDelta _ _ => none

def amountV120 (event : WinitMouseWheelEvent) (axis : Axis) : Option ℚ :=
  match axis, event.delta with
  | .horizontal, .lineDelta x _ => some (-x * 120)
  | .vertical, .lineDelta _ y => some (-y * 120)
  | _, .pixelDelta _ => none

def relativeDirection (_event : WinitMouseWheelEvent) (_axis : Axis) : AxisRelativeDirection :=
  .identical

end WinitMouseWheelEvent

structure WinitMouseInputEvent where
  time : Nat
  button : MouseButton
  state : ElementState
  isX11 : Bool
  deriving DecidableEq

def xorgMouseToLibinput (xorg : Nat) : Nat :=
  match xorg with
  | 0 => 0
  | 1 => 0x110
  | 2 => 0x112
  | 3 => 0x111
  | _ => (xorg + 2 ^ 32 - 8 + 0x113) % 2 ^ 32

def WinitMouseInputEvent.buttonCode (event : WinitMouseInputEvent) : Nat :=
  match event.button with
  | .left => 0x110
  | .right => 0x111
  | .middle => 0x112
  | .forward => 0x115
  | .back => 0x116
  | .other button => if event.isX11 then xorgMouseToLibinput button else button

structure WinitTouchStartedEvent where
  time : Nat
  position : RelativePosition
  globalPosition : Point
  id : Nat
  deriving DecidableEq

structure WinitTouchMovedEvent where
  time : Nat
  position : RelativePosition
  globalPosition : Point
  id : Nat
  deriving DecidableEq

def WinitTouchStartedEvent.xTransformed (event : WinitTouchStartedEvent) (width : Int) : ℚ :=
  max (event.position.x * width) 0

def WinitTouchStartedEvent.yTransformed (event : WinitTouchStartedEvent) (height : Int) : ℚ :=
  max (event.position.y * height) 0

def WinitTouchMovedEvent.xTransformed (event : WinitTouchMovedEvent) (width : Int) : ℚ :=
  max (event.position.x * width) 0

def WinitTouchMovedEvent.yTransformed (event : WinitTouchMovedEvent) (height : Int) : ℚ :=
  max (event.position.y * height) 0

structure WinitTouchEndedEvent where
  time : Nat
  id : Nat
  deriving DecidableEq

structure WinitTouchCancelledEvent where
  time : Nat
  id : Nat
  deriving DecidableEq

inductive InputEvent
  | keyboard (event : WinitKeyboardInputEvent)
  | touchDown (event : WinitTouchStartedEvent)
  | touchUp (event : WinitTouchEndedEvent)
  | touchMotion (event : WinitTouchMovedEvent)
  | touchCancel (event : WinitTouchCancelledEvent)
  | pointerMotionAbsolute (event : WinitMouseMovedEvent)
  | pointerButton (event : WinitMouseInputEvent)
  | pointerAxis (event : WinitMouseWheelEvent)
  deriving DecidableEq

end LocalDesktop.Android.Backend.Wayland
