/- GID: LocalDesktop/Smithay/Seat
   generality: G
   digest: Touch, pointer and keyboard of the seat, with their grabs and what they send. -/

import LocalDesktop.Smithay.Space
import Mathlib.Data.Finset.Basic
import Mathlib.Logic.Function.Basic

/-!
The handles of the seat send their events to the surface in focus. A grab is
started by the first touch point or the first pressed button, and keeps the
focus until the last one is up. A grab whose surface is no longer alive is
discarded at the next call.

Serials are left out: nothing depends on them.
-/

set_option autoImplicit false
set_option relaxedAutoImplicit false

namespace LocalDesktop.Smithay

abbrev Surface := Nat

abbrev Focus := Option (Surface × Point)

abbrev TouchSlot := Option Nat

inductive KeyState
  | released | pressed
  deriving DecidableEq

inductive ButtonState
  | released | pressed
  deriving DecidableEq

inductive Axis
  | vertical | horizontal
  deriving DecidableEq

inductive AxisSource
  | finger | continuous | wheel | wheelTilt
  deriving DecidableEq

inductive AxisRelativeDirection
  | identical | inverted
  deriving DecidableEq

/-- A group of scroll events; pairs are of the horizontal and the vertical axis. -/
structure AxisFrame where
  source : Option AxisSource
  relativeDirection : AxisRelativeDirection × AxisRelativeDirection
  time : Nat
  axis : ℚ × ℚ
  v120 : Option (Int × Int)
  stop : Bool × Bool
  deriving DecidableEq

namespace AxisFrame

def new (time : Nat) : AxisFrame :=
  ⟨none, (.identical, .identical), time, (0, 0), none, (false, false)⟩

def withSource (frame : AxisFrame) (source : AxisSource) : AxisFrame :=
  { frame with source := some source }

def withRelativeDirection (frame : AxisFrame) (axis : Axis) (direction : AxisRelativeDirection) :
    AxisFrame :=
  match axis with
  | .horizontal => { frame with relativeDirection := (direction, frame.relativeDirection.2) }
  | .vertical => { frame with relativeDirection := (frame.relativeDirection.1, direction) }

def withV120 (frame : AxisFrame) (axis : Axis) (steps : Int) : AxisFrame :=
  let v120 := frame.v120.getD (0, 0)
  match axis with
  | .horizontal => { frame with v120 := some (steps, v120.2) }
  | .vertical => { frame with v120 := some (v120.1, steps) }

def withValue (frame : AxisFrame) (axis : Axis) (value : ℚ) : AxisFrame :=
  match axis with
  | .horizontal => { frame with axis := (frame.axis.1 + value, frame.axis.2) }
  | .vertical => { frame with axis := (frame.axis.1, frame.axis.2 + value) }

def withStop (frame : AxisFrame) (axis : Axis) : AxisFrame :=
  match axis with
  | .horizontal => { frame with stop := (true, frame.stop.2) }
  | .vertical => { frame with stop := (frame.stop.1, true) }

end AxisFrame

/-- What a client is told. Locations are relative to the surface. -/
inductive Sent
  | key (surface : Surface) (code : Nat) (state : KeyState) (time : Nat)
  | keyboardEnter (surface : Surface) (keys : Finset Nat)
  | keyboardLeave (surface : Surface)
  | touchDown (surface : Surface) (slot : TouchSlot) (location : Point) (time : Nat)
  | touchUp (surface : Surface) (slot : TouchSlot) (time : Nat)
  | touchMotion (surface : Surface) (slot : TouchSlot) (location : Point) (time : Nat)
  -- The end of a group of touch events; `TouchHandle::frame` sends it.
  | touchFrame (surface : Surface)
  | pointerEnter (surface : Surface) (location : Point)
  | pointerLeave (surface : Surface)
  | pointerMotion (surface : Surface) (location : Point) (time : Nat)
  | pointerButton (surface : Surface) (button : Nat) (state : ButtonState) (time : Nat)
  | pointerAxis (surface : Surface) (frame : AxisFrame)
  | pointerFrame (surface : Surface)
  deriving DecidableEq

/-- The time stamp, if the event has one. -/
def Sent.time : Sent → Option Nat
  | .key _ _ _ time | .touchDown _ _ _ time | .touchUp _ _ time | .touchMotion _ _ _ time
  | .pointerMotion _ _ time | .pointerButton _ _ _ time => some time
  | .pointerAxis _ frame => some frame.time
  | _ => none

/-- The place on the surface, if the event has one. -/
def Sent.location : Sent → Option Point
  | .touchDown _ _ location _ | .touchMotion _ _ location _ | .pointerEnter _ location
  | .pointerMotion _ location _ => some location
  | _ => none

/-! Touch. -/

structure DownEvent where
  slot : TouchSlot
  location : Point
  time : Nat

structure UpEvent where
  slot : TouchSlot
  time : Nat

structure MotionEvent where
  slot : TouchSlot
  location : Point
  time : Nat

structure TouchSlotState where
  focus : Focus
  deriving DecidableEq

structure TouchDownGrab where
  startFocus : Focus
  startSlot : TouchSlot
  touchPoints : Nat
  deriving DecidableEq

structure TouchHandle where
  focus : TouchSlot → Option TouchSlotState
  grab : Option TouchDownGrab

namespace TouchHandle

def new : TouchHandle := ⟨fun _ => none, none⟩

def focused (t : TouchHandle) (slot : TouchSlot) : Bool :=
  (t.focus slot).any fun state => state.focus.isSome

/-- The grab that a call goes to, if not to the default one. -/
def liveGrab (alive : Surface → Bool) (t : TouchHandle) : Option TouchDownGrab :=
  t.grab.filter fun grab => grab.startFocus.all fun focus => alive focus.1

def innerDown (t : TouchHandle) (focus : Focus) (event : DownEvent) : TouchHandle × List Sent :=
  ({ t with focus := Function.update t.focus event.slot (some ⟨focus⟩) },
    match focus with
    | some (surface, origin) =>
      [.touchDown surface event.slot (event.location - origin) event.time]
    | none => [])

def innerUp (t : TouchHandle) (event : UpEvent) : TouchHandle × List Sent :=
  match t.focus event.slot with
  | some ⟨some (surface, _)⟩ =>
    ({ t with focus := Function.update t.focus event.slot (some ⟨none⟩) },
      [.touchUp surface event.slot event.time])
  | _ => (t, [])

def innerMotion (t : TouchHandle) (event : MotionEvent) : TouchHandle × List Sent :=
  match t.focus event.slot with
  | some ⟨some (surface, origin)⟩ =>
    (t, [.touchMotion surface event.slot (event.location - origin) event.time])
  | _ => (t, [])

def down (alive : Surface → Bool) (t : TouchHandle) (focus : Focus) (event : DownEvent) :
    TouchHandle × List Sent :=
  match t.liveGrab alive with
  | some grab =>
    let (t, sent) := t.innerDown grab.startFocus event
    ({ t with grab := some { grab with touchPoints := grab.touchPoints + 1 } }, sent)
  | none =>
    let (t, sent) := t.innerDown focus event
    ({ t with grab := some ⟨focus, event.slot, 1⟩ }, sent)

def up (alive : Surface → Bool) (t : TouchHandle) (event : UpEvent) : TouchHandle × List Sent :=
  match t.liveGrab alive with
  | some grab =>
    let (t, sent) := t.innerUp event
    let touchPoints := grab.touchPoints - 1
    ({ t with
        grab := if touchPoints = 0 then none else some { grab with touchPoints := touchPoints } },
      sent)
  | none =>
    let (t, sent) := t.innerUp event
    ({ t with grab := none }, sent)

/-- The focus of a touch point does not change on the way: the one given here is not used. -/
def motion (alive : Surface → Bool) (t : TouchHandle) (_focus : Focus) (event : MotionEvent) :
    TouchHandle × List Sent :=
  let (t', sent) := t.innerMotion event
  ({ t' with grab := t.liveGrab alive }, sent)

section Calls

variable {t : TouchHandle} {alive : Surface → Bool} {focus : Focus}

/-- What a new touch point gets for its focus: with a grab, that of the first one. -/
def downFocus (t : TouchHandle) (alive : Surface → Bool) (focus : Focus) : Focus :=
  (t.liveGrab alive).elim focus TouchDownGrab.startFocus

theorem down_sent (event : DownEvent) :
    (t.down alive focus event).2 = (t.innerDown (t.downFocus alive focus) event).2 := by
  unfold down downFocus
  cases t.liveGrab alive <;> rfl

theorem down_focus (event : DownEvent) :
    (t.down alive focus event).1.focus =
      Function.update t.focus event.slot (some ⟨t.downFocus alive focus⟩) := by
  unfold down downFocus
  cases t.liveGrab alive <;> rfl

theorem up_sent (event : UpEvent) : (t.up alive event).2 = (t.innerUp event).2 := by
  unfold up
  cases t.liveGrab alive <;> rfl

theorem up_focus (event : UpEvent) : (t.up alive event).1.focus = (t.innerUp event).1.focus := by
  unfold up
  cases t.liveGrab alive <;> rfl

theorem innerMotion_fst (event : MotionEvent) : (t.innerMotion event).1 = t := by
  unfold innerMotion
  split <;> rfl

end Calls

end TouchHandle

/-! Pointer. -/

structure ClickGrab where
  startFocus : Focus
  button : Nat
  location : Point
  deriving DecidableEq

structure PointerHandle where
  focus : Focus
  location : Point
  grab : Option ClickGrab
  pressedButtons : List Nat
  deriving DecidableEq

namespace PointerHandle

def new : PointerHandle := ⟨none, 0, none, []⟩

def liveGrab (alive : Surface → Bool) (p : PointerHandle) : Option ClickGrab :=
  p.grab.filter fun grab => grab.startFocus.all fun focus => alive focus.1

def toFocus (p : PointerHandle) (event : Surface → Sent) : List Sent :=
  p.focus.elim [] fun focus => [event focus.1]

def innerMotion (p : PointerHandle) (focus : Focus) (location : Point) (time : Nat) :
    PointerHandle × List Sent :=
  ({ p with focus := focus, location := location },
    match focus, p.focus with
    | some (surface, origin), some (old, _) =>
      if surface = old then
        [.pointerMotion surface (location - origin) time]
      else
        [.pointerLeave old, .pointerEnter surface (location - origin)]
    | some (surface, origin), none => [.pointerEnter surface (location - origin)]
    | none, some (old, _) => [.pointerLeave old]
    | none, none => [])

def motion (alive : Surface → Bool) (p : PointerHandle) (focus : Focus) (location : Point)
    (time : Nat) : PointerHandle × List Sent :=
  let grab := p.liveGrab alive
  { p with grab := grab }.innerMotion (grab.elim focus ClickGrab.startFocus) location time

def press (p : PointerHandle) (button : Nat) : ButtonState → List Nat
  | .pressed => p.pressedButtons ++ [button]
  | .released => p.pressedButtons.filter fun other => decide (other ≠ button)

def button (alive : Surface → Bool) (p : PointerHandle) (button : Nat) (state : ButtonState)
    (time : Nat) : PointerHandle × List Sent :=
  let pressed := p.press button state
  ({ p with
      pressedButtons := pressed
      grab := match p.liveGrab alive with
        | some grab => if pressed = [] then none else some grab
        | none => if state = .pressed then some ⟨p.focus, button, p.location⟩ else none },
    p.toFocus fun surface => .pointerButton surface button state time)

def axis (alive : Surface → Bool) (p : PointerHandle) (details : AxisFrame) :
    PointerHandle × List Sent :=
  ({ p with grab := p.liveGrab alive }, p.toFocus fun surface => .pointerAxis surface details)

def frame (alive : Surface → Bool) (p : PointerHandle) : PointerHandle × List Sent :=
  ({ p with grab := p.liveGrab alive }, p.toFocus fun surface => .pointerFrame surface)

end PointerHandle

/-! Keyboard. The state of the modifiers is kept by libxkbcommon and left out. -/

structure KeyboardHandle where
  focus : Option Surface
  pressedKeys : Finset Nat
  forwardedPressedKeys : Finset Nat
  deriving DecidableEq

namespace KeyboardHandle

def new : KeyboardHandle := ⟨none, ∅, ∅⟩

def track (keys : Finset Nat) (keycode : Nat) : KeyState → Finset Nat
  | .pressed => insert keycode keys
  | .released => keys.erase keycode

/-- The key is forwarded in every case; the client is told the raw code of the device. -/
def input (k : KeyboardHandle) (keycode : Nat) (state : KeyState) (time : Nat) :
    KeyboardHandle × List Sent :=
  ({ k with
      pressedKeys := track k.pressedKeys keycode state
      forwardedPressedKeys := track k.forwardedPressedKeys keycode state },
    k.focus.elim [] fun surface => [.key surface (keycode - 8) state time])

def setFocus (k : KeyboardHandle) (focus : Option Surface) : KeyboardHandle × List Sent :=
  ({ k with focus := focus },
    match focus, k.focus with
    | some surface, some old =>
      if surface = old then []
      else [.keyboardLeave old, .keyboardEnter surface k.forwardedPressedKeys]
    | some surface, none => [.keyboardEnter surface k.forwardedPressedKeys]
    | none, some old => [.keyboardLeave old]
    | none, none => [])

end KeyboardHandle

/-! Each handle sends events of its own device. -/

inductive Device
  | keyboard | touch | pointer
  deriving DecidableEq

def Sent.device : Sent → Device
  | .key _ _ _ _ | .keyboardEnter _ _ | .keyboardLeave _ => .keyboard
  | .touchDown _ _ _ _ | .touchUp _ _ _ | .touchMotion _ _ _ _ | .touchFrame _ => .touch
  | .pointerEnter _ _ | .pointerLeave _ | .pointerMotion _ _ _ | .pointerButton _ _ _ _
  | .pointerAxis _ _ | .pointerFrame _ => .pointer

def OfDevice (device : Device) (sent : List Sent) : Prop := ∀ event ∈ sent, event.device = device

section OfDevice

variable {alive : Surface → Bool} {device : Device} {sent sent' : List Sent}

theorem KeyboardHandle.input_device (k : KeyboardHandle) (keycode : Nat) (state : KeyState)
    (time : Nat) : OfDevice .keyboard (k.input keycode state time).2 := by
  cases hfocus : k.focus <;> simp [KeyboardHandle.input, hfocus, OfDevice, Sent.device]

theorem KeyboardHandle.setFocus_device (k : KeyboardHandle) (focus : Option Surface) :
    OfDevice .keyboard (k.setFocus focus).2 := by
  simp only [KeyboardHandle.setFocus]
  split
  · split <;> simp [OfDevice, Sent.device]
  all_goals simp [OfDevice, Sent.device]

theorem TouchHandle.down_device (t : TouchHandle) (focus : Focus) (event : DownEvent) :
    OfDevice .touch (t.down alive focus event).2 := by
  rw [TouchHandle.down_sent]
  cases hfocus : t.downFocus alive focus <;> simp [TouchHandle.innerDown, OfDevice, Sent.device]

theorem TouchHandle.up_device (t : TouchHandle) (event : UpEvent) :
    OfDevice .touch (t.up alive event).2 := by
  rw [TouchHandle.up_sent, TouchHandle.innerUp]
  split <;> simp [OfDevice, Sent.device]

theorem TouchHandle.motion_device (t : TouchHandle) (focus : Focus) (event : MotionEvent) :
    OfDevice .touch (t.motion alive focus event).2 := by
  simp only [TouchHandle.motion, TouchHandle.innerMotion]
  split <;> simp [OfDevice, Sent.device]

theorem PointerHandle.motion_device (p : PointerHandle) (focus : Focus) (location : Point)
    (time : Nat) : OfDevice .pointer (p.motion alive focus location time).2 := by
  simp only [PointerHandle.motion, PointerHandle.innerMotion]
  split
  · split <;> simp [OfDevice, Sent.device]
  all_goals simp [OfDevice, Sent.device]

private theorem PointerHandle.toFocus_device (p : PointerHandle) {event : Surface → Sent}
    (hevent : ∀ surface, (event surface).device = device) : OfDevice device (p.toFocus event) := by
  cases hfocus : p.focus <;> simp [PointerHandle.toFocus, hfocus, OfDevice, hevent]

theorem PointerHandle.button_device (p : PointerHandle) (button : Nat) (state : ButtonState)
    (time : Nat) : OfDevice .pointer (p.button alive button state time).2 :=
  @PointerHandle.toFocus_device _ p (fun surface => .pointerButton surface button state time)
    fun _ => rfl

theorem PointerHandle.axis_device (p : PointerHandle) (details : AxisFrame) :
    OfDevice .pointer (p.axis alive details).2 :=
  @PointerHandle.toFocus_device _ p (fun surface => .pointerAxis surface details) fun _ => rfl

theorem PointerHandle.frame_device (p : PointerHandle) : OfDevice .pointer (p.frame alive).2 :=
  p.toFocus_device fun _ => rfl

end OfDevice

end LocalDesktop.Smithay
