/- GID: LocalDesktop/Android/App/WheelTurns
   generality: G
   digest: What the clients are told of the turns of a wheel, in 120ths of a line. -/

import LocalDesktop.Android.App.Coordinates
import LocalDesktop.Foundation.Rounding
import Mathlib.Algebra.BigOperators.Ring.List

set_option autoImplicit false
set_option relaxedAutoImplicit false

namespace LocalDesktop.Android.App

open Foundation.Transition Foundation.Rounding Smithay Backend.Wayland

/-! The turns of a history. -/

/-- The wheel event that winit's one becomes. -/
def Moment.wheel (m : Moment) : Option WinitMouseWheelEvent :=
  match m.callback with
  | .windowEvent (.mouseWheel delta) => some ⟨asMillis m.scene.now, delta⟩
  | _ => none

def lines (axis : Axis) (event : WinitMouseWheelEvent) : Option ℚ :=
  match axis, event.delta with
  | .horizontal, .lineDelta x _ => some x
  | .vertical, .lineDelta _ y => some y
  | _, .pixelDelta _ => none

def Moment.turn (axis : Axis) (m : Moment) : Option ℚ := m.wheel.bind (lines axis)

/-- A client is told that the pointer has come to its surface, or that it has gone. -/
def pointing : Sent → Option Bool
  | .pointerEnter _ _ => some true
  | .pointerLeave _ => some false
  | _ => none

def onSurface (on : Bool) (sent : List Sent) : Bool :=
  sent.foldl (fun on event => (pointing event).getD on) on

/-- Whether the pointer is on a surface, and what the wheel has turned while it was on one. -/
def follow (axis : Axis) (seen : Bool × List ℚ) (m : Moment) : Bool × List ℚ :=
  (onSurface seen.1 m.sent, seen.2 ++ if seen.1 then (m.turn axis).toList else [])

def followed (axis : Axis) (h : List Moment) : Bool × List ℚ := h.foldl (follow axis) (false, [])

def turns (axis : Axis) (h : List Moment) : List ℚ := (followed axis h).2

/-! The axis frames of a history. -/

def frameOf : Sent → Option AxisFrame
  | .pointerAxis _ frame => some frame
  | _ => none

def frames (sent : List Sent) : List AxisFrame := sent.filterMap frameOf

def framesSent (h : List Moment) : List AxisFrame := h.flatMap fun m => frames m.sent

/-- The frames of a wheel that turns by lines. -/
def wheelFrames (h : List Moment) : List AxisFrame :=
  (framesSent h).filter fun frame => frame.source = some .wheel

def steps (axis : Axis) (frame : AxisFrame) : Int :=
  match axis with
  | .horizontal => (frame.v120.getD (0, 0)).1
  | .vertical => (frame.v120.getD (0, 0)).2

def stepsSent (axis : Axis) (h : List Moment) : Int := ((framesSent h).map (steps axis)).sum

def amountOf (axis : Axis) (frame : AxisFrame) : ℚ :=
  match axis with
  | .horizontal => frame.axis.1
  | .vertical => frame.axis.2

def amountSent (axis : Axis) (h : List Moment) : ℚ :=
  ((framesSent h).map fun frame =>
    if frame.source = some .wheel then amountOf axis frame else 0).sum

variable {scene : Scene} {backend backend' : WaylandBackend} {startTime : Nat} {h : List Moment}
  {m : Moment} {sent sent' : List Sent} {on : Bool} {axis : Axis} {alive : Surface → Bool}

private theorem onSurface_append :
    onSurface on (sent ++ sent') = onSurface (onSurface on sent) sent' := List.foldl_append

private theorem frames_append : frames (sent ++ sent') = frames sent ++ frames sent' :=
  List.filterMap_append

private theorem followed_snoc : followed axis (h ++ [m]) = follow axis (followed axis h) m := by
  simp only [followed, List.foldl_append, List.foldl_cons, List.foldl_nil]

private theorem framesSent_snoc : framesSent (h ++ [m]) = framesSent h ++ frames m.sent := by
  simp [framesSent]

/-! What the seat sends. -/

/-- Nobody is told of the pointer coming or going, or of the wheel. -/
structure NoWheel (sent : List Sent) : Prop where
  stays : ∀ on, onSurface on sent = on
  noFrame : frames sent = []

private theorem noWheel_nil : NoWheel [] := ⟨fun _ => rfl, rfl⟩

private theorem NoWheel.append (hsent : NoWheel sent) (hsent' : NoWheel sent') :
    NoWheel (sent ++ sent') := by
  refine ⟨fun on => ?_, ?_⟩
  · rw [onSurface_append, hsent.stays, hsent'.stays]
  · rw [frames_append, hsent.noFrame, hsent'.noFrame, List.append_nil]

private theorem noWheel_of_device {device : Device} (hsent : OfDevice device sent)
    (hother : device ≠ .pointer) : NoWheel sent := by
  induction sent with
  | nil => exact noWheel_nil
  | cons event sent ih =>
    obtain ⟨hevent, hrest⟩ := List.forall_mem_cons.mp hsent
    have hsingle : NoWheel [event] := by
      cases event with
      | pointerEnter | pointerLeave | pointerAxis => exact absurd hevent.symm hother
      | _ => exact ⟨fun _ => rfl, rfl⟩
    exact hsingle.append (ih hrest)

private theorem noWheel_toFocus (p : PointerHandle) {event : Surface → Sent}
    (hevent : ∀ surface, NoWheel [event surface]) : NoWheel (p.toFocus event) := by
  cases hfocus : p.focus with
  | none => simpa [PointerHandle.toFocus, hfocus] using noWheel_nil
  | some focus => simpa [PointerHandle.toFocus, hfocus] using hevent focus.1

private theorem noWheel_frame (p : PointerHandle) : NoWheel (p.frame alive).2 :=
  noWheel_toFocus p fun _ => ⟨fun _ => rfl, rfl⟩

private theorem noWheel_button (p : PointerHandle) (button : Nat) (state : ButtonState)
    (time : Nat) :
    NoWheel (p.button alive button state time).2 :=
  @noWheel_toFocus p (fun surface => .pointerButton surface button state time)
    fun _ => ⟨fun _ => rfl, rfl⟩

/-- The pointer has a focus from the enter on that a client is told of, until it is told of the
leave. -/
private theorem onSurface_motion (p : PointerHandle) (focus : Focus) (location : Point)
    (time : Nat) :
    (p.motion alive focus location time).1.focus.isSome =
      onSurface p.focus.isSome (p.motion alive focus location time).2 := by
  simp only [PointerHandle.motion, PointerHandle.innerMotion]
  split
  · next hnew hold =>
    rw [hnew, hold]
    split <;> rfl
  all_goals
    next hnew hold =>
      rw [hnew, hold]
      rfl

private theorem frames_motion (p : PointerHandle) (focus : Focus) (location : Point) (time : Nat) :
    frames (p.motion alive focus location time).2 = [] := by
  simp only [PointerHandle.motion, PointerHandle.innerMotion]
  split
  · split <;> rfl
  all_goals rfl

private theorem frames_axis (p : PointerHandle) (details : AxisFrame) :
    frames (p.axis alive details).2 = if p.focus.isSome then [details] else [] := by
  cases hfocus : p.focus <;>
    simp [PointerHandle.axis, PointerHandle.toFocus, hfocus, frames, frameOf]

private theorem onSurface_axis (p : PointerHandle) (details : AxisFrame) :
    onSurface on (p.axis alive details).2 = on := by
  cases hfocus : p.focus <;>
    simp [PointerHandle.axis, PointerHandle.toFocus, hfocus, onSurface, pointing]

/-! A step. -/

def wheel : InputEvent → Option WinitMouseWheelEvent
  | .pointerAxis event => some event
  | _ => none

private theorem wheel_handleInput {input : InputEvent}
    (hinput : handleInput scene input backend = some (backend', sent)) :
    backend'.pointer.focus.isSome = onSurface backend.pointer.focus.isSome sent ∧
      frames sent =
        if backend.pointer.focus.isSome then (wheel input).toList.map axisFrame else [] := by
  have hkeyboard : NoWheel (backend.keyboard.setFocus (getSurface scene)).2 :=
    noWheel_of_device (KeyboardHandle.setFocus_device _ _) (by decide)
  have hquiet : ∀ {sent : List Sent}, NoWheel sent → wheel input = none →
      backend.pointer.focus.isSome = onSurface backend.pointer.focus.isSome sent ∧
        frames sent =
          if backend.pointer.focus.isSome then (wheel input).toList.map axisFrame else [] := by
    intro sent hsent hwheel
    rw [hsent.stays, hsent.noFrame, hwheel]
    simp
  cases input with
  | keyboard =>
    cases hinput
    exact hquiet (noWheel_of_device (KeyboardHandle.input_device _ _ _ _) (by decide)) rfl
  | touchCancel =>
    cases hinput
    exact hquiet noWheel_nil rfl
  | touchDown =>
    simp only [handleInput] at hinput
    split at hinput
    · next surface hsurface =>
      rw [hsurface] at hkeyboard
      cases hinput
      exact hquiet (hkeyboard.append
        (noWheel_of_device (TouchHandle.down_device _ _ _) (by decide))) rfl
    · cases hinput
      exact hquiet noWheel_nil rfl
  | touchUp =>
    simp only [handleInput] at hinput
    split at hinput
    · cases hinput
      exact hquiet (noWheel_of_device (TouchHandle.up_device _ _) (by decide)) rfl
    · cases hinput
      exact hquiet noWheel_nil rfl
  | touchMotion =>
    simp only [handleInput] at hinput
    split at hinput
    · next surface hsurface =>
      cases hinput
      exact hquiet (noWheel_of_device (TouchHandle.motion_device _ (some (surface, 0)) _)
        (by decide)) rfl
    · cases hinput
      exact hquiet noWheel_nil rfl
  | pointerMotionAbsolute event =>
    simp only [handleInput, Option.bind_eq_bind, Option.bind_eq_some_iff] at hinput
    obtain ⟨location, -, hinput⟩ := hinput
    cases hsurface : getSurface scene with
    | none =>
      rw [hsurface] at hinput
      cases hinput
      exact hquiet (noWheel_nil.append (noWheel_frame _)) rfl
    | some surface =>
      rw [hsurface] at hinput
      cases hinput
      rw [onSurface_append, frames_append, frames_motion, (noWheel_frame _).stays,
        (noWheel_frame _).noFrame]
      exact ⟨onSurface_motion _ _ _ _, by simp [wheel]⟩
  | pointerButton event =>
    have hpressed := (@noWheel_button scene.alive backend.pointer event.buttonCode
      event.state.buttonState (timeMsec event.time)).append (@noWheel_frame scene.alive
        (backend.pointer.button scene.alive event.buttonCode event.state.buttonState
          (timeMsec event.time)).1)
    cases hsurface : getSurface scene with
    | none =>
      simp only [handleInput, hsurface, List.nil_append] at hinput
      cases hinput
      exact hquiet hpressed rfl
    | some surface =>
      simp only [handleInput, hsurface, List.append_assoc] at hinput
      rw [hsurface] at hkeyboard
      cases hinput
      exact hquiet (hkeyboard.append hpressed) rfl
  | pointerAxis event =>
    have hfocus : backend'.pointer.focus = backend.pointer.focus := by
      cases hinput
      rfl
    have hsent : sent = (backend.pointer.axis scene.alive (axisFrame event)).2 ++
        ((backend.pointer.axis scene.alive (axisFrame event)).1.frame scene.alive).2 := by
      cases hinput
      rfl
    rw [hsent, hfocus, onSurface_append, frames_append, frames_axis, onSurface_axis,
      (noWheel_frame _).stays, (noWheel_frame _).noFrame, List.append_nil]
    exact ⟨rfl, rfl⟩

private theorem wheel_inputOf :
    ((inputOf m.scene backend m.callback).bind fun input => wheel input.1) =
    m.wheel := by
  obtain ⟨scene, callback, sent⟩ := m
  cases callback with
  | resumed => rfl
  | windowEvent event =>
    cases event with
    | keyboardInput event isSynthetic =>
      simp only [inputOf, centralize]
      split <;> rfl
    | scaleFactorChanged | cursorMoved =>
      simp only [inputOf, centralize, WaylandBackend.innerSize]
      cases backend.graphicRenderer <;> rfl
    | touch phase =>
      cases phase with
      | cancelled => rfl
      | _ =>
        simp only [inputOf, centralize, WaylandBackend.innerSize]
        cases backend.graphicRenderer <;> rfl
    | _ => rfl

/-- A frame for every wheel event that finds the pointer on a surface, and no others. -/
private theorem wheel_step (hstep : (system startTime).step backend m backend') :
    backend'.pointer.focus.isSome = onSurface backend.pointer.focus.isSome m.sent ∧
      frames m.sent =
        if backend.pointer.focus.isSome then m.wheel.toList.map axisFrame else [] := by
  rcases respond_cases hstep.2 with ⟨hnone, hsent, hseat⟩ | ⟨input, middle, hinput, hhandled⟩
  · have hwheel : m.wheel = none := by
      rw [← @wheel_inputOf backend, hnone]
      rfl
    rw [hseat.pointer, hsent, hwheel]
    exact ⟨rfl, by simp [frames]⟩
  · have hwheel : m.wheel = wheel input := by
      rw [← @wheel_inputOf backend, hinput]
      rfl
    have hboth := wheel_handleInput hhandled
    rw [(sameSeat_of_inputOf hinput).pointer] at hboth
    rw [hwheel]
    exact hboth

/-! A run. -/

private theorem followed_fst (hrun : (system startTime).Run h backend) :
    (followed axis h).1 = backend.pointer.focus.isSome := by
  refine hrun.invariant (I := fun h backend => (followed axis h).1 = backend.pointer.focus.isSome)
    rfl ?_
  intro h backend m backend' _ ih hstep
  rw [followed_snoc, (wheel_step hstep).1, ← ih]
  rfl

private theorem exists_events (hrun : (system startTime).Run h backend) :
    ∃ events : List WinitMouseWheelEvent, framesSent h = events.map axisFrame ∧
      ∀ axis, turns axis h = events.filterMap (lines axis) := by
  refine hrun.invariant (I := fun h _ => ∃ events : List WinitMouseWheelEvent,
    framesSent h = events.map axisFrame ∧
      ∀ axis, turns axis h = events.filterMap (lines axis)) ⟨[], rfl, fun _ => rfl⟩ ?_
  rintro h backend m backend' hbefore ⟨events, hframes, hturns⟩ hstep
  refine ⟨events ++ if backend.pointer.focus.isSome then m.wheel.toList else [], ?_, fun axis => ?_⟩
  · rw [framesSent_snoc, (wheel_step hstep).2, hframes, List.map_append]
    split <;> rfl
  · have hsnoc : turns axis (h ++ [m]) = turns axis h ++
        if backend.pointer.focus.isSome then (m.turn axis).toList else [] := by
      rw [turns, followed_snoc, ← @followed_fst _ _ _ axis hbefore]
      rfl
    rw [hsnoc, hturns, List.filterMap_append]
    cases backend.pointer.focus.isSome with
    | false => rfl
    | true =>
      cases hwheel : m.wheel with
      | none => simp [Moment.turn, hwheel]
      | some event => cases hlines : lines axis event <;> simp [Moment.turn, hwheel, hlines]

/-- What the frames sent add up to, in any measure in which the frame of a wheel event is worth
what the event has turned on the axis. -/
private theorem sum_framesSent {β : Type} [AddCommMonoid β] {measure : AxisFrame → β}
    {worth : ℚ → β}
    (hworth : ∀ event, measure (axisFrame event) = (lines axis event).elim 0 worth)
    (hrun : (system startTime).Run h backend) :
    ((framesSent h).map measure).sum = ((turns axis h).map worth).sum := by
  obtain ⟨events, hframes, hturns⟩ := exists_events hrun
  rw [hframes, hturns]
  clear hframes hturns
  induction events with
  | nil => rfl
  | cons event events ih =>
    rw [List.map_cons, List.map_cons, List.sum_cons, ih, hworth]
    cases hlines : lines axis event with
    | none => rw [Option.elim_none, zero_add, List.filterMap_cons_none hlines]
    | some turned =>
      rw [Option.elim_some, List.filterMap_cons_some hlines, List.map_cons, List.sum_cons]

/-! The frame of a wheel event. -/

private theorem amountV120_eq (axis : Axis) (event : WinitMouseWheelEvent) :
    event.amountV120 axis = (lines axis event).map fun lines => -lines * 120 := by
  obtain ⟨time, delta⟩ := event
  cases delta <;> cases axis <;> rfl

private theorem source_of_lines (axis : Axis) (event : WinitMouseWheelEvent) :
    event.source = if (lines axis event).isSome then .wheel else .continuous := by
  obtain ⟨time, delta⟩ := event
  cases delta <;> cases axis <;> rfl

private theorem amount_of_lines {event : WinitMouseWheelEvent} {turned : ℚ}
    (hlines : lines axis event = some turned) : event.amount axis = none := by
  obtain ⟨time, delta⟩ := event
  cases delta with
  | lineDelta => cases axis <;> rfl
  | pixelDelta => cases axis <;> cases hlines

private theorem source_axisFrame (event : WinitMouseWheelEvent) :
    (axisFrame event).source = some event.source := by
  refine @read_axisFrame_of_kept _ AxisFrame.source ?_ ?_ ?_ ?_ event
  all_goals
    intro axis
    intros
    cases axis <;> rfl

/-- What is read off one axis of a frame comes from the part of the event for that axis. -/
private theorem read_axisFrame {β : Type} [Zero β] {read : Axis → AxisFrame → β}
    {worth : Axis → WinitMouseWheelEvent → β}
    (hnew : ∀ axis time source, read axis ((AxisFrame.new time).withSource source) = 0)
    (hstop : ∀ axis other frame, read axis (frame.withStop other) = read axis frame)
    (hother : ∀ axis event other frame, other ≠ axis →
      read axis (withAmount event other frame) = read axis frame)
    (hown : ∀ axis event frame, read axis frame = 0 →
      read axis (withAmount event axis frame) = worth axis event)
    (axis : Axis) (event : WinitMouseWheelEvent) :
    read axis (axisFrame event) = worth axis event := by
  have hstopOf : ∀ other frame, read axis (withStopOf event other frame) = read axis frame := by
    intro other frame
    rw [withStopOf]
    split
    · exact hstop axis other frame
    · rfl
  rw [axisFrame, hstopOf, hstopOf]
  cases axis with
  | horizontal =>
    rw [hother _ event _ _ (by decide)]
    exact hown _ event _ (hnew _ _ _)
  | vertical =>
    apply hown
    rw [hother _ event _ _ (by decide)]
    exact hnew _ _ _

private theorem steps_withV120 (axis : Axis) (value : Int) (frame : AxisFrame) :
    steps axis (frame.withV120 axis value) = value := by
  cases axis <;> rfl

private theorem steps_withValue (other : Axis) (direction : AxisRelativeDirection) (amount : ℚ)
    (frame : AxisFrame) :
    steps axis ((frame.withRelativeDirection other direction).withValue other amount) =
      steps axis frame := by
  cases other <;> cases axis <;> rfl

private theorem steps_withAmount_ne (event : WinitMouseWheelEvent) {other : Axis}
    (hne : other ≠ axis)
    (frame : AxisFrame) : steps axis (withAmount event other frame) = steps axis frame := by
  have hapart : ∀ value frame, steps axis (AxisFrame.withV120 frame other value) =
      steps axis frame := by
    intro value frame
    cases other <;> cases axis <;> first
    | rfl
    | exact absurd rfl hne
  simp only [withAmount]
  split
  · split
    · rw [hapart, steps_withValue]
    · exact steps_withValue _ _ _ _
  · rfl

private theorem steps_withAmount (axis : Axis) (event : WinitMouseWheelEvent) {frame : AxisFrame}
    (hframe : steps axis frame = 0) :
    steps axis (withAmount event axis frame) =
      (lines axis event).elim 0 fun lines => asI32 (-lines * 120) := by
  simp only [withAmount, amountV120_eq]
  cases hlines : lines axis event with
  | none =>
    simp only [Option.map_none, Option.elim_none]
    split
    · rw [steps_withValue, hframe]
    · exact hframe
  | some turned =>
    simp only [amount_of_lines hlines, Option.map_some, Option.getD_none, Option.getD_some,
      Option.elim_some]
    split
    · exact steps_withV120 _ _ _
    · next hstill =>
      have hzero : -turned * 120 = 0 := by
        simpa [div_eq_zero_iff] using hstill
      rw [hframe, hzero]
      rfl

private theorem steps_axisFrame (axis : Axis) (event : WinitMouseWheelEvent) :
    steps axis (axisFrame event) = (lines axis event).elim 0 fun lines => asI32 (-lines * 120) := by
  refine @read_axisFrame _ _ steps (fun axis event =>
    (lines axis event).elim 0 fun lines => asI32 (-lines * 120)) ?_ ?_ ?_ ?_ axis event
  · exact fun axis time source => by cases axis <;> rfl
  · exact fun axis other frame => by cases other <;> rfl
  · exact fun axis event other frame hne => steps_withAmount_ne event hne frame
  · exact fun axis event frame hframe => steps_withAmount axis event hframe

private theorem amountOf_withAmount_ne (event : WinitMouseWheelEvent) {other : Axis}
    (hne : other ≠ axis)
    (frame : AxisFrame) : amountOf axis (withAmount event other frame) = amountOf axis frame := by
  simp only [withAmount]
  split
  · split <;> cases other <;> cases axis <;> first
    | rfl
    | exact absurd rfl hne
  · rfl

private theorem amountOf_withAmount (axis : Axis) (event : WinitMouseWheelEvent) {frame : AxisFrame}
    (hframe : amountOf axis frame = 0) :
    amountOf axis (withAmount event axis frame) =
      (event.amount axis).getD ((event.amountV120 axis).getD 0 / 120) := by
  have hvalue : ∀ amount, amountOf axis ((frame.withRelativeDirection axis
      (event.relativeDirection axis)).withValue axis amount) = amount := by
    intro amount
    have hadded : amountOf axis ((frame.withRelativeDirection axis
        (event.relativeDirection axis)).withValue axis amount) = amountOf axis frame + amount := by
      cases axis <;> rfl
    rw [hadded, hframe, zero_add]
  have hapart : ∀ value frame, amountOf axis (AxisFrame.withV120 frame axis value) =
      amountOf axis frame := by
    intro value frame
    cases axis <;> rfl
  simp only [withAmount]
  split
  · split
    · rw [hapart, hvalue]
    · exact hvalue _
  · next hstill =>
    rw [hframe]
    exact (not_not.mp hstill).symm

private theorem amountOf_axisFrame (axis : Axis) (event : WinitMouseWheelEvent) :
    amountOf axis (axisFrame event) =
      (event.amount axis).getD ((event.amountV120 axis).getD 0 / 120) := by
  refine @read_axisFrame _ _ amountOf (fun axis event =>
    (event.amount axis).getD ((event.amountV120 axis).getD 0 / 120)) ?_ ?_ ?_ ?_ axis event
  · exact fun axis time source => by cases axis <;> rfl
  · exact fun axis other frame => by cases other <;> rfl
  · exact fun axis event other frame hne => amountOf_withAmount_ne event hne frame
  · exact fun axis event frame hframe => amountOf_withAmount axis event hframe

private theorem wheelAmount_axisFrame (axis : Axis) (event : WinitMouseWheelEvent) :
    (if (axisFrame event).source = some .wheel then amountOf axis (axisFrame event) else 0) =
      (lines axis event).elim 0 fun lines => -lines := by
  rw [source_axisFrame, amountOf_axisFrame, amountV120_eq, source_of_lines axis]
  cases hlines : lines axis event with
  | none => rfl
  | some turned =>
    rw [amount_of_lines hlines]
    exact mul_div_cancel_right₀ _ (by norm_num)

/-! What is lost. -/

/-- The v120 values that the turns would have as fractions. -/
def wanted (axis : Axis) (h : List Moment) : List ℚ :=
  (turns axis h).map fun lines => -lines * 120

/-- How far the v120 values sent are from what the wheel has turned. -/
def lost (axis : Axis) (h : List Moment) : ℚ :=
  |(stepsSent axis h : ℚ) - -120 * (turns axis h).sum|

/-- The turns that are not a whole number of 120ths. -/
def fractions (axis : Axis) (h : List Moment) : Nat := (wanted axis h).countP fractional

/-- What the turns have outside of the range of an `i32`. -/
def excess (axis : Axis) (h : List Moment) : ℚ :=
  ((wanted axis h).map (beyond (-2 ^ 31) (2 ^ 31 - 1))).sum

private theorem sum_wanted (axis : Axis) (h : List Moment) :
    (wanted axis h).sum = -120 * (turns axis h).sum := by
  have hscaled : ∀ lines ∈ turns axis h, -lines * 120 = -120 * lines := fun lines _ => by ring
  rw [wanted, List.map_congr_left hscaled, List.sum_map_mul_left, List.map_id']

private theorem stepsSent_eq (axis : Axis) (hrun : (system startTime).Run h backend) :
    stepsSent axis h = ((wanted axis h).map (cut (-2 ^ 31) (2 ^ 31 - 1))).sum := by
  rw [stepsSent, sum_framesSent (steps_axisFrame axis) hrun, wanted, List.map_map]
  rfl

private theorem steps_wheelFrames (axis : Axis) (hrun : (system startTime).Run h backend) :
    (wheelFrames h).map (steps axis) = (wanted axis h).map (cut (-2 ^ 31) (2 ^ 31 - 1)) := by
  obtain ⟨events, hframes, hturns⟩ := exists_events hrun
  rw [wheelFrames, wanted, hframes, hturns]
  clear hframes hturns
  induction events with
  | nil => rfl
  | cons event events ih =>
    have hsource := source_axisFrame event
    have hsteps := steps_axisFrame axis event
    rw [source_of_lines axis] at hsource
    cases hlines : lines axis event with
    | none =>
      rw [List.filterMap_cons_none hlines, List.map_cons, List.filter_cons_of_neg, ih]
      simp [hsource, hlines]
    | some turned =>
      rw [hlines] at hsteps
      rw [List.filterMap_cons_some hlines, List.map_cons, List.filter_cons_of_pos,
        List.map_cons, ih, hsteps]
      · rfl
      · simp [hsource, hlines]

private theorem amountSent_eq (axis : Axis) (hrun : (system startTime).Run h backend) :
    amountSent axis h = -(turns axis h).sum := by
  rw [amountSent, sum_framesSent (wheelAmount_axisFrame axis) hrun, List.sum_neg]

/-- In every run the values sent for the wheel are all that it has turned. The v120 values are cut
for each turn alone: off by less than one for every turn that is not a whole number of 120ths, and
by what the turns have outside of the range of an `i32`. -/
theorem wheel_told_up_to_fractions (hrun : (system startTime).Run h backend) (axis : Axis) :
    amountSent axis h = -(turns axis h).sum ∧
      (wheelFrames h).map (steps axis) = (wanted axis h).map (cut (-2 ^ 31) (2 ^ 31 - 1)) ∧
      lost axis h ≤ excess axis h + fractions axis h ∧
      (0 < fractions axis h → lost axis h < excess axis h + fractions axis h) := by
  refine ⟨amountSent_eq axis hrun, steps_wheelFrames axis hrun, ?_⟩
  rw [lost, stepsSent_eq axis hrun, ← sum_wanted]
  exact ⟨abs_sum_cut_sub_le (by decide) _, abs_sum_cut_sub_lt (by decide)⟩

def pointed : List Moment :=
  opened 1 ++ [⟨shown 1, .windowEvent (.cursorMoved center),
    [.pointerEnter 0 (scaledCenter 1 - 0), .pointerFrame 0]⟩]

def nudge (turned : ℚ) : Moment :=
  ⟨shown 1, .windowEvent (.mouseWheel (.lineDelta 0 turned)),
    [.pointerAxis 0 (axisFrame ⟨asMillis 2, .lineDelta 0 turned⟩), .pointerFrame 0]⟩

def nudged (count : Nat) (turned : ℚ) : List Moment :=
  pointed ++ List.replicate count (nudge turned)

private theorem run_nudged (count : Nat) (turned : ℚ) : (system 0).Run (nudged count turned)
    { phone 1 with pointer := ⟨some (0, 0), scaledCenter 1, none, []⟩ } := by
  induction count with
  | zero =>
    rw [nudged, List.replicate_zero, List.append_nil]
    exact (run_opened 1).snoc ⟨Nat.zero_le _, cursorMoved_center one_pos⟩
  | succ count ih =>
    rw [nudged, List.replicate_succ', ← List.append_assoc]
    exact ih.snoc ⟨Nat.zero_le _, rfl⟩

private theorem followed_nudged (count : Nat) (turned : ℚ) :
    followed .vertical (nudged count turned) = (true, List.replicate count turned) := by
  induction count with
  | zero => rfl
  | succ count ih =>
    rw [nudged, List.replicate_succ', ← List.append_assoc, followed_snoc, ← nudged, ih,
      List.replicate_succ']
    rfl

private theorem wanted_nudged (count : Nat) (turned : ℚ) :
    wanted .vertical (nudged count turned) = List.replicate count (-turned * 120) := by
  rw [wanted, turns, followed_nudged, List.map_replicate]

private theorem lost_nudged (count : Nat) (turned : ℚ) :
    lost .vertical (nudged count turned) =
      count * |(asI32 (-turned * 120) : ℚ) - -turned * 120| := by
  have hcut : (stepsSent .vertical (nudged count turned) : ℚ) = count * asI32 (-turned * 120) := by
    rw [stepsSent_eq .vertical (run_nudged count turned), wanted_nudged, List.map_replicate,
      List.sum_replicate, nsmul_eq_mul]
    push_cast
    rfl
  rw [lost, hcut, ← sum_wanted, wanted_nudged, List.sum_replicate, nsmul_eq_mul, ← mul_sub, abs_mul,
    Nat.abs_cast]

/-- Each of any number of small turns loses all but the smallest part of one. -/
theorem lost_of_small_turns (count : Nat) {rest : ℚ} (hpos : 0 < rest) (hlt : rest < 1) :
    lost .vertical (nudged count (-(1 - rest) / 120)) = count * (1 - rest) ∧
      fractions .vertical (nudged count (-(1 - rest) / 120)) = count ∧
      excess .vertical (nudged count (-(1 - rest) / 120)) = 0 := by
  have hvalue : -(-(1 - rest) / 120) * 120 = 1 - rest := by ring
  have hfloor : ⌊1 - rest⌋ = 0 := Int.floor_eq_zero_iff.mpr ⟨by linarith, by linarith⟩
  have hcut : asI32 (1 - rest) = 0 := by
    rw [asI32, if_pos (by linarith), hfloor]
    rfl
  have hfraction : fractional (1 - rest) = true := by
    rw [fractional, hfloor, decide_eq_true_eq, Int.cast_zero]
    linarith
  refine ⟨?_, ?_, ?_⟩
  · rw [lost_nudged, hvalue, hcut, Int.cast_zero, zero_sub, abs_neg, abs_of_pos (by linarith)]
  · rw [fractions, wanted_nudged, hvalue, List.countP_replicate, if_pos hfraction]
  · rw [excess, wanted_nudged, hvalue, List.map_replicate,
      beyond_of_mem (by norm_num; linarith) (by norm_num; linarith), List.sum_replicate, nsmul_zero]

theorem wheel_told_up_to_two_nudges : amountSent .vertical (nudged 2 (1 / 128)) = -(1 / 64) ∧
    lost .vertical (nudged 2 (1 / 128)) < 2 := by
  obtain ⟨hsent, -, -, hbound⟩ := wheel_told_up_to_fractions (run_nudged 2 (1 / 128)) .vertical
  have hfractions : fractions .vertical (nudged 2 (1 / 128)) = 2 := by
    rw [fractions, wanted_nudged]
    decide +kernel
  have hexcess : excess .vertical (nudged 2 (1 / 128)) = 0 := by
    rw [excess, wanted_nudged]
    decide +kernel
  rw [hfractions, hexcess] at hbound
  constructor
  · rw [hsent, turns, followed_nudged]
    norm_num
  · exact (hbound two_pos).trans_eq (by norm_num)

/-- Two turns by a 128th of a line: nothing is left of them in the v120 values. -/
theorem wheel_loses_two_nudges : ∃ backend, (system 0).Run (nudged 2 (1 / 128)) backend ∧
    turns .vertical (nudged 2 (1 / 128)) = [1 / 128, 1 / 128] ∧
    stepsSent .vertical (nudged 2 (1 / 128)) = 0 ∧ ¬lost .vertical (nudged 2 (1 / 128)) < 1 := by
  have hcut : asI32 (-(1 / 128) * 120) = 0 := by decide +kernel
  refine ⟨_, run_nudged 2 (1 / 128), ?_, ?_, ?_⟩
  · rw [turns, followed_nudged]
    rfl
  · rw [stepsSent_eq .vertical (run_nudged 2 (1 / 128)), wanted_nudged]
    decide +kernel
  · rw [lost_nudged, hcut]
    norm_num

end LocalDesktop.Android.App
