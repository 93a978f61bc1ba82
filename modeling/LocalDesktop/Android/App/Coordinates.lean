/- GID: LocalDesktop/Android/App/Coordinates
   generality: G
   digest: Where on its surface a client is told that the pointer and the fingers are. -/

import LocalDesktop.Android.App.TouchPoints
import Mathlib.Tactic.FieldSimp
import Mathlib.Tactic.Linarith
import Mathlib.Tactic.Positivity

set_option autoImplicit false
set_option relaxedAutoImplicit false

namespace LocalDesktop.Android.App

open Foundation.Transition Smithay Backend.Wayland

def handed (sent : List Sent) : List Point := sent.filterMap Sent.location

/-- The surface in focus has its origin in the origin of the space. -/
def AtOrigin (focus : Focus) : Prop := ∀ surface origin, focus = some (surface, origin) → origin = 0

structure PointerAtOrigin (p : PointerHandle) : Prop where
  focus : AtOrigin p.focus
  grab : ∀ grab, p.grab = some grab → AtOrigin grab.startFocus

structure TouchAtOrigin (t : TouchHandle) : Prop where
  focus : ∀ slot state, t.focus slot = some state → AtOrigin state.focus
  grab : ∀ grab, t.grab = some grab → AtOrigin grab.startFocus

variable {alive : Surface → Bool} {p : PointerHandle} {t : TouchHandle} {focus : Focus}
  {location pos : Point} {time : Nat} {scene : Scene} {backend backend' : WaylandBackend}
  {startTime : Nat} {h : List Moment} {sent : List Sent} {surface : Surface}

private theorem atOrigin_none : AtOrigin none := fun _ _ hfocus => by cases hfocus

private theorem atOrigin_surface : AtOrigin (some (surface, 0)) := by
  intro _ _ hfocus
  cases hfocus
  rfl

/-! The pointer. -/

private theorem PointerAtOrigin.live (hp : PointerAtOrigin p) (grab : ClickGrab)
    (hgrab : p.liveGrab alive = some grab) : AtOrigin grab.startFocus :=
  hp.grab grab (Option.filter_eq_some_iff.mp hgrab).1

private theorem PointerAtOrigin.kept (hp : PointerAtOrigin p) (hfocus : AtOrigin focus) :
    AtOrigin ((p.liveGrab alive).elim focus ClickGrab.startFocus) := by
  cases hgrab : p.liveGrab alive with
  | none => exact hfocus
  | some grab => exact hp.live grab hgrab

private theorem PointerAtOrigin.motion (hp : PointerAtOrigin p) (hfocus : AtOrigin focus) :
    PointerAtOrigin (p.motion alive focus location time).1 :=
  ⟨hp.kept hfocus, hp.live⟩

private theorem PointerAtOrigin.frame (hp : PointerAtOrigin p) : PointerAtOrigin
    (p.frame alive).1 :=
  ⟨hp.focus, hp.live⟩

private theorem PointerAtOrigin.axis (hp : PointerAtOrigin p) (details : AxisFrame) :
    PointerAtOrigin (p.axis alive details).1 :=
  ⟨hp.focus, hp.live⟩

private theorem PointerAtOrigin.button (hp : PointerAtOrigin p) (button : Nat) (state : ButtonState)
    (time : Nat) : PointerAtOrigin (p.button alive button state time).1 := by
  refine ⟨hp.focus, fun grab hgrab => ?_⟩
  simp only [PointerHandle.button] at hgrab
  cases hlive : p.liveGrab alive with
  | some live =>
    simp only [hlive] at hgrab
    split at hgrab
    · cases hgrab
    · cases hgrab
      exact hp.live _ hlive
  | none =>
    simp only [hlive] at hgrab
    split at hgrab
    · cases hgrab
      exact hp.focus
    · cases hgrab

private theorem handed_motion (hp : PointerAtOrigin p) (hfocus : AtOrigin focus) {place : Point}
    (hplace : place ∈ handed (p.motion alive focus location time).2) : place = location := by
  have hkept : AtOrigin ((p.liveGrab alive).elim focus ClickGrab.startFocus) := hp.kept hfocus
  simp only [PointerHandle.motion, PointerHandle.innerMotion] at hplace
  cases hnew : (p.liveGrab alive).elim focus ClickGrab.startFocus with
  | none =>
    rw [hnew] at hplace
    cases hold : p.focus <;> simp [hold, handed, Sent.location] at hplace
  | some new =>
    obtain ⟨surface, origin⟩ := new
    obtain rfl : origin = 0 := hkept surface origin hnew
    rw [hnew] at hplace
    cases hold : p.focus with
    | none => simpa [hold, handed, Sent.location] using hplace
    | some old =>
      simp only [hold] at hplace
      split at hplace
      · simpa [handed, Sent.location, eq_comm] using hplace
      · simpa [handed, Sent.location, eq_comm] using hplace

private theorem handed_frame (p : PointerHandle) : handed (p.frame alive).2 = [] := by
  cases hfocus : p.focus <;>
    simp [PointerHandle.frame, PointerHandle.toFocus, hfocus, handed, Sent.location]

/-! The fingers. -/

theorem TouchAtOrigin.live (ht : TouchAtOrigin t) (grab : TouchDownGrab)
    (hgrab : t.liveGrab alive = some grab) : AtOrigin grab.startFocus :=
  ht.grab grab (Option.filter_eq_some_iff.mp hgrab).1

private theorem TouchAtOrigin.update (ht : TouchAtOrigin t) (hfocus : AtOrigin focus)
    (changed : TouchSlot)
    (slot : TouchSlot) (state : TouchSlotState)
    (hstate : Function.update t.focus changed (some ⟨focus⟩) slot = some state) :
    AtOrigin state.focus := by
  by_cases hslot : slot = changed
  · subst hslot
    obtain rfl : ⟨focus⟩ = state := by simpa using hstate
    exact hfocus
  · rw [Function.update_of_ne hslot] at hstate
    exact ht.focus slot state hstate

private theorem TouchAtOrigin.down (ht : TouchAtOrigin t) (hfocus : AtOrigin focus)
    (event : DownEvent) :
    TouchAtOrigin (t.down alive focus event).1 := by
  simp only [TouchHandle.down]
  cases hlive : t.liveGrab alive with
  | some grab =>
    refine ⟨ht.update (ht.live grab hlive) event.slot, fun grab' hgrab => ?_⟩
    cases hgrab
    exact ht.live grab hlive
  | none =>
    refine ⟨ht.update hfocus event.slot, fun grab' hgrab => ?_⟩
    cases hgrab
    exact hfocus

private theorem TouchAtOrigin.innerUp (ht : TouchAtOrigin t) (event : UpEvent) (slot : TouchSlot)
    (state : TouchSlotState) (hstate : (t.innerUp event).1.focus slot = some state) :
    AtOrigin state.focus := by
  simp only [TouchHandle.innerUp] at hstate
  split at hstate
  · exact ht.update atOrigin_none event.slot slot state hstate
  · exact ht.focus slot state hstate

private theorem TouchAtOrigin.up (ht : TouchAtOrigin t) (event : UpEvent) :
    TouchAtOrigin (t.up alive event).1 := by
  simp only [TouchHandle.up]
  cases hlive : t.liveGrab alive with
  | some grab =>
    refine ⟨ht.innerUp event, fun grab' hgrab => ?_⟩
    simp only at hgrab
    split at hgrab
    · cases hgrab
    · cases hgrab
      exact ht.live grab hlive
  | none =>
    refine ⟨ht.innerUp event, fun grab' hgrab => ?_⟩
    cases hgrab

private theorem TouchAtOrigin.motion (ht : TouchAtOrigin t) (focus : Focus) (event : MotionEvent) :
    TouchAtOrigin (t.motion alive focus event).1 := by
  simp only [TouchHandle.motion, TouchHandle.innerMotion_fst]
  exact ⟨ht.focus, ht.live⟩

private theorem handed_down (ht : TouchAtOrigin t) (hfocus : AtOrigin focus) {event : DownEvent}
    {place : Point} (hplace : place ∈ handed (t.down alive focus event).2) :
    place = event.location := by
  have hstart : AtOrigin (t.downFocus alive focus) := by
    cases hlive : t.liveGrab alive with
    | some grab => simpa [TouchHandle.downFocus, hlive] using ht.live grab hlive
    | none => simpa [TouchHandle.downFocus, hlive] using hfocus
  rw [TouchHandle.down_sent] at hplace
  cases hfocus : t.downFocus alive focus with
  | none => simp [hfocus, TouchHandle.innerDown, handed] at hplace
  | some start =>
    obtain ⟨surface, origin⟩ := start
    obtain rfl : origin = 0 := hstart surface origin hfocus
    simpa [hfocus, TouchHandle.innerDown, handed, Sent.location] using hplace

private theorem handed_touchMotion (ht : TouchAtOrigin t) {event : MotionEvent} {place : Point}
    (hplace : place ∈ handed (t.motion alive focus event).2) : place = event.location := by
  simp only [TouchHandle.motion, TouchHandle.innerMotion] at hplace
  split at hplace
  · next surface origin hstate =>
    obtain rfl : origin = 0 := ht.focus _ _ hstate surface origin rfl
    simpa [handed, Sent.location] using hplace
  · simp [handed] at hplace

private theorem handed_up (t : TouchHandle) (event : UpEvent) : handed (t.up alive event).2 =
    [] := by
  rw [TouchHandle.up_sent, TouchHandle.innerUp]
  split <;> simp [handed, Sent.location]

private theorem handed_setFocus (k : KeyboardHandle) (focus : Option Surface) :
    handed (k.setFocus focus).2 = [] := by
  simp only [KeyboardHandle.setFocus]
  split
  · split <;> simp [handed, Sent.location]
  all_goals simp [handed, Sent.location]

/-! A run. -/

structure BackendAtOrigin (backend : WaylandBackend) : Prop where
  pointer : PointerAtOrigin backend.pointer
  touch : TouchAtOrigin backend.touch

private theorem PointerAtOrigin.input (hp : PointerAtOrigin backend.pointer) {event : InputEvent}
    (hinput : handleInput scene event backend = some (backend', sent)) :
    PointerAtOrigin backend'.pointer := by
  cases event with
  | keyboard | touchCancel =>
    cases hinput
    exact hp
  | touchDown | touchUp | touchMotion =>
    simp only [handleInput] at hinput
    split at hinput
    · cases hinput
      exact hp
    · cases hinput
      exact hp
  | pointerMotionAbsolute =>
    simp only [handleInput, Option.bind_eq_bind, Option.bind_eq_some_iff] at hinput
    obtain ⟨location, -, hinput⟩ := hinput
    cases hsurface : getSurface scene with
    | some surface =>
      rw [hsurface] at hinput
      cases hinput
      exact (hp.motion atOrigin_surface).frame
    | none =>
      rw [hsurface] at hinput
      cases hinput
      exact hp.frame
  | pointerButton event =>
    cases hinput
    exact (hp.button event.buttonCode event.state.buttonState (timeMsec event.time)).frame
  | pointerAxis event =>
    cases hinput
    exact (hp.axis (axisFrame event)).frame

private theorem pointerAtOrigin (hrun : (system startTime).Run h backend) :
    PointerAtOrigin backend.pointer := by
  refine hrun.invariant (I := fun _ backend => PointerAtOrigin backend.pointer) ?_ ?_
  · exact ⟨atOrigin_none, fun _ hgrab => by cases hgrab⟩
  · intro h backend m backend' _ ih hstep
    rcases respond_cases hstep.2 with ⟨-, -, hseat⟩ | ⟨input, middle, hinput, hhandled⟩
    · rw [hseat.pointer]
      exact ih
    · refine PointerAtOrigin.input ?_ hhandled
      rw [(sameSeat_of_inputOf hinput).pointer]
      exact ih

theorem touchAtOrigin (hrun : (system startTime).Run h backend) : TouchAtOrigin backend.touch := by
  refine touch_invariant (P := TouchAtOrigin) ?_ ?_ ?_ ?_ hrun
  · exact ⟨fun _ _ hstate => (by cases hstate), fun _ hgrab => (by cases hgrab)⟩
  · exact fun t alive surface event ht => ht.down atOrigin_surface event
  · exact fun t alive event ht => ht.up event
  · exact fun t alive focus event ht => ht.motion focus event

private theorem backendAtOrigin (hrun : (system startTime).Run h backend) :
    BackendAtOrigin backend :=
  ⟨pointerAtOrigin hrun, touchAtOrigin hrun⟩

/-! The two routes of a location. -/

private theorem handed_cursorMoved (hb : BackendAtOrigin backend)
    (hevent : windowEvent scene (.cursorMoved pos) backend = some (backend', sent)) {place : Point}
    (hplace : place ∈ handed sent) :
    pointerLocation backend.space
      ⟨asMillis scene.now, .ofLocation pos scene.innerSize, pos⟩ = some place := by
  simp only [windowEvent, Option.bind_eq_bind, Option.bind_eq_some_iff] at hevent
  obtain ⟨⟨centralized, middle⟩, hcentral, hhandle⟩ := hevent
  simp only [centralize, Option.bind_eq_bind, Option.bind_eq_some_iff] at hcentral
  obtain ⟨size, hsize, hcentral⟩ := hcentral
  obtain ⟨-, rfl⟩ : backend.graphicRenderer = true ∧ scene.innerSize = size := by
    simpa [WaylandBackend.innerSize] using hsize
  cases hcentral
  simp only [handle, handleInput, Option.bind_eq_bind, Option.bind_eq_some_iff] at hhandle
  obtain ⟨location, hlocation, hhandle⟩ := hhandle
  cases hsurface : getSurface scene with
  | some surface =>
    rw [hsurface] at hhandle
    cases hhandle
    rw [handed, List.filterMap_append] at hplace
    rcases List.mem_append.mp hplace with hplace | hplace
    · rw [hlocation, handed_motion hb.pointer atOrigin_surface hplace]
    · rw [← handed, handed_frame] at hplace
      cases hplace
  | none =>
    rw [hsurface] at hhandle
    cases hhandle
    have hframe : place ∈ handed (backend.pointer.frame scene.alive).2 := hplace
    rw [handed_frame] at hframe
    cases hframe

private theorem handed_touch (hb : BackendAtOrigin backend) {phase : TouchPhase} {id : Nat}
    (hevent : windowEvent scene (.touch phase pos id) backend = some (backend', sent))
    {place : Point} (hplace : place ∈ handed sent) : place = pos := by
  simp only [windowEvent, Option.bind_eq_bind, Option.bind_eq_some_iff] at hevent
  obtain ⟨⟨centralized, middle⟩, hcentral, hhandle⟩ := hevent
  cases phase with
  | cancelled =>
    cases hcentral
    cases hhandle
    cases hplace
  | _ =>
    simp only [centralize, Option.bind_eq_bind, Option.bind_eq_some_iff] at hcentral
    obtain ⟨size, -, hcentral⟩ := hcentral
    cases hcentral
    simp only [handle, handleInput] at hhandle
    split at hhandle
    case h_2 =>
      cases hhandle
      cases hplace
    case h_1 =>
      cases hhandle
      first
      | exact handed_touchMotion hb.touch hplace
      | exact absurd hplace (by rw [handed_up]; exact List.not_mem_nil)
      | rw [handed, List.filterMap_append] at hplace
        rcases List.mem_append.mp hplace with hplace | hplace
        · have hnone : place ∈ [] := handed_setFocus _ _ ▸ hplace
          cases hnone
        · exact handed_down hb.touch atOrigin_surface hplace

private theorem clamp_of_le {x upper : ℚ} (hx : 0 ≤ x) (hle : x ≤ upper) : clamp x 0 upper = x := by
  rw [clamp, min_eq_left hle, max_eq_right hx]

private theorem pointerLocation_single {size : Size} {scale x y : ℚ} {space : Space}
    (hspace : space.outputs = [outputOf 0 (size, scale)]) (hscale : 0 < scale)
    (hx : 0 ≤ x) (hxw : x < size.w) (hy : 0 ≤ y) (hyh : y < size.h) :
    pointerLocation space ⟨time, .ofLocation ⟨x, y⟩ size, ⟨x, y⟩⟩ =
      some ⟨x / size.w * ⌈size.w / scale⌉, y / size.h * ⌈size.h / scale⌉⟩ := by
  have hinside : ∀ {z side : ℚ}, 0 ≤ z → z < side →
      0 ≤ z / side * ⌈side / scale⌉ ∧ z / side * ⌈side / scale⌉ ≤ ⌈side / scale⌉ := by
    intro z side hz hlt
    have hside : 0 < side := hz.trans_lt hlt
    have hceil : (0 : ℚ) ≤ ⌈side / scale⌉ := by
      have hnonneg : 0 ≤ ⌈side / scale⌉ := Int.ceil_nonneg (by positivity)
      exact_mod_cast hnonneg
    have hratio : z / side ≤ 1 := (div_le_one hside).mpr hlt.le
    exact ⟨by positivity, mul_le_of_le_one_left hceil hratio⟩
  obtain ⟨hx0, hxw'⟩ := hinside hx hxw
  obtain ⟨hy0, hyh'⟩ := hinside hy hyh
  have hgeometries : space.geometries =
      some [⟨(0, 0), ⟨⌈size.w / scale⌉, ⌈size.h / scale⌉⟩⟩] := Space.geometries_single hspace rfl
  have hmax : maxX [⟨(0, 0), ⟨⌈size.w / scale⌉, ⌈size.h / scale⌉⟩⟩] = ⌈size.w / scale⌉ :=
    zero_add _
  have hsome : space.outputs ≠ [] := by simp [hspace]
  simp only [pointerLocation, hgeometries, Option.bind_eq_bind, Option.bind_some, hmax,
    List.map_cons, List.map_nil, List.max?_singleton, clampCoords, if_neg hsome,
    WinitMouseMovedEvent.xTransformed, WinitMouseMovedEvent.yTransformed,
    RelativePosition.ofLocation, max_eq_left hx0, max_eq_left hy0, clamp_of_le hx0 hxw']
  split
  · next geo hfind =>
    have hgeo := List.mem_of_find?_eq_some hfind
    obtain rfl := List.mem_singleton.mp hgeo
    rw [clamp_of_le hy0 hyh']
  · rfl

private theorem scaled_eq_iff {z : ℚ} {side logical : Int} (hside : 0 < side) :
    z / side * logical = z ↔ z = 0 ∨ logical = side := by
  have hne : (side : ℚ) ≠ 0 := by exact_mod_cast hside.ne'
  have hscaled : z / side * logical = z ↔ z * logical = z * side := by
    rw [div_mul_eq_mul_div, div_eq_iff hne]
  rw [hscaled, mul_eq_mul_left_iff, or_comm, Int.cast_inj]

/-- In a window that has kept the size of the one resume, pointer and finger are told to be at the
same place, if and only if the logical size of the output is the physical one in every direction
in which the place is not at the edge. -/
theorem pointer_agrees_with_touch_iff {size : Size} {scale x y : ℚ} {phase : TouchPhase} {id : Nat}
    {backend₁ backend₂ : WaylandBackend} {sent₁ sent₂ : List Sent} {place₁ place₂ : Point}
    (hrun : (system startTime).Run h backend) (hresumed : resumes h = [(size, scale)])
    (hwindow : scene.innerSize = size) (hscale : 0 < scale)
    (hx : 0 ≤ x) (hxw : x < size.w) (hy : 0 ≤ y) (hyh : y < size.h)
    (hpointer : windowEvent scene (.cursorMoved ⟨x, y⟩) backend = some (backend₁, sent₁))
    (htouch : windowEvent scene (.touch phase ⟨x, y⟩ id) backend = some (backend₂, sent₂))
    (hplace₁ : place₁ ∈ handed sent₁) (hplace₂ : place₂ ∈ handed sent₂) :
    place₁ = place₂ ↔
      (x = 0 ∨ ⌈size.w / scale⌉ = size.w) ∧ (y = 0 ∨ ⌈size.h / scale⌉ = size.h) := by
  have hb := backendAtOrigin hrun
  have hspace : backend.space.outputs = [outputOf 0 (size, scale)] := by
    rw [(outputs_eq hrun).1, hresumed]
    rfl
  have hlocation := handed_cursorMoved hb hpointer hplace₁
  rw [hwindow, pointerLocation_single hspace hscale hx hxw hy hyh] at hlocation
  obtain rfl := Option.some.inj hlocation
  obtain rfl := handed_touch hb htouch hplace₂
  have hw : 0 < size.w := by exact_mod_cast hx.trans_lt hxw
  have hh : 0 < size.h := by exact_mod_cast hy.trans_lt hyh
  rw [Point.mk.injEq, scaled_eq_iff hw, scaled_eq_iff hh]

def opened (scale : ℚ) : List Moment := [⟨sceneAt 1 portrait scale, .resumed, []⟩]

def shown (scale : ℚ) : Scene := { sceneAt 2 portrait scale with toplevelSurfaces := [0] }

def center : Point := ⟨540, 1200⟩

def phone (scale : ℚ) : WaylandBackend := resumed (sceneAt 1 portrait scale) (.build 0)

theorem run_opened (scale : ℚ) : (system 0).Run (opened scale) (phone scale) :=
  @Path.single _ _ (system 0) _ _ ⟨sceneAt 1 portrait scale, .resumed, []⟩ ⟨Nat.zero_le _, rfl⟩

/-- Where the pointer is told to be. -/
def scaledCenter (scale : ℚ) : Point := ⟨540 / 1080 * ⌈1080 / scale⌉, 1200 / 2400 * ⌈2400 / scale⌉⟩

theorem cursorMoved_center {scale : ℚ} (hscale : 0 < scale) :
    windowEvent (shown scale) (.cursorMoved center) (phone scale) =
      some ({ phone scale with pointer := ⟨some (0, 0), scaledCenter scale, none, []⟩ },
        [.pointerEnter 0 (scaledCenter scale - 0), .pointerFrame 0]) := by
  have hlocation : pointerLocation (phone scale).space
      ⟨asMillis 2, .ofLocation center portrait, center⟩ = some (scaledCenter scale) :=
    @pointerLocation_single _ portrait scale 540 1200 _ rfl hscale
      (by norm_num) (by norm_num [portrait]) (by norm_num) (by norm_num [portrait])
  have hpointer : windowEvent (shown scale) (.cursorMoved center) (phone scale) =
      (pointerLocation (phone scale).space ⟨asMillis 2, .ofLocation center portrait, center⟩).bind
        fun location => some
          ({ phone scale with pointer := ⟨some (0, 0), location, none, []⟩ },
            [.pointerEnter 0 (location - 0), .pointerFrame 0]) := rfl
  rw [hpointer, hlocation]
  rfl

private theorem told_of_center {scale : ℚ} (hscale : 0 < scale) :
    ∃ backend₁ sent₁ backend₂ sent₂,
      windowEvent (shown scale) (.cursorMoved center) (phone scale) = some (backend₁, sent₁) ∧
      handed sent₁ = [scaledCenter scale] ∧
      windowEvent (shown scale) (.touch .started center 0) (phone scale) =
        some (backend₂, sent₂) ∧
      handed sent₂ = [center] := by
  have htouch : windowEvent (shown scale) (.touch .started center 0) (phone scale) =
      some ({ phone scale with
          keyboard := { (phone scale).keyboard with focus := some 0 }
          touch := ⟨Function.update (phone scale).touch.focus (slot 0) (some ⟨some (0, 0)⟩),
            some ⟨some (0, 0), slot 0, 1⟩⟩ },
        [.keyboardEnter 0 ∅,
          .touchDown 0 (slot 0) (center - 0) ((phone scale).elapsed (shown scale))]) := rfl
  refine ⟨_, _, _, _, cursorMoved_center hscale, ?_, htouch, ?_⟩
  · simp [handed, List.filterMap_cons, Sent.location]
  · simp [handed, List.filterMap_cons, Sent.location]

theorem pointer_agrees_with_touch_at_scale_one : ∃ backend₁ sent₁ backend₂ sent₂ place₁,
    (system 0).Run (opened 1) (phone 1) ∧
      windowEvent (shown 1) (.cursorMoved center) (phone 1) = some (backend₁, sent₁) ∧
      windowEvent (shown 1) (.touch .started center 0) (phone 1) = some (backend₂, sent₂) ∧
      place₁ ∈ handed sent₁ ∧ center ∈ handed sent₂ ∧ place₁ = center := by
  obtain ⟨backend₁, sent₁, backend₂, sent₂, hpointer, hplace₁, htouch, hplace₂⟩ :=
    told_of_center one_pos
  refine ⟨backend₁, sent₁, backend₂, sent₂, _, run_opened 1, hpointer, htouch,
    hplace₁ ▸ List.mem_singleton_self _, hplace₂ ▸ List.mem_singleton_self _, ?_⟩
  have hresumed : resumes (opened 1) = [(portrait, 1)] := rfl
  have hwindow : (shown 1).innerSize = portrait := rfl
  refine (pointer_agrees_with_touch_iff (run_opened 1) hresumed hwindow one_pos ?_ ?_ ?_ ?_ hpointer
    htouch (hplace₁ ▸ List.mem_singleton_self _) (hplace₂ ▸ List.mem_singleton_self _)).mpr ?_
  · norm_num
  · norm_num [portrait]
  · norm_num
  · norm_num [portrait]
  · exact ⟨.inr (by norm_num), .inr (by norm_num)⟩

/-- At scale 2 the pointer is told to be at half the way. -/
theorem pointer_differs_from_touch_at_scale_two : ∃ backend₁ sent₁ backend₂ sent₂,
    (system 0).Run (opened 2) (phone 2) ∧
      windowEvent (shown 2) (.cursorMoved center) (phone 2) = some (backend₁, sent₁) ∧
      windowEvent (shown 2) (.touch .started center 0) (phone 2) = some (backend₂, sent₂) ∧
      handed sent₁ = [⟨270, 600⟩] ∧ handed sent₂ = [⟨540, 1200⟩] := by
  obtain ⟨backend₁, sent₁, backend₂, sent₂, hpointer, hplace₁, htouch, hplace₂⟩ :=
    told_of_center two_pos
  refine ⟨backend₁, sent₁, backend₂, sent₂, run_opened 2, hpointer, htouch, ?_, hplace₂⟩
  have hwidth : ⌈(1080 / 2 : ℚ)⌉ = 540 := by norm_num
  have hheight : ⌈(2400 / 2 : ℚ)⌉ = 1200 := by norm_num
  rw [hplace₁, scaledCenter, hwidth, hheight]
  norm_num

end LocalDesktop.Android.App
