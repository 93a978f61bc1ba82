/- GID: LocalDesktop/Android/Backend/Wayland/RelativePositions
   generality: G
   digest: The relative positions that the centralizer builds, scaled back to the window. -/

import LocalDesktop.Android.Backend.Wayland.EventCentralizer
import Mathlib.Tactic.FieldSimp
import Mathlib.Tactic.Linarith
import Mathlib.Tactic.Positivity

set_option autoImplicit false
set_option relaxedAutoImplicit false

namespace LocalDesktop.Android.Backend.Wayland

open Smithay

/-- A location in a window that has an area. -/
structure InWindow (window : Size) (location : Point) : Prop where
  width : 0 < window.w
  height : 0 < window.h
  left : 0 ≤ location.x
  right : location.x ≤ window.w
  top : 0 ≤ location.y
  bottom : location.y ≤ window.h

/-- Where a window event says that the pointer or a finger is, if its input event keeps that. -/
def WindowEvent.location : WindowEvent → Option Point
  | .cursorMoved position => some position
  | .touch .started location _ => some location
  | .touch .moved location _ => some location
  | _ => none

def WindowEvent.ofFinger : WindowEvent → Bool
  | .touch _ _ _ => true
  | _ => false

/-- Both coordinates lie inside the range from 0 to 1. -/
def RelativePosition.Within (position : RelativePosition) : Prop :=
  (0 ≤ position.x ∧ position.x ≤ 1) ∧ 0 ≤ position.y ∧ position.y ≤ 1

/-- The position of an input event is relative to the window, and the location is scaled back
from it. -/
def InputEvent.RelativeTo (window : Size) (location : Point) : InputEvent → Prop
  | .pointerMotionAbsolute event => event.position.Within ∧
      event.xTransformed window.w = location.x ∧ event.yTransformed window.h = location.y
  | .touchDown event => event.position.Within ∧
      event.xTransformed window.w = location.x ∧ event.yTransformed window.h = location.y
  | .touchMotion event => event.position.Within ∧
      event.xTransformed window.w = location.x ∧ event.yTransformed window.h = location.y
  | _ => False

variable {scene : Scene} {backend backend' : WaylandBackend} {window : Size} {location : Point}
  {event : WindowEvent} {input : InputEvent} {x side : ℚ}

private theorem ratio_within (hx : 0 ≤ x) (hle : x ≤ side) (hside : 0 < side) :
    0 ≤ x / side ∧ x / side ≤ 1 :=
  ⟨div_nonneg hx hside.le, (div_le_one hside).mpr hle⟩

private theorem scaled_back (hx : 0 ≤ x) (hside : 0 < side) : max (x / side * side) 0 = x := by
  rw [div_mul_cancel₀ x hside.ne', max_eq_left hx]

private theorem scaled_back_iff {y width height : ℚ} (hy : 0 ≤ y) (hwidth : 0 < width)
    (hheight : 0 < height) : max (y / width * height) 0 = y ↔ y = 0 ∨ width = height := by
  have hscaled : 0 ≤ y / width * height := by positivity
  rw [max_eq_left hscaled, div_mul_eq_mul_div, div_eq_iff hwidth.ne']
  constructor
  · intro heq
    rcases hy.eq_or_lt with hzero | hpos
    · exact Or.inl hzero.symm
    · exact Or.inr (mul_left_cancel₀ hpos.ne' heq).symm
  · rintro (rfl | rfl)
    · simp
    · rfl

private theorem ofTouch_iff (hin : InWindow window location) :
    ((RelativePosition.ofTouch location window).Within ∧
      max ((RelativePosition.ofTouch location window).x * window.w) 0 = location.x ∧
      max ((RelativePosition.ofTouch location window).y * window.h) 0 = location.y) ↔
      location.y = 0 ∨ window.w = window.h := by
  have hw : (0 : ℚ) < window.w := Int.cast_pos.mpr hin.width
  have hh : (0 : ℚ) < window.h := Int.cast_pos.mpr hin.height
  have hback := scaled_back_iff hin.top hw hh
  rw [Int.cast_inj] at hback
  constructor
  · rintro ⟨-, -, hy⟩
    exact hback.mp hy
  · intro hcond
    refine ⟨⟨ratio_within hin.left hin.right hw, ?_⟩, scaled_back hin.left hw, hback.mpr hcond⟩
    rcases hcond with hzero | hsquare
    · simp [RelativePosition.ofTouch, hzero]
    · have hbottom := hin.bottom
      rw [← hsquare] at hbottom
      exact ratio_within hin.top hbottom hw

private theorem ofLocation_within (hin : InWindow window location) :
    (RelativePosition.ofLocation location window).Within ∧
      max ((RelativePosition.ofLocation location window).x * window.w) 0 = location.x ∧
      max ((RelativePosition.ofLocation location window).y * window.h) 0 = location.y := by
  have hw : (0 : ℚ) < window.w := Int.cast_pos.mpr hin.width
  have hh : (0 : ℚ) < window.h := Int.cast_pos.mpr hin.height
  exact ⟨⟨ratio_within hin.left hin.right hw, ratio_within hin.top hin.bottom hh⟩,
    scaled_back hin.left hw, scaled_back hin.top hh⟩

private theorem innerSize_eq_some {size : Size} (h : backend.innerSize scene = some size) :
    scene.innerSize = size := by
  unfold WaylandBackend.innerSize at h
  split at h
  · exact Option.some.inj h
  · cases h

/-- The pointer is always told in the measure of the window. A finger is, if and only if it is at
the upper edge or the window is a square. -/
theorem relative_position_iff
    (hbuilt : centralize scene event backend = some (.input input, backend'))
    (hlocation : event.location = some location) (hin : InWindow scene.innerSize location) :
    input.RelativeTo scene.innerSize location ↔
      (event.ofFinger = true →
        location.y = 0 ∨ scene.innerSize.w = scene.innerSize.h) := by
  cases event with
  | cursorMoved position =>
    cases hlocation
    simp only [centralize, Option.bind_eq_bind, Option.bind_eq_some_iff] at hbuilt
    obtain ⟨size, hsize, hbuilt⟩ := hbuilt
    cases innerSize_eq_some hsize
    cases hbuilt
    have hwithin := ofLocation_within hin
    refine ⟨fun _ hfinger => ?_, fun _ => hwithin⟩
    cases hfinger
  | touch phase position id =>
    have hcond := ofTouch_iff hin
    cases phase with
    | started | moved =>
      cases hlocation
      simp only [centralize, Option.bind_eq_bind, Option.bind_eq_some_iff] at hbuilt
      obtain ⟨size, hsize, hbuilt⟩ := hbuilt
      cases innerSize_eq_some hsize
      cases hbuilt
      exact hcond.trans ⟨fun h _ => h, fun h => h rfl⟩
    | ended | cancelled => cases hlocation
  | _ => cases hlocation

def withRenderer : WaylandBackend := { WaylandBackend.build 0 with graphicRenderer := true }

def sceneOf (window : Size) : Scene := ⟨0, window, 1, [], fun _ => true, true⟩

private theorem inWindow_middle : InWindow ⟨1000, 2000⟩ ⟨500, 1000⟩ := by
  constructor <;> norm_num

def fingerAt (location : Point) : WinitTouchStartedEvent :=
  ⟨0, .ofTouch location ⟨1000, 2000⟩, location, 7⟩

theorem finger_at_upper_edge_is_relative :
    (InputEvent.touchDown (fingerAt ⟨500, 0⟩)).RelativeTo ⟨1000, 2000⟩ ⟨500, 0⟩ := by
  have hin : InWindow ⟨1000, 2000⟩ ⟨500, 0⟩ := by constructor <;> norm_num
  exact (@relative_position_iff (sceneOf ⟨1000, 2000⟩) withRenderer withRenderer ⟨500, 0⟩
    (.touch .started ⟨500, 0⟩ 7) (.touchDown (fingerAt ⟨500, 0⟩)) rfl rfl hin).mpr
    fun _ => Or.inl rfl

/-- In the middle of the window the finger is scaled back to its lower edge. -/
theorem finger_in_the_middle_is_not_relative :
    ¬∀ (scene : Scene) (backend backend' : WaylandBackend) (event : WindowEvent) (location : Point)
      (input : InputEvent), centralize scene event backend = some (.input input, backend') →
      event.location = some location → InWindow scene.innerSize location →
      input.RelativeTo scene.innerSize location := by
  intro h
  obtain ⟨-, -, hy⟩ := h (sceneOf ⟨1000, 2000⟩) withRenderer withRenderer
    (.touch .started ⟨500, 1000⟩ 7) ⟨500, 1000⟩ (.touchDown (fingerAt ⟨500, 1000⟩)) rfl rfl
    inWindow_middle
  norm_num [WinitTouchStartedEvent.yTransformed, fingerAt, RelativePosition.ofTouch, sceneOf] at hy

end LocalDesktop.Android.Backend.Wayland
