/- GID: LocalDesktop/Android/App/TouchPoints
   generality: G
   digest: The touch points of the seat against the fingers on the screen. -/

import LocalDesktop.Android.App.Run

set_option autoImplicit false
set_option relaxedAutoImplicit false

namespace LocalDesktop.Android.App

open Foundation.Transition Smithay Backend.Wayland

/-! The fingers of a history. -/

/-- What winit says of a finger. -/
def Moment.finger (m : Moment) : Option (TouchPhase × Nat) :=
  match m.callback with
  | .windowEvent (.touch phase _ id) => some (phase, id)
  | _ => none

def track (down : List Nat) : TouchPhase × Nat → List Nat
  | (.started, id) => id :: down
  | (.moved, _) => down
  | (.ended, id) => down.erase id
  | (.cancelled, id) => down.erase id

def fingers (h : List Moment) : List Nat := (observed Moment.finger h).foldl track []

/-- A finger goes down once, and only then it moves and goes up or is cancelled. -/
def ProperTouch (down : List Nat) : TouchPhase × Nat → Prop
  | (.started, id) => id ∉ down
  | (_, id) => id ∈ down

/-- A well-formed sequence of touch events, with a toplevel surface at every moment. -/
def Proper : List Moment → Prop :=
  AtEvery fun pre m => m.scene.toplevelSurfaces ≠ [] ∧
    ∀ touch, m.finger = some touch → ProperTouch (fingers pre) touch

variable {scene : Scene} {backend backend' : WaylandBackend} {startTime id : Nat}
  {h pre post : List Moment} {m : Moment} {sent : List Sent} {held : List Nat} {t : TouchHandle}
  {alive : Surface → Bool} {surface : Surface} {touch : TouchPhase × Nat}

theorem fingers_snoc (hfinger : m.finger = some touch) :
    fingers (h ++ [m]) = track (fingers h) touch := by
  rw [fingers, observed_tell hfinger, List.foldl_append]
  rfl

theorem fingers_quiet (hfinger : m.finger = none) : fingers (h ++ [m]) = fingers h := by
  rw [fingers, observed_quiet hfinger]
  rfl

private theorem nodup_track (hnodup : held.Nodup) (htouch : ProperTouch held touch) :
    (track held touch).Nodup := by
  obtain ⟨phase, id⟩ := touch
  cases phase with
  | started => exact List.nodup_cons.mpr ⟨htouch, hnodup⟩
  | moved => exact hnodup
  | ended | cancelled => exact hnodup.erase id

theorem nodup_fingers (hproper : Proper h) : (fingers h).Nodup := by
  induction h using List.reverseRecOn with
  | nil => exact List.nodup_nil
  | append_singleton h m ih =>
    have hbefore := ih (AtEvery.before hproper)
    have hlast := AtEvery.last hproper
    cases hfinger : m.finger with
    | none =>
      rw [fingers_quiet hfinger]
      exact hbefore
    | some touch =>
      rw [fingers_snoc hfinger]
      exact nodup_track hbefore (hlast.2 touch hfinger)

/-! The touch points of the seat. -/

/-- The slots that hold a focused touch point are those of the fingers that are down, one for each
finger, and with no finger down there is no grab. -/
structure Matches (held : List Nat) (t : TouchHandle) : Prop where
  slots : ∀ s, t.focused s = true ↔ ∃ id ∈ held, slot id = s
  apart : ∀ id ∈ held, ∀ id' ∈ held, slot id = slot id' → id = id'
  grab : held = [] → t.grab = none

/-- A grab counts some of the fingers that are down, but not all of them if it came after a surface
has gone. -/
structure Counted (held : List Nat) (t : TouchHandle) : Prop extends Matches held t where
  count : ∀ grab, t.grab = some grab →
    grab.startFocus.isSome = true ∧ 0 < grab.touchPoints ∧ grab.touchPoints ≤ held.length

private theorem focused_down {focus : Focus} {event : DownEvent} (hfocus : focus.isSome = true)
    (hcount : ∀ grab, t.grab = some grab → grab.startFocus.isSome = true) (s : TouchSlot) :
    (t.down alive focus event).1.focused s = (decide (s = event.slot) || t.focused s) := by
  have hstart : (t.downFocus alive focus).isSome = true := by
    cases hlive : t.liveGrab alive with
    | none => simpa [TouchHandle.downFocus, hlive] using hfocus
    | some grab =>
      simpa [TouchHandle.downFocus, hlive] using
        hcount grab (Option.filter_eq_some_iff.mp hlive).1
  rw [TouchHandle.focused, TouchHandle.down_focus]
  by_cases hs : s = event.slot
  · simp [hs, hstart]
  · simp [hs, TouchHandle.focused]

private theorem Counted.down (ht : Counted held t) (hapart : ∀ other ∈ held, slot other ≠ slot id)
    {focus : Focus} (hfocus : focus.isSome = true) {event : DownEvent} (hslot : event.slot = slot id) :
    Counted (id :: held) (t.down alive focus event).1 := by
  refine ⟨⟨fun s => ?_, ?_, fun hnil => by cases hnil⟩, fun grab hgrab => ?_⟩
  · rw [focused_down hfocus fun grab hgrab => (ht.count grab hgrab).1, hslot, Bool.or_eq_true,
      decide_eq_true_iff, ht.slots]
    simp [eq_comm]
  · intro a ha b hb hsame
    rcases List.mem_cons.mp ha with rfl | ha'
    · rcases List.mem_cons.mp hb with rfl | hb'
      · rfl
      · exact absurd hsame.symm (hapart b hb')
    · rcases List.mem_cons.mp hb with rfl | hb'
      · exact absurd hsame (hapart a ha')
      · exact ht.apart a ha' b hb' hsame
  · simp only [TouchHandle.down] at hgrab
    cases hlive : t.liveGrab alive with
    | none =>
      simp only [hlive, Option.some.injEq] at hgrab
      subst hgrab
      simp [hfocus]
    | some live =>
      obtain ⟨hsome, hpos, hle⟩ := ht.count live (Option.filter_eq_some_iff.mp hlive).1
      simp only [hlive, Option.some.injEq] at hgrab
      subst hgrab
      refine ⟨hsome, by simp, ?_⟩
      simp only [List.length_cons]
      omega

private theorem focused_up {event : UpEvent} (s : TouchSlot) :
    (t.up alive event).1.focused s = (decide (s ≠ event.slot) && t.focused s) := by
  rw [TouchHandle.focused, TouchHandle.up_focus, TouchHandle.innerUp]
  split
  · by_cases hs : s = event.slot <;> simp [hs, TouchHandle.focused]
  · next hother =>
    by_cases hs : s = event.slot
    · subst hs
      cases hstate : t.focus event.slot with
      | none => simp
      | some state =>
        obtain ⟨focus⟩ := state
        cases focus with
        | none => simp
        | some focus => exact absurd hstate (hother focus.1 focus.2)
    · simp [TouchHandle.focused, hs]

private theorem Counted.up (ht : Counted held t) (hnodup : held.Nodup) (hid : id ∈ held)
    {event : UpEvent}
    (hslot : event.slot = slot id) : Counted (held.erase id) (t.up alive event).1 := by
  have hlength := List.length_erase_of_mem hid
  have hcount : ∀ grab, (t.up alive event).1.grab = some grab → grab.startFocus.isSome = true ∧
      0 < grab.touchPoints ∧ grab.touchPoints ≤ (held.erase id).length := by
    intro grab hgrab
    simp only [TouchHandle.up] at hgrab
    cases hlive : t.liveGrab alive with
    | none => simp [hlive] at hgrab
    | some live =>
      obtain ⟨hsome, hpos, hle⟩ := ht.count live (Option.filter_eq_some_iff.mp hlive).1
      simp only [hlive] at hgrab
      split at hgrab
      · cases hgrab
      · cases hgrab
        refine ⟨hsome, ?_, ?_⟩
        · simp only
          omega
        · simp only
          omega
  refine ⟨⟨fun s => ?_, ?_, fun hnil => ?_⟩, hcount⟩
  · rw [focused_up, hslot, Bool.and_eq_true, decide_eq_true_iff, ht.slots]
    constructor
    · rintro ⟨hne, other, hother, rfl⟩
      refine ⟨other, (hnodup.mem_erase_iff).mpr ⟨?_, hother⟩, rfl⟩
      rintro rfl
      exact hne rfl
    · rintro ⟨other, hother, rfl⟩
      obtain ⟨hne, hmem⟩ := hnodup.mem_erase_iff.mp hother
      exact ⟨fun hsame => hne (ht.apart other hmem id hid hsame), other, hmem, rfl⟩
  · intro a ha b hb hsame
    exact ht.apart a (List.mem_of_mem_erase ha) b (List.mem_of_mem_erase hb) hsame
  · cases hgrab : (t.up alive event).1.grab with
    | none => rfl
    | some grab =>
      obtain ⟨-, hpos, hle⟩ := hcount grab hgrab
      rw [hnil] at hle
      simp only [List.length_nil] at hle
      omega

private theorem Counted.motion (ht : Counted held t) (focus : Focus) (event : MotionEvent) :
    Counted held (t.motion alive focus event).1 := by
  simp only [TouchHandle.motion, TouchHandle.innerMotion_fst]
  refine ⟨⟨ht.slots, ht.apart, fun hnil => ?_⟩, fun grab hgrab => ?_⟩
  · rw [TouchHandle.liveGrab, ht.grab hnil]
    rfl
  · exact ht.count grab (Option.filter_eq_some_iff.mp hgrab).1

/-! What a callback sends of touch. -/

def ofTouch : Sent → Bool
  | .touchDown _ _ _ _ | .touchMotion _ _ _ _ | .touchUp _ _ _ | .touchFrame _ => true
  | _ => false

def touchPart (sent : List Sent) : List Sent := sent.filter ofTouch

@[simp] theorem touchPart_append (sent sent' : List Sent) :
    touchPart (sent ++ sent') = touchPart sent ++ touchPart sent' := List.filter_append _ _

private theorem ofTouch_eq (event : Sent) : ofTouch event = decide (event.device = .touch) := by
  cases event <;> rfl

private theorem touchPart_of_touch (hsent : OfDevice .touch sent) : touchPart sent = sent := by
  refine List.filter_eq_self.mpr fun event hevent => ?_
  rw [ofTouch_eq, hsent event hevent]
  rfl

private theorem touchPart_of_other {device : Device} (hsent : OfDevice device sent)
    (hother : device ≠ .touch) : touchPart sent = [] := by
  refine List.filter_eq_nil_iff.mpr fun event hevent => ?_
  rw [ofTouch_eq, hsent event hevent]
  simpa using hother

/-! A run. -/

theorem exists_getSurface (htop : scene.toplevelSurfaces ≠ []) :
    ∃ surface, getSurface scene = some surface := by
  rw [getSurface, ← Option.isSome_iff_exists, List.isSome_head?]
  simpa using htop

def touchAfter (scene : Scene) (surface : Surface) (backend : WaylandBackend) :
    Callback → TouchHandle
  | .windowEvent (.touch .started location id) =>
    (backend.touch.down scene.alive (some (surface, 0))
      ⟨slot id, location, backend.elapsed scene⟩).1
  | .windowEvent (.touch .moved location id) =>
    (backend.touch.motion scene.alive (some (surface, 0))
      ⟨slot id, location, backend.elapsed scene⟩).1
  | .windowEvent (.touch .ended _ id) =>
    (backend.touch.up scene.alive ⟨slot id, backend.elapsed scene⟩).1
  | _ => backend.touch

def touchSent (scene : Scene) (surface : Surface) (backend : WaylandBackend) :
    Callback → List Sent
  | .windowEvent (.touch .started location id) =>
    (backend.touch.down scene.alive (some (surface, 0))
      ⟨slot id, location, backend.elapsed scene⟩).2
  | .windowEvent (.touch .moved location id) =>
    (backend.touch.motion scene.alive (some (surface, 0))
      ⟨slot id, location, backend.elapsed scene⟩).2
  | .windowEvent (.touch .ended _ id) =>
    (backend.touch.up scene.alive ⟨slot id, backend.elapsed scene⟩).2
  | _ => []

/-- All that a callback does to the touch points and sends of touch. Without a toplevel surface it is
nothing. -/
theorem touch_respond {callback : Callback}
    (hstep : respond scene callback backend = some (backend', sent)) :
    backend'.touch = ((getSurface scene).elim backend.touch fun surface =>
      touchAfter scene surface backend callback) ∧
    touchPart sent = (getSurface scene).elim [] fun surface =>
      touchSent scene surface backend callback := by
  have hkept : backend.touch = (getSurface scene).elim backend.touch fun _ => backend.touch := by
    cases getSurface scene <;> rfl
  have hnone : [] = (getSurface scene).elim [] fun _ => ([] : List Sent) := by
    cases getSurface scene <;> rfl
  cases callback with
  | resumed =>
    obtain ⟨-, rfl, rfl⟩ := resumed_of_respond hstep
    exact ⟨hkept, hnone⟩
  | windowEvent event =>
    simp only [respond, windowEvent, Option.bind_eq_bind, Option.bind_eq_some_iff] at hstep
    obtain ⟨⟨centralized, middle⟩, hcentral, hhandle⟩ := hstep
    cases event with
    | keyboardInput event isSynthetic =>
      simp only [centralize] at hcentral
      split at hcentral
      · cases hcentral
        cases hhandle
        exact ⟨hkept, (touchPart_of_other (KeyboardHandle.input_device _ _ _ _) (by decide)).trans
          hnone⟩
      · cases hcentral
        cases hhandle
        exact ⟨hkept, hnone⟩
    | scaleFactorChanged =>
      simp only [centralize, Option.bind_eq_bind, Option.bind_eq_some_iff] at hcentral
      obtain ⟨size, -, hcentral⟩ := hcentral
      cases hcentral
      cases hhandle
      exact ⟨hkept, hnone⟩
    | redrawRequested =>
      cases hcentral
      simp only [handle] at hhandle
      split at hhandle
      · cases hhandle
        exact ⟨hkept, hnone⟩
      · cases hhandle
    | cursorMoved =>
      simp only [centralize, Option.bind_eq_bind, Option.bind_eq_some_iff] at hcentral
      obtain ⟨size, -, hcentral⟩ := hcentral
      cases hcentral
      simp only [handle, handleInput, Option.bind_eq_bind, Option.bind_eq_some_iff] at hhandle
      obtain ⟨location, -, hhandle⟩ := hhandle
      cases hhandle
      refine ⟨hkept, ?_⟩
      rw [touchPart_append, touchPart_of_other (PointerHandle.frame_device _) (by decide),
        List.append_nil]
      cases getSurface scene with
      | none => rfl
      | some surface => exact touchPart_of_other (PointerHandle.motion_device _ _ _ _) (by decide)
    | mouseWheel =>
      cases hcentral
      simp only [handle, handleInput] at hhandle
      cases hhandle
      refine ⟨hkept, ?_⟩
      rw [touchPart_append, touchPart_of_other (PointerHandle.axis_device _ _) (by decide),
        touchPart_of_other (PointerHandle.frame_device _) (by decide)]
      exact hnone
    | mouseInput =>
      cases hcentral
      simp only [handle, handleInput] at hhandle
      cases hhandle
      refine ⟨hkept, ?_⟩
      rw [touchPart_append, touchPart_append,
        touchPart_of_other (PointerHandle.button_device _ _ _ _) (by decide),
        touchPart_of_other (PointerHandle.frame_device _) (by decide)]
      cases getSurface scene with
      | none => rfl
      | some surface =>
        rw [touchPart_of_other (KeyboardHandle.setFocus_device _ _) (by decide)]
        rfl
    | touch phase location id =>
      cases phase with
      | cancelled =>
        cases hcentral
        cases hhandle
        exact ⟨hkept, hnone⟩
      | _ =>
        simp only [centralize, Option.bind_eq_bind, Option.bind_eq_some_iff] at hcentral
        obtain ⟨size, -, hcentral⟩ := hcentral
        cases hcentral
        cases hsurface : getSurface scene with
        | none =>
          simp only [handle, handleInput, hsurface] at hhandle
          cases hhandle
          exact ⟨rfl, rfl⟩
        | some surface =>
          simp only [handle, handleInput, hsurface] at hhandle
          cases hhandle
          refine ⟨rfl, ?_⟩
          first
          | exact touchPart_of_touch (TouchHandle.up_device _ _)
          | exact touchPart_of_touch (TouchHandle.motion_device _ (some (surface, 0)) _)
          | rw [touchPart_append,
              touchPart_of_other (KeyboardHandle.setFocus_device _ _) (by decide)]
            exact touchPart_of_touch (TouchHandle.down_device _ _ _)
    | _ =>
      cases hcentral
      cases hhandle
      exact ⟨hkept, hnone⟩

theorem touch_eq {callback : Callback} (hsurface : getSurface scene = some surface)
    (hstep : respond scene callback backend = some (backend', sent)) :
    backend'.touch = touchAfter scene surface backend callback := by
  rw [(touch_respond hstep).1, hsurface, Option.elim_some]

theorem touchPart_eq {callback : Callback} (hsurface : getSurface scene = some surface)
    (hstep : respond scene callback backend = some (backend', sent)) :
    touchPart sent = touchSent scene surface backend callback := by
  rw [(touch_respond hstep).2, hsurface, Option.elim_some]

theorem touch_invariant {P : TouchHandle → Prop} (hnew : P .new)
    (hdown : ∀ t alive surface event, P t → P (t.down alive (some (surface, 0)) event).1)
    (hup : ∀ t alive event, P t → P (t.up alive event).1)
    (hmotion : ∀ t alive focus event, P t → P (t.motion alive focus event).1)
    (hrun : (system startTime).Run h backend) : P backend.touch := by
  refine hrun.invariant (I := fun _ backend => P backend.touch) hnew ?_
  intro h backend m backend' _ ih hstep
  rw [(touch_respond hstep.2).1]
  cases getSurface m.scene with
  | none => exact ih
  | some surface =>
    simp only [Option.elim_some]
    unfold touchAfter
    split
    · exact hdown _ _ _ _ ih
    · exact hmotion _ _ _ _ ih
    · exact hup _ _ _ ih
    · exact ih

/-- No finger is cancelled, and none goes down in the slot of another one. -/
def SafeTouch (held : List Nat) : TouchPhase × Nat → Prop
  | (.started, id) => ∀ other ∈ held, slot other ≠ slot id
  | (.cancelled, _) => False
  | _ => True

theorem touchAfter_of_quiet {callback : Callback}
    (hfinger : (⟨scene, callback, sent⟩ : Moment).finger = none) :
    touchAfter scene surface backend callback = backend.touch := by
  cases callback with
  | resumed => rfl
  | windowEvent event =>
    cases event with
    | touch => cases hfinger
    | _ => rfl

theorem finger_eq {phase : TouchPhase} {callback : Callback}
    (hfinger : (⟨scene, callback, sent⟩ : Moment).finger = some (phase, id)) :
    ∃ location, callback = .windowEvent (.touch phase location id) := by
  cases callback with
  | resumed => cases hfinger
  | windowEvent event =>
    cases event with
    | touch =>
      cases hfinger
      exact ⟨_, rfl⟩
    | _ => cases hfinger

theorem counted_touchAfter {callback : Callback} (hcounted : Counted held backend.touch)
    (hnodup : held.Nodup) (hfinger : (⟨scene, callback, sent⟩ : Moment).finger = some touch)
    (hproper : ProperTouch held touch) (hsafe : SafeTouch held touch) :
    Counted (track held touch) (touchAfter scene surface backend callback) := by
  obtain ⟨phase, id⟩ := touch
  obtain ⟨location, rfl⟩ := finger_eq hfinger
  cases phase with
  | started => exact hcounted.down hsafe rfl rfl
  | moved => exact hcounted.motion (some (surface, 0)) _
  | ended => exact hcounted.up hnodup hproper rfl
  | cancelled => cases hsafe

def clientAt (now : Nat) : Scene := { sceneAt now portrait 1 with toplevelSurfaces := [0] }

def touched : List Moment :=
  [] ++ [⟨clientAt 0, .resumed, []⟩] ++ [⟨clientAt 1, .windowEvent (.touch .started 0 7),
    [.keyboardEnter 0 ∅, .touchDown 0 (slot 7) (0 - 0) 0]⟩]

theorem proper_touched : Proper touched := by
  refine .snoc (.snoc .nil ⟨by simp [clientAt], fun _ hfinger => by cases hfinger⟩)
    ⟨by simp [clientAt], fun touch hfinger => ?_⟩
  cases hfinger
  exact List.not_mem_nil

theorem mem_touched : 7 ∈ fingers touched := List.mem_singleton_self 7

def touchedBackend : WaylandBackend :=
  { resumed (clientAt 0) (.build 0) with
    keyboard := { KeyboardHandle.new with focus := some 0 }
    touch := ⟨Function.update TouchHandle.new.focus (slot 7) (some ⟨some (0, 0)⟩),
      some ⟨some (0, 0), slot 7, 1⟩⟩ }

theorem run_touched : (system 0).Run touched touchedBackend := by
  have hstarted : (system 0).Run ([] ++ [⟨clientAt 0, .resumed, []⟩])
      (resumed (clientAt 0) (.build 0)) := .snoc (.nil _) ⟨Nat.zero_le _, rfl⟩
  exact hstarted.snoc ⟨Nat.zero_le _, rfl⟩

end LocalDesktop.Android.App
