/- GID: LocalDesktop/Android/App/Gestures
   generality: G
   digest: The gestures that an Android activity reports, and the touches that the app gets. -/

import LocalDesktop.Android.App.Drags
import LocalDesktop.Winit.InputEvents
import Mathlib.Data.List.Basic

set_option autoImplicit false
set_option relaxedAutoImplicit false

namespace LocalDesktop.Android.App

open Foundation.Transition Smithay Backend.Wayland Winit Winit.Input

/-! What Android promises of the motion events of fingers. -/

/-- A motion event reports pointers with different ids: those that are on the screen, before one of
them leaves it and after one has come. -/
def Follows (down : List Nat) (event : Winit.Input.MotionEvent) : Prop :=
  event.ids.Nodup ∧ match event.action with
    | .down => down = [] ∧ event.pointers.length = 1
    | .pointerDown => event.pointer.id ∉ down ∧
      ∀ id, id ∈ event.ids ↔ id = event.pointer.id ∨ id ∈ down
    | .up => (∀ id, id ∈ event.ids ↔ id ∈ down) ∧ event.pointers.length = 1
    | .pointerUp | .move | .cancel => ∀ id, id ∈ event.ids ↔ id ∈ down
    | _ => True

def pointersAfter (down : List Nat) (event : Winit.Input.MotionEvent) : List Nat :=
  match touchPhase event.action with
  | some .started => event.pointer.id :: down
  | some .ended => down.erase event.pointer.id
  | some .cancelled => []
  | some .moved | none => down

def pointers (down : List Nat) : List Winit.Input.InputEvent → List Nat
  | .motionEvent event :: rest =>
    pointers (if event.isPointing then down else pointersAfter down event) rest
  | _ :: rest => pointers down rest
  | [] => down

/-- Gestures of fingers on one screen, with keys and other devices in between. -/
def Gestures (down : List Nat) : List Winit.Input.InputEvent → Prop
  | .motionEvent event :: rest =>
    if event.isPointing then Gestures down rest
    else Follows down event ∧ Gestures (pointersAfter down event) rest
  | _ :: rest => Gestures down rest
  | [] => True

/-! The touches that winit makes of them. -/

def touchOf : WindowEvent → Option (TouchPhase × Nat)
  | .touch phase _ id => some (phase, id)
  | _ => none

def touches (ignoreVolumeKeys : Bool) (events : List Winit.Input.InputEvent) :
    List (TouchPhase × Nat) :=
  (events.flatMap fun event => (handleInputEvent ignoreVolumeKeys event).1).filterMap touchOf

/-- No gesture of fingers is cancelled, and the ids of its pointers are 32 bits at most. -/
def Unbroken (events : List Winit.Input.InputEvent) : Prop :=
  ∀ event : Winit.Input.MotionEvent, .motionEvent event ∈ events → event.isPointing = false →
    event.action ≠ .cancel ∧ ∀ id ∈ event.ids, id < 2 ^ 32

/-- Each touch fits the fingers that are down before it. -/
def ProperFrom (down : List Nat) : List (TouchPhase × Nat) → Prop
  | [] => True
  | touch :: rest => ProperTouch down touch ∧ ProperFrom (track down touch) rest

variable {down ids : List Nat} {event : Winit.Input.MotionEvent}
  {events : List Winit.Input.InputEvent} {ts us : List (TouchPhase × Nat)}
  {touch : TouchPhase × Nat} {ignoreVolumeKeys : Bool} {startTime : Nat} {h : List Moment}
  {hs : List Happening} {d : WithDrag}

private theorem properFrom_append :
    ProperFrom down (ts ++ us) ↔ ProperFrom down ts ∧ ProperFrom (ts.foldl track down) us := by
  induction ts generalizing down with
  | nil => exact (iff_of_eq (true_and _)).symm
  | cons touch ts ih => exact (and_congr_right' ih).trans and_assoc.symm

private theorem properFrom_moved (hids : ∀ id ∈ ids, id ∈ down) :
    ProperFrom down (ids.map fun id => (.moved, id)) ∧
      (ids.map fun id => (TouchPhase.moved, id)).foldl track down = down := by
  induction ids with
  | nil => exact ⟨trivial, rfl⟩
  | cons id ids ih =>
    obtain ⟨hid, hrest⟩ := List.forall_mem_cons.mp hids
    obtain ⟨hproper, hfold⟩ := ih hrest
    exact ⟨⟨hid, hproper⟩, hfold⟩

private theorem properFrom_cancelled (hnodup : ids.Nodup) (hids : ∀ id ∈ ids, id ∈ down) :
    ProperFrom down (ids.map fun id => (.cancelled, id)) ∧
      (ids.map fun id => (TouchPhase.cancelled, id)).foldl track down = down.diff ids := by
  induction ids generalizing down with
  | nil => exact ⟨trivial, (List.diff_nil down).symm⟩
  | cons id ids ih =>
    obtain ⟨hfresh, hnodup⟩ := List.nodup_cons.mp hnodup
    obtain ⟨hid, hrest⟩ := List.forall_mem_cons.mp hids
    have hleft : ∀ other ∈ ids, other ∈ down.erase id := by
      intro other hother
      refine (List.mem_erase_of_ne ?_).mpr (hrest other hother)
      rintro rfl
      exact hfresh hother
    obtain ⟨hproper, hfold⟩ := ih hnodup hleft
    refine ⟨⟨hid, hproper⟩, ?_⟩
    rw [List.map_cons, List.foldl_cons, track, hfold, List.diff_cons]

private theorem filterMap_pointingEvents : (pointingEvents event).filterMap touchOf = [] := by
  rw [pointingEvents]
  split
  · rfl
  all_goals first | rfl | (split <;> rfl)

private theorem filterMap_touchEvents : (touchEvents event).filterMap touchOf =
    match touchPhase event.action with
    | some phase => (touchedPointers event phase).map fun pointer => (phase, pointer.id)
    | none => [] := by
  rw [touchEvents]
  cases touchPhase event.action with
  | none => rfl
  | some phase =>
    rw [List.filterMap_map]
    exact congrFun List.filterMap_eq_map _

private theorem pointer_id_mem : event.pointer.id ∈ event.ids :=
  List.mem_map_of_mem (List.get_mem event.pointers event.pointerIndex)

private theorem diff_eq_nil (hnodup : down.Nodup) (hall : ∀ id ∈ down, id ∈ ids) : down.diff ids =
    [] := by
  refine List.eq_nil_iff_forall_not_mem.mpr fun id hid => ?_
  obtain ⟨hmem, hnot⟩ := (List.Nodup.mem_sdiff_iff hnodup).mp hid
  exact hnot (hall id hmem)

private theorem nodup_pointersAfter (hnodup : down.Nodup) (hfollows : Follows down event) :
    (pointersAfter down event).Nodup := by
  obtain ⟨-, hfollows⟩ := hfollows
  rw [pointersAfter]
  cases haction : event.action with
  | down =>
    rw [haction] at hfollows
    rw [hfollows.1]
    exact List.nodup_singleton _
  | pointerDown =>
    rw [haction] at hfollows
    exact List.nodup_cons.mpr ⟨hfollows.1, hnodup⟩
  | up | pointerUp => exact hnodup.erase _
  | cancel => exact List.nodup_nil
  | _ => exact hnodup

private theorem touchEvents_follows (hnodup : down.Nodup) (hfollows : Follows down event) :
    ProperFrom down ((touchEvents event).filterMap touchOf) ∧
      ((touchEvents event).filterMap touchOf).foldl track down = pointersAfter down event := by
  obtain ⟨hids, hfollows⟩ := hfollows
  rw [filterMap_touchEvents, pointersAfter]
  have hmap : ∀ phase : TouchPhase, (event.pointers.map fun pointer => (phase, pointer.id)) =
      event.ids.map fun id => (phase, id) := by
    intro phase
    rw [Input.MotionEvent.ids, List.map_map]
    rfl
  cases haction : event.action with
  | down =>
    rw [haction] at hfollows
    rw [hfollows.1]
    exact ⟨⟨List.not_mem_nil, trivial⟩, rfl⟩
  | pointerDown =>
    rw [haction] at hfollows
    exact ⟨⟨hfollows.1, trivial⟩, rfl⟩
  | up =>
    rw [haction] at hfollows
    exact ⟨⟨(hfollows.1 _).mp pointer_id_mem, trivial⟩, rfl⟩
  | pointerUp =>
    rw [haction] at hfollows
    exact ⟨⟨(hfollows _).mp pointer_id_mem, trivial⟩, rfl⟩
  | move =>
    rw [haction] at hfollows
    simp only [touchPhase, touchedPointers, hmap]
    exact properFrom_moved fun id hid => (hfollows id).mp hid
  | cancel =>
    rw [haction] at hfollows
    simp only [touchPhase, touchedPointers, hmap]
    rw [← diff_eq_nil hnodup fun id hid => (hfollows id).mpr hid]
    exact properFrom_cancelled hids fun id hid => (hfollows id).mp hid
  | _ => exact ⟨trivial, rfl⟩

private theorem touches_cons {e : Winit.Input.InputEvent} : touches ignoreVolumeKeys (e :: events) =
    (handleInputEvent ignoreVolumeKeys e).1.filterMap touchOf ++
      touches ignoreVolumeKeys events := by
  rw [touches, List.flatMap_cons, List.filterMap_append, touches]

private theorem touches_gestures (hnodup : down.Nodup) (hgestures : Gestures down events) :
    ProperFrom down (touches ignoreVolumeKeys events) ∧
      (touches ignoreVolumeKeys events).foldl track down = pointers down events := by
  induction events generalizing down with
  | nil => exact ⟨trivial, rfl⟩
  | cons e events ih =>
    rw [touches_cons, properFrom_append, List.foldl_append]
    cases e with
    | motionEvent event =>
      rw [Gestures] at hgestures
      simp only [handleInputEvent, motionEvents, pointers]
      by_cases hpointing : event.isPointing = true
      · rw [if_pos hpointing] at hgestures
        simp only [hpointing, if_true, filterMap_pointingEvents]
        exact ⟨⟨trivial, (ih hnodup hgestures).1⟩, (ih hnodup hgestures).2⟩
      · rw [if_neg hpointing] at hgestures
        obtain ⟨hfollows, hgestures⟩ := hgestures
        obtain ⟨hproper, hfold⟩ := touchEvents_follows hnodup hfollows
        obtain ⟨hrest, hend⟩ := ih (nodup_pointersAfter hnodup hfollows) hgestures
        rw [if_neg hpointing, if_neg hpointing, hfold]
        exact ⟨⟨hproper, hrest⟩, hend⟩
    | keyEvent event =>
      have hquiet : (handleInputEvent ignoreVolumeKeys (.keyEvent event)).1.filterMap touchOf =
          [] := by
        rw [handleInputEvent]
        split <;> rfl
      rw [hquiet]
      exact ⟨⟨trivial, (ih hnodup hgestures).1⟩, (ih hnodup hgestures).2⟩
    | other => exact ⟨⟨trivial, (ih hnodup hgestures).1⟩, (ih hnodup hgestures).2⟩

private theorem proper_of_properFrom (htop : ∀ m ∈ h, m.scene.toplevelSurfaces ≠ [])
    (hproper : ProperFrom [] (observed Moment.finger h)) : Proper h := by
  induction h using List.reverseRecOn with
  | nil => exact AtEvery.nil
  | append_singleton h m ih =>
    have hm := htop m (List.mem_append_right h (List.mem_singleton_self m))
    have hbefore : ∀ x ∈ h, x.scene.toplevelSurfaces ≠ [] := fun x hx =>
      htop x (List.mem_append_left _ hx)
    rw [observed_snoc, properFrom_append] at hproper
    refine AtEvery.snoc (ih hbefore hproper.1) ⟨hm, fun touch htouch => ?_⟩
    rw [htouch] at hproper
    exact hproper.2.1

private theorem proper_of_gestures (hgestures : Gestures [] events)
    (htouches : observed Moment.finger h = touches ignoreVolumeKeys events)
    (htop : ∀ m ∈ h, m.scene.toplevelSurfaces ≠ []) :
    Proper h ∧ fingers h = pointers [] events := by
  obtain ⟨hproper, hfold⟩ := touches_gestures List.nodup_nil hgestures
  rw [← htouches] at hproper hfold
  exact ⟨proper_of_properFrom htop hproper, hfold⟩

/-! Gestures that are not cancelled. -/

private theorem unbroken_touch (hunbroken : Unbroken events)
    (htouch : touch ∈ touches ignoreVolumeKeys events) :
    touch.1 ≠ .cancelled ∧ touch.2 < 2 ^ 32 := by
  obtain ⟨e, he, htouch⟩ := List.mem_filterMap.mp htouch
  obtain ⟨input, hinput, he⟩ := List.mem_flatMap.mp he
  have hsome : touch ∈ (handleInputEvent ignoreVolumeKeys input).1.filterMap touchOf :=
    List.mem_filterMap.mpr ⟨e, he, htouch⟩
  cases input with
  | other => cases hsome
  | keyEvent event =>
    rw [handleInputEvent] at hsome
    split at hsome <;> cases hsome
  | motionEvent event =>
    simp only [handleInputEvent, motionEvents] at hsome
    cases hpointing : event.isPointing with
    | true =>
      simp only [hpointing, if_true, filterMap_pointingEvents] at hsome
      cases hsome
    | false =>
      obtain ⟨haction, hids⟩ := hunbroken event hinput hpointing
      simp only [hpointing, Bool.false_eq_true, if_false, filterMap_touchEvents] at hsome
      cases hphase : touchPhase event.action with
      | none =>
        rw [hphase] at hsome
        cases hsome
      | some phase =>
        rw [hphase] at hsome
        obtain ⟨pointer, hpointer, rfl⟩ := List.mem_map.mp hsome
        have hmem : pointer ∈ event.pointers := by
          cases phase with
          | started | ended =>
            obtain rfl := List.mem_singleton.mp hpointer
            exact List.get_mem event.pointers event.pointerIndex
          | moved | cancelled => exact hpointer
        refine ⟨?_, hids _ (List.mem_map_of_mem hmem)⟩
        rintro rfl
        cases hkind : event.action with
        | cancel => exact haction hkind
        | _ =>
          rw [hkind] at hphase
          cases hphase

private theorem lt_of_mem_foldl (hdown : ∀ id ∈ down, id < 2 ^ 32)
    (hts : ∀ touch ∈ ts, touch.2 < 2 ^ 32) :
    ∀ id ∈ ts.foldl track down, id < 2 ^ 32 := by
  induction ts generalizing down with
  | nil => exact hdown
  | cons touch ts ih =>
    obtain ⟨htouch, hrest⟩ := List.forall_mem_cons.mp hts
    refine ih ?_ hrest
    obtain ⟨phase, id⟩ := touch
    cases phase with
    | started => exact List.forall_mem_cons.mpr ⟨htouch, hdown⟩
    | moved => exact hdown
    | ended | cancelled => exact fun other hother => hdown other (List.mem_of_mem_erase hother)

private theorem safeTouch_of_small (hdown : ∀ id ∈ down, id < 2 ^ 32)
    (hproper : ProperTouch down touch)
    (hphase : touch.1 ≠ .cancelled) (hid : touch.2 < 2 ^ 32) : SafeTouch down touch := by
  obtain ⟨phase, id⟩ := touch
  cases phase with
  | started =>
    intro other hother hsame
    have hmod : other % 2 ^ 32 = id % 2 ^ 32 := Option.some.inj hsame
    rw [Nat.mod_eq_of_lt (hdown other hother), Nat.mod_eq_of_lt hid] at hmod
    obtain rfl : other = id := hmod
    exact hproper hother
  | cancelled => exact absurd rfl hphase
  | moved | ended => trivial

/-- Whatever gestures of fingers Android reports, with keys and other devices in between, the app
gets well-formed touches. If no gesture is cancelled and no client starts a drag, the touch points
of the seat are the pointers on the screen. -/
theorem touch_points_of_gestures (hrun : (dragging startTime).Run hs d)
    (hgestures : Gestures [] events)
    (htouches : observed Moment.finger (moments hs) = touches ignoreVolumeKeys events)
    (htop : ∀ m ∈ moments hs, m.scene.toplevelSurfaces ≠ []) :
    Proper (moments hs) ∧ fingers (moments hs) = pointers [] events ∧
      (Unbroken events → (∀ o ∈ hs, o.startsDrag = false) →
        MatchesWithDrag (pointers [] events) d) := by
  obtain ⟨hproper, hfingers⟩ := proper_of_gestures hgestures htouches htop
  refine ⟨hproper, hfingers, fun hunbroken hnone => ?_⟩
  have hsafe : SafeWithDrag startTime hs := by
    refine safeWithDrag_of_undragged hnone fun pre o post touch hsplit hfinger => ?_
    have hmoments : moments hs = moments pre ++ o.moment :: moments post := by
      rw [hsplit]
      exact List.map_append
    have hplain : ∀ touch ∈ observed Moment.finger (moments hs),
        touch.1 ≠ .cancelled ∧ touch.2 < 2 ^ 32 := by
      rw [htouches]
      exact fun touch => unbroken_touch hunbroken
    rw [hmoments] at hplain
    have hthis := hplain touch (mem_observed.mpr
      ⟨o.moment, List.mem_append_right _ List.mem_cons_self, hfinger⟩)
    have hdown : ∀ id ∈ fingers (moments pre), id < 2 ^ 32 := by
      refine lt_of_mem_foldl (fun _ hid => absurd hid List.not_mem_nil) fun touch htouch => ?_
      rw [observed_append] at hplain
      exact (hplain touch (List.mem_append_left _ htouch)).2
    exact safeTouch_of_small hdown ((hproper _ _ _ hmoments).2 touch hfinger) hthis.1 hthis.2
  have hcounted := countedWithDrag hrun hproper hsafe
  rw [hfingers] at hcounted
  exact ⟨hcounted.counted.toMatches, hcounted.drag⟩

def fingertip (id : Nat) : Pointer := ⟨id, 0, 0, .finger, 0, 0⟩

def tap : List Winit.Input.InputEvent :=
  [.motionEvent ⟨.down, [fingertip 7], 0, .other 0, .other 0⟩,
    .keyEvent ⟨.volumeUp, .down, 0⟩,
    .motionEvent ⟨.up, [fingertip 7], 0, .other 0, .other 0⟩]

private theorem gestures_tap : Gestures [] tap := by
  refine ⟨⟨by decide, rfl, rfl⟩, ⟨by decide, fun id => ?_, rfl⟩, trivial⟩
  show id ∈ [7] ↔ id ∈ [7]
  exact Iff.rfl

private theorem unbroken_tap : Unbroken tap := by
  intro event hevent _
  simp only [tap, List.mem_cons, List.not_mem_nil, or_false,
    Winit.Input.InputEvent.motionEvent.injEq, reduceCtorEq, false_or] at hevent
  rcases hevent with rfl | rfl <;> exact ⟨by decide, by decide⟩

theorem touch_points_of_tap : ∃ backend,
    (dragging 0).Run (tapped.map undragged) ⟨backend, none⟩ ∧
      MatchesWithDrag [] ⟨backend, none⟩ := by
  have hrun := run_undragged (run_touched.snoc (e := ⟨clientAt 2, .windowEvent (.touch .ended 0 7),
    [.touchUp 0 (slot 7) 0]⟩) ⟨Nat.zero_le _, rfl⟩)
  have htouches : observed Moment.finger (moments (tapped.map undragged)) = touches true tap := by
    rw [moments_undragged]
    rfl
  have htop : ∀ m ∈ moments (tapped.map undragged), m.scene.toplevelSurfaces ≠ [] := by
    rw [moments_undragged]
    intro m hm
    simp only [tapped, touched, List.nil_append, List.cons_append, List.mem_cons, List.not_mem_nil,
      or_false] at hm
    rcases hm with rfl | rfl | rfl <;> exact List.cons_ne_nil _ _
  refine ⟨_, hrun, (touch_points_of_gestures hrun gestures_tap htouches htop).2.2 unbroken_tap
    fun o ho => ?_⟩
  obtain ⟨m, -, rfl⟩ := List.mem_map.mp ho
  rfl

end LocalDesktop.Android.App
