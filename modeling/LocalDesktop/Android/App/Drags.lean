/- GID: LocalDesktop/Android/App/Drags
   generality: G
   digest: The touch points while clients may start drags: when they are the fingers down. -/

import LocalDesktop.Android.App.TouchPoints

/-!
A client that has got a touch may start a drag with its serial, when a redraw
dispatches its requests. The grab of the drag then stands in the place of the
one of the seat: it hears the calls of the touch handle and passes none on. A
drag of the pointer leaves touch alone and is not seen here.
-/

set_option autoImplicit false
set_option relaxedAutoImplicit false

namespace LocalDesktop.Android.App

open Foundation.Transition Smithay Backend.Wayland

structure DnDGrab where
  startFocus : Focus
  startSlot : TouchSlot
  deriving DecidableEq

/-- The backend, and the grab that is there instead of the one of its touch handle. -/
structure WithDrag where
  backend : WaylandBackend
  drag : Option DnDGrab

namespace WithDrag

/-- As with any grab, one whose surface is gone is discarded at the next call. -/
def liveDrag (alive : Surface → Bool) (d : WithDrag) : Option DnDGrab :=
  d.drag.filter fun grab => grab.startFocus.all fun focus => alive focus.1

/-- `start_drag`. With a drag there already, the new one has its start data. -/
def startDrag (d : WithDrag) : WithDrag :=
  match d.backend.touch.grab with
  | some grab =>
    ⟨{ d.backend with touch := { d.backend.touch with grab := none } },
      some ⟨grab.startFocus, grab.startSlot⟩⟩
  | none => d

end WithDrag

/-- The call of the touch handle that a callback comes to. -/
def touchCall (scene : Scene) : Callback → Option (TouchPhase × TouchSlot)
  | .windowEvent (.touch .cancelled _ _) => none
  | .windowEvent (.touch phase _ id) => (getSurface scene).map fun _ => (phase, slot id)
  | _ => none

/-- The grab ends with the finger that the drag was started with. -/
def DnDGrab.after (grab : DnDGrab) : TouchPhase × TouchSlot → Option DnDGrab
  | (.ended, slot) => if slot = grab.startSlot then none else some grab
  | _ => some grab

def respondWithDrag (scene : Scene) (callback : Callback) (startsDrag : Bool) (d : WithDrag) :
    Option (WithDrag × List Sent) :=
  (respond scene callback d.backend).map fun (backend, sent) =>
    match touchCall scene callback with
    | none =>
      let d' : WithDrag := ⟨backend, d.drag⟩
      (if startsDrag then d'.startDrag else d', sent)
    | some call =>
      match d.liveDrag scene.alive with
      | none => (⟨backend, none⟩, sent)
      | some grab =>
        (⟨{ backend with touch := d.backend.touch }, grab.after call⟩,
          sent.filter fun event => !ofTouch event)

/-- A moment, and whether a client's drag is granted in it. -/
structure Happening where
  moment : Moment
  startsDrag : Bool

def dragging (startTime : Nat) : System WithDrag Happening where
  start := ⟨.build startTime, none⟩
  step d o d' := startTime ≤ o.moment.scene.now ∧
    (o.startsDrag = true → o.moment.callback = .windowEvent .redrawRequested) ∧
    respondWithDrag o.moment.scene o.moment.callback o.startsDrag d = some (d', o.moment.sent)

def moments (h : List Happening) : List Moment := h.map Happening.moment

/-- The touch points are the fingers, and with no finger down there is no grab of either kind. -/
structure MatchesWithDrag (held : List Nat) (d : WithDrag) : Prop where
  touch : Matches held d.backend.touch
  drag : held = [] → d.drag = none

/-- No finger is cancelled, none goes down in the slot of another one, and none goes down or up
during a drag. -/
def SafeHappening (held : List Nat) (d : WithDrag) (o : Happening) : Prop :=
  ∀ touch, o.moment.finger = some touch → SafeTouch held touch ∧
    (touch.1 ≠ .moved → d.liveDrag o.moment.scene.alive = none)

def SafeWithDrag (startTime : Nat) (h : List Happening) : Prop :=
  ∀ pre o post d, h = pre ++ o :: post → (dragging startTime).Run pre d →
    SafeHappening (fingers (moments pre)) d o

/-- A drag is there only while a finger is down. -/
structure CountedWithDrag (held : List Nat) (d : WithDrag) : Prop where
  counted : Counted held d.backend.touch
  drag : held = [] → d.drag = none

variable {startTime id : Nat} {scene : Scene} {callback : Callback} {startsDrag : Bool}
  {sent : List Sent} {held : List Nat} {h pre post : List Happening} {o : Happening}
  {d d' : WithDrag} {touch : TouchPhase × Nat} {surface : Surface} {grab : DnDGrab}

private theorem moments_snoc : moments (h ++ [o]) = moments h ++ [o.moment] := List.map_append

/-! What one callback does to the touch points. -/

private theorem touchCall_of_quiet (hfinger : (⟨scene, callback, sent⟩ : Moment).finger = none) :
    touchCall scene callback = none := by
  cases callback with
  | resumed => rfl
  | windowEvent event =>
    cases event with
    | touch => cases hfinger
    | _ => rfl

private theorem touchCall_of_finger {phase : TouchPhase}
    (hsurface : getSurface scene = some surface)
    (hfinger : (⟨scene, callback, sent⟩ : Moment).finger = some (phase, id))
    (hphase : phase ≠ .cancelled) : touchCall scene callback = some (phase, slot id) := by
  obtain ⟨location, rfl⟩ := finger_eq hfinger
  cases phase with
  | cancelled => exact absurd rfl hphase
  | _ => simp [touchCall, hsurface]

private theorem respond_quiet (hsurface : getSurface scene = some surface)
    (hcall : touchCall scene callback = none)
    (hstep : respondWithDrag scene callback startsDrag d = some (d', sent)) :
    ∃ backend, backend.touch = touchAfter scene surface d.backend callback ∧
      d' = if startsDrag then WithDrag.startDrag ⟨backend, d.drag⟩ else ⟨backend, d.drag⟩ := by
  obtain ⟨⟨backend, sent'⟩, hrespond, hstep⟩ := Option.map_eq_some_iff.mp hstep
  simp only [hcall, Prod.mk.injEq] at hstep
  exact ⟨backend, touch_eq hsurface hrespond, hstep.1.symm⟩

private theorem respond_free (hsurface : getSurface scene = some surface)
    {call : TouchPhase × TouchSlot} (hcall : touchCall scene callback = some call)
    (hlive : d.liveDrag scene.alive = none)
    (hstep : respondWithDrag scene callback startsDrag d = some (d', sent)) :
    d'.backend.touch = touchAfter scene surface d.backend callback ∧ d'.drag = none := by
  obtain ⟨⟨backend, sent'⟩, hrespond, hstep⟩ := Option.map_eq_some_iff.mp hstep
  simp only [hcall, hlive, Prod.mk.injEq] at hstep
  obtain ⟨rfl, -⟩ := hstep
  exact ⟨touch_eq hsurface hrespond, rfl⟩

/-- During a drag the touch handle does not hear of a touch. -/
private theorem respond_dragged {call : TouchPhase × TouchSlot}
    (hcall : touchCall scene callback = some call) (hlive : d.liveDrag scene.alive = some grab)
    (hstep : respondWithDrag scene callback startsDrag d = some (d', sent)) :
    d'.backend.touch = d.backend.touch ∧ d'.drag = grab.after call := by
  obtain ⟨⟨backend, sent'⟩, -, hstep⟩ := Option.map_eq_some_iff.mp hstep
  simp only [hcall, hlive, Prod.mk.injEq] at hstep
  obtain ⟨rfl, -⟩ := hstep
  exact ⟨rfl, rfl⟩

private theorem CountedWithDrag.startDrag (hd : CountedWithDrag held d) :
    CountedWithDrag held d.startDrag := by
  rw [WithDrag.startDrag]
  split
  · next grab hgrab =>
    refine ⟨⟨⟨hd.counted.slots, hd.counted.apart, fun _ => rfl⟩, fun _ hnone => by cases hnone⟩,
      fun hnil => ?_⟩
    rw [hd.counted.grab hnil] at hgrab
    cases hgrab
  · exact hd

/-! A run in which no drag is started. -/

private theorem drag_of_respond (hdrag : d.drag = none)
    (hstep : respondWithDrag scene callback false d = some (d', sent)) : d'.drag = none := by
  obtain ⟨⟨backend, sent'⟩, -, hstep⟩ := Option.map_eq_some_iff.mp hstep
  have hlive : d.liveDrag scene.alive = none := by rw [WithDrag.liveDrag, hdrag, Option.filter_none]
  cases hcall : touchCall scene callback with
  | none =>
    simp only [hcall, Prod.mk.injEq] at hstep
    obtain ⟨rfl, -⟩ := hstep
    exact hdrag
  | some call =>
    simp only [hcall, hlive, Prod.mk.injEq] at hstep
    obtain ⟨rfl, -⟩ := hstep
    rfl

private theorem drag_eq_none (hrun : (dragging startTime).Run h d)
    (hnone : ∀ o ∈ h, o.startsDrag = false) : d.drag = none := by
  refine hrun.invariant (I := fun h d => (∀ o ∈ h, o.startsDrag = false) → d.drag = none)
    (fun _ => rfl) ?_ hnone
  rintro h d ⟨m, startsDrag⟩ d' - ih ⟨-, -, hstep⟩ hnone
  obtain rfl : startsDrag = false := hnone _ (List.mem_append_right _ List.mem_cons_self)
  exact drag_of_respond (ih fun o ho => hnone o (List.mem_append_left _ ho)) hstep

theorem safeWithDrag_of_undragged (hnone : ∀ o ∈ h, o.startsDrag = false)
    (hsafe : ∀ pre o post touch, h = pre ++ o :: post → o.moment.finger = some touch →
      SafeTouch (fingers (moments pre)) touch) : SafeWithDrag startTime h := by
  rintro pre o post d rfl hpre touch hfinger
  refine ⟨hsafe pre o post touch rfl hfinger, fun _ => ?_⟩
  have hdrag := drag_eq_none hpre fun o ho => hnone o (List.mem_append_left _ ho)
  rw [WithDrag.liveDrag, hdrag, Option.filter_none]

def undragged (m : Moment) : Happening := ⟨m, false⟩

theorem moments_undragged (h : List Moment) : moments (h.map undragged) = h := by
  rw [moments, List.map_map]
  exact List.map_id h

/-- A run of the app is one in which no client starts a drag. -/
theorem run_undragged {h : List Moment} {backend : WaylandBackend}
    (hrun : (system startTime).Run h backend) :
    (dragging startTime).Run (h.map undragged) ⟨backend, none⟩ := by
  refine hrun.invariant (I := fun h backend =>
    (dragging startTime).Run (h.map undragged) ⟨backend, none⟩) (.nil _) ?_
  rintro h backend m backend' - ih ⟨hnow, hstep⟩
  rw [List.map_append]
  have hrespond : respondWithDrag m.scene m.callback false ⟨backend, none⟩ =
      some (⟨backend', none⟩, m.sent) := by
    rw [respondWithDrag, hstep, Option.map_some]
    cases touchCall m.scene m.callback <;> rfl
  exact ih.snoc ⟨hnow, fun hdrag => absurd hdrag Bool.false_ne_true, hrespond⟩

/-! A run. -/

private theorem CountedWithDrag.step (hd : CountedWithDrag held d) (hnodup : held.Nodup)
    (htop : o.moment.scene.toplevelSurfaces ≠ [])
    (hproper : ∀ touch, o.moment.finger = some touch → ProperTouch held touch)
    (hsafe : SafeHappening held d o) (hstep : (dragging startTime).step d o d') :
    CountedWithDrag (o.moment.finger.elim held (track held)) d' := by
  obtain ⟨⟨scene, callback, sent⟩, startsDrag⟩ := o
  obtain ⟨-, -, hstep⟩ := hstep
  obtain ⟨surface, hsurface⟩ := exists_getSurface htop
  cases hfinger : (⟨scene, callback, sent⟩ : Moment).finger with
  | none =>
    obtain ⟨backend, htouch, rfl⟩ := respond_quiet hsurface (touchCall_of_quiet hfinger) hstep
    rw [touchAfter_of_quiet hfinger] at htouch
    have hkept : CountedWithDrag held ⟨backend, d.drag⟩ := ⟨htouch ▸ hd.counted, hd.drag⟩
    simp only [Option.elim_none]
    split
    · exact hkept.startDrag
    · exact hkept
  | some touch =>
    obtain ⟨phase, id⟩ := touch
    obtain ⟨hslot, hundragged⟩ := hsafe _ hfinger
    have hphase : phase ≠ .cancelled := by
      rintro rfl
      exact hslot
    have hcall := touchCall_of_finger hsurface hfinger hphase
    simp only [Option.elim_some]
    cases hlive : d.liveDrag scene.alive with
    | none =>
      obtain ⟨htouch, hnone⟩ := respond_free hsurface hcall hlive hstep
      refine ⟨?_, fun _ => hnone⟩
      rw [htouch]
      exact counted_touchAfter hd.counted hnodup hfinger (hproper _ hfinger) hslot
    | some grab =>
      -- Only a move is left, and the drag takes it.
      obtain rfl : phase = .moved := by
        by_contra hother
        rw [show d.liveDrag scene.alive = none from hundragged hother] at hlive
        cases hlive
      have hmem : id ∈ held := hproper _ hfinger
      obtain ⟨htouch, -⟩ := respond_dragged hcall hlive hstep
      refine ⟨htouch ▸ hd.counted, fun hnil => ?_⟩
      rw [show held = [] from hnil] at hmem
      cases hmem

private theorem fingers_moments_snoc :
    fingers (moments (h ++ [o])) =
      o.moment.finger.elim (fingers (moments h)) (track (fingers (moments h))) := by
  rw [moments_snoc]
  cases hfinger : o.moment.finger with
  | none => exact fingers_quiet hfinger
  | some touch => exact fingers_snoc hfinger

theorem countedWithDrag (hrun : (dragging startTime).Run h d) (hproper : Proper (moments h))
    (hsafe : SafeWithDrag startTime h) : CountedWithDrag (fingers (moments h)) d := by
  refine hrun.invariant (I := fun h d => Proper (moments h) → SafeWithDrag startTime h →
    CountedWithDrag (fingers (moments h)) d) ?_ ?_ hproper hsafe
  · intro _ _
    exact ⟨⟨⟨by simp [moments, fingers, observed, TouchHandle.focused, dragging,
      WaylandBackend.build, TouchHandle.new], by simp [moments, fingers, observed], fun _ => rfl⟩,
      fun _ hgrab => by cases hgrab⟩, fun _ => rfl⟩
  · intro h d o d' hrun ih hstep hproper hsafe
    rw [moments_snoc] at hproper
    have hbefore : SafeWithDrag startTime h := by
      rintro pre o' post d rfl hpre
      exact hsafe pre o' (post ++ [o]) d (by simp) hpre
    obtain ⟨htop, htouch⟩ := AtEvery.last hproper
    rw [fingers_moments_snoc]
    exact (ih (AtEvery.before hproper) hbefore).step (nodup_fingers (AtEvery.before hproper)) htop
      htouch (hsafe h o [] d rfl hrun) hstep

private theorem Matches.not_kept {t t' : TouchHandle} (ht : Matches held t) (hnodup : held.Nodup)
    (hmem : id ∈ held) (ht' : Matches (held.erase id) t') : t'.focus ≠ t.focus := by
  intro hkept
  have hfocused : t.focused (slot id) = true := (ht.slots _).mpr ⟨id, hmem, rfl⟩
  rw [TouchHandle.focused, ← hkept, ← TouchHandle.focused, ht'.slots] at hfocused
  obtain ⟨other, hother, hsame⟩ := hfocused
  obtain rfl := ht.apart other (List.mem_of_mem_erase hother) id hmem hsame
  exact ((hnodup.mem_erase_iff).mp hother).1 rfl

private theorem focus_startDrag : d.startDrag.backend.touch.focus = d.backend.touch.focus := by
  rw [WithDrag.startDrag]
  split <;> rfl

/-- Where the touch points are the fingers before and after a moment, the moment was safe. -/
private theorem safe_of_matches (hd : MatchesWithDrag held d) (hnodup : held.Nodup)
    (htop : o.moment.scene.toplevelSurfaces ≠ [])
    (hproper : ∀ touch, o.moment.finger = some touch → ProperTouch held touch)
    (hstep : (dragging startTime).step d o d')
    (hd' : MatchesWithDrag (o.moment.finger.elim held (track held)) d') :
    SafeHappening held d o := by
  obtain ⟨⟨scene, callback, sent⟩, startsDrag⟩ := o
  obtain ⟨-, -, hstep⟩ := hstep
  obtain ⟨surface, hsurface⟩ := exists_getSurface htop
  rintro ⟨phase, id⟩ hfinger
  have htouch : ProperTouch held (phase, id) := hproper _ hfinger
  have hafter : Matches (track held (phase, id)) d'.backend.touch := by
    have hmatches := hd'.touch
    rwa [hfinger] at hmatches
  have hdragged : ∀ grab, phase ≠ .cancelled → d.liveDrag scene.alive = some grab →
      d'.backend.touch = d.backend.touch := fun grab hphase hlive =>
    (respond_dragged (touchCall_of_finger hsurface hfinger hphase) hlive hstep).1
  cases phase with
  | moved => exact ⟨trivial, fun hmoved => absurd rfl hmoved⟩
  | cancelled =>
    obtain ⟨location, rfl⟩ := finger_eq hfinger
    obtain ⟨backend, hkept, rfl⟩ := respond_quiet hsurface rfl hstep
    refine absurd ?_ (hd.touch.not_kept hnodup htouch hafter)
    rw [show d.backend.touch = backend.touch from hkept.symm]
    split
    · exact focus_startDrag
    · rfl
  | started =>
    have hslots : SafeTouch held (.started, id) := by
      intro other hother hsame
      have heq := hafter.apart other (List.mem_cons_of_mem id hother) id List.mem_cons_self hsame
      exact htouch (heq ▸ hother)
    refine ⟨hslots, fun _ => Option.eq_none_iff_forall_ne_some.mpr fun grab hlive => ?_⟩
    have hfocused : d'.backend.touch.focused (slot id) = true :=
      (hafter.slots _).mpr ⟨id, List.mem_cons_self, rfl⟩
    rw [hdragged grab (by decide) hlive, hd.touch.slots] at hfocused
    obtain ⟨other, hother, hsame⟩ := hfocused
    exact hslots other hother hsame
  | ended =>
    refine ⟨trivial, fun _ => Option.eq_none_iff_forall_ne_some.mpr fun grab hlive => ?_⟩
    refine hd.touch.not_kept hnodup htouch hafter ?_
    rw [hdragged grab (by decide) hlive]

private theorem dragging_unique (hrun : (dragging startTime).Run h d)
    (hrun' : (dragging startTime).Run h d') : d = d' := by
  refine hrun.unique ?_ hrun'
  rintro d o e e' ⟨-, -, hstep⟩ ⟨-, -, hstep'⟩
  exact congrArg Prod.fst (Option.some.inj (hstep.symm.trans hstep'))

/-- At every moment of a well-formed sequence the touch points are the fingers that are down, if
and only if no finger was cancelled, none went down in the slot of another one, and none went down
or up during a drag. -/
theorem touch_points_match_iff (hrun : (dragging startTime).Run h d)
    (hproper : Proper (moments h)) :
    (∀ pre post middle, h = pre ++ post → (dragging startTime).Run pre middle →
      MatchesWithDrag (fingers (moments pre)) middle) ↔ SafeWithDrag startTime h := by
  constructor
  · rintro hall pre o post before rfl hpre
    obtain ⟨u, after, hu, hstep, -⟩ := hrun.at_event
    obtain rfl := dragging_unique hpre hu
    have hafter := hall (pre ++ [o]) post after (by simp) (hpre.snoc hstep)
    rw [fingers_moments_snoc] at hafter
    have hsplit : moments (pre ++ o :: post) = moments pre ++ o.moment :: moments post :=
      List.map_append
    rw [hsplit] at hproper
    obtain ⟨htop, htouch⟩ := hproper _ _ _ rfl
    exact safe_of_matches (hall pre (o :: post) before rfl hpre)
      (nodup_fingers (AtEvery.before hproper)) htop htouch hstep hafter
  · rintro hsafe pre post middle rfl hpre
    have hsplit : moments (pre ++ post) = moments pre ++ moments post := List.map_append
    rw [hsplit] at hproper
    have hbefore : SafeWithDrag startTime pre := by
      rintro early o late d rfl hearly
      exact hsafe early o (late ++ post) d (by simp) hearly
    have hcounted := countedWithDrag hpre (AtEvery.before hproper) hbefore
    exact ⟨hcounted.counted.toMatches, hcounted.drag⟩

def tapped : List Moment :=
  touched ++ [⟨clientAt 2, .windowEvent (.touch .ended 0 7), [.touchUp 0 (slot 7) 0]⟩]

private theorem proper_tapped : Proper tapped :=
  proper_touched.snoc ⟨by simp [clientAt], fun _ hfinger => by
    cases hfinger
    exact mem_touched⟩

theorem touch_points_match_after_tap : ∃ backend,
    (dragging 0).Run (tapped.map undragged) ⟨backend, none⟩ ∧
      MatchesWithDrag [] ⟨backend, none⟩ := by
  have hrun := run_undragged (run_touched.snoc (e := ⟨clientAt 2, .windowEvent (.touch .ended 0 7),
    [.touchUp 0 (slot 7) 0]⟩) ⟨Nat.zero_le _, rfl⟩)
  refine ⟨_, hrun, ?_⟩
  have hproper : Proper (moments (tapped.map undragged)) := (moments_undragged tapped) ▸ proper_tapped
  refine (touch_points_match_iff hrun hproper).mpr ?_ _ [] _ (List.append_nil _).symm hrun
  have hsafe : AtEvery (fun pre m => ∀ touch, m.finger = some touch →
      SafeTouch (fingers pre) touch) tapped := by
    refine .snoc (.snoc (.snoc .nil fun _ hfinger => by cases hfinger) fun _ hfinger => ?_)
      fun _ hfinger => ?_
    · cases hfinger
      exact fun _ hother => by cases hother
    · cases hfinger
      trivial
  have hnone : ∀ o ∈ tapped.map undragged, o.startsDrag = false := by
    intro o ho
    obtain ⟨m, -, rfl⟩ := List.mem_map.mp ho
    rfl
  refine safeWithDrag_of_undragged hnone fun pre o post touch hsplit hfinger => ?_
  have hmoments := congrArg moments hsplit
  rw [moments_undragged, moments, List.map_append, List.map_cons] at hmoments
  exact hsafe _ _ _ hmoments touch hfinger

/-- Finger 7 is cancelled: no finger is down, but its slot keeps the focus, and the grab stays. Or a
drag is started with it, and its slot keeps the focus when it goes up. -/
theorem touch_point_stuck_after_cancel :
    (∃ h d, (dragging 0).Run h d ∧ Proper (moments h) ∧ fingers (moments h) = [] ∧
      d.backend.touch.focused (slot 7) = true ∧ d.backend.touch.grab.isSome = true) ∧
    ∃ h d, (dragging 0).Run h d ∧ Proper (moments h) ∧ fingers (moments h) = [] ∧
      d.backend.touch.focused (slot 7) = true := by
  constructor
  · refine ⟨_, _, run_undragged (run_touched.snoc (e := ⟨clientAt 2,
      .windowEvent (.touch .cancelled 0 7), []⟩) ⟨Nat.zero_le _, rfl⟩), ?_, rfl, ?_, rfl⟩
    · rw [moments_undragged]
      refine proper_touched.snoc ⟨by simp [clientAt], fun _ hfinger => ?_⟩
      cases hfinger
      exact mem_touched
    · simp [touchedBackend, TouchHandle.focused]
  · have hdrag : (dragging 0).step ⟨touchedBackend, none⟩
        ⟨⟨clientAt 2, .windowEvent .redrawRequested, []⟩, true⟩
        (WithDrag.startDrag ⟨touchedBackend, none⟩) := ⟨Nat.zero_le _, fun _ => rfl, rfl⟩
    have hup : (dragging 0).step (WithDrag.startDrag ⟨touchedBackend, none⟩)
        ⟨⟨clientAt 3, .windowEvent (.touch .ended 0 7), []⟩, false⟩
        { WithDrag.startDrag ⟨touchedBackend, none⟩ with drag := none } :=
      ⟨Nat.zero_le _, fun hdrag => absurd hdrag Bool.false_ne_true, rfl⟩
    refine ⟨_, _, ((run_undragged run_touched).snoc hdrag).snoc hup, ?_, rfl, ?_⟩
    · rw [moments_snoc, moments_snoc, moments_undragged]
      refine (proper_touched.snoc ⟨by simp [clientAt], fun _ hfinger => by cases hfinger⟩).snoc
        ⟨by simp [clientAt], fun _ hfinger => ?_⟩
      cases hfinger
      exact mem_touched
    · simp [WithDrag.startDrag, touchedBackend, TouchHandle.focused]

end LocalDesktop.Android.App
