/- GID: LocalDesktop/Android/App/TouchStreams
   generality: G
   digest: What a client is told of a finger from the moment it goes down until it is lifted. -/

import LocalDesktop.Android.App.Coordinates

set_option autoImplicit false
set_option relaxedAutoImplicit false

namespace LocalDesktop.Android.App

open Foundation.Transition Smithay Backend.Wayland

/-! The finger and what the client is told. -/

def Moment.touchOf (id : Nat) (m : Moment) : Option (TouchPhase × Point) :=
  match m.callback with
  | .windowEvent (.touch phase location other) => if other = id then some (phase, location) else none
  | _ => none

/-- A finger goes down, moves and is lifted, with a toplevel surface throughout. Other fingers and
other events may come in between. -/
structure Stream (id : Nat) (first : Point) (moves : List Point) (last : Point)
    (stream : List Moment) : Prop where
  touches : observed (Moment.touchOf id) stream =
    (.started, first) :: (moves.map (fun location => (.moved, location)) ++ [(.ended, last)])
  toplevel : ∀ m ∈ stream, m.scene.toplevelSurfaces ≠ []

inductive Told
  | down (location : Point)
  | motion (location : Point)
  | up
  deriving DecidableEq

/-- What an event tells of the touch point of a slot. -/
def toldOf (slot : TouchSlot) : Sent → Option Told
  | .touchDown _ other location _ => if other = slot then some (.down location) else none
  | .touchMotion _ other location _ => if other = slot then some (.motion location) else none
  | .touchUp _ other _ => if other = slot then some .up else none
  | _ => none

def told (slot : TouchSlot) (h : List Moment) : List Told :=
  h.flatMap fun m => m.sent.filterMap (toldOf slot)

/-- A touch frame comes after each event of the slot. -/
def Framed (slot : TouchSlot) (sent : List Sent) : Prop :=
  ∀ before event after, sent = before ++ event :: after → (toldOf slot event).isSome = true →
    ∃ surface, Sent.touchFrame surface ∈ after

/-- The client is told of every location, the one at which the finger is lifted included, and of a
frame after each event. -/
structure DeliveredWhole (id : Nat) (first : Point) (moves : List Point) (last : Point)
    (stream : List Moment) : Prop where
  told : told (slot id) stream = .down first :: (moves.map .motion ++ [.motion last, .up])
  framed : ∀ m ∈ stream, Framed (slot id) m.sent

/-- No other finger comes into the slot. -/
def AloneIn (id : Nat) (stream : List Moment) : Prop :=
  ∀ m ∈ stream, ∀ phase location other, m.callback = .windowEvent (.touch phase location other) →
    slot other = slot id → other = id

variable {scene : Scene} {backend backend' : WaylandBackend} {startTime id : Nat}
  {h stream : List Moment} {m : Moment} {sent : List Sent} {surface : Surface}
  {first last : Point} {moves : List Point} {s : TouchSlot}

/-! What a callback tells a slot. -/

private theorem filterMap_touchPart (slot : TouchSlot) (sent : List Sent) :
    (touchPart sent).filterMap (toldOf slot) = sent.filterMap (toldOf slot) := by
  rw [touchPart, List.filterMap_filter]
  congr 1
  funext event
  cases event <;> rfl

private theorem frame_not_mem_down (t : TouchHandle) (alive : Surface → Bool) (focus : Focus)
    (event : DownEvent) : Sent.touchFrame surface ∉ (t.down alive focus event).2 := by
  rw [TouchHandle.down_sent]
  cases t.downFocus alive focus <;> simp [TouchHandle.innerDown]

private theorem frame_not_mem_up (t : TouchHandle) (alive : Surface → Bool) (event : UpEvent) :
    Sent.touchFrame surface ∉ (t.up alive event).2 := by
  rw [TouchHandle.up_sent, TouchHandle.innerUp]
  split <;> simp

private theorem frame_not_mem_motion (t : TouchHandle) (alive : Surface → Bool) (focus : Focus)
    (event : MotionEvent) : Sent.touchFrame surface ∉ (t.motion alive focus event).2 := by
  simp only [TouchHandle.motion, TouchHandle.innerMotion]
  split <;> simp

private theorem frame_not_sent (hstep : (system startTime).step backend m backend')
    (surface : Surface) :
    Sent.touchFrame surface ∉ m.sent := by
  intro hmem
  have hpart : Sent.touchFrame surface ∈ touchPart m.sent := List.mem_filter.mpr ⟨hmem, rfl⟩
  rw [(touch_respond hstep.2).2] at hpart
  cases hsurface : getSurface m.scene with
  | none =>
    rw [hsurface] at hpart
    cases hpart
  | some top =>
    rw [hsurface, Option.elim_some] at hpart
    unfold touchSent at hpart
    split at hpart
    · exact frame_not_mem_down _ _ _ _ hpart
    · exact frame_not_mem_motion _ _ _ _ hpart
    · exact frame_not_mem_up _ _ _ hpart
    · cases hpart

private theorem told_moment (hsurface : getSurface m.scene = some surface)
    (hstep : (system startTime).step backend m backend') :
    told s [m] = (touchSent m.scene surface backend m.callback).filterMap (toldOf s) := by
  rw [told, List.flatMap_singleton, ← filterMap_touchPart, touchPart_eq hsurface hstep.2]

private theorem told_append (h h' : List Moment) : told s (h ++ h') = told s h ++ told s h' :=
  List.flatMap_append

/-! A touch point in the course of a run. -/

/-- A grab has the focus of the surface that was there when it started. -/
def GrabFocused (t : TouchHandle) : Prop := ∀ grab, t.grab = some grab → grab.startFocus.isSome = true

private theorem GrabFocused.live {t : TouchHandle} {alive : Surface → Bool} {grab : TouchDownGrab}
    (ht : GrabFocused t) (hgrab : t.liveGrab alive = some grab) : grab.startFocus.isSome = true :=
  ht grab (Option.filter_eq_some_iff.mp hgrab).1

private theorem grabFocused (hrun : (system startTime).Run h backend) :
    GrabFocused backend.touch := by
  refine touch_invariant (P := GrabFocused) ?_ ?_ ?_ ?_ hrun
  · exact fun grab hgrab => by cases hgrab
  · intro t alive surface event ht grab hgrab
    simp only [TouchHandle.down] at hgrab
    cases hlive : t.liveGrab alive with
    | some live =>
      have hlast : live.startFocus.isSome = true := ht.live hlive
      simp only [hlive] at hgrab
      cases hgrab
      exact hlast
    | none =>
      simp only [hlive] at hgrab
      cases hgrab
      rfl
  · intro t alive event ht grab hgrab
    simp only [TouchHandle.up] at hgrab
    cases hlive : t.liveGrab alive with
    | some live =>
      have hlast : live.startFocus.isSome = true := ht.live hlive
      simp only [hlive] at hgrab
      split at hgrab
      · cases hgrab
      · cases hgrab
        exact hlast
    | none =>
      simp only [hlive] at hgrab
      cases hgrab
  · intro t alive focus event ht grab hgrab
    exact ht.live hgrab

/-- The touch point of the finger is on a surface. -/
def OnSurface (t : TouchHandle) (id : Nat) (surface : Surface) : Prop :=
  t.focus (slot id) = some ⟨some (surface, 0)⟩

private theorem callback_of_touchOf {phase : TouchPhase} {location : Point}
    (htouch : m.touchOf id = some (phase, location)) :
    m.callback = .windowEvent (.touch phase location id) := by
  unfold Moment.touchOf at htouch
  split at htouch
  · next hcallback =>
    split at htouch
    · next heq =>
      cases htouch
      rw [hcallback, heq]
    · cases htouch
  · cases htouch

private theorem told_cons : told s (m :: h) = told s [m] ++ told s h := told_append [m] h

/-- A touch handle with the same touch point in the slot, and nothing told of it. -/
def QuietIn (s : TouchSlot) (t : TouchHandle) (result : TouchHandle × List Sent) : Prop :=
  result.2.filterMap (toldOf s) = [] ∧ result.1.focus s = t.focus s

private theorem quietIn_down {t : TouchHandle} {alive : Surface → Bool} {focus : Focus}
    {event : DownEvent}
    (hslot : event.slot ≠ s) : QuietIn s t (t.down alive focus event) := by
  rw [QuietIn, TouchHandle.down_sent, TouchHandle.down_focus]
  refine ⟨?_, Function.update_of_ne hslot.symm _ _⟩
  cases t.downFocus alive focus <;> simp [TouchHandle.innerDown, toldOf, hslot]

private theorem quietIn_up {t : TouchHandle} {alive : Surface → Bool} {event : UpEvent}
    (hslot : event.slot ≠ s) : QuietIn s t (t.up alive event) := by
  rw [QuietIn, TouchHandle.up_sent, TouchHandle.up_focus, TouchHandle.innerUp]
  split
  · exact ⟨by simp [toldOf, hslot], Function.update_of_ne hslot.symm _ _⟩
  · exact ⟨rfl, rfl⟩

private theorem quietIn_motion {t : TouchHandle} {alive : Surface → Bool} {focus : Focus}
    {event : MotionEvent} (hslot : event.slot ≠ s) :
    QuietIn s t (t.motion alive focus event) := by
  simp only [TouchHandle.motion, TouchHandle.innerMotion]
  split
  · exact ⟨by simp [toldOf, hslot], rfl⟩
  · exact ⟨rfl, rfl⟩

private theorem told_started (ht : TouchAtOrigin backend.touch) (hgrabs : GrabFocused backend.touch)
    (htop : m.scene.toplevelSurfaces ≠ []) (htouch : m.touchOf id = some (.started, first))
    (hstep : (system startTime).step backend m backend') :
    told (slot id) [m] = [.down first] ∧ ∃ surface, OnSurface backend'.touch id surface := by
  obtain ⟨top, hsurface⟩ := exists_getSurface htop
  obtain ⟨surface, hfocus⟩ : ∃ surface,
      backend.touch.downFocus m.scene.alive (some (top, 0)) = some (surface, 0) := by
    cases hlive : backend.touch.liveGrab m.scene.alive with
    | some grab =>
      obtain ⟨⟨surface, origin⟩, hstart⟩ := Option.isSome_iff_exists.mp (hgrabs.live hlive)
      obtain rfl : origin = 0 := ht.live grab hlive surface origin hstart
      exact ⟨surface, by rw [TouchHandle.downFocus, hlive, Option.elim_some, hstart]⟩
    | none => exact ⟨top, by rw [TouchHandle.downFocus, hlive, Option.elim_none]⟩
  rw [told_moment hsurface hstep, touch_eq hsurface hstep.2, callback_of_touchOf htouch]
  simp only [touchSent, touchAfter, OnSurface, TouchHandle.down_sent, TouchHandle.down_focus, hfocus]
  exact ⟨by simp [TouchHandle.innerDown, toldOf], surface, Function.update_self _ _ _⟩

private theorem told_moved (hon : OnSurface backend.touch id surface)
    (htop : m.scene.toplevelSurfaces ≠ []) (htouch : m.touchOf id = some (.moved, first))
    (hstep : (system startTime).step backend m backend') :
    told (slot id) [m] = [.motion first] ∧ OnSurface backend'.touch id surface := by
  obtain ⟨top, hsurface⟩ := exists_getSurface htop
  rw [told_moment hsurface hstep, OnSurface, touch_eq hsurface hstep.2, callback_of_touchOf htouch]
  rw [OnSurface] at hon
  simp [touchSent, touchAfter, TouchHandle.motion, TouchHandle.innerMotion, hon, toldOf]

private theorem told_ended (hon : OnSurface backend.touch id surface)
    (htop : m.scene.toplevelSurfaces ≠ []) (htouch : m.touchOf id = some (.ended, last))
    (hstep : (system startTime).step backend m backend') : told (slot id) [m] = [.up] := by
  obtain ⟨top, hsurface⟩ := exists_getSurface htop
  rw [told_moment hsurface hstep, callback_of_touchOf htouch]
  rw [OnSurface] at hon
  simp [touchSent, TouchHandle.up_sent, TouchHandle.innerUp, hon, toldOf]

private theorem told_other (htop : m.scene.toplevelSurfaces ≠ []) (halone : AloneIn id [m])
    (htouch : m.touchOf id = none) (hstep : (system startTime).step backend m backend') :
    told (slot id) [m] = [] ∧ backend'.touch.focus (slot id) = backend.touch.focus (slot id) := by
  obtain ⟨top, hsurface⟩ := exists_getSurface htop
  rw [told_moment hsurface hstep, touch_eq hsurface hstep.2]
  cases hcallback : m.callback with
  | resumed => exact ⟨rfl, rfl⟩
  | windowEvent event =>
    cases event with
    | touch phase location other =>
      have hother : slot other ≠ slot id := by
        intro hslot
        have hsame := halone m List.mem_cons_self phase location other hcallback hslot
        simp [Moment.touchOf, hcallback, hsame] at htouch
      cases phase with
      | started => exact quietIn_down hother
      | moved => exact quietIn_motion hother
      | ended => exact quietIn_up hother
      | cancelled => exact ⟨rfl, rfl⟩
    | _ => exact ⟨rfl, rfl⟩

/-! A stream. -/

private theorem AloneIn.left {stream' : List Moment} (halone : AloneIn id (stream ++ stream')) :
    AloneIn id stream := fun m hm => halone m (List.mem_append_left _ hm)

private theorem AloneIn.right {stream' : List Moment} (halone : AloneIn id (stream ++ stream')) :
    AloneIn id stream' := fun m hm => halone m (List.mem_append_right _ hm)

private theorem told_quiet (hpath : Path (system startTime) backend stream backend')
    (htop : ∀ m ∈ stream, m.scene.toplevelSurfaces ≠ []) (halone : AloneIn id stream)
    (hquiet : ∀ m ∈ stream, m.touchOf id = none) : told (slot id) stream = [] := by
  induction hpath with
  | nil => rfl
  | @snoc middle last stream m _ hstep ih =>
    have hlast : m ∈ stream ++ [m] := List.mem_append_right _ List.mem_cons_self
    obtain ⟨htold, -⟩ := told_other (htop m hlast) halone.right (hquiet m hlast) hstep
    rw [told_append, htold, List.append_nil]
    exact ih (fun m hm => htop m (List.mem_append_left _ hm)) halone.left
      fun m hm => hquiet m (List.mem_append_left _ hm)

private theorem told_moves (hpath : Path (system startTime) backend stream backend')
    (hon : OnSurface backend.touch id surface)
    (htop : ∀ m ∈ stream, m.scene.toplevelSurfaces ≠ []) (halone : AloneIn id stream)
    (hmoves : observed (Moment.touchOf id) stream =
      moves.map fun location => (TouchPhase.moved, location)) :
    told (slot id) stream = moves.map .motion ∧ OnSurface backend'.touch id surface := by
  induction hpath generalizing moves with
  | nil =>
    obtain rfl : moves = [] := List.map_eq_nil_iff.mp hmoves.symm
    exact ⟨rfl, hon⟩
  | @snoc middle last stream m _ hstep ih =>
    have htoplast := htop m (List.mem_append_right _ List.mem_cons_self)
    have hbefore := fun {moves} => @ih moves
      (fun m hm => htop m (List.mem_append_left _ hm)) halone.left
    rw [told_append]
    cases htouch : m.touchOf id with
    | none =>
      rw [observed_quiet htouch] at hmoves
      obtain ⟨htold, hon⟩ := hbefore hmoves
      obtain ⟨hnone, hfocus⟩ := told_other htoplast halone.right htouch hstep
      rw [htold, hnone, List.append_nil]
      exact ⟨rfl, hfocus.trans hon⟩
    | some touch =>
      rw [observed_tell htouch] at hmoves
      obtain ⟨former, final, rfl, hformer, hfinal⟩ := List.map_eq_append_iff.mp hmoves.symm
      obtain ⟨location, rfl, rfl⟩ := List.map_eq_singleton_iff.mp hfinal
      obtain ⟨htold, hon⟩ := hbefore hformer.symm
      obtain ⟨hone, hon⟩ := told_moved hon htoplast htouch hstep
      rw [htold, hone, List.map_append]
      exact ⟨rfl, hon⟩

/-- With the slot to itself, the client is told of all but the place where the finger is lifted. -/
private theorem told_stream {pre post : List Moment}
    (hrun : (system startTime).Run (pre ++ stream ++ post) backend)
    (hstream : Stream id first moves last stream) (halone : AloneIn id stream) :
    told (slot id) stream = .down first :: (moves.map .motion ++ [.up]) := by
  obtain ⟨after, hrun, -⟩ := hrun.split
  obtain ⟨before, hpre, hpath⟩ := hrun.split
  obtain ⟨early, down, rest, rfl, hearly, hdown, hrest⟩ :=
    List.filterMap_eq_cons_iff.mp hstream.touches
  obtain ⟨between, late, rfl, hmoves, hlate⟩ := List.filterMap_eq_append_iff.mp hrest
  obtain ⟨still, up, quiet, rfl, hstill, hup, hover⟩ := List.filterMap_eq_cons_iff.mp hlate
  obtain ⟨_, _, hpathEarly, hstepDown, hpath⟩ := hpath.at_event
  obtain ⟨_, hpathBetween, hpath⟩ := hpath.split
  obtain ⟨_, _, hpathStill, hstepUp, hpathOver⟩ := hpath.at_event
  have htop := hstream.toplevel
  simp only [List.forall_mem_append, List.forall_mem_cons] at htop
  obtain ⟨htopEarly, htopDown, htopBetween, htopStill, htopUp, htopOver⟩ := htop
  have hrest := (List.singleton_append ▸ halone.right : AloneIn id ([down] ++ _)).right
  have hlast := (List.singleton_append ▸ hrest.right.right : AloneIn id ([up] ++ _)).right
  have htouch := touchAtOrigin (hpre.append hpathEarly)
  have hgrabs := grabFocused (hpre.append hpathEarly)
  obtain ⟨htoldDown, surface, hon⟩ := told_started htouch hgrabs htopDown hdown hstepDown
  obtain ⟨htoldBetween, hon⟩ := told_moves hpathBetween hon htopBetween hrest.left hmoves
  have hquiet : observed (Moment.touchOf id) still =
      ([] : List Point).map fun location => (TouchPhase.moved, location) :=
    List.filterMap_eq_nil_iff.mpr hstill
  obtain ⟨htoldStill, hon⟩ := told_moves hpathStill hon htopStill hrest.right.left hquiet
  have htoldEarly := told_quiet hpathEarly htopEarly halone.left hearly
  have htoldOver := told_quiet hpathOver htopOver hlast (List.filterMap_eq_nil_iff.mp hover)
  have htoldUp := told_ended hon htopUp hup hstepUp
  rw [told_append, htoldEarly, told_cons, htoldDown, told_append, htoldBetween, told_append,
    htoldStill, told_cons, htoldUp, htoldOver]
  rfl

/-- No touch of a finger is delivered whole: no frame follows it, and where it is lifted the client
is not told. -/
theorem not_delivered_whole {pre post : List Moment}
    (hrun : (system startTime).Run (pre ++ stream ++ post) backend)
    (hstream : Stream id first moves last stream) :
    ¬DeliveredWhole id first moves last stream ∧
      (AloneIn id stream → told (slot id) stream = .down first :: (moves.map .motion ++ [.up])) := by
  refine ⟨fun hwhole => ?_, told_stream hrun hstream⟩
  obtain ⟨after, hrun, -⟩ := hrun.split
  obtain ⟨before, -, hpath⟩ := hrun.split
  have hmem : Told.down first ∈ told (slot id) stream := by
    rw [hwhole.told]
    exact List.mem_cons_self
  obtain ⟨m, hm, hmem⟩ := List.mem_flatMap.mp hmem
  obtain ⟨event, hevent, htold⟩ := List.mem_filterMap.mp hmem
  obtain ⟨former, later, hsplit⟩ := List.append_of_mem hevent
  obtain ⟨surface, hframe⟩ := hwhole.framed m hm former event later hsplit (by rw [htold]; rfl)
  obtain ⟨earlier, others, rfl⟩ := List.append_of_mem hm
  obtain ⟨middle, middle', -, hstep, -⟩ := hpath.at_event
  refine frame_not_sent hstep surface ?_
  rw [hsplit]
  exact List.mem_append_right _ (List.mem_cons_of_mem event hframe)

def swipe : List Moment :=
  [⟨clientAt 1, .windowEvent (.touch .started 0 7),
      [.keyboardEnter 0 ∅, .touchDown 0 (slot 7) (0 - 0) 0]⟩,
    ⟨clientAt 2, .windowEvent (.touch .moved ⟨1, 1⟩ 7), [.touchMotion 0 (slot 7) (⟨1, 1⟩ - 0) 0]⟩,
    ⟨clientAt 3, .windowEvent (.touch .ended ⟨2, 2⟩ 7), [.touchUp 0 (slot 7) 0]⟩]

private theorem stream_swipe : Stream 7 0 [⟨1, 1⟩] ⟨2, 2⟩ swipe := by
  refine ⟨rfl, ?_⟩
  simp [swipe, clientAt]

private theorem run_swipe : ∃ backend,
    (system 0).Run ([⟨clientAt 0, .resumed, []⟩] ++ swipe ++ []) backend := by
  have hmoved := run_touched.snoc (e := ⟨clientAt 2, .windowEvent (.touch .moved ⟨1, 1⟩ 7),
    [.touchMotion 0 (slot 7) (⟨1, 1⟩ - 0) 0]⟩) ⟨Nat.zero_le _, rfl⟩
  have hended := hmoved.snoc (e := ⟨clientAt 3, .windowEvent (.touch .ended ⟨2, 2⟩ 7),
    [.touchUp 0 (slot 7) 0]⟩) ⟨Nat.zero_le _, rfl⟩
  exact ⟨_, hended⟩

theorem not_delivered_whole_on_swipe :
    ¬DeliveredWhole 7 0 [⟨1, 1⟩] ⟨2, 2⟩ swipe ∧
      told (slot 7) swipe = [.down 0, .motion ⟨1, 1⟩, .up] := by
  obtain ⟨backend, hrun⟩ := run_swipe
  obtain ⟨hnot, htold⟩ := not_delivered_whole hrun stream_swipe
  refine ⟨hnot, htold ?_⟩
  intro m hm phase location other hcallback _
  simp only [swipe, List.mem_cons, List.not_mem_nil, or_false] at hm
  rcases hm with rfl | rfl | rfl <;> cases hcallback <;> rfl

/-- The client is not told that the finger was lifted at another place, and gets no frame. -/
theorem swipe_not_delivered_whole :
    ¬∀ (startTime id : Nat) (pre stream post : List Moment) (backend : WaylandBackend)
      (first last : Point) (moves : List Point),
      (system startTime).Run (pre ++ stream ++ post) backend →
        Stream id first moves last stream → DeliveredWhole id first moves last stream := by
  intro hall
  obtain ⟨backend, hrun⟩ := run_swipe
  have hwhole := hall 0 7 _ swipe [] backend 0 ⟨2, 2⟩ [⟨1, 1⟩] hrun stream_swipe
  have htold := hwhole.told
  revert htold
  decide +kernel

end LocalDesktop.Android.App
