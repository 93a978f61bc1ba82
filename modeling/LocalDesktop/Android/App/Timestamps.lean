/- GID: LocalDesktop/Android/App/Timestamps
   generality: G
   digest: The two clocks that the time stamps of the sent events are read from. -/

import LocalDesktop.Android.App.Coordinates
import LocalDesktop.Android.App.TouchPoints

set_option autoImplicit false
set_option relaxedAutoImplicit false

namespace LocalDesktop.Android.App

open Foundation.Transition Smithay Backend.Wayland

/-! The stamps. -/

def ofPointer : Sent → Bool
  | .pointerMotion _ _ _ | .pointerButton _ _ _ _ | .pointerAxis _ _ => true
  | _ => false

/-- The stamp of an event that is sent at this time: the handler reads the time since the start of
the compositor, and the pointer's events carry what `time_msec` makes of the milliseconds of the
monotonic clock. -/
def stamp (startTime now : Nat) (pointer : Bool) : Nat :=
  if pointer then timeMsec (asMillis now) else (now - startTime) / 1000000 % 2 ^ 32

/-- Every stamp is that of its kind. -/
def Stamped (startTime now : Nat) (sent : List Sent) : Prop :=
  ∀ event ∈ sent, ∀ time, event.time = some time → time = stamp startTime now (ofPointer event)

/-- The difference of the stamps is the time between, in milliseconds, up to one. -/
def Agree (now₁ now₂ time₁ time₂ : Nat) : Prop :=
  ∃ elapsed : Int, ((time₂ : Int) - time₁ - elapsed) % 2 ^ 32 = 0 ∧
    |elapsed * 1000000 - ((now₂ : Int) - now₁)| ≤ 1000000

variable {startTime now now₁ now₂ time : Nat} {sent sent' : List Sent} {scene : Scene}
  {backend backend' : WaylandBackend} {h : List Moment} {m : Moment} {k : KeyboardHandle}
  {t : TouchHandle} {p : PointerHandle} {alive : Surface → Bool} {focus : Focus}

private theorem stamped_nil : Stamped startTime now [] := fun _ hevent => by cases hevent

private theorem stamped_single {event : Sent}
    (hevent : ∀ time, event.time = some time → time = stamp startTime now (ofPointer event)) :
    Stamped startTime now [event] := by
  intro other hother
  obtain rfl := List.mem_singleton.mp hother
  exact hevent

private theorem Stamped.append (hsent : Stamped startTime now sent)
    (hsent' : Stamped startTime now sent') :
    Stamped startTime now (sent ++ sent') := by
  intro event hevent
  rcases List.mem_append.mp hevent with hevent | hevent
  · exact hsent event hevent
  · exact hsent' event hevent

private theorem stamped_of_none (hnone : ∀ event ∈ sent, event.time = none) :
    Stamped startTime now sent := by
  intro event hevent time htime
  rw [hnone event hevent] at htime
  cases htime

private theorem stamped_setFocus (k : KeyboardHandle) (focus : Option Surface) :
    Stamped startTime now (k.setFocus focus).2 := by
  apply stamped_of_none
  intro event hevent
  simp only [KeyboardHandle.setFocus] at hevent
  split at hevent
  · split at hevent
    · cases hevent
    · rcases List.mem_pair.mp hevent with rfl | rfl <;> rfl
  · obtain rfl := List.mem_singleton.mp hevent
    rfl
  · obtain rfl := List.mem_singleton.mp hevent
    rfl
  · cases hevent

private theorem stamped_input (k : KeyboardHandle) (keycode : Nat) (state : KeyState)
    (htime : time = stamp startTime now false) :
    Stamped startTime now (k.input keycode state time).2 := by
  simp only [KeyboardHandle.input]
  cases k.focus with
  | none => exact stamped_nil
  | some surface =>
    refine stamped_single fun time' htime' => ?_
    cases htime'
    exact htime

private theorem stamped_down (t : TouchHandle) (focus : Focus) {event : DownEvent}
    (htime : event.time = stamp startTime now false) :
    Stamped startTime now (t.down alive focus event).2 := by
  have hinner : ∀ focus : Focus, Stamped startTime now (t.innerDown focus event).2 := by
    intro focus
    cases focus with
    | none => exact stamped_nil
    | some focus =>
      refine stamped_single fun time' htime' => ?_
      cases htime'
      exact htime
  simp only [TouchHandle.down]
  split <;> exact hinner _

private theorem stamped_up (t : TouchHandle) {event : UpEvent}
    (htime : event.time = stamp startTime now false) :
    Stamped startTime now (t.up alive event).2 := by
  have hinner : Stamped startTime now (t.innerUp event).2 := by
    simp only [TouchHandle.innerUp]
    split
    · refine stamped_single fun time' htime' => ?_
      cases htime'
      exact htime
    · exact stamped_nil
  simp only [TouchHandle.up]
  split <;> exact hinner

private theorem stamped_touchMotion (t : TouchHandle) (focus : Focus) {event : MotionEvent}
    (htime : event.time = stamp startTime now false) :
    Stamped startTime now (t.motion alive focus event).2 := by
  simp only [TouchHandle.motion, TouchHandle.innerMotion]
  split
  · refine stamped_single fun time' htime' => ?_
    cases htime'
    exact htime
  · exact stamped_nil

private theorem stamped_pointerMotion (p : PointerHandle) (focus : Focus) (location : Point)
    (htime : time = stamp startTime now true) :
    Stamped startTime now (p.motion alive focus location time).2 := by
  simp only [PointerHandle.motion, PointerHandle.innerMotion]
  split
  · split
    · refine stamped_single fun time' htime' => ?_
      cases htime'
      exact htime
    · apply stamped_of_none
      intro event hevent
      rcases List.mem_pair.mp hevent with rfl | rfl <;> rfl
  · exact stamped_of_none fun event hevent => List.mem_singleton.mp hevent ▸ rfl
  · exact stamped_of_none fun event hevent => List.mem_singleton.mp hevent ▸ rfl
  · exact stamped_nil

private theorem stamped_toFocus (p : PointerHandle) {event : Surface → Sent}
    (hevent : ∀ surface time, (event surface).time = some time →
      time = stamp startTime now (ofPointer (event surface))) :
    Stamped startTime now (p.toFocus event) := by
  simp only [PointerHandle.toFocus]
  cases p.focus with
  | none => exact stamped_nil
  | some focus => exact stamped_single (hevent focus.1)

private theorem stamped_frame (p : PointerHandle) : Stamped startTime now (p.frame alive).2 :=
  stamped_toFocus p fun _ _ htime => by cases htime

private theorem time_axisFrame (event : WinitMouseWheelEvent) :
    (axisFrame event).time = timeMsec event.time := by
  refine @read_axisFrame_of_kept _ AxisFrame.time ?_ ?_ ?_ ?_ event
  all_goals
    intro axis
    intros
    cases axis <;> rfl

/-- The time that an input event carries is read when it is centralized. -/
def InputEvent.At (now : Nat) : InputEvent → Prop
  | .pointerMotionAbsolute event => event.time = asMillis now
  | .pointerButton event => event.time = asMillis now
  | .pointerAxis event => event.time = asMillis now
  | _ => True

private theorem stamped_handleInput {event : InputEvent} (hevent : InputEvent.At scene.now event)
    (hinput : handleInput scene event backend = some (backend', sent)) :
    Stamped backend.startTime scene.now sent := by
  have helapsed : backend.elapsed scene = stamp backend.startTime scene.now false := rfl
  cases event with
  | keyboard event =>
    cases hinput
    exact stamped_input _ _ _ helapsed
  | touchCancel =>
    cases hinput
    exact stamped_nil
  | touchDown =>
    simp only [handleInput] at hinput
    split at hinput
    · cases hinput
      exact (stamped_setFocus _ _).append (stamped_down _ _ helapsed)
    · cases hinput
      exact stamped_nil
  | touchUp =>
    simp only [handleInput] at hinput
    split at hinput
    · cases hinput
      exact stamped_up _ helapsed
    · cases hinput
      exact stamped_nil
  | touchMotion =>
    simp only [handleInput] at hinput
    split at hinput
    · next surface hsurface =>
      cases hinput
      exact stamped_touchMotion _ (some (surface, 0)) helapsed
    · cases hinput
      exact stamped_nil
  | pointerMotionAbsolute event =>
    have htime : timeMsec event.time = stamp backend.startTime scene.now true :=
      congrArg timeMsec hevent
    simp only [handleInput, Option.bind_eq_bind, Option.bind_eq_some_iff] at hinput
    obtain ⟨location, -, hinput⟩ := hinput
    cases hsurface : getSurface scene with
    | some surface =>
      rw [hsurface] at hinput
      cases hinput
      exact (stamped_pointerMotion _ _ _ htime).append (stamped_frame _)
    | none =>
      rw [hsurface] at hinput
      cases hinput
      exact stamped_nil.append (stamped_frame _)
  | pointerButton event =>
    have htime : timeMsec event.time = stamp backend.startTime scene.now true :=
      congrArg timeMsec hevent
    cases hinput
    refine (Stamped.append ?_ ?_).append (@stamped_frame _ _ scene.alive _)
    · cases getSurface scene with
      | some surface => exact stamped_setFocus _ _
      | none => exact stamped_nil
    · refine stamped_toFocus _ fun surface time htime' => ?_
      cases htime'
      exact htime
  | pointerAxis event =>
    have htime : timeMsec event.time = stamp backend.startTime scene.now true :=
      congrArg timeMsec hevent
    cases hinput
    refine Stamped.append ?_ (@stamped_frame _ _ scene.alive _)
    refine stamped_toFocus _ fun surface time htime' => ?_
    cases htime'
    exact (time_axisFrame event).trans htime

private theorem at_of_centralize {event : WindowEvent} {input : InputEvent}
    (hcentral : centralize scene event backend = some (.input input, backend')) :
    InputEvent.At scene.now input := by
  cases event with
  | keyboardInput event isSynthetic =>
    simp only [centralize] at hcentral
    split at hcentral
    · cases hcentral
      trivial
    · cases hcentral
  | scaleFactorChanged | cursorMoved =>
    simp only [centralize, Option.bind_eq_bind, Option.bind_eq_some_iff] at hcentral
    obtain ⟨size, -, hcentral⟩ := hcentral
    cases hcentral
    all_goals rfl
  | touch phase location id =>
    cases phase with
    | cancelled =>
      cases hcentral
      trivial
    | _ =>
      simp only [centralize, Option.bind_eq_bind, Option.bind_eq_some_iff] at hcentral
      obtain ⟨size, -, hcentral⟩ := hcentral
      cases hcentral
      trivial
  | mouseWheel | mouseInput =>
    cases hcentral
    rfl
  | _ => cases hcentral

private theorem stamped_of_step (hstep : (system startTime).step backend m backend') :
    Stamped backend.startTime m.scene.now m.sent := by
  rcases respond_cases hstep.2 with ⟨-, hsent, -⟩ | ⟨input, middle, hinput, hhandled⟩
  · rw [hsent]
    exact stamped_nil
  · obtain ⟨event, -, hcentral⟩ := centralize_of_inputOf hinput
    have hstart : middle.startTime = backend.startTime := by rw [centralize_eq hcentral]
    rw [← hstart]
    exact stamped_handleInput (at_of_centralize hcentral) hhandled

private theorem stamped_of_run (hrun : (system startTime).Run h backend) (hm : m ∈ h) :
    startTime ≤ m.scene.now ∧ Stamped startTime m.scene.now m.sent := by
  obtain ⟨pre, post, rfl⟩ := List.append_of_mem hm
  obtain ⟨u, v, hpre, hstep, -⟩ := hrun.at_event
  refine ⟨hstep.1, ?_⟩
  rw [← (outputs_eq hpre).2.2]
  exact stamped_of_step hstep

/-! Two events. -/

private theorem agree_of_elapsed (hstart : startTime ≤ now₁) (hle : now₁ ≤ now₂) :
    Agree now₁ now₂ (stamp startTime now₁ false) (stamp startTime now₂ false) := by
  refine ⟨((now₂ - startTime) / 1000000 : Nat) - ((now₁ - startTime) / 1000000 : Nat), ?_, ?_⟩
  · simp only [stamp, Bool.false_eq_true, if_false]
    omega
  · rw [abs_le]
    omega

private theorem seconds_differ {millis : Nat} (hlt : millis < 2 ^ 32) {gap : Int}
    (hlow : 9999 ≤ gap)
    (hhigh : gap ≤ 10001) :
    (((millis + 10000) % 2 ^ 32 / 1000 : Nat) - (millis / 1000 : Nat) - gap : Int) % 2 ^ 32 ≠ 0 := by
  by_cases hwrap : millis + 10000 < 2 ^ 32
  · rw [Nat.mod_eq_of_lt hwrap]
    omega
  · have hrest : (millis + 10000) % 2 ^ 32 = millis + 10000 - 2 ^ 32 := by omega
    rw [hrest]
    omega

private theorem timeMsec_of_lt {millis : Nat} (hlt : millis < 2 ^ 32) :
    timeMsec millis = millis / 1000 :=
  Nat.mod_eq_of_lt (by omega)

private theorem not_agree_of_pointer (startTime now turns : Nat) :
    ¬Agree now (now + (10000 + turns * 2 ^ 32) * 1000000) (stamp startTime now true)
      (stamp startTime (now + (10000 + turns * 2 ^ 32) * 1000000) true) := by
  rintro ⟨elapsed, hmod, habs⟩
  rw [abs_le] at habs
  have hlater : asMillis (now + (10000 + turns * 2 ^ 32) * 1000000) =
      (asMillis now + 10000) % 2 ^ 32 := by
    simp only [asMillis]
    omega
  have hlt : asMillis now < 2 ^ 32 := Nat.mod_lt _ (by decide)
  have hlt' : (asMillis now + 10000) % 2 ^ 32 < 2 ^ 32 := Nat.mod_lt _ (by decide)
  simp only [stamp, if_true, hlater, timeMsec_of_lt hlt, timeMsec_of_lt hlt'] at hmod
  obtain ⟨gap, rfl⟩ : ∃ gap : Int, elapsed = turns * 2 ^ 32 + gap :=
    ⟨elapsed - turns * 2 ^ 32, by ring⟩
  have hlow : 9999 ≤ gap := by
    push_cast at habs
    omega
  have hhigh : gap ≤ 10001 := by
    push_cast at habs
    omega
  apply seconds_differ hlt hlow hhigh
  omega

def click : Callback := .windowEvent (.mouseInput .pressed .left)

private theorem respond_click {focus : Surface × Point}
    (hfocus : backend.pointer.focus = some focus)
    (startTime now : Nat) : ∃ backend', respond (sceneAt now portrait 1) click backend =
      some (backend', [.pointerButton focus.1 0x110 .pressed (stamp startTime now true),
        .pointerFrame focus.1]) ∧ backend'.pointer.focus = some focus := by
  have hclick : respond (sceneAt now portrait 1) click backend =
      some ({ backend with
          pointer := ((backend.pointer.button (fun _ => true) 0x110 .pressed
            (timeMsec (asMillis now))).1.frame fun _ => true).1 },
        (backend.pointer.toFocus fun surface =>
            .pointerButton surface 0x110 .pressed (stamp startTime now true)) ++
          backend.pointer.toFocus fun surface => .pointerFrame surface) := rfl
  simp only [PointerHandle.toFocus, hfocus] at hclick
  exact ⟨_, hclick, hfocus⟩

/-- Two stamped events of a history, in the order of their times, do not agree. -/
def Disagrees (h : List Moment) : Prop :=
  ∃ m₁ ∈ h, ∃ m₂ ∈ h, m₁.scene.now ≤ m₂.scene.now ∧ ∃ event₁ ∈ m₁.sent, ∃ event₂ ∈ m₂.sent,
    ∃ time₁ time₂, event₁.time = some time₁ ∧ event₂.time = some time₂ ∧
      ¬Agree m₁.scene.now m₂.scene.now time₁ time₂

private theorem clicks_disagree (startTime : Nat) (hfocus : backend.pointer.focus.isSome = true) :
    ∃ clicks backend', Path (system startTime) backend clicks backend' ∧ Disagrees clicks := by
  obtain ⟨focus, hfocus⟩ := Option.isSome_iff_exists.mp hfocus
  have hdisagree := not_agree_of_pointer startTime startTime 0
  obtain ⟨middle, hfirst, hmiddle⟩ := respond_click hfocus startTime startTime
  obtain ⟨last, hsecond, -⟩ := respond_click hmiddle startTime
    (startTime + (10000 + 0 * 2 ^ 32) * 1000000)
  refine ⟨[⟨_, _, _⟩, ⟨_, _, _⟩], last, .cons ⟨Nat.le_refl _, hfirst⟩ (.single
    ⟨Nat.le_add_right _ _, hsecond⟩), ?_⟩
  exact ⟨_, List.mem_cons_self, _, List.mem_cons_of_mem _ List.mem_cons_self,
    Nat.le_add_right _ _, _, List.mem_cons_self, _, List.mem_cons_self, _, _, rfl, rfl, hdisagree⟩

/-- In every run the stamped events of keyboard and touch share one millisecond clock. Once the
pointer is on a surface, the run can go on so that the stamped events do not. -/
theorem stamps_agree_unless_pointer (hrun : (system startTime).Run h backend) :
    (∀ m₁ ∈ h, ∀ m₂ ∈ h, m₁.scene.now ≤ m₂.scene.now → ∀ event₁ ∈ m₁.sent, ∀ event₂ ∈ m₂.sent,
      ofPointer event₁ = false → ofPointer event₂ = false →
      ∀ time₁ time₂, event₁.time = some time₁ → event₂.time = some time₂ →
        Agree m₁.scene.now m₂.scene.now time₁ time₂) ∧
    (backend.pointer.focus.isSome = true → ∃ later backend',
      Path (system startTime) backend later backend' ∧ Disagrees later) := by
  refine ⟨?_, clicks_disagree startTime⟩
  intro m₁ hm₁ m₂ hm₂ hle event₁ hevent₁ event₂ hevent₂ hkind₁ hkind₂ time₁ time₂ htime₁ htime₂
  obtain ⟨hstart, hstamped₁⟩ := stamped_of_run hrun hm₁
  obtain ⟨-, hstamped₂⟩ := stamped_of_run hrun hm₂
  rw [hstamped₁ event₁ hevent₁ time₁ htime₁, hstamped₂ event₂ hevent₂ time₂ htime₂, hkind₁, hkind₂]
  exact agree_of_elapsed hstart hle

theorem stamps_agree_in_long_tap : ∃ backend,
    (system 0).Run (touched ++ [⟨clientAt 5000000000, .windowEvent (.touch .ended 0 7),
      [.touchUp 0 (slot 7) 5000]⟩]) backend ∧ Agree 1 5000000000 0 5000 := by
  have hrun := run_touched.snoc (e := ⟨clientAt 5000000000, .windowEvent (.touch .ended 0 7),
    [.touchUp 0 (slot 7) 5000]⟩) ⟨Nat.zero_le _, rfl⟩
  have hdown : ⟨clientAt 1, .windowEvent (.touch .started 0 7),
      [.keyboardEnter 0 ∅, .touchDown 0 (slot 7) (0 - 0) 0]⟩ ∈ touched :=
    List.mem_append_right _ List.mem_cons_self
  exact ⟨_, hrun, (stamps_agree_unless_pointer hrun).1 _ (List.mem_append_left _ hdown) _
    (List.mem_append_right _ List.mem_cons_self) (by decide)
    (.touchDown 0 (slot 7) (0 - 0) 0) (List.mem_cons_of_mem _ List.mem_cons_self)
    (.touchUp 0 (slot 7) 5000) List.mem_cons_self rfl rfl 0 5000 rfl rfl⟩

/-- The pointer is moved onto a surface, and there are two clicks. -/
theorem stamps_disagree_in_two_clicks : ∃ h backend, (system 0).Run h backend ∧ Disagrees h := by
  have hstep : (system 0).step (phone 1) ⟨shown 1, .windowEvent (.cursorMoved center),
      [.pointerEnter 0 (scaledCenter 1 - 0), .pointerFrame 0]⟩
      { phone 1 with pointer := ⟨some (0, 0), scaledCenter 1, none, []⟩ } :=
    ⟨Nat.zero_le _, cursorMoved_center one_pos⟩
  have hmoved := (run_opened 1).snoc hstep
  obtain ⟨clicks, last, hclicks, m₁, hm₁, m₂, hm₂, hdisagree⟩ := @clicks_disagree
    { phone 1 with pointer := ⟨some (0, 0), scaledCenter 1, none, []⟩ } 0 rfl
  exact ⟨_, last, hmoved.append hclicks, m₁, List.mem_append_right _ hm₁, m₂,
    List.mem_append_right _ hm₂, hdisagree⟩

end LocalDesktop.Android.App
