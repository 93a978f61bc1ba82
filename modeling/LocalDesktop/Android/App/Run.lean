/- GID: LocalDesktop/Android/App/Run
   generality: G
   digest: The callbacks of the app with the Wayland backend, and the outputs they leave mapped. -/

import LocalDesktop.Android.Backend.Wayland.EventHandler
import LocalDesktop.Foundation.Transition

set_option autoImplicit false
set_option relaxedAutoImplicit false

namespace LocalDesktop.Android.App

open Foundation.Transition Smithay Backend.Wayland

/-- `bind` makes a new window: its size and scale are those of the scene. The output is a new
object, and the outputs of earlier calls stay mapped. -/
def resumed (scene : Scene) (backend : WaylandBackend) : WaylandBackend :=
  let size := scene.innerSize
  let output := (Output.new backend.space.outputs.length).changeCurrentState
    (some ⟨size, 60000⟩) (some (.fractional scene.scaleFactor))
  { backend with
    graphicRenderer := true
    size := size
    space := backend.space.mapOutput output (0, 0)
    output := some output }

def windowEvent (scene : Scene) (event : WindowEvent) (backend : WaylandBackend) :
    Option (WaylandBackend × List Sent) := do
  let (event, backend) ← centralize scene event backend
  handle scene event backend

inductive Callback
  | resumed
  | windowEvent (event : WindowEvent)
  deriving DecidableEq

def respond (scene : Scene) (callback : Callback) (backend : WaylandBackend) :
    Option (WaylandBackend × List Sent) :=
  match callback with
  | .resumed => if scene.works then some (resumed scene backend, []) else none
  | .windowEvent event => windowEvent scene event backend

/-- A callback, what it finds and what it sends. -/
structure Moment where
  scene : Scene
  callback : Callback
  sent : List Sent

/-- The app calls nothing before it starts; a callback that panics is its last. -/
def system (startTime : Nat) : System WaylandBackend Moment where
  start := .build startTime
  step backend m backend' :=
    startTime ≤ m.scene.now ∧ respond m.scene m.callback backend = some (backend', m.sent)

variable {scene : Scene} {backend backend' : WaylandBackend} {startTime : Nat} {h : List Moment}
  {m : Moment}

theorem resumed_of_respond {sent : List Sent}
    (hstep : respond scene .resumed backend = some (backend', sent)) :
    scene.works = true ∧ backend' = resumed scene backend ∧ sent = [] := by
  simp only [respond, Option.ite_none_right_eq_some] at hstep
  obtain ⟨hworks, hstep⟩ := hstep
  cases hstep
  exact ⟨hworks, rfl, rfl⟩

/-! What the window events leave alone. -/

theorem centralize_eq {event : WindowEvent} {centralized : CentralizedEvent}
    (hcentral : centralize scene event backend = some (centralized, backend')) :
    backend' = { backend with
      scaleFactor := backend'.scaleFactor, keyCounter := backend'.keyCounter } := by
  cases event with
  | keyboardInput event isSynthetic =>
    simp only [centralize] at hcentral
    split at hcentral
    · cases hcentral
      rfl
    · cases hcentral
      rfl
  | scaleFactorChanged | cursorMoved =>
    simp only [centralize, Option.bind_eq_bind, Option.bind_eq_some_iff] at hcentral
    obtain ⟨size, -, hcentral⟩ := hcentral
    cases hcentral
    rfl
  | touch phase location id =>
    cases phase with
    | cancelled =>
      cases hcentral
      rfl
    | _ =>
      simp only [centralize, Option.bind_eq_bind, Option.bind_eq_some_iff] at hcentral
      obtain ⟨size, -, hcentral⟩ := hcentral
      cases hcentral
      rfl
  | _ =>
    cases hcentral
    rfl

theorem handleInput_eq {event : InputEvent} {sent : List Sent}
    (hinput : handleInput scene event backend = some (backend', sent)) :
    backend' = { backend with
      keyboard := backend'.keyboard, touch := backend'.touch, pointer := backend'.pointer } := by
  cases event with
  | touchDown | touchUp | touchMotion =>
    simp only [handleInput] at hinput
    split at hinput
    · cases hinput
      rfl
    · cases hinput
      rfl
  | pointerMotionAbsolute =>
    simp only [handleInput, Option.bind_eq_bind, Option.bind_eq_some_iff] at hinput
    obtain ⟨location, -, hinput⟩ := hinput
    cases hinput
    rfl
  | _ =>
    cases hinput
    rfl

theorem handle_eq {event : CentralizedEvent} {sent : List Sent}
    (hhandle : handle scene event backend = some (backend', sent)) :
    backend' = { backend with
      keyboard := backend'.keyboard, touch := backend'.touch, pointer := backend'.pointer } := by
  cases event with
  | input event => exact handleInput_eq hhandle
  | redraw =>
    simp only [handle] at hhandle
    split at hhandle
    · cases hhandle
      rfl
    · cases hhandle
  | _ =>
    cases hhandle
    rfl

def inputOf (scene : Scene) (backend : WaylandBackend) :
    Callback → Option (InputEvent × WaylandBackend)
  | .resumed => none
  | .windowEvent event => (centralize scene event backend).bind fun
    | (.input input, middle) => some (input, middle)
    | _ => none

structure SameSeat (backend backend' : WaylandBackend) : Prop where
  keyboard : backend'.keyboard = backend.keyboard
  touch : backend'.touch = backend.touch
  pointer : backend'.pointer = backend.pointer

theorem centralize_of_inputOf {callback : Callback} {input : InputEvent}
    (hinput : inputOf scene backend callback = some (input, backend')) :
    ∃ event, callback = .windowEvent event ∧
      centralize scene event backend = some (.input input, backend') := by
  cases callback with
  | resumed => cases hinput
  | windowEvent event =>
    obtain ⟨⟨centralized, middle⟩, hcentral, hinput⟩ := Option.bind_eq_some_iff.mp hinput
    cases centralized with
    | input input =>
      cases hinput
      exact ⟨event, rfl, hcentral⟩
    | _ => cases hinput

theorem sameSeat_of_inputOf {callback : Callback} {input : InputEvent}
    (hinput : inputOf scene backend callback = some (input, backend')) :
    SameSeat backend backend' := by
  obtain ⟨event, -, hcentral⟩ := centralize_of_inputOf hinput
  rw [centralize_eq hcentral]
  exact ⟨rfl, rfl, rfl⟩

/-- A callback without an input event sends nothing; the others do what is done with theirs. -/
theorem respond_cases {callback : Callback} {sent : List Sent}
    (hstep : respond scene callback backend = some (backend', sent)) :
    (inputOf scene backend callback = none ∧ sent = [] ∧ SameSeat backend backend') ∨
      ∃ input middle, inputOf scene backend callback = some (input, middle) ∧
        handleInput scene input middle = some (backend', sent) := by
  cases callback with
  | resumed =>
    obtain ⟨-, rfl, rfl⟩ := resumed_of_respond hstep
    exact .inl ⟨rfl, rfl, rfl, rfl, rfl⟩
  | windowEvent event =>
    simp only [respond, windowEvent, Option.bind_eq_bind, Option.bind_eq_some_iff] at hstep
    obtain ⟨⟨centralized, middle⟩, hcentral, hhandle⟩ := hstep
    have hseat : SameSeat backend middle := by
      rw [centralize_eq hcentral]
      exact ⟨rfl, rfl, rfl⟩
    cases centralized with
    | input input => exact .inr ⟨input, middle, by rw [inputOf, hcentral, Option.bind_some], hhandle⟩
    | redraw =>
      simp only [handle] at hhandle
      split at hhandle
      · cases hhandle
        exact .inl ⟨by rw [inputOf, hcentral, Option.bind_some], rfl, hseat⟩
      · cases hhandle
    | _ =>
      cases hhandle
      exact .inl ⟨by rw [inputOf, hcentral, Option.bind_some], rfl, hseat⟩

/-- A window event changes neither the outputs nor the configured size. -/
structure Kept (backend backend' : WaylandBackend) : Prop where
  space : backend'.space = backend.space
  size : backend'.size = backend.size
  startTime : backend'.startTime = backend.startTime

private theorem kept_of_windowEvent {event : WindowEvent} {sent : List Sent}
    (hevent : windowEvent scene event backend = some (backend', sent)) : Kept backend backend' := by
  simp only [windowEvent, Option.bind_eq_bind, Option.bind_eq_some_iff] at hevent
  obtain ⟨⟨centralized, middle⟩, hcentral, hhandle⟩ := hevent
  have hmiddle := centralize_eq hcentral
  have hend := handle_eq hhandle
  rw [hmiddle] at hend
  rw [hend]
  exact ⟨rfl, rfl, rfl⟩

/-! The outputs. -/

/-- The size and the scale of the window at a call of `resumed`. -/
def Moment.resumedAt (m : Moment) : Option (Size × ℚ) :=
  if m.callback = .resumed then some (m.scene.innerSize, m.scene.scaleFactor) else none

def resumes : List Moment → List (Size × ℚ) := observed Moment.resumedAt

def outputOf (identity : Nat) (window : Size × ℚ) : Output :=
  ⟨identity, some ⟨window.1, 60000⟩, .fractional window.2, (0, 0)⟩

/-- The size of the last resume, or the one of `Compositor::build`. -/
def lastSize (windows : List (Size × ℚ)) : Size := (windows.getLast?.map Prod.fst).getD ⟨1920, 1080⟩

theorem outputs_eq (hrun : (system startTime).Run h backend) :
    backend.space.outputs = (resumes h).mapIdx outputOf ∧
      backend.size = lastSize (resumes h) ∧ backend.startTime = startTime := by
  refine hrun.invariant (I := fun h backend =>
    backend.space.outputs = (resumes h).mapIdx outputOf ∧
      backend.size = lastSize (resumes h) ∧ backend.startTime = startTime) ⟨rfl, rfl, rfl⟩ ?_
  intro h backend m backend' _ ⟨hspace, hsize, hstart⟩ hstep
  obtain ⟨-, hstep⟩ := hstep
  obtain ⟨scene, callback, sent⟩ := m
  cases callback with
  | resumed =>
    obtain ⟨-, rfl, rfl⟩ := resumed_of_respond hstep
    have hnew : resumes (h ++ [⟨scene, .resumed, []⟩]) =
        resumes h ++ [(scene.innerSize, scene.scaleFactor)] := observed_tell rfl
    rw [hnew, List.mapIdx_concat, ← hspace]
    refine ⟨?_, by simp [resumed, lastSize], hstart⟩
    have hfresh : ∀ other ∈ backend.space.outputs,
        other.identity ≠ backend.space.outputs.length := by
      intro other hmem
      rw [hspace, List.mem_mapIdx] at hmem
      obtain ⟨i, hi, rfl⟩ := hmem
      rw [hspace, List.length_mapIdx]
      exact Nat.ne_of_lt hi
    have hmapped := Space.mapOutput_new (o := (Output.new backend.space.outputs.length
      ).changeCurrentState (some ⟨scene.innerSize, 60000⟩) (some (.fractional scene.scaleFactor)))
      hfresh (0, 0)
    simp only [resumed, hmapped]
    rw [hspace, List.length_mapIdx]
    rfl
  | windowEvent event =>
    have hkept := kept_of_windowEvent hstep
    have hsame : resumes (h ++ [⟨scene, .windowEvent event, sent⟩]) = resumes h :=
      observed_quiet rfl
    rw [hsame]
    exact ⟨hkept.space ▸ hspace, hkept.size ▸ hsize, hkept.startTime ▸ hstart⟩

/-- One mapped output, of the size of the window; new toplevels are configured to that size. -/
structure OneOutput (window : Size) (backend : WaylandBackend) : Prop where
  mapped : ∃ output, backend.space.outputs = [output] ∧
    output.currentMode.map Mode.size = some window
  configured : backend.size = window

/-- After the last callback there is one output of the size that the window has then, if and only
if the app was resumed exactly once, with a window of that size. -/
theorem one_output_iff (hrun : (system startTime).Run (h ++ [m]) backend) :
    OneOutput m.scene.innerSize backend ↔
      (resumes (h ++ [m])).map Prod.fst = [m.scene.innerSize] := by
  obtain ⟨hspace, hsize, -⟩ := outputs_eq hrun
  constructor
  · rintro ⟨⟨output, hone, hmode⟩, -⟩
    rw [hspace] at hone
    have hlength : (resumes (h ++ [m])).length = 1 := by
      simpa using congrArg List.length hone
    obtain ⟨window, hwindow⟩ := List.length_eq_one_iff.mp hlength
    rw [hwindow] at hone ⊢
    obtain rfl : outputOf 0 window = output := by simpa using hone
    have hsame : some window.1 = some m.scene.innerSize := hmode
    simpa using hsame
  · intro hresumes
    obtain ⟨window, hwindow, hfst⟩ := List.map_eq_singleton_iff.mp hresumes
    rw [hwindow] at hspace hsize
    refine ⟨⟨outputOf 0 window, by simpa using hspace, ?_⟩, ?_⟩
    · exact congrArg some hfst
    · exact hsize.trans hfst

def sceneAt (now : Nat) (innerSize : Size) (scaleFactor : ℚ) : Scene :=
  ⟨now, innerSize, scaleFactor, [], fun _ => true, true⟩

def portrait : Size := ⟨1080, 2400⟩

def landscape : Size := ⟨2400, 1080⟩

def started : List Moment := [⟨sceneAt 1 portrait 3, .resumed, []⟩]

theorem run_started : (system 0).Run started (resumed (sceneAt 1 portrait 3) (.build 0)) :=
  @Path.single _ _ (system 0) _ _ ⟨sceneAt 1 portrait 3, .resumed, []⟩ ⟨Nat.zero_le _, rfl⟩

theorem one_output_when_started : ∃ backend,
    (system 0).Run (started ++ [⟨sceneAt 2 portrait 2, .windowEvent (.scaleFactorChanged 2), []⟩])
      backend ∧ OneOutput portrait backend := by
  have hrun := run_started.snoc (e := ⟨sceneAt 2 portrait 2, .windowEvent (.scaleFactorChanged 2),
    []⟩) ⟨Nat.zero_le _, rfl⟩
  exact ⟨_, hrun, (one_output_iff hrun).mpr rfl⟩

/-- Two outputs are mapped after the app has come back, and the old size stays configured after the
phone was turned. -/
theorem not_one_output_when_resumed_or_turned :
    (∃ backend, (system 0).Run (started ++ [⟨sceneAt 2 portrait 3, .resumed, []⟩]) backend ∧
      ¬OneOutput portrait backend) ∧
    ∃ backend, (system 0).Run (started ++
      [⟨sceneAt 2 landscape 3, .windowEvent (.resized landscape), []⟩]) backend ∧
      ¬OneOutput landscape backend := by
  refine ⟨⟨_, run_started.snoc ⟨Nat.zero_le _, rfl⟩, fun hone => ?_⟩,
    ⟨_, run_started.snoc ⟨Nat.zero_le _, rfl⟩, fun hone => ?_⟩⟩
  · obtain ⟨output, hmapped, -⟩ := hone.mapped
    have htwo : 2 = 1 := congrArg List.length hmapped
    cases htwo
  · have hsize : portrait = landscape := hone.configured
    exact absurd hsize (by decide)

end LocalDesktop.Android.App
