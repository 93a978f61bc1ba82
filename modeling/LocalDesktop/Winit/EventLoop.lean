/- GID: LocalDesktop/Winit/EventLoop
   generality: G
   digest: The event loop of winit on Android, one step of one thread at a time. -/

import LocalDesktop.Foundation.Transition
import LocalDesktop.Winit.InputEvents

/-!
One thread runs the loop and calls the handler. Other threads may ask for a redraw or send a user
event at any time. What several threads share is the flag of the redraws, the channel of the user
events and the waker: every step reads or writes one of them once, or none.
-/

set_option autoImplicit false
set_option relaxedAutoImplicit false

namespace LocalDesktop.Winit

open Foundation.Transition Android.Backend.Wayland

variable {α : Type}

inductive ControlFlow
  | poll | wait
  | waitUntil (deadline : Nat)
  deriving DecidableEq

inductive StartCause
  | init | poll
  | waitCancelled (start : Nat) (requestedResume : Option Nat)
  | resumeTimeReached (start requestedResume : Nat)
  deriving DecidableEq

/-- What happens to the activity. -/
inductive MainEvent
  | initWindow | terminateWindow | windowResized | redrawNeeded | contentRectChanged | gainedFocus
  | lostFocus | configChanged | lowMemory | start | resume | saveState | pause | stop | destroy
  | insetsChanged | other
  deriving DecidableEq

inductive PollEvent
  | wake | timeout
  | main (event : MainEvent)
  | other
  deriving DecidableEq

/-- What the handler is called with. -/
inductive Event (α : Type)
  | newEvents (cause : StartCause)
  | windowEvent (event : WindowEvent)
  | userEvent (value : α)
  | suspended | resumed | memoryWarning | aboutToWait | loopExiting
  deriving DecidableEq

/-- Where the thread of the loop is. -/
inductive Place
  | pumpEvents
  | newEvents (main : Option MainEvent)
  | mainEvent (main : Option MainEvent)
  -- What the handler has not heard yet of the input event that was read last.
  | inputEvents (rest : List WindowEvent)
  | userEvents
  | resized
  | redraw
  | aboutToWait
  | iterated
  | timeout
  | asleep (start : Nat) (timeout : Option Nat)
  | woken (start : Nat)
  | recheck (start : Nat)
  | ended
  deriving DecidableEq

structure EventLoop (α : Type) where
  redrawFlag : Bool
  -- The channel of the user events, and the event that `has_incoming` has taken out of it.
  channel : List α
  first : Option α
  loopRunning : Bool
  running : Bool
  -- An iteration works on a copy, which it writes back at its end.
  pendingRedraw : Bool
  resized : Bool
  cause : StartCause
  controlFlow : ControlFlow
  exit : Bool
  hasFocus : Bool
  ignoreVolumeKeys : Bool
  place : Place
  -- The event that the handler is working on.
  handling : Option (Event α)
  -- The waker has been called since the last sleep, and so many threads are about to call it.
  wake : Bool
  waking : Nat

namespace EventLoop

def new (ignoreVolumeKeys : Bool) : EventLoop α where
  redrawFlag := false
  channel := []
  first := none
  loopRunning := false
  running := false
  pendingRedraw := false
  resized := false
  cause := .init
  controlFlow := .wait
  exit := false
  hasFocus := true
  ignoreVolumeKeys := ignoreVolumeKeys
  place := .pumpEvents
  handling := none
  wake := false
  waking := 0

/-- What the thread of the loop finds in the activity. -/
structure Activity where
  now : Nat
  nativeWindow : Option Smithay.Size
  scaleFactor : ℚ

/-- What the handler may ask of the loop. -/
inductive Request (α : Type)
  | requestRedraw
  | setControlFlow (controlFlow : ControlFlow)
  | exit
  | sendEvent (value : α)
  deriving DecidableEq

inductive Act (α : Type)
  -- Another thread asks for a redraw, sends a user event, or calls the waker as it has to.
  | requestRedraw
  | sendEvent (value : α)
  | callWaker
  -- The handler asks for something, or returns.
  | ask (request : Request α)
  | handled
  -- The loop is woken up, reads an input event or finds none, or goes on.
  | poll (event : PollEvent) (now : Nat)
  | read (event : Option Input.InputEvent)
  | goOn (activity : Activity)

variable (s : EventLoop α)

def takeFlag : EventLoop α :=
  { s with pendingRedraw := s.pendingRedraw || s.redrawFlag, redrawFlag := false }

def hasIncoming : Bool × EventLoop α :=
  match s.first, s.channel with
  | some _, _ => (true, s)
  | none, value :: channel => (true, { s with first := some value, channel := channel })
  | none, [] => (false, s)

def tryRecv : Option α × EventLoop α :=
  match s.first, s.channel with
  | some value, _ => (some value, { s with first := none })
  | none, value :: channel => (some value, { s with channel := channel })
  | none, [] => (none, s)

/-- The handler is called, and then the loop goes on at the place. -/
def call (event : Event α) (place : Place) : EventLoop α × Option (Event α) :=
  ({ s with handling := some event, place := place }, some event)

def jump (place : Place) : EventLoop α × Option (Event α) := ({ s with place := place }, none)

/-- The scale factor is compared with itself: the handler always hears of it. -/
def mainEvent (activity : Activity) : MainEvent → EventLoop α × Option (Event α)
  | .initWindow => s.call .resumed (.inputEvents [])
  | .terminateWindow => s.call .suspended (.inputEvents [])
  | .windowResized => { s with resized := true }.jump (.inputEvents [])
  | .redrawNeeded => { s with pendingRedraw := true }.jump (.inputEvents [])
  | .gainedFocus =>
    { s with hasFocus := true }.call (.windowEvent (.focused true)) (.inputEvents [])
  | .lostFocus =>
    { s with hasFocus := false }.call (.windowEvent (.focused false)) (.inputEvents [])
  | .configChanged =>
    if |activity.scaleFactor - activity.scaleFactor| < 1 / 2 ^ 52 then
      s.call (.windowEvent (.scaleFactorChanged activity.scaleFactor)) (.inputEvents [])
    else s.jump (.inputEvents [])
  | .lowMemory => s.call .memoryWarning (.inputEvents [])
  | .resume => { s with running := true }.jump (.inputEvents [])
  | .pause => { s with running := false }.jump (.inputEvents [])
  | .contentRectChanged | .start | .saveState | .stop | .destroy | .insetsChanged | .other =>
    s.jump (.inputEvents [])

def controlFlowTimeout (start : Nat) : Option Nat :=
  match s.controlFlow with
  | .wait => none
  | .poll => some 0
  | .waitUntil deadline => some (deadline - start)

/-- `running && (pending_redraw || has_incoming())`: the channel is looked at only if the rest of
the condition leaves it open. -/
def hasWork : Bool × EventLoop α :=
  if s.running then if s.pendingRedraw then (true, s) else s.hasIncoming else (false, s)

/-- The next iteration, and why it starts. -/
def resume (start now : Nat) (main : Option MainEvent) : EventLoop α × Option (Event α) :=
  let cause := match s.controlFlow with
    | .poll => .poll
    | .wait => .waitCancelled start none
    | .waitUntil deadline =>
      if now < deadline then .waitCancelled start (some deadline)
      else .resumeTimeReached start deadline
  { s with cause := cause }.jump (.newEvents main)

/-- One step of the loop that neither sleeps nor reads an input event. -/
def goOn (activity : Activity) : Option (EventLoop α × Option (Event α)) :=
  match s.place with
  | .pumpEvents =>
    if s.loopRunning then some ((s.takeFlag).jump .timeout)
    else some ({ s with loopRunning := true, pendingRedraw := false, cause := .init }.jump
      (.newEvents none))
  | .newEvents main =>
    some ({ s with resized := false }.call (.newEvents s.cause) (.mainEvent main))
  | .mainEvent (some event) => some (s.mainEvent activity event)
  | .mainEvent none => some (s.jump (.inputEvents []))
  | .inputEvents (event :: rest) => some (s.call (.windowEvent event) (.inputEvents rest))
  | .inputEvents [] => none
  | .userEvents =>
    match s.tryRecv with
    | (some value, s) => some (s.call (.userEvent value) .userEvents)
    | (none, s) => some (s.jump .resized)
  | .resized =>
    if s.running && s.resized then
      some (s.call (.windowEvent (.resized (activity.nativeWindow.getD ⟨0, 0⟩))) .redraw)
    else some (s.jump .redraw)
  | .redraw =>
    if s.running then
      if s.takeFlag.pendingRedraw then
        some ({ s.takeFlag with pendingRedraw := false }.call (.windowEvent .redrawRequested)
          .aboutToWait)
      else some (s.takeFlag.jump .aboutToWait)
    else some (s.jump .aboutToWait)
  | .aboutToWait => some (s.call .aboutToWait .iterated)
  | .iterated =>
    if s.exit then some ({ s with loopRunning := false }.call .loopExiting .ended)
    else some (s.jump .pumpEvents)
  | .timeout =>
    match s.hasWork with
    | (true, s) => some (s.jump (.asleep activity.now (some 0)))
    | (false, s) => some (s.jump (.asleep activity.now (s.controlFlowTimeout activity.now)))
  | .woken start => some (s.takeFlag.jump (.recheck start))
  | .recheck start =>
    match s.hasWork with
    | (true, s) => some (s.resume start activity.now none)
    | (false, s) => some (s.jump .iterated)
  | .asleep _ _ | .ended => none

/-- The loop is woken up: by the waker, when its time is over, or by something that happened. -/
def pollEvents (now : Nat) : PollEvent → Option (EventLoop α × Option (Event α))
  | event =>
    match s.place with
    | .asleep start timeout =>
      match event with
      | .wake => if s.wake then some ({ s with wake := false }.jump (.woken start)) else none
      | .timeout => if timeout.isSome then some (s.resume start now none) else none
      | .main event => some (s.resume start now (some event))
      | .other => some (s.resume start now none)
    | _ => none

/-- An input event is read when the handler has heard of all before it. -/
def read (event : Option Input.InputEvent) : Option (EventLoop α × Option (Event α)) :=
  match s.place, event with
  | .inputEvents [], some event =>
    some (s.jump (.inputEvents (handleInputEvent s.ignoreVolumeKeys event).1))
  | .inputEvents [], none => some (s.jump .userEvents)
  | _, _ => none

/-- The handler runs on the thread of the loop: it calls the waker itself. -/
def ask : Request α → EventLoop α
  | .requestRedraw => if s.redrawFlag then s else { s with redrawFlag := true, wake := true }
  | .setControlFlow controlFlow => { s with controlFlow := controlFlow }
  | .exit => { s with exit := true }
  | .sendEvent value => { s with channel := s.channel ++ [value], wake := true }

/-- A step, and the event that the handler is called with in it. -/
def act : Act α → Option (EventLoop α × Option (Event α))
  | .requestRedraw =>
    if s.redrawFlag then some (s, none)
    else some ({ s with redrawFlag := true, waking := s.waking + 1 }, none)
  | .sendEvent value =>
    some ({ s with channel := s.channel ++ [value], waking := s.waking + 1 }, none)
  | .callWaker =>
    if 0 < s.waking then some ({ s with wake := true, waking := s.waking - 1 }, none) else none
  | .ask request => if s.handling.isSome then some (s.ask request, none) else none
  | .handled => if s.handling.isSome then some ({ s with handling := none }, none) else none
  | .poll event now => if s.handling.isNone then s.pollEvents now event else none
  | .read event => if s.handling.isNone then s.read event else none
  | .goOn activity => if s.handling.isNone then s.goOn activity else none

end EventLoop

open EventLoop

/-- A step and the event that the handler was called with. -/
structure Moment (α : Type) where
  act : Act α
  delivered : Option (Event α)

/-- Every interleaving of the loop, its handler and other threads. -/
def system (α : Type) (ignoreVolumeKeys : Bool) : System (EventLoop α) (Moment α) where
  start := .new ignoreVolumeKeys
  step s m s' := s.act m.act = some (s', m.delivered)

end LocalDesktop.Winit
