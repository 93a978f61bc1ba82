/- GID: LocalDesktop/Android/Proot/Pipeline
   generality: G
   digest: The threads of setup: the main loop, the coordinator, the thread of a stage. -/

import LocalDesktop.Foundation.Transition
import LocalDesktop.Android.Proot.Stages

/-!
`setup` calls the stages on the main thread up to the first one that returns a
handle. From there a coordinator thread joins the handles and calls the stages
that are left, while the main thread returns the backend and the thread of the
stage works and sends. A stage is the set of the behaviours its function may
show when it is called.
-/

set_option autoImplicit false
set_option relaxedAutoImplicit false

namespace LocalDesktop.Android.Proot.Pipeline

open Foundation.Transition Platform

/-- What `join` finds in a thread that panicked. -/
inductive Payload
  | string (text : String)
  | str (text : String)
  | other
  deriving DecidableEq

def stageError : Payload → String
  | .string text => "Stage execution failed: " ++ text
  | .str text => "Stage execution failed: " ++ text
  | .other => "Stage execution failed: Unknown error"

/-- How the thread of a stage ends. -/
inductive Ending
  | ok
  | panicked (payload : Payload)
  deriving DecidableEq

/-- How the function of a stage ends: with `None`, with a thread that sends messages and ends,
or with a panic. -/
inductive Result
  | finished
  | handle (messages : List SetupMessage) (ending : Ending)
  | panicked (payload : Payload)
  deriving DecidableEq

/-- One call of the function of a stage: the messages it sends, and its end. -/
structure Call where
  messages : List SetupMessage
  result : Result

abbrev Stage := Call → Prop

/-- The stages, and what depends on the build and on the receiver of the channel. -/
structure Setup where
  overflowChecks : Bool
  receiverStays : Bool
  stages : List Stage

/-- `((k) as u16 * 100 / stages.len() as u16) as u16`; `none` is a panic. -/
def percentOf (overflowChecks : Bool) (stages k : Nat) : Option Nat :=
  let product := k % 65536 * 100
  if overflowChecks = true ∧ 65536 ≤ product then none
  else if stages % 65536 = 0 then none
  else some (product % 65536 / (stages % 65536))

inductive Thread
  | running (messages : List SetupMessage) (ending : Ending)
  | ended (ending : Ending)
  deriving DecidableEq

/-- Who goes through the stages. -/
inductive Caller
  | main
  | coordinator
  deriving DecidableEq

/-- Where the calls of the stages have come: in the loop of the main thread, and from the first
handle on in the coordinator. -/
inductive Driver
  -- The head of the loop of the main thread.
  | loop (i : Nat)
  | calling (caller : Caller) (i : Nat) (messages : List SetupMessage) (result : Result)
  -- The main thread left the loop at its end, and there is no coordinator; building the backend
  -- has gone well, or has panicked.
  | installed
  | unbuilt
  -- The coordinator before its first progress value, and in `join`.
  | starting (i : Nat) (thread : Thread)
  | joining (i : Nat) (first : Bool) (thread : Thread)
  -- A thread that the coordinator joined after the first ended well.
  | joined (i : Nat)
  -- The head of the loop of the coordinator, and its body with the progress value stored.
  | next (j : Nat)
  | ready (j : Nat)
  -- In `handle_stage_error`, and after it.
  | reporting (i : Nat) (payload : Payload)
  | failed (i : Nat) (payload : Payload)
  -- The progress value is 100, and the last message is sent.
  | finishing
  | done
  -- The panic of the thread that was there.
  | crashed (place : Driver)

inductive Backend
  | wayland
  | webview
  deriving DecidableEq

/-- `returned` says that the main thread left `setup`. -/
structure State where
  driver : Driver
  returned : Bool
  progress : Nat
  receiver : Bool

inductive Sender
  | function (i : Nat)
  | thread (i : Nat)
  | coordinator
  deriving DecidableEq

inductive Event
  | called (caller : Caller) (i : Nat)
  | sent (sender : Sender) (m : SetupMessage)
  -- The receiver is gone, and `send` returns an error.
  | unsent (sender : Sender) (m : SetupMessage)
  -- The function returns `None` or a handle.
  | returned (i : Nat) (handle : Bool)
  | raised (caller : Caller) (i : Nat) (payload : Payload)
  | ended (i : Nat) (ending : Ending)
  | joined (i : Nat) (ending : Ending)
  | stored (value : Nat)
  -- The coordinator panics.
  | died
  | chosen (backend : Backend)
  -- The main thread panics.
  | unbuilt
  | dropped
  deriving DecidableEq

def installationFinished : SetupMessage :=
  .progress "Installation finished, please restart the app"

def State.send (s : State) (sender : Sender) (m : SetupMessage) : Event :=
  if s.receiver = true then .sent sender m else .unsent sender m

/-- Where a call of stage `i` comes from and where it goes on after `None`. -/
def Caller.before : Caller → Nat → Driver
  | .main, i => .loop i
  | .coordinator, i => .ready i

def Caller.after : Caller → Nat → Driver
  | .main, i => .loop (i + 1)
  | .coordinator, i => .next (i + 1)

def Caller.hand : Caller → Nat → Thread → Driver
  | .main, i, t => .starting i t
  | .coordinator, i, t => .joining i false t

namespace Driver

/-- The thread of a stage; it goes on when the coordinator panics before it joins. -/
def thread : Driver → Option (Nat × Thread)
  | starting i t => some (i, t)
  | joining i _ t => some (i, t)
  | crashed (starting i t) => some (i, t)
  | _ => none

def setThread (t : Thread) : Driver → Driver
  | starting i _ => starting i t
  | joining i first _ => joining i first t
  | crashed (starting i _) => crashed (starting i t)
  | d => d

/-- The stage whose progress value the coordinator computes here. -/
def due (stages : Nat) : Driver → Option Nat
  | starting i _ => some i
  | joined i => some (i + 1)
  | next j => if j < stages then some j else none
  | _ => none

/-- Where the coordinator goes on with the progress value stored. -/
def stored : Driver → Driver
  | starting i t => joining i true t
  | joined i => next (i + 1)
  | next j => ready j
  | d => d

/-- The backend that `setup` returns, once the main thread has left the loop. -/
def backend : Driver → Option Backend
  | loop _ => none
  | calling .main _ _ _ => none
  | crashed (calling .main _ _ _) => none
  | unbuilt => none
  | installed => some .wayland
  | _ => some .webview

end Driver

def Setup.percent (p : Setup) (k : Nat) : Option Nat :=
  percentOf p.overflowChecks p.stages.length k

/-- One step of one of the threads, or the end of the receiver. -/
inductive Step (p : Setup) : State → Event → State → Prop
  | call {s : State} {caller : Caller} {i : Nat} {stage : Stage} {c : Call} :
      s.driver = caller.before i → p.stages[i]? = some stage → stage c →
      Step p s (.called caller i) { s with driver := .calling caller i c.messages c.result }
  | functionSend {s : State} {caller : Caller} {i : Nat} {m : SetupMessage}
      {ms : List SetupMessage} {r : Result} :
      s.driver = .calling caller i (m :: ms) r →
      Step p s (s.send (.function i) m) { s with driver := .calling caller i ms r }
  | finished {s : State} {caller : Caller} {i : Nat} :
      s.driver = .calling caller i [] .finished →
      Step p s (.returned i false) { s with driver := caller.after i }
  | handle {s : State} {caller : Caller} {i : Nat} {ms : List SetupMessage} {e : Ending} :
      s.driver = .calling caller i [] (.handle ms e) →
      Step p s (.returned i true) { s with driver := caller.hand i (.running ms e) }
  | raise {s : State} {caller : Caller} {i : Nat} {x : Payload} :
      s.driver = .calling caller i [] (.panicked x) →
      Step p s (.raised caller i x) { s with driver := .crashed s.driver }
  | leave {s : State} {i : Nat} :
      s.driver = .loop i → p.stages.length ≤ i →
      Step p s (.chosen .wayland) { s with driver := .installed, returned := true }
  -- `pb_expect` on the compositor.
  | unbuilt {s : State} {i : Nat} :
      s.driver = .loop i → p.stages.length ≤ i →
      Step p s .unbuilt { s with driver := .unbuilt }
  | choose {s : State} :
      s.driver.backend = some .webview → s.returned = false → s.receiver = true →
      Step p s (.chosen .webview) { s with returned := true }
  | threadSend {s : State} {i : Nat} {m : SetupMessage} {ms : List SetupMessage} {e : Ending} :
      s.driver.thread = some (i, .running (m :: ms) e) →
      Step p s (s.send (.thread i) m) { s with driver := s.driver.setThread (.running ms e) }
  | threadEnd {s : State} {i : Nat} {e : Ending} :
      s.driver.thread = some (i, .running [] e) →
      Step p s (.ended i e) { s with driver := s.driver.setThread (.ended e) }
  | store {s : State} {k v : Nat} :
      s.driver.due p.stages.length = some k → p.percent k = some v →
      Step p s (.stored v) { s with driver := s.driver.stored, progress := v }
  | overflow {s : State} {k : Nat} :
      s.driver.due p.stages.length = some k → p.percent k = none →
      Step p s .died { s with driver := .crashed s.driver }
  | joinFirst {s : State} {i : Nat} :
      s.driver = .joining i true (.ended .ok) →
      Step p s (.joined i .ok) { s with driver := .next (i + 1) }
  | joinNext {s : State} {i : Nat} :
      s.driver = .joining i false (.ended .ok) →
      Step p s (.joined i .ok) { s with driver := .joined i }
  | joinFailed {s : State} {i : Nat} {first : Bool} {x : Payload} :
      s.driver = .joining i first (.ended (.panicked x)) →
      Step p s (.joined i (.panicked x)) { s with driver := .reporting i x }
  | report {s : State} {i : Nat} {x : Payload} :
      s.driver = .reporting i x →
      Step p s (s.send .coordinator (.error (stageError x))) { s with driver := .failed i x }
  | allDone {s : State} {j : Nat} :
      s.driver = .next j → p.stages.length ≤ j →
      Step p s (.stored 100) { s with driver := .finishing, progress := 100 }
  | finish {s : State} :
      s.driver = .finishing → s.receiver = true →
      Step p s (.sent .coordinator installationFinished) { s with driver := .done }
  -- `pb_expect` on the last message.
  | unheard {s : State} :
      s.driver = .finishing → s.receiver = false →
      Step p s .died { s with driver := .crashed s.driver }
  -- The receiver goes with the backend; or before, when `pb_expect` on its socket panics.
  | drop {s : State} :
      p.receiverStays = false → s.driver.backend ≠ none → s.receiver = true →
      Step p s .dropped { s with receiver := false }

def Setup.system (p : Setup) : System State Event where
  start := ⟨.loop 0, false, 0, true⟩
  step := Step p

end LocalDesktop.Android.Proot.Pipeline
