/- GID: LocalDesktop/Android/Backend/Webview
   generality: G
   digest: The acceptor and the delivery threads of the webview backend, step by step. -/

import LocalDesktop.Foundation.Transition
import LocalDesktop.Platform
import Mathlib.Logic.Function.Basic

/-!
The acceptor thread of `WebviewBackend::build` answers one request at a time
and holds the mutex of `active_client` while it does. Every accepted client has
a delivery thread. The `for` loop of a delivery thread holds the mutex of the
receiver as long as it runs, so one thread serves and the others wait. A thread
that panics while it holds a mutex poisons it.

The clients, the senders of the channel and the progress value belong to the
environment. Clients are numbered in the order in which they are accepted. A
page that is closed in good order only closes its own end: what is written to
it first goes through, and the answer to that breaks the connection.
-/

set_option autoImplicit false
set_option relaxedAutoImplicit false

namespace LocalDesktop.Android.Backend.Webview

open Foundation.Transition Platform

structure PageMessage where
  progress : Nat
  message : String
  isError : Bool
  deriving DecidableEq, Repr

/-- The two `json!` objects; an absent `isError` reads as false in the page. -/
def pageMessage (progress : Nat) : SetupMessage → PageMessage
  | .progress message => ⟨progress, message, false⟩
  | .error message => ⟨progress, message, true⟩

/-- The acceptor thread. A request is of the protocol `rust-websocket` or not. -/
inductive Acceptor
  | idle
  -- About to lock `active_client`.
  | arrived (rustWebsocket : Bool)
  -- Holding the lock.
  | holding (rustWebsocket : Bool)
  | replying (accept : Bool)
  | panicked
  deriving DecidableEq

/-- The body of the loop of the thread that holds the receiver. -/
inductive Serving
  -- In `recv`.
  | receiving
  | reading (m : SetupMessage)
  -- About to lock `active_client`.
  | locking (m : SetupMessage) (page : PageMessage)
  | holding (m : SetupMessage) (page : PageMessage)
  -- After `break`.
  | leaving
  deriving DecidableEq

structure State where
  queue : List SetupMessage
  -- A sender is left.
  senders : Bool
  progress : Nat
  acceptor : Acceptor
  -- The thread that holds the receiver, and the threads that wait for it.
  server : Option (Nat × Serving)
  waiting : List Nat
  active : Option Nat
  accepted : Nat
  gone : Nat → Bool
  -- The two mutexes.
  activePoisoned : Bool
  receiverPoisoned : Bool

def Acceptor.locks : Acceptor → Bool
  | .holding _ => true
  | .replying _ => true
  | _ => false

def Serving.locks : Serving → Bool
  | .holding _ _ => true
  | _ => false

def State.free (s : State) : Prop :=
  s.acceptor.locks = false ∧ ∀ i serving, s.server = some (i, serving) → serving.locks = false

inductive Event
  -- The environment.
  | sent (m : SetupMessage)
  | closed
  | stored (value : Nat)
  -- The page closes its end of the connection.
  | parted (client : Nat)
  -- The connection is broken for the writer too.
  | left (client : Nat)
  -- The acceptor.
  | arrived (rustWebsocket : Bool)
  | locked
  | answered (rustWebsocket accept : Bool)
  | accepted (client : Nat)
  | rejected
  -- `reject`, `accept` or `peer_addr` fails, and the acceptor panics.
  | broke
  -- A delivery thread.
  | serving (client : Nat)
  | taken (client : Nat) (m : SetupMessage)
  | read (client : Nat)
  | turned (client : Nat)
  | written (client : Nat) (m : SetupMessage) (page : PageMessage)
  | failed (client : Nat) (m : SetupMessage)
  -- There is no active client, and the message is dropped.
  | skipped (client : Nat) (m : SetupMessage)
  -- A mutex is poisoned, and the thread panics.
  | crashed (client : Nat) (m : SetupMessage)
  | fell (client : Nat)
  | ended (client : Nat)
  deriving DecidableEq

/-- One step of one of the threads or of the environment. -/
inductive Step : State → Event → State → Prop
  | send {s : State} {m : SetupMessage} :
      s.senders = true → Step s (.sent m) { s with queue := s.queue ++ [m] }
  | close {s : State} : s.senders = true → Step s .closed { s with senders := false }
  | store {s : State} {value : Nat} : Step s (.stored value) { s with progress := value }
  -- The writer does not notice, and a write goes on to succeed.
  | part {s : State} {c : Nat} : c < s.accepted → s.gone c = false → Step s (.parted c) s
  | leave {s : State} {c : Nat} :
      c < s.accepted → s.gone c = false →
      Step s (.left c) { s with gone := Function.update s.gone c true }
  | arrive {s : State} {rustWebsocket : Bool} :
      s.acceptor = .idle →
      Step s (.arrived rustWebsocket) { s with acceptor := .arrived rustWebsocket }
  | lock {s : State} {rustWebsocket : Bool} :
      s.acceptor = .arrived rustWebsocket → s.free → s.activePoisoned = false →
      Step s .locked { s with acceptor := .holding rustWebsocket }
  | lockPoisoned {s : State} {rustWebsocket : Bool} :
      s.acceptor = .arrived rustWebsocket → s.free → s.activePoisoned = true →
      Step s .broke { s with acceptor := .panicked }
  | answer {s : State} {rustWebsocket : Bool} :
      s.acceptor = .holding rustWebsocket →
      Step s (.answered rustWebsocket (s.active.isNone && rustWebsocket))
        { s with acceptor := .replying (s.active.isNone && rustWebsocket) }
  | reject {s : State} :
      s.acceptor = .replying false → Step s .rejected { s with acceptor := .idle }
  | accept {s : State} :
      s.acceptor = .replying true →
      Step s (.accepted s.accepted)
        { s with
          acceptor := .idle
          active := some s.accepted
          accepted := s.accepted + 1
          waiting := s.waiting ++ [s.accepted] }
  | replyFails {s : State} {accept : Bool} :
      s.acceptor = .replying accept →
      Step s .broke { s with acceptor := .panicked, activePoisoned := true }
  | serve {s : State} {i : Nat} :
      i ∈ s.waiting → s.server = none → s.receiverPoisoned = false →
      Step s (.serving i) { s with server := some (i, .receiving), waiting := s.waiting.erase i }
  | servePoisoned {s : State} {i : Nat} :
      i ∈ s.waiting → s.server = none → s.receiverPoisoned = true →
      Step s (.fell i) { s with waiting := s.waiting.erase i }
  | take {s : State} {i : Nat} {m : SetupMessage} {queue : List SetupMessage} :
      s.server = some (i, .receiving) → s.queue = m :: queue →
      Step s (.taken i m) { s with server := some (i, .reading m), queue := queue }
  | disconnect {s : State} {i : Nat} :
      s.server = some (i, .receiving) → s.queue = [] → s.senders = false →
      Step s (.ended i) { s with server := none }
  | read {s : State} {i : Nat} {m : SetupMessage} :
      s.server = some (i, .reading m) →
      Step s (.read i) { s with server := some (i, .locking m (pageMessage s.progress m)) }
  | turn {s : State} {i : Nat} {m : SetupMessage} {page : PageMessage} :
      s.server = some (i, .locking m page) → s.free → s.activePoisoned = false →
      Step s (.turned i) { s with server := some (i, .holding m page) }
  | turnPoisoned {s : State} {i : Nat} {m : SetupMessage} {page : PageMessage} :
      s.server = some (i, .locking m page) → s.free → s.activePoisoned = true →
      Step s (.crashed i m) { s with server := none, receiverPoisoned := true }
  | write {s : State} {i c : Nat} {m : SetupMessage} {page : PageMessage} :
      s.server = some (i, .holding m page) → s.active = some c → s.gone c = false →
      Step s (.written c m page) { s with server := some (i, .receiving) }
  -- `send_message` fails: the connection is broken.
  | writeFails {s : State} {i c : Nat} {m : SetupMessage} {page : PageMessage} :
      s.server = some (i, .holding m page) → s.active = some c → s.gone c = true →
      Step s (.failed c m) { s with server := some (i, .leaving), active := none }
  | skip {s : State} {i : Nat} {m : SetupMessage} {page : PageMessage} :
      s.server = some (i, .holding m page) → s.active = none →
      Step s (.skipped i m) { s with server := some (i, .receiving) }
  | finish {s : State} {i : Nat} :
      s.server = some (i, .leaving) → Step s (.ended i) { s with server := none }

def system : System State Event where
  start := ⟨[], true, 0, .idle, none, [], none, 0, fun _ => false, false, false⟩
  step := Step

end LocalDesktop.Android.Backend.Webview
