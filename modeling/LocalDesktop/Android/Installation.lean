/- GID: LocalDesktop/Android/Installation
   generality: G
   digest: Setup beside the webview backend: one channel, one progress value, all threads. -/

import LocalDesktop.Android.Backend.Sampling
import LocalDesktop.Android.Proot.PipelineProgress

/-!
`setup` hands the receiver of its channel and its progress value to
`WebviewBackend::build`. What setup sends and stores are steps of both sides;
the acceptor, the delivery threads and the clients only take part once the
backend is built.
-/

set_option autoImplicit false
set_option relaxedAutoImplicit false

namespace LocalDesktop.Android.Installation

open Foundation.Transition Platform Proot Backend
open Pipeline (Setup Driver)

inductive Event
  | setup (e : Pipeline.Event)
  | backend (e : Webview.Event)
  deriving DecidableEq

abbrev State := Pipeline.State × Webview.State

def setupEvent : Event → Option Pipeline.Event
  | .setup e => some e
  | .backend _ => none

def backendEvent : Event → Option Webview.Event
  | .setup (.sent _ m) => some (.sent m)
  | .setup (.stored v) => some (.stored v)
  | .setup _ => none
  | .backend e => some e

def Built (s : Pipeline.State) : Prop :=
  s.returned = true ∧ s.driver.backend = some .webview

/-- The coordinator has ended, and no thread of a stage is left. -/
def Quiet : Driver → Prop
  | .failed _ _ | .done => True
  | .crashed place => ∀ i t, (Driver.crashed place).thread = some (i, t) → ∃ x, t = .ended x
  | _ => False

/-- The acceptor and all delivery threads are gone, and the receiver with them. -/
def Deserted (s : Webview.State) : Prop :=
  s.acceptor = .panicked ∧ s.server = none ∧ s.waiting = []

/-- When the steps of one side are possible with the other side as it is. -/
def may (s : State) : Event → Prop
  -- With the Wayland backend, without a socket for this one, or when all its threads are gone.
  | .setup .dropped => s.1.driver.backend = some .wayland ∨ s.1.returned = false ∨
      (Built s.1 ∧ Deserted s.2)
  | .setup _ => True
  -- The channel and the progress value are written by setup only.
  | .backend (.sent _) => False
  | .backend (.stored _) => False
  | .backend .closed => Built s.1 ∧ Quiet s.1.driver
  | .backend _ => Built s.1

def system (p : Setup) : System State Event :=
  p.system.joint Webview.system setupEvent backendEvent may

variable {p : Setup} {h pre post : List Event} {s t : State} {e : Event}

/-! Each side takes part in a run of its own. -/

theorem setup_run (hrun : (system p).Run h s) :
    p.system.Run (observed setupEvent h) s.1 := Path.joint_left hrun

theorem backend_run (hrun : (system p).Run h s) :
    Webview.system.Run (observed backendEvent h) s.2 := Path.joint_right hrun

theorem stored_eq (hmay : may s e) :
    (backendEvent e).bind Sampling.storedValue =
      (setupEvent e).bind PipelineProgress.storedValue := by
  cases e with
  | setup e => cases e <;> rfl
  | backend e => cases e <;> first | rfl | exact hmay.elim

theorem progress_eq (hrun : (system p).Run h s) : s.2.progress = s.1.progress := by
  refine Path.invariant (I := fun _ s => s.2.progress = s.1.progress) hrun rfl ?_
  rintro h s e t - hs ⟨hmay, hleft, hright⟩
  have hsetup := System.takes_value (fun _ _ _ => PipelineProgress.progress_step) hleft
  have hbackend := System.takes_value (fun _ _ _ => Sampling.progress_step) hright
  rw [hsetup, hbackend, stored_eq hmay, hs]

/-! A run of setup that nobody watches, and one of the backend while setup stands still. -/

def sentMessage : Pipeline.Event → Option SetupMessage
  | .sent _ m => some m
  | _ => none

def sends : List Pipeline.Event → List SetupMessage := observed sentMessage

theorem sends_append {h h' : List Pipeline.Event} : sends (h ++ h') = sends h ++ sends h' :=
  observed_append

def heard (w : Webview.State) (h : List Pipeline.Event) : Webview.State :=
  { w with
    queue := w.queue ++ sends h
    progress := (PipelineProgress.stores h).getLastD w.progress }

private theorem heard_nil (w : Webview.State) : heard w [] = w := by
  simp [heard, sends, PipelineProgress.stores, observed]

private theorem heard_sent (w : Webview.State) (h : List Pipeline.Event) (sender : Pipeline.Sender)
    (m : SetupMessage) :
    heard w (h ++ [.sent sender m]) = { heard w h with queue := (heard w h).queue ++ [m] } := by
  have hsends : sends (h ++ [.sent sender m]) = sends h ++ [m] := observed_tell rfl
  have hstores : PipelineProgress.stores (h ++ [.sent sender m]) = PipelineProgress.stores h :=
    observed_quiet rfl
  simp only [heard, hsends, hstores, List.append_assoc]

private theorem heard_stored (w : Webview.State) (h : List Pipeline.Event) (v : Nat) :
    heard w (h ++ [.stored v]) = { heard w h with progress := v } := by
  have hsends : sends (h ++ [.stored v]) = sends h := observed_quiet rfl
  have hstores : PipelineProgress.stores (h ++ [.stored v]) = PipelineProgress.stores h ++ [v] :=
    observed_tell rfl
  simp only [heard, hsends, hstores, List.getLastD_concat]

private theorem takes_heard {w : Webview.State} (hsenders : w.senders = true)
    (h : List Pipeline.Event)
    (e : Pipeline.Event) :
    Webview.system.takes (heard w h) (backendEvent (.setup e)) (heard w (h ++ [e])) := by
  cases e with
  | sent sender m =>
    rw [heard_sent]
    exact .send hsenders
  | stored v =>
    rw [heard_stored]
    exact .store
  | _ =>
    show heard w _ = heard w h
    rw [heard, sends, PipelineProgress.stores, observed_quiet rfl, observed_quiet rfl]
    rfl

theorem setup_alone {a b : Pipeline.State} {w : Webview.State} {h : List Pipeline.Event}
    (hpath : Path p.system a h b) (hsenders : w.senders = true) (hstays : .dropped ∉ h) :
    Path (system p) (a, w) (h.map .setup) (b, heard w h) := by
  induction hpath with
  | nil => 
    rw [heard_nil]
    exact .nil _
  | @snoc b c h e _ hstep ih =>
    rw [List.mem_append, List.mem_singleton, not_or] at hstays
    have hmay : may (b, heard w h) (.setup e) := by
      cases e with
      | dropped => exact absurd rfl hstays.2
      | _ => trivial
    rw [List.map_append]
    exact .snoc (ih hstays.1) ⟨hmay, hstep, takes_heard hsenders h e⟩

theorem backend_alone {a : Pipeline.State} {w w' : Webview.State} {h : List Webview.Event}
    (hpath : Path Webview.system w h w') (hmay : ∀ e ∈ h, ∀ w, may (a, w) (.backend e)) :
    Path (system p) (a, w) (h.map .backend) (a, w') := by
  induction hpath with
  | nil => exact .nil _
  | @snoc w w' h e _ hstep ih =>
    rw [List.map_append]
    refine .snoc (ih fun e' he' => hmay e' (List.mem_append_left _ he')) ⟨?_, rfl, hstep⟩
    exact hmay e (List.mem_append_right _ (List.mem_singleton_self e)) _

end LocalDesktop.Android.Installation
