/- GID: LocalDesktop/Android/LateClient
   generality: G
   digest: A client that connects after the end of setup is shown every message with the last value. -/

import LocalDesktop.Android.Installation

set_option autoImplicit false
set_option relaxedAutoImplicit false

namespace LocalDesktop.Android.LateClient

open Foundation.Transition Platform Proot Backend Installation
open Pipeline (Setup)
open Webview (PageMessage pageMessage)
open Sampling (pages pages_append)

def connecting : List Webview.Event :=
  [.arrived true, .locked, .answered true true, .accepted 0, .serving 0]

def deliveries (value : Nat) : List SetupMessage → List Webview.Event
  | [] => []
  | m :: ms =>
    [.taken 0 m, .read 0, .turned 0, .written 0 m (pageMessage value m)] ++ deliveries value ms

def unattended (queue : List SetupMessage) (value : Nat) : Webview.State :=
  ⟨queue, true, value, .idle, none, [], none, 0, fun _ => false, false, false⟩

def attended (queue : List SetupMessage) (value : Nat) : Webview.State :=
  ⟨queue, true, value, .idle, some (0, .receiving), [], some 0, 1, fun _ => false, false, false⟩

variable {p : Setup} {h : List Pipeline.Event} {s : Pipeline.State} {m : SetupMessage}
  {ms queue : List SetupMessage} {value : Nat}

private theorem run_connecting :
    Path Webview.system (unattended queue value) connecting (attended queue value) := by
  let w := unattended queue value
  have hfree : ({ w with acceptor := .arrived true } : Webview.State).free := by
    refine ⟨rfl, ?_⟩
    rintro i serving ⟨⟩
  have harrive : Webview.Step w (.arrived true) { w with acceptor := .arrived true } :=
    .arrive rfl
  have hlock : Webview.Step { w with acceptor := .arrived true } .locked
      { w with acceptor := .holding true } := .lock rfl hfree rfl
  have hanswer : Webview.Step { w with acceptor := .holding true } (.answered true true)
      { w with acceptor := .replying true } := .answer rfl
  have haccept : Webview.Step { w with acceptor := .replying true } (.accepted 0)
      { w with active := some 0, accepted := 1, waiting := [0] } := .accept rfl
  have hserve : Webview.Step { w with active := some 0, accepted := 1, waiting := [0] } (.serving 0)
      (attended queue value) := .serve (List.mem_singleton_self 0) rfl rfl
  exact @Path.cons _ _ Webview.system _ _ _ _ _ harrive (.cons hlock (.cons hanswer
    (.cons haccept (.single hserve))))

private theorem run_delivery : Path Webview.system (attended (m :: queue) value)
    [.taken 0 m, .read 0, .turned 0, .written 0 m (pageMessage value m)]
    (attended queue value) := by
  let w := attended queue value
  let page := pageMessage value m
  have hfree : ({ w with server := some (0, .locking m page) } : Webview.State).free := by
    refine ⟨rfl, ?_⟩
    rintro i serving ⟨⟩
    rfl
  have htake : Webview.Step (attended (m :: queue) value) (.taken 0 m)
      { w with server := some (0, .reading m) } := .take rfl rfl
  have hread : Webview.Step { w with server := some (0, .reading m) } (.read 0)
      { w with server := some (0, .locking m page) } := .read rfl
  have hturn : Webview.Step { w with server := some (0, .locking m page) } (.turned 0)
      { w with server := some (0, .holding m page) } := .turn rfl hfree rfl
  have hwrite : Webview.Step { w with server := some (0, .holding m page) } (.written 0 m page)
      w := .write rfl rfl rfl
  exact @Path.cons _ _ Webview.system _ _ _ _ _ htake (.cons hread (.cons hturn (.single hwrite)))

private theorem run_deliveries (ms : List SetupMessage) :
    Path Webview.system (attended ms value) (deliveries value ms) (attended [] value) := by
  induction ms with
  | nil => exact .nil _
  | cons m ms ih => exact run_delivery.append ih

def lateHistory (h : List Pipeline.Event) (value : Nat) : List Event :=
  h.map .setup ++ (connecting ++ deliveries value (sends h)).map .backend

private theorem pages_deliveries (value : Nat) (ms : List SetupMessage) :
    pages (deliveries value ms) = ms.map (pageMessage value) := by
  induction ms with
  | nil => rfl
  | cons m ms ih =>
    rw [deliveries, pages_append, ih]
    rfl

private theorem pages_setup (h : List Pipeline.Event) :
    pages (observed backendEvent (h.map .setup)) = [] := by
  induction h with
  | nil => rfl
  | cons e h ih => cases e <;> exact ih

theorem pages_lateHistory (h : List Pipeline.Event) (value : Nat) :
    pages (observed backendEvent (lateHistory h value)) = (sends h).map (pageMessage value) := by
  have hright : backendEvent ∘ Event.backend = some := rfl
  have hbackend (h' : List Webview.Event) : observed backendEvent (h'.map .backend) = h' := by
    rw [observed, List.filterMap_map, hright, List.filterMap_some]
  rw [lateHistory, observed_append, hbackend, pages_append, pages_setup, List.nil_append,
    pages_append, pages_deliveries]
  rfl

private theorem may_connecting (hbuilt : Built s) :
    ∀ e ∈ connecting, ∀ w, may (s, w) (.backend e) := by
  simp [connecting, may, hbuilt]

private theorem may_deliveries (hbuilt : Built s) (value : Nat) (ms : List SetupMessage) :
    ∀ e ∈ deliveries value ms, ∀ w, may (s, w) (.backend e) := by
  induction ms with
  | nil => simp [deliveries]
  | cons m ms ih =>
    intro e he
    rcases List.mem_append.mp he with he | he
    · simp only [List.mem_cons, List.not_mem_nil, or_false] at he
      rcases he with rfl | rfl | rfl | rfl <;> exact fun _ => hbuilt
    · exact ih e he

/-- After any run of setup that ends with the webview backend, a client may connect and be shown
every message that was sent with the last progress value. -/
theorem run_lateHistory (hrun : p.system.Run h s) (hbuilt : Built s) (hstays : .dropped ∉ h) :
    (system p).Run (lateHistory h s.progress) (s, attended [] s.progress) := by
  have hsetup : (system p).Run (h.map .setup) (s, heard (unattended [] 0) h) :=
    setup_alone hrun rfl hstays
  have hheard : heard (unattended [] 0) h = unattended (sends h) s.progress := by
    rw [← progress_eq hsetup]
    rfl
  rw [hheard] at hsetup
  refine hsetup.append (backend_alone (run_connecting.append (run_deliveries _)) ?_)
  intro e he
  rcases List.mem_append.mp he with he | he
  · exact may_connecting hbuilt e he
  · exact may_deliveries hbuilt _ _ e he

end LocalDesktop.Android.LateClient
