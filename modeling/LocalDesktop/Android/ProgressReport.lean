/- GID: LocalDesktop/Android/ProgressReport
   generality: G
   digest: The progress stored by setup and shown to the clients over every interleaving. -/

import LocalDesktop.Android.LateClient

set_option autoImplicit false
set_option relaxedAutoImplicit false

namespace LocalDesktop.Android.ProgressReport

open Foundation.Transition Platform Proot Backend Installation
open Pipeline (Setup agrees)
open PipelineOrder (Completed)
open PipelineProgress (stores)
open Webview (PageMessage)
open Sampling (pages)

def AllCompleted (p : Setup) (h : List Event) : Prop :=
  ∀ i < p.stages.length, Completed (observed setupEvent h) i

/-- What setup stores and what the clients are shown, up to a state of a run. -/
structure Honest (p : Setup) (h : List Event) (s : State) : Prop where
  exact : ∀ k, s.1.driver.due p.stages.length = some k →
    p.percent k = some (k * 100 / p.stages.length)
  rising : (stores (observed setupEvent h)).Pairwise (· ≤ ·)
  within : ∀ v ∈ stores (observed setupEvent h), v ≤ 100
  complete : ∀ pre post, h = pre ++ .setup (.stored 100) :: post → AllCompleted p pre
  shown : ((pages (observed backendEvent h)).map PageMessage.progress).Pairwise (· ≤ ·)
  shownComplete : ∀ pre post c m page, h = pre ++ .backend (.written c m page) :: post →
    page.progress = 100 → AllCompleted p pre

variable {p : Setup} {h pre post : List Event} {s t : State} {e : Event}

private theorem AllCompleted.append (hall : AllCompleted p pre) (post : List Event) :
    AllCompleted p (pre ++ post) := by
  intro i hi
  rw [observed_append]
  exact (hall i hi).imp (List.mem_append_left _) (List.mem_append_left _)

private theorem completed_of_stored (hn : p.stages.length < 65536)
    (hrun : (system p).Run (pre ++ .setup (.stored 100) :: post) s) : AllCompleted p pre := by
  have hsetup := setup_run hrun
  have hsplit : observed setupEvent (pre ++ .setup (.stored 100) :: post) =
      observed setupEvent pre ++ .stored 100 :: observed setupEvent post := observed_append
  rw [hsplit] at hsetup
  exact PipelineProgress.completed_of_hundred hn hsetup

private theorem stored_by_setup {v : Nat} (hrun : (system p).Run h s)
    (hstored : .stored v ∈ observed backendEvent h) : .setup (.stored v) ∈ h := by
  obtain ⟨e, he, hevent⟩ := mem_observed.mp hstored
  cases e with
  | setup e =>
    cases e <;> cases hevent
    exact he
  | backend e =>
    cases hevent
    obtain ⟨before, after, rfl⟩ := List.append_of_mem he
    obtain ⟨t, t', -, ⟨hmay, -⟩, -⟩ := hrun.at_event
    exact hmay.elim

private theorem completed_of_written {c : Nat} {m : SetupMessage} {page : PageMessage}
    (hn : p.stages.length < 65536)
    (hrun : (system p).Run (pre ++ .backend (.written c m page) :: post) s)
    (hpage : page.progress = 100) : AllCompleted p pre := by
  have hbackend := backend_run hrun
  have hsplit : observed backendEvent (pre ++ .backend (.written c m page) :: post) =
      observed backendEvent pre ++ .written c m page :: observed backendEvent post :=
    observed_append
  rw [hsplit] at hbackend
  obtain ⟨t, t', hpre, -, -⟩ := hrun.at_event
  have hstored : .stored page.progress ∈ observed backendEvent pre := by
    refine (Sampling.stored_of_written hbackend).resolve_left ?_
    rw [hpage]
    exact Nat.succ_ne_zero 99
  rw [hpage] at hstored
  obtain ⟨before, after, rfl⟩ := List.append_of_mem (stored_by_setup hpre hstored)
  exact (completed_of_stored hn hpre).append _

section Run

variable (hpos : 1 ≤ p.stages.length) (hn : p.stages.length ≤ 655)
include hpos hn

private theorem rising_run (hrun : (system p).Run h s) :
    (Webview.system.guarded Sampling.Rising).Run (observed backendEvent h) s.2 := by
  have hstart : (Webview.system.guarded Sampling.Rising).Run [] Webview.system.start := .nil _
  refine Path.invariant (I := fun h (s : State) =>
    (Webview.system.guarded Sampling.Rising).Run (observed backendEvent h) s.2) hrun hstart ?_
  intro h s e t hpath hs hstep
  have hprogress := progress_eq hpath
  obtain ⟨hmay, hleft, hright⟩ := hstep
  rw [observed_snoc]
  cases hevent : backendEvent e with
  | none =>
    rw [hevent] at hright
    rw [show t.2 = s.2 from hright]
    simpa using hs
  | some e' =>
    rw [hevent] at hright
    refine Path.snoc hs ⟨?_, hright⟩
    rintro v rfl
    rw [hprogress]
    cases e with
    | setup e =>
      cases e <;> cases hevent
      exact PipelineProgress.stored_rises hpos hn (setup_run hpath) hleft
    | backend e =>
      cases hevent
      exact hmay.elim

/-- With one to 655 stages the progress is honest over every run. -/
theorem progress_honest (hrun : (system p).Run h s) : Honest p h s where
  exact k hd := PipelineProgress.due_exact hpos hn (setup_run hrun) hd
  rising := PipelineProgress.stores_sorted hpos hn (setup_run hrun)
  within := PipelineProgress.stores_le hpos hn (setup_run hrun)
  complete pre post hsplit := by
    rw [hsplit] at hrun
    exact completed_of_stored (by omega) hrun
  shown := Sampling.pages_sorted (rising_run hpos hn hrun)
  shownComplete pre post c m page hsplit hpage := by
    rw [hsplit] at hrun
    exact completed_of_written (by omega) hrun hpage

end Run

theorem progress_honest_of_two_stages :
    ∃ h s, (system PipelineOrder.twoStages).Run h s ∧
      pages (observed backendEvent h) =
        [⟨100, "Installation finished, please restart the app", false⟩] ∧
      Honest PipelineOrder.twoStages h s := by
  have hstays : Pipeline.Event.dropped ∉ PipelineOrder.twoStagesHistory := by decide
  have hrun := LateClient.run_lateHistory PipelineOrder.run_twoStages ⟨rfl, rfl⟩ hstays
  refine ⟨_, _, hrun, ?_, progress_honest (by decide) (by decide) hrun⟩
  rw [LateClient.pages_lateHistory]
  rfl

end LocalDesktop.Android.ProgressReport
