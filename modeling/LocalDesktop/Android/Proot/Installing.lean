/- GID: LocalDesktop/Android/Proot/Installing
   generality: G
   digest: A run of the five stages of setup in which only the packages are still to be installed. -/

import LocalDesktop.Android.Proot.PipelineFailure
import LocalDesktop.Android.Proot.PipelineProgress

set_option autoImplicit false
set_option relaxedAutoImplicit false

namespace LocalDesktop.Android.Proot.Installing

open Foundation.Strings Foundation.FileTree Foundation.Transition Platform Core.Config Stages ArchFs
  Pipeline PipelineOrder PipelineFailure
open Foundation.Effects (Run Program Outcome)

private theorem firefox_configured :
    Behaves smallDevice setupFirefoxConfig ⟨[], .finished⟩ := by
  obtain ⟨tr, t, hrun, hsends⟩ : ∃ tr t,
      StorageRun smallDevice setupFirefoxConfig installedTree tr (.returned none) t ∧
        sends tr = [] :=
    ⟨_, _, .step (Or.inr ⟨rfl, rfl⟩) (.step (Or.inr ⟨rfl, rfl⟩) (.step (Or.inr ⟨rfl, rfl⟩)
      (.step (Or.inr ⟨rfl, rfl⟩) (.pure _ _)))), rfl⟩
  have hbehaves := Behaves.finished hrun
  rwa [hsends] at hbehaves

private theorem xkb_absent (diffPaths : Path → Path → Option Path) :
    Behaves smallDevice (fixXkbSymlink diffPaths) ⟨[], .finished⟩ := by
  have hrun : StorageRun smallDevice (fixXkbSymlink diffPaths) installedTree
      [⟨installedTree, .readLink (inRoot ["usr", "share", "X11", "xkb"]), some none, installedTree⟩]
      (.returned none) installedTree := .step ⟨rfl, fun _ h => by cases h⟩ (.pure _ _)
  exact .finished hrun

/-! The run: the program prints its lines, and the stages after it have little to do. -/

def installing (lines : List Text) : Setup :=
  setup smallDevice false true (lines.length + 1) (fun _ _ => none) smallContext

private theorem percent_installing (lines : List Text) (k : Nat) (hk : k ≤ 5) :
    (installing lines).percent k = some (k * 100 / 5) := by
  have hlength : (installing lines).stages.length = 5 := rfl
  rw [← hlength] at hk ⊢
  exact PipelineProgress.percent_eq (by omega) (by omega) hk

def mainHistory : List Event := [.called .main 0, .returned 0 false, .called .main 1,
  .returned 1 false, .called .main 2, .returned 2 true, .chosen .webview]

def coordinatorHistory : List Event := [.ended 2 .ok, .stored 40, .joined 2 .ok, .stored 60,
  .called .coordinator 3, .returned 3 false, .stored 80, .called .coordinator 4, .returned 4 false,
  .stored 100, .sent .coordinator installationFinished]

def installHistory (lines : List Text) : List Event :=
  mainHistory ++ (printed lines).map (.sent (.thread 2)) ++ coordinatorHistory

private theorem run_main (lines : List Text) :
    (installing lines).system.Run mainHistory
      ⟨.starting 2 (.running (printed lines) .ok), true, 0, true⟩ := by
  have hdone : ∀ i < 2, Allows (installing lines) i ⟨[], .finished⟩ := by
    intro i hi
    obtain rfl | rfl : i = 0 ∨ i = 1 := by omega
    · exact ⟨_, rfl, archFs_done _⟩
    · exact ⟨_, rfl, sysdata_done⟩
  exact run_begun hdone ⟨_, rfl, dependencies_installed lines⟩

private theorem run_thread (p : Setup) (i : Nat) (ms : List SetupMessage) (x : Ending) (v : Nat) :
    Path p.system ⟨.starting i (.running ms x), true, v, true⟩ (ms.map (.sent (.thread i)))
      ⟨.starting i (.running [] x), true, v, true⟩ := by
  induction ms with
  | nil => exact .nil _
  | cons m ms ih =>
    have hsend : Step p ⟨.starting i (.running (m :: ms) x), true, v, true⟩ (.sent (.thread i) m)
        ⟨.starting i (.running ms x), true, v, true⟩ := .threadSend rfl
    exact @Path.cons _ _ p.system _ _ _ _ _ hsend ih

private theorem run_coordinator (lines : List Text) :
    Path (installing lines).system ⟨.starting 2 (.running [] .ok), true, 0, true⟩
      coordinatorHistory ⟨.done, true, 100, true⟩ := by
  let p := installing lines
  have h₀ : Step p ⟨.starting 2 (.running [] .ok), true, 0, true⟩ (.ended 2 .ok)
      ⟨.starting 2 (.ended .ok), true, 0, true⟩ := .threadEnd rfl
  have h₁ : Step p ⟨.starting 2 (.ended .ok), true, 0, true⟩ (.stored 40)
      ⟨.joining 2 true (.ended .ok), true, 40, true⟩ :=
    .store (k := 2) rfl (percent_installing lines 2 (by decide))
  have h₂ : Step p ⟨.joining 2 true (.ended .ok), true, 40, true⟩ (.joined 2 .ok)
      ⟨.next 3, true, 40, true⟩ := .joinFirst rfl
  have h₃ : Step p ⟨.next 3, true, 40, true⟩ (.stored 60) ⟨.ready 3, true, 60, true⟩ :=
    .store (k := 3) rfl (percent_installing lines 3 (by decide))
  have h₄ : Step p ⟨.ready 3, true, 60, true⟩ (.called .coordinator 3)
      ⟨.calling .coordinator 3 [] .finished, true, 60, true⟩ := .call rfl rfl firefox_configured
  have h₅ : Step p ⟨.calling .coordinator 3 [] .finished, true, 60, true⟩ (.returned 3 false)
      ⟨.next 4, true, 60, true⟩ := @Step.finished _ _ .coordinator 3 rfl
  have h₆ : Step p ⟨.next 4, true, 60, true⟩ (.stored 80) ⟨.ready 4, true, 80, true⟩ :=
    .store (k := 4) rfl (percent_installing lines 4 (by decide))
  have h₇ : Step p ⟨.ready 4, true, 80, true⟩ (.called .coordinator 4)
      ⟨.calling .coordinator 4 [] .finished, true, 80, true⟩ := .call rfl rfl (xkb_absent _)
  have h₈ : Step p ⟨.calling .coordinator 4 [] .finished, true, 80, true⟩ (.returned 4 false)
      ⟨.next 5, true, 80, true⟩ := @Step.finished _ _ .coordinator 4 rfl
  have h₉ : Step p ⟨.next 5, true, 80, true⟩ (.stored 100) ⟨.finishing, true, 100, true⟩ :=
    .allDone rfl (Nat.le_refl 5)
  have h₁₀ : Step p ⟨.finishing, true, 100, true⟩ (.sent .coordinator installationFinished)
      ⟨.done, true, 100, true⟩ := .finish rfl rfl
  exact @Path.cons _ _ p.system _ _ _ _ _ h₀ (.cons h₁ (.cons h₂ (.cons h₃ (.cons h₄ (.cons h₅
    (.cons h₆ (.cons h₇ (.cons h₈ (.cons h₉ (.single h₁₀))))))))))

theorem run_installing (lines : List Text) :
    (installing lines).system.Run (installHistory lines) ⟨.done, true, 100, true⟩ :=
  ((run_main lines).append (run_thread _ 2 _ .ok 0)).append (run_coordinator lines)

end LocalDesktop.Android.Proot.Installing
