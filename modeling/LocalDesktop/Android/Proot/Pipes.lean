/- GID: LocalDesktop/Android/Proot/Pipes
   generality: G
   digest: The pipes of a child, the callers that read them, and those that wait for it meanwhile. -/

import LocalDesktop.Foundation.Pipes

set_option autoImplicit false
set_option relaxedAutoImplicit false

namespace LocalDesktop.Android.Proot.Pipes

open Foundation.Pipes

inductive Stream
  | stdout
  | stderr
  deriving DecidableEq

/-- `ArchProcess::spawn`: the output is always `Stdio::piped()`, the error output only where the
caller panics on errors; otherwise it is inherited. -/
def piped (panicOnError : Bool) : Stream → Bool
  | .stdout => true
  | .stderr => panicOnError

section Callers

variable (capacity : Stream → Nat) (hcapacity : ∀ s, 0 < capacity s)

/-- `ArchProcess::wait`, after `exec` or `exec_as`: no pipe is read. -/
def wait : Setting Stream where
  piped := piped false
  reads := none
  reads_piped := by simp
  capacity := capacity
  capacity_pos := hcapacity

/-- `ArchProcess::exec_with_panic_on_error`: `read_to_string` on the error output. -/
def execWithPanicOnError : Setting Stream where
  piped := piped true
  reads := some .stderr
  reads_piped := by simp [piped]
  capacity := capacity
  capacity_pos := hcapacity

/-- `ArchProcess::with_log` and `wait_with_output`, after `exec` or `exec_as`: the output is read to
its end. -/
def readOutput : Setting Stream where
  piped := piped false
  reads := some .stdout
  reads_piped := by simp [piped]
  capacity := capacity
  capacity_pos := hcapacity

variable {capacity hcapacity}

private theorem unread_wait {s : Stream} : (wait capacity hcapacity).Unread s ↔ s = .stdout := by
  cases s <;> simp [wait, Setting.Unread, piped]

private theorem unread_execWithPanicOnError {s : Stream} :
    (execWithPanicOnError capacity hcapacity).Unread s ↔ s = .stdout := by
  cases s <;> simp [execWithPanicOnError, Setting.Unread, piped]

/-- Callers that read the output leave no pipe unread. -/
theorem readOutput_never_deadlocks (acts : List (Act Stream)) :
    (readOutput capacity hcapacity).NeverDeadlocks acts := by
  refine Setting.neverDeadlocks_iff.mpr fun s hs => ?_
  cases s with
  | stdout => exact absurd rfl hs.2
  | stderr => exact absurd hs.1 (by simp [readOutput, piped])

/-- Waiting is safe if and only if the pipe can hold all that is written to the output; reading the
error output is safe if and only if it can hold what is written before the error output is closed. -/
theorem wait_never_deadlocks_iff (hcapacity : ∀ s, 0 < capacity s) (acts : List (Act Stream)) :
    ((wait capacity hcapacity).NeverDeadlocks acts ↔
      written .stdout (before .stdout acts) ≤ capacity .stdout) ∧
    ((execWithPanicOnError capacity hcapacity).NeverDeadlocks acts ↔
      written .stdout (before .stdout (before .stderr acts)) ≤ capacity .stdout) := by
  constructor
  · simp only [Setting.neverDeadlocks_iff, unread_wait, forall_eq]
    rfl
  · simp only [Setting.neverDeadlocks_iff, unread_execWithPanicOnError, forall_eq]
    rfl

end Callers

def pages : Stream → Nat := fun _ => 65536

private theorem pages_pos (s : Stream) : 0 < pages s := Nat.succ_pos 65535

theorem wait_never_deadlocks_on_hello :
    (wait pages pages_pos).NeverDeadlocks [.write .stdout 6] ∧
      (execWithPanicOnError pages pages_pos).NeverDeadlocks [.write .stdout 6] := by
  obtain ⟨hwait, hexec⟩ := wait_never_deadlocks_iff pages_pos [.write .stdout 6]
  exact ⟨hwait.mpr (by decide), hexec.mpr (by decide)⟩

/-- The child prints one byte more than the pipe can hold. -/
theorem wait_deadlocks_on_long_output :
    ¬∀ (capacity : Stream → Nat) (hcapacity : ∀ s, 0 < capacity s) (acts : List (Act Stream)),
      (wait capacity hcapacity).NeverDeadlocks acts := by
  intro hall
  have hnever := hall pages pages_pos [.write .stdout 65537]
  have hload := Setting.neverDeadlocks_iff.mp hnever .stdout (unread_wait.mpr rfl)
  exact absurd hload (by decide)

end LocalDesktop.Android.Proot.Pipes
