/- GID: LocalDesktop/Android/Proot/PipelineProgress
   generality: G
   digest: The progress values that setup stores: exact, never falling, 100 only at the end. -/

import LocalDesktop.Android.Proot.PipelineOrder

set_option autoImplicit false
set_option relaxedAutoImplicit false

namespace LocalDesktop.Android.Proot.PipelineProgress

open Foundation.Transition Platform Pipeline PipelineOrder

def storedValue : Event → Option Nat
  | .stored v => some v
  | _ => none

def stores : List Event → List Nat := observed storedValue

variable {p : Setup} {h : List Event} {s t : State} {e : Event} {d : Driver} {k n v : Nat}

theorem percent_eq (hn : p.stages.length ≤ 655) (hpos : 0 < p.stages.length)
    (hk : k ≤ p.stages.length) : p.percent k = some (k * 100 / p.stages.length) := by
  have hsmall : k % 65536 = k := Nat.mod_eq_of_lt (by omega)
  have hlength : p.stages.length % 65536 = p.stages.length := Nat.mod_eq_of_lt (by omega)
  have hproduct : k * 100 % 65536 = k * 100 := Nat.mod_eq_of_lt (by omega)
  have hfits : ¬(p.overflowChecks = true ∧ 65536 ≤ k * 100) := by omega
  have hne : p.stages.length ≠ 0 := by omega
  simp only [Setup.percent, percentOf, hsmall, hlength, hproduct, if_neg hfits, if_neg hne]

/-- Even where percentages wrap, none is 100 before the last stage is done. -/
private theorem eq_of_percent_hundred (hn : p.stages.length < 65536) (hpos : 0 < p.stages.length)
    (hk : k ≤ p.stages.length) (hpercent : p.percent k = some 100) : k = p.stages.length := by
  have hsmall : k % 65536 = k := Nat.mod_eq_of_lt (by omega)
  have hlength : p.stages.length % 65536 = p.stages.length := Nat.mod_eq_of_lt hn
  simp only [Setup.percent, percentOf, hsmall, hlength] at hpercent
  split at hpercent
  · cases hpercent
  · split at hpercent
    · cases hpercent
    · have hdiv : k * 100 % 65536 / p.stages.length = 100 := Option.some.inj hpercent
      have hge := Nat.div_mul_le_self (k * 100 % 65536) p.stages.length
      rw [hdiv] at hge
      have hmod : k * 100 % 65536 ≤ k * 100 := Nat.mod_le _ _
      omega

private theorem eq_stored (he : storedValue e = some v) : e = .stored v := by
  cases e <;> cases he
  rfl

@[simp] theorem storedValue_send (s : State) (sender : Sender) (m : SetupMessage) :
    storedValue (s.send sender m) = none := by
  unfold State.send
  split <;> rfl

theorem send_ne_stored (s : State) (sender : Sender) (m : SetupMessage) (v : Nat) :
    s.send sender m ≠ .stored v := by
  intro he
  have hvalue := storedValue_send s sender m
  rw [he] at hvalue
  cases hvalue

theorem progress_step (hstep : Step p s e t) : t.progress = (storedValue e).getD s.progress := by
  cases hstep with
  | functionSend | threadSend | report => rw [storedValue_send]; rfl
  | _ => rfl

private theorem due_passed (hd : d.due n = some k) : d.passed n = k := by
  unfold Driver.due at hd
  split at hd
  · exact Option.some.inj hd
  · exact Option.some.inj hd
  · split at hd
    · exact Option.some.inj hd
    · cases hd
  · cases hd

private theorem passed_le_called (d : Driver) (n : Nat) : d.passed n ≤ d.called n := by
  induction d with
  | crashed d ih => exact ih
  | loop | installed | unbuilt | joined | next | ready | finishing | done => exact Nat.le_refl _
  | calling | starting | joining | reporting | failed => exact Nat.le_succ _

private theorem passed_step (hbound : s.driver.called p.stages.length ≤ p.stages.length)
    (hstep : Step p s e t) :
    s.driver.passed p.stages.length ≤ t.driver.passed p.stages.length := by
  cases hstep with
  | @call caller i stage c hd _ _ =>
    rw [hd]
    cases caller <;> exact Nat.le_refl _
  | @finished caller i hd =>
    rw [hd]
    cases caller <;> exact Nat.le_succ _
  | @handle caller i ms x hd =>
    rw [hd]
    cases caller <;> exact Nat.le_refl _
  | leave hd _ | unbuilt hd _ =>
    rw [hd] at hbound ⊢
    exact hbound
  | @threadSend i m ms x hd =>
    obtain ⟨hpassed, -, -, hpassed', -⟩ :=
      Driver.setThread_spec (n := p.stages.length) hd (.running ms x)
    exact (hpassed.trans hpassed'.symm).le
  | @threadEnd i x hd =>
    obtain ⟨hpassed, -, -, hpassed', -⟩ :=
      Driver.setThread_spec (n := p.stages.length) hd (.ended x)
    exact (hpassed.trans hpassed'.symm).le
  | store hd _ => exact (Driver.due_spec hd).1.ge
  | joinFirst hd | joinNext hd =>
    rw [hd]
    exact Nat.le_succ _
  | allDone hd _ =>
    rw [hd] at hbound ⊢
    exact hbound
  | functionSend hd | joinFailed hd | report hd | finish hd _ | unheard hd _ =>
    rw [hd]
    exact Nat.le_refl _
  | raise | overflow | choose | drop => exact Nat.le_refl _

/-- What the values stored so far are, beside the value that stands. -/
structure Climbs (p : Setup) (h : List Event) (s : State) : Prop where
  sorted : (stores h).Pairwise (· ≤ ·)
  top : ∀ v ∈ stores h, v ≤ s.progress
  level : s.progress ≤ s.driver.passed p.stages.length * 100 / p.stages.length

private theorem Climbs.quiet (hs : Climbs p h s) (he : storedValue e = none)
    (hprogress : t.progress = s.progress)
    (hpassed : s.driver.passed p.stages.length ≤ t.driver.passed p.stages.length) :
    Climbs p (h ++ [e]) t where
  sorted := by
    rw [stores, observed_quiet he]
    exact hs.sorted
  top := by
    rw [stores, observed_quiet he, hprogress]
    exact hs.top
  level := by
    rw [hprogress]
    exact hs.level.trans (Nat.div_le_div_right (Nat.mul_le_mul_right 100 hpassed))

private theorem Climbs.tell (hs : Climbs p h s) (he : storedValue e = some v)
    (hprogress : t.progress = v)
    (hv : v = s.driver.passed p.stages.length * 100 / p.stages.length)
    (hpassed : s.driver.passed p.stages.length ≤ t.driver.passed p.stages.length) :
    Climbs p (h ++ [e]) t where
  sorted := by
    rw [stores, observed_tell he, List.pairwise_append]
    refine ⟨hs.sorted, List.pairwise_singleton _ _, ?_⟩
    intro a ha b hb
    rw [List.mem_singleton.mp hb, hv]
    exact (hs.top a ha).trans hs.level
  top := by
    intro a ha
    rw [stores, observed_tell he] at ha
    rw [hprogress, hv]
    rcases List.mem_append.mp ha with ha | ha
    · exact (hs.top a ha).trans hs.level
    · rw [List.mem_singleton.mp ha, hv]
  level := by
    rw [hprogress, hv]
    exact Nat.div_le_div_right (Nat.mul_le_mul_right 100 hpassed)

section Run

variable (hpos : 1 ≤ p.stages.length) (hn : p.stages.length ≤ 655)
include hpos hn

private theorem stored_exact (hbound : s.driver.called p.stages.length ≤ p.stages.length)
    (hstep : Step p s (.stored v) t) :
    v = s.driver.passed p.stages.length * 100 / p.stages.length := by
  have hdone := passed_le_called s.driver p.stages.length
  generalize he : Event.stored v = e at hstep
  cases hstep with
  | @store k w hd hpercent =>
    cases he
    have hk := due_passed hd
    rw [percent_eq hn hpos (by omega)] at hpercent
    rw [hk, Option.some.inj hpercent]
  | @allDone j hd hj =>
    cases he
    have hall : s.driver.passed p.stages.length = p.stages.length := by
      rw [hd] at hbound ⊢
      exact Nat.le_antisymm hbound hj
    rw [hall, Nat.mul_div_cancel_left 100 hpos]
  | functionSend | threadSend | report => exact absurd he.symm (send_ne_stored _ _ _ _)
  | _ => cases he

private theorem climbs_step (hbound : s.driver.called p.stages.length ≤ p.stages.length)
    (hs : Climbs p h s) (hstep : Step p s e t) : Climbs p (h ++ [e]) t := by
  have hpassed := passed_step hbound hstep
  have hvalue := progress_step hstep
  cases he : storedValue e with
  | none =>
    rw [he] at hvalue
    exact hs.quiet he hvalue hpassed
  | some v =>
    rw [he] at hvalue
    rw [eq_stored he] at hstep
    exact hs.tell he hvalue (stored_exact hpos hn hbound hstep) hpassed

private theorem climbs (hrun : p.system.Run h s) : Climbs p h s := by
  refine Path.invariant hrun ⟨List.Pairwise.nil, by simp [stores, observed], Nat.zero_le _⟩ ?_
  intro h s e t hpath hs hstep
  exact climbs_step hpos hn (agrees hpath).bound hs hstep

theorem stores_sorted (hrun : p.system.Run h s) : (stores h).Pairwise (· ≤ ·) :=
  (climbs hpos hn hrun).sorted

theorem stores_le (hrun : p.system.Run h s) : ∀ v ∈ stores h, v ≤ 100 := by
  intro v hv
  have hs := climbs hpos hn hrun
  have hdone : s.driver.passed p.stages.length ≤ p.stages.length :=
    (passed_le_called _ _).trans (agrees hrun).bound
  calc v ≤ s.progress := hs.top v hv
    _ ≤ s.driver.passed p.stages.length * 100 / p.stages.length := hs.level
    _ ≤ p.stages.length * 100 / p.stages.length :=
      Nat.div_le_div_right (Nat.mul_le_mul_right 100 hdone)
    _ = 100 := Nat.mul_div_cancel_left 100 hpos

theorem stored_rises (hrun : p.system.Run h s) (hstep : Step p s (.stored v) t) :
    s.progress ≤ v := by
  rw [stored_exact hpos hn (agrees hrun).bound hstep]
  exact (climbs hpos hn hrun).level

theorem due_exact (hrun : p.system.Run h s) (hd : s.driver.due p.stages.length = some k) :
    p.percent k = some (k * 100 / p.stages.length) :=
  percent_eq hn hpos (due_le hd (agrees hrun).bound).1

end Run

theorem passed_of_hundred (hn : p.stages.length < 65536)
    (hbound : s.driver.called p.stages.length ≤ p.stages.length)
    (hstep : Step p s (.stored 100) t) : s.driver.passed p.stages.length = p.stages.length := by
  generalize he : Event.stored 100 = e at hstep
  cases hstep with
  | store hd hpercent =>
    cases he
    obtain ⟨hk, hpos⟩ := due_le hd hbound
    rw [due_passed hd]
    exact eq_of_percent_hundred hn hpos hk hpercent
  | allDone hd hj =>
    rw [hd] at hbound ⊢
    exact Nat.le_antisymm hbound hj
  | functionSend | threadSend | report => exact absurd he.symm (send_ne_stored _ _ _ _)
  | _ => cases he

theorem completed_of_hundred (hn : p.stages.length < 65536) {pre post : List Event}
    (hrun : p.system.Run (pre ++ .stored 100 :: post) s) :
    ∀ i < p.stages.length, Completed pre i := by
  obtain ⟨t, t', hpre, hstep, -⟩ := hrun.at_event
  have hagrees := agrees hpre
  intro i hi
  refine completed_of_passed hagrees.tales ?_
  rw [passed_of_hundred hn hagrees.bound hstep]
  exact hi

end LocalDesktop.Android.Proot.PipelineProgress
