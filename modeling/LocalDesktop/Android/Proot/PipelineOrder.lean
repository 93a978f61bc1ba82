/- GID: LocalDesktop/Android/Proot/PipelineOrder
   generality: G
   digest: The order of the stages over every run of setup, and what is sent at its end. -/

import LocalDesktop.Android.Proot.PipelineInvariant

set_option autoImplicit false
set_option relaxedAutoImplicit false

namespace LocalDesktop.Android.Proot.PipelineOrder

open Foundation.Transition Platform Pipeline

def Returns (p : Setup) : Prop :=
  ∀ stage ∈ p.stages, ∀ c, stage c → ∀ x, c.result ≠ .panicked x

/-- No percentage of this number of stages overflows or divides by zero. -/
def PercentDefined (p : Setup) : Prop :=
  p.stages.length = 0 ∨ (p.stages.length % 65536 ≠ 0 ∧
    (p.overflowChecks = true → p.stages.length ≤ 655))

/-- Stage `i` is done: its function returned `None`, or its thread ended well. -/
def Completed (h : List Event) (i : Nat) : Prop :=
  .returned i false ∈ h ∨ .ended i .ok ∈ h

def coordinatorMessages : List Event → List SetupMessage :=
  observed fun
    | .sent .coordinator m => some m
    | _ => none

/-- What holds of every run of setup, however far it has come. -/
structure InOrder (p : Setup) (h : List Event) : Prop where
  once : ∃ m, m ≤ p.stages.length ∧ calls h = List.range m
  after : ∀ pre post caller k, h = pre ++ .called caller (k + 1) :: post →
    .returned k false ∈ pre ∨ .joined k .ok ∈ pre
  stopped : ∀ pre post i x, h = pre ++ .joined i (.panicked x) :: post → calls post = []
  last : ∀ pre post, h = pre ++ .sent .coordinator installationFinished :: post →
    ∀ sender m, .sent sender m ∉ post

/-- What holds of a run of setup at its end. -/
structure AtEnd (p : Setup) (h : List Event) : Prop where
  wayland : .chosen .wayland ∈ h ↔
    (∀ i < p.stages.length, .returned i false ∈ h) ∧ .unbuilt ∉ h
  finished : .sent .coordinator installationFinished ∈ h ↔
    (∃ i, .returned i true ∈ h) ∧ ∀ i < p.stages.length, Completed h i
  once : .sent .coordinator installationFinished ∈ h →
    coordinatorMessages h = [installationFinished]
  failed : ∀ i x, .joined i (.panicked x) ∈ h →
    coordinatorMessages h = [.error (stageError x)]

variable {p : Setup} {h : List Event} {s t : State} {e : Event} {i k : Nat}

def eventOf (i : Nat) : Report → Event
  | .finished => .returned i false
  | .handle => .returned i true
  | .raised x => .raised .main i x
  | .ended x => .ended i x
  | .joined x => .joined i x

private theorem mem_tale_iff {r : Report} (hr : ∀ x, r ≠ .raised x) :
    r ∈ tale i h ↔ eventOf i r ∈ h := by
  rw [mem_tale]
  constructor
  · rintro ⟨e, he, hreport⟩
    unfold Event.report at hreport
    split at hreport <;> cases hreport
    · exact he
    · exact he
    · exact absurd rfl (hr _)
    · exact he
    · exact he
  · intro he
    refine ⟨_, he, ?_⟩
    cases r <;> rfl

private theorem previous_done (hrun : p.system.Run h s) (hstep : Step p s e t)
    (he : e.call = some (k + 1)) : .returned k false ∈ h ∨ .joined k .ok ∈ h := by
  have htales := (agrees hrun).tales
  cases hstep with
  | @call caller i stage c hd _ _ =>
    obtain rfl : i = k + 1 := Option.some.inj he
    have hpassed : s.driver.passed p.stages.length = k + 1 := by
      rw [hd]
      cases caller <;> rfl
    rw [hpassed] at htales
    rcases htales.passed k (Nat.lt_succ_self k) with htale | ⟨-, htale⟩
    · left
      have hmem : Report.finished ∈ tale k h := by simp [htale]
      exact (mem_tale_iff (by simp)).mp hmem
    · right
      have hmem : Report.joined .ok ∈ tale k h := by simp [htale]
      exact (mem_tale_iff (by simp)).mp hmem
  | functionSend | threadSend | report => simp at he
  | leave | unbuilt | choose | finished | handle | raise | threadEnd | store | overflow
  | joinFirst | joinNext | joinFailed | allDone | finish | unheard | drop => cases he

/-- After a failed join the coordinator reports and returns. -/
def Stopped (s : State) : Prop :=
  (∃ i x, s.driver = .reporting i x) ∨ ∃ i x, s.driver = .failed i x

private theorem stopped_step (hs : Stopped s) (hstep : Step p s e t) :
    Stopped t ∧ e.call = none := by
  cases hstep with
  | report hd => exact ⟨Or.inr ⟨_, _, rfl⟩, by simp⟩
  | choose | drop => exact ⟨hs, rfl⟩
  | @call caller i stage c hd _ _ =>
    rcases hs with ⟨i, x, h⟩ | ⟨i, x, h⟩ <;> rw [h] at hd <;> cases caller <;> cases hd
  | threadSend hd | threadEnd hd | store hd _ | overflow hd _ | functionSend hd | finished hd
  | handle hd | raise hd | leave hd _ | unbuilt hd _ | joinFirst hd | joinNext hd | joinFailed hd
  | allDone hd _ | finish hd _ | unheard hd _ =>
    rcases hs with ⟨i, x, h⟩ | ⟨i, x, h⟩ <;> rw [h] at hd <;> cases hd

private theorem stopped_of_joined {x : Payload} (hstep : Step p s e t)
    (he : e.report = some (i, .joined (.panicked x))) : t.driver = .reporting i x := by
  cases hstep with
  | joinFailed => cases he; rfl
  | functionSend | threadSend | report => simp at he
  | call | leave | unbuilt | choose | finished | handle | raise | threadEnd | store
  | overflow | joinFirst | joinNext | allDone | finish | unheard | drop => cases he

theorem done_step (hs : s.driver = .done) (hstep : Step p s e t) :
    t.driver = .done ∧ ∀ sender m, .sent sender m ≠ e := by
  cases hstep with
  | choose | drop => exact ⟨hs, by simp⟩
  | @call caller i stage c hd _ _ => rw [hs] at hd; cases caller <;> cases hd
  | threadSend hd | threadEnd hd | store hd _ | overflow hd _ | functionSend hd | finished hd
  | handle hd | raise hd | leave hd _ | unbuilt hd _ | joinFirst hd | joinNext hd | joinFailed hd
  | allDone hd _ | finish hd _ | unheard hd _ | report hd => rw [hs] at hd; cases hd

private theorem said_of_sent {m : SetupMessage} (hrun : p.system.Run h s)
    (hsent : .sent .coordinator m ∈ h) : m ∈ s.driver.said := by
  rw [← (agrees hrun).said, attempts, mem_observed]
  exact ⟨_, hsent, rfl⟩

private theorem done_of_said {d : Driver} (hd : installationFinished ∈ d.said) : d = .done := by
  unfold Driver.said at hd
  split at hd
  · simp [installationFinished] at hd
  · rfl
  · cases hd

private theorem inOrder (hrun : p.system.Run h s) : InOrder p h where
  once := ⟨_, (agrees hrun).bound, (agrees hrun).calls⟩
  after := by
    rintro pre post caller k rfl
    obtain ⟨t, t', hpre, hstep, -⟩ := hrun.at_event
    exact previous_done hpre hstep rfl
  stopped := by
    rintro pre post i x rfl
    obtain ⟨t, t', -, hstep, hpost⟩ := hrun.at_event
    have hstopped : Stopped t' := Or.inl ⟨i, x, stopped_of_joined hstep rfl⟩
    have hnone := (hpost.stable hstopped fun _ _ _ => stopped_step).2
    exact List.filterMap_eq_nil_iff.mpr hnone
  last := by
    rintro pre post rfl sender m hmem
    obtain ⟨t, t', hpre, hstep, hpost⟩ := hrun.at_event
    have hdone : t'.driver = .done :=
      done_of_said (said_of_sent (hpre.snoc hstep) (List.mem_append_right _ (by simp)))
    have hnone := (hpost.stable (P := fun s => s.driver = .done) hdone fun _ _ _ => done_step).2
    exact hnone _ hmem sender m rfl

/-! Setups in which nothing but a stage's own thread fails. -/

/-- No thread panics but those of the stages, and everything sent is heard. -/
structure Sane (h : List Event) (s : State) : Prop where
  returns : ∀ caller i ms x, s.driver ≠ .calling caller i ms (.panicked x)
  alive : ∀ d, s.driver ≠ .crashed d
  receiver : s.receiver = true
  heard : ∀ sender m, .unsent sender m ∉ h

theorem percent_ne_none (hp : PercentDefined p) (hpos : 0 < p.stages.length)
    (hk : k ≤ p.stages.length) : p.percent k ≠ none := by
  obtain ⟨hne, hsmall⟩ := hp.resolve_left (by omega)
  have hfits : ¬(p.overflowChecks = true ∧ 65536 ≤ k % 65536 * 100) := by
    rintro ⟨hchecks, hlarge⟩
    have hle := hsmall hchecks
    rw [Nat.mod_eq_of_lt (by omega)] at hlarge
    omega
  simp only [Setup.percent, percentOf, if_neg hfits, if_neg hne]
  simp

theorem due_le {d : Driver} {n : Nat} (hd : d.due n = some k) (hcalled : d.called n ≤ n) :
    k ≤ n ∧ 0 < n := by
  unfold Driver.due at hd
  split at hd
  · cases hd
    simp only [Driver.called] at hcalled
    omega
  · cases hd
    simp only [Driver.called] at hcalled
    omega
  · split at hd <;> cases hd
    omega
  · cases hd

private theorem sane_step (hstays : p.receiverStays = true) (hreturns : Returns p)
    (hp : PercentDefined p)
    (hbound : s.driver.called p.stages.length ≤ p.stages.length) (hs : Sane h s)
    (hstep : Step p s e t) : Sane (h ++ [e]) t := by
  have hquiet : (∀ sender m, .unsent sender m ≠ e) → ∀ sender m, .unsent sender m ∉ h ++ [e] := by
    intro hne sender m hmem
    rcases List.mem_append.mp hmem with hmem | hmem
    · exact hs.heard sender m hmem
    · exact hne sender m (List.mem_singleton.mp hmem)
  have hsend : ∀ sender m, s.send sender m = .sent sender m := by
    intro sender m
    rw [State.send, if_pos hs.receiver]
  cases hstep with
  | @call caller i stage c hd hget hc =>
    have hmem : stage ∈ p.stages := List.mem_of_getElem? hget
    refine ⟨?_, by simp, hs.receiver, hquiet (by simp)⟩
    intro caller' i' ms x heq
    injection heq with _ _ _ hresult
    exact hreturns stage hmem c hc x hresult
  | @functionSend caller i m ms r hd =>
    refine ⟨?_, by simp, hs.receiver, hquiet (by simp [hsend])⟩
    intro caller' i' ms' x heq
    injection heq with _ _ _ hresult
    exact hs.returns caller i (m :: ms) x (hresult ▸ hd)
  | @finished caller i hd =>
    cases caller <;> exact ⟨by simp [Caller.after], by simp [Caller.after], hs.receiver,
      hquiet (by simp)⟩
  | @handle caller i ms x hd =>
    cases caller <;> exact ⟨by simp [Caller.hand], by simp [Caller.hand], hs.receiver,
      hquiet (by simp)⟩
  | raise hd => exact absurd hd (hs.returns _ _ _ _)
  | leave | unbuilt => exact ⟨by simp, by simp, hs.receiver, hquiet (by simp)⟩
  | choose => exact ⟨hs.returns, hs.alive, hs.receiver, hquiet (by simp)⟩
  | @threadSend i m ms x hd =>
    rcases Driver.setThread_cases hd (.running ms x) with ⟨-, h'⟩ | ⟨first, -, h'⟩ | ⟨h', -⟩
    · exact ⟨by simp [h'], by simp [h'], hs.receiver, hquiet (by simp [hsend])⟩
    · exact ⟨by simp [h'], by simp [h'], hs.receiver, hquiet (by simp [hsend])⟩
    · exact absurd h' (hs.alive _)
  | @threadEnd i x hd =>
    rcases Driver.setThread_cases hd (.ended x) with ⟨-, h'⟩ | ⟨first, -, h'⟩ | ⟨h', -⟩
    · exact ⟨by simp [h'], by simp [h'], hs.receiver, hquiet (by simp)⟩
    · exact ⟨by simp [h'], by simp [h'], hs.receiver, hquiet (by simp)⟩
    · exact absurd h' (hs.alive _)
  | store hd _ =>
    unfold Driver.due at hd
    refine ⟨?_, ?_, hs.receiver, hquiet (by simp)⟩ <;>
      cases hdriver : s.driver <;> simp_all [Driver.stored]
  | overflow hd hnone =>
    obtain ⟨hk, hpos⟩ := due_le hd hbound
    exact absurd hnone (percent_ne_none hp hpos hk)
  | unheard _ hlost => exact absurd (hs.receiver.symm.trans hlost) (by simp)
  | drop hmay => exact absurd (hstays.symm.trans hmay) (by simp)
  | report => exact ⟨by simp, by simp, hs.receiver, hquiet (by simp [hsend])⟩
  | joinFirst | joinNext | joinFailed | allDone | finish =>
    exact ⟨by simp, by simp, hs.receiver, hquiet (by simp)⟩

theorem sane (hstays : p.receiverStays = true) (hreturns : Returns p) (hp : PercentDefined p)
    (hrun : p.system.Run h s) : Sane h s := by
  refine Path.invariant hrun ⟨by simp [Setup.system], by simp [Setup.system], rfl, by simp⟩ ?_
  intro h s e t hpath hs hstep
  exact sane_step hstays hreturns hp (agrees hpath).bound hs hstep

/-- Where such a setup ends: at a stage that does nothing, or with all stages called. -/
private theorem driver_of_halted (hsane : Sane h s) (hhalted : p.system.Halted s) :
    (∃ i < p.stages.length, s.driver = .loop i) ∨ (∃ j, s.driver = .ready j) ∨
    (s.driver = .installed ∨ s.driver = .unbuilt) ∨ (∃ i x, s.driver = .failed i x) ∨
    s.driver = .done := by
  have hstuck : ∀ {e t}, Step p s e t → False := fun hstep => hhalted _ _ hstep
  have hdue : ∀ k, s.driver.due p.stages.length ≠ some k := by
    intro k hd
    cases hpercent : p.percent k with
    | none => exact hstuck (.overflow hd hpercent)
    | some v => exact hstuck (.store hd hpercent)
  have hthread : ∀ i ms x, s.driver.thread ≠ some (i, .running ms x) := by
    intro i ms x hd
    cases ms with
    | nil => exact hstuck (.threadEnd hd)
    | cons m ms => exact hstuck (.threadSend hd)
  cases hd : s.driver with
  | loop i =>
    by_cases hi : i < p.stages.length
    · exact Or.inl ⟨i, hi, rfl⟩
    · exact absurd (Step.leave hd (by omega)) hstuck
  | calling caller i ms r =>
    exfalso
    match ms, r with
    | m :: ms, r => exact hstuck (.functionSend hd)
    | [], .finished => exact hstuck (.finished hd)
    | [], .handle ms x => exact hstuck (.handle hd)
    | [], .panicked x => exact hsane.returns _ _ _ _ hd
  | installed | unbuilt => simp
  | starting i t => exact absurd (by rw [hd]; rfl) (hdue i)
  | joining i first t =>
    exfalso
    match t with
    | .running ms x => exact hthread i ms x (by rw [hd]; rfl)
    | .ended (.panicked x) => exact hstuck (.joinFailed hd)
    | .ended .ok =>
      cases first with
      | true => exact hstuck (.joinFirst hd)
      | false => exact hstuck (.joinNext hd)
  | joined i => exact absurd (by rw [hd]; rfl) (hdue (i + 1))
  | next j =>
    exfalso
    by_cases hj : j < p.stages.length
    · exact hdue j (by rw [hd]; exact if_pos hj)
    · exact hstuck (.allDone hd (by omega))
  | ready j => simp
  | reporting i x => exact absurd (Step.report hd) hstuck
  | failed i x => simp
  | finishing => exact absurd (Step.finish hd hsane.receiver) hstuck
  | done => simp
  | crashed d => exact absurd hd (hsane.alive d)

theorem tale_cases {b : Prop} {now : List Report} {r : Report} (ht : Tales b k now h)
    (hr : r ∈ tale i h) :
    (i < k ∧ (tale i h = [.finished] ∨ (b ∧ tale i h = [.handle, .ended .ok, .joined .ok]))) ∨
      (i = k ∧ r ∈ now) := by
  rcases Nat.lt_trichotomy i k with hi | rfl | hi
  · exact Or.inl ⟨hi, ht.passed i hi⟩
  · exact Or.inr ⟨rfl, ht.current ▸ hr⟩
  · rw [ht.later i hi] at hr
    cases hr

private theorem coordinatorMessages_eq (hsane : Sane h s) : coordinatorMessages h = attempts h := by
  refine List.filterMap_congr fun e he => ?_
  cases e with
  | sent sender m => cases sender <;> rfl
  | unsent sender m => exact absurd he (hsane.heard sender m)
  | called | returned | raised | ended | joined | stored | died | chosen | unbuilt
  | dropped => rfl

private theorem completed_iff : Completed h i ↔ .finished ∈ tale i h ∨ .ended .ok ∈ tale i h :=
  or_congr (mem_tale_iff (r := .finished) (by simp)).symm
    (mem_tale_iff (r := .ended .ok) (by simp)).symm

private theorem not_completed_of_failed {b : Prop} {x : Payload}
    (ht : Tales b i [.handle, .ended (.panicked x), .joined (.panicked x)] h) :
    ¬Completed h i := by
  rw [completed_iff, ht.current]
  simp

private theorem not_completed_of_nil {b : Prop} (ht : Tales b i [] h) : ¬Completed h i := by
  rw [completed_iff, ht.current]
  simp

theorem completed_of_passed {b : Prop} {now : List Report} (ht : Tales b k now h) (hi : i < k) :
    Completed h i := by
  rw [completed_iff]
  rcases ht.passed i hi with htale | ⟨-, htale⟩ <;> simp [htale]

private theorem finished_of_passed {b : Prop} {now : List Report} (ht : Tales b k now h) (hb : ¬b)
    (hi : i < k) : .returned i false ∈ h ∧ .returned i true ∉ h := by
  have htale := (ht.passed i hi).resolve_right fun h' => hb h'.1
  constructor
  · exact (mem_tale_iff (r := .finished) (by simp)).mp (by simp [htale])
  · intro hhandle
    have hmem : Report.handle ∈ tale i h := (mem_tale_iff (by simp)).mpr hhandle
    simp [htale] at hmem

private theorem installed_of_backend {d : Driver} (hd : d.backend = some .wayland) :
    d = .installed := by
  unfold Driver.backend at hd
  split at hd <;> first | rfl | cases hd

section End

variable (hrun : p.system.Run h s) (hsane : Sane h s) (hhalted : p.system.Halted s)

include hrun hsane hhalted

private theorem end_of_completed (hall : ∀ i < p.stages.length, Completed h i) :
    (s.driver = .installed ∨ s.driver = .unbuilt) ∨ s.driver = .done := by
  have htales := (agrees hrun).tales
  have hbound := (agrees hrun).bound
  rcases driver_of_halted hsane hhalted with ⟨i, hi, hd⟩ | ⟨j, hd⟩ | hd | ⟨i, x, hd⟩ | hd
  · rw [hd] at htales
    exact absurd (hall i hi) (not_completed_of_nil htales)
  · have hj := (chosen hrun).ready j hd
    rw [hd] at htales
    exact absurd (hall j hj) (not_completed_of_nil htales)
  · exact Or.inl hd
  · rw [hd] at htales hbound
    exact absurd (hall i hbound) (not_completed_of_failed htales)
  · exact Or.inr hd

private theorem finished_iff : .sent .coordinator installationFinished ∈ h ↔
    (∃ i, .returned i true ∈ h) ∧ ∀ i < p.stages.length, Completed h i := by
  have htales := (agrees hrun).tales
  constructor
  · intro hsent
    have hd : s.driver = .done := done_of_said (said_of_sent hrun hsent)
    refine ⟨(chosen hrun).handled (by rw [hd]; rfl), fun i hi => ?_⟩
    rw [hd] at htales
    exact completed_of_passed htales hi
  · rintro ⟨⟨i, hi⟩, hall⟩
    rcases end_of_completed hrun hsane hhalted hall with hd | hd
    · exfalso
      have hmem : Report.handle ∈ tale i h := (mem_tale_iff (by simp)).mpr hi
      have hmain : ¬s.driver.Background ∧ s.driver.now = [] := by
        rcases hd with hd | hd <;> rw [hd] <;> simp [Driver.backend, Driver.now]
      rcases tale_cases htales hmem with ⟨hlt, -⟩ | ⟨-, hnow⟩
      · exact (finished_of_passed htales hmain.1 hlt).2 hi
      · simp [hmain.2] at hnow
    · have hmem : installationFinished ∈ attempts h := by
        rw [(agrees hrun).said, hd]
        exact List.mem_singleton.mpr rfl
      rw [← coordinatorMessages_eq hsane, coordinatorMessages, mem_observed] at hmem
      obtain ⟨e, he, hm⟩ := hmem
      split at hm <;> cases hm
      exact he

private theorem wayland_iff : .chosen .wayland ∈ h ↔
    (∀ i < p.stages.length, .returned i false ∈ h) ∧ .unbuilt ∉ h := by
  have htales := (agrees hrun).tales
  constructor
  · intro hchosen
    have hd := installed_of_backend ((chosen hrun).backend _ hchosen)
    refine ⟨fun i hi => ?_, fun hmem => ?_⟩
    · rw [hd] at htales
      exact (finished_of_passed htales (by simp [Driver.backend]) hi).1
    · exact absurd (hd.symm.trans ((chosen hrun).unbuilt.mpr hmem)) (by simp)
  · rintro ⟨hall, hbuilt⟩
    rcases end_of_completed hrun hsane hhalted fun i hi => Or.inl (hall i hi) with (hd | hd) | hd
    · exact (chosen hrun).installed hd
    · exact absurd ((chosen hrun).unbuilt.mp hd) hbuilt
    · exfalso
      obtain ⟨i, hi⟩ := (chosen hrun).handled (by rw [hd]; rfl)
      have hmem : Report.handle ∈ tale i h := (mem_tale_iff (by simp)).mpr hi
      rw [hd] at htales
      rcases tale_cases htales hmem with ⟨hlt, htale⟩ | ⟨-, hnow⟩
      · have hfinished : Report.finished ∈ tale i h := (mem_tale_iff (by simp)).mpr (hall i hlt)
        rcases htale with htale | ⟨-, htale⟩ <;> rw [htale] at hmem hfinished <;> simp_all
      · cases hnow

private theorem failed_messages {x : Payload} (hjoined : .joined i (.panicked x) ∈ h) :
    coordinatorMessages h = [.error (stageError x)] := by
  have htales := (agrees hrun).tales
  have hmem : Report.joined (.panicked x) ∈ tale i h := (mem_tale_iff (by simp)).mpr hjoined
  rcases tale_cases htales hmem with ⟨-, htale⟩ | ⟨-, hnow⟩
  · rcases htale with htale | ⟨-, htale⟩ <;> rw [htale] at hmem <;> simp at hmem
  · rcases driver_of_halted hsane hhalted with ⟨j, -, hd⟩ | ⟨j, hd⟩ | hd | ⟨j, y, hd⟩ | hd
    · rw [hd] at hnow
      cases hnow
    · rw [hd] at hnow
      cases hnow
    · rcases hd with hd | hd <;> rw [hd] at hnow <;> cases hnow
    · rw [hd] at hnow
      have hxy : x = y := by simpa [Driver.now] using hnow
      rw [coordinatorMessages_eq hsane, (agrees hrun).said, hd, hxy]
      rfl
    · rw [hd] at hnow
      cases hnow

end End

/-- The order of the stages in every run of setup, the messages and the backend at its end, and
that every run comes to an end. -/
theorem setup_in_order (hstays : p.receiverStays = true) (hreturns : Returns p)
    (hp : PercentDefined p) (hrun : p.system.Run h s) :
    InOrder p h ∧ (p.system.Halted s → AtEnd p h) ∧
      ∃ h' t, Path p.system s h' t ∧ p.system.Halted t := by
  have hsane := sane hstays hreturns hp hrun
  refine ⟨inOrder hrun, fun hhalted => ?_, exists_halted (wellFounded_step p) s⟩
  refine ⟨wayland_iff hrun hsane hhalted, finished_iff hrun hsane hhalted, fun hsent => ?_,
    fun i x hjoined => failed_messages hrun hsane hhalted hjoined⟩
  have hd : s.driver = .done := done_of_said (said_of_sent hrun hsent)
  rw [coordinatorMessages_eq hsane, (agrees hrun).said, hd]
  rfl

/-! Two setups: one stage that is done and one that is not; and too many stages. -/

def doneStage : Stage := fun c => c = ⟨[], .finished⟩

def workingStage : Stage := fun c => c = ⟨[], .handle [] .ok⟩

private theorem returns_of_mem {stages : List Stage} {checks stays : Bool}
    (hall : ∀ stage ∈ stages, stage = doneStage ∨ stage = workingStage) :
    Returns ⟨checks, stays, stages⟩ := by
  rintro stage hmem c hc x
  rcases hall stage hmem with rfl | rfl <;> cases hc <;> simp

private theorem halted_of_driver {d : Driver} (hstays : p.receiverStays = true)
    (hd : s.driver = d) (hplace : d = .done ∨ ∃ i x, d = .crashed (.starting i (.ended x)))
    (hreturned : s.returned = true) : p.system.Halted s := by
  intro e t hstep
  cases hstep with
  | @call caller i stage c hd' _ _ =>
    rw [hd] at hd'
    rcases hplace with rfl | ⟨i, x, rfl⟩ <;> cases caller <;> cases hd'
  | choose _ hr _ => exact absurd (hreturned.symm.trans hr) (by simp)
  | drop hmay => exact absurd (hstays.symm.trans hmay) (by simp)
  | threadSend hd' | threadEnd hd' | store hd' _ | overflow hd' _ | functionSend hd' | finished hd'
  | handle hd' | raise hd' | leave hd' _ | unbuilt hd' _ | joinFirst hd' | joinNext hd'
  | joinFailed hd' | allDone hd' _ | finish hd' _ | unheard hd' _ | report hd' =>
    rw [hd] at hd'
    rcases hplace with rfl | ⟨i, x, rfl⟩ <;> cases hd'

def skipped : Nat → List Event
  | 0 => []
  | k + 1 => skipped k ++ [.called .main k] ++ [.returned k false]

def Allows (p : Setup) (i : Nat) (c : Call) : Prop := ∃ stage, p.stages[i]? = some stage ∧ stage c

private theorem Allows.call {c : Call} (hallows : Allows p i c) (caller : Caller) {r : Bool}
    {v : Nat} :
    Step p ⟨caller.before i, r, v, true⟩ (.called caller i)
      ⟨.calling caller i c.messages c.result, r, v, true⟩ := by
  obtain ⟨stage, hstage, hc⟩ := hallows
  exact .call rfl hstage hc

private theorem run_skipped (hdone : ∀ i < k, Allows p i ⟨[], .finished⟩) :
    p.system.Run (skipped k) ⟨.loop k, false, 0, true⟩ := by
  induction k with
  | zero => exact .nil _
  | succ k ih =>
    have hrun := ih fun i hi => hdone i (by omega)
    have hcall : Step p ⟨.loop k, false, 0, true⟩ (.called .main k)
        ⟨.calling .main k [] .finished, false, 0, true⟩ := (hdone k (by omega)).call .main
    have hreturn : Step p ⟨.calling .main k [] .finished, false, 0, true⟩ (.returned k false)
        ⟨.loop (k + 1), false, 0, true⟩ := @Step.finished p _ .main k rfl
    exact (hrun.snoc hcall).snoc hreturn

private theorem returned_mem_skipped (hi : i < k) : .returned i false ∈ skipped k := by
  induction k with
  | zero => omega
  | succ k ih =>
    rcases Nat.lt_succ_iff_lt_or_eq.mp hi with hi | rfl
    · simp [skipped, ih hi]
    · simp [skipped]

private theorem sent_not_mem_skipped (sender : Sender) (m : SetupMessage) :
    .sent sender m ∉ skipped k := by
  induction k with
  | zero => simp [skipped]
  | succ k ih => simp [skipped, ih]

theorem run_begun {ms : List SetupMessage} {x : Ending}
    (hdone : ∀ i < k, Allows p i ⟨[], .finished⟩) (hwork : Allows p k ⟨[], .handle ms x⟩) :
    p.system.Run (skipped k ++ [.called .main k, .returned k true, .chosen .webview])
      ⟨.starting k (.running ms x), true, 0, true⟩ := by
  have hcall : Step p ⟨.loop k, false, 0, true⟩ (.called .main k)
      ⟨.calling .main k [] (.handle ms x), false, 0, true⟩ := hwork.call .main
  have hhandle : Step p ⟨.calling .main k [] (.handle ms x), false, 0, true⟩ (.returned k true)
      ⟨.starting k (.running ms x), false, 0, true⟩ := @Step.handle p _ .main k ms x rfl
  have hchoose : Step p ⟨.starting k (.running ms x), false, 0, true⟩ (.chosen .webview)
      ⟨.starting k (.running ms x), true, 0, true⟩ := .choose rfl rfl rfl
  have hpath := @Path.cons _ _ p.system _ _ _ _ _ hcall
    (Path.cons hhandle (Path.single hchoose))
  exact (run_skipped hdone).append hpath

theorem run_handed (hdone : ∀ i < k, Allows p i ⟨[], .finished⟩)
    (hwork : Allows p k ⟨[], .handle [] .ok⟩) :
    p.system.Run (skipped k ++ [.called .main k, .returned k true, .chosen .webview] ++
      [.ended k .ok]) ⟨.starting k (.ended .ok), true, 0, true⟩ := by
  have hend : Step p ⟨.starting k (.running [] .ok), true, 0, true⟩ (.ended k .ok)
      ⟨.starting k (.ended .ok), true, 0, true⟩ := .threadEnd rfl
  exact (run_begun hdone hwork).snoc hend

def twoStages : Setup := ⟨true, true, [doneStage, workingStage]⟩

def twoStagesHistory : List Event :=
  skipped 1 ++ [.called .main 1, .returned 1 true, .chosen .webview, .ended 1 .ok] ++
    [.stored 50, .joined 1 .ok, .stored 100, .sent .coordinator installationFinished]

theorem run_twoStages : twoStages.system.Run twoStagesHistory ⟨.done, true, 100, true⟩ := by
  have hdone : ∀ i < 1, Allows twoStages i ⟨[], .finished⟩ := by
    intro i hi
    obtain rfl : i = 0 := by omega
    exact ⟨doneStage, rfl, rfl⟩
  have hwork : Allows twoStages 1 ⟨[], .handle [] .ok⟩ := ⟨workingStage, rfl, rfl⟩
  have hstore : Step twoStages ⟨.starting 1 (.ended .ok), true, 0, true⟩ (.stored 50)
      ⟨.joining 1 true (.ended .ok), true, 50, true⟩ := .store (k := 1) rfl (by decide)
  have hjoin : Step twoStages ⟨.joining 1 true (.ended .ok), true, 50, true⟩ (.joined 1 .ok)
      ⟨.next 2, true, 50, true⟩ := .joinFirst rfl
  have hall : Step twoStages ⟨.next 2, true, 50, true⟩ (.stored 100)
      ⟨.finishing, true, 100, true⟩ := .allDone rfl (Nat.le_refl 2)
  have hfinish : Step twoStages ⟨.finishing, true, 100, true⟩
      (.sent .coordinator installationFinished) ⟨.done, true, 100, true⟩ := .finish rfl rfl
  have hpath := @Path.cons _ _ twoStages.system _ _ _ _ _ hstore
    (Path.cons hjoin (Path.cons hall (Path.single hfinish)))
  exact (run_handed hdone hwork).append hpath

theorem setup_in_order_of_two_stages :
    InOrder twoStages twoStagesHistory ∧ AtEnd twoStages twoStagesHistory := by
  have hreturns : Returns twoStages := returns_of_mem (by simp)
  have hp : PercentDefined twoStages := by simp [PercentDefined, twoStages]
  obtain ⟨horder, hend, -⟩ := setup_in_order rfl hreturns hp run_twoStages
  exact ⟨horder, hend (halted_of_driver rfl rfl (Or.inl rfl) rfl)⟩

def lastStageLeft (n : Nat) : Setup := ⟨false, true, List.replicate n doneStage ++ [workingStage]⟩

private theorem returns_lastStageLeft (n : Nat) : Returns (lastStageLeft n) :=
  returns_of_mem fun stage hmem => by
    rcases List.mem_append.mp hmem with hmem | hmem
    · exact Or.inl (List.eq_of_mem_replicate hmem)
    · exact Or.inr (List.mem_singleton.mp hmem)

private theorem silent_of_zero {n : Nat} (hzero : (n + 1) % 65536 = 0) :
    ∃ h s, (lastStageLeft n).system.Run h s ∧ (lastStageLeft n).system.Halted s ∧
      (∃ i, .returned i true ∈ h) ∧ (∀ i < n + 1, Completed h i) ∧
      .sent .coordinator installationFinished ∉ h := by
  have hdone : ∀ i < n, Allows (lastStageLeft n) i ⟨[], .finished⟩ := by
    intro i hi
    refine ⟨doneStage, ?_, rfl⟩
    rw [lastStageLeft, List.getElem?_append_left (by simpa using hi)]
    simp [hi]
  have hwork : Allows (lastStageLeft n) n ⟨[], .handle [] .ok⟩ := by
    refine ⟨workingStage, ?_, rfl⟩
    rw [lastStageLeft, List.getElem?_append_right (by simp)]
    simp
  have hpercent : (lastStageLeft n).percent n = none := by
    have hlength : (lastStageLeft n).stages.length = n + 1 := by simp [lastStageLeft]
    rw [Setup.percent, hlength]
    simp [percentOf, lastStageLeft, hzero]
  have hdie : Step (lastStageLeft n) ⟨.starting n (.ended .ok), true, 0, true⟩ .died
      ⟨.crashed (.starting n (.ended .ok)), true, 0, true⟩ := .overflow (k := n) rfl hpercent
  refine ⟨_, _, (run_handed hdone hwork).snoc hdie,
    halted_of_driver rfl rfl (Or.inr ⟨_, _, rfl⟩) rfl, ⟨n, by simp⟩, fun i hi => ?_, ?_⟩
  · rcases Nat.lt_succ_iff_lt_or_eq.mp hi with hi | rfl
    · left
      simp [returned_mem_skipped hi]
    · right
      simp
  · simp [sent_not_mem_skipped]

/-- With 65536 stages every stage is done and the last message is not sent; and with none at all
the Wayland backend may fail to be built. -/
theorem setup_silent_on_many_stages :
    ((lastStageLeft 65535).receiverStays = true ∧ Returns (lastStageLeft 65535) ∧
    ∃ h s, (lastStageLeft 65535).system.Run h s ∧ (lastStageLeft 65535).system.Halted s ∧
      (∃ i, .returned i true ∈ h) ∧ (∀ i < 65536, Completed h i) ∧
      .sent .coordinator installationFinished ∉ h) ∧
    ∃ h s, (Setup.mk true true []).system.Run h s ∧ (Setup.mk true true []).system.Halted s ∧
      .chosen .wayland ∉ h :=
  ⟨⟨rfl, returns_lastStageLeft 65535, silent_of_zero (by decide)⟩, [.unbuilt],
    ⟨.unbuilt, false, 0, true⟩, .single (.unbuilt rfl (Nat.zero_le 0)),
    fun _ _ => halted_of_unbuilt rfl, by simp⟩

end LocalDesktop.Android.Proot.PipelineOrder
