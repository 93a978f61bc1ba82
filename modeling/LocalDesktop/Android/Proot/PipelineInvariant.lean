/- GID: LocalDesktop/Android/Proot/PipelineInvariant
   generality: G
   digest: What the state of setup says of its history, over every run, and that runs end. -/

import LocalDesktop.Android.Proot.Pipeline

set_option autoImplicit false
set_option relaxedAutoImplicit false

namespace LocalDesktop.Android.Proot.Pipeline

open Foundation.Transition Platform

/-! What a history says of one stage, of the calls and of the coordinator's messages. -/

inductive Report
  | finished
  | handle
  | raised (payload : Payload)
  | ended (ending : Ending)
  | joined (ending : Ending)
  deriving DecidableEq

def Event.report : Event → Option (Nat × Report)
  | .returned i false => some (i, .finished)
  | .returned i true => some (i, .handle)
  | .raised _ i x => some (i, .raised x)
  | .ended i e => some (i, .ended e)
  | .joined i e => some (i, .joined e)
  | _ => none

def Event.call : Event → Option Nat
  | .called _ i => some i
  | _ => none

/-- What the coordinator sends, whether it arrives or not. -/
def Event.attempt : Event → Option SetupMessage
  | .sent .coordinator m => some m
  | .unsent .coordinator m => some m
  | _ => none

/-- What became of stage `i`. -/
def tale (i : Nat) : List Event → List Report :=
  observed fun e => e.report.bind fun r => if r.1 = i then some r.2 else none

def calls : List Event → List Nat := observed Event.call

def attempts : List Event → List SetupMessage := observed Event.attempt

variable {h : List Event} {e : Event} {i k n : Nat} {r : Report}

private theorem tale_quiet (he : e.report = none) : tale i (h ++ [e]) = tale i h :=
  observed_quiet (by simp [he])

private theorem tale_same (he : e.report = some (i, r)) : tale i (h ++ [e]) = tale i h ++ [r] :=
  observed_tell (by simp [he])

private theorem tale_other (he : e.report = some (k, r)) (hne : k ≠ i) : tale i
    (h ++ [e]) = tale i h :=
  observed_quiet (by simp [he, hne])

theorem mem_tale : r ∈ tale i h ↔ ∃ e ∈ h, e.report = some (i, r) := by
  simp only [tale, mem_observed, Option.bind_eq_some_iff]
  constructor
  · rintro ⟨e, he, ⟨j, r'⟩, hreport, hif⟩
    by_cases hj : j = i
    · rw [if_pos hj, Option.some.injEq] at hif
      exact ⟨e, he, by rw [hreport, hj, ← hif]⟩
    · exact absurd hif (by simp [hj])
  · rintro ⟨e, he, hreport⟩
    exact ⟨e, he, (i, r), hreport, by simp⟩

private theorem calls_quiet (he : e.call = none) : calls (h ++ [e]) = calls h := observed_quiet he

private theorem calls_tell (he : e.call = some i) : calls (h ++ [e]) = calls h ++
    [i] := observed_tell he

private theorem attempts_quiet (he : e.attempt = none) : attempts (h ++ [e]) = attempts h :=
  observed_quiet he

private theorem attempts_tell {m : SetupMessage} (he : e.attempt = some m) :
    attempts (h ++ [e]) = attempts h ++ [m] := observed_tell he

@[simp] theorem report_send (s : State) (sender : Sender) (m : SetupMessage) :
    (s.send sender m).report = none := by
  unfold State.send
  split <;> rfl

@[simp] theorem call_send (s : State) (sender : Sender) (m : SetupMessage) :
    (s.send sender m).call = none := by
  unfold State.send
  split <;> rfl

@[simp] theorem send_ne_unbuilt (s : State) (sender : Sender) (m : SetupMessage) :
    s.send sender m ≠ .unbuilt := by
  unfold State.send
  split <;> simp

@[simp] theorem attempt_send_function (s : State) (i : Nat) (m : SetupMessage) :
    (s.send (.function i) m).attempt = none := by
  unfold State.send
  split <;> rfl

@[simp] theorem attempt_send_thread (s : State) (i : Nat) (m : SetupMessage) :
    (s.send (.thread i) m).attempt = none := by
  unfold State.send
  split <;> rfl

@[simp] theorem attempt_send_coordinator (s : State) (m : SetupMessage) :
    (s.send .coordinator m).attempt = some m := by
  unfold State.send
  split <;> rfl

/-- The stages before `k` are done, stage `k` has come as far as `now`, and the later ones were
not called. Handles are returned in the background only. -/
structure Tales (background : Prop) (k : Nat) (now : List Report) (h : List Event) : Prop where
  passed : ∀ i < k, tale i h = [.finished] ∨
    (background ∧ tale i h = [.handle, .ended .ok, .joined .ok])
  current : tale k h = now
  later : ∀ i, k < i → tale i h = []

section Tales

variable {b b' : Prop} {now : List Report}

private theorem Tales.quiet (ht : Tales b k now h) (he : e.report = none) : Tales b k now
    (h ++ [e]) where
  passed i hi := by
    rw [tale_quiet he]
    exact ht.passed i hi
  current := by rw [tale_quiet he, ht.current]
  later i hi := by rw [tale_quiet he, ht.later i hi]

private theorem Tales.tell (ht : Tales b k now h) (he : e.report = some (k, r)) :
    Tales b k (now ++ [r]) (h ++ [e]) where
  passed i hi := by
    rw [tale_other he (by omega)]
    exact ht.passed i hi
  current := by rw [tale_same he, ht.current]
  later i hi := by rw [tale_other he (by omega), ht.later i hi]

private theorem Tales.mono (ht : Tales b k now h) (hb : b → b') : Tales b' k now h where
  passed i hi := (ht.passed i hi).imp id fun h' => ⟨hb h'.1, h'.2⟩
  current := ht.current
  later := ht.later

private theorem Tales.advance (ht : Tales b k now h)
    (hnow : now = [.finished] ∨ (b ∧ now = [.handle, .ended .ok, .joined .ok])) :
    Tales b (k + 1) [] h where
  passed i hi := by
    rcases Nat.lt_succ_iff_lt_or_eq.mp hi with hi | rfl
    · exact ht.passed i hi
    · rw [ht.current]
      exact hnow
  current := ht.later _ (by omega)
  later i hi := ht.later i (by omega)

end Tales

/-! How far the driver is. -/

def Thread.tale : Thread → List Report
  | .running _ _ => [.handle]
  | .ended e => [.handle, .ended e]

namespace Driver

def passed (stages : Nat) : Driver → Nat
  | loop i => i
  | calling _ i _ _ => i
  | starting i _ => i
  | joining i _ _ => i
  | joined i => i + 1
  | next j => j
  | ready j => j
  | reporting i _ => i
  | failed i _ => i
  | installed => stages
  | unbuilt => stages
  | finishing => stages
  | done => stages
  | crashed d => d.passed stages

def called (stages : Nat) : Driver → Nat
  | loop i => i
  | calling _ i _ _ => i + 1
  | starting i _ => i + 1
  | joining i _ _ => i + 1
  | joined i => i + 1
  | next j => j
  | ready j => j
  | reporting i _ => i + 1
  | failed i _ => i + 1
  | installed => stages
  | unbuilt => stages
  | finishing => stages
  | done => stages
  | crashed d => d.called stages

/-- What became of the stage that is not done. -/
def now : Driver → List Report
  | starting _ t => t.tale
  | joining _ _ t => t.tale
  | reporting _ x => [.handle, .ended (.panicked x), .joined (.panicked x)]
  | failed _ x => [.handle, .ended (.panicked x), .joined (.panicked x)]
  | crashed (calling _ _ _ (.panicked x)) => [.raised x]
  | crashed (starting _ t) => t.tale
  | _ => []

/-- What the coordinator has sent. -/
def said : Driver → List SetupMessage
  | failed _ x => [.error (stageError x)]
  | done => [installationFinished]
  | _ => []

abbrev Background (d : Driver) : Prop := d.backend = some .webview

variable {d : Driver} {t t' : Thread}

theorem setThread_cases (hd : d.thread = some (i, t)) (t' : Thread) :
    (d = starting i t ∧ d.setThread t' = starting i t') ∨
    (∃ first, d = joining i first t ∧ d.setThread t' = joining i first t') ∨
    (d = crashed (starting i t) ∧ d.setThread t' = crashed (starting i t')) := by
  unfold thread at hd
  split at hd <;> cases hd
  · exact Or.inl ⟨rfl, rfl⟩
  · exact Or.inr (Or.inl ⟨_, rfl, rfl⟩)
  · exact Or.inr (Or.inr ⟨rfl, rfl⟩)

theorem setThread_spec (hd : d.thread = some (i, t)) (t' : Thread) :
    d.passed n = i ∧ d.now = t.tale ∧ d.Background ∧
    (d.setThread t').passed n = i ∧ (d.setThread t').now = t'.tale ∧
    (d.setThread t').Background ∧ (d.setThread t').called n = d.called n ∧
    (d.setThread t').said = d.said := by
  rcases setThread_cases hd t' with ⟨h, h'⟩ | ⟨first, h, h'⟩ | ⟨h, h'⟩ <;> rw [h', h] <;>
    exact ⟨rfl, rfl, rfl, rfl, rfl, rfl, rfl, rfl⟩

theorem due_spec (hd : d.due n = some k) :
    d.stored.passed n = d.passed n ∧ d.stored.now = d.now ∧ d.stored.called n = d.called n ∧
    d.stored.said = d.said ∧ d.Background ∧ d.stored.Background ∧
    (crashed d).now = d.now ∧ (crashed d).Background ∧ d.said = [] := by
  unfold due at hd
  split at hd
  · exact ⟨rfl, rfl, rfl, rfl, rfl, rfl, rfl, rfl, rfl⟩
  · exact ⟨rfl, rfl, rfl, rfl, rfl, rfl, rfl, rfl, rfl⟩
  · exact ⟨rfl, rfl, rfl, rfl, rfl, rfl, rfl, rfl, rfl⟩
  · cases hd

end Driver

/-! Every step keeps what the driver says of the history. -/

variable {p : Setup} {s t : State}

/-- What holds of the history of every run. -/
structure Agrees (p : Setup) (h : List Event) (s : State) : Prop where
  tales : Tales s.driver.Background (s.driver.passed p.stages.length) s.driver.now h
  calls : calls h = List.range (s.driver.called p.stages.length)
  bound : s.driver.called p.stages.length ≤ p.stages.length
  said : attempts h = s.driver.said

private theorem tales_step (hstep : Step p s e t)
    (ht : Tales s.driver.Background (s.driver.passed p.stages.length) s.driver.now h)
    (hbound : s.driver.called p.stages.length ≤ p.stages.length) :
    Tales t.driver.Background (t.driver.passed p.stages.length) t.driver.now (h ++ [e]) := by
  cases hstep with
  | @call caller i stage c hd _ _ =>
    rw [hd] at ht
    cases caller with
    | main => exact ht.quiet rfl
    | coordinator => exact ht.quiet rfl
  | @functionSend caller i m ms r hd =>
    rw [hd] at ht
    cases caller with
    | main => exact ht.quiet (report_send _ _ _)
    | coordinator => exact ht.quiet (report_send _ _ _)
  | @finished caller i hd =>
    rw [hd] at ht
    have htell := (ht.tell (e := .returned i false) rfl).advance (Or.inl rfl)
    cases caller with
    | main => exact htell
    | coordinator => exact htell
  | @handle caller i ms x hd =>
    rw [hd] at ht
    have htell := ht.tell (e := .returned i true) rfl
    cases caller with
    | main => exact htell.mono fun _ => rfl
    | coordinator => exact htell
  | @raise caller i x hd =>
    rw [hd] at ht
    have htell := ht.tell (e := .raised caller i x) rfl
    simp only [hd]
    cases caller with
    | main => exact htell
    | coordinator => exact htell
  | @leave i hd hi | @unbuilt i hd hi =>
    rw [hd] at ht hbound
    obtain rfl : i = p.stages.length := Nat.le_antisymm hbound hi
    exact (ht.quiet rfl).mono fun hb => absurd hb (by simp [Driver.backend])
  | choose => exact ht.quiet rfl
  | @threadSend i m ms x hd =>
    obtain ⟨hpassed, hnow, -, hpassed', hnow', hb', -⟩ :=
      Driver.setThread_spec (n := p.stages.length) hd (.running ms x)
    rw [hpassed, hnow] at ht
    show Tales _ (Driver.passed _ (Driver.setThread _ _)) (Driver.now (Driver.setThread _ _)) _
    rw [hpassed', hnow']
    exact (ht.quiet (report_send _ _ _)).mono fun _ => hb'
  | @threadEnd i x hd =>
    obtain ⟨hpassed, hnow, -, hpassed', hnow', hb', -⟩ :=
      Driver.setThread_spec (n := p.stages.length) hd (.ended x)
    rw [hpassed, hnow] at ht
    show Tales _ (Driver.passed _ (Driver.setThread _ _)) (Driver.now (Driver.setThread _ _)) _
    rw [hpassed', hnow']
    exact (ht.tell rfl).mono fun _ => hb'
  | store hd _ =>
    obtain ⟨hpassed, hnow, -, -, -, hb', -⟩ := Driver.due_spec hd
    show Tales _ (Driver.passed _ (Driver.stored _)) (Driver.now (Driver.stored _)) _
    rw [hpassed, hnow]
    exact (ht.quiet rfl).mono fun _ => hb'
  | overflow hd _ =>
    obtain ⟨-, -, -, -, -, -, hnow, hb', -⟩ := Driver.due_spec hd
    show Tales _ (Driver.passed _ s.driver) (Driver.now (Driver.crashed _)) _
    rw [hnow]
    exact (ht.quiet rfl).mono fun _ => hb'
  | joinFirst hd =>
    rw [hd] at ht
    exact (ht.tell rfl).advance (Or.inr ⟨rfl, rfl⟩)
  | joinNext hd =>
    rw [hd] at ht
    exact (ht.tell rfl).advance (Or.inr ⟨rfl, rfl⟩)
  | joinFailed hd =>
    rw [hd] at ht
    exact ht.tell rfl
  | report hd =>
    rw [hd] at ht
    exact ht.quiet (report_send _ _ _)
  | allDone hd hj =>
    rw [hd] at ht hbound
    obtain rfl := Nat.le_antisymm hbound hj
    exact ht.quiet rfl
  | finish hd _ =>
    rw [hd] at ht
    exact ht.quiet rfl
  | unheard hd _ =>
    rw [hd] at ht
    simp only [hd]
    exact ht.quiet rfl
  | drop => exact ht.quiet rfl

private theorem calls_step (hstep : Step p s e t) (ha : Agrees p h s) :
    calls (h ++ [e]) = List.range (t.driver.called p.stages.length) ∧
      t.driver.called p.stages.length ≤ p.stages.length := by
  have hcalls := ha.calls
  have hbound := ha.bound
  have hquiet : e.call = none →
      t.driver.called p.stages.length = s.driver.called p.stages.length →
      calls (h ++ [e]) = List.range (t.driver.called p.stages.length) ∧
        t.driver.called p.stages.length ≤ p.stages.length := by
    intro hcall hcalled
    rw [calls_quiet hcall, hcalled]
    exact ⟨hcalls, hbound⟩
  cases hstep with
  | @call caller i stage c hd hget _ =>
    have hlt : i < p.stages.length := (List.getElem?_eq_some_iff.mp hget).1
    have hi : s.driver.called p.stages.length = i := by
      rw [hd]
      cases caller <;> rfl
    rw [calls_tell rfl, hcalls, hi]
    exact ⟨List.range_succ.symm, hlt⟩
  | functionSend hd => exact hquiet (call_send _ _ _) (by rw [hd]; rfl)
  | @finished caller i hd => exact hquiet rfl (by rw [hd]; cases caller <;> rfl)
  | @handle caller i ms x hd => exact hquiet rfl (by rw [hd]; cases caller <;> rfl)
  | raise hd => exact hquiet rfl rfl
  | leave hd hi | unbuilt hd hi =>
    rw [hd] at hbound
    exact hquiet rfl (by rw [hd]; exact Nat.le_antisymm hi hbound)
  | choose => exact hquiet rfl rfl
  | threadSend hd => exact hquiet (call_send _ _ _) (Driver.setThread_spec hd _).2.2.2.2.2.2.1
  | threadEnd hd => exact hquiet rfl (Driver.setThread_spec hd _).2.2.2.2.2.2.1
  | store hd _ => exact hquiet rfl (Driver.due_spec hd).2.2.1
  | overflow hd _ => exact hquiet rfl rfl
  | joinFirst hd => exact hquiet rfl (by rw [hd]; rfl)
  | joinNext hd => exact hquiet rfl (by rw [hd]; rfl)
  | joinFailed hd => exact hquiet rfl (by rw [hd]; rfl)
  | report hd => exact hquiet (call_send _ _ _) (by rw [hd]; rfl)
  | allDone hd hj =>
    rw [hd] at hbound
    exact hquiet rfl (by rw [hd]; exact Nat.le_antisymm hj hbound)
  | finish hd _ => exact hquiet rfl (by rw [hd]; rfl)
  | unheard hd _ => exact hquiet rfl rfl
  | drop => exact hquiet rfl rfl

private theorem said_step (hstep : Step p s e t) (hsaid : attempts h = s.driver.said) :
    attempts (h ++ [e]) = t.driver.said := by
  have hquiet : e.attempt = none → t.driver.said = s.driver.said →
      attempts (h ++ [e]) = t.driver.said := by
    intro he hd
    rw [attempts_quiet he, hd, hsaid]
  cases hstep with
  | @call caller i stage c hd _ _ => exact hquiet rfl (by rw [hd]; cases caller <;> rfl)
  | functionSend hd => exact hquiet (attempt_send_function _ _ _) (by rw [hd]; rfl)
  | @finished caller i hd => exact hquiet rfl (by rw [hd]; cases caller <;> rfl)
  | @handle caller i ms x hd => exact hquiet rfl (by rw [hd]; cases caller <;> rfl)
  | raise hd => exact hquiet rfl (by rw [hd]; rfl)
  | leave hd _ | unbuilt hd _ => exact hquiet rfl (by rw [hd]; rfl)
  | choose => exact hquiet rfl rfl
  | threadSend hd =>
    exact hquiet (attempt_send_thread _ _ _)
      (Driver.setThread_spec (n := 0) hd _).2.2.2.2.2.2.2
  | threadEnd hd => exact hquiet rfl (Driver.setThread_spec (n := 0) hd _).2.2.2.2.2.2.2
  | store hd _ => exact hquiet rfl (Driver.due_spec hd).2.2.2.1
  | overflow hd _ =>
    obtain ⟨-, -, -, -, -, -, -, -, hsilent⟩ := Driver.due_spec hd
    exact hquiet rfl hsilent.symm
  | joinFirst hd => exact hquiet rfl (by rw [hd]; rfl)
  | joinNext hd => exact hquiet rfl (by rw [hd]; rfl)
  | joinFailed hd => exact hquiet rfl (by rw [hd]; rfl)
  | report hd =>
    rw [attempts_tell (attempt_send_coordinator _ _), hsaid, hd]
    rfl
  | allDone hd _ => exact hquiet rfl (by rw [hd]; rfl)
  | finish hd _ =>
    rw [attempts_tell rfl, hsaid, hd]
    rfl
  | unheard hd _ => exact hquiet rfl (by rw [hd]; rfl)
  | drop => exact hquiet rfl rfl

theorem agrees (hrun : p.system.Run h s) : Agrees p h s := by
  refine Path.invariant hrun ⟨⟨by simp [Setup.system, Driver.passed], rfl, fun _ _ => rfl⟩, rfl,
    Nat.zero_le _, rfl⟩ ?_
  intro h s e t _ ha hstep
  obtain ⟨hcalls, hbound⟩ := calls_step hstep ha
  exact ⟨tales_step hstep ha.tales ha.bound, hcalls, hbound, said_step hstep ha.said⟩

/-! What the driver and the backend say of the history. -/

private theorem backend_step {b : Backend} (hstep : Step p s e t) (hb : s.driver.backend = some b) :
    t.driver.backend = some b := by
  cases hstep with
  | @call caller i stage c hd _ _ =>
    rw [hd] at hb
    cases caller <;> exact hb
  | @functionSend caller i m ms r hd =>
    rw [hd] at hb
    cases caller <;> exact hb
  | @finished caller i hd =>
    rw [hd] at hb
    cases caller <;> exact hb
  | @handle caller i ms x hd =>
    rw [hd] at hb
    cases caller with
    | main => exact absurd hb (by simp [Driver.backend])
    | coordinator => exact hb
  | @raise caller i x hd =>
    simp only [hd] at hb ⊢
    cases caller <;> exact hb
  | leave hd _ | unbuilt hd _ => exact absurd hb (by simp [hd, Driver.backend])
  | threadSend hd =>
    obtain ⟨-, -, hs, -, -, ht, -⟩ := Driver.setThread_spec (n := 0) hd (.running _ _)
    rw [← hb, hs]
    exact ht
  | threadEnd hd =>
    obtain ⟨-, -, hs, -, -, ht, -⟩ := Driver.setThread_spec (n := 0) hd (.ended _)
    rw [← hb, hs]
    exact ht
  | store hd _ =>
    obtain ⟨-, -, -, -, hs, ht, -⟩ := Driver.due_spec hd
    rw [← hb, hs]
    exact ht
  | overflow hd _ =>
    obtain ⟨-, -, -, -, hs, -, -, ht, -⟩ := Driver.due_spec hd
    rw [← hb, hs]
    exact ht
  | joinFirst hd => rwa [hd] at hb
  | joinNext hd => rwa [hd] at hb
  | joinFailed hd => rwa [hd] at hb
  | report hd => rwa [hd] at hb
  | allDone hd _ => rwa [hd] at hb
  | finish hd _ => rwa [hd] at hb
  | unheard hd _ =>
    simp only [hd] at hb ⊢
    exact hb
  | choose | drop => exact hb

private theorem background_step (hstep : Step p s e t) (ht : t.driver.Background) :
    s.driver.Background ∨ ∃ i, e = .returned i true := by
  cases hb : s.driver.backend with
  | some b =>
    left
    have hkept := backend_step hstep hb
    rw [Driver.Background, hb, ← hkept, ht]
  | none =>
    right
    cases hstep with
    | @call caller i stage c hd _ _ =>
      rw [hd] at hb
      cases caller with
      | main => exact absurd ht (by simp [Driver.backend])
      | coordinator => exact absurd hb (by simp [Caller.before, Driver.backend])
    | @functionSend caller i m ms r hd =>
      rw [hd] at hb
      cases caller with
      | main => exact absurd ht (by simp [Driver.backend])
      | coordinator => exact absurd hb (by simp [Driver.backend])
    | @finished caller i hd =>
      rw [hd] at hb
      cases caller with
      | main => exact absurd ht (by simp [Caller.after, Driver.backend])
      | coordinator => exact absurd hb (by simp [Driver.backend])
    | @handle caller i ms x hd => exact ⟨i, rfl⟩
    | @raise caller i x hd =>
      rw [hd] at hb
      cases caller with
      | main => exact absurd ht (by simp [hd, Driver.backend])
      | coordinator => exact absurd hb (by simp [Driver.backend])
    | leave | unbuilt => exact absurd ht (by simp [Driver.backend])
    | choose => exact absurd (hb.symm.trans ht) (by simp)
    | threadSend hd =>
      have hs := (Driver.setThread_spec (n := 0) hd (.ended .ok)).2.2.1
      exact absurd (hb.symm.trans hs) (by simp)
    | threadEnd hd =>
      have hs := (Driver.setThread_spec (n := 0) hd (.ended .ok)).2.2.1
      exact absurd (hb.symm.trans hs) (by simp)
    | store hd _ => exact absurd (hb.symm.trans (Driver.due_spec hd).2.2.2.2.1) (by simp)
    | overflow hd _ => exact absurd (hb.symm.trans (Driver.due_spec hd).2.2.2.2.1) (by simp)
    | joinFirst hd => simp [hd, Driver.backend] at hb
    | joinNext hd => simp [hd, Driver.backend] at hb
    | joinFailed hd => simp [hd, Driver.backend] at hb
    | report hd => simp [hd, Driver.backend] at hb
    | allDone hd _ => simp [hd, Driver.backend] at hb
    | finish hd _ => simp [hd, Driver.backend] at hb
    | unheard hd _ => simp [hd, Driver.backend] at hb
    | drop _ hne _ => exact absurd hb hne

/-- What the history says of the backend, and that the coordinator calls only stages there are. -/
structure Chosen (p : Setup) (h : List Event) (s : State) : Prop where
  handled : s.driver.Background → ∃ i, .returned i true ∈ h
  backend : ∀ b, .chosen b ∈ h → s.driver.backend = some b
  installed : s.driver = .installed → .chosen .wayland ∈ h
  unbuilt : s.driver = .unbuilt ↔ .unbuilt ∈ h
  ready : ∀ j, s.driver = .ready j → j < p.stages.length

private theorem chosen_backend {b : Backend} (hstep : Step p s (.chosen b) t) :
    t.driver.backend = some b := by
  generalize he : Event.chosen b = e at hstep
  cases hstep with
  | leave => cases he; rfl
  | choose hb _ _ => cases he; exact hb
  | functionSend | threadSend | report =>
    unfold State.send at he
    split at he <;> cases he
  | call | finished | handle | raise | unbuilt | threadEnd | store | overflow | joinFirst
  | joinNext | joinFailed | allDone | finish | unheard | drop => cases he

private theorem installed_step (hstep : Step p s e t) (ht : t.driver = .installed) :
    s.driver = .installed ∨ e = .chosen .wayland := by
  cases hstep with
  | leave => exact Or.inr rfl
  | @finished caller i hd => cases caller <;> cases ht
  | @handle caller i ms x hd => cases caller <;> cases ht
  | threadSend hd =>
    rcases Driver.setThread_cases hd _ with ⟨-, h'⟩ | ⟨_, -, h'⟩ | ⟨-, h'⟩ <;>
      exact absurd (h'.symm.trans ht) (by simp)
  | threadEnd hd =>
    rcases Driver.setThread_cases hd _ with ⟨-, h'⟩ | ⟨_, -, h'⟩ | ⟨-, h'⟩ <;>
      exact absurd (h'.symm.trans ht) (by simp)
  | store hd _ =>
    have hb := (Driver.due_spec hd).2.2.2.2.2.1
    rw [show s.driver.stored = _ from ht] at hb
    exact absurd hb (by simp [Driver.backend])
  | choose | drop => exact Or.inl ht
  | call | functionSend | raise | unbuilt | overflow | joinFirst | joinNext | joinFailed | report
  | allDone | finish | unheard => cases ht

theorem halted_of_unbuilt (hs : s.driver = .unbuilt) : ¬Step p s e t := by
  intro hstep
  cases hstep with
  | @call caller i stage c hd _ _ => rw [hs] at hd; cases caller <;> cases hd
  | threadSend hd | threadEnd hd | store hd _ | overflow hd _ | functionSend hd | finished hd
  | handle hd | raise hd | leave hd _ | unbuilt hd _ | joinFirst hd | joinNext hd | joinFailed hd
  | allDone hd _ | finish hd _ | unheard hd _ | report hd | choose hd _ _ => rw [hs] at hd; cases hd
  | drop _ hne _ => exact absurd (by rw [hs]; rfl) hne

private theorem unbuilt_step (hstep : Step p s e t) : t.driver = .unbuilt ↔ e = .unbuilt := by
  have hs : s.driver ≠ .unbuilt := fun hs => halted_of_unbuilt hs hstep
  have hbackground : ∀ {d : Driver}, d.Background → d ≠ .unbuilt := by
    rintro d hd rfl
    cases hd
  cases hstep with
  | unbuilt => exact iff_of_true rfl rfl
  | @finished caller i hd => cases caller <;> simp [Caller.after]
  | @handle caller i ms x hd => cases caller <;> simp [Caller.hand]
  | threadSend hd =>
    exact iff_of_false (hbackground (Driver.setThread_spec (n := 0) hd _).2.2.2.2.2.1) (by simp)
  | threadEnd hd =>
    exact iff_of_false (hbackground (Driver.setThread_spec (n := 0) hd _).2.2.2.2.2.1) (by simp)
  | store hd _ => exact iff_of_false (hbackground (Driver.due_spec hd).2.2.2.2.2.1) (by simp)
  | choose | drop => exact iff_of_false hs (by simp)
  | call | functionSend | raise | leave | overflow | joinFirst | joinNext | joinFailed | report
  | allDone | finish | unheard => simp

private theorem ready_step {j : Nat} (hstep : Step p s e t) (ht : t.driver = .ready j) :
    s.driver = .ready j ∨ j < p.stages.length := by
  cases hstep with
  | @finished caller i hd => cases caller <;> cases ht
  | @handle caller i ms x hd => cases caller <;> cases ht
  | threadSend hd =>
    rcases Driver.setThread_cases hd _ with ⟨-, h'⟩ | ⟨_, -, h'⟩ | ⟨-, h'⟩ <;>
      exact absurd (h'.symm.trans ht) (by simp)
  | threadEnd hd =>
    rcases Driver.setThread_cases hd _ with ⟨-, h'⟩ | ⟨_, -, h'⟩ | ⟨-, h'⟩ <;>
      exact absurd (h'.symm.trans ht) (by simp)
  | store hd _ =>
    right
    have hstored : s.driver.stored = .ready j := ht
    cases hs : s.driver <;> rw [hs] at hd hstored <;> cases hstored
    · simp only [Driver.due] at hd
      split at hd
      · assumption
      · cases hd
    · cases hd
  | choose | drop => exact Or.inl ht
  | call | functionSend | raise | unbuilt | overflow | joinFirst | joinNext | joinFailed | report
  | allDone | finish | unheard | leave => cases ht

theorem chosen (hrun : p.system.Run h s) : Chosen p h s := by
  refine Path.invariant hrun ⟨fun hb => absurd hb (by simp [Setup.system, Driver.backend]),
    by simp, fun hd => absurd hd (by simp [Setup.system]), by simp [Setup.system],
    fun j hd => absurd hd (by simp [Setup.system])⟩ ?_
  intro h s e t _ hc hstep
  refine ⟨fun ht => ?_, fun b hb => ?_, fun ht => ?_, ?_, fun j ht => ?_⟩
  · rcases background_step hstep ht with hs | ⟨i, rfl⟩
    · obtain ⟨i, hi⟩ := hc.handled hs
      exact ⟨i, List.mem_append_left _ hi⟩
    · exact ⟨i, List.mem_append_right _ (List.mem_singleton.mpr rfl)⟩
  · rcases List.mem_append.mp hb with hb | hb
    · exact backend_step hstep (hc.backend b hb)
    · obtain rfl := List.mem_singleton.mp hb
      exact chosen_backend hstep
  · rcases installed_step hstep ht with hs | rfl
    · exact List.mem_append_left _ (hc.installed hs)
    · exact List.mem_append_right _ (List.mem_singleton.mpr rfl)
  · have hbefore : .unbuilt ∉ h := fun hmem => halted_of_unbuilt (hc.unbuilt.mpr hmem) hstep
    simp [unbuilt_step hstep, hbefore, eq_comm]
  · rcases ready_step hstep ht with hs | hj
    · exact hc.ready j hs
    · exact hj

/-! Runs of setup come to an end. -/

def Result.work : Result → Nat
  | .handle ms _ => ms.length + 10
  | _ => 0

def Thread.work : Thread → Nat
  | .running ms _ => ms.length + 1
  | .ended _ => 0

namespace Driver

def work : Driver → Nat
  | loop _ => 3
  | calling _ _ ms r => ms.length + r.work + 10
  | starting _ t => t.work + 9
  | joining _ _ t => t.work + 7
  | joined _ => 6
  | next _ => 5
  | ready _ => 4
  | reporting _ _ => 2
  | finishing => 2
  | crashed (starting _ t) => t.work
  | _ => 0

end Driver

/-- The stages that are left, and what is left to do before the next call. -/
def State.rank (stages : Nat) (s : State) : Nat × Nat :=
  (stages - s.driver.called stages,
    s.driver.work + (if s.returned = true then 0 else 1) + if s.receiver = true then 1 else 0)

private theorem setThread_work {i : Nat} {d : Driver} {a b : Thread} (hd : d.thread = some (i, a))
    (hlt : b.work < a.work) : (d.setThread b).work < d.work := by
  rcases Driver.setThread_cases hd b with ⟨h, h'⟩ | ⟨first, h, h'⟩ | ⟨h, h'⟩ <;> rw [h', h] <;>
    simp only [Driver.work] <;> omega

private theorem rank_step (hstep : Step p s e t) :
    Prod.Lex (· < ·) (· < ·) (t.rank p.stages.length) (s.rank p.stages.length) := by
  have hwork : ∀ {t : State}, t.driver.called p.stages.length = s.driver.called p.stages.length →
      t.driver.work < s.driver.work → t.returned = s.returned → t.receiver = s.receiver →
      Prod.Lex (· < ·) (· < ·) (t.rank p.stages.length) (s.rank p.stages.length) := by
    intro t hcalled hlt hreturned hreceiver
    rw [State.rank, State.rank, hcalled, hreturned, hreceiver]
    exact Prod.Lex.right _ (by omega)
  have hlast : ∀ {t : State}, t.driver.called p.stages.length = p.stages.length →
      p.stages.length ≤ s.driver.called p.stages.length →
      (t.rank p.stages.length).2 < (s.rank p.stages.length).2 →
      Prod.Lex (· < ·) (· < ·) (t.rank p.stages.length) (s.rank p.stages.length) := by
    intro t hcalled hle hlt
    have hsame : (t.rank p.stages.length).1 = (s.rank p.stages.length).1 := by
      simp only [State.rank, hcalled]
      omega
    exact Prod.lex_def.mpr (Or.inr ⟨hsame, hlt⟩)
  cases hstep with
  | @call caller i stage c hd hget _ =>
    have hlt : i < p.stages.length := (List.getElem?_eq_some_iff.mp hget).1
    have hi : s.driver.called p.stages.length = i := by
      rw [hd]
      cases caller <;> rfl
    refine Prod.Lex.left _ _ ?_
    rw [hi]
    simp only [Driver.called]
    omega
  | functionSend hd => exact hwork (by rw [hd]; rfl) (by simp [hd, Driver.work]) rfl rfl
  | @finished caller i hd =>
    exact hwork (by rw [hd]; cases caller <;> rfl)
      (by rw [hd]; cases caller <;> simp [Caller.after, Driver.work]) rfl rfl
  | @handle caller i ms x hd =>
    refine hwork (by rw [hd]; cases caller <;> rfl) ?_ rfl rfl
    rw [hd]
    cases caller <;> simp [Caller.hand, Driver.work, Result.work, Thread.work]
  | raise hd => exact hwork rfl (by simp [hd, Driver.work]) rfl rfl
  | choose _ hr _ =>
    rw [State.rank, State.rank, hr]
    exact Prod.Lex.right _ (by simp)
  | threadSend hd =>
    exact hwork (Driver.setThread_spec hd _).2.2.2.2.2.2.1
      (setThread_work hd (by simp [Thread.work])) rfl rfl
  | threadEnd hd =>
    exact hwork (Driver.setThread_spec hd _).2.2.2.2.2.2.1
      (setThread_work hd (by simp [Thread.work])) rfl rfl
  | store hd _ =>
    refine hwork (Driver.due_spec hd).2.2.1 ?_ rfl rfl
    cases hs : s.driver <;> rw [hs] at hd <;> simp_all [Driver.due, Driver.stored, Driver.work]
  | overflow hd _ =>
    refine hwork rfl ?_ rfl rfl
    cases hs : s.driver <;> rw [hs] at hd <;> simp_all [Driver.due, Driver.work]
  | joinFirst hd => exact hwork (by rw [hd]; rfl) (by simp [hd, Driver.work, Thread.work]) rfl rfl
  | joinNext hd => exact hwork (by rw [hd]; rfl) (by simp [hd, Driver.work, Thread.work]) rfl rfl
  | joinFailed hd => exact hwork (by rw [hd]; rfl) (by simp [hd, Driver.work, Thread.work]) rfl rfl
  | report hd => exact hwork (by rw [hd]; rfl) (by simp [hd, Driver.work]) rfl rfl
  | leave hd hi | unbuilt hd hi | allDone hd hi =>
    refine hlast rfl (by rw [hd]; exact hi) ?_
    simp only [State.rank, hd, Driver.work, if_true]
    omega
  | finish hd _ => exact hwork (by rw [hd]; rfl) (by simp [hd, Driver.work]) rfl rfl
  | unheard hd _ => exact hwork rfl (by simp [hd, Driver.work]) rfl rfl
  | drop _ _ hr =>
    rw [State.rank, State.rank, hr]
    exact Prod.Lex.right _ (by simp)

theorem wellFounded_step (p : Setup) :
    WellFounded fun t s => ∃ e, p.system.step s e t := by
  have hlex : WellFounded (Prod.Lex (· < · : Nat → Nat → Prop) (· < · : Nat → Nat → Prop)) :=
    WellFounded.prod_lex Nat.lt_wfRel.wf Nat.lt_wfRel.wf
  refine Subrelation.wf ?_ (InvImage.wf (State.rank p.stages.length) hlex)
  rintro t s ⟨e, hstep⟩
  exact rank_step hstep

end LocalDesktop.Android.Proot.Pipeline
