/- GID: LocalDesktop/Android/Backend/Reconnect
   generality: G
   digest: When the acceptor accepts a client after the one before it has gone. -/

import LocalDesktop.Android.Backend.Delivery

set_option autoImplicit false
set_option relaxedAutoImplicit false

namespace LocalDesktop.Android.Backend.Webview

open Foundation.Transition Platform

variable {h mid : List Event} {s t : State} {e : Event} {c : Nat} {m : SetupMessage}
  {accept : Bool}

private theorem lt_accepted_of_failed (hrun : system.Run h s) (hmem : .failed c m ∈ h) :
    c < s.accepted := by
  refine hrun.invariant (I := fun h s => ∀ c m, .failed c m ∈ h → c < s.accepted)
    (by simp [system]) ?_ c m hmem
  intro h s e t hrun ih hstep c m hmem
  cases hstep with
  | accept =>
    have hlt := ih c m (by simpa using hmem)
    exact Nat.lt_succ_of_lt hlt
  | @writeFails i c' m' _ _ hactive =>
    have haccepted := accepted_of_active hrun hactive
    rcases List.mem_append.mp hmem with hmem | hmem
    · exact ih c m hmem
    · obtain ⟨rfl, -⟩ : c = c' ∧ m = m' := by simpa using hmem
      exact haccepted ▸ Nat.lt_succ_self c
  | _ => exact ih c m (by simpa using hmem)

/-- The place of the active client is taken by the client that was accepted last, until a write
to it fails. -/
private theorem active_iff (hrun : system.Run h s) :
    s.active = some c ↔ s.accepted = c + 1 ∧ ∀ m, .failed c m ∉ h := by
  refine hrun.invariant
    (I := fun h s => ∀ c, s.active = some c ↔ s.accepted = c + 1 ∧ ∀ m, .failed c m ∉ h)
    (by simp [system]) ?_ c
  intro h s e t hrun ih hstep c
  cases hstep with
  | accept =>
    constructor
    · intro hactive
      obtain rfl : s.accepted = c := by simpa using hactive
      refine ⟨rfl, fun m hmem => ?_⟩
      have hbefore : .failed s.accepted m ∈ h := by simpa using hmem
      have hlt := lt_accepted_of_failed hrun hbefore
      omega
    · rintro ⟨haccepted, -⟩
      exact congrArg some (Nat.succ.inj haccepted)
  | @writeFails i c' m _ _ hactive =>
    have haccepted := accepted_of_active hrun hactive
    constructor
    · intro hnone
      cases hnone
    · rintro ⟨hsame, hnot⟩
      obtain rfl : c' = c := by
        have : s.accepted = c + 1 := hsame
        omega
      exact absurd (List.mem_append_right h (List.mem_singleton.mpr rfl)) (hnot m)
  | _ => simpa using ih c

private theorem isNone_active_iff (hrun : system.Run h s) (hlast : lastAccepted h = some c) :
    s.active.isNone = true ↔ ∃ m, .failed c m ∈ h := by
  have haccepted := (lastAccepted_iff hrun).mp hlast
  cases hactive : s.active with
  | none =>
    have hnot : ¬(s.accepted = c + 1 ∧ ∀ m, .failed c m ∉ h) := by
      rw [← active_iff hrun, hactive]
      simp
    simpa [haccepted] using hnot
  | some d =>
    obtain ⟨hd, hnot⟩ := (active_iff hrun).mp hactive
    obtain rfl : d = c := by omega
    simpa using hnot

private theorem answer_eq (hstep : system.step s (.answered true accept) t) :
    accept = s.active.isNone := by
  generalize he : Event.answered true accept = e at hstep
  cases hstep with
  | answer =>
    obtain ⟨rfl, rfl⟩ := Event.answered.inj he
    exact Bool.and_true _
  | _ => cases he

private theorem acceptor_of_arrived {rust : Bool} (hstep : system.step s (.arrived rust) t) :
    t.acceptor = .arrived rust := by
  generalize he : Event.arrived rust = e at hstep
  cases hstep <;> cases he
  rfl

/-! Between the arrival of a request and its answer. -/

def Acceptor.pending : Acceptor → Bool
  | .arrived _ | .holding _ => true
  | _ => false

private theorem pending_of_path (hrun : system.Run h s) (hpending : s.acceptor.pending = true)
    (hpath : Path system s mid t) (hquiet : ∀ rust accept, .answered rust accept ∉ mid) :
    t.acceptor.pending = true ∧ clients mid = [] := by
  refine hpath.invariant (I := fun mid t => (∀ rust accept, .answered rust accept ∉ mid) →
    t.acceptor.pending = true ∧ clients mid = []) (fun _ => ⟨hpending, rfl⟩) ?_ hquiet
  intro mid t e u hst ih hstep hquiet
  obtain ⟨hpending, hclients⟩ := ih fun rust accept hmem =>
    hquiet rust accept (List.mem_append_left _ hmem)
  rw [clients, observed_snoc, ← clients, hclients, List.nil_append]
  cases hstep with
  | lockPoisoned harrived _ hpoisoned =>
    have hpanicked := panicked_of_poisoned (hrun.append hst) hpoisoned
    cases harrived.symm.trans hpanicked
  | answer => exact absurd (List.mem_append_right mid (List.mem_singleton.mpr rfl)) (hquiet _ _)
  | lock => exact ⟨rfl, rfl⟩
  | arrive hother | reject hother | accept hother | replyFails hother =>
    rw [hother] at hpending
    cases hpending
  | _ => exact ⟨hpending, rfl⟩

private theorem soon_answered (hrun : system.Run h s) {rust : Bool}
    (harrived : s.acceptor = .arrived rust) :
    Soon s fun t => ∃ accept, t.acceptor = .replying accept := by
  have hfine : s.activePoisoned = false := by
    rw [← Bool.not_eq_true]
    intro hpoisoned
    cases harrived.symm.trans (panicked_of_poisoned hrun hpoisoned)
  have hanswered : ∀ {s : State}, s.acceptor = .arrived rust → s.activePoisoned = false →
      (∀ i serving, s.server = some (i, serving) → serving.locks = false) →
      Soon s fun t => ∃ accept, t.acceptor = .replying accept := by
    intro s harrived hfine hserver
    have hfree : s.free := ⟨by rw [harrived]; rfl, hserver⟩
    exact .after (.lock harrived hfree hfine) rfl (.after (.answer rfl) rfl (.here ⟨_, rfl⟩))
  by_cases hheld : ∃ i m page, s.server = some (i, .holding m page)
  · obtain ⟨i, m, page, hserver⟩ := hheld
    refine (soon_handled hserver).trans fun t ⟨_, hacceptor, hpoisoned, hserving⟩ => ?_
    exact hanswered (hacceptor.trans harrived) (hpoisoned.trans hfine) hserving
  · refine hanswered harrived hfine fun i serving hserver => ?_
    cases serving with
    | holding m page => exact absurd ⟨i, m, page, hserver⟩ hheld
    | _ => rfl

theorem not_arrived_of_panicked (hpanicked : s.acceptor = .panicked) (hpath : Path system s mid t)
    (rust : Bool) : .arrived rust ∉ mid := by
  have hall := (hpath.stable (P := fun s => s.acceptor = .panicked)
    (Q := fun e => ∀ rust, e ≠ .arrived rust) hpanicked ?_).2
  · intro hmem
    exact hall _ hmem rust rfl
  · intro t e u hpanicked hstep
    cases hstep with
    | arrive hother | lock hother | lockPoisoned hother | answer hother | reject hother
    | accept hother | replyFails hother => cases hother.symm.trans hpanicked
    | _ => exact ⟨hpanicked, by simp⟩

/-- The client is gone: its page has closed the connection, or it is broken. -/
def Event.ends (c : Nat) : Event → Prop
  | .parted d | .left d => d = c
  | _ => False

private theorem not_failed_before_end {pre post : List Event}
    (hrun : system.Run (pre ++ e :: post) s)
    (hends : e.ends c) (m : SetupMessage) : .failed c m ∉ pre := by
  intro hmem
  obtain ⟨t, t', hpre, hstep, -⟩ := hrun.at_event
  obtain ⟨a, b, rfl⟩ := List.append_of_mem hmem
  have hfate : (Event.failed c m).fate = some (m, .failed c) := rfl
  have hleft : .left c ∈ a := (accounted hpre rfl hfate).2
  have hgone : t.gone c = true := (gone_iff hpre).mpr (List.mem_append_left _ hleft)
  cases hstep with
  | part _ hpresent | leave _ hpresent =>
    rw [show _ = c from hends] at hpresent
    cases hgone.symm.trans hpresent
  | _ => exact hends

/-! The theorem. -/

/-- A request comes after the last client is gone. It is accepted if and only if a write of a
delivery thread to that client fails between its end and the answer; nothing else makes the place
free, not even a write that goes through. -/
theorem returning_page_accepted_iff {pre post : List Event}
    (hrun : system.Run (pre ++ e :: post) s) (hends : e.ends c)
    (hlast : lastAccepted (pre ++ e :: post) = some c) :
    (∀ mid accept t, Path system s (.arrived true :: (mid ++ [.answered true accept])) t →
      (∀ rust accept, .answered rust accept ∉ mid) →
      (accept = true ↔ ∃ m, .failed c m ∈ post ++ mid)) ∧
    (∀ t, system.step s (.arrived true) t →
      Soon t fun u => ∃ accept, u.acceptor = .replying accept) ∧
    (.broke ∈ pre ++ post → ∀ rust mid t, Path system s mid t → .arrived rust ∉ mid) := by
  refine ⟨?_, ?_, ?_⟩
  · intro mid accept t hpath hquiet
    obtain ⟨u, harrive, hrest⟩ := hpath.uncons
    obtain ⟨v, v', hmid, hanswer, -⟩ := hrest.at_event
    have hpending := acceptor_of_arrived harrive
    have hrun' := hrun.snoc harrive
    obtain ⟨-, hclients⟩ := pending_of_path hrun' (by rw [hpending]; rfl) hmid hquiet
    have hlast' : lastAccepted (pre ++ e :: post ++ [.arrived true] ++ mid) = some c := by
      rw [lastAccepted, clients_append, clients_append, hclients, List.append_nil, ← hlast]
      exact congrArg _ (List.append_nil _)
    rw [answer_eq hanswer, isNone_active_iff (hrun'.append hmid) hlast']
    have hpre := not_failed_before_end hrun hends
    have hself : ∀ m, Event.failed c m ≠ e := by
      rintro m rfl
      exact hends
    simp [hpre, hself]
  · intro t hstep
    exact soon_answered (hrun.snoc hstep) (acceptor_of_arrived hstep)
  · intro hbroke rust mid t hpath
    refine not_arrived_of_panicked ((panicked_iff hrun).mpr ?_) hpath rust
    rcases List.mem_append.mp hbroke with hpre | hpost
    · exact List.mem_append_left _ hpre
    · exact List.mem_append_right _ (List.mem_cons_of_mem _ hpost)

/-- A request that comes while there is an active client, up to the answer. -/
def refusal : List Event := [.arrived true, .locked, .answered true false]

theorem path_refusal (hidle : s.acceptor = .idle) (hactive : s.active = some c) (hfree : s.free)
    (hfine : s.activePoisoned = false) :
    Path system s refusal { s with acceptor := .replying false } := by
  have hanswer : system.step { s with acceptor := .holding true } (.answered true false)
      { s with acceptor := .replying false } := by
    have hstep := @Step.answer { s with acceptor := .holding true } true rfl
    rwa [show (s.active.isNone && true) = false by rw [hactive]; rfl] at hstep
  exact .cons (.arrive hidle) (.cons (.lock rfl ⟨rfl, hfree.2⟩ hfine) (.single hanswer))

def away : List Event := connection 0 ++ [.parted 0]

private theorem run_away :
    ∃ s, system.Run away s ∧ s.acceptor = .idle ∧ s.active = some 0 ∧ s.free ∧
    s.activePoisoned = false := by
  exact ⟨_, (path_connection rfl rfl rfl rfl rfl rfl).snoc (.part Nat.one_pos rfl), rfl, rfl,
    ⟨rfl, unlocked_of_server rfl rfl⟩, rfl⟩

theorem returning_page_accepted_iff_after_away : ∃ s, system.Run away s ∧
    ∀ mid accept t, Path system s (.arrived true :: (mid ++ [.answered true accept])) t →
      (∀ rust accept, .answered rust accept ∉ mid) →
      (accept = true ↔ ∃ m, .failed 0 m ∈ mid) := by
  obtain ⟨s, hrun, -⟩ := run_away
  have hlast : lastAccepted (connection 0 ++ [.parted 0]) = some 0 := by decide
  exact ⟨s, hrun, (returning_page_accepted_iff hrun rfl hlast).1⟩

/-- The first message after the page was closed is still written without an error. -/
def awayWritten : List Event :=
  away ++ (turnOf 0 booting ++ [.written 0 booting (pageMessage 0 booting)])

private theorem run_awayWritten : ∃ s, system.Run awayWritten s ∧ s.acceptor = .idle ∧
    s.active = some 0 ∧ s.free ∧ s.activePoisoned = false := by
  exact ⟨_, ((path_connection rfl rfl rfl rfl rfl rfl).snoc (.part Nat.one_pos rfl)).append
    ((path_turn rfl rfl rfl rfl rfl).snoc (.write rfl rfl rfl)), rfl, rfl,
    ⟨rfl, unlocked_of_server rfl rfl⟩, rfl⟩

/-- The page is opened again and is rejected for the sake of the client that is gone, whether or not
a message was sent to that client meanwhile. -/
theorem returning_page_rejected :
    (∃ s t, system.Run away s ∧ lastAccepted away = some 0 ∧ .parted 0 ∈ away ∧
      Path system s [.arrived true, .locked, .answered true false, .rejected] t) ∧
    ∃ s t, system.Run awayWritten s ∧ lastAccepted awayWritten = some 0 ∧
      .parted 0 ∈ awayWritten ∧
      Path system s [.arrived true, .locked, .answered true false, .rejected] t := by
  obtain ⟨s, hrun, hidle, hactive, hfree, hfine⟩ := run_away
  obtain ⟨t, hrun', hidle', hactive', hfree', hfine'⟩ := run_awayWritten
  exact ⟨⟨s, _, hrun, by decide, by decide,
      (path_refusal hidle hactive hfree hfine).snoc (.reject rfl)⟩,
    ⟨t, _, hrun', by decide, by decide,
      (path_refusal hidle' hactive' hfree' hfine').snoc (.reject rfl)⟩⟩

end LocalDesktop.Android.Backend.Webview
