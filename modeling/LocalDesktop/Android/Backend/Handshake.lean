/- GID: LocalDesktop/Android/Backend/Handshake
   generality: G
   digest: What a failed handshake does to the clients and to the requests after it. -/

import LocalDesktop.Android.Backend.Reconnect

set_option autoImplicit false
set_option relaxedAutoImplicit false

namespace LocalDesktop.Android.Backend.Webview

open Foundation.Transition Platform

/-! The threads alone come to rest. -/

/-- A step of a thread that is not a failure of the handshake. -/
def Event.smooth (e : Event) : Bool := e.ofThread && e != .broke

def threads : System State Event := system.guarded fun _ e => e.smooth = true

/-- The system while no handshake fails. -/
def calm : System State Event := system.guarded fun _ e => e ≠ .broke

/-- Nothing goes on before the next request, message or end of a client. -/
def State.Resting (s : State) : Prop := threads.Halted s

/-- The steps that the acceptor may still take for the request in hand. -/
def Acceptor.rank : Acceptor → Nat
  | .arrived _ => 5
  | .holding _ => 4
  | .replying _ => 3
  | _ => 0

def Serving.rank : Serving → Nat
  | .reading _ => 4
  | .locking _ _ => 3
  | .holding _ _ => 2
  | _ => 1

def State.rank (s : State) : Nat :=
  4 * s.queue.length + s.acceptor.rank + 2 * s.waiting.length +
    (s.server.elim 0 fun server => server.2.rank)

variable {h h' : List Event} {s t : State} {e : Event} {c : Nat} {m : SetupMessage} {fate : Fate}

private theorem rank_lt_of_step (hstep : system.step s e t) (he : e.ofThread = true) :
    t.rank < s.rank := by
  cases hstep with
  | send | close | store | part | leave | arrive => cases he
  | lock ha | lockPoisoned ha | answer ha | reject ha | accept ha | replyFails ha =>
    simp only [State.rank, Acceptor.rank, ha, List.length_append, List.length_singleton]
    omega
  | serve hi hserver =>
    have hlength := List.length_erase_of_mem hi
    have hpos := List.length_pos_of_mem hi
    simp only [State.rank, hserver, Serving.rank, Option.elim]
    omega
  | servePoisoned hi hserver =>
    have hlength := List.length_erase_of_mem hi
    have hpos := List.length_pos_of_mem hi
    simp only [State.rank]
    omega
  | take hserver hqueue =>
    simp only [State.rank, hserver, hqueue, Serving.rank, Option.elim, List.length_cons]
    omega
  | disconnect hserver | read hserver | turn hserver | turnPoisoned hserver | write hserver
  | writeFails hserver | skip hserver | finish hserver =>
    simp only [State.rank, hserver, Serving.rank, Option.elim]
    omega

private theorem rank_lt_of_thread (hstep : threads.step s e t) : t.rank < s.rank :=
  rank_lt_of_step hstep.2 (Bool.and_eq_true_iff.mp hstep.1).1

/-- The threads come to rest, whatever they do. -/
def State.Settles (s : State) : Prop := ∃ bound, ∀ h t, Path threads s h t → h.length ≤ bound

private theorem settles (s : State) : s.Settles := by
  refine ⟨s.rank, fun h t hpath => ?_⟩
  have hle := hpath.length_le fun _ _ _ => rank_lt_of_thread
  omega

private theorem exists_resting (s : State) : ∃ h t, Path threads s h t ∧ t.Resting :=
  exists_halted (wellFounded_of_rank fun _ _ _ => rank_lt_of_thread) s

private theorem State.Resting.not_step (hrest : s.Resting) (he : e.smooth = true) :
    ¬system.step s e t :=
  fun hstep => hrest e t ⟨he, hstep⟩

private theorem State.Resting.unlocked (hrest : s.Resting) : s.acceptor.locks = false := by
  cases hacceptor : s.acceptor with
  | holding rust => exact absurd (.answer hacceptor) (hrest.not_step rfl)
  | replying accept =>
    cases accept with
    | false => exact absurd (.reject hacceptor) (hrest.not_step rfl)
    | true => exact absurd (.accept hacceptor) (hrest.not_step rfl)
  | _ => rfl

private theorem State.Resting.receiving (hrest : s.Resting) {i : Nat} {serving : Serving}
    (hserver : s.server = some (i, serving)) : serving = .receiving ∧ s.queue = [] := by
  cases serving with
  | receiving =>
    refine ⟨rfl, ?_⟩
    cases hqueue : s.queue with
    | nil => rfl
    | cons m queue => exact absurd (.take hserver hqueue) (hrest.not_step rfl)
  | reading m => exact absurd (.read hserver) (hrest.not_step rfl)
  | locking m page =>
    have hfree : s.free := ⟨hrest.unlocked, unlocked_of_server hserver rfl⟩
    cases hpoisoned : s.activePoisoned with
    | true => exact absurd (.turnPoisoned hserver hfree hpoisoned) (hrest.not_step rfl)
    | false => exact absurd (.turn hserver hfree hpoisoned) (hrest.not_step rfl)
  | holding m page =>
    cases hactive : s.active with
    | none => exact absurd (.skip hserver hactive) (hrest.not_step rfl)
    | some c =>
      cases hgone : s.gone c with
      | true => exact absurd (.writeFails hserver hactive hgone) (hrest.not_step rfl)
      | false => exact absurd (.write hserver hactive hgone) (hrest.not_step rfl)
  | leaving => exact absurd (.finish hserver) (hrest.not_step rfl)

private theorem State.Resting.free (hrest : s.Resting) : s.free := by
  refine ⟨hrest.unlocked, fun i serving hserver => ?_⟩
  rw [(hrest.receiving hserver).1]
  rfl

/-! While no handshake fails. -/

private theorem active_of_live (hrun : system.Run h s) (hmem : .accepted c ∈ h)
    (hlive : .left c ∉ h) :
    s.active = some c := by
  have hkept : ∀ c, c < s.accepted → s.gone c = false → s.active = some c := by
    refine hrun.invariant
      (I := fun _ s => ∀ c, c < s.accepted → s.gone c = false → s.active = some c)
      (by simp [system]) ?_
    intro h s e t hrun ih hstep c hlt hpresent
    cases hstep with
    | @leave d =>
      apply ih c hlt
      by_cases hc : c = d
      · subst hc
        simp at hpresent
      · simpa [Function.update_of_ne hc] using hpresent
    | accept hreply =>
      have hfree := active_of_replying hrun hreply
      by_cases hc : c < s.accepted
      · have hactive := ih c hc hpresent
        rw [hfree] at hactive
        cases hactive
      · have heq : c = s.accepted := by
          have hle : c < s.accepted + 1 := hlt
          omega
        exact congrArg some heq.symm
    | writeFails _ hactive hgone =>
      have hsame : some c = some _ := (ih c hlt hpresent).symm.trans hactive
      obtain rfl := Option.some.inj hsame
      cases hgone.symm.trans hpresent
    | _ => exact ih c hlt hpresent
  have hclient : c ∈ clients h := mem_observed.mpr ⟨_, hmem, rfl⟩
  rw [clients_eq hrun, List.mem_range] at hclient
  have hpresent : s.gone c = false := by
    rw [← Bool.not_eq_true, gone_iff hrun]
    exact hlive
  exact hkept c hclient hpresent

private theorem not_poisoned (hrun : system.Run h s) (hcalm : .broke ∉ h) :
    s.activePoisoned = false ∧ s.receiverPoisoned = false := by
  have hactive : s.activePoisoned = false := by
    rw [← Bool.not_eq_true]
    intro hpoisoned
    exact hcalm ((panicked_iff hrun).mp (panicked_of_poisoned hrun hpoisoned))
  have hreceiver : s.receiverPoisoned = true → s.activePoisoned = true := by
    refine hrun.invariant
      (I := fun _ s => s.receiverPoisoned = true → s.activePoisoned = true) (by simp [system]) ?_
    intro h s e t _ ih hstep
    cases hstep with
    | replyFails => exact fun _ => rfl
    | turnPoisoned _ _ hpoisoned => exact fun _ => hpoisoned
    | _ => exact ih
  refine ⟨hactive, ?_⟩
  rw [← Bool.not_eq_true]
  intro hpoisoned
  cases hactive.symm.trans (hreceiver hpoisoned)

/-- The active client has a thread that serves it or will, or the channel is at its end. -/
def State.Attended (s : State) (c : Nat) : Prop :=
  c ∈ s.engaged ∨ s.queue = [] ∧ s.senders = false

private theorem attended (hrun : system.Run h s) (hcalm : .broke ∉ h)
    (hactive : s.active = some c) :
    s.Attended c := by
  refine hrun.invariant
    (I := fun h s => .broke ∉ h → ∀ c, s.active = some c → s.Attended c) (by simp [system]) ?_
    hcalm c hactive
  intro h s e t hrun ih hstep hcalm c hactive
  have hbefore : .broke ∉ h := fun hmem => hcalm (List.mem_append_left _ hmem)
  obtain ⟨hfine, hfine'⟩ := not_poisoned hrun hbefore
  have hcases : ∀ {c : Nat}, s.active = some c → s.Attended c := fun {c} => ih hbefore c
  cases hstep with
  | send hopen =>
    rcases hcases hactive with hmem | ⟨-, hclosed⟩
    · exact .inl hmem
    · cases hopen.symm.trans hclosed
  | close =>
    rcases hcases hactive with hmem | ⟨hqueue, -⟩
    · exact .inl hmem
    · exact .inr ⟨hqueue, rfl⟩
  | accept =>
    obtain rfl : s.accepted = c := by simpa using hactive
    exact .inl (by simp [State.engaged])
  | serve hi hserver =>
    obtain ⟨hwaiting, hsame⟩ := (exclusive hrun).of_waiting hi hserver
    obtain rfl := Option.some.inj (hsame.symm.trans hactive)
    exact .inl (by simp [State.engaged, Serving.engaged])
  | servePoisoned _ _ hpoisoned => cases hfine'.symm.trans hpoisoned
  | turnPoisoned _ _ hpoisoned => cases hfine.symm.trans hpoisoned
  | take hserver | read hserver | turn hserver | write hserver | skip hserver =>
    obtain ⟨-, hsame⟩ := (exclusive hrun).of_server hserver rfl
    obtain rfl := Option.some.inj (hsame.symm.trans hactive)
    exact .inl (by simp [State.engaged, Serving.engaged])
  | disconnect _ hqueue hclosed => exact .inr ⟨hqueue, hclosed⟩
  | writeFails => cases hactive
  | finish hserver =>
    rcases hcases hactive with hmem | hdone
    · exact .inl (by simpa [State.engaged, hserver, Serving.engaged] using hmem)
    · exact .inr hdone
  | _ => exact hcases hactive

private theorem fate_of_live (hrun : system.Run h s) (hcalm : .broke ∉ h) (hmem : .accepted c ∈ h)
    (hlive : .left c ∉ h) (hstep : system.step s e t) (hfate : e.fate = some (m, fate)) :
    ∃ page, fate = .written c page := by
  have hactive := active_of_live hrun hmem hlive
  have hpresent : s.gone c = false := by
    rw [← Bool.not_eq_true, gone_iff hrun]
    exact hlive
  cases hstep with
  | turnPoisoned _ _ hpoisoned => cases (not_poisoned hrun hcalm).1.symm.trans hpoisoned
  | write _ hsame =>
    obtain rfl := Option.some.inj (hactive.symm.trans hsame)
    cases hfate
    exact ⟨_, rfl⟩
  | writeFails _ hsame hgone =>
    obtain rfl := Option.some.inj (hactive.symm.trans hsame)
    cases hgone.symm.trans hpresent
  | skip _ hnone => cases hactive.symm.trans hnone
  | _ => cases hfate

private theorem State.Resting.drained (hrest : s.Resting) (hrun : system.Run h s)
    (hcalm : .broke ∉ h)
    (hactive : s.active = some c) : s.queue = [] ∧ s.inHand = [] := by
  cases hserver : s.server with
  | some server =>
    obtain ⟨i, serving⟩ := server
    obtain ⟨rfl, hqueue⟩ := hrest.receiving hserver
    exact ⟨hqueue, by simp [State.inHand, hserver, Serving.message]⟩
  | none =>
    refine ⟨?_, by simp [State.inHand, hserver]⟩
    rcases attended hrun hcalm hactive with hmem | ⟨hqueue, -⟩
    · have hwaiting : c ∈ s.waiting := by simpa [State.engaged, hserver] using hmem
      have hfine := (not_poisoned hrun hcalm).2
      exact absurd (.serve hwaiting hserver hfine) (hrest.not_step rfl)
    · exact hqueue

private theorem State.Resting.idle (hrest : s.Resting) (hrun : system.Run h s)
    (hcalm : .broke ∉ h) :
    s.acceptor = .idle := by
  have hunlocked := hrest.unlocked
  cases hacceptor : s.acceptor with
  | idle => rfl
  | arrived rust =>
    exact absurd (.lock hacceptor hrest.free (not_poisoned hrun hcalm).1) (hrest.not_step rfl)
  | panicked => exact absurd ((panicked_iff hrun).mp hacceptor) hcalm
  | holding | replying =>
    rw [hacceptor] at hunlocked
    cases hunlocked

private theorem answered_of_path (hpath : Path threads s h t)
    (harrived : s.acceptor = .arrived true) :
    (∃ accept, .answered true accept ∈ h) ∨ t.acceptor = .arrived true ∨
      t.acceptor = .holding true := by
  refine hpath.invariant (I := fun h t => (∃ accept, .answered true accept ∈ h) ∨
    t.acceptor = .arrived true ∨ t.acceptor = .holding true) (.inr (.inl harrived)) ?_
  intro h t e u _ ih hstep
  obtain ⟨hsmooth, hstep⟩ := hstep
  rcases ih with ⟨accept, hmem⟩ | hwaits
  · exact .inl ⟨accept, List.mem_append_left _ hmem⟩
  · cases hstep with
    | answer ha =>
      obtain rfl : _ = true := by simpa [ha] using hwaits
      exact .inl ⟨_, List.mem_append_right _ (List.mem_singleton.mpr rfl)⟩
    | lock ha =>
      obtain rfl : _ = true := by simpa [ha] using hwaits
      exact .inr (.inr rfl)
    | arrive | lockPoisoned | replyFails => cases hsmooth
    | reject ha | accept ha => simp [ha] at hwaits
    | _ => exact .inr hwaits

/-! The theorem. -/

/-- From here on, as long as client `c` is there and no further handshake fails, every message
that is dealt with is written to `c`, and at rest none is left. -/
def Serves (c : Nat) (s : State) : Prop :=
  ∀ h t, Path calm s h t → .left c ∉ h →
    (∀ m fate, (m, fate) ∈ fates h → ∃ page, fate = .written c page) ∧
    t.Settles ∧ (t.Resting → t.queue = [] ∧ t.inHand = [])

/-- From here on, as long as no further handshake fails, the acceptor takes the next request of
the protocol as soon as the threads are at rest, and answers it before they are again. -/
def Handles (s : State) : Prop :=
  ∀ h t, Path calm s h t → t.Resting → ∃ u, system.step t (.arrived true) u ∧ u.Settles ∧
    ∀ mid v, Path threads u mid v → v.Resting → ∃ accept, .answered true accept ∈ mid

private theorem not_broke_of_calm (hpath : Path calm s h t) : .broke ∉ h := by
  induction hpath with
  | nil => exact List.not_mem_nil
  | snoc _ hstep ih =>
    intro hmem
    rcases List.mem_append.mp hmem with hmem | hmem
    · exact ih hmem
    · exact hstep.1 (List.mem_singleton.mp hmem).symm

private theorem calm_of_threads (hpath : Path threads s h t) : Path calm s h t := by
  induction hpath with
  | nil => exact .nil _
  | snoc _ hstep ih =>
    refine .snoc ih ⟨fun he => ?_, hstep.2⟩
    rw [he] at hstep
    cases hstep.1

private theorem serves_of_calm (hrun : system.Run h s) (hcalm : .broke ∉ h) (hmem : .accepted c ∈ h)
    (hlive : .left c ∉ h) : Serves c s := by
  intro h' t hpath hstays
  have hrun' : system.Run (h ++ h') t := hrun.append hpath.of_guarded
  have hcalm' : .broke ∉ h ++ h' := by simp [hcalm, not_broke_of_calm hpath]
  have hlive' : .left c ∉ h ++ h' := by simp [hlive, hstays]
  refine ⟨fun m fate hfate => ?_, settles t, fun hrest => ?_⟩
  · obtain ⟨e, he, hview⟩ := mem_observed.mp hfate
    obtain ⟨pre, post, rfl⟩ := List.append_of_mem he
    rw [← List.append_assoc] at hrun' hcalm' hlive'
    obtain ⟨u, v, hpre, hstep, -⟩ := hrun'.at_event
    apply fate_of_live hpre _ (List.mem_append_left _ hmem) _ hstep hview
    · exact fun hbroke => hcalm' (List.mem_append_left _ hbroke)
    · exact fun hleft => hlive' (List.mem_append_left _ hleft)
  · exact hrest.drained hrun' hcalm' (active_of_live hrun' (List.mem_append_left _ hmem) hlive')

private theorem handles_of_calm (hrun : system.Run h s) (hcalm : .broke ∉ h) : Handles s := by
  intro h' t hpath hrest
  have hrun' : system.Run (h ++ h') t := hrun.append hpath.of_guarded
  have hcalm' : .broke ∉ h ++ h' := by simp [hcalm, not_broke_of_calm hpath]
  have harrive : system.step t (.arrived true) { t with acceptor := .arrived true } :=
    .arrive (hrest.idle hrun' hcalm')
  refine ⟨_, harrive, settles _, fun mid v hmid hend => ?_⟩
  have hrun'' := (hrun'.snoc harrive).append hmid.of_guarded
  have hcalm'' : .broke ∉ h ++ h' ++ [.arrived true] ++ mid := by
    simp [hcalm, not_broke_of_calm hpath, not_broke_of_calm (calm_of_threads hmid)]
  have hidle := hend.idle hrun'' hcalm''
  rcases answered_of_path hmid rfl with hanswered | harrived | hholding
  · exact hanswered
  · cases hidle.symm.trans harrived
  · cases hidle.symm.trans hholding

private theorem not_handles_of_broke (hrun : system.Run h s) (hbroke : .broke ∈ h) :
    ¬Handles s := by
  intro hhandles
  obtain ⟨h', t, hpath, hrest⟩ := exists_resting s
  obtain ⟨u, harrive, -⟩ := hhandles h' t (calm_of_threads hpath) hrest
  have hpanicked := (panicked_iff hrun).mpr hbroke
  have hnever := not_arrived_of_panicked hpanicked (hpath.of_guarded.snoc harrive) true
  exact hnever (List.mem_append_right _ (List.mem_singleton.mpr rfl))

/-- After any connection attempts the live client is served and the next request is handled, if
and only if no call for an attempt failed while the acceptor held the lock. -/
theorem served_and_handled_iff (hrun : system.Run h s) :
    ((∀ c, .accepted c ∈ h → .left c ∉ h → Serves c s) ∧ Handles s) ↔ .broke ∉ h := by
  constructor
  · intro hall hbroke
    exact not_handles_of_broke hrun hbroke hall.2
  · intro hcalm
    exact ⟨fun c => serves_of_calm hrun hcalm, handles_of_calm hrun hcalm⟩

def refused : List Event := connection 0 ++ (refusal ++ [.rejected])

theorem served_and_handled_after_refusal : ∃ s, system.Run refused s ∧
    (∀ c, .accepted c ∈ refused → .left c ∉ refused → Serves c s) ∧ Handles s := by
  have hrun : ∃ s, system.Run refused s :=
    ⟨_, (path_connection rfl rfl rfl rfl rfl rfl).append
      ((path_refusal rfl rfl ⟨rfl, unlocked_of_server rfl rfl⟩ rfl).snoc (.reject rfl))⟩
  obtain ⟨s, hrun⟩ := hrun
  exact ⟨s, hrun, (served_and_handled_iff hrun).mpr (by decide)⟩

def broken : List Event := connection 0 ++ (refusal ++ [.broke])

/-- The first client is still there, but its thread dies with the next message, and no request is
taken any more. -/
theorem not_served_nor_handled_after_broken : ∃ s, system.Run broken s ∧
    .accepted 0 ∈ broken ∧ .left 0 ∉ broken ∧ ¬Serves 0 s ∧ ¬Handles s := by
  have hrun : ∃ s, system.Run broken s ∧
      Path calm s [.sent booting, .taken 0 booting, .read 0, .crashed 0 booting]
        { s with
          server := none
          receiverPoisoned := true } := by
    refine ⟨_, (path_connection rfl rfl rfl rfl rfl rfl).append
      ((path_refusal rfl rfl ⟨rfl, unlocked_of_server rfl rfl⟩ rfl).snoc (.replyFails rfl)), ?_⟩
    exact .cons ⟨by simp, .send rfl⟩ (.cons ⟨by simp, .take rfl rfl⟩ (.cons ⟨by simp, .read rfl⟩
      (.single ⟨by simp, .turnPoisoned rfl ⟨rfl, unlocked_of_server rfl rfl⟩ rfl⟩)))
  obtain ⟨s, hrun, hlater⟩ := hrun
  refine ⟨s, hrun, by decide, by decide, fun hserves => ?_,
    not_handles_of_broke hrun (by decide)⟩
  obtain ⟨page, hpage⟩ := (hserves _ _ hlater (by decide)).1 booting .crashed (by decide)
  cases hpage

end LocalDesktop.Android.Backend.Webview
