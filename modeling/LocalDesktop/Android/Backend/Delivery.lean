/- GID: LocalDesktop/Android/Backend/Delivery
   generality: G
   digest: What becomes of the messages that the delivery threads take from the channel. -/

import LocalDesktop.Android.Backend.Webview

set_option autoImplicit false
set_option relaxedAutoImplicit false

namespace LocalDesktop.Android.Backend.Webview

open Foundation.Transition Platform

/-! What a history says of the messages and of the clients. -/

/-- What becomes of a message that a delivery thread has taken. -/
inductive Fate
  | written (client : Nat) (page : PageMessage)
  | failed (client : Nat)
  | skipped
  | crashed
  deriving DecidableEq

def Event.sentMessage : Event → Option SetupMessage
  | .sent m => some m
  | _ => none

def Event.takenMessage : Event → Option SetupMessage
  | .taken _ m => some m
  | _ => none

def Event.fate : Event → Option (SetupMessage × Fate)
  | .written c m page => some (m, .written c page)
  | .failed c m => some (m, .failed c)
  | .skipped _ m => some (m, .skipped)
  | .crashed _ m => some (m, .crashed)
  | _ => none

def Event.client : Event → Option Nat
  | .accepted c => some c
  | _ => none

def Event.ofThread : Event → Bool
  | .sent _ | .closed | .stored _ | .parted _ | .left _ | .arrived _ => false
  | _ => true

def sentMessages : List Event → List SetupMessage := observed Event.sentMessage

def takenMessages : List Event → List SetupMessage := observed Event.takenMessage

def fates : List Event → List (SetupMessage × Fate) := observed Event.fate

def clients : List Event → List Nat := observed Event.client

def lastAccepted (h : List Event) : Option Nat := (clients h).getLast?

def Serving.message : Serving → List SetupMessage
  | .reading m | .locking m _ | .holding m _ => [m]
  | _ => []

def State.inHand (s : State) : List SetupMessage :=
  match s.server with
  | some (_, serving) => serving.message
  | none => []

def Serving.engaged : Serving → Bool
  | .leaving => false
  | _ => true

/-- The threads that may still write to the active client. -/
def State.engaged (s : State) : List Nat :=
  s.waiting ++ match s.server with
    | some (i, serving) => if serving.engaged then [i] else []
    | none => []

variable {h : List Event} {s t : State} {e : Event} {c : Nat} {m : SetupMessage}

theorem clients_append {h' : List Event} : clients (h ++ h') = clients h ++ clients h' :=
  observed_append

theorem gone_iff (hrun : system.Run h s) : s.gone c = true ↔ .left c ∈ h := by
  refine hrun.invariant (I := fun h s => s.gone c = true ↔ .left c ∈ h) (by simp [system]) ?_
  intro h s e t _ ih hstep
  cases hstep with
  | @leave c' =>
    by_cases hc : c = c'
    · subst hc
      simp
    · simpa [Function.update_of_ne hc, hc] using ih
  | _ => simpa using ih

theorem panicked_iff (hrun : system.Run h s) : s.acceptor = .panicked ↔ .broke ∈ h := by
  refine hrun.invariant (I := fun h s => s.acceptor = .panicked ↔ .broke ∈ h) (by simp [system]) ?_
  intro h s e t _ ih hstep
  cases hstep with
  | arrive ha | lock ha | answer ha | reject ha | accept ha => simp_all
  | lockPoisoned | replyFails => simp
  | _ => simpa using ih

theorem panicked_of_poisoned (hrun : system.Run h s) (hp : s.activePoisoned = true) :
    s.acceptor = .panicked := by
  refine hrun.invariant (I := fun _ s => s.activePoisoned = true → s.acceptor = .panicked)
    (by simp [system]) ?_ hp
  intro h s e t _ ih hstep
  cases hstep with
  | arrive ha | lock ha | answer ha | reject ha | accept ha => simp_all
  | lockPoisoned | replyFails => simp
  | _ => simpa using ih

theorem clients_eq (hrun : system.Run h s) : clients h = List.range s.accepted := by
  refine hrun.invariant (I := fun h s => clients h = List.range s.accepted) rfl ?_
  intro h s e t _ ih hstep
  rw [clients, observed_snoc, ← clients, ih]
  cases hstep with
  | accept => exact List.range_succ.symm
  | _ => exact List.append_nil _

theorem lastAccepted_iff (hrun : system.Run h s) :
    lastAccepted h = some c ↔ s.accepted = c + 1 := by
  rw [lastAccepted, clients_eq hrun]
  cases s.accepted with
  | zero => simp
  | succ n => simp [List.range_succ]

/-! The messages. -/

theorem sentMessages_eq (hrun : system.Run h s) : sentMessages h = takenMessages h ++ s.queue := by
  refine hrun.invariant (I := fun h s => sentMessages h = takenMessages h ++ s.queue) rfl ?_
  intro h s e t _ ih hstep
  simp only [sentMessages, takenMessages, observed_snoc] at ih ⊢
  rw [ih]
  cases hstep with
  | send => simp [Event.sentMessage, Event.takenMessage]
  | take _ hqueue => simp [Event.sentMessage, Event.takenMessage, hqueue]
  | _ => simp [Event.sentMessage, Event.takenMessage]

theorem takenMessages_eq (hrun : system.Run h s) :
    takenMessages h = (fates h).map Prod.fst ++ s.inHand := by
  refine hrun.invariant (I := fun h s => takenMessages h = (fates h).map Prod.fst ++ s.inHand)
    rfl ?_
  intro h s e t _ ih hstep
  simp only [takenMessages, fates, observed_snoc, List.map_append] at ih ⊢
  rw [ih]
  cases hstep with
  | take hserver | turnPoisoned hserver | write hserver | writeFails hserver | skip hserver
  | disconnect hserver | read hserver | turn hserver | finish hserver =>
    simp [Event.takenMessage, Event.fate, State.inHand, Serving.message, hserver]
  | serve _ hserver => simp [Event.takenMessage, Event.fate, State.inHand, Serving.message, hserver]
  | _ => simp [Event.takenMessage, Event.fate, State.inHand]

/-- A page message that was built carries the text of its message. -/
def Serving.Built : Serving → Prop
  | .locking m page | .holding m page => ∃ progress, page = pageMessage progress m
  | _ => True

private theorem built (hrun : system.Run h s) {i : Nat} {serving : Serving}
    (hserver : s.server = some (i, serving)) : serving.Built := by
  refine hrun.invariant
    (I := fun _ s => ∀ i serving, s.server = some (i, serving) → serving.Built)
    (by simp [system]) ?_ i serving hserver
  intro h s e t _ ih hstep i serving hserver
  cases hstep with
  | serve | take | write | writeFails | skip =>
    cases hserver
    trivial
  | read =>
    cases hserver
    exact ⟨s.progress, rfl⟩
  | turn hlocking =>
    cases hserver
    have hbuilt : Serving.Built (.locking _ _) := ih _ _ hlocking
    exact hbuilt
  | turnPoisoned | disconnect | finish => cases hserver
  | _ => exact ih i serving hserver

/-! The active client. -/

theorem active_of_replying (hrun : system.Run h s) (hreply : s.acceptor = .replying true) :
    s.active = none := by
  refine hrun.invariant (I := fun _ s => s.acceptor = .replying true → s.active = none)
    (by simp [system]) ?_ hreply
  intro h s e t _ ih hstep hreply
  cases hstep with
  | answer =>
    have hoffer : (s.active.isNone && _) = true := Acceptor.replying.inj hreply
    simpa using (Bool.and_eq_true_iff.mp hoffer).1
  | writeFails => rfl
  | arrive | lock | lockPoisoned | reject | accept | replyFails => cases hreply
  | _ => exact ih hreply

/-- At most one thread is engaged, and its own client is then the active one. -/
def State.Exclusive (s : State) : Prop :=
  s.engaged = [] ∨ ∃ i, s.engaged = [i] ∧ s.active = some i

theorem State.Exclusive.of_server (hs : s.Exclusive) {i : Nat} {serving : Serving}
    (hserver : s.server = some (i, serving)) (hengaged : serving.engaged = true) :
    s.waiting = [] ∧ s.active = some i := by
  rcases hs with hnil | ⟨j, hone, hactive⟩
  · simp [State.engaged, hserver, hengaged] at hnil
  · have hboth : s.waiting ++ [i] = [] ++ [j] := by simpa [State.engaged, hserver, hengaged] using hone
    obtain ⟨hwaiting, hij⟩ := List.append_inj' hboth rfl
    obtain rfl : i = j := by simpa using hij
    exact ⟨hwaiting, hactive⟩

theorem State.Exclusive.of_waiting (hs : s.Exclusive) {i : Nat} (hi : i ∈ s.waiting)
    (hserver : s.server = none) : s.waiting = [i] ∧ s.active = some i := by
  have heq : s.engaged = s.waiting := by simp [State.engaged, hserver]
  rw [State.Exclusive, heq] at hs
  rcases hs with hnil | ⟨j, hone, hactive⟩
  · simp [hnil] at hi
  · obtain rfl : i = j := by simpa [hone] using hi
    exact ⟨hone, hactive⟩

theorem exclusive (hrun : system.Run h s) : s.Exclusive := by
  refine hrun.invariant (I := fun _ s => s.Exclusive) (.inl rfl) ?_
  intro h s e t hrun ih hstep
  cases hstep with
  | accept hreply =>
    have hnone := active_of_replying hrun hreply
    have hnil : s.engaged = [] := by
      rcases ih with hnil | ⟨i, -, hactive⟩
      · exact hnil
      · simp [hnone] at hactive
    obtain ⟨hwaiting, hserver⟩ := List.append_eq_nil_iff.mp hnil
    exact .inr ⟨s.accepted, by simpa [State.engaged, hwaiting] using hserver, rfl⟩
  | serve hi hserver =>
    obtain ⟨hwaiting, hactive⟩ := ih.of_waiting hi hserver
    exact .inr ⟨_, by simp [State.engaged, Serving.engaged, hwaiting], hactive⟩
  | servePoisoned hi hserver =>
    obtain ⟨hwaiting, -⟩ := ih.of_waiting hi hserver
    exact .inl (by simp [State.engaged, hwaiting, hserver])
  | take hserver | read hserver | turn hserver | write hserver | skip hserver =>
    obtain ⟨hwaiting, hactive⟩ := ih.of_server hserver rfl
    exact .inr ⟨_, by simp [State.engaged, Serving.engaged, hwaiting], hactive⟩
  | turnPoisoned hserver | disconnect hserver | writeFails hserver =>
    obtain ⟨hwaiting, -⟩ := ih.of_server hserver rfl
    exact .inl (by simp [State.engaged, Serving.engaged, hwaiting])
  | finish hserver => simpa [State.Exclusive, State.engaged, Serving.engaged, hserver] using ih
  | _ => exact ih

theorem accepted_of_active (hrun : system.Run h s) (hactive : s.active = some c) :
    s.accepted = c + 1 := by
  refine hrun.invariant (I := fun _ s => ∀ c, s.active = some c → s.accepted = c + 1)
    (by simp [system]) ?_ c hactive
  intro h s e t _ ih hstep c hactive
  cases hstep with
  | accept =>
    obtain rfl : s.accepted = c := by simpa using hactive
    rfl
  | writeFails => cases hactive
  | _ => exact ih c hactive

/-! Nothing stays in hand: the threads alone can go on. -/

/-- Reachable by steps of the threads, with no help of the environment. -/
abbrev Soon (s : State) (P : State → Prop) : Prop :=
  system.CanReach (fun e => e.ofThread = true) s P

theorem unlocked_of_server {i : Nat} {serving : Serving} (hserver : s.server = some (i, serving))
    (hserving : serving.locks = false) (j : Nat) (other : Serving)
    (hother : s.server = some (j, other)) : other.locks = false := by
  rw [hserver, Option.some.injEq, Prod.mk.injEq] at hother
  rw [← hother.2, hserving]

private theorem soon_unlocked (s : State) :
    Soon s fun t => t.acceptor.locks = false ∧ t.server = s.server := by
  have hreplied : ∀ (s : State) (accept : Bool), s.acceptor = .replying accept →
      Soon s fun t => t.acceptor.locks = false ∧ t.server = s.server := by
    intro s accept hreply
    cases accept with
    | false => exact .after (.reject hreply) rfl (.here ⟨rfl, rfl⟩)
    | true => exact .after (.accept hreply) rfl (.here ⟨rfl, rfl⟩)
  cases hacceptor : s.acceptor with
  | holding rustWebsocket => exact .after (.answer hacceptor) rfl (hreplied _ _ rfl)
  | replying accept => exact hreplied s accept hacceptor
  | _ => exact .here ⟨by rw [hacceptor]; rfl, rfl⟩

theorem soon_handled {i : Nat} {page : PageMessage} (hserver : s.server = some (i, .holding m page)) :
    Soon s fun t => t.inHand = [] ∧ t.acceptor = s.acceptor ∧
      t.activePoisoned = s.activePoisoned ∧
      ∀ i serving, t.server = some (i, serving) → serving.locks = false := by
  cases hactive : s.active with
  | none =>
    exact .after (.skip hserver hactive) rfl
      (.here ⟨rfl, rfl, rfl, unlocked_of_server rfl rfl⟩)
  | some c =>
    cases hgone : s.gone c with
    | false =>
      exact .after (.write hserver hactive hgone) rfl
        (.here ⟨rfl, rfl, rfl, unlocked_of_server rfl rfl⟩)
    | true =>
      exact .after (.writeFails hserver hactive hgone) rfl
        (.here ⟨rfl, rfl, rfl, unlocked_of_server rfl rfl⟩)

private theorem soon_dealt_with (s : State) : Soon s fun t => t.inHand = [] := by
  have hdone : ∀ {s : State} {i : Nat} {m : SetupMessage} {page : PageMessage},
      s.server = some (i, .holding m page) → Soon s fun t => t.inHand = [] := by
    intro s i m page hserver
    exact (soon_handled hserver).trans fun t ht => .here ht.1
  have hlocked : ∀ {s : State} {i : Nat} {m : SetupMessage} {page : PageMessage},
      s.server = some (i, .locking m page) → Soon s fun t => t.inHand = [] := by
    intro s i m page hserver
    refine (soon_unlocked s).trans fun t ⟨hunlocked, ht⟩ => ?_
    rw [hserver] at ht
    have hfree : t.free := ⟨hunlocked, unlocked_of_server ht rfl⟩
    cases hpoisoned : t.activePoisoned with
    | true => exact .after (.turnPoisoned ht hfree hpoisoned) rfl (.here rfl)
    | false => exact .after (.turn ht hfree hpoisoned) rfl (hdone rfl)
  cases hserver : s.server with
  | none => exact .here (by simp [State.inHand, hserver])
  | some server =>
    obtain ⟨i, serving⟩ := server
    cases serving with
    | receiving | leaving => exact .here (by simp [State.inHand, hserver, Serving.message])
    | reading m => exact .after (.read hserver) rfl (hlocked rfl)
    | locking m page => exact hlocked hserver
    | holding m page => exact hdone hserver

/-- No message is left, in the channel or in hand, and no sender. -/
def State.Drained (s : State) : Prop := s.queue = [] ∧ s.senders = false ∧ s.inHand = []

private theorem drained_step (hs : s.Drained) (hstep : system.step s e t) :
    t.Drained ∧ e.fate = none := by
  obtain ⟨hqueue, hsenders, hhand⟩ := hs
  have hempty : ∀ i serving, s.server = some (i, serving) → serving.message = [] := by
    intro i serving hserver
    simpa [State.inHand, hserver] using hhand
  cases hstep with
  | send hopen | close hopen => simp [hsenders] at hopen
  | take _ hsome => simp [hqueue] at hsome
  | read hserver | turn hserver | turnPoisoned hserver | write hserver | writeFails hserver
  | skip hserver => simpa [Serving.message] using hempty _ _ hserver
  | serve | disconnect | finish => exact ⟨⟨hqueue, hsenders, rfl⟩, rfl⟩
  | _ => exact ⟨⟨hqueue, hsenders, hhand⟩, rfl⟩

/-! The theorem. -/

/-- What the fate of a message says of the events before it. -/
def Accounted (pre : List Event) (m : SetupMessage) : Fate → Prop
  | .written c page =>
    lastAccepted pre = some c ∧ .left c ∉ pre ∧ ∃ progress, page = pageMessage progress m
  | .failed c => lastAccepted pre = some c ∧ .left c ∈ pre
  | .skipped => False
  | .crashed => .broke ∈ pre

theorem accounted (hrun : system.Run h s) {pre post : List Event} {fate : Fate}
    (hsplit : h = pre ++ e :: post) (hfate : e.fate = some (m, fate)) : Accounted pre m fate := by
  subst hsplit
  obtain ⟨t, t', hpre, hstep, -⟩ := hrun.at_event
  cases hstep with
  | turnPoisoned _ _ hpoisoned =>
    cases hfate
    exact (panicked_iff hpre).mp (panicked_of_poisoned hpre hpoisoned)
  | write hserver hactive hgone =>
    cases hfate
    refine ⟨(lastAccepted_iff hpre).mpr (accepted_of_active hpre hactive), ?_, built hpre hserver⟩
    rw [← gone_iff hpre, hgone]
    exact Bool.false_ne_true
  | writeFails _ hactive hgone =>
    cases hfate
    exact ⟨(lastAccepted_iff hpre).mpr (accepted_of_active hpre hactive), (gone_iff hpre).mp hgone⟩
  | skip hserver hnone =>
    have hactive := ((exclusive hpre).of_server hserver rfl).2
    exact absurd (hnone.symm.trans hactive) (by simp)
  | _ => cases hfate

/-- The messages are taken in the order in which they are sent. Each of them is written to the
client that was accepted last, or fails there because that client is gone, and goes to no other
client; only a panic of the acceptor can make it vanish without that. -/
theorem messages_go_to_one_client (hrun : system.Run h s) :
    sentMessages h = takenMessages h ++ s.queue ∧
    takenMessages h = (fates h).map Prod.fst ++ s.inHand ∧ s.inHand.length ≤ 1 ∧
    (∀ pre e post m fate, h = pre ++ e :: post → e.fate = some (m, fate) → Accounted pre m fate) ∧
    Soon s fun t => t.inHand = [] := by
  refine ⟨sentMessages_eq hrun, takenMessages_eq hrun, ?_, ?_, soon_dealt_with s⟩
  · unfold State.inHand Serving.message
    split
    · split <;> simp
    · simp
  · intro pre e post m fate hsplit hfate
    exact accounted hrun hsplit hfate

/-! Two clients, one after the other. -/

def connection (c : Nat) : List Event :=
  [.arrived true, .locked, .answered true true, .accepted c, .serving c]

theorem path_connection (hidle : s.acceptor = .idle) (hactive : s.active = none)
    (hserver : s.server = none) (hwaiting : s.waiting = []) (hactiveOk : s.activePoisoned = false)
    (hreceiverOk : s.receiverPoisoned = false) :
    Path system s (connection s.accepted)
      { s with
        server := some (s.accepted, .receiving)
        active := some s.accepted
        accepted := s.accepted + 1 } := by
  obtain ⟨queue, senders, progress, _, _, _, _, accepted, gone, _, _⟩ := s
  subst hidle hactive hserver hwaiting hactiveOk hreceiverOk
  have hserve := @Step.serve
    ⟨queue, senders, progress, .idle, none, [accepted], some accepted, accepted + 1, gone, false,
      false⟩ accepted (List.mem_singleton.mpr rfl) rfl rfl
  rw [List.erase_cons_head] at hserve
  exact .cons (.arrive rfl) (.cons (.lock rfl ⟨rfl, by simp⟩ rfl) (.cons (.answer rfl)
    (.cons (.accept rfl) (.single hserve))))

def turnOf (c : Nat) (m : SetupMessage) : List Event := [.sent m, .taken c m, .read c, .turned c]

theorem path_turn (hqueue : s.queue = []) (hsenders : s.senders = true)
    (hserver : s.server = some (c, .receiving)) (hidle : s.acceptor = .idle)
    (hactiveOk : s.activePoisoned = false) :
    Path system s (turnOf c m)
      { s with server := some (c, .holding m (pageMessage s.progress m)) } := by
  obtain ⟨_, _, progress, _, _, waiting, active, accepted, gone, _, receiverPoisoned⟩ := s
  subst hqueue hsenders hserver hidle hactiveOk
  exact .cons (.send rfl) (.cons (.take rfl rfl) (.cons (.read rfl)
    (.single (.turn rfl ⟨rfl, unlocked_of_server rfl rfl⟩ rfl))))

def booting : SetupMessage := .progress "Installing Arch Linux FS..."

def finished : SetupMessage := .progress "Installation finished, please restart the app"

def reopened : List Event :=
  connection 0 ++ (turnOf 0 booting ++ (.written 0 booting (pageMessage 0 booting) ::
    .left 0 :: (turnOf 0 finished ++ (.failed 0 finished :: .ended 0 :: connection 1))))

private theorem run_reopened : ∃ s, system.Run reopened s ∧ s.senders = true ∧ s.queue = [] ∧
    s.inHand = [] := by
  refine ⟨_, (path_connection rfl rfl rfl rfl rfl rfl).append ((path_turn rfl rfl rfl rfl rfl).append
    (.cons (.write rfl rfl rfl) (.cons (.leave Nat.one_pos rfl)
      ((path_turn rfl rfl rfl rfl rfl).append (.cons (.writeFails rfl rfl rfl)
        (.cons (.finish rfl) (path_connection rfl rfl rfl rfl rfl rfl))))))), rfl, rfl, rfl⟩

theorem messages_go_to_one_client_on_reopening : ∃ s, system.Run reopened s ∧
    fates reopened = [(booting, .written 0 (pageMessage 0 booting)), (finished, .failed 0)] ∧
    sentMessages reopened = takenMessages reopened ++ s.queue ∧
    takenMessages reopened = (fates reopened).map Prod.fst ++ s.inHand := by
  obtain ⟨s, hrun, -⟩ := run_reopened
  have hall := messages_go_to_one_client hrun
  exact ⟨s, hrun, by decide, hall.1, hall.2.1⟩

/-- The last message is taken, the write fails, and the next client never gets it. -/
theorem last_message_lost : ∃ s, system.Run (reopened ++ [.closed]) s ∧
    finished ∈ takenMessages reopened ∧ .failed 0 finished ∈ reopened ∧
    lastAccepted reopened = some 1 ∧ .left 1 ∉ reopened ∧
    ∀ h t, Path system s h t → ∀ c page,
      .written c finished page ∉ reopened ++ [.closed] ∧ .written c finished page ∉ h := by
  obtain ⟨s, hrun, hsenders, hqueue, hhand⟩ := run_reopened
  refine ⟨_, hrun.snoc (.close hsenders), by decide, by decide, by decide, by decide, ?_⟩
  intro h t hpath c page
  constructor
  · intro hmem
    have hfate : (finished, .written c page) ∈ fates (reopened ++ [.closed]) :=
      mem_observed.mpr ⟨_, hmem, rfl⟩
    revert hfate
    simp [show fates (reopened ++ [.closed]) = [(booting, .written 0 (pageMessage 0 booting)),
      (finished, .failed 0)] by decide, booting, finished]
  · intro hmem
    have hquiet := (hpath.stable (P := State.Drained) (Q := fun e => e.fate = none)
      ⟨hqueue, rfl, hhand⟩ fun _ _ _ => drained_step).2 _ hmem
    cases hquiet

end LocalDesktop.Android.Backend.Webview
