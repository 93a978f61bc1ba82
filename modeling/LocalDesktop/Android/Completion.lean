/- GID: LocalDesktop/Android/Completion
   generality: G
   digest: How often the end of the installation is announced, and messages that announce it early. -/

import LocalDesktop.Android.Backend.SetupPage
import LocalDesktop.Android.LateClient
import LocalDesktop.Android.Proot.Installing

set_option autoImplicit false
set_option relaxedAutoImplicit false

namespace LocalDesktop.Android.Completion

open Foundation.Transition Foundation.Strings Platform Proot Backend Installation
open Pipeline (Setup Driver Step agrees installationFinished)
open Webview (PageMessage pageMessage)
open PipelineFailure (printed)
open SetupPage (alerts announced announcing completing unread)

def lastPage : PageMessage := ⟨100, "Installation finished, please restart the app", false⟩

/-- At most one object announces the end, it is the last one, and the pages raise at most one
alert. -/
structure AnnouncedOnce (h : List Event) : Prop where
  once : announced (observed backendEvent h) = [] ∨ announced (observed backendEvent h) = [lastPage]
  alert : (alerts (observed backendEvent h)).length ≤ 1

/-- When 100 is stored, the messages whose progress value is not yet read are errors. -/
def CaughtUp (s : State) (e : Event) : Prop :=
  e = .setup (.stored 100) → ∀ m ∈ unread s.2, ∃ text, m = .error text

variable {p : Setup} {h : List Event} {s t : State} {a b : Pipeline.State} {e : Event}
  {m : SetupMessage} {n : Nat}

/-! After 100 is stored setup sends one message. -/

/-- All stages are done, and the coordinator knows it. -/
def Late (n : Nat) : Driver → Prop
  | .next j => n ≤ j
  | .finishing | .done | .crashed .finishing => True
  | _ => False

def closing : Driver → List PageMessage
  | .done => [lastPage]
  | _ => []

private theorem late_of_hundred (hn : p.stages.length < 65536)
    (hbound : a.driver.called p.stages.length ≤ p.stages.length)
    (hstep : Step p a (.stored 100) b) : Late p.stages.length b.driver := by
  have hall := PipelineProgress.passed_of_hundred hn hbound hstep
  generalize he : Pipeline.Event.stored 100 = e at hstep
  cases hstep with
  | @store k v hd hpercent =>
    cases hdriver : a.driver with
    | starting i t =>
      rw [hdriver] at hall hbound
      have hlt : i + 1 ≤ i := hbound.trans_eq hall.symm
      omega
    | joined i =>
      rw [hdriver] at hall
      exact hall.ge
    | next j =>
      rw [hdriver] at hall
      have hj : j = p.stages.length := hall
      simp [hdriver, Driver.due, hj] at hd
    | _ => simp [hdriver, Driver.due] at hd
  | allDone => trivial
  | functionSend | threadSend | report =>
    exact absurd he.symm (PipelineProgress.send_ne_stored _ _ _ _)
  | _ => cases he

private theorem Late.thread {d : Driver} (hd : Late n d) : d.thread = none := by
  unfold Late at hd
  split at hd
  · rfl
  · rfl
  · rfl
  · rfl
  · exact hd.elim

private theorem Late.due {d : Driver} (hd : Late n d) : d.due n = none := by
  unfold Late at hd
  split at hd
  · exact if_neg (Nat.not_lt.mpr hd)
  · rfl
  · rfl
  · rfl
  · exact hd.elim

private theorem late_step {e : Pipeline.Event} (hs : Late p.stages.length a.driver)
    (hstep : Step p a e b) : Late p.stages.length b.driver := by
  have hthread := hs.thread
  have hdue := hs.due
  cases hstep with
  | choose | drop => exact hs
  | allDone | finish => trivial
  | unheard hd =>
    rw [hd]
    trivial
  | store hd | overflow hd =>
    rw [hdue] at hd
    cases hd
  | threadSend hd | threadEnd hd =>
    rw [hthread] at hd
    cases hd
  | @call caller i stage c hd =>
    rw [hd] at hs
    cases caller <;> exact hs.elim
  | functionSend hd | finished hd | handle hd | raise hd | leave hd | unbuilt hd | joinFirst hd
  | joinNext hd | joinFailed hd | report hd =>
    rw [hd] at hs
    exact hs.elim

private theorem sent_late {sender : Pipeline.Sender} (hs : Late p.stages.length a.driver)
    (hstep : Step p a (.sent sender m) b) :
    m = installationFinished ∧ closing a.driver = [] ∧ closing b.driver = [lastPage] := by
  have hthread := hs.thread
  generalize he : Pipeline.Event.sent sender m = e at hstep
  cases hstep with
  | finish hd =>
    cases he
    rw [hd]
    exact ⟨rfl, rfl, rfl⟩
  | threadSend hd =>
    rw [hthread] at hd
    cases hd
  | functionSend hd | report hd =>
    rw [hd] at hs
    exact hs.elim
  | _ => cases he

private theorem closing_step {e : Pipeline.Event} (hstep : Step p a e b) :
    (closing a.driver).Sublist (closing b.driver) := by
  by_cases hd : a.driver = .done
  · rw [(PipelineOrder.done_step hd hstep).1, hd]
  · have hnone : closing a.driver = [] := by
      unfold closing
      split
      · exact absurd ‹_› hd
      · rfl
    rw [hnone]
    exact List.nil_sublist _

/-! What is announced, and what will be, is the last message. -/

/-- The value 100 stands only late, and nothing but the last message announces the end. -/
structure Closing (p : Setup) (h : List Event) (s : State) : Prop where
  late : s.2.progress = 100 → Late p.stages.length s.1.driver
  last : (announcing (observed backendEvent h) s.2).Sublist (closing s.1.driver)

private theorem closing_start : Closing p [] (system p).start := by
  refine ⟨fun hprogress => ?_, List.nil_sublist _⟩
  cases hprogress

private theorem Closing.unseen {e : Pipeline.Event} (hs : Closing p h s) (hstep : Step p s.1 e t.1)
    (hevent : backendEvent (.setup e) = none) (hbackend : t.2 = s.2) :
    Closing p (h ++ [.setup e]) t where
  late hprogress := by
    rw [hbackend] at hprogress
    exact late_step (hs.late hprogress) hstep
  last := by
    rw [observed_quiet hevent, hbackend]
    exact hs.last.trans (closing_step hstep)

private theorem Closing.sent {sender : Pipeline.Sender} (hs : Closing p h s)
    (hstep : Step p s.1 (.sent sender m) t.1) (hbackend : Webview.Step s.2 (.sent m) t.2) :
    Closing p (h ++ [.setup (.sent sender m)]) t where
  late hprogress := by
    rw [Sampling.progress_step hbackend] at hprogress
    exact late_step (hs.late hprogress) hstep
  last := by
    have hevent : backendEvent (.setup (.sent sender m)) = some (.sent m) := rfl
    rw [observed_tell hevent, SetupPage.announcing_sent hbackend]
    by_cases hprogress : s.2.progress = 100
    · obtain ⟨rfl, hbefore, hafter⟩ := sent_late (hs.late hprogress) hstep
      have hlast := hs.last
      rw [hbefore, List.sublist_nil] at hlast
      rw [hlast, hafter, hprogress]
      exact List.Sublist.refl _
    · have hnone : [pageMessage s.2.progress m].filter completing = [] := by
        rw [List.filter_eq_nil_iff]
        intro page hpage hcompleting
        rw [List.mem_singleton.mp hpage] at hcompleting
        exact hprogress (SetupPage.completing_pageMessage hcompleting).1
      rw [hnone, List.append_nil]
      exact hs.last.trans (closing_step hstep)

private theorem Closing.stored {v : Nat} (hs : Closing p h s) (hn : p.stages.length < 65536)
    (hbound : s.1.driver.called p.stages.length ≤ p.stages.length)
    (hcaught : CaughtUp s (.setup (.stored v))) (hstep : Step p s.1 (.stored v) t.1)
    (hbackend : Webview.Step s.2 (.stored v) t.2) : Closing p (h ++ [.setup (.stored v)]) t where
  late hprogress := by
    rw [Sampling.progress_step hbackend] at hprogress
    obtain rfl : v = 100 := hprogress
    exact late_of_hundred hn hbound hstep
  last := by
    have hevent : backendEvent (.setup (.stored v)) = some (.stored v) := rfl
    rw [observed_tell hevent]
    have hless := SetupPage.announcing_stored (h := observed backendEvent h) hbackend
      fun hv => hcaught (by rw [hv])
    exact (hless.trans hs.last).trans (closing_step hstep)

private theorem Closing.backend {e : Webview.Event} (hs : Closing p h s) (hmay : may s (.backend e))
    (hsetup : t.1 = s.1) (hstep : Webview.Step s.2 e t.2) : Closing p (h ++ [.backend e]) t where
  late hprogress := by
    have hstands : Sampling.storedValue e = none := stored_eq hmay
    rw [Sampling.progress_step hstep, hstands] at hprogress
    rw [hsetup]
    exact hs.late hprogress
  last := by
    have hevent : backendEvent (.backend e) = some e := rfl
    have hsent : ∀ m, e ≠ .sent m := by
      rintro m rfl
      exact hmay.elim
    have hstored : ∀ v, e ≠ .stored v := by
      rintro v rfl
      exact hmay.elim
    rw [observed_tell hevent, hsetup]
    exact (SetupPage.announcing_step hsent hstored hstep).trans hs.last

private theorem closing_run (hn : p.stages.length < 65536)
    (hrun : ((system p).guarded CaughtUp).Run h s) : Closing p h s := by
  refine Path.invariant (I := Closing p) hrun closing_start ?_
  rintro h s e t hpath hs ⟨hcaught, hmay, hleft, hright⟩
  have hbound := (agrees (setup_run hpath.of_guarded)).bound
  cases e with
  | setup e =>
    cases e with
    | sent sender m => exact hs.sent hleft hright
    | stored v => exact hs.stored hn hbound hcaught hleft hright
    | _ => exact hs.unseen hleft rfl hright
  | backend e => exact hs.backend hmay hleft hright

/-- In every run in which the readers have caught up when 100 is stored, the end of the
installation is announced at most once. -/
theorem announced_once (hn : p.stages.length < 65536)
    (hrun : ((system p).guarded CaughtUp).Run h s) : AnnouncedOnce h := by
  have hlast : (announced (observed backendEvent h)).Sublist (closing s.1.driver) :=
    (SetupPage.announced_sublist _ _).trans (closing_run hn hrun).last
  have hone : announced (observed backendEvent h) = [] ∨
      announced (observed backendEvent h) = [lastPage] := by
    unfold closing at hlast
    split at hlast
    · exact List.sublist_singleton.mp hlast
    · exact Or.inl (List.sublist_nil.mp hlast)
  refine ⟨hone, ?_⟩
  rw [SetupPage.alerts_eq, List.length_map]
  rcases hone with hone | hone <;> rw [hone] <;> decide

/-! The client connects after the end, and the lines of the installation announce it. -/

private theorem sends_installHistory (lines : List Text) :
    sends (Installing.installHistory lines) =
      printed lines ++ [installationFinished] := by
  have hthread : sentMessage ∘ Pipeline.Event.sent (.thread 2) = some := rfl
  have hlines : sends ((printed lines).map (.sent (.thread 2))) =
      printed lines := by
    rw [sends, observed, List.filterMap_map, hthread, List.filterMap_some]
  rw [Installing.installHistory, sends_append, sends_append, hlines]
  rfl

private theorem stays_installHistory (lines : List Text) :
    Pipeline.Event.dropped ∉ Installing.installHistory lines := by
  simp [Installing.installHistory, Installing.mainHistory, Installing.coordinatorHistory]

def lateHistory (lines : List Text) : List Event :=
  LateClient.lateHistory (Installing.installHistory lines) 100

private theorem run_late (lines : List Text) : (system (Installing.installing lines)).Run
    (lateHistory lines) (⟨.done, true, 100, true⟩, LateClient.attended [] 100) :=
  LateClient.run_lateHistory (Installing.run_installing lines) ⟨rfl, rfl⟩
    (stays_installHistory lines)

private theorem announced_late (lines : List Text) :
    announced (observed backendEvent (lateHistory lines)) =
      (lines.map fun line => ⟨100, String.ofList line, false⟩) ++ [lastPage] := by
  have hlines : (printed lines).map (pageMessage 100) =
      lines.map fun line => ⟨100, String.ofList line, false⟩ := by
    rw [printed, List.map_map]
    rfl
  rw [announced, lateHistory, LateClient.pages_lateHistory, sends_installHistory, List.map_append,
    hlines, List.filter_append, List.filter_eq_self.mpr]
  · rfl
  · intro page hpage
    obtain ⟨line, -, rfl⟩ := List.mem_map.mp hpage
    rfl

/-- One line of output, and two alerts. -/
theorem announced_twice :
    ∃ h s, (system (Installing.installing ["resolving dependencies...".toList])).Run h s ∧
      alerts (observed backendEvent h) = [SetupPage.completionAlert, SetupPage.completionAlert] ∧
      ¬AnnouncedOnce h := by
  have halerts : alerts (observed backendEvent (lateHistory ["resolving dependencies...".toList])) =
      [SetupPage.completionAlert, SetupPage.completionAlert] := by
    rw [SetupPage.alerts_eq, announced_late]
    rfl
  refine ⟨_, _, run_late _, halerts, fun honce => ?_⟩
  have hle := honce.alert
  rw [halerts] at hle
  exact absurd hle (by decide)

def silentHistory : List Event :=
  (Installing.mainHistory ++ Installing.coordinatorHistory.take 9).map .setup

private theorem caughtUp_late : ((system (Installing.installing [])).guarded CaughtUp).Run
    (lateHistory []) (⟨.done, true, 100, true⟩, LateClient.attended [] 100) := by
  refine Path.to_guarded (run_late []) ?_
  rintro pre e post u v hsplit hpath - rfl m hm
  have hone : lateHistory [] = silentHistory ++ .setup (.stored 100) ::
      (lateHistory []).drop 17 := by decide
  rw [hone] at hsplit
  obtain ⟨rfl, -, -⟩ := (List.append_cons_inj_of_notMem (by decide) (by decide)).mp hsplit
  have hsent := SetupPage.unread_sent (backend_run hpath) hm
  cases hsent

theorem announced_once_without_output :
    ∃ h s, ((system (Installing.installing [])).guarded CaughtUp).Run h s ∧
      announced (observed backendEvent h) = [lastPage] ∧ AnnouncedOnce h :=
  ⟨_, _, caughtUp_late, announced_late [], announced_once (by decide) caughtUp_late⟩

end LocalDesktop.Android.Completion
