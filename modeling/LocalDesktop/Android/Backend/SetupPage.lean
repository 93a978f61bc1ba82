/- GID: LocalDesktop/Android/Backend/SetupPage
   generality: G
   digest: The page of the setup and its alerts, and the pages still to be made of a state. -/

import LocalDesktop.Android.Backend.Sampling

set_option autoImplicit false
set_option relaxedAutoImplicit false

namespace LocalDesktop.Android.Backend.SetupPage

open Foundation.Transition Platform Webview Sampling

structure LogLine where
  id : Nat
  message : String
  isError : Bool
  deriving DecidableEq, Repr

/-- The data of the page that depends on the messages. -/
structure Page where
  progress : Nat
  logs : List LogLine
  logCounter : Nat
  hasError : Bool
  deriving DecidableEq, Repr

def Page.start : Page := ⟨0, [], 0, false⟩

def completionAlert : String := "Installation finished, please restart the app!"

def handleWebSocketMessage (page : Page) (data : PageMessage) : Page × Option String :=
  let alert := if data.progress = 100 ∧ data.isError = false then some completionAlert else none
  let logs := ⟨page.logCounter, data.message, data.isError⟩ :: page.logs
  (⟨data.progress, if 100 < logs.length then logs.dropLast else logs, page.logCounter + 1,
    data.isError⟩, alert)

/-- The alerts of the pages that the clients show. -/
def alertsFrom (page : Nat → Page) : List Event → List String
  | [] => []
  | .written c _ data :: h =>
    let shown := handleWebSocketMessage (page c) data
    shown.2.toList ++ alertsFrom (Function.update page c shown.1) h
  | _ :: h => alertsFrom page h

def alerts : List Event → List String := alertsFrom fun _ => .start

/-- What the page takes for the end of the installation. -/
def completing (data : PageMessage) : Bool := data.progress == 100 && !data.isError

/-- The objects written that announce the end of the installation. -/
def announced (h : List Event) : List PageMessage := (pages h).filter completing

/-- The messages whose progress value is not yet read. -/
def unread (s : State) : List SetupMessage :=
  (match s.server with
    | some (_, .reading m) => [m]
    | _ => []) ++ s.queue

/-- The objects written, the one about to be written, and those that the unread messages become
with the value that stands. -/
def outlook (h : List Event) (s : State) : List PageMessage :=
  pages h ++ pageInHand s ++ (unread s).map (pageMessage s.progress)

/-- What is announced, or will be when no more is sent or stored. -/
def announcing (h : List Event) (s : State) : List PageMessage := (outlook h s).filter completing

variable {h : List Event} {s t : State} {e : Event} {m : SetupMessage} {v : Nat}

private theorem alert_eq (page : Page) (data : PageMessage) :
    (handleWebSocketMessage page data).2 = if completing data then some completionAlert else none := by
  simp [handleWebSocketMessage, completing]

private theorem alertsFrom_eq (page : Nat → Page) (h : List Event) :
    alertsFrom page h = (announced h).map fun _ => completionAlert := by
  induction h generalizing page with
  | nil => rfl
  | cons e h ih =>
    cases e with
    | written c m data =>
      have hpages : pages (.written c m data :: h) = data :: pages h := rfl
      rw [alertsFrom, alert_eq, ih, announced, announced, hpages, List.filter_cons]
      split <;> rfl
    | _ => exact ih page

theorem alerts_eq (h : List Event) : alerts h = (announced h).map fun _ => completionAlert :=
  alertsFrom_eq _ h

theorem announced_sublist (h : List Event) (s : State) :
    (announced h).Sublist (announcing h s) := by
  rw [announcing, outlook, List.append_assoc, List.filter_append]
  exact List.sublist_append_left _ _

theorem completing_pageMessage (hm : completing (pageMessage v m) = true) :
    v = 100 ∧ ∃ text, m = .progress text := by
  cases m <;> simp_all [completing, pageMessage]

theorem unread_sent (hrun : system.Run h s) (hm : m ∈ unread s) : m ∈ sentMessages h := by
  rw [sentMessages_eq hrun, takenMessages_eq hrun]
  rcases List.mem_append.mp hm with hm | hm
  · refine List.mem_append_left _ (List.mem_append_right _ ?_)
    unfold State.inHand
    split at hm
    · rename_i hserver
      rw [hserver]
      exact hm
    · cases hm
  · exact List.mem_append_right _ hm

private theorem outlook_step (hsent : ∀ m, e ≠ .sent m) (hstored : ∀ v, e ≠ .stored v)
    (hstep : Step s e t) : (outlook (h ++ [e]) t).Sublist (outlook h s) := by
  have hquiet (he : writtenPage e = none) : pages (h ++ [e]) = pages h := observed_quiet he
  have hless (he : writtenPage e = none) (hpage : (pageInHand t).Sublist (pageInHand s))
      (hunread : (unread t).map (pageMessage t.progress) = (unread s).map (pageMessage s.progress)) :
      (outlook (h ++ [e]) t).Sublist (outlook h s) := by
    rw [outlook, hquiet he, hunread]
    exact (hpage.append_left _).append_right _
  cases hstep with
  | @send m => exact absurd rfl (hsent m)
  | @store v => exact absurd rfl (hstored v)
  | @take i m queue hserver hqueue =>
    apply hless rfl (List.nil_sublist _)
    simp [unread, hserver, hqueue]
  | @read i m hserver =>
    have hpages : pages (h ++ [.read i]) = pages h := hquiet rfl
    simp only [outlook, hpages, pageInHand, unread, hserver, List.append_nil, List.nil_append,
      List.map_append, List.map_cons, List.map_nil, List.append_assoc]
    exact List.Sublist.refl _
  | @write i c m page hserver =>
    have hpages : pages (h ++ [.written c m page]) = pages h ++ [page] := observed_tell rfl
    simp only [outlook, hpages, pageInHand, unread, hserver, List.append_nil]
    exact List.Sublist.refl _
  | turn hserver => apply hless rfl <;> simp [pageInHand, unread, hserver]
  | serve _ hserver | disconnect hserver | turnPoisoned hserver | writeFails hserver | skip hserver
  | finish hserver =>
    apply hless rfl (List.nil_sublist _)
    simp [unread, hserver]
  | _ => exact hless rfl (List.Sublist.refl _) rfl

theorem announcing_step (hsent : ∀ m, e ≠ .sent m) (hstored : ∀ v, e ≠ .stored v)
    (hstep : Step s e t) : (announcing (h ++ [e]) t).Sublist (announcing h s) :=
  (outlook_step hsent hstored hstep).filter _

theorem announcing_sent (hstep : Step s (.sent m) t) :
    announcing (h ++ [.sent m]) t =
      announcing h s ++ [pageMessage s.progress m].filter completing := by
  have hpages : pages (h ++ [.sent m]) = pages h := observed_quiet rfl
  cases hstep
  rw [announcing, announcing, ← List.filter_append, outlook, hpages]
  simp [outlook, unread, pageInHand]

theorem announcing_stored (hstep : Step s (.stored v) t)
    (hcaught : v = 100 → ∀ m ∈ unread s, ∃ text, m = .error text) :
    (announcing (h ++ [.stored v]) t).Sublist (announcing h s) := by
  have hpages : pages (h ++ [.stored v]) = pages h := observed_quiet rfl
  have hnone : ((unread s).map (pageMessage v)).filter completing = [] := by
    rw [List.filter_eq_nil_iff]
    intro page hpage hcompleting
    obtain ⟨m, hm, rfl⟩ := List.mem_map.mp hpage
    obtain ⟨hv, text, rfl⟩ := completing_pageMessage hcompleting
    obtain ⟨error, herror⟩ := hcaught hv _ hm
    cases herror
  cases hstep
  rw [announcing, outlook, hpages, List.filter_append]
  show (_ ++ ((unread s).map (pageMessage v)).filter completing).Sublist _
  rw [hnone, List.append_nil, announcing, outlook]
  exact (List.sublist_append_left _ _).filter _

end LocalDesktop.Android.Backend.SetupPage
