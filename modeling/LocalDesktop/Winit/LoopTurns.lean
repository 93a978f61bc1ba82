/- GID: LocalDesktop/Winit/LoopTurns
   generality: G
   digest: Everything that a step of the event loop can do. -/

import LocalDesktop.Winit.EventLoop

set_option autoImplicit false
set_option relaxedAutoImplicit false

namespace LocalDesktop.Winit

open Foundation.Transition Android.Backend.Wayland

variable {α : Type}

def isInput : WindowEvent → Bool
  | .keyboardInput _ _ | .cursorMoved _ | .mouseWheel _ | .mouseInput _ _ | .touch _ _ _ => true
  | _ => false

theorem isInput_handleInputEvent {ignoreVolumeKeys : Bool} {event : Input.InputEvent}
    {e : WindowEvent} (he : e ∈ (handleInputEvent ignoreVolumeKeys event).1) :
    isInput e = true := by
  cases event with
  | motionEvent event =>
    simp only [handleInputEvent, motionEvents] at he
    split at he
    · rw [pointingEvents] at he
      split at he
      case h_1 | h_2 =>
        obtain rfl := List.mem_singleton.mp he
        rfl
      case h_11 => exact absurd he List.not_mem_nil
      all_goals
        split at he
        all_goals first
          | exact absurd he List.not_mem_nil
          | obtain rfl := List.mem_singleton.mp he
            rfl
    · rw [touchEvents] at he
      split at he
      · obtain ⟨pointer, -, rfl⟩ := List.mem_map.mp he
        rfl
      · exact absurd he List.not_mem_nil
  | keyEvent event =>
    simp only [handleInputEvent] at he
    split at he
    · exact absurd he List.not_mem_nil
    · obtain rfl := List.mem_singleton.mp he
      rfl
  | other => exact absurd he List.not_mem_nil

def PollEvent.mainEvent : PollEvent → Option MainEvent
  | .main event => some event
  | _ => none

/-- An event that something happening to the activity leads to. -/
def Event.isMain : Event α → Bool
  | .resumed | .suspended | .memoryWarning => true
  | .windowEvent (.focused _) | .windowEvent (.scaleFactorChanged _) => true
  | _ => false

def MainEvent.running (running : Bool) : MainEvent → Bool
  | .resume => true
  | .pause => false
  | _ => running

namespace EventLoop

variable {s s' : EventLoop α} {a : Act α} {delivered : Option (Event α)}

def unread (s : EventLoop α) : List α := s.first.toList ++ s.channel

/-- There is nothing to do for a loop that runs. -/
def Idle (s : EventLoop α) : Prop := s.running = true → s.pendingRedraw = false ∧ s.unread = []

/-- Everything that a step can do. -/
inductive Turn (s : EventLoop α) : Act α → EventLoop α → Option (Event α) → Prop
  | requestRedraw (hflag : s.redrawFlag = false) :
    Turn s .requestRedraw { s with redrawFlag := true, waking := s.waking + 1 } none
  | requestAgain (hflag : s.redrawFlag = true) : Turn s .requestRedraw s none
  | sendEvent (value : α) : Turn s (.sendEvent value)
      { s with channel := s.channel ++ [value], waking := s.waking + 1 } none
  | callWaker (hwaking : 0 < s.waking) :
    Turn s .callWaker { s with wake := true, waking := s.waking - 1 } none
  | ask (request : Request α) (hhandling : s.handling.isSome = true) :
    Turn s (.ask request) (s.ask request) none
  | handled : Turn s .handled { s with handling := none } none
  | wake {start now : Nat} {timeout : Option Nat} (hplace : s.place = .asleep start timeout) :
    Turn s (.poll .wake now) { s with wake := false, place := .woken start } none
  | poll {start now : Nat} {timeout : Option Nat} {event : PollEvent} {cause : StartCause}
      (hplace : s.place = .asleep start timeout) (hevent : event ≠ .wake) (hcause : cause ≠ .init) :
    Turn s (.poll event now) { s with cause := cause, place := .newEvents event.mainEvent } none
  | read (event : Input.InputEvent) (hplace : s.place = .inputEvents []) :
    Turn s (.read (some event))
      { s with place := .inputEvents (handleInputEvent s.ignoreVolumeKeys event).1 } none
  | readNone (hplace : s.place = .inputEvents []) :
    Turn s (.read none) { s with place := .userEvents } none
  | begin {activity : Activity} (hplace : s.place = .pumpEvents)
      (hrunning : s.loopRunning = false) :
    Turn s (.goOn activity) { s with
      loopRunning := true, pendingRedraw := false, cause := .init, place := .newEvents none } none
  | pump {activity : Activity} (hplace : s.place = .pumpEvents) (hrunning : s.loopRunning = true) :
    Turn s (.goOn activity) { s.takeFlag with place := .timeout } none
  | newEvents {activity : Activity} {main : Option MainEvent} (hplace : s.place = .newEvents main) :
    Turn s (.goOn activity) { s with
        resized := false, handling := some (.newEvents s.cause), place := .mainEvent main }
      (some (.newEvents s.cause))
  | mainEvent {activity : Activity} {event : MainEvent} {resized hasFocus : Bool}
      {heard : Option (Event α)} (hplace : s.place = .mainEvent (some event))
      (hmain : ∀ e, heard = some e → e.isMain = true) :
    Turn s (.goOn activity) { s with
      running := event.running s.running
      pendingRedraw := s.pendingRedraw || event = .redrawNeeded
      resized := resized
      hasFocus := hasFocus
      handling := heard
      place := .inputEvents [] } heard
  | noMainEvent {activity : Activity} (hplace : s.place = .mainEvent none) :
    Turn s (.goOn activity) { s with place := .inputEvents [] } none
  | inputEvent {activity : Activity} {event : WindowEvent} {rest : List WindowEvent}
      (hplace : s.place = .inputEvents (event :: rest)) :
    Turn s (.goOn activity) { s with
        handling := some (.windowEvent event), place := .inputEvents rest }
      (some (.windowEvent event))
  | userEvent {activity : Activity} {value : α} {first : Option α} {channel : List α}
      (hplace : s.place = .userEvents) (hunread : s.unread = value :: (first.toList ++ channel)) :
    Turn s (.goOn activity) { s with
        first := first
        channel := channel
        handling := some (.userEvent value)
        place := .userEvents }
      (some (.userEvent value))
  | noUserEvent {activity : Activity} (hplace : s.place = .userEvents) (hunread : s.unread = []) :
    Turn s (.goOn activity) { s with place := .resized } none
  | resized {activity : Activity} {size : Smithay.Size} (hplace : s.place = .resized)
      (hrunning : s.running = true) :
    Turn s (.goOn activity) { s with
        handling := some (.windowEvent (.resized size)), place := .redraw }
      (some (.windowEvent (.resized size)))
  | notResized {activity : Activity} (hplace : s.place = .resized) :
    Turn s (.goOn activity) { s with place := .redraw } none
  | redraw {activity : Activity} (hplace : s.place = .redraw) (hrunning : s.running = true)
      (hpending : s.takeFlag.pendingRedraw = true) :
    Turn s (.goOn activity) { s.takeFlag with
        pendingRedraw := false
        handling := some (.windowEvent .redrawRequested)
        place := .aboutToWait }
      (some (.windowEvent .redrawRequested))
  | noRedraw {activity : Activity} (hplace : s.place = .redraw) (hrunning : s.running = true)
      (hpending : s.takeFlag.pendingRedraw = false) :
    Turn s (.goOn activity) { s.takeFlag with place := .aboutToWait } none
  | paused {activity : Activity} (hplace : s.place = .redraw) (hrunning : s.running = false) :
    Turn s (.goOn activity) { s with place := .aboutToWait } none
  | aboutToWait {activity : Activity} (hplace : s.place = .aboutToWait) : Turn s (.goOn activity)
      { s with handling := some .aboutToWait, place := .iterated } (some .aboutToWait)
  | leave {activity : Activity} (hplace : s.place = .iterated) (hexit : s.exit = true) :
    Turn s (.goOn activity) { s with
      loopRunning := false, handling := some .loopExiting, place := .ended } (some .loopExiting)
  | again {activity : Activity} (hplace : s.place = .iterated) (hexit : s.exit = false)
      (hhandling : s.handling = none) :
    Turn s (.goOn activity) { s with place := .pumpEvents } none
  | sleep {activity : Activity} {start : Nat} {timeout : Option Nat} {first : Option α}
      {channel : List α} (hplace : s.place = .timeout)
      (hunread : first.toList ++ channel = s.unread)
      (hidle : timeout ≠ some 0 → s.Idle) (hpoll : s.controlFlow = .poll → timeout = some 0) :
    Turn s (.goOn activity)
      { s with first := first, channel := channel, place := .asleep start timeout } none
  | woken {activity : Activity} {start : Nat} (hplace : s.place = .woken start) :
    Turn s (.goOn activity) { s.takeFlag with place := .recheck start } none
  | recheck {activity : Activity} {start : Nat} {cause : StartCause} {first : Option α}
      {channel : List α} (hplace : s.place = .recheck start)
      (hunread : first.toList ++ channel = s.unread) (hcause : cause ≠ .init) :
    Turn s (.goOn activity)
      { s with first := first, channel := channel, cause := cause, place := .newEvents none } none
  | ignore {activity : Activity} {start : Nat} {first : Option α} {channel : List α}
      (hplace : s.place = .recheck start) (hunread : first.toList ++ channel = s.unread)
      (hidle : s.Idle) :
    Turn s (.goOn activity)
      { s with first := first, channel := channel, place := .iterated } none

private theorem tryRecv_eq_none (hrecv : s.tryRecv = (none, s')) : s' = s ∧ s.unread = [] := by
  simp only [tryRecv] at hrecv
  split at hrecv
  · cases hrecv
  · cases hrecv
  · next hfirst hchannel =>
    cases hrecv
    exact ⟨rfl, by rw [unread, hfirst, hchannel]; rfl⟩

private theorem tryRecv_eq_some {value : α} (hrecv : s.tryRecv = (some value, s')) :
    s' = { s with first := s'.first, channel := s'.channel } ∧
      s.unread = value :: (s'.first.toList ++ s'.channel) := by
  simp only [tryRecv] at hrecv
  split at hrecv
  · next hfirst =>
    cases hrecv
    exact ⟨rfl, by rw [unread, hfirst]; rfl⟩
  · next hfirst hchannel =>
    cases hrecv
    exact ⟨rfl, by rw [unread, hfirst, hchannel]; rfl⟩
  · cases hrecv

private theorem hasIncoming_eq {b : Bool} (hincoming : s.hasIncoming = (b, s')) :
    s' = { s with first := s'.first, channel := s'.channel } ∧
      s'.first.toList ++ s'.channel = s.unread ∧ (b = false → s.unread = []) := by
  simp only [hasIncoming] at hincoming
  split at hincoming
  · cases hincoming
    exact ⟨rfl, rfl, fun h => by cases h⟩
  · next hfirst hchannel =>
    cases hincoming
    exact ⟨rfl, by rw [unread, hfirst, hchannel]; rfl, fun h => by cases h⟩
  · next hfirst hchannel =>
    cases hincoming
    exact ⟨rfl, rfl, fun _ => by rw [unread, hfirst, hchannel]; rfl⟩

private theorem hasWork_eq {b : Bool} (hwork : s.hasWork = (b, s')) :
    s' = { s with first := s'.first, channel := s'.channel } ∧
      s'.first.toList ++ s'.channel = s.unread ∧ (b = false → s.Idle) := by
  simp only [hasWork] at hwork
  split at hwork
  · split at hwork
    · cases hwork
      exact ⟨rfl, rfl, fun h => by cases h⟩
    · next hpending =>
      obtain ⟨hsame, hunread, hempty⟩ := hasIncoming_eq hwork
      exact ⟨hsame, hunread, fun hb _ => ⟨Bool.eq_false_iff.mpr hpending, hempty hb⟩⟩
  · next hrunning =>
    cases hwork
    exact ⟨rfl, rfl, fun _ h => absurd h hrunning⟩

private theorem resume_eq (start now : Nat) (main : Option MainEvent) : ∃ cause, cause ≠ .init ∧
    s.resume start now main = ({ s with cause := cause, place := .newEvents main }, none) := by
  refine ⟨_, ?_, rfl⟩
  split
  · exact StartCause.noConfusion
  · exact StartCause.noConfusion
  · split <;> exact StartCause.noConfusion

private theorem turn_mainEvent (activity : Activity) {event : MainEvent}
    (hplace : s.place = .mainEvent (some event)) (hhandling : s.handling = none) :
    Turn s (.goOn activity) (s.mainEvent activity event).1 (s.mainEvent activity event).2 := by
  have hturn : ∀ resized hasFocus : Bool, ∀ heard : Option (Event α),
      s.mainEvent activity event = ({ s with
        running := event.running s.running
        pendingRedraw := s.pendingRedraw || event = .redrawNeeded
        resized := resized
        hasFocus := hasFocus
        handling := heard
        place := .inputEvents [] }, heard) → (∀ e, heard = some e → e.isMain = true) →
      Turn s (.goOn activity) (s.mainEvent activity event).1 (s.mainEvent activity event).2 := by
    intro resized hasFocus heard heq hmain
    rw [heq]
    exact .mainEvent hplace hmain
  have hquiet : ∀ e : Event α, none = some e → e.isMain = true := fun e he => by cases he
  have hone : ∀ e : Event α, e.isMain = true → ∀ e', some e = some e' → e'.isMain = true := by
    rintro e he e' ⟨⟩
    exact he
  cases event with
  | initWindow =>
    exact hturn s.resized s.hasFocus (some .resumed)
      (by simp [mainEvent, call, MainEvent.running]) (hone _ rfl)
  | terminateWindow =>
    exact hturn s.resized s.hasFocus (some .suspended)
      (by simp [mainEvent, call, MainEvent.running]) (hone _ rfl)
  | lowMemory =>
    exact hturn s.resized s.hasFocus (some .memoryWarning)
      (by simp [mainEvent, call, MainEvent.running]) (hone _ rfl)
  | gainedFocus =>
    exact hturn s.resized true (some (.windowEvent (.focused true)))
      (by simp [mainEvent, call, MainEvent.running]) (hone _ rfl)
  | lostFocus =>
    exact hturn s.resized false (some (.windowEvent (.focused false)))
      (by simp [mainEvent, call, MainEvent.running]) (hone _ rfl)
  | configChanged =>
    exact hturn s.resized s.hasFocus
      (some (.windowEvent (.scaleFactorChanged activity.scaleFactor)))
      (by simp [mainEvent, call, MainEvent.running]) (hone _ rfl)
  | windowResized =>
    exact hturn true s.hasFocus none
      (by simp [mainEvent, jump, MainEvent.running, hhandling]) hquiet
  | _ =>
    exact hturn s.resized s.hasFocus none
      (by simp [mainEvent, jump, MainEvent.running, hhandling]) hquiet

private theorem turn_resume {start now : Nat} {timeout : Option Nat} {event : PollEvent}
    (hplace : s.place = .asleep start timeout) (hevent : event ≠ .wake) :
    Turn s (.poll event now) (s.resume start now event.mainEvent).1
      (s.resume start now event.mainEvent).2 := by
  obtain ⟨cause, hcause, heq⟩ := resume_eq (s := s) start now event.mainEvent
  rw [heq]
  exact .poll hplace hevent hcause

private theorem turn_pollEvents {event : PollEvent} {now : Nat}
    (hpoll : s.pollEvents now event = some (s', delivered)) :
    Turn s (.poll event now) s' delivered := by
  simp only [pollEvents] at hpoll
  split at hpoll
  · next start timeout hplace =>
    split at hpoll
    · split at hpoll
      · cases hpoll
        exact .wake hplace
      · cases hpoll
    · split at hpoll
      · cases hpoll
        exact turn_resume hplace PollEvent.noConfusion
      · cases hpoll
    · cases hpoll
      exact turn_resume hplace PollEvent.noConfusion
    · cases hpoll
      exact turn_resume hplace PollEvent.noConfusion
  · cases hpoll

private theorem turn_goOn {activity : Activity} (hgo : s.goOn activity = some (s', delivered))
    (hhandling : s.handling = none) : Turn s (.goOn activity) s' delivered := by
  rw [goOn] at hgo
  cases hplace : s.place with
  | pumpEvents =>
    simp only [hplace] at hgo
    split at hgo
    · next hrunning =>
      cases hgo
      exact .pump hplace hrunning
    · next hrunning =>
      cases hgo
      exact .begin hplace (Bool.eq_false_iff.mpr hrunning)
  | newEvents main =>
    simp only [hplace] at hgo
    cases hgo
    exact .newEvents hplace
  | mainEvent main =>
    cases main with
    | none =>
      simp only [hplace] at hgo
      cases hgo
      exact .noMainEvent hplace
    | some event =>
      simp only [hplace, Option.some.injEq] at hgo
      have hturn := turn_mainEvent activity hplace hhandling
      rwa [hgo] at hturn
  | inputEvents rest =>
    cases rest with
    | nil =>
      simp only [hplace] at hgo
      cases hgo
    | cons event rest =>
      simp only [hplace] at hgo
      cases hgo
      exact .inputEvent hplace
  | userEvents =>
    simp only [hplace] at hgo
    split at hgo
    · next value s₁ hrecv =>
      obtain ⟨hsame, hunread⟩ := tryRecv_eq_some hrecv
      cases hgo
      rw [hsame]
      exact .userEvent hplace hunread
    · next s₁ hrecv =>
      obtain ⟨rfl, hunread⟩ := tryRecv_eq_none hrecv
      cases hgo
      exact .noUserEvent hplace hunread
  | resized =>
    simp only [hplace] at hgo
    split at hgo
    · next hboth =>
      cases hgo
      exact .resized hplace (Bool.and_eq_true_iff.mp hboth).1
    · cases hgo
      exact .notResized hplace
  | redraw =>
    simp only [hplace] at hgo
    split at hgo
    · next hrunning =>
      split at hgo
      · next hpending =>
        cases hgo
        exact .redraw hplace hrunning hpending
      · next hpending =>
        cases hgo
        exact .noRedraw hplace hrunning (Bool.eq_false_iff.mpr hpending)
    · next hrunning =>
      cases hgo
      exact .paused hplace (Bool.eq_false_iff.mpr hrunning)
  | aboutToWait =>
    simp only [hplace] at hgo
    cases hgo
    exact .aboutToWait hplace
  | iterated =>
    simp only [hplace] at hgo
    split at hgo
    · next hexit =>
      cases hgo
      exact .leave hplace hexit
    · next hexit =>
      cases hgo
      exact .again hplace (Bool.eq_false_iff.mpr hexit) hhandling
  | timeout =>
    simp only [hplace] at hgo
    split at hgo
    · next s₁ hwork =>
      obtain ⟨hsame, hunread, -⟩ := hasWork_eq hwork
      cases hgo
      rw [hsame]
      exact .sleep hplace hunread (fun h => absurd rfl h) fun _ => rfl
    · next s₁ hwork =>
      obtain ⟨hsame, hunread, hidle⟩ := hasWork_eq hwork
      cases hgo
      rw [hsame]
      refine .sleep hplace hunread (fun _ => hidle rfl) fun hpoll => ?_
      rw [controlFlowTimeout, hpoll]
  | asleep start timeout =>
    simp only [hplace] at hgo
    cases hgo
  | woken start =>
    simp only [hplace] at hgo
    cases hgo
    exact .woken hplace
  | recheck start =>
    simp only [hplace] at hgo
    split at hgo
    · next s₁ hwork =>
      obtain ⟨hsame, hunread, -⟩ := hasWork_eq hwork
      obtain ⟨cause, hcause, heq⟩ := resume_eq (s := s₁) start activity.now none
      rw [heq, hsame] at hgo
      cases hgo
      exact .recheck hplace hunread hcause
    · next s₁ hwork =>
      obtain ⟨hsame, hunread, hidle⟩ := hasWork_eq hwork
      rw [hsame] at hgo
      cases hgo
      exact .ignore hplace hunread (hidle rfl)
  | ended =>
    simp only [hplace] at hgo
    cases hgo

theorem turn_of_act (hact : s.act a = some (s', delivered)) : Turn s a s' delivered := by
  cases a with
  | requestRedraw =>
    simp only [act] at hact
    split at hact
    · next hflag =>
      cases hact
      exact .requestAgain hflag
    · next hflag =>
      cases hact
      exact .requestRedraw (Bool.eq_false_iff.mpr hflag)
  | sendEvent value =>
    cases hact
    exact .sendEvent value
  | callWaker =>
    simp only [act] at hact
    split at hact
    · next hwaking =>
      cases hact
      exact .callWaker hwaking
    · cases hact
  | ask request =>
    simp only [act] at hact
    split at hact
    · next hhandling =>
      cases hact
      exact .ask request hhandling
    · cases hact
  | handled =>
    simp only [act] at hact
    split at hact
    · cases hact
      exact .handled
    · cases hact
  | poll event now =>
    simp only [act] at hact
    split at hact
    · exact turn_pollEvents hact
    · cases hact
  | read event =>
    simp only [act, read] at hact
    split at hact
    · split at hact
      · next hplace =>
        cases hact
        exact .read _ hplace
      · next hplace =>
        cases hact
        exact .readNone hplace
      · cases hact
    · cases hact
  | goOn activity =>
    simp only [act] at hact
    split at hact
    · next hhandling => exact turn_goOn hact (Option.isNone_iff_eq_none.mp hhandling)
    · cases hact

end EventLoop

end LocalDesktop.Winit
