/- GID: LocalDesktop/Winit/LoopRuns
   generality: G
   digest: Runs of the event loop: its redraws, its wake-ups, its user events, their order. -/

import LocalDesktop.Winit.LoopTurns

set_option autoImplicit false
set_option relaxedAutoImplicit false

namespace LocalDesktop.Winit

open Foundation.Transition Android.Backend.Wayland EventLoop

variable {α : Type} {ignoreVolumeKeys : Bool} {s s' : EventLoop α} {a : Act α}
  {delivered : Option (Event α)} {h : List (Moment α)} {m : Moment α}

structure Regular (s : EventLoop α) : Prop where
  begun : s.loopRunning = false →
    (s.place = .pumpEvents ∧ s.pendingRedraw = false) ∨ s.place = .ended
  input : ∀ rest, s.place = .inputEvents rest → ∀ e ∈ rest, isInput e = true

private theorem Regular.turn (hs : Regular s) (hturn : Turn s a s' delivered) : Regular s' := by
  have hrunning : s.place ≠ .pumpEvents → s.place ≠ .ended → s.loopRunning = true := by
    intro hpump hended
    by_contra hfalse
    rcases hs.begun (Bool.eq_false_iff.mpr hfalse) with ⟨hplace, -⟩ | hplace
    · exact hpump hplace
    · exact hended hplace
  have hone : ∀ {event rest}, s.place = .inputEvents (event :: rest) → ∀ e ∈ rest,
      isInput e = true := fun hplace e he => hs.input _ hplace e (List.mem_cons_of_mem _ he)
  cases hturn with
  | requestRedraw | requestAgain | sendEvent | callWaker | handled => exact ⟨hs.begun, hs.input⟩
  | ask request =>
    cases request with
    | requestRedraw =>
      simp only [EventLoop.ask]
      split <;> exact ⟨hs.begun, hs.input⟩
    | _ => exact ⟨hs.begun, hs.input⟩
  | read event hplace =>
    refine ⟨fun hloop => ?_, ?_⟩
    · rw [hrunning (by simp [hplace]) (by simp [hplace])] at hloop
      cases hloop
    · rintro rest ⟨⟩ e he
      exact isInput_handleInputEvent he
  | begin | leave => exact ⟨by simp, by simp⟩
  | again hplace hexit =>
    refine ⟨fun hloop => ?_, by simp⟩
    rw [hrunning (by simp [hplace]) (by simp [hplace])] at hloop
    cases hloop
  | pump hplace hloop => exact ⟨by simp [takeFlag, hloop], by simp⟩
  | inputEvent hplace =>
    refine ⟨fun hloop => ?_, ?_⟩
    · rw [hrunning (by simp [hplace]) (by simp [hplace])] at hloop
      cases hloop
    · rintro rest ⟨⟩ e he
      exact hone hplace e he
  | wake hplace | poll hplace | readNone hplace | newEvents hplace | mainEvent hplace
  | noMainEvent hplace | userEvent hplace | noUserEvent hplace | resized hplace | notResized hplace
  | redraw hplace | noRedraw hplace | paused hplace | aboutToWait hplace | sleep hplace
  | woken hplace | recheck hplace | ignore hplace =>
    refine ⟨fun hloop => ?_, by simp⟩
    have hloop' : s.loopRunning = false := hloop
    rw [hrunning (by simp [hplace]) (by simp [hplace])] at hloop'
    cases hloop'

theorem Regular.of_run (hrun : (system α ignoreVolumeKeys).Run h s) : Regular s := by
  refine hrun.invariant (I := fun _ s => Regular s) ⟨fun _ => .inl ⟨rfl, rfl⟩, ?_⟩ ?_
  · rintro rest ⟨⟩
  · intro h t e u _ ht hstep
    exact ht.turn (turn_of_act hstep)

/-! Redraws. -/

def EventLoop.Act.requests : Act α → Bool
  | .requestRedraw | .ask .requestRedraw | .poll (.main .redrawNeeded) _ => true
  | _ => false

def Event.redraws : Event α → Bool
  | .windowEvent .redrawRequested => true
  | _ => false

def Event.begins : Event α → Bool
  | .newEvents _ => true
  | _ => false

/-- A redraw is wanted, and it was already wanted when the iteration began. -/
structure Ledger where
  outstanding : Bool
  early : Bool

def Ledger.enter (l : Ledger) (m : Moment α) : Ledger :=
  if m.act.requests then { l with outstanding := true }
  else if m.delivered.any Event.redraws then ⟨false, false⟩
  else if m.delivered.any Event.begins then ⟨l.outstanding, l.outstanding⟩
  else l

def ledger (h : List (Moment α)) : Ledger := h.foldl Ledger.enter ⟨false, false⟩

/-- Somebody has wanted a redraw, and none came since. -/
def outstanding (h : List (Moment α)) : Bool := (ledger h).outstanding

def Place.needsRedraw : Place → Bool
  | .newEvents main | .mainEvent main => main = some .redrawNeeded
  | _ => false

def EventLoop.due (s : EventLoop α) : Bool :=
  s.redrawFlag || s.pendingRedraw || s.place.needsRedraw

structure Booked (l : Ledger) (s : EventLoop α) : Prop where
  due : s.due = l.outstanding
  early : l.early = true → l.outstanding = true
  drawn : s.place = .aboutToWait → s.running = true → l.early = false

theorem ledger_snoc : ledger (h ++ [m]) = (ledger h).enter m := by
  rw [ledger, List.foldl_append]
  rfl

private theorem ledger_split {pre post : List (Moment α)} :
    ledger (pre ++ m :: post) = post.foldl Ledger.enter (ledger (pre ++ [m])) := by
  rw [ledger, ledger, ← List.foldl_append, List.append_assoc, List.singleton_append]

variable {l : Ledger}

private theorem enter_quiet (hact : a.requests = false) : l.enter ⟨a, none⟩ = l := by
  simp [Ledger.enter, hact]

private theorem enter_main {e : Event α} (hact : a.requests = false) (he : e.isMain = true) :
    l.enter ⟨a, some e⟩ = l := by
  have hboth : e.redraws = false ∧ e.begins = false := by
    cases e with
    | windowEvent event =>
      cases event with
      | redrawRequested => cases he
      | _ => exact ⟨rfl, rfl⟩
    | newEvents => cases he
    | _ => exact ⟨rfl, rfl⟩
  simp [Ledger.enter, hact, hboth.1, hboth.2]

private theorem enter_input {e : WindowEvent} (hact : a.requests = false) (he : isInput e = true) :
    l.enter ⟨a, some (.windowEvent e)⟩ = l := by
  have hredraws : (Event.windowEvent e : Event α).redraws = false := by
    cases e with
    | redrawRequested => cases he
    | _ => rfl
  simp [Ledger.enter, hact, hredraws, Event.begins]

private theorem enter_newEvents {cause : StartCause} (hact : a.requests = false) :
    l.enter ⟨a, some (.newEvents cause)⟩ = ⟨l.outstanding, l.outstanding⟩ := by
  simp [Ledger.enter, hact, Event.redraws, Event.begins]

private theorem enter_redrawRequested (hact : a.requests = false) :
    l.enter ⟨a, some (.windowEvent .redrawRequested)⟩ = ⟨false, false⟩ := by
  simp [Ledger.enter, hact, Event.redraws]

private theorem needsRedraw_poll {event : PollEvent} {now : Nat} :
    Place.needsRedraw (.newEvents event.mainEvent) = (Act.poll event now : Act α).requests := by
  cases event with
  | main event => cases event <;> rfl
  | _ => rfl

private theorem Booked.turn (hs : Regular s) (hl : Booked l s) (hturn : Turn s a s' delivered) :
    Booked (l.enter ⟨a, delivered⟩) s' := by
  have hdue := hl.due
  rw [EventLoop.due] at hdue
  cases hturn with
  | requestRedraw | requestAgain hflag =>
    refine ⟨?_, fun _ => rfl, hl.drawn⟩
    simp_all [EventLoop.due, Ledger.enter, Act.requests]
  | sendEvent | callWaker | handled =>
    rw [enter_quiet rfl]
    exact ⟨hl.due, hl.early, hl.drawn⟩
  | ask request =>
    cases request with
    | requestRedraw =>
      simp only [EventLoop.ask]
      split
      · next hflag =>
        refine ⟨?_, fun _ => rfl, hl.drawn⟩
        simp [EventLoop.due, Ledger.enter, Act.requests, hflag]
      · refine ⟨?_, fun _ => rfl, hl.drawn⟩
        simp [EventLoop.due, Ledger.enter, Act.requests]
    | _ =>
      rw [enter_quiet rfl]
      exact ⟨hl.due, hl.early, hl.drawn⟩
  | @poll _ now _ event _ hplace =>
    have hneeds : Place.needsRedraw (.newEvents event.mainEvent) =
        (Act.poll event now : Act α).requests := needsRedraw_poll
    cases hact : (Act.poll event now : Act α).requests with
    | false =>
      rw [enter_quiet hact]
      refine ⟨?_, hl.early, by simp⟩
      have hbefore : s.place.needsRedraw = false := by rw [hplace]; rfl
      rw [hbefore] at hdue
      rw [EventLoop.due, hneeds, hact]
      exact hdue
    | true =>
      refine ⟨?_, fun _ => by simp [Ledger.enter, hact], by simp⟩
      rw [hact] at hneeds
      simp [EventLoop.due, Ledger.enter, hact, hneeds]
  | begin hplace hloop =>
    rw [enter_quiet rfl]
    rcases hs.begun hloop with ⟨-, hpending⟩ | hended
    · refine ⟨?_, hl.early, by simp⟩
      simpa [EventLoop.due, hplace, Place.needsRedraw, hpending] using hdue
    · rw [hplace] at hended
      cases hended
  | newEvents hplace =>
    rw [enter_newEvents rfl]
    refine ⟨?_, fun h => h, by simp⟩
    simpa [EventLoop.due, hplace, Place.needsRedraw] using hdue
  | mainEvent hplace hmain =>
    have henter : l.enter ⟨.goOn ‹_›, delivered⟩ = l := by
      cases delivered with
      | none => exact enter_quiet rfl
      | some e => exact enter_main rfl (hmain e rfl)
    rw [henter]
    refine ⟨?_, hl.early, by simp⟩
    simpa [EventLoop.due, hplace, Place.needsRedraw, Bool.or_assoc] using hdue
  | inputEvent hplace =>
    rw [enter_input rfl (hs.input _ hplace _ List.mem_cons_self)]
    refine ⟨?_, hl.early, by simp⟩
    simpa [EventLoop.due, hplace, Place.needsRedraw] using hdue
  | userEvent hplace | resized hplace | leave hplace =>
    simp only [Ledger.enter, Act.requests, Option.any_some, Event.redraws, Event.begins,
      Bool.false_eq_true, if_false]
    refine ⟨?_, hl.early, by simp⟩
    simpa [EventLoop.due, hplace, Place.needsRedraw] using hdue
  | aboutToWait hplace =>
    simp only [Ledger.enter, Act.requests, Option.any_some, Event.redraws, Event.begins,
      Bool.false_eq_true, if_false]
    refine ⟨?_, hl.early, by simp⟩
    simpa [EventLoop.due, hplace, Place.needsRedraw] using hdue
  | redraw hplace =>
    rw [enter_redrawRequested rfl]
    exact ⟨by simp [EventLoop.due, takeFlag, Place.needsRedraw], id, fun _ _ => rfl⟩
  | noRedraw hplace hrunning hpending =>
    rw [enter_quiet rfl]
    have hnone : l.outstanding = false := by
      rw [← hdue, hplace]
      simpa [takeFlag, Place.needsRedraw, Bool.or_comm] using hpending
    refine ⟨?_, hl.early, fun _ _ => ?_⟩
    · rw [hnone]
      simpa [EventLoop.due, takeFlag, Place.needsRedraw] using hpending
    · by_contra hearly
      rw [hl.early (Bool.not_eq_false _ ▸ hearly)] at hnone
      cases hnone
  | paused hplace hrunning =>
    rw [enter_quiet rfl]
    refine ⟨?_, hl.early, fun _ h => ?_⟩
    · simpa [EventLoop.due, hplace, Place.needsRedraw] using hdue
    · rw [hrunning] at h
      cases h
  | pump hplace | woken hplace =>
    rw [enter_quiet rfl]
    refine ⟨?_, hl.early, by simp⟩
    simpa [EventLoop.due, takeFlag, hplace, Place.needsRedraw, Bool.or_comm] using hdue
  | wake hplace | read _ hplace | readNone hplace | noMainEvent hplace | noUserEvent hplace
  | notResized hplace | again hplace | sleep hplace | recheck hplace | ignore hplace =>
    rw [enter_quiet rfl]
    refine ⟨?_, hl.early, by simp⟩
    simpa [EventLoop.due, hplace, Place.needsRedraw] using hdue

private theorem Booked.of_run (hrun : (system α ignoreVolumeKeys).Run h s) : Booked
    (ledger h) s := by
  refine hrun.invariant (I := fun h s => Booked (ledger h) s) ⟨rfl, id, nofun⟩ ?_
  intro h t m u hpath ht hstep
  rw [ledger_snoc]
  exact ht.turn (.of_run hpath) (turn_of_act hstep)

def EventLoop.Act.running (running : Bool) : Act α → Bool
  | .poll (.main event) _ => event.running running
  | _ => running

def active (h : List (Moment α)) : Bool := h.foldl (fun running m => m.act.running running) false

def Place.main : Place → Option MainEvent
  | .newEvents main | .mainEvent main => main
  | _ => none

/-- Whether the loop runs when it is through with the event that it was woken up by. -/
def EventLoop.active (s : EventLoop α) : Bool :=
  (s.place.main.map (MainEvent.running s.running)).getD s.running

private theorem active_turn (hturn : Turn s a s' delivered) : s'.active = a.running s.active := by
  cases hturn with
  | ask request =>
    cases request with
    | requestRedraw =>
      simp only [EventLoop.ask]
      split <;> rfl
    | _ => rfl
  | @poll _ _ _ event _ hplace => cases event <;> 
      simp [EventLoop.active, Place.main, hplace, PollEvent.mainEvent, Act.running]
  | requestRedraw | requestAgain | sendEvent | callWaker | handled => rfl
  | wake hplace | read _ hplace | readNone hplace | begin hplace | pump hplace | newEvents hplace
  | mainEvent hplace | noMainEvent hplace | inputEvent hplace | userEvent hplace
  | noUserEvent hplace | resized hplace | notResized hplace | redraw hplace | noRedraw hplace
  | paused hplace | aboutToWait hplace | leave hplace | again hplace | sleep hplace | woken hplace
  | recheck hplace | ignore hplace =>
    simp [EventLoop.active, Place.main, hplace, takeFlag, Act.running]

theorem active_of_run (hrun : (system α ignoreVolumeKeys).Run h s) : s.active = Winit.active h := by
  refine hrun.invariant (I := fun h s => s.active = Winit.active h) rfl ?_
  intro h t m u _ ht hstep
  rw [active_turn (turn_of_act hstep), Winit.active, List.foldl_append, ht]
  rfl

theorem place_of_redrawRequested (hs : Regular s)
    (hturn : Turn s a s' (some (.windowEvent .redrawRequested))) :
    s.place = .redraw ∧ s.running = true ∧ s.takeFlag.pendingRedraw = true := by
  cases hturn with
  | mainEvent _ hmain => exact absurd (hmain _ rfl) Bool.false_ne_true
  | inputEvent hplace =>
    exact absurd (hs.input _ hplace _ List.mem_cons_self) Bool.false_ne_true
  | redraw hplace hrunning hpending => exact ⟨hplace, hrunning, hpending⟩

theorem place_of_newEvents {cause : StartCause} (hturn : Turn s a s' (some (.newEvents cause))) :
    ∃ main, s.place = .newEvents main := by
  cases hturn with
  | mainEvent _ hmain => exact absurd (hmain _ rfl) Bool.false_ne_true
  | newEvents hplace => exact ⟨_, hplace⟩

private theorem place_of_aboutToWait (hturn : Turn s a s' (some .aboutToWait)) :
    s.place = .aboutToWait := by
  cases hturn with
  | mainEvent _ hmain => exact absurd (hmain _ rfl) Bool.false_ne_true
  | aboutToWait hplace => exact hplace

private theorem requests_of_delivered {e : Event α} (hturn : Turn s a s' (some e)) :
    a.requests = false := by
  cases hturn <;> rfl

theorem redraws_eq_true {e : Event α} (he : e.redraws = true) :
    e = .windowEvent .redrawRequested := by
  cases e with
  | windowEvent e =>
    cases e with
    | redrawRequested => rfl
    | _ => cases he
  | _ => cases he

theorem outstanding_foldl {xs : List (Moment α)}
    (hnone : ∀ x ∈ xs, x.delivered.any Event.redraws = false) (hl : l.outstanding = true) :
    (xs.foldl Ledger.enter l).outstanding = true ∧
      (l.early = true → (xs.foldl Ledger.enter l).early = true) := by
  induction xs generalizing l with
  | nil => exact ⟨hl, id⟩
  | cons x xs ih =>
    obtain ⟨hx, hxs⟩ := List.forall_mem_cons.mp hnone
    have hkeeps : (l.enter x).outstanding = true ∧ (l.early = true → (l.enter x).early = true) := by
      simp only [Ledger.enter, hx, Bool.false_eq_true, if_false]
      split
      · exact ⟨rfl, id⟩
      · split
        · exact ⟨hl, fun _ => hl⟩
        · exact ⟨hl, id⟩
    obtain ⟨hout, hearly⟩ := ih hxs hkeeps.1
    exact ⟨hout, fun h => hearly (hkeeps.2 h)⟩

theorem redraw_of_outstanding {pre mid post : List (Moment α)} {n w : Moment α}
    (hrun : (system α ignoreVolumeKeys).Run (pre ++ n :: mid ++ w :: post) s)
    (hwanted : outstanding pre = true) (hn : ∃ cause, n.delivered = some (.newEvents cause))
    (hw : w.delivered = some .aboutToWait) (hactive : active (pre ++ n :: mid) = true) :
    ∃ x ∈ mid, x.delivered = some (.windowEvent .redrawRequested) := by
  by_contra hnone
  have hquiet : ∀ x ∈ mid, x.delivered.any Event.redraws = false := by
    intro x hx
    by_contra hredraws
    apply hnone
    obtain ⟨e, he, hone⟩ := (Option.any_eq_true _ _).mp (Bool.not_eq_false _ ▸ hredraws)
    exact ⟨x, hx, he.trans (congrArg some (redraws_eq_true hone))⟩
  obtain ⟨t, u, hpre, hstep, -⟩ := Path.at_event hrun
  have hturn := turn_of_act hstep
  rw [hw] at hturn
  have hplace := place_of_aboutToWait hturn
  have hrunning : t.running = true := by
    rw [← active_of_run hpre] at hactive
    simpa [EventLoop.active, hplace, Place.main] using hactive
  obtain ⟨nact, ndelivered⟩ := n
  obtain ⟨cause, rfl⟩ := hn
  have hbegins : nact.requests = false := by
    obtain ⟨v, v', -, hbegin, -⟩ := Path.at_event hpre
    exact requests_of_delivered (turn_of_act hbegin)
  have hentered : ledger (pre ++ [⟨nact, some (.newEvents cause)⟩]) = ⟨true, true⟩ := by
    have hwanted' : (ledger pre).outstanding = true := hwanted
    rw [ledger_snoc, enter_newEvents hbegins, hwanted']
  have hdrawn := (Booked.of_run hpre).drawn hplace hrunning
  rw [ledger_split, hentered, (outstanding_foldl hquiet rfl).2 rfl] at hdrawn
  cases hdrawn

/-- No redraw that somebody wants is lost, and none is made up: it comes only while the activity
runs, and at the latest in the first iteration that begins with it wanted and ends while the
activity runs. -/
theorem redraws_of_run (hrun : (system α ignoreVolumeKeys).Run h s) :
    (∀ pre m post, h = pre ++ m :: post → m.delivered = some (.windowEvent .redrawRequested) →
      outstanding pre = true ∧ active pre = true) ∧
    ∀ pre n mid w post, h = pre ++ n :: mid ++ w :: post → outstanding pre = true →
      (∃ cause, n.delivered = some (.newEvents cause)) → w.delivered = some .aboutToWait →
      active (pre ++ n :: mid) = true →
      ∃ x ∈ mid, x.delivered = some (.windowEvent .redrawRequested) := by
  constructor
  · rintro pre m post rfl hm
    obtain ⟨t, u, hpre, hstep, -⟩ := Path.at_event hrun
    have hturn := turn_of_act hstep
    rw [hm] at hturn
    obtain ⟨hplace, hrunning, hpending⟩ := place_of_redrawRequested (.of_run hpre) hturn
    refine ⟨?_, ?_⟩
    · rw [outstanding, ← (Booked.of_run hpre).due]
      simpa [EventLoop.due, hplace, Place.needsRedraw, takeFlag, Bool.or_comm] using hpending
    · rw [← active_of_run hpre]
      simpa [EventLoop.active, hplace, Place.main] using hrunning
  · rintro pre n mid w post rfl hwanted hn hw hactive
    exact redraw_of_outstanding hrun hwanted hn hw hactive

def replay (s : EventLoop α) : List (Act α) → Option (List (Moment α) × EventLoop α)
  | [] => some ([], s)
  | a :: acts => do
    let (s', delivered) ← s.act a
    let (h, t) ← replay s' acts
    some (⟨a, delivered⟩ :: h, t)

private theorem path_replay {acts : List (Act α)} {t : EventLoop α}
    (hreplay : replay s acts = some (h, t)) : Path (system α ignoreVolumeKeys) s h t := by
  induction acts generalizing s h with
  | nil =>
    cases hreplay
    exact .nil _
  | cons a acts ih =>
    simp only [replay, Option.bind_eq_bind, Option.bind_eq_some_iff] at hreplay
    obtain ⟨⟨s', delivered⟩, hact, ⟨h', t'⟩, hrest, hsome⟩ := hreplay
    cases hsome
    exact .cons hact (ih hrest)

section Drawn

def onward : Act Unit := .goOn ⟨0, none, 1⟩

def silent : Moment Unit := ⟨onward, none⟩

def telling (e : Event Unit) : Moment Unit := ⟨onward, some e⟩

/-- The loop begins and goes to sleep, and the activity is resumed while somebody wants a redraw. -/
def resuming : List (Moment Unit) :=
  [silent, telling (.newEvents .init), ⟨.handled, none⟩, silent, ⟨.read none, none⟩, silent, silent,
    silent, telling .aboutToWait, ⟨.handled, none⟩, silent, silent, silent,
    ⟨.poll (.main .resume) 0, none⟩, ⟨.requestRedraw, none⟩]

def redrawing : List (Moment Unit) :=
  [⟨.handled, none⟩, silent, ⟨.read none, none⟩, silent, silent,
    telling (.windowEvent .redrawRequested), ⟨.handled, none⟩]

def drawn : List (Moment Unit) :=
  resuming ++ telling (.newEvents (.waitCancelled 0 none)) :: redrawing ++ [telling .aboutToWait]

def drawnLoop : EventLoop Unit :=
  { EventLoop.new true with
    loopRunning := true
    running := true
    cause := .waitCancelled 0 none
    place := .iterated
    handling := some .aboutToWait
    waking := 1 }

theorem run_drawn : (system Unit true).Run drawn drawnLoop :=
  path_replay (rfl : replay (.new true) (drawn.map Moment.act) = some (drawn, drawnLoop))

theorem redraws_of_drawn :
    ∃ x ∈ redrawing, x.delivered = some (.windowEvent .redrawRequested) :=
  (redraws_of_run run_drawn).2 resuming _ redrawing _ [] rfl rfl ⟨_, rfl⟩ rfl rfl

end Drawn

/-! User events. -/

def Moment.sends (m : Moment α) : Option α :=
  match m.act with
  | .sendEvent value | .ask (.sendEvent value) => some value
  | _ => none

def Moment.hears (m : Moment α) : Option α :=
  match m.delivered with
  | some (.userEvent value) => some value
  | _ => none

private theorem hears_main {e : Event α} (he : e.isMain = true) :
    (⟨a, some e⟩ : Moment α).hears = none := by
  cases e with
  | userEvent => cases he
  | _ => rfl

private theorem unread_turn (hturn : Turn s a s' delivered) :
    s.unread ++ (⟨a, delivered⟩ : Moment α).sends.toList =
      (⟨a, delivered⟩ : Moment α).hears.toList ++ s'.unread := by
  cases hturn with
  | sendEvent => exact List.append_assoc _ _ _
  | ask request =>
    cases request with
    | requestRedraw =>
      simp only [EventLoop.ask]
      split <;> exact List.append_nil _
    | sendEvent => exact List.append_assoc _ _ _
    | _ => exact List.append_nil _
  | userEvent _ hunread => exact (List.append_nil _).trans hunread
  | mainEvent _ hmain =>
    cases delivered with
    | none => exact List.append_nil _
    | some e =>
      rw [hears_main (hmain e rfl)]
      exact List.append_nil _
  | sleep _ hunread | recheck _ hunread | ignore _ hunread =>
    exact (List.append_nil _).trans hunread.symm
  | poll => exact List.append_nil _
  | _ => exact List.append_nil _

private theorem unread_of_run (hrun : (system α ignoreVolumeKeys).Run h s) :
    observed Moment.sends h = observed Moment.hears h ++ s.unread := by
  refine hrun.invariant (I := fun h s =>
    observed Moment.sends h = observed Moment.hears h ++ s.unread) rfl ?_
  intro h t m u _ ht hstep
  rw [observed_snoc, observed_snoc, ht, List.append_assoc, List.append_assoc,
    unread_turn (turn_of_act hstep)]

/-- The handler has heard of the user events of an iteration. -/
def Place.drained : Place → Bool
  | .resized | .redraw | .aboutToWait => true
  | _ => false

private theorem drained_turn (hs : s'.place.drained = true) (hturn : Turn s a s' delivered) :
    s.place.drained = true ∨ s.unread = [] := by
  cases hturn with
  | ask request =>
    left
    cases request with
    | requestRedraw =>
      simp only [EventLoop.ask] at hs
      split at hs <;> exact hs
    | _ => exact hs
  | requestRedraw | requestAgain | sendEvent | callWaker | handled => exact .inl hs
  | noUserEvent _ hunread => exact .inr hunread
  | resized hplace | notResized hplace | redraw hplace | noRedraw hplace | paused hplace =>
    exact .inl (by rw [hplace]; rfl)
  | _ => cases hs

private theorem heard_of_drained {pre mid : List (Moment α)} {t : EventLoop α}
    (hpre : (system α ignoreVolumeKeys).Run pre s) (hs : s.place.drained = false)
    (hmid : Path (system α ignoreVolumeKeys) s mid t) (ht : t.place.drained = true) :
    (observed Moment.sends pre).length ≤ (observed Moment.hears (pre ++ mid)).length := by
  refine hmid.invariant (I := fun mid t => t.place.drained = true →
    (observed Moment.sends pre).length ≤ (observed Moment.hears (pre ++ mid)).length) ?_ ?_ ht
  · intro hdrained
    rw [hs] at hdrained
    cases hdrained
  · intro mid t m u hpath ih hstep hu
    have hgrows : (observed Moment.hears (pre ++ mid)).length ≤
        (observed Moment.hears (pre ++ (mid ++ [m]))).length := by
      rw [← List.append_assoc, observed_snoc, List.length_append]
      exact Nat.le_add_right _ _
    refine le_trans ?_ hgrows
    rcases drained_turn hu (turn_of_act hstep) with hdrained | hunread
    · exact ih hdrained
    · have hall := unread_of_run (hpre.append hpath)
      rw [hunread, List.append_nil, observed_append] at hall
      rw [← hall, List.length_append]
      exact Nat.le_add_right _ _

/-- The handler hears of every user event once, in the order in which they are sent, and in every
iteration, whether the activity runs or not, of all that were sent before. -/
theorem heard_of_run (hrun : (system α ignoreVolumeKeys).Run h s) :
    observed Moment.hears h <+: observed Moment.sends h ∧
    ∀ pre n mid w post, h = pre ++ n :: mid ++ w :: post →
      (∃ cause, n.delivered = some (.newEvents cause)) → w.delivered = some .aboutToWait →
      observed Moment.sends pre <+: observed Moment.hears (pre ++ n :: mid) := by
  refine ⟨⟨s.unread, (unread_of_run hrun).symm⟩, ?_⟩
  rintro pre n mid w post rfl ⟨cause, hn⟩ hw
  obtain ⟨t, u, hbefore, hlast, -⟩ := Path.at_event hrun
  have hturn := turn_of_act hlast
  rw [hw] at hturn
  have hdrained : t.place.drained = true := by
    rw [place_of_aboutToWait hturn]
    rfl
  obtain ⟨v, v', hpre, hfirst, hmid⟩ := Path.at_event hbefore
  have hfresh : v.place.drained = false := by
    have hbegin := turn_of_act hfirst
    rw [hn] at hbegin
    obtain ⟨main, hplace⟩ := place_of_newEvents hbegin
    rw [hplace]
    rfl
  have hlength := heard_of_drained hpre hfresh (.cons hfirst hmid) hdrained
  refine List.prefix_of_prefix_length_le ?_ ⟨t.unread, (unread_of_run hbefore).symm⟩ hlength
  rw [observed_append]
  exact List.prefix_append _ _

def sending : List (Moment Nat) :=
  [⟨.sendEvent 3, none⟩, ⟨.sendEvent 5, none⟩, ⟨.goOn ⟨0, none, 1⟩, none⟩,
    ⟨.goOn ⟨0, none, 1⟩, some (.newEvents .init)⟩, ⟨.handled, none⟩, ⟨.goOn ⟨0, none, 1⟩, none⟩,
    ⟨.read none, none⟩, ⟨.goOn ⟨0, none, 1⟩, some (.userEvent 3)⟩]

def sendingLoop : EventLoop Nat :=
  { EventLoop.new true with
    loopRunning := true
    channel := [5]
    place := .userEvents
    handling := some (.userEvent 3)
    waking := 2 }

theorem heard_of_sending : observed Moment.hears sending <+: observed Moment.sends sending :=
  (heard_of_run (path_replay (rfl : replay (.new true) (sending.map Moment.act) =
    some (sending, sendingLoop)) : (system Nat true).Run sending sendingLoop)).1

/-! Wake-ups. -/

/-- The waker has been called, or is about to be. -/
def EventLoop.Alarmed (s : EventLoop α) : Prop := s.wake = true ∨ 0 < s.waking

/-- A flag that is up comes with a call of the waker, until the loop looks at the flag. A loop that
sleeps without a limit of no time has seen nothing to do, and what came since has woken it up. -/
structure Watchful (s : EventLoop α) : Prop where
  flag : s.redrawFlag = true → s.Alarmed ∨ ∃ start, s.place = .woken start
  asleep : ∀ start timeout, s.place = .asleep start timeout → timeout ≠ some 0 → s.running = true →
    s.pendingRedraw = false ∧ (s.unread ≠ [] → s.Alarmed)

private theorem Watchful.turn (hs : Watchful s) (hturn : Turn s a s' delivered) : Watchful s' := by
  have hawake : (∀ start, s.place ≠ .woken start) → s.redrawFlag = true → s.Alarmed := by
    intro hplace hflag
    rcases hs.flag hflag with halarmed | ⟨start, hwoken⟩
    · exact halarmed
    · exact absurd hwoken (hplace start)
  cases hturn with
  | requestRedraw =>
    refine ⟨fun _ => .inl (.inr (Nat.succ_pos _)), fun start timeout hplace htimeout hrunning => ?_⟩
    exact ⟨(hs.asleep start timeout hplace htimeout hrunning).1, fun _ => .inr (Nat.succ_pos _)⟩
  | requestAgain | handled => exact ⟨hs.flag, hs.asleep⟩
  | sendEvent =>
    refine ⟨fun _ => .inl (.inr (Nat.succ_pos _)), fun start timeout hplace htimeout hrunning => ?_⟩
    exact ⟨(hs.asleep start timeout hplace htimeout hrunning).1, fun _ => .inr (Nat.succ_pos _)⟩
  | callWaker =>
    refine ⟨fun _ => .inl (.inl rfl), fun start timeout hplace htimeout hrunning => ?_⟩
    exact ⟨(hs.asleep start timeout hplace htimeout hrunning).1, fun _ => .inl rfl⟩
  | ask request =>
    cases request with
    | requestRedraw =>
      simp only [EventLoop.ask]
      split
      · exact ⟨hs.flag, hs.asleep⟩
      · refine ⟨fun _ => .inl (.inl rfl), fun start timeout hplace htimeout hrunning => ?_⟩
        exact ⟨(hs.asleep start timeout hplace htimeout hrunning).1, fun _ => .inl rfl⟩
    | sendEvent value =>
      refine ⟨fun _ => .inl (.inl rfl), fun start timeout hplace htimeout hrunning => ?_⟩
      exact ⟨(hs.asleep start timeout hplace htimeout hrunning).1, fun _ => .inl rfl⟩
    | _ => exact ⟨hs.flag, hs.asleep⟩
  | wake => exact ⟨fun _ => .inr ⟨_, rfl⟩, by simp⟩
  | pump | redraw | noRedraw | woken => exact ⟨by simp [takeFlag], by simp⟩
  | sleep hplace hunread hidle =>
    refine ⟨fun hflag => .inl (hawake (by simp [hplace]) hflag), ?_⟩
    rintro start timeout ⟨⟩ htimeout hrunning
    obtain ⟨hpending, hempty⟩ := hidle htimeout hrunning
    exact ⟨hpending, fun hsome => absurd (hunread.trans hempty) hsome⟩
  | poll hplace | read _ hplace | readNone hplace | begin hplace | newEvents hplace
  | mainEvent hplace | noMainEvent hplace | inputEvent hplace | userEvent hplace
  | noUserEvent hplace | resized hplace | notResized hplace | paused hplace | aboutToWait hplace
  | leave hplace | again hplace | recheck hplace | ignore hplace =>
    exact ⟨fun hflag => .inl (hawake (by simp [hplace]) hflag), by simp⟩

/-- The handler works, and the loop is told to end, only where an iteration is under way. -/
def Place.busy : Place → Bool
  | .newEvents _ | .pumpEvents | .timeout | .asleep _ _ | .woken _ | .recheck _ => false
  | _ => true

structure Quiet (s : EventLoop α) : Prop where
  handling : s.handling ≠ none → s.place.busy = true
  exit : s.exit = true → s.place.busy = true

private theorem Quiet.turn (hs : Quiet s) (hturn : Turn s a s' delivered) : Quiet s' := by
  have hfree : s.place.busy = false → s.handling = none ∧ s.exit = false := by
    intro hbusy
    constructor
    · by_contra hsome
      rw [hs.handling hsome] at hbusy
      cases hbusy
    · by_contra hexit
      rw [hs.exit (Bool.not_eq_false _ ▸ hexit)] at hbusy
      cases hbusy
  cases hturn with
  | requestRedraw | requestAgain | sendEvent | callWaker => exact ⟨hs.handling, hs.exit⟩
  | handled => exact ⟨fun h => absurd rfl h, hs.exit⟩
  | ask request hhandling =>
    have hbusy := hs.handling (Option.isSome_iff_ne_none.mp hhandling)
    cases request with
    | requestRedraw =>
      simp only [EventLoop.ask]
      split <;> exact ⟨fun _ => hbusy, fun _ => hbusy⟩
    | _ => exact ⟨fun _ => hbusy, fun _ => hbusy⟩
  | again _ hexit hhandling => exact ⟨fun h => absurd hhandling h, fun h => by simp [hexit] at h⟩
  | wake hplace | poll hplace | begin hplace | pump hplace | sleep hplace | woken hplace
  | recheck hplace =>
    obtain ⟨hhandling, hexit⟩ := hfree (by rw [hplace]; rfl)
    exact ⟨fun h => absurd hhandling h, fun h => absurd h (by simp [takeFlag, hexit])⟩
  | _ => exact ⟨fun _ => rfl, fun _ => rfl⟩

/-- The loop works on an iteration that the handler has heard of. -/
def Place.inside : Place → Bool
  | .mainEvent _ | .inputEvents _ | .userEvents | .resized | .redraw | .aboutToWait => true
  | _ => false

private theorem inside_turn (hs : s.place.inside = true) (hturn : Turn s a s' delivered)
    (hdelivered : delivered ≠ some .aboutToWait) :
    s'.place.inside = true ∧ ∀ event now, a ≠ .poll event now := by
  cases hturn with
  | ask request =>
    refine ⟨?_, nofun⟩
    cases request with
    | requestRedraw =>
      simp only [EventLoop.ask]
      split <;> exact hs
    | _ => exact hs
  | requestRedraw | requestAgain | sendEvent | callWaker | handled => exact ⟨hs, nofun⟩
  | aboutToWait => exact absurd rfl hdelivered
  | wake hplace | poll hplace | begin hplace | pump hplace | newEvents hplace | leave hplace
  | again hplace | sleep hplace | woken hplace | recheck hplace | ignore hplace =>
    rw [hplace] at hs
    cases hs
  | _ => exact ⟨rfl, nofun⟩

theorem inside_path {b : Bool} (hpath : Path (system α b) s h s') (hs : s.place.inside = true)
    (hdelivered : ∀ m ∈ h, m.delivered ≠ some .aboutToWait) :
    s'.place.inside = true ∧ ∀ m ∈ h, ∀ event now, m.act ≠ .poll event now := by
  induction hpath with
  | nil => exact ⟨hs, fun _ hm => absurd hm List.not_mem_nil⟩
  | @snoc t u h m _ hstep ih =>
    obtain ⟨ht, hh⟩ := ih fun x hx => hdelivered x (List.mem_append_left _ hx)
    obtain ⟨hu, hm⟩ := inside_turn ht (turn_of_act hstep)
      (hdelivered m (List.mem_append_right _ (List.mem_singleton_self m)))
    refine ⟨hu, fun x hx => ?_⟩
    rcases List.mem_append.mp hx with hx | hx
    · exact hh x hx
    · exact List.mem_singleton.mp hx ▸ hm

theorem not_poll_of_delivered {e : Event α} (hturn : Turn s a s' (some e)) (event : PollEvent)
    (now : Nat) : a ≠ .poll event now := by
  rintro rfl
  cases hturn

theorem inside_of_newEvents {cause : StartCause} (hturn : Turn s a s' (some (.newEvents cause))) :
    s'.place.inside = true := by
  cases hturn with
  | mainEvent _ hmain => exact absurd (hmain _ rfl) Bool.false_ne_true
  | newEvents => rfl

def EventLoop.Act.window (window : Bool) : Act α → Bool
  | .poll (.main .initWindow) _ => true
  | .poll (.main .terminateWindow) _ => false
  | _ => window

def hasWindow (h : List (Moment α)) : Bool := h.foldl (fun window m => m.act.window window) false

theorem hasWindow_append {h' : List (Moment α)}
    (hh' : ∀ m ∈ h', ∀ event now, m.act ≠ .poll event now) :
    hasWindow (h ++ h') = hasWindow h ∧ active (h ++ h') = active h := by
  rw [hasWindow, active, List.foldl_append, List.foldl_append]
  change List.foldl _ (hasWindow h) h' = _ ∧ List.foldl _ (active h) h' = _
  generalize hasWindow h = window, active h = running
  induction h' with
  | nil => exact ⟨rfl, rfl⟩
  | cons m h' ih =>
    obtain ⟨hm, hh'⟩ := List.forall_mem_cons.mp hh'
    have hquiet : m.act.window window = window ∧ m.act.running running = running := by
      cases hact : m.act with
      | poll event now => exact absurd hact (hm event now)
      | _ => exact ⟨rfl, rfl⟩
    rw [List.foldl_cons, List.foldl_cons, hquiet.1, hquiet.2]
    exact ih hh'

def EventLoop.Act.ofLoop : Act α → Bool
  | .goOn _ | .read _ | .poll _ _ => true
  | _ => false

theorem free_of_ofLoop (hact : s.act a = some (s', delivered)) (ha : a.ofLoop = true) :
    s.handling = none := by
  have hfree : s.handling.isNone = true := by
    by_contra hbusy
    cases a with
    | goOn | read | poll =>
      rw [act, if_neg hbusy] at hact
      cases hact
    | _ => cases ha
  exact Option.isNone_iff_eq_none.mp hfree

theorem ofLoop_of_delivered {e : Event α} (hturn : Turn s a s' (some e)) :
    a.ofLoop = true ∧ s'.handling = some e := by
  cases hturn <;> exact ⟨rfl, rfl⟩

theorem handling_callWaker (hturn : Turn s .callWaker s' delivered) :
    s'.handling = s.handling := by
  cases hturn
  rfl

theorem handling_ask {request : Request α} (hturn : Turn s (.ask request) s' delivered) :
    s.handling.isSome = true ∧ s'.handling = s.handling := by
  cases hturn with
  | ask _ hhandling =>
    refine ⟨hhandling, ?_⟩
    cases request with
    | requestRedraw =>
      simp only [EventLoop.ask]
      split <;> rfl
    | _ => rfl

def EventLoop.Act.controlFlow (controlFlow : ControlFlow) : Act α → ControlFlow
  | .ask (.setControlFlow controlFlow) => controlFlow
  | _ => controlFlow

theorem controlFlow_turn (hturn : Turn s a s' delivered) :
    s'.controlFlow = a.controlFlow s.controlFlow := by
  cases hturn with
  | ask request =>
    cases request with
    | requestRedraw =>
      simp only [EventLoop.ask]
      split <;> rfl
    | _ => rfl
  | _ => rfl

/-- Where the loop sleeps, it sleeps for no time. -/
def EventLoop.Restless (s : EventLoop α) : Prop :=
  ∀ start timeout, s.place = .asleep start timeout → timeout = some 0

theorem restless_turn (hquiet : Quiet s) (hs : s.controlFlow = .poll → s.Restless)
    (hturn : Turn s a s' delivered) (hpoll : s'.controlFlow = .poll) : s'.Restless := by
  cases hturn with
  | requestRedraw | requestAgain | sendEvent | callWaker | handled => exact hs hpoll
  | ask request hhandling =>
    have hbusy := hquiet.handling (Option.isSome_iff_ne_none.mp hhandling)
    intro start timeout hplace
    have hplace' : s.place = .asleep start timeout := by
      cases request with
      | requestRedraw =>
        simp only [EventLoop.ask] at hplace
        split at hplace <;> exact hplace
      | _ => exact hplace
    rw [hplace'] at hbusy
    cases hbusy
  | sleep _ _ _ hzero =>
    rintro start timeout ⟨⟩
    exact hzero hpoll
  | _ => exact fun _ _ hplace => by cases hplace

private theorem Watchful.of_run (hrun : (system α ignoreVolumeKeys).Run h s) : Watchful s := by
  refine hrun.invariant (I := fun _ s => Watchful s) ⟨nofun, nofun⟩ ?_
  intro h t m u _ ht hstep
  exact ht.turn (turn_of_act hstep)

theorem Quiet.of_run (hrun : (system α ignoreVolumeKeys).Run h s) : Quiet s := by
  refine hrun.invariant (I := fun _ s => Quiet s) ⟨fun h => absurd rfl h, nofun⟩ ?_
  intro h t m u _ ht hstep
  exact ht.turn (turn_of_act hstep)

/-- The steps that a thread that has to call the waker and a loop with nothing else to hear of
take. -/
def Moment.ofWaking (m : Moment α) : Prop :=
  m.act = .callWaker ∨ (∃ now, m.act = .poll .wake now) ∨ ∃ activity, m.act = .goOn activity

private theorem hasWork_of_work (hrunning : s.running = true)
    (hwork : s.pendingRedraw = true ∨ s.unread ≠ []) : s.hasWork.1 = true := by
  rw [hasWork, if_pos hrunning]
  split
  · rfl
  · next hpending =>
    rw [hasIncoming]
    split
    · rfl
    · rfl
    · next hfirst hchannel =>
      rcases hwork with hpending' | hunread
      · exact absurd hpending' hpending
      · rw [unread, hfirst, hchannel] at hunread
        exact absurd rfl hunread

private theorem canReach_of_wake {start : Nat} {timeout : Option Nat}
    (hhandling : s.handling = none)
    (hplace : s.place = .asleep start timeout) (hwake : s.wake = true) (hrunning : s.running = true)
    (hwork : s.redrawFlag = true ∨ s.unread ≠ []) :
    (system α ignoreVolumeKeys).CanReach Moment.ofWaking s fun t => t.place = .newEvents none := by
  let woken : EventLoop α := { s with wake := false, place := .woken start }
  let checking : EventLoop α := { woken.takeFlag with place := .recheck start }
  have hfirst : (system α ignoreVolumeKeys).step s ⟨.poll .wake 0, none⟩ woken := by
    show s.act (.poll .wake 0) = some (woken, none)
    simp [act, hhandling, pollEvents, hplace, hwake, jump, woken]
  have hsecond : (system α ignoreVolumeKeys).step woken ⟨.goOn ⟨0, none, 1⟩, none⟩ checking := by
    show woken.act (.goOn ⟨0, none, 1⟩) = some (checking, none)
    simp [act, hhandling, goOn, jump, woken, checking]
  have hhas : checking.hasWork.1 = true := by
    refine hasWork_of_work hrunning ?_
    rcases hwork with hflag | hunread
    · exact .inl (by simp [checking, woken, takeFlag, hflag])
    · exact .inr hunread
  have hthird : (system α ignoreVolumeKeys).step checking ⟨.goOn ⟨0, none, 1⟩, none⟩
      (checking.hasWork.2.resume start 0 none).1 := by
    show checking.act (.goOn ⟨0, none, 1⟩) = _
    have hpair : checking.hasWork = (true, checking.hasWork.2) := Prod.ext hhas rfl
    have hgo : checking.goOn ⟨0, none, 1⟩ =
        some (checking.hasWork.2.resume start 0 none) := by
      simp only [goOn, checking]
      rw [hpair]
    have hnone : checking.handling.isNone = true := by
      simp [checking, woken, takeFlag, hhandling]
    rw [act, if_pos hnone, hgo]
    rfl
  refine .after hfirst (.inr (.inl ⟨0, rfl⟩)) (.after hsecond (.inr (.inr ⟨_, rfl⟩))
    (.after hthird (.inr (.inr ⟨_, rfl⟩)) (.here rfl)))

/-- No wake-up is lost: while the loop of a running activity sleeps with a redraw wanted or a user
event not heard of, the waker has been called or is about to be, and the loop goes on into an
iteration with no help but that. -/
theorem alarmed_of_run (hrun : (system α ignoreVolumeKeys).Run h s) {start : Nat}
    {timeout : Option Nat} (hplace : s.place = .asleep start timeout) (htimeout : timeout ≠ some 0)
    (hactive : active h = true)
    (hwork : outstanding h = true ∨ observed Moment.hears h ≠ observed Moment.sends h) :
    s.Alarmed ∧ (system α ignoreVolumeKeys).CanReach Moment.ofWaking s fun t =>
      t.place = .newEvents none := by
  have hrunning : s.running = true := by
    rw [← active_of_run hrun] at hactive
    simpa [EventLoop.active, hplace, Place.main] using hactive
  have hwatch := Watchful.of_run hrun
  obtain ⟨hpending, halarm⟩ := hwatch.asleep start timeout hplace htimeout hrunning
  have hhandling : s.handling = none := by
    by_contra hsome
    have hbusy := (Quiet.of_run hrun).handling hsome
    rw [hplace] at hbusy
    cases hbusy
  have hwork' : s.redrawFlag = true ∨ s.unread ≠ [] := by
    rcases hwork with hout | hhears
    · rw [outstanding, ← (Booked.of_run hrun).due] at hout
      exact .inl (by simpa [EventLoop.due, hplace, Place.needsRedraw, hpending] using hout)
    · refine .inr fun hunread => hhears ?_
      rw [unread_of_run hrun, hunread, List.append_nil]
  have halarmed : s.Alarmed := by
    rcases hwork' with hflag | hunread
    · rcases hwatch.flag hflag with halarmed | ⟨other, hwoken⟩
      · exact halarmed
      · rw [hplace] at hwoken
        cases hwoken
    · exact halarm hunread
  refine ⟨halarmed, ?_⟩
  rcases halarmed with hwake | hwaking
  · exact canReach_of_wake hhandling hplace hwake hrunning hwork'
  · have hcall : (system α ignoreVolumeKeys).step s ⟨.callWaker, none⟩
        { s with wake := true, waking := s.waking - 1 } := if_pos hwaking
    exact .after hcall (.inl rfl) (canReach_of_wake hhandling hplace rfl hrunning hwork')

def asleep : List (Moment Unit) :=
  drawn ++ [⟨.handled, none⟩, silent, silent, silent, ⟨.requestRedraw, none⟩]

def asleepLoop : EventLoop Unit :=
  { drawnLoop with redrawFlag := true, place := .asleep 0 none, handling := none, waking := 2 }

theorem alarmed_of_asleep : asleepLoop.Alarmed ∧
    (system Unit true).CanReach Moment.ofWaking asleepLoop fun t => t.place = .newEvents none :=
  alarmed_of_run (path_replay (rfl : replay (.new true) (asleep.map Moment.act) =
    some (asleep, asleepLoop)) : (system Unit true).Run asleep asleepLoop) rfl nofun rfl (.inl rfl)

end LocalDesktop.Winit
