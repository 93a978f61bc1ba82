/- GID: LocalDesktop/Android/App/Desktop
   generality: G
   digest: The app with the Wayland backend in the event loop that calls it. -/

import LocalDesktop.Android.App.Run
import LocalDesktop.Winit.LoopRuns

set_option autoImplicit false
set_option relaxedAutoImplicit false

namespace LocalDesktop.Android.App

open Foundation.Transition Smithay Backend.Wayland Winit.EventLoop
open Winit (EventLoop)

structure Desktop where
  loop : EventLoop Unit
  backend : WaylandBackend
  -- What the callback that the loop is in has still to ask for.
  asks : List (Request Unit)

/-- The app implements two callbacks; it does nothing in the others. -/
def callbackOf : Winit.Event Unit → Option Callback
  | .resumed => some .resumed
  | .windowEvent event => some (.windowEvent event)
  | _ => none

/-- `bind` lets the loop spin, a redraw asks for the next one, and closing ends the loop. -/
def asksOf : Winit.Event Unit → List (Request Unit)
  | .resumed => [.setControlFlow .poll]
  | .windowEvent .redrawRequested => [.requestRedraw]
  | .windowEvent .closeRequested => [.exit]
  | _ => []

namespace Desktop

variable (startTime : Nat) (scene : Scene) (loop : EventLoop Unit) (d : Desktop)

def call (event : Winit.Event Unit) : Option (Desktop × List Sent) :=
  match callbackOf event with
  | some callback => do
    let (backend, sent) ← respond scene callback d.backend
    some (⟨loop, backend, asksOf event⟩, sent)
  | none => some (⟨loop, d.backend, asksOf event⟩, [])

/-- The app asks for what it has to ask for before it returns; no other thread knows of the loop. -/
def follow : Act Unit → Option Desktop
  | .ask request =>
    match d.asks with
    | next :: rest => if next = request then some ⟨loop, d.backend, rest⟩ else none
    | [] => none
  | .handled => if d.asks = [] then some ⟨loop, d.backend, []⟩ else none
  | .requestRedraw | .sendEvent _ => none
  | _ => some ⟨loop, d.backend, d.asks⟩

/-- A step of the loop, with the event that the app is called with and what it sends. -/
def act (a : Act Unit) : Option (Desktop × Option (Winit.Event Unit) × List Sent) := do
  let (loop, delivered) ← d.loop.act a
  match delivered with
  | some event =>
    let (d', sent) ← d.call scene loop event
    some (d', some event, sent)
  | none =>
    let d' ← d.follow loop a
    some (d', none, [])

end Desktop

structure Beat where
  moment : Winit.Moment Unit
  scene : Scene
  sent : List Sent

def desktop (startTime : Nat) : System Desktop Beat where
  start := ⟨.new true, .build startTime, []⟩
  step d b d' := startTime ≤ b.scene.now ∧
    d.act b.scene b.moment.act = some (d', b.moment.delivered, b.sent)

def Beat.app (b : Beat) : Option Moment :=
  (b.moment.delivered.bind callbackOf).map fun callback => ⟨b.scene, callback, b.sent⟩

variable {startTime : Nat} {d d' : Desktop} {h : List Beat} {b : Beat}

/-- What the app asks for in a step in which it is not called. -/
def Asks (d d' : Desktop) : Act Unit → Prop
  | .ask request => d.asks = request :: d'.asks
  | .handled => d.asks = [] ∧ d'.asks = []
  | .requestRedraw | .sendEvent _ => False
  | _ => d'.asks = d.asks

private theorem asks_of_follow {loop : EventLoop Unit} {a : Act Unit}
    (hfollow : d.follow loop a = some d') : d'.loop = loop ∧ d'.backend = d.backend ∧ Asks d d' a := by
  cases a with
  | ask request =>
    simp only [Desktop.follow] at hfollow
    split at hfollow
    · next next rest hasks =>
      split at hfollow
      · next hnext =>
        subst hnext
        cases hfollow
        exact ⟨rfl, rfl, hasks⟩
      · cases hfollow
    · cases hfollow
  | handled =>
    simp only [Desktop.follow] at hfollow
    split at hfollow
    · next hasks =>
      cases hfollow
      exact ⟨rfl, rfl, hasks, rfl⟩
    · cases hfollow
  | requestRedraw | sendEvent => cases hfollow
  | _ =>
    cases hfollow
    exact ⟨rfl, rfl, rfl⟩

private theorem desktop_step (hstep : (desktop startTime).step d b d') :
    d.loop.act b.moment.act = some (d'.loop, b.moment.delivered) ∧
      match b.moment.delivered with
      | some event => d'.asks = asksOf event ∧
        match callbackOf event with
        | some callback => startTime ≤ b.scene.now ∧
          respond b.scene callback d.backend = some (d'.backend, b.sent)
        | none => d'.backend = d.backend
      | none => d'.backend = d.backend ∧ Asks d d' b.moment.act := by
  obtain ⟨hnow, hact⟩ := hstep
  obtain ⟨⟨a, delivered⟩, scene, sent⟩ := b
  simp only [Desktop.act, Option.bind_eq_bind, Option.bind_eq_some_iff] at hact
  obtain ⟨⟨loop, heard⟩, hloop, hact⟩ := hact
  cases heard with
  | some event =>
    simp only [Option.bind_eq_some_iff] at hact
    obtain ⟨⟨after, sent⟩, hcall, hsome⟩ := hact
    cases hsome
    simp only [Desktop.call] at hcall
    cases hcallback : callbackOf event with
    | some callback =>
      simp only [hcallback, Option.bind_eq_bind, Option.bind_eq_some_iff] at hcall
      obtain ⟨⟨backend, sent⟩, hrespond, hcall⟩ := hcall
      cases hcall
      refine ⟨hloop, rfl, ?_⟩
      simp only [hcallback]
      exact ⟨hnow, hrespond⟩
    | none =>
      simp only [hcallback] at hcall
      cases hcall
      refine ⟨hloop, rfl, ?_⟩
      simp only [hcallback]
  | none =>
    simp only [Option.bind_eq_some_iff] at hact
    obtain ⟨after, hfollow, hsome⟩ := hact
    cases hsome
    obtain ⟨rfl, hbackend, hasks⟩ := asks_of_follow hfollow
    exact ⟨hloop, hbackend, hasks⟩

private theorem loop_path (hpath : Path (desktop startTime) d h d') :
    Path (Winit.system Unit true) d.loop (h.map Beat.moment) d'.loop := by
  induction hpath with
  | nil => exact .nil _
  | snoc _ hstep ih =>
    rw [List.map_append]
    exact ih.snoc (desktop_step hstep).1

theorem app_path (hpath : Path (desktop startTime) d h d') :
    Path (system startTime) d.backend (observed Beat.app h) d'.backend := by
  induction hpath with
  | nil => exact .nil _
  | @snoc t u h b _ hstep ih =>
    obtain ⟨-, hstep⟩ := desktop_step hstep
    rw [observed_snoc]
    obtain ⟨⟨act, delivered⟩, scene, sent⟩ := b
    cases delivered with
    | none =>
      rw [hstep.1]
      simpa [Beat.app] using ih
    | some event =>
      obtain ⟨-, hcalls⟩ := hstep
      cases hcallback : callbackOf event with
      | none =>
        rw [hcallback] at hcalls
        rw [hcalls]
        simpa [Beat.app, hcallback] using ih
      | some callback =>
        rw [hcallback] at hcalls
        have hone : Beat.app ⟨⟨act, some event⟩, scene, sent⟩ = some ⟨scene, callback, sent⟩ := by
          simp [Beat.app, hcallback]
        rw [hone]
        exact ih.snoc hcalls

/-! What the app's requests make of the loop. -/

def Beat.resumes (b : Beat) : Prop := b.moment.delivered = some .resumed

def Beat.redraws (b : Beat) : Prop := b.moment.delivered = some (.windowEvent .redrawRequested)

/-- Once the app was resumed the loop spins, and once it has drawn it wants to draw again, if not
now then by the end of the callback. -/
structure Lively (h : List Beat) (d : Desktop) : Prop where
  idle : d.loop.handling = none → d.asks = []
  flows : ∀ controlFlow, .setControlFlow controlFlow ∈ d.asks → controlFlow = .poll
  spinning : (∃ b ∈ h, b.resumes) →
    d.loop.controlFlow = .poll ∨ .setControlFlow .poll ∈ d.asks
  drawing : (∃ b ∈ h, b.redraws) →
    Winit.outstanding (h.map Beat.moment) = true ∨ .requestRedraw ∈ d.asks
  spins : d.loop.controlFlow = .poll → d.loop.Restless

private theorem outstanding_snoc {h : List (Winit.Moment Unit)} {m : Winit.Moment Unit}
    (hnone : m.delivered.any Winit.Event.redraws = false) (hout : Winit.outstanding h = true) :
    Winit.outstanding (h ++ [m]) = true := by
  have hone : ∀ x ∈ [m], x.delivered.any Winit.Event.redraws = false := by simpa using hnone
  have hkeeps := Winit.outstanding_foldl hone hout
  rw [Winit.outstanding, Winit.ledger_snoc]
  exact hkeeps.1

private theorem asksOf_flows {event : Winit.Event Unit} {controlFlow : Winit.ControlFlow}
    (hmem : .setControlFlow controlFlow ∈ asksOf event) : controlFlow = .poll := by
  cases event with
  | resumed =>
    cases List.mem_singleton.mp hmem
    rfl
  | windowEvent event =>
    cases event with
    | redrawRequested | closeRequested => cases List.mem_singleton.mp hmem
    | _ => cases hmem
  | _ => cases hmem

private theorem Lively.step (hquiet : Winit.Quiet d.loop) (hd : Lively h d)
    (hstep : (desktop startTime).step d b d') : Lively (h ++ [b]) d' := by
  obtain ⟨hact, hstep⟩ := desktop_step hstep
  obtain ⟨⟨act, delivered⟩, scene, sent⟩ := b
  have hturn := turn_of_act hact
  have hspins := Winit.restless_turn hquiet hd.spins hturn
  have hflow := Winit.controlFlow_turn hturn
  have hmap : List.map Beat.moment (h ++ [⟨⟨act, delivered⟩, scene, sent⟩]) =
      h.map Beat.moment ++ [⟨act, delivered⟩] := List.map_append
  cases delivered with
  | some event =>
    obtain ⟨hloop, hhandling⟩ := Winit.ofLoop_of_delivered hturn
    have hnone := hd.idle (Winit.free_of_ofLoop hact hloop)
    have hsame : d'.loop.controlFlow = d.loop.controlFlow := by
      rw [hflow]
      cases act with
      | ask => cases hloop
      | _ => rfl
    obtain ⟨hasks, -⟩ := hstep
    refine ⟨fun hidle => ?_, ?_, ?_, ?_, hspins⟩
    · rw [hhandling] at hidle
      cases hidle
    · intro controlFlow hmem
      rw [hasks] at hmem
      exact asksOf_flows hmem
    · rintro ⟨b, hb, hresumes⟩
      rcases List.mem_append.mp hb with hb | hb
      · rw [hsame]
        rcases hd.spinning ⟨b, hb, hresumes⟩ with hpoll | hmem
        · exact .inl hpoll
        · rw [hnone] at hmem
          cases hmem
      · cases List.mem_singleton.mp hb
        cases hresumes
        exact .inr (hasks ▸ List.mem_singleton_self _)
    · rintro ⟨b, hb, hredraws⟩
      rw [hmap]
      cases hone : event.redraws with
      | true =>
        cases Winit.redraws_eq_true hone
        exact .inr (hasks ▸ List.mem_singleton_self _)
      | false =>
        rcases List.mem_append.mp hb with hb | hb
        · rcases hd.drawing ⟨b, hb, hredraws⟩ with hout | hmem
          · exact .inl (outstanding_snoc hone hout)
          · rw [hnone] at hmem
            cases hmem
        · cases List.mem_singleton.mp hb
          cases hredraws
          cases hone
  | none =>
    have hearlier : ∀ P : Beat → Prop, (∀ b, P b → b.moment.delivered ≠ none) →
        (∃ x ∈ h ++ [(⟨⟨act, none⟩, scene, sent⟩ : Beat)], P x) → ∃ x ∈ h, P x := by
      rintro P hP ⟨x, hx, hPx⟩
      rcases List.mem_append.mp hx with hx | hx
      · exact ⟨x, hx, hPx⟩
      · cases List.mem_singleton.mp hx
        exact absurd rfl (hP _ hPx)
    have hspinning := fun hsome => hd.spinning (hearlier Beat.resumes
      (fun b hb hnone => by rw [hb] at hnone; cases hnone) hsome)
    have hdrawing := fun hsome => hd.drawing (hearlier Beat.redraws
      (fun b hb hnone => by rw [hb] at hnone; cases hnone) hsome)
    obtain ⟨-, hasks⟩ := hstep
    have hkeep : d'.asks = d.asks → act.controlFlow d.loop.controlFlow = d.loop.controlFlow →
        (d'.loop.handling = none → d.asks = []) →
        Lively (h ++ [⟨⟨act, none⟩, scene, sent⟩]) d' := by
      intro hsame hflows hidle
      rw [hflows] at hflow
      refine ⟨fun hnone => hsame ▸ hidle hnone, hsame ▸ hd.flows, fun hsome => ?_,
        fun hsome => ?_, hspins⟩
      · rw [hsame, hflow]
        exact hspinning hsome
      · rw [hsame, hmap]
        exact (hdrawing hsome).imp_left (outstanding_snoc rfl)
    cases act with
    | requestRedraw | sendEvent => exact absurd hasks id
    | callWaker =>
      exact hkeep hasks rfl fun hnone =>
        hd.idle ((Winit.handling_callWaker hturn).symm.trans hnone)
    | poll | read | goOn =>
      exact hkeep hasks rfl fun _ => hd.idle (Winit.free_of_ofLoop hact rfl)
    | handled =>
      obtain ⟨hbefore, hafter⟩ := hasks
      exact hkeep (hafter.trans hbefore.symm) rfl fun _ => hbefore
    | ask request =>
      have hasks : d.asks = request :: d'.asks := hasks
      have hmem : ∀ r, r ∈ d.asks → r = request ∨ r ∈ d'.asks := fun r hr =>
        List.mem_cons.mp (hasks ▸ hr)
      refine ⟨fun hnone => ?_, fun controlFlow hr => ?_, fun hsome => ?_, fun hsome => ?_, hspins⟩
      · obtain ⟨hbusy, hstays⟩ := Winit.handling_ask hturn
        rw [← hstays, hnone] at hbusy
        cases hbusy
      · exact hd.flows controlFlow (hasks ▸ List.mem_cons_of_mem _ hr)
      · rw [hflow]
        rcases hspinning hsome with hpoll | hr
        · left
          cases request with
          | setControlFlow controlFlow => exact hd.flows controlFlow (hasks ▸ List.mem_cons_self)
          | _ => exact hpoll
        · rcases hmem _ hr with heq | hrest
          · cases heq
            exact .inl rfl
          · exact .inr hrest
      · rw [hmap]
        rcases hdrawing hsome with hout | hr
        · exact .inl (outstanding_snoc rfl hout)
        · rcases hmem _ hr with heq | hrest
          · cases heq
            left
            rw [Winit.outstanding, Winit.ledger_snoc]
            rfl
          · exact .inr hrest

private theorem Lively.of_run (hrun : (desktop startTime).Run h d) : Lively h d := by
  refine hrun.invariant (I := fun h d => Lively h d) ⟨fun _ => rfl, nofun, ?_, ?_, nofun⟩ ?_
  · rintro ⟨b, hb, -⟩
    cases hb
  · rintro ⟨b, hb, -⟩
    cases hb
  · intro h t b u hpath ht hstep
    exact ht.step (.of_run (loop_path hpath)) hstep

/-- From the first resume on the loop never sleeps for any time, whether the activity runs or is
paused. -/
theorem restless_of_run (hrun : (desktop startTime).Run h d) (hresumed : ∃ b ∈ h, b.resumes) :
    d.loop.Restless := by
  intro start timeout hplace
  have hlively := Lively.of_run hrun
  have hfree : d.loop.handling = none := by
    by_contra hbusy
    have hplace' := (Winit.Quiet.of_run (loop_path hrun)).handling hbusy
    rw [hplace] at hplace'
    cases hplace'
  have hpoll : d.loop.controlFlow = .poll := by
    rcases hlively.spinning hresumed with hpoll | hmem
    · exact hpoll
    · rw [hlively.idle hfree] at hmem
      cases hmem
  exact hlively.spins hpoll start timeout hplace

private theorem redraws_within {pre mid post : List Beat} {n w : Beat}
    (hrun : (desktop startTime).Run (pre ++ n :: mid ++ w :: post) d)
    (hdrawn : ∃ b ∈ pre, b.redraws) (hn : ∃ cause, n.moment.delivered = some (.newEvents cause))
    (hw : w.moment.delivered = some .aboutToWait)
    (hactive : Winit.active ((pre ++ n :: mid).map Beat.moment) = true) :
    ∃ x ∈ mid, x.redraws := by
  have hwanted : Winit.outstanding (pre.map Beat.moment) = true := by
    have hsplit := hrun
    rw [List.append_assoc, List.cons_append] at hsplit
    obtain ⟨t, u, hpre, hstep, -⟩ := Path.at_event hsplit
    have hlively := Lively.of_run hpre
    obtain ⟨cause, hn⟩ := hn
    obtain ⟨hact, -⟩ := desktop_step hstep
    rw [hn] at hact
    have hfree := Winit.free_of_ofLoop hact (Winit.ofLoop_of_delivered (turn_of_act hact)).1
    rcases hlively.drawing hdrawn with hout | hmem
    · exact hout
    · rw [hlively.idle hfree] at hmem
      cases hmem
  have hloop := loop_path hrun
  simp only [List.map_append, List.map_cons] at hloop hactive
  obtain ⟨m, hm, hredraws⟩ := Winit.redraw_of_outstanding hloop hwanted hn hw hactive
  obtain ⟨x, hx, rfl⟩ := List.mem_map.mp hm
  exact ⟨x, hx, hredraws⟩

/-- Once it has drawn, the desktop draws in every iteration that ends while the activity runs, and
it draws at no other time. -/
theorem draws_of_run (hrun : (desktop startTime).Run h d) :
    (∀ pre n mid w post, h = pre ++ n :: mid ++ w :: post → (∃ b ∈ pre, b.redraws) →
      (∃ cause, n.moment.delivered = some (.newEvents cause)) →
      w.moment.delivered = some .aboutToWait →
      Winit.active ((pre ++ n :: mid).map Beat.moment) = true → ∃ x ∈ mid, x.redraws) ∧
    ∀ pre x post, h = pre ++ x :: post → x.redraws →
      Winit.active (pre.map Beat.moment) = true := by
  constructor
  · rintro pre n mid w post rfl hdrawn hn hw hactive
    exact redraws_within hrun hdrawn hn hw hactive
  · rintro pre x post rfl hx
    have hloop := loop_path hrun
    rw [List.map_append, List.map_cons] at hloop
    obtain ⟨t, u, hpre, hstep, -⟩ := Path.at_event hloop
    have hturn := turn_of_act hstep
    rw [hx] at hturn
    obtain ⟨hplace, hrunning, -⟩ := Winit.place_of_redrawRequested (.of_run hpre) hturn
    rw [← Winit.active_of_run hpre]
    simpa [EventLoop.active, hplace, Winit.Place.main] using hrunning

/-- On its way back from the background the desktop draws before its new window is there: in the
iteration in which the activity is resumed. -/
theorem draws_before_window {pre mid post : List Beat} {p n w : Beat} {now : Nat}
    (hrun : (desktop startTime).Run (pre ++ p :: n :: mid ++ w :: post) d)
    (hdrawn : ∃ b ∈ pre, b.redraws) (hp : p.moment.act = .poll (.main .resume) now)
    (hn : ∃ cause, n.moment.delivered = some (.newEvents cause))
    (hmid : ∀ x ∈ mid, x.moment.delivered ≠ some .aboutToWait)
    (hw : w.moment.delivered = some .aboutToWait)
    (hwindow : Winit.hasWindow (pre.map Beat.moment) = false) :
    ∃ before x after, mid = before ++ x :: after ∧ x.redraws ∧
      Winit.hasWindow ((pre ++ p :: n :: before).map Beat.moment) = false := by
  have hsplit : pre ++ p :: n :: mid ++ w :: post = pre ++ [p] ++ n :: mid ++ w :: post := by simp
  rw [hsplit] at hrun
  obtain ⟨cause, hn⟩ := hn
  have hquiet : ∀ x ∈ n :: mid, ∀ event now, x.moment.act ≠ .poll event now := by
    obtain ⟨t, hbefore, -⟩ := Path.split hrun
    obtain ⟨u, v, -, hstep, hpath⟩ := Path.at_event hbefore
    obtain ⟨hact, -⟩ := desktop_step hstep
    have hturn := turn_of_act hact
    rw [hn] at hturn
    have hinside := Winit.inside_path (loop_path hpath) (Winit.inside_of_newEvents hturn) (by
      intro m hm
      obtain ⟨x, hx, rfl⟩ := List.mem_map.mp hm
      exact hmid x hx)
    intro x hx event now
    rcases List.mem_cons.mp hx with rfl | hx
    · exact Winit.not_poll_of_delivered hturn event now
    · exact hinside.2 _ (List.mem_map_of_mem hx) event now
  have hbeats : ∀ before, (∀ x ∈ before, x ∈ n :: mid) →
      Winit.hasWindow ((pre ++ [p] ++ before).map Beat.moment) = false ∧
        Winit.active ((pre ++ [p] ++ before).map Beat.moment) = true := by
    intro before hbefore
    have hbeats : ∀ m ∈ before.map Beat.moment, ∀ event now, m.act ≠ .poll event now := by
      intro m hm
      obtain ⟨x, hx, rfl⟩ := List.mem_map.mp hm
      exact hquiet x (hbefore x hx)
    have hsame := Winit.hasWindow_append (h := (pre ++ [p]).map Beat.moment) hbeats
    rw [List.map_append, hsame.1, hsame.2, List.map_append, Winit.hasWindow, Winit.active,
      List.foldl_append, List.foldl_append]
    simp only [List.map_singleton, List.foldl_cons, List.foldl_nil, hp]
    exact ⟨hwindow, rfl⟩
  obtain ⟨x, hx, hredraws⟩ := redraws_within hrun
    (hdrawn.imp fun b hb => ⟨List.mem_append_left _ hb.1, hb.2⟩) ⟨cause, hn⟩ hw
    (hbeats (n :: mid) fun x hx => hx).2
  obtain ⟨before, after, rfl⟩ := List.append_of_mem hx
  refine ⟨before, x, after, rfl, hredraws, ?_⟩
  have hsame : pre ++ p :: n :: before = pre ++ [p] ++ (n :: before) := by simp
  rw [hsame]
  refine (hbeats (n :: before) fun y hy => ?_).1
  rcases List.mem_cons.mp hy with rfl | hy
  · exact List.mem_cons_self
  · exact List.mem_cons_of_mem _ (List.mem_append_left _ hy)

/-- What a list of acts does to the desktop, in one scene. -/
def replayed (scene : Scene) (d : Desktop) : List (Act Unit) → Option (List Beat × Desktop)
  | [] => some ([], d)
  | a :: acts => do
    let (d', delivered, sent) ← d.act scene a
    let (h, e) ← replayed scene d' acts
    some (⟨⟨a, delivered⟩, scene, sent⟩ :: h, e)

private theorem path_replayed {scene : Scene} {acts : List (Act Unit)}
    (hnow : startTime ≤ scene.now)
    (hreplayed : replayed scene d acts = some (h, d')) : Path (desktop startTime) d h d' := by
  induction acts generalizing d h with
  | nil =>
    cases hreplayed
    exact .nil _
  | cons a acts ih =>
    simp only [replayed, Option.bind_eq_bind, Option.bind_eq_some_iff] at hreplayed
    obtain ⟨⟨middle, delivered, sent⟩, hact, ⟨rest, last⟩, hrest, hsome⟩ := hreplayed
    cases hsome
    exact .cons ⟨hnow, hact⟩ (ih hrest)

section Returning

def beat (a : Act Unit) (delivered : Option (Winit.Event Unit)) : Beat :=
  ⟨⟨a, delivered⟩, sceneAt 1 portrait 3, []⟩

def onwards : Beat := beat (.goOn ⟨0, none, 1⟩) none

def telling (event : Winit.Event Unit) : Beat := beat (.goOn ⟨0, none, 1⟩) (some event)

def returning : Beat := beat .handled none

def reading : Beat := beat (.read none) none

def polling (event : Winit.MainEvent) : Beat := beat (.poll (.main event) 0) none

def sleeping : List Beat := [telling .aboutToWait, returning, onwards, onwards, onwards]

def waited : Winit.Event Unit := .newEvents (.waitCancelled 0 none)

def spun : Winit.Event Unit := .newEvents .poll

def appearing : List Beat :=
  [onwards, telling (.newEvents .init), returning, onwards, reading, onwards, onwards, onwards] ++
    sleeping ++
  [polling .resume, telling waited, returning, onwards, reading, onwards, onwards, onwards] ++
    sleeping ++
  [polling .initWindow, telling waited, returning, telling .resumed,
    beat (.ask (.setControlFlow .poll)) none, returning, reading, onwards, onwards, onwards] ++
    sleeping

def drawing : List Beat :=
  [returning, onwards, reading, onwards, onwards, telling (.windowEvent .redrawRequested),
    beat (.ask .requestRedraw) none, returning]

def vanishing : List Beat :=
  [polling .redrawNeeded, telling spun] ++ drawing ++ sleeping ++
  [polling .pause, telling spun, returning, onwards, reading, onwards, onwards, onwards] ++
    sleeping ++
  [polling .terminateWindow, telling spun, returning, telling .suspended, returning, reading,
    onwards, onwards, onwards] ++ sleeping

def background : List Beat := appearing ++ vanishing

def returned : List Beat :=
  background ++ polling .resume :: telling spun :: drawing ++ telling .aboutToWait :: []

def spinning (loop : EventLoop Unit) : Desktop where
  loop := { loop with cause := .poll, controlFlow := .poll, loopRunning := true, wake := true }
  backend := resumed (sceneAt 1 portrait 3) (.build 0)
  asks := []

def appearedDesktop : Desktop where
  loop := { EventLoop.new true with
    loopRunning := true
    running := true
    cause := .waitCancelled 0 none
    controlFlow := .poll
    place := .asleep 0 (some 0) }
  backend := resumed (sceneAt 1 portrait 3) (.build 0)
  asks := []

def backgroundDesktop : Desktop :=
  spinning { EventLoop.new true with pendingRedraw := true, place := .asleep 0 (some 0) }

def returnedDesktop : Desktop :=
  spinning { EventLoop.new true with
    redrawFlag := true, running := true, place := .iterated, handling := some .aboutToWait }

private theorem run_appearing : (desktop 0).Run appearing appearedDesktop :=
  path_replayed (Nat.zero_le _) (rfl : replayed (sceneAt 1 portrait 3) (desktop 0).start
    (appearing.map fun b => b.moment.act) = some (appearing, appearedDesktop))

private theorem run_background : (desktop 0).Run background backgroundDesktop :=
  run_appearing.append (path_replayed (Nat.zero_le _) (rfl : replayed (sceneAt 1 portrait 3)
    appearedDesktop (vanishing.map fun b => b.moment.act) = some (vanishing, backgroundDesktop)))

private theorem run_returned : (desktop 0).Run returned returnedDesktop := by
  have hlast : Path (desktop 0) backgroundDesktop
      (polling .resume :: telling spun :: drawing ++ [telling .aboutToWait]) returnedDesktop :=
    path_replayed (Nat.zero_le _) (rfl : replayed (sceneAt 1 portrait 3) backgroundDesktop
      ((polling .resume :: telling spun :: drawing ++ [telling .aboutToWait]).map
        fun b => b.moment.act) = some (_, returnedDesktop))
  have hrun := run_background.append hlast
  rwa [← List.append_assoc] at hrun

private theorem drawn_background : ∃ b ∈ background, b.redraws := by
  refine ⟨telling (.windowEvent .redrawRequested), List.mem_append_right _ ?_, rfl⟩
  simp [vanishing, drawing]

theorem restless_of_background : backgroundDesktop.loop.Restless := by
  refine restless_of_run run_background ⟨telling .resumed, List.mem_append_left _ ?_, rfl⟩
  simp [appearing]

theorem draws_of_returned : ∃ x ∈ drawing, x.redraws := by
  have hrun : (desktop 0).Run (background ++ [polling .resume] ++ telling spun :: drawing ++
      telling .aboutToWait :: []) returnedDesktop := by
    rw [List.append_assoc background]
    exact run_returned
  exact (draws_of_run hrun).1 _ _ _ _ [] rfl
    (drawn_background.imp fun b hb => ⟨List.mem_append_left _ hb.1, hb.2⟩) ⟨_, rfl⟩ rfl rfl

theorem draws_before_window_of_returned : ∃ before x after, drawing = before ++ x :: after ∧
    x.redraws ∧ Winit.hasWindow
      ((background ++ polling .resume :: telling spun :: before).map Beat.moment) = false := by
  refine draws_before_window run_returned drawn_background rfl ⟨_, rfl⟩ (fun x hx => ?_) rfl rfl
  simp only [drawing, List.mem_cons, List.not_mem_nil, or_false] at hx
  rcases hx with rfl | rfl | rfl | rfl | rfl | rfl | rfl | rfl <;> exact nofun

end Returning

end LocalDesktop.Android.App
