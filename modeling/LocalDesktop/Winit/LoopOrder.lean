/- GID: LocalDesktop/Winit/LoopOrder
   generality: G
   digest: The order of the events that the event loop calls its handler with. -/

import LocalDesktop.Winit.LoopRuns
import Mathlib.Data.List.Chain

set_option autoImplicit false
set_option relaxedAutoImplicit false

namespace LocalDesktop.Winit

open Foundation.Transition Android.Backend.Wayland EventLoop

variable {α : Type} {ignoreVolumeKeys : Bool} {s s' : EventLoop α} {a : Act α}
  {delivered : Option (Event α)} {h : List (Moment α)} {heard : List (Event α)} {e : Event α}
  {n : Nat} {last : Option (Event α)}

/-- The part of an iteration that an event belongs to; the last ones belong to none. -/
def Event.part : Event α → Nat
  | .newEvents _ => 0
  | .resumed | .suspended | .memoryWarning => 1
  | .windowEvent event => match event with
    | .focused _ | .scaleFactorChanged _ => 1
    | .keyboardInput _ _ | .cursorMoved _ | .mouseWheel _ | .mouseInput _ _ | .touch _ _ _ => 2
    | .resized _ => 4
    | .redrawRequested => 5
    | .closeRequested | .unhandled => 7
  | .userEvent _ => 3
  | .aboutToWait => 6
  | .loopExiting => 7

/-- What may come after an event: only input events and user events come more than once. -/
def Next : Event α → Event α → Prop
  | .aboutToWait, e => e = .loopExiting ∨ ∃ cause, cause ≠ .init ∧ e = .newEvents cause
  | .loopExiting, _ => False
  | e, e' => e'.part ≤ 6 ∧ (e.part < e'.part ∨ e.part = e'.part ∧ (e.part = 2 ∨ e.part = 3))

/-- The iteration has come to a part of its own. -/
def Within (n : Nat) (last : Option (Event α)) : Prop := ∃ e, last = some e ∧ e.part ≤ n

/-- The last event that the handler has heard of when the loop is in a place. -/
def After (cause : StartCause) (loopRunning : Bool) (last : Option (Event α)) : Place → Prop
  | .newEvents _ => (last = none ∧ cause = .init) ∨ (last = some .aboutToWait ∧ cause ≠ .init)
  | .mainEvent _ => Within 0 last
  | .inputEvents _ => Within 2 last
  | .userEvents | .resized => Within 3 last
  | .redraw => Within 4 last
  | .aboutToWait => Within 5 last
  | .pumpEvents => if loopRunning then last = some .aboutToWait else last = none
  | .ended => last = some .loopExiting
  | .iterated | .timeout | .asleep _ _ | .woken _ | .recheck _ => last = some .aboutToWait

structure Ordered (heard : List (Event α)) (s : EventLoop α) : Prop where
  chain : heard.IsChain Next
  head : ∀ e, heard.head? = some e → e = .newEvents .init
  last : After s.cause s.loopRunning heard.getLast? s.place

private theorem Within.mono {k : Nat} (hlast : Within n last) (hle : n ≤ k) : Within k last := by
  obtain ⟨e, hsome, hpart⟩ := hlast
  exact ⟨e, hsome, hpart.trans hle⟩

private theorem Within.next {x : Event α} (hlast : Within n (some x)) (hfive : n ≤ 5)
    (hsix : e.part ≤ 6)
    (hpart : n < e.part ∨ n ≤ e.part ∧ (e.part = 2 ∨ e.part = 3)) : Next x e := by
  obtain ⟨y, ⟨⟩, hle⟩ := hlast
  have hrank : x.part < e.part ∨ x.part = e.part ∧ (x.part = 2 ∨ x.part = 3) := by omega
  cases x with
  | aboutToWait =>
    change 6 ≤ n at hle
    omega
  | loopExiting =>
    change 7 ≤ n at hle
    omega
  | _ => exact ⟨hsix, hrank⟩

private theorem part_main (he : e.isMain = true) : e.part = 1 := by
  cases e with
  | windowEvent event => cases event <;> first | rfl | cases he
  | resumed | suspended | memoryWarning => rfl
  | _ => cases he

private theorem part_input {event : WindowEvent} (he : isInput event = true) :
    (Event.windowEvent event : Event α).part = 2 := by
  cases event <;> first | rfl | cases he

private theorem Ordered.hear (hs : Ordered heard s)
    (hnext : ∀ x, heard.getLast? = some x → Next x e)
    (hfirst : heard = [] → e = .newEvents .init)
    (hlast : After s'.cause s'.loopRunning (some e) s'.place) :
    Ordered (heard ++ (some e).toList) s' := by
  rw [Option.toList_some]
  refine ⟨?_, fun e' he' => ?_, by rwa [List.getLast?_concat]⟩
  · refine List.isChain_append.mpr ⟨hs.chain, List.isChain_singleton e, ?_⟩
    rintro x hx y ⟨⟩
    exact hnext x hx
  · cases heard with
    | nil =>
      cases he'
      exact hfirst rfl
    | cons x xs => exact hs.head e' he'

private theorem Ordered.hear_within (hs : Ordered heard s) (hwithin : Within n heard.getLast?)
    (hfive : n ≤ 5) (hsix : e.part ≤ 6)
    (hpart : n < e.part ∨ n ≤ e.part ∧ (e.part = 2 ∨ e.part = 3))
    (hlast : After s'.cause s'.loopRunning (some e) s'.place) :
    Ordered (heard ++ (some e).toList) s' := by
  refine hs.hear (fun x hx => ?_) (fun hnil => ?_) hlast
  · rw [hx] at hwithin
    exact hwithin.next hfive hsix hpart
  · obtain ⟨x, hx, -⟩ := hwithin
    rw [hnil] at hx
    cases hx

private theorem Ordered.quiet (hs : Ordered heard s)
    (hlast : After s'.cause s'.loopRunning heard.getLast? s'.place) :
    Ordered (heard ++ (none : Option (Event α)).toList) s' := by
  rw [Option.toList_none, List.append_nil]
  exact ⟨hs.chain, hs.head, hlast⟩

private theorem Ordered.turn (hregular : Regular s) (hs : Ordered heard s)
    (hturn : Turn s a s' delivered) : Ordered (heard ++ delivered.toList) s' := by
  have hlast := hs.last
  cases hturn with
  | requestRedraw | requestAgain | sendEvent | callWaker | handled => exact hs.quiet hlast
  | ask request =>
    cases request with
    | requestRedraw =>
      simp only [EventLoop.ask]
      split <;> exact hs.quiet hlast
    | _ => exact hs.quiet hlast
  | begin hplace hloop =>
    simp only [hplace, After, hloop] at hlast
    exact hs.quiet (.inl ⟨hlast, rfl⟩)
  | pump hplace hloop =>
    simp only [hplace, After, hloop] at hlast
    exact hs.quiet hlast
  | poll hplace _ hcause | recheck hplace _ hcause =>
    rw [hplace] at hlast
    exact hs.quiet (.inr ⟨hlast, hcause⟩)
  | newEvents hplace =>
    rw [hplace] at hlast
    refine hs.hear (fun x hx => ?_) (fun hnil => ?_) ⟨_, rfl, le_rfl⟩
    · rcases hlast with ⟨hnone, -⟩ | ⟨hsome, hcause⟩
      · rw [hnone] at hx
        cases hx
      · rw [hsome] at hx
        cases hx
        exact .inr ⟨_, hcause, rfl⟩
    · rcases hlast with ⟨-, hcause⟩ | ⟨hsome, -⟩
      · rw [hcause]
      · rw [hnil] at hsome
        cases hsome
  | mainEvent hplace hmain =>
    rw [hplace] at hlast
    cases delivered with
    | none => exact hs.quiet (Within.mono hlast (by omega))
    | some e =>
      have hone := part_main (hmain e rfl)
      exact hs.hear_within hlast (by omega) (by omega) (by omega) ⟨e, rfl, by omega⟩
  | noMainEvent hplace =>
    rw [hplace] at hlast
    exact hs.quiet (Within.mono hlast (by omega))
  | inputEvent hplace =>
    have htwo := part_input (α := α) (hregular.input _ hplace _ List.mem_cons_self)
    rw [hplace] at hlast
    exact hs.hear_within hlast (by omega) (by omega) (by omega) ⟨_, rfl, by omega⟩
  | read _ hplace =>
    rw [hplace] at hlast
    exact hs.quiet hlast
  | readNone hplace =>
    rw [hplace] at hlast
    exact hs.quiet (Within.mono hlast (by omega))
  | userEvent hplace =>
    rw [hplace] at hlast
    exact hs.hear_within hlast (by omega) (by simp [Event.part]) (by simp [Event.part])
      ⟨_, rfl, le_rfl⟩
  | noUserEvent hplace =>
    rw [hplace] at hlast
    exact hs.quiet hlast
  | resized hplace =>
    rw [hplace] at hlast
    exact hs.hear_within hlast (by omega) (by simp [Event.part]) (by simp [Event.part])
      ⟨_, rfl, le_rfl⟩
  | notResized hplace =>
    rw [hplace] at hlast
    exact hs.quiet (Within.mono hlast (by omega))
  | redraw hplace =>
    rw [hplace] at hlast
    exact hs.hear_within hlast (by omega) (by simp [Event.part]) (by simp [Event.part])
      ⟨_, rfl, le_rfl⟩
  | noRedraw hplace | paused hplace =>
    rw [hplace] at hlast
    exact hs.quiet (Within.mono hlast (by omega))
  | aboutToWait hplace =>
    rw [hplace] at hlast
    exact hs.hear_within hlast (by omega) (by simp [Event.part]) (by simp [Event.part]) rfl
  | leave hplace =>
    rw [hplace] at hlast
    change heard.getLast? = some .aboutToWait at hlast
    refine hs.hear (fun x hx => ?_) (fun hnil => ?_) rfl
    · rw [hlast] at hx
      cases hx
      exact .inl rfl
    · rw [hnil] at hlast
      cases hlast
  | again hplace =>
    rw [hplace] at hlast
    have hrunning : s.loopRunning = true := by
      by_contra hfalse
      rcases hregular.begun (Bool.eq_false_iff.mpr hfalse) with ⟨hpump, -⟩ | hended
      · rw [hplace] at hpump
        cases hpump
      · rw [hplace] at hended
        cases hended
    refine hs.quiet ?_
    simp only [After, hrunning]
    exact hlast
  | wake hplace | sleep hplace | woken hplace | ignore hplace =>
    rw [hplace] at hlast
    exact hs.quiet hlast

/-! The end of the loop. -/

def EventLoop.Act.exits : Act α → Bool
  | .ask .exit => true
  | _ => false

def asked (h : List (Moment α)) : Bool := h.any fun m => m.act.exits

private theorem exit_turn (hturn : Turn s a s' delivered) : s'.exit = (s.exit || a.exits) := by
  cases hturn with
  | ask request =>
    cases request with
    | requestRedraw =>
      simp only [EventLoop.ask]
      split <;> exact (Bool.or_false _).symm
    | exit => exact (Bool.or_true _).symm
    | _ => exact (Bool.or_false _).symm
  | _ => exact (Bool.or_false _).symm

private theorem exit_of_run (hrun : (system α ignoreVolumeKeys).Run h s) : s.exit = asked h := by
  refine hrun.invariant (I := fun h s => s.exit = asked h) rfl ?_
  intro h t m u _ ht hstep
  rw [exit_turn (turn_of_act hstep), asked, List.any_append, ht]
  simp [asked]

private theorem exit_of_loopExiting (hturn : Turn s a s' (some .loopExiting)) : s.exit = true := by
  cases hturn with
  | mainEvent _ hmain => exact absurd (hmain _ rfl) Bool.false_ne_true
  | leave _ hexit => exact hexit

/-- The handler hears of one iteration after the other, each with its parts in order, and of the
end of the loop last: it comes after the first iteration in which the handler asks for it. -/
theorem order_of_run (hrun : (system α ignoreVolumeKeys).Run h s) :
    (observed Moment.delivered h).IsChain Next ∧
    (∀ e, (observed Moment.delivered h).head? = some e → e = .newEvents .init) ∧
    ∀ pre m post, h = pre ++ m :: post →
      ((∃ cause, m.delivered = some (.newEvents cause)) → asked pre = false) ∧
      (m.delivered = some .loopExiting → asked pre = true) := by
  have hordered : Ordered (observed Moment.delivered h) s := by
    refine hrun.invariant (I := fun h s => Ordered (observed Moment.delivered h) s)
      ⟨List.isChain_nil, nofun, rfl⟩ ?_
    intro h t m u hpath ht hstep
    rw [observed_snoc]
    exact ht.turn (.of_run hpath) (turn_of_act hstep)
  refine ⟨hordered.chain, hordered.head, ?_⟩
  rintro pre m post rfl
  obtain ⟨t, u, hpre, hstep, -⟩ := Path.at_event hrun
  have hturn := turn_of_act hstep
  rw [← exit_of_run hpre]
  constructor
  · rintro ⟨cause, hnew⟩
    rw [hnew] at hturn
    obtain ⟨main, hplace⟩ := place_of_newEvents hturn
    by_contra hexit
    have hbusy := (Quiet.of_run hpre).exit (Bool.not_eq_false _ ▸ hexit)
    rw [hplace] at hbusy
    cases hbusy
  · intro hexiting
    rw [hexiting] at hturn
    exact exit_of_loopExiting hturn

theorem order_of_drawn : (observed Moment.delivered drawn).IsChain Next ∧
    (∀ e, (observed Moment.delivered drawn).head? = some e → e = .newEvents .init) ∧
    ∀ pre m post, drawn = pre ++ m :: post →
      ((∃ cause, m.delivered = some (.newEvents cause)) → asked pre = false) ∧
      (m.delivered = some .loopExiting → asked pre = true) :=
  order_of_run run_drawn

end LocalDesktop.Winit
