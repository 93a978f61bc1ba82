/- GID: LocalDesktop/Android/Backend/Wayland/ConfigureMessages
   generality: G
   digest: What a client is told by the configures of its toplevels, in every run. -/

import LocalDesktop.Android.Backend.Wayland.ShellInvariant

/-!
The compositor suggests one thing only: that a toplevel is as large as the window
and activated. A request to be maximized or fullscreen is answered, but not granted.
-/

set_option autoImplicit false
set_option relaxedAutoImplicit false

namespace LocalDesktop.Android.Backend.Wayland.Shell

open Foundation.Transition Smithay Smithay.Surfaces

variable {s s' : Shell} {r : ShellRequest} {e : Step} {h : List Step} {x : Surface}
  {sizes : List Size} {state : ToplevelState} {a : XdgToplevelAttributes} {version : Nat}

/-- The sizes that the window has had, with the placeholder from before the first resume. -/
def sizesIn (h : List Step) : List Size :=
  build.size :: h.filterMap fun step =>
    match step with
    | .resumed size => some size
    | _ => none

/-- As large as the window and activated, or nothing at all. -/
def Plain (sizes : List Size) (state : ToplevelState) : Prop :=
  state.bounds = none ∧
    ((∃ size ∈ sizes, state.size = some size ∧ state.states.states = [.activated]) ∨
      (state.size = none ∧ state.states.states = []))

private theorem Plain.ofDefault : Plain sizes .default := ⟨rfl, .inr ⟨rfl, rfl⟩⟩

private theorem Plain.mono {sizes' : List Size} (hstate : Plain sizes state)
    (hsub : sizes ⊆ sizes') :
    Plain sizes' state := by
  obtain ⟨hbounds, ⟨size, hmem, hrest⟩ | hnone⟩ := hstate
  · exact ⟨hbounds, .inl ⟨size, hsub hmem, hrest⟩⟩
  · exact ⟨hbounds, .inr hnone⟩

private theorem Plain.activate {size : Size} (hstate : Plain sizes state) (hsize : size ∈ sizes) :
    Plain sizes { state with size := some size, states := state.states.set .activated } := by
  refine ⟨hstate.1, .inl ⟨size, hsize, rfl, ?_⟩⟩
  rcases hstate.2 with ⟨-, -, -, hone⟩ | ⟨-, hnone⟩
  · simp [ToplevelStateSet.set, hone]
  · simp [ToplevelStateSet.set, hnone]

private theorem holds_madeAttributes {size : Size}
    (hkept : ∀ b, s.roles.toplevels x = some b → b.role.Holds (Plain sizes)) (hsize : size ∈ sizes) :
    (madeAttributes size (s.roles.toplevels x)).role.Holds (Plain sizes) := by
  have hold : ((s.roles.toplevels x).getD .default).role.Holds (Plain sizes) := by
    cases hx : s.roles.toplevels x with
    | some b => exact hkept b hx
    | none => exact .ofDefault .ofDefault
  have hinitial : (initialAttributes (s.roles.toplevels x)).role.Holds (Plain sizes) :=
    ⟨hold.pending, hold.suggested, hold.acked, hold.current⟩
  exact hinitial.withPendingState fun state hstate => hstate.activate hsize

/-! The messages of a configure. -/

/-- First the bounds and the capabilities, if at all; then one size with its states; then the
serial. -/
def WellTold (sizes : List Size) (configure : Configure ToplevelState)
    (messages : List ToplevelMessage) : Prop :=
  ∃ opening width height states,
    messages = opening ++ [.configure width height states, .finish configure.serial] ∧
    (∀ message ∈ opening, message = .configureBounds 0 0 ∨
      message = .wmCapabilities configure.state.capabilities) ∧
    ((∃ size ∈ sizes, width = size.w ∧ height = size.h ∧ states = [.activated]) ∨
      (width = 0 ∧ height = 0 ∧ states = []))

private theorem wellTold_sendToplevelConfigure {configure : Configure ToplevelState}
    {sendBounds sendCapabilities : Bool} (hstate : Plain sizes configure.state)
    (hversion : 1 ≤ version) : WellTold sizes configure
      (sendToplevelConfigure version configure sendBounds sendCapabilities) := by
  refine ⟨_, _, _, _, rfl, fun message hmessage => ?_, ?_⟩
  · rw [hstate.1] at hmessage
    rcases List.mem_append.mp hmessage with hbounds | hcapabilities
    · split at hbounds
      · exact .inl (List.mem_singleton.mp hbounds)
      · cases hbounds
    · split at hcapabilities
      · exact .inr (List.mem_singleton.mp hcapabilities)
      · cases hcapabilities
  · rw [ToplevelStateSet.intoFilteredStates_eq hversion]
    rcases hstate.2 with ⟨size, hsize, hsome, hone⟩ | ⟨hnone, hempty⟩
    · refine .inl ⟨size, hsize, by rw [hsome]; rfl, by rw [hsome]; rfl, ?_⟩
      simp [hone, ToplevelStateSet.since, hversion]
    · exact .inr ⟨by rw [hnone]; rfl, by rw [hnone]; rfl, by simp [hempty]⟩

/-- Every configure tells what it should, and will do so. -/
structure Mannered (sizes : List Size) (s : Shell) : Prop where
  size : s.size ∈ sizes
  version : ∀ toplevel, 1 ≤ s.versions toplevel
  kept : ∀ x a, s.roles.toplevels x = some a → a.role.Holds (Plain sizes)
  told : ∀ x configure messages, .configured x configure messages ∈ s.events →
    WellTold sizes configure messages

namespace Mannered

private theorem mono {sizes' : List Size} (hs : s.Mannered sizes) (hsub : sizes ⊆ sizes') :
    s.Mannered sizes' := by
  refine ⟨hsub hs.size, hs.version, fun x a ha => (hs.kept x a ha).mono fun _ h => h.mono hsub,
    fun x configure messages hmem => ?_⟩
  obtain ⟨opening, width, height, states, hmessages, hopening, ⟨size, hsize, hrest⟩ | hnone⟩ :=
    hs.told x configure messages hmem
  · exact ⟨opening, width, height, states, hmessages, hopening, .inl ⟨size, hsub hsize, hrest⟩⟩
  · exact ⟨opening, width, height, states, hmessages, hopening, .inr hnone⟩

private theorem congr (hs : s.Mannered sizes) (hsize : s'.size = s.size)
    (hversions : s'.versions = s.versions) (hroles : s'.roles = s.roles)
    (hevents : s'.events = s.events) : s'.Mannered sizes where
  size := hsize ▸ hs.size
  version := hversions ▸ hs.version
  kept := hroles ▸ hs.kept
  told := hevents ▸ hs.told

private theorem tell {events : List ShellEvent} (hs : s.Mannered sizes)
    (hother : ∀ x configure messages, .configured x configure messages ∉ events) :
    (s.tell events).Mannered sizes := by
  refine ⟨hs.size, hs.version, hs.kept, fun x configure messages hmem => ?_⟩
  rcases List.mem_append.mp hmem with hold | hnew
  · exact hs.told x configure messages hold
  · exact absurd hnew (hother x configure messages)

private theorem setToplevel (hs : s.Mannered sizes) (ha : a.role.Holds (Plain sizes)) :
    Mannered sizes { s with roles := s.roles.setToplevel x a } :=
  ⟨hs.size, hs.version, ShellRoles.forall_setToplevel hs.kept ha, hs.told⟩

private theorem configure (hs : s.Mannered sizes) (ha : a.role.Holds (Plain sizes))
    (hversion : 1 ≤ version) : (s.configure version x a).Mannered sizes := by
  have hsent : (a.sendConfigure version (Serial.nextSerial s.counter).1).2.2.role.Holds
      (Plain sizes) := ha.sendConfigure (Serial.nextSerial s.counter).1
  have hset := hs.setToplevel (x := x) hsent
  refine ⟨hs.size, hs.version, hset.kept, fun y configure messages hmem => ?_⟩
  rw [configure_events] at hmem
  rcases List.mem_append.mp hmem with hold | hnew
  · exact hs.told y configure messages hold
  · cases List.mem_singleton.mp hnew
    refine wellTold_sendToplevelConfigure ?_ hversion
    have hstate : Plain sizes (a.role.sendConfigure (Serial.nextSerial s.counter).1).1.state := by
      rw [RoleAttributes.sendConfigure_state]
      exact ha.nextState
    exact hstate

private theorem request (hs : s.Mannered sizes) (hvalid : s.Valid r) (hr : s.request r = some s') :
    s'.Mannered sizes := by
  cases effect_of_request hr hvalid with
  | @made toplevel version x surfaces hrole =>
    refine configure ?_ (holds_madeAttributes (hs.kept x) hs.size) hvalid.2
    refine ⟨hs.size, fun other => ?_, hs.kept, hs.told⟩
    show 1 ≤ Function.update s.versions toplevel version other
    rw [Function.update_apply]
    split
    · exact hvalid.2
    · exact hs.version other
  | sent hsent hx ha => exact hs.configure (hs.kept _ _ ha) (hs.version _)
  | invalidParent | refused => exact hs.tell (by simp)
  | commit world x =>
    exact ⟨hs.size, hs.version, forall_hooked hs.kept fun _ _ _ hrole => hrole.commitHook, hs.told⟩
  | destroyed hx ha =>
    have hdefault : XdgToplevelAttributes.default.role.Holds (Plain sizes) := .ofDefault .ofDefault
    exact (hs.setToplevel hdefault).congr rfl rfl rfl rfl
  | @parented toplevel object x parent a hx hparent hok ha =>
    have hkept := hs.kept x a ha
    refine hs.setToplevel ?_
    exact hkept
  | acked ha hack =>
    refine hs.setToplevel ?_
    exact (hs.kept _ _ ha).ackConfigure hack
  | surface | unmade | noPopup => exact hs.congr rfl rfl rfl rfl
  | popup | popupDestroyed | popupAcked => exact ⟨hs.size, hs.version, hs.kept, hs.told⟩

private theorem step (hs : s.Mannered (sizesIn h)) (hstep : system.step s e s') :
    s'.Mannered (sizesIn (h ++ [e])) := by
  have hsub : sizesIn h ⊆ sizesIn (h ++ [e]) := by
    rw [sizesIn, sizesIn, List.filterMap_append]
    exact List.cons_subset_cons _ (List.subset_append_left _ _)
  have hs := hs.mono hsub
  cases e with
  | connect client | frames elapsed =>
    cases hstep
    exact hs.congr rfl rfl rfl rfl
  | request r => exact hs.request hstep.1 hstep.2
  | resumed size =>
    cases hstep
    refine ⟨?_, hs.version, hs.kept, hs.told⟩
    simp [sizesIn]
  | input =>
    cases hstep
    refine tell ?_ (by simp)
    exact hs.congr rfl rfl rfl rfl

private theorem of_run (hrun : system.Run h s) : s.Mannered (sizesIn h) := by
  have hstart : build.Mannered (sizesIn []) :=
    ⟨List.mem_cons_self, fun _ => le_rfl, fun x a ha => (by cases ha),
      fun x configure messages hmem => (by cases hmem)⟩
  exact hrun.invariant (I := fun h s => s.Mannered (sizesIn h)) hstart
    fun _ _ _ _ _ hs hstep => hs.step hstep

end Mannered

/-- Every configure of every run tells its client one size with its states, last of all but the
serial: that of the window, activated, or none. A request to be maximized or fullscreen is answered
by such a configure too. -/
theorem told_of_run (hrun : system.Run h s) :
    (∀ x configure messages, .configured x configure messages ∈ s.events →
      WellTold (sizesIn h) configure messages) ∧
    ∀ toplevel r, s.Valid r → r = .setMaximized toplevel ∨ r = .setFullscreen toplevel →
      ∃ x s' configure messages, surfaceOf s.base.knownToplevels toplevel = some x ∧
        s.request r = some s' ∧ s'.events = s.events ++ [.configured x configure messages] ∧
        WellTold (sizesIn h) configure messages := by
  have hmannered := Mannered.of_run hrun
  refine ⟨hmannered.told, fun toplevel r hvalid hasked => ?_⟩
  have hknown : ∃ known ∈ s.base.knownToplevels, known.1 = toplevel := by
    rcases hasked with rfl | rfl <;> exact hvalid
  obtain ⟨x, a, hx, ha⟩ := (Invariant.of_run hrun).toplevel_isSome hknown
  have hrequest : s.request r = some (s.configure (s.versions toplevel) x a) := by
    rcases hasked with rfl | rfl <;> simp [request, hx, sendConfigure_eq ha]
  refine ⟨x, _, _, _, hx, hrequest, configure_events, ?_⟩
  exact (hmannered.request hvalid hrequest).told x _ _
    (by rw [configure_events]; exact List.mem_append_right _ (List.mem_singleton.mpr rfl))

theorem told_of_family :
    WellTold (sizesIn familyHistory) ((madeAttributes single.size none).sendConfigure 6 2).1
        ((madeAttributes single.size none).sendConfigure 6 2).2.1 ∧
      ∃ x s' configure messages, surfaceOf family.base.knownToplevels 1 = some x ∧
        family.request (.setMaximized 1) = some s' ∧
        s'.events = family.events ++ [.configured x configure messages] ∧
        WellTold (sizesIn familyHistory) configure messages :=
  ⟨(told_of_run run_family).1 1 _ _ (.tail _ (.head _)),
    (told_of_run run_family).2 1 _ ⟨(1, 1), .tail _ (.head _), rfl⟩ (.inl rfl)⟩

end LocalDesktop.Android.Backend.Wayland.Shell
