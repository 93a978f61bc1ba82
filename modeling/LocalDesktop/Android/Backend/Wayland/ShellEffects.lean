/- GID: LocalDesktop/Android/Backend/Wayland/ShellEffects
   generality: G
   digest: All that a request can do to the shell, and what keeps it from a panic. -/

import LocalDesktop.Android.Backend.Wayland.Shell
import LocalDesktop.Android.Backend.Wayland.Toplevels

set_option autoImplicit false
set_option relaxedAutoImplicit false

namespace LocalDesktop.Android.Backend.Wayland.Shell

open Foundation.Forest Foundation.Transition Smithay Smithay.Surfaces

variable {s s' : Shell} {r : ShellRequest} {x surface : Surface} {toplevel : Nat}

def madeAttributes (size : Size) (attributes : Option XdgToplevelAttributes) :
    XdgToplevelAttributes :=
  let attributes := initialAttributes attributes
  { attributes with role := attributes.role.withPendingState fun state =>
    { state with size := some size, states := state.states.set .activated } }

def configure (s : Shell) (version : Nat) (surface : Surface) (attributes : XdgToplevelAttributes) :
    Shell :=
  let (serial, counter) := Serial.nextSerial s.counter
  let (configure, messages, attributes) := attributes.sendConfigure version serial
  { s with
    counter := counter
    roles := s.roles.setToplevel surface attributes }.tell
      [.configured surface configure messages]

section Configure

variable {version : Nat} {attributes : XdgToplevelAttributes}

@[simp] theorem configure_base : (s.configure version surface attributes).base = s.base := rfl
@[simp] theorem configure_counter :
    (s.configure version surface attributes).counter = (Serial.nextSerial s.counter).2 := rfl
@[simp] theorem configure_roles : (s.configure version surface attributes).roles =
    s.roles.setToplevel surface
      (attributes.sendConfigure version (Serial.nextSerial s.counter).1).2.2 := rfl
@[simp] theorem configure_events : (s.configure version surface attributes).events = s.events ++
    [.configured surface (attributes.sendConfigure version (Serial.nextSerial s.counter).1).1
      (attributes.sendConfigure version (Serial.nextSerial s.counter).1).2.1] := rfl

end Configure

theorem sendConfigure_eq {attributes : XdgToplevelAttributes}
    (ha : s.roles.toplevels surface = some attributes) :
    s.sendConfigure toplevel surface =
      some (s.configure (s.versions toplevel) surface attributes) := by
  simp only [sendConfigure, ha, Option.map_some, configure]

def hooked (s : Shell) (world : World) (x : Surface) : ShellRoles :=
  (commitWith (fun y hasBuffer r => r.invokePostCommitHooks y hasBuffer) world
    (s.base.state.setClientScale x) x s.roles).2

theorem forall_hooked {P : Surface → RoleAttributes ToplevelState → Prop} {world : World}
    (hr : ∀ y a, s.roles.toplevels y = some a → P y a.role)
    (hhook : ∀ y role hasBuffer, P y role → P y (role.commitHook hasBuffer)) :
    ∀ y a, (s.hooked world x).toplevels y = some a → P y a.role := by
  refine snd_commitWith_kept (I := fun r : ShellRoles => ∀ y a, r.toplevels y = some a →
    P y a.role) (fun y hasBuffer r hkept z b hb => ?_) hr
  rw [ShellRoles.toplevels_invokePostCommitHooks] at hb
  split at hb
  next hz =>
    obtain ⟨a, ha, rfl⟩ := Option.map_eq_some_iff.mp hb
    subst hz
    exact hhook z a.role hasBuffer (hkept z a ha)
  · exact hkept z b hb

/-- What is left of a request, case by case. -/
inductive Effect (s : Shell) : ShellRequest → Shell → Prop
  | surface {world : World} {request : Request} {base : Compositor}
      (hcommit : ∀ x, request ≠ .commit x)
      (hbase : s.base.clientRequest (.surface world request) = some base) :
      Effect s (.surface world request) { s with base := base }
  | commit (world : World) (x : Surface) :
      Effect s (.surface world (.commit x))
        { s with
          base := { s.base with
            state := Surfaces.commit world (s.base.state.setClientScale x) x }
          roles := s.hooked world x }
  | made {toplevel version : Nat} {x : Surface} {surfaces : Surfaces}
      (hrole : s.base.state.setRole x .xdgToplevel = some surfaces) :
      Effect s (.getToplevel toplevel version x)
        (configure
          { s with
            base := { s.base with
              state := surfaces
              knownToplevels := s.base.knownToplevels ++ [(toplevel, x)] }
            versions := Function.update s.versions toplevel version }
          version x (madeAttributes s.size (s.roles.toplevels x)))
  | unmade {toplevel version : Nat} {x : Surface}
      (hrole : s.base.state.setRole x .xdgToplevel = none) :
      Effect s (.getToplevel toplevel version x)
        { s with base :=
          { s.base with state := s.base.state.send [.error x .alreadyHasRole] } }
  | destroyed {toplevel : Nat} {x : Surface} {a : XdgToplevelAttributes}
      (hx : surfaceOf s.base.knownToplevels toplevel = some x)
      (ha : s.roles.toplevels x = some a) :
      Effect s (.destroyToplevel toplevel)
        { s with
          base := { s.base with
            knownToplevels :=
              s.base.knownToplevels.eraseP fun known => decide (known.1 = toplevel) }
          roles := s.roles.setToplevel x .default }
  | sent {r : ShellRequest} {toplevel : Nat} {x : Surface} {a : XdgToplevelAttributes}
      (hr : r = .setMaximized toplevel ∨ r = .setFullscreen toplevel)
      (hx : surfaceOf s.base.knownToplevels toplevel = some x)
      (ha : s.roles.toplevels x = some a) :
      Effect s r (s.configure (s.versions toplevel) x a)
  | parented {toplevel : Nat} {object : Option Nat} {x : Surface} {parent : Option Surface}
      {a : XdgToplevelAttributes} (hx : surfaceOf s.base.knownToplevels toplevel = some x)
      (hparent : parent = object.bind (surfaceOf s.base.knownToplevels))
      (hvalid : ∀ p, parent = some p →
        isValidParent s.base.state s.roles s.fuel x p = some true)
      (ha : s.roles.toplevels x = some a) :
      Effect s (.setParent toplevel object)
        { s with roles := s.roles.setToplevel x { a with parent := parent } }
  | invalidParent {toplevel : Nat} {object : Option Nat} {x : Surface} :
      Effect s (.setParent toplevel object) (s.tell [.error x .invalidParent])
  | popup {popup : Nat} {x : Surface} {parent : Option Surface} {state : PopupState}
      {surfaces : Surfaces} (hrole : s.base.state.setRole x .xdgPopup = some surfaces) :
      Effect s (.getPopup popup x parent state)
        { s with
          base := { s.base with state := surfaces }
          roles := s.roles.setPopup x
            ⟨{ RoleAttributes.default PopupState.default with serverPending := some state },
              parent, false⟩
          knownPopups := s.knownPopups ++ [(popup, x)] }
  | noPopup {popup : Nat} {x : Surface} {parent : Option Surface} {state : PopupState}
      (hrole : s.base.state.setRole x .xdgPopup = none) :
      Effect s (.getPopup popup x parent state)
        { s with base :=
          { s.base with state := s.base.state.send [.error x .alreadyHasRole] } }
  | popupDestroyed {popup : Nat} {x : Surface} {a : XdgPopupAttributes}
      (ha : s.roles.popups x = some a) :
      Effect s (.destroyPopup popup)
        { s with
          roles := s.roles.setPopup x .default
          knownPopups := s.knownPopups.eraseP fun known => decide (known.1 = popup) }
  | acked {x : Surface} {serial : Nat} {a : XdgToplevelAttributes}
      {role : RoleAttributes ToplevelState} (ha : s.roles.toplevels x = some a)
      (hack : a.role.ackConfigure serial = some role) :
      Effect s (.ackConfigure x serial)
        { s with roles := s.roles.setToplevel x { a with role := role } }
  | popupAcked {x : Surface} {serial : Nat} {a : XdgPopupAttributes}
      {role : RoleAttributes PopupState} (ha : s.roles.popups x = some a)
      (hack : a.role.ackConfigure serial = some role) :
      Effect s (.ackConfigure x serial)
        { s with roles := s.roles.setPopup x { a with role := role } }
  | refused {x : Surface} {serial : Nat} (error : ShellError) :
      Effect s (.ackConfigure x serial) (s.tell [.error x error])

theorem exists_surfaceOf {known : List (Nat × Surface)} {object : Nat}
    (hmem : ∃ k ∈ known, k.1 = object) : ∃ k ∈ known, surfaceOf known object = some k.2 := by
  obtain ⟨k, hk, rfl⟩ := hmem
  have hsome : (known.find? fun other => decide (other.1 = k.1)).isSome := by
    rw [List.find?_isSome]
    exact ⟨k, hk, by simp⟩
  obtain ⟨found, hfound⟩ := Option.isSome_iff_exists.mp hsome
  exact ⟨found, List.mem_of_find?_eq_some hfound, by rw [surfaceOf, hfound]; rfl⟩

theorem getToplevel_eq {version : Nat} : s.getToplevel toplevel version x =
    match s.base.state.setRole x .xdgToplevel with
    | some surfaces => some (configure
        { s with
          base := { s.base with
            state := surfaces
            knownToplevels := s.base.knownToplevels ++ [(toplevel, x)] }
          versions := Function.update s.versions toplevel version }
        version x (madeAttributes s.size (s.roles.toplevels x)))
    | none => some { s with base :=
        { s.base with state := s.base.state.send [.error x .alreadyHasRole] } } := by
  cases hrole : s.base.state.setRole x .xdgToplevel with
  | none =>
    have hbase : s.base.clientRequest (.getToplevel toplevel x) =
        some { s.base with state := s.base.state.send [.error x .alreadyHasRole] } := by
      simp [Compositor.clientRequest, hrole]
    simp [getToplevel, hbase, hrole]
  | some surfaces =>
    have hbase : s.base.clientRequest (.getToplevel toplevel x) =
        some { s.base with
          state := surfaces
          knownToplevels := s.base.knownToplevels ++ [(toplevel, x)] } := by
      simp [Compositor.clientRequest, hrole]
    simp only [getToplevel, hbase, hrole, Option.bind_eq_bind, Option.bind_some, Option.isSome_some,
      if_true, newToplevel, ShellRoles.setToplevel, Function.update_self, Function.update_idem,
      sendConfigure, Option.map_some]
    rfl

theorem request_commit {world : World} : s.request (.surface world (.commit x)) = some
    { s with
      base := { s.base with state := Surfaces.commit world (s.base.state.setClientScale x) x }
      roles := s.hooked world x } := by
  simp only [request, surfaceRequest, fst_commitWith, hooked]

theorem effect_of_request (hr : s.request r = some s') (hvalid : s.Valid r) : Effect s r s' := by
  cases r with
  | surface world request =>
    by_cases hcommit : ∃ x, request = .commit x
    · obtain ⟨x, rfl⟩ := hcommit
      rw [request_commit] at hr
      cases hr
      exact .commit world x
    · have hother : ∀ x, request ≠ .commit x := fun x hx => hcommit ⟨x, hx⟩
      have hmap : (s.base.clientRequest (.surface world request)).map
          (fun base => { s with base := base }) = some s' := by
        cases request with
        | commit x => exact absurd rfl (hother x)
        | _ => exact hr
      obtain ⟨base, hbase, rfl⟩ := Option.map_eq_some_iff.mp hmap
      exact .surface hother hbase
  | getToplevel toplevel version x =>
    have hget : s.getToplevel toplevel version x = some s' := hr
    rw [getToplevel_eq] at hget
    split at hget
    next surfaces hrole =>
      cases hget
      exact .made hrole
    next hrole =>
      cases hget
      exact .unmade hrole
  | destroyToplevel toplevel =>
    obtain ⟨k, -, hx⟩ := exists_surfaceOf hvalid
    have hmap : s.destroyToplevel toplevel = some s' := hr
    simp only [destroyToplevel, Compositor.clientRequest, Option.bind_eq_bind, Option.bind_some,
      hx] at hmap
    obtain ⟨a, ha, rfl⟩ := Option.map_eq_some_iff.mp hmap
    exact .destroyed hx ha
  | setMaximized toplevel =>
    obtain ⟨x, hx, hsend⟩ := Option.bind_eq_some_iff.mp hr
    obtain ⟨a, ha, -⟩ := Option.map_eq_some_iff.mp hsend
    rw [sendConfigure_eq ha] at hsend
    cases hsend
    exact .sent (.inl rfl) hx ha
  | setFullscreen toplevel =>
    obtain ⟨x, hx, hsend⟩ := Option.bind_eq_some_iff.mp hr
    obtain ⟨a, ha, -⟩ := Option.map_eq_some_iff.mp hsend
    rw [sendConfigure_eq ha] at hsend
    cases hsend
    exact .sent (.inr rfl) hx ha
  | setParent toplevel object =>
    obtain ⟨x, hx, hset⟩ := Option.bind_eq_some_iff.mp hr
    obtain ⟨valid, hcheck, hset⟩ := Option.bind_eq_some_iff.mp hset
    split at hset
    next hok =>
      obtain ⟨a, ha, rfl⟩ := Option.map_eq_some_iff.mp hset
      refine .parented hx rfl (fun p hp => ?_) ha
      rw [hp] at hcheck
      exact hcheck.trans (congrArg some hok)
    · cases hset
      exact .invalidParent
  | getPopup popup x parent state =>
    cases hr
    rw [getPopup]
    split
    next surfaces hrole => exact .popup hrole
    next hrole => exact .noPopup hrole
  | destroyPopup popup =>
    obtain ⟨k, -, hx⟩ := exists_surfaceOf hvalid
    have hmap : s.destroyPopup popup = some s' := hr
    simp only [destroyPopup, hx] at hmap
    obtain ⟨a, ha, rfl⟩ := Option.map_eq_some_iff.mp hmap
    exact .popupDestroyed ha
  | ackConfigure x serial =>
    have hack : s.ackConfigure x serial = some s' := hr
    rw [ackConfigure] at hack
    split at hack
    · cases hack
      exact .refused _
    · obtain ⟨a, ha, rfl⟩ := Option.map_eq_some_iff.mp hack
      split
      next role hrole => exact .acked ha hrole
      · exact .refused _
    · obtain ⟨a, ha, rfl⟩ := Option.map_eq_some_iff.mp hack
      split
      next role hrole => exact .popupAcked ha hrole
      · exact .refused _
    · cases hack
      exact .refused _

end LocalDesktop.Android.Backend.Wayland.Shell
