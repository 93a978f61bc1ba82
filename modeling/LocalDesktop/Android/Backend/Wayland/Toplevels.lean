/- GID: LocalDesktop/Android/Backend/Wayland/Toplevels
   generality: G
   digest: The surfaces of the toplevels are the roots of their trees, in every run. -/

import LocalDesktop.Android.Backend.Wayland.Redraw

set_option autoImplicit false
set_option relaxedAutoImplicit false

namespace LocalDesktop.Android.Backend.Wayland.Compositor

open Foundation.Forest Foundation.Transition Smithay Smithay.Surfaces

variable {c c' : Compositor} {h : List Turn} {requests : List ClientRequest}
  {request : ClientRequest} {root : Surface}

/-- The surfaces of the toplevels have their role for good, and only subsurfaces have a flag. -/
structure Roles (c : Compositor) : Prop where
  toplevel : ∀ known ∈ c.knownToplevels, known.2 < c.state.created ∧
    (c.state.data known.2).role = some .xdgToplevel
  flag : ∀ x, (c.state.data x).sync ≠ none → (c.state.data x).role = some .subsurface

private theorem Roles.kept {known : List (Nat × Surface)} {s : Surfaces} {given : Option Role}
    (hroles : c.Roles) (hkept : RolesKept given c.state s) (hcreated : c.state.created ≤ s.created)
    (hknown : ∀ k ∈ known, k ∈ c.knownToplevels ∨
      k.2 < s.created ∧ (s.data k.2).role = some .xdgToplevel) :
    Roles { c with state := s, knownToplevels := known } := by
  refine ⟨fun k hmem => ?_, fun x hflag => ?_⟩
  · rcases hknown k hmem with hold | hnew
    · obtain ⟨hlt, hrole⟩ := hroles.toplevel k hold
      exact ⟨hlt.trans_le hcreated, (hkept k.2).1 _ hrole⟩
    · exact hnew
  · obtain ⟨hrole, hsync, -⟩ := hkept x
    exact (hsync hflag).elim (fun hbefore => hrole _ (hroles.flag x hbefore)) id

private theorem Roles.createSurface {client : Client} {version : Nat} (hroles : c.Roles) :
    Roles { c with state := c.state.createSurface client version } := by
  have hother : ∀ x, x ≠ c.state.created →
      (c.state.createSurface client version).data x = c.state.data x := fun x hx =>
    Function.update_of_ne hx _ _
  refine ⟨fun known hmem => ?_, fun x hflag => ?_⟩
  · obtain ⟨hlt, hrole⟩ := hroles.toplevel known hmem
    exact ⟨hlt.trans (Nat.lt_succ_self _), (hother known.2 hlt.ne) ▸ hrole⟩
  · by_cases hx : x = c.state.created
    · subst hx
      simp [Surfaces.createSurface, PrivateSurfaceData.new] at hflag
    · have hsame := hother x hx
      exact hsame ▸ hroles.flag x (hsame ▸ hflag)

theorem Roles.clientRequest (hroles : c.Roles) (hvalid : c.Valid request)
    (hr : c.clientRequest request = some c') : c'.Roles := by
  cases request with
  | surface world r =>
    obtain ⟨s, hs, rfl⟩ := Option.map_eq_some_iff.mp hr
    by_cases hcreate : ∃ client version, r = .createSurface client version
    · obtain ⟨client, version, rfl⟩ := hcreate
      cases hs
      exact hroles.createSurface
    · exact hroles.kept (.request hs fun client version h => hcreate ⟨client, version, h⟩)
        (Invariant.created_le_request hs) fun _ => .inl
  | getToplevel toplevel surface =>
    simp only [Compositor.clientRequest] at hr
    cases hset : c.state.setRole surface .xdgToplevel with
    | none =>
      rw [hset] at hr
      cases hr
      have hkept : RolesKept none c.state (c.state.send [.error surface .alreadyHasRole]) :=
        .of_shape shape_send
      exact hroles.kept hkept le_rfl fun _ => .inl
    | some s =>
      rw [hset] at hr
      cases hr
      have hkept := RolesKept.setRole hset
      have hs : s = c.state.modify surface fun d => { d with role := some .xdgToplevel } := by
        simp only [setRole] at hset
        split at hset
        · cases hset
        · exact (Option.some.inj hset).symm
      subst hs
      refine hroles.kept hkept le_rfl fun k hk => ?_
      refine (List.mem_append.mp hk).imp_right fun hnew => ?_
      rw [List.mem_singleton.mp hnew]
      exact ⟨hvalid.1, by rw [modify_data_self]⟩
  | destroyToplevel toplevel =>
    cases hr
    have hkept : RolesKept none c.state c.state := .of_shape rfl
    exact hroles.kept hkept le_rfl fun k hk => .inl (List.mem_of_mem_eraseP hk)

theorem Roles.of_shape (hroles : c.Roles) (hshape : c'.state.shape = c.state.shape)
    (hknown : c'.knownToplevels = c.knownToplevels) : c'.Roles := by
  have hsame : RolesKept none c.state c'.state := .of_shape hshape
  have hkept : Roles { c with state := c'.state, knownToplevels := c'.knownToplevels } :=
    hroles.kept hsame (congrArg Shape.created hshape).ge fun k hk => .inl (hknown ▸ hk)
  exact ⟨hkept.toplevel, hkept.flag⟩

private theorem accept_knownToplevels : c.accept.knownToplevels = c.knownToplevels := by
  rw [accept]
  split <;> rfl

theorem Roles.frames {elapsed : Nat → Nat} (hroles : c.Roles) :
    (c.sendAllFrames elapsed).accept.Roles := by
  apply hroles.of_shape
  · rw [accept_state, sendAllFrames_state, shape_sendEach]
  · rw [accept_knownToplevels]
    rfl

theorem Roles.dispatch (hroles : c.Roles) (hpath : Path Compositor.dispatch c requests c') :
    c'.Roles := by
  induction hpath with
  | nil => exact hroles
  | snoc _ hstep ih => exact ih.clientRequest hstep.1 hstep.2

theorem Roles.of_run (hrun : system.Run h c) : c.Roles := by
  induction hrun with
  | nil => exact ⟨fun _ hmem => absurd hmem List.not_mem_nil, fun _ hflag => absurd rfl hflag⟩
  | @snoc c₁ c₂ h turn _ hstep ih =>
    cases turn with
    | connect client =>
      obtain rfl : c₂ = { c₁ with listener := c₁.listener ++ [client] } := hstep
      exact ih.of_shape rfl rfl
    | redraw elapsed requests =>
      exact ih.frames.dispatch hstep

theorem Roles.rooted {x : Surface} (hroles : c.Roles) (hinv : c.state.Invariant)
    (hrole : (c.state.data x).role = some .xdgToplevel) :
    (c.state.data x).parent = none ∧ (c.state.data x).isDirectSync = false := by
  have hparent : (c.state.data x).parent = none := by
    by_contra hsome
    exact absurd (hrole.symm.trans (hinv.role x hsome)) (by simp)
  have hflag : (c.state.data x).sync = none := by
    by_contra hsome
    exact absurd (hrole.symm.trans (hroles.flag x hsome)) (by simp)
  exact ⟨hparent, by rw [PrivateSurfaceData.isDirectSync, hflag]; rfl⟩

theorem Roles.above {x a : Surface} (hroles : c.Roles) (hinv : c.state.Invariant)
    (hrole : (c.state.data x).role = some .xdgToplevel) (habove : c.state.links.Above a x) :
    a = x ∧ (c.state.data a).isDirectSync = false := by
  obtain ⟨hparent, hdirect⟩ := hroles.rooted hinv hrole
  rcases Links.above_iff.mp habove with hself | hanc
  · subst hself
    exact ⟨rfl, hdirect⟩
  · obtain ⟨p, -, hp⟩ := Links.ancestor_iff_above_parent.mp hanc
    exact absurd (hparent.symm.trans hp) (by simp)

/-- A toplevel is the root of its tree and never waits for the commit of another surface: whoever
tries to make a subsurface of it, or a toplevel of a subsurface, is refused. -/
theorem root_of_toplevel (hrun : system.Run h c) (hroot : root ∈ c.toplevelSurfaces) :
    (c.state.data root).parent = none ∧
      ∀ a, c.state.links.Above a root → a = root ∧ (c.state.data a).isDirectSync = false := by
  have hroles := Roles.of_run hrun
  have hinv := (Accounts.of_run hrun).invariant
  obtain ⟨known, hmem, rfl⟩ := List.mem_map.mp hroot
  obtain ⟨-, hrole⟩ := hroles.toplevel known hmem
  exact ⟨(hroles.rooted hinv hrole).1, fun a habove => hroles.above hinv hrole habove⟩

theorem root_of_opened : (opened.state.data 0).parent = none ∧
    ∀ a, opened.state.links.Above a 0 → a = 0 ∧ (opened.state.data a).isDirectSync = false :=
  root_of_toplevel run_opened (List.mem_singleton.mpr rfl)

end LocalDesktop.Android.Backend.Wayland.Compositor
