/- GID: LocalDesktop/Android/Backend/Wayland/ShellInvariant
   generality: G
   digest: What holds of the shell in every run: roles and their data, parents without a cycle. -/

import LocalDesktop.Android.Backend.Wayland.FrameTurns
import LocalDesktop.Android.Backend.Wayland.ShellEffects

set_option autoImplicit false
set_option relaxedAutoImplicit false

namespace LocalDesktop.Android.Backend.Wayland.Shell

open Foundation.Forest Foundation.Transition Smithay Smithay.Surfaces

variable {s s' : Shell} {r : ShellRequest} {e : Step} {h : List Step} {x y : Surface}

/-! The compositor under the shell. -/

def commitsOf : ShellRequest → Nat
  | .surface _ request => request.commits
  | _ => 0

def askedOf (x : Surface) : ShellRequest → List WlCallback
  | .surface _ request => requestedBy x request
  | _ => []

/-- A request changes the compositor below as requests of its own do, one or none. -/
theorem base_of_effect (heffect : Effect s r s') (hvalid : s.Valid r) :
    ∃ requests, Path Compositor.dispatch s.base requests s'.base ∧
      Compositor.commitsOf requests = commitsOf r ∧
      ∀ x, Compositor.asked x requests = askedOf x r := by
  have hnone : commitsOf r = 0 → (∀ x, askedOf x r = []) → s'.base = s.base →
      ∃ requests, Path Compositor.dispatch s.base requests s'.base ∧
        Compositor.commitsOf requests = commitsOf r ∧
        ∀ x, Compositor.asked x requests = askedOf x r := by
    intro hcommits hasked hsame
    exact ⟨[], hsame ▸ .nil _, hcommits.symm, fun x => (hasked x).symm⟩
  cases heffect with
  | @surface world request base hcommit hbase =>
    exact ⟨_, .single ⟨hvalid.1, hbase⟩, by simp [Compositor.commitsOf, commitsOf],
      fun y => by simp [Compositor.asked, askedOf]⟩
  | commit world x =>
    exact ⟨[.surface world (.commit x)], .single ⟨hvalid.1, rfl⟩, rfl, fun _ => rfl⟩
  | @made toplevel version x surfaces hrole =>
    refine ⟨[.getToplevel toplevel x], .single ⟨hvalid.1, ?_⟩, rfl, fun _ => rfl⟩
    simp only [Compositor.clientRequest, hrole]
    rfl
  | @unmade toplevel version x hrole =>
    refine ⟨[.getToplevel toplevel x], .single ⟨hvalid.1, ?_⟩, rfl, fun _ => rfl⟩
    simp only [Compositor.clientRequest, hrole]
  | @destroyed toplevel x a hx ha =>
    exact ⟨[.destroyToplevel toplevel], .single ⟨trivial, rfl⟩, rfl, fun _ => rfl⟩
  | @popup popup x parent state surfaces hrole =>
    refine ⟨[.surface ⟨fun _ => none, fun _ => .released⟩ (.giveRole x .xdgPopup)],
      .single ⟨⟨hvalid.1, by decide⟩, ?_⟩, rfl, fun _ => rfl⟩
    simp only [Compositor.clientRequest, Surfaces.request, hrole, Option.getD_some]
    rfl
  | @noPopup popup x parent state hrole =>
    refine ⟨[.surface ⟨fun _ => none, fun _ => .released⟩ (.giveRole x .xdgPopup)],
      .single ⟨⟨hvalid.1, by decide⟩, ?_⟩, rfl, fun _ => rfl⟩
    simp only [Compositor.clientRequest, Surfaces.request, hrole, Option.getD_none]
    rfl
  | sent hr hx ha =>
    rcases hr with rfl | rfl
    · exact hnone rfl (fun _ => rfl) rfl
    · exact hnone rfl (fun _ => rfl) rfl
  | parented | invalidParent | popupDestroyed | acked | popupAcked | refused =>
    exact hnone rfl (fun _ => rfl) rfl

private theorem base_kept {P : Compositor → Prop} (heffect : Effect s r s') (hvalid : s.Valid r)
    (hP : P s.base)
    (hkeep : ∀ c q c', P c → c.Valid q → c.clientRequest q = some c' → P c') : P s'.base := by
  obtain ⟨requests, hpath, -⟩ := base_of_effect heffect hvalid
  exact hpath.invariant (I := fun _ c => P c) hP fun _ _ _ _ _ hc hstep =>
    hkeep _ _ _ hc hstep.1 hstep.2

/-! A surface has the data of a role exactly if it has the role. -/

private theorem setRole_eq_some {surfaces surfaces' : Surfaces} {role : Role}
    (hset : surfaces.setRole x role = some surfaces') :
    ((surfaces.data x).role = none ∨ (surfaces.data x).role = some role) ∧
      surfaces'.created = surfaces.created ∧
      ∀ y, (surfaces'.data y).role = if y = x then some role else (surfaces.data y).role := by
  simp only [setRole] at hset
  split at hset
  · cases hset
  next hfree =>
    cases hset
    refine ⟨?_, rfl, fun y => ?_⟩
    · cases hrole : (surfaces.data x).role with
      | none => exact .inl rfl
      | some old =>
        right
        simpa [hrole] using hfree
    · rw [data_modify]
      split <;> rfl

private theorem role_surfaceRequest {base : Compositor} {world : World} {request : Request}
    {role : Role}
    (hbase : s.base.clientRequest (.surface world request) = some base)
    (hgiven : request.given ≠ some role) (hsub : role ≠ .subsurface)
    (hcreated : (s.base.state.data x).role = some role → x < s.base.state.created) :
    (base.state.data x).role = some role ↔ (s.base.state.data x).role = some role := by
  obtain ⟨surfaces, hs, rfl⟩ := Option.map_eq_some_iff.mp hbase
  by_cases hcreate : ∃ client version, request = .createSurface client version
  · obtain ⟨client, version, rfl⟩ := hcreate
    cases hs
    by_cases hx : x = s.base.state.created
    · subst hx
      refine iff_of_false ?_ fun hrole => absurd (hcreated hrole) (lt_irrefl _)
      simp [createSurface, PrivateSurfaceData.new]
    · have hother : (s.base.state.createSurface client version).data x = s.base.state.data x :=
        Function.update_of_ne hx _ _
      rw [hother]
  · obtain ⟨hrole, -, hfresh⟩ := RolesKept.request hs (fun client version h =>
      hcreate ⟨client, version, h⟩) x
    refine ⟨fun hnew => ?_, hrole role⟩
    rcases hfresh role hnew with hold | hsubsurface | hgave
    · exact hold
    · exact absurd hsubsurface hsub
    · exact absurd hgave hgiven

/-- The hooks of a commit change what the roles say, and not which there are. -/
structure Hooked (r r' : ShellRoles) : Prop where
  toplevels : ∀ y, (r'.toplevels y).isSome = (r.toplevels y).isSome
  popups : ∀ y, (r'.popups y).isSome = (r.popups y).isSome
  parent : ∀ y, r'.parent y = r.parent y

theorem hooked_commit {world : World} : Hooked s.roles (s.hooked world x) := by
  refine snd_commitWith_kept (I := Hooked s.roles) (fun y hasBuffer r hr => ?_)
    ⟨fun _ => rfl, fun _ => rfl, fun _ => rfl⟩
  refine ⟨fun z => ?_, fun z => ?_, fun z => ?_⟩
  · rw [← hr.toplevels, ShellRoles.toplevels_invokePostCommitHooks]
    split
    next hz => rw [hz, Option.isSome_map]
    · rfl
  · rw [← hr.popups, ShellRoles.popups_invokePostCommitHooks]
    split
    next hz => rw [hz, Option.isSome_map]
    · rfl
  · rw [← hr.parent, ShellRoles.parent, ShellRoles.parent,
      ShellRoles.toplevels_invokePostCommitHooks]
    split
    next hz =>
      subst hz
      cases r.toplevels z <;> rfl
    · rfl

def links (r : ShellRoles) : Links Surface := ⟨r.parent, fun _ => []⟩

structure Invariant (s : Shell) : Prop where
  surfaces : s.base.state.Invariant
  base : s.base.Roles
  toplevel : ∀ x, (s.base.state.data x).role = some .xdgToplevel ↔ (s.roles.toplevels x).isSome
  popup : ∀ x, (s.base.state.data x).role = some .xdgPopup ↔ (s.roles.popups x).isSome
  toplevel_created : ∀ x, (s.roles.toplevels x).isSome → x < s.base.state.created
  popup_created : ∀ x, (s.roles.popups x).isSome → x < s.base.state.created
  knownPopup : ∀ known ∈ s.knownPopups, (s.roles.popups known.2).isSome
  parent : ∀ x p, s.roles.parent x = some p → p < s.base.state.created
  acyclic : ∀ x, ¬(links s.roles).Ancestor x x

namespace Invariant

private theorem build : build.Invariant where
  surfaces := .empty
  base := .of_run (.nil _)
  toplevel _ := iff_of_false (by simp [Shell.build, Compositor.build, Surfaces.empty,
    PrivateSurfaceData.new]) (by simp [Shell.build, ShellRoles.empty])
  popup _ := iff_of_false (by simp [Shell.build, Compositor.build, Surfaces.empty,
    PrivateSurfaceData.new]) (by simp [Shell.build, ShellRoles.empty])
  toplevel_created _ hx := by simp [Shell.build, ShellRoles.empty] at hx
  popup_created _ hx := by simp [Shell.build, ShellRoles.empty] at hx
  knownPopup _ hmem := absurd hmem List.not_mem_nil
  parent _ _ hp := by simp [Shell.build, ShellRoles.empty, ShellRoles.parent] at hp
  acyclic x hcycle := by
    obtain ⟨p, -, hp⟩ := Links.ancestor_iff_above_parent.mp hcycle
    simp [links, Shell.build, ShellRoles.empty, ShellRoles.parent] at hp

private theorem of_parents (hinv : s.Invariant) (hsurfaces : s'.base.state.Invariant)
    (hbase : s'.base.Roles) (hcreated : s.base.state.created ≤ s'.base.state.created)
    (htoplevel : ∀ x, (s'.base.state.data x).role = some .xdgToplevel ↔
      (s'.roles.toplevels x).isSome)
    (hpopup : ∀ x, (s'.base.state.data x).role = some .xdgPopup ↔ (s'.roles.popups x).isSome)
    (htop : ∀ x, (s'.roles.toplevels x).isSome →
      (s.roles.toplevels x).isSome ∨ x < s'.base.state.created)
    (hpop : ∀ x, (s'.roles.popups x).isSome →
      (s.roles.popups x).isSome ∨ x < s'.base.state.created)
    (hknown : ∀ known ∈ s'.knownPopups, (s'.roles.popups known.2).isSome)
    (hparent : ∀ x p, s'.roles.parent x = some p → s.roles.parent x = some p) :
    s'.Invariant where
  surfaces := hsurfaces
  base := hbase
  toplevel := htoplevel
  popup := hpopup
  toplevel_created x hx :=
    (htop x hx).elim (fun hold => (hinv.toplevel_created x hold).trans_le hcreated) id
  popup_created x hx :=
    (hpop x hx).elim (fun hold => (hinv.popup_created x hold).trans_le hcreated) id
  knownPopup := hknown
  parent x p hp := (hinv.parent x p (hparent x p hp)).trans_le hcreated
  acyclic := Links.acyclic_mono hinv.acyclic fun p x hp => hparent x p hp

private theorem of_roles (hinv : s.Invariant) (hbase : s'.base = s.base)
    (htop : ∀ x, (s'.roles.toplevels x).isSome = (s.roles.toplevels x).isSome)
    (hpop : ∀ x, (s'.roles.popups x).isSome = (s.roles.popups x).isSome)
    (hknown : ∀ known ∈ s'.knownPopups, known ∈ s.knownPopups)
    (hparent : ∀ x p, s'.roles.parent x = some p → s.roles.parent x = some p) :
    s'.Invariant := by
  have hstate : s'.base.state = s.base.state := congrArg Compositor.state hbase
  refine hinv.of_parents ?_ ?_ ?_ ?_ ?_ ?_ ?_ ?_ hparent
  · exact hstate ▸ hinv.surfaces
  · exact hbase ▸ hinv.base
  · rw [hstate]
  · intro x
    rw [htop, hstate]
    exact hinv.toplevel x
  · intro x
    rw [hpop, hstate]
    exact hinv.popup x
  · exact fun x hx => .inl (htop x ▸ hx)
  · exact fun x hx => .inl (hpop x ▸ hx)
  · intro known hmem
    rw [hpop]
    exact hinv.knownPopup known (hknown known hmem)

private theorem of_setToplevel {a a' : XdgToplevelAttributes} (hinv : s.Invariant)
    (ha : s.roles.toplevels x = some a) (hbase : s'.base = s.base)
    (hroles : s'.roles = s.roles.setToplevel x a') (hknown : s'.knownPopups = s.knownPopups)
    (hparent : ∀ p, a'.parent = some p → a.parent = some p) : s'.Invariant := by
  refine hinv.of_roles hbase (fun y => ?_) (fun y => ?_) (fun k hk => ?_) fun y p hp => ?_
  · rw [hroles, ShellRoles.toplevels_setToplevel]
    split
    next hy => rw [hy, ha]; rfl
    · rfl
  · rw [hroles, ShellRoles.popups_setToplevel]
  · rwa [hknown] at hk
  · rw [hroles, ShellRoles.parent_setToplevel] at hp
    split at hp
    next hy =>
      rw [hy, ShellRoles.parent, ha]
      exact hparent p hp
    · exact hp

private theorem of_setPopup {a a' : XdgPopupAttributes} (hinv : s.Invariant)
    (ha : s.roles.popups x = some a) (hbase : s'.base = s.base)
    (hroles : s'.roles = s.roles.setPopup x a')
    (hknown : ∀ known ∈ s'.knownPopups, known ∈ s.knownPopups) : s'.Invariant := by
  refine hinv.of_roles hbase (fun y => ?_) (fun y => ?_) hknown fun y p hp => ?_
  · rw [hroles, ShellRoles.toplevels_setPopup]
  · rw [hroles, ShellRoles.popups_setPopup]
    split
    next hy => rw [hy, ha]; rfl
    · rfl
  · rwa [hroles, ShellRoles.parent_setPopup] at hp

private theorem made {surfaces : Surfaces} {toplevel version : Nat} (hinv : s.Invariant)
    (hvalid : s.Valid (.getToplevel toplevel version x))
    (hrole : s.base.state.setRole x .xdgToplevel = some surfaces)
    (hsurfaces : surfaces.Invariant)
    (hbase : Compositor.Roles
      { s.base with
        state := surfaces, knownToplevels := s.base.knownToplevels ++ [(toplevel, x)] })
    (hstate : s'.base = { s.base with
      state := surfaces, knownToplevels := s.base.knownToplevels ++ [(toplevel, x)] })
    {a : XdgToplevelAttributes} (hroles : s'.roles = s.roles.setToplevel x a)
    (hknown : s'.knownPopups = s.knownPopups)
    (hparent : ∀ p, a.parent = some p → s.roles.parent x = some p) : s'.Invariant := by
  obtain ⟨hbefore, hcreated, hafter⟩ := setRole_eq_some hrole
  have hno : ¬(s.roles.popups x).isSome = true := by
    rw [← hinv.popup]
    rcases hbefore with hnone | hsame
    · simp [hnone]
    · simp [hsame]
  have hs : s'.base.state = surfaces := congrArg Compositor.state hstate
  refine hinv.of_parents (hs ▸ hsurfaces) (hstate ▸ hbase) ?_ (fun y => ?_) (fun y => ?_)
    (fun y hy => ?_) (fun y hy => ?_) (fun k hk => ?_) fun y p hp => ?_
  · rw [hs, hcreated]
  · rw [hs, hafter, hroles, ShellRoles.toplevels_setToplevel]
    split
    · exact iff_of_true rfl rfl
    · exact hinv.toplevel y
  · rw [hs, hafter, hroles, ShellRoles.popups_setToplevel]
    split
    next hy => exact iff_of_false (by simp) (hy ▸ hno)
    · exact hinv.popup y
  · rw [hroles, ShellRoles.toplevels_setToplevel] at hy
    split at hy
    next hyx =>
      right
      rw [hs, hcreated, hyx]
      exact hvalid.1.1
    · exact .inl hy
  · rw [hroles, ShellRoles.popups_setToplevel] at hy
    exact .inl hy
  · rw [hroles, ShellRoles.popups_setToplevel]
    rw [hknown] at hk
    exact hinv.knownPopup k hk
  · rw [hroles, ShellRoles.parent_setToplevel] at hp
    split at hp
    next hyx => exact hyx ▸ hparent p hp
    · exact hp

private theorem popupMade {surfaces : Surfaces} {popup : Nat} {a : XdgPopupAttributes}
    (hinv : s.Invariant)
    (hcreated : x < s.base.state.created)
    (hrole : s.base.state.setRole x .xdgPopup = some surfaces)
    (hsurfaces : surfaces.Invariant)
    (hbase : Compositor.Roles { s.base with state := surfaces })
    (hstate : s'.base = { s.base with state := surfaces })
    (hroles : s'.roles = s.roles.setPopup x a)
    (hknown : s'.knownPopups = s.knownPopups ++ [(popup, x)]) : s'.Invariant := by
  obtain ⟨hbefore, hsame, hafter⟩ := setRole_eq_some hrole
  have hno : ¬(s.roles.toplevels x).isSome = true := by
    rw [← hinv.toplevel]
    rcases hbefore with hnone | hold
    · simp [hnone]
    · simp [hold]
  have hs : s'.base.state = surfaces := congrArg Compositor.state hstate
  refine hinv.of_parents (hs ▸ hsurfaces) (hstate ▸ hbase) ?_ (fun y => ?_) (fun y => ?_)
    (fun y hy => ?_) (fun y hy => ?_) (fun k hk => ?_) fun y p hp => ?_
  · rw [hs, hsame]
  · rw [hs, hafter, hroles, ShellRoles.toplevels_setPopup]
    split
    next hy => exact iff_of_false (by simp) (hy ▸ hno)
    · exact hinv.toplevel y
  · rw [hs, hafter, hroles, ShellRoles.popups_setPopup]
    split
    · exact iff_of_true rfl rfl
    · exact hinv.popup y
  · rw [hroles, ShellRoles.toplevels_setPopup] at hy
    exact .inl hy
  · rw [hroles, ShellRoles.popups_setPopup] at hy
    split at hy
    next hyx =>
      right
      rw [hs, hsame, hyx]
      exact hcreated
    · exact .inl hy
  · rw [hroles, ShellRoles.popups_setPopup]
    split
    · rfl
    next hkx =>
      rw [hknown, List.mem_append, List.mem_singleton] at hk
      rcases hk with hold | rfl
      · exact hinv.knownPopup k hold
      · exact absurd rfl hkx
  · rwa [hroles, ShellRoles.parent_setPopup] at hp

private theorem noLoop_eq {fuel : Nat} (hinv : s.Invariant) (child parent : Surface)
    (hfuel : ((links s.roles).ancestors (Finset.range s.base.state.created) parent).card < fuel) :
    (s.roles.noLoop child fuel (some parent) = some false ∧ (links s.roles).Above child parent) ∨
      (s.roles.noLoop child fuel (some parent) = some true ∧
        ¬(links s.roles).Above child parent) := by
  induction fuel generalizing parent with
  | zero => exact absurd hfuel (Nat.not_lt_zero _)
  | succ fuel ih =>
    rw [ShellRoles.noLoop]
    split
    next heq =>
      left
      exact ⟨rfl, heq ▸ .refl⟩
    next hne =>
      have habove : (links s.roles).Above child parent ↔ ∃ p, (links s.roles).Above child p ∧
          s.roles.parent parent = some p := by
        rw [Links.above_iff, Links.ancestor_iff_above_parent]
        exact ⟨fun h => h.resolve_left (Ne.symm hne), .inr⟩
      cases hp : s.roles.parent parent with
      | none =>
        right
        refine ⟨ShellRoles.noLoop_none, ?_⟩
        rw [habove]
        rintro ⟨p, -, hsome⟩
        rw [hp] at hsome
        cases hsome
      | some p =>
        have hmem : p ∈ Finset.range s.base.state.created :=
          Finset.mem_range.mpr (hinv.parent _ _ hp)
        have hlt := Links.card_ancestors_lt_of_acyclic hinv.acyclic hmem hp
        have hiff : (links s.roles).Above child parent ↔ (links s.roles).Above child p := by
          rw [habove]
          constructor
          · rintro ⟨q, hq, hsome⟩
            obtain rfl : p = q := Option.some.inj (hp.symm.trans hsome)
            exact hq
          · exact fun hq => ⟨p, hq, hp⟩
        rw [hiff]
        exact ih p (by omega)

private theorem card_ancestors_le {parent : Surface} :
    ((links s.roles).ancestors (Finset.range s.base.state.created) parent).card ≤
      s.base.state.created := by
  have hle : ((links s.roles).ancestors (Finset.range s.base.state.created) parent).card ≤
      (Finset.range s.base.state.created).card := Links.card_ancestors_le
  rwa [Finset.card_range] at hle

/-- A parent that the check lets pass closes no cycle. -/
private theorem parented {parent : Option Surface} {a : XdgToplevelAttributes} (hinv : s.Invariant)
    (ha : s.roles.toplevels x = some a)
    (hvalid : ∀ p, parent = some p → p < s.base.state.created ∧
      isValidParent s.base.state s.roles s.fuel x p = some true) :
    Invariant { s with roles := s.roles.setToplevel x { a with parent := parent } } := by
  cases hparent : parent with
  | none => exact hinv.of_setToplevel ha rfl rfl rfl fun p hp => absurd hp (by simp)
  | some p =>
    obtain ⟨hp, hpass⟩ := hvalid p hparent
    have hfree : ¬(links s.roles).Above x p := by
      rw [isValidParent] at hpass
      split at hpass
      · exact absurd hpass (by simp)
      · rcases hinv.noLoop_eq x p (Nat.lt_succ_of_le card_ancestors_le) with ⟨hno, -⟩ | ⟨-, hfree⟩
        · exact absurd (hno.symm.trans hpass) (by simp)
        · exact hfree
    have hchild : ∀ q y, (links (s.roles.setToplevel x { a with parent := some p })).Child q y →
        ((links s.roles).link x p).Child q y := by
      intro q y hq
      have hq' : (s.roles.setToplevel x { a with parent := some p }).parent y = some q := hq
      rw [ShellRoles.parent_setToplevel] at hq'
      have hlink : ((links s.roles).link x p).parent y =
          if y = x then some p else s.roles.parent y := Function.update_apply _ _ _ _
      exact hlink.trans hq'
    have hdropped : Invariant { s with roles := s.roles.setToplevel x { a with parent := none } } :=
      hinv.of_setToplevel ha rfl rfl rfl fun p hp => absurd hp (by simp)
    refine ⟨hinv.surfaces, hinv.base, fun y => ?_, hinv.popup, fun y hy => ?_, hinv.popup_created,
      hinv.knownPopup, fun y q hq => ?_, ?_⟩
    · have hbefore := hdropped.toplevel y
      rw [ShellRoles.toplevels_setToplevel] at hbefore ⊢
      split at hbefore
      next hy => simpa [hy] using hbefore
      next hy => simpa [hy] using hbefore
    · refine hdropped.toplevel_created y ?_
      rw [ShellRoles.toplevels_setToplevel] at hy ⊢
      split at hy
      next hyx => simp [hyx]
      next hyx => simpa [hyx] using hy
    · rw [ShellRoles.parent_setToplevel] at hq
      split at hq
      · obtain rfl : p = q := Option.some.inj hq
        exact hp
      · exact hinv.parent y q hq
    · exact Links.acyclic_mono (Links.WellFormed.acyclic_link hinv.acyclic hfree) hchild

private theorem mem_of_surfaceOf {known : List (Nat × Surface)} {object : Nat}
    (hx : surfaceOf known object = some x) : ∃ k ∈ known, k.2 = x := by
  obtain ⟨k, hk, rfl⟩ := Option.map_eq_some_iff.mp hx
  exact ⟨k, List.mem_of_find?_eq_some hk, rfl⟩

private theorem effect (hinv : s.Invariant) (hvalid : s.Valid r) (heffect : Effect s r s') :
    s'.Invariant := by
  have hsurfaces : s'.base.state.Invariant :=
    base_kept (P := fun c => c.state.Invariant) heffect hvalid hinv.surfaces fun _ _ _ hinv hq hc =>
      Compositor.invariant_clientRequest hinv hq hc
  have hbase : s'.base.Roles := base_kept heffect hvalid hinv.base fun _ _ _ hroles hq hc =>
    hroles.clientRequest hq hc
  cases heffect with
  | @surface world request base hcommit hstep =>
    obtain ⟨surfaces, hs, rfl⟩ := Option.map_eq_some_iff.mp hstep
    have hcreated := Invariant.created_le_request hs
    refine hinv.of_parents hsurfaces hbase hcreated (fun y => ?_) (fun y => ?_)
      (fun y hy => .inl hy) (fun y hy => .inl hy) hinv.knownPopup fun y p hp => hp
    · rw [← hinv.toplevel]
      exact role_surfaceRequest hstep hvalid.2.1 (by decide) fun h =>
        hinv.toplevel_created y ((hinv.toplevel y).mp h)
    · rw [← hinv.popup]
      exact role_surfaceRequest hstep hvalid.2.2 (by decide) fun h =>
        hinv.popup_created y ((hinv.popup y).mp h)
  | commit world x =>
    have hshape : (Surfaces.commit world (s.base.state.setClientScale x) x).shape =
        s.base.state.shape := elementaries_commit.shape.trans shape_modifyPending
    have hrole : ∀ y, ((Surfaces.commit world (s.base.state.setClientScale x) x).data y).role =
        (s.base.state.data y).role := congrFun (congrArg Shape.role hshape)
    have hhooked : Hooked s.roles (s.hooked world x) := hooked_commit
    refine hinv.of_parents hsurfaces hbase (congrArg Shape.created hshape).ge (fun y => ?_)
      (fun y => ?_) (fun y hy => .inl ?_) (fun y hy => .inl ?_) (fun k hk => ?_) fun y p hp => ?_
    · rw [hhooked.toplevels, ← hinv.toplevel, hrole]
    · rw [hhooked.popups, ← hinv.popup, hrole]
    · rwa [hhooked.toplevels] at hy
    · rwa [hhooked.popups] at hy
    · rw [hhooked.popups]
      exact hinv.knownPopup k hk
    · rwa [hhooked.parent] at hp
  | @made toplevel version x surfaces hrole =>
    refine hinv.made hvalid hrole hsurfaces hbase rfl configure_roles rfl fun p hp => ?_
    have hp : ((s.roles.toplevels x).getD .default).parent = some p := hp
    rw [ShellRoles.parent]
    cases ha : s.roles.toplevels x with
    | none =>
      rw [ha] at hp
      cases hp
    | some a =>
      rw [ha] at hp
      exact hp
  | unmade hrole =>
    exact hinv.of_parents hsurfaces hbase le_rfl hinv.toplevel hinv.popup (fun _ h => .inl h)
      (fun _ h => .inl h) hinv.knownPopup fun _ _ h => h
  | @destroyed toplevel x a hx ha =>
    have hdropped : Invariant { s with roles := s.roles.setToplevel x .default } :=
      hinv.of_setToplevel ha rfl rfl rfl fun p hp => by cases hp
    exact hdropped.of_parents hsurfaces hbase le_rfl hdropped.toplevel hdropped.popup
      (fun _ h => .inl h) (fun _ h => .inl h) hdropped.knownPopup fun _ _ h => h
  | sent hr hx ha => exact hinv.of_setToplevel ha rfl configure_roles rfl fun p hp => hp
  | @parented toplevel object x parent a hx hparent hok ha =>
    refine hinv.parented ha fun p hp => ⟨?_, hok p hp⟩
    rw [hparent] at hp
    obtain ⟨other, -, hother⟩ := Option.bind_eq_some_iff.mp hp
    obtain ⟨k, hk, rfl⟩ := mem_of_surfaceOf hother
    exact (hinv.base.toplevel k hk).1
  | invalidParent | refused =>
    exact hinv.of_roles rfl (fun _ => rfl) (fun _ => rfl) (fun _ h => h) fun _ _ h => h
  | @popup popup x parent state surfaces hrole =>
    exact hinv.popupMade hvalid.1 hrole hsurfaces hbase rfl rfl rfl
  | noPopup hrole =>
    exact hinv.of_parents hsurfaces hbase le_rfl hinv.toplevel hinv.popup (fun _ h => .inl h)
      (fun _ h => .inl h) hinv.knownPopup fun _ _ h => h
  | popupDestroyed ha =>
    exact hinv.of_setPopup ha rfl rfl fun k hk => List.mem_of_mem_eraseP hk
  | acked ha hack => exact hinv.of_setToplevel ha rfl rfl rfl fun p hp => hp
  | popupAcked ha hack => exact hinv.of_setPopup ha rfl rfl fun k hk => hk

private theorem step (hinv : s.Invariant) (hstep : system.step s e s') : s'.Invariant := by
  cases e with
  | connect client =>
    obtain rfl : s' = { s with base :=
      { s.base with listener := s.base.listener ++ [client] } } := hstep
    exact hinv.of_parents hinv.surfaces (hinv.base.of_shape rfl rfl) le_rfl hinv.toplevel
      hinv.popup (fun _ h => .inl h) (fun _ h => .inl h) hinv.knownPopup fun _ _ h => h
  | frames elapsed =>
    obtain rfl : s' = { s with base := (s.base.sendAllFrames elapsed).accept } := hstep
    have hshape : (s.base.sendAllFrames elapsed).accept.state.shape = s.base.state.shape := by
      rw [Compositor.accept_state, Compositor.sendAllFrames_state, shape_sendEach]
    have hrole : ∀ y, ((s.base.sendAllFrames elapsed).accept.state.data y).role =
        (s.base.state.data y).role := congrFun (congrArg Shape.role hshape)
    refine hinv.of_parents (hinv.surfaces.of_shape hshape) hinv.base.frames
      (congrArg Shape.created hshape).ge (fun y => ?_) (fun y => ?_) (fun _ h => .inl h)
      (fun _ h => .inl h) hinv.knownPopup fun _ _ h => h
    · rw [hrole]
      exact hinv.toplevel y
    · rw [hrole]
      exact hinv.popup y
  | request r => exact hinv.effect hstep.1 (effect_of_request hstep.2 hstep.1)
  | resumed size =>
    obtain rfl : s' = { s with size := size } := hstep
    exact hinv.of_roles rfl (fun _ => rfl) (fun _ => rfl) (fun _ h => h) fun _ _ h => h
  | input =>
    obtain rfl : s' = tell { s with counter := (Serial.nextSerial s.counter).2 }
      [.serial (Serial.nextSerial s.counter).1] := hstep
    exact hinv.of_roles rfl (fun _ => rfl) (fun _ => rfl) (fun _ h => h) fun _ _ h => h

theorem of_run (hrun : system.Run h s) : s.Invariant :=
  hrun.invariant (I := fun _ s => s.Invariant) .build fun _ _ _ _ _ hinv hstep => hinv.step hstep

end Invariant

/-! Two toplevels of one client, the second of them a child of the first. -/

def idle : World := ⟨fun _ => none, fun _ => .released⟩

def greeted : Shell :=
  { build with base := Compositor.accept { build.base with listener := [0] } }

def surfaced (s : Shell) : Shell :=
  { s with base := { s.base with state := s.base.state.createSurface 0 5 } }

def withToplevel (s : Shell) (toplevel : Nat) (x : Surface) : Shell :=
  configure
    { s with
      base := { s.base with
        state := s.base.state.modify x fun d => { d with role := some .xdgToplevel }
        knownToplevels := s.base.knownToplevels ++ [(toplevel, x)] }
      versions := Function.update s.versions toplevel 6 }
    6 x (madeAttributes s.size (s.roles.toplevels x))

def single : Shell := greeted.surfaced.surfaced.withToplevel 0 0

def couple : Shell := single.withToplevel 1 1

def family : Shell :=
  let attributes := ((madeAttributes single.size none).sendConfigure 6 2).2.2
  { couple with roles := couple.roles.setToplevel 1 { attributes with parent := some 0 } }

def familyRequests : List ShellRequest :=
  [.surface idle (.createSurface 0 5), .surface idle (.createSurface 0 5), .getToplevel 0 6 0,
    .getToplevel 1 6 1, .setParent 1 (some 0)]

def familyHistory : List Step :=
  [.connect 0, .frames fun _ => 0] ++ familyRequests.map .request

theorem path_requests {requests : List ShellRequest} (hpath : Path dispatch s requests s') :
    Path system s (requests.map .request) s' := by
  induction hpath with
  | nil => exact .nil _
  | snoc _ hstep ih =>
    rw [List.map_append]
    exact ih.snoc hstep

private theorem request_getToplevel {toplevel : Nat}
    (hset : s.base.state.setRole x .xdgToplevel =
      some (s.base.state.modify x fun d => { d with role := some .xdgToplevel })) :
    s.request (.getToplevel toplevel 6 x) = some (s.withToplevel toplevel x) := by
  have hget : s.getToplevel toplevel 6 x = some (s.withToplevel toplevel x) := by
    rw [getToplevel_eq, hset]
    rfl
  exact hget

theorem step_surfaced (hclient : 0 ∈ s.base.clients) :
    dispatch.step s (.surface idle (.createSurface 0 5)) s.surfaced :=
  ⟨⟨hclient, by simp [Request.given], by simp [Request.given]⟩, rfl⟩

theorem dispatch_family : Path dispatch greeted familyRequests family := by
  have hsurface : dispatch.step greeted _ greeted.surfaced :=
    step_surfaced (List.mem_singleton.mpr rfl)
  have hother : dispatch.step greeted.surfaced _ greeted.surfaced.surfaced :=
    step_surfaced (List.mem_singleton.mpr rfl)
  have hsingle : dispatch.step greeted.surfaced.surfaced (.getToplevel 0 6 0) single := by
    refine ⟨⟨⟨by decide, fun known hknown => ?_⟩, by decide⟩, request_getToplevel rfl⟩
    cases hknown
  have hcouple : dispatch.step single (.getToplevel 1 6 1) couple := by
    refine ⟨⟨⟨by decide, fun known hknown => ?_⟩, by decide⟩, request_getToplevel rfl⟩
    obtain rfl : known = (0, 0) := List.mem_singleton.mp hknown
    decide
  have hchild : ∃ known ∈ couple.base.knownToplevels, known.1 = 1 :=
    ⟨(1, 1), .tail _ (.head _), rfl⟩
  have hparent : ∀ p ∈ some 0, ∃ known ∈ couple.base.knownToplevels, known.1 = p :=
    fun p hp => ⟨(0, 0), .head _, Option.some.inj hp⟩
  have hfamily : dispatch.step couple (.setParent 1 (some 0)) family := ⟨⟨hchild, hparent⟩, rfl⟩
  exact ((((Path.single hsurface).snoc hother).snoc hsingle).snoc hcouple).snoc hfamily

theorem run_family : system.Run familyHistory family := by
  have hconnect : system.step build (.connect 0)
      { build with base := { build.base with listener := [0] } } := rfl
  have hframes : system.step { build with base := { build.base with listener := [0] } }
      (.frames fun _ => 0) greeted := rfl
  exact ((Path.single hconnect).snoc hframes).append (path_requests dispatch_family)

/-! A role is for ever. -/

private theorem role_clientRequest {c c' : Compositor} {q : Compositor.ClientRequest} {role : Role}
    (hq : c.clientRequest q = some c') (hx : x < c.state.created)
    (hrole : (c.state.data x).role = some role) :
    x < c'.state.created ∧ (c'.state.data x).role = some role := by
  cases q with
  | surface world request =>
    obtain ⟨surfaces, hs, rfl⟩ := Option.map_eq_some_iff.mp hq
    refine ⟨hx.trans_le (Invariant.created_le_request hs), ?_⟩
    by_cases hcreate : ∃ client version, request = .createSurface client version
    · obtain ⟨client, version, rfl⟩ := hcreate
      cases hs
      have hother : (c.state.createSurface client version).data x = c.state.data x :=
        Function.update_of_ne hx.ne _ _
      rwa [hother]
    · obtain ⟨hkept, -, -⟩ := RolesKept.request hs (fun client version h =>
        hcreate ⟨client, version, h⟩) x
      exact hkept role hrole
  | getToplevel toplevel surface =>
    simp only [Compositor.clientRequest] at hq
    split at hq
    next surfaces hset =>
      cases hq
      obtain ⟨hfree, hcreated, hroles⟩ := setRole_eq_some hset
      refine ⟨hcreated ▸ hx, (hroles x).trans ?_⟩
      split
      next heq =>
        subst heq
        rcases hfree with hnone | hsame
        · exact absurd (hrole.symm.trans hnone) (by simp)
        · exact hsame.symm.trans hrole
      · exact hrole
    · cases hq
      exact ⟨hx, hrole⟩
  | destroyToplevel toplevel =>
    cases hq
    exact ⟨hx, hrole⟩

private theorem role_step {role : Role} (hstep : system.step s e s') (hx : x < s.base.state.created)
    (hrole : (s.base.state.data x).role = some role) :
    x < s'.base.state.created ∧ (s'.base.state.data x).role = some role := by
  cases e with
  | connect client | resumed size | input =>
    cases hstep
    exact ⟨hx, hrole⟩
  | frames elapsed =>
    cases hstep
    have hshape : (s.base.sendAllFrames elapsed).accept.state.shape = s.base.state.shape := by
      rw [Compositor.accept_state, Compositor.sendAllFrames_state, shape_sendEach]
    exact ⟨hx.trans_eq (congrArg Shape.created hshape).symm,
      (congrFun (congrArg Shape.role hshape) x).trans hrole⟩
  | request r =>
    exact base_kept (P := fun c => x < c.state.created ∧ (c.state.data x).role = some role)
      (effect_of_request hstep.2 hstep.1) hstep.1 ⟨hx, hrole⟩ fun _ _ _ hkept _ hq =>
        role_clientRequest hq hkept.1 hkept.2

/-- Whatever the clients do, and also when the object of a role is gone, a surface never gets
another role than its first. -/
theorem role_of_path {later : List Step} {role : Role} (hlater : Path system s later s')
    (hx : x < s.base.state.created) (hrole : (s.base.state.data x).role = some role) :
    (s'.base.state.data x).role = some role := by
  have hkept : x < s'.base.state.created ∧ (s'.base.state.data x).role = some role :=
    hlater.invariant (I := fun _ s => x < s.base.state.created ∧
      (s.base.state.data x).role = some role) ⟨hx, hrole⟩
      fun _ _ _ _ _ hbefore hstep => role_step hstep hbefore.1 hbefore.2
  exact hkept.2

def parted : Shell :=
  { family with
    base := { family.base with knownToplevels := [(0, 0)] }
    roles := family.roles.setToplevel 1 .default }

theorem role_of_parted : (parted.base.state.data 1).role = some .xdgToplevel := by
  have hdestroy : system.step family (.request (.destroyToplevel 1)) parted :=
    ⟨⟨(1, 1), .tail _ (.head _), rfl⟩, rfl⟩
  exact role_of_path (Path.single hdestroy) (by decide) rfl

/-! What does not happen. -/

theorem Invariant.toplevel_isSome {toplevel : Nat} (hinv : s.Invariant)
    (hmem : ∃ known ∈ s.base.knownToplevels, known.1 = toplevel) :
    ∃ x a, surfaceOf s.base.knownToplevels toplevel = some x ∧ s.roles.toplevels x = some a := by
  obtain ⟨k, hk, hx⟩ := exists_surfaceOf hmem
  have hsome := (hinv.toplevel k.2).mp (hinv.base.toplevel k hk).2
  obtain ⟨a, ha⟩ := Option.isSome_iff_exists.mp hsome
  exact ⟨k.2, a, hx, ha⟩

private theorem Invariant.isValidParent_eq {fuel : Nat} (hinv : s.Invariant)
    (child parent : Surface)
    (hfuel : s.base.state.created < fuel) : ∃ valid,
      isValidParent s.base.state s.roles fuel child parent = some valid ∧
      (valid = true ↔ (s.base.state.data parent).role = some .xdgToplevel ∧
        ¬(links s.roles).Above child parent) := by
  rw [isValidParent]
  by_cases hrole : (s.base.state.data parent).role = some .xdgToplevel
  · rcases hinv.noLoop_eq child parent (card_ancestors_le.trans_lt hfuel) with ⟨hloop, habove⟩ |
      ⟨hloop, habove⟩
    · exact ⟨false, by simp [isToplevelEquivalent, hrole, hloop], by simp [habove]⟩
    · exact ⟨true, by simp [isToplevelEquivalent, hrole, hloop], by simp [hrole, habove]⟩
  · exact ⟨false, by simp [isToplevelEquivalent, hrole], by simp [hrole]⟩

/-- The parents that the clients set never close a cycle, so the check of a new one always ends, and
lets exactly those pass that are toplevels and not below the child. -/
theorem validParent_of_run (hrun : system.Run h s) (child parent : Surface) :
    (∀ x, ¬(links s.roles).Ancestor x x) ∧
      ∃ valid, (∀ fuel, s.base.state.created < fuel →
          isValidParent s.base.state s.roles fuel child parent = some valid) ∧
        (valid = true ↔ (s.base.state.data parent).role = some .xdgToplevel ∧
          ¬(links s.roles).Above child parent) := by
  have hinv := Invariant.of_run hrun
  obtain ⟨valid, -, hiff⟩ := hinv.isValidParent_eq child parent
    (Nat.lt_succ_self s.base.state.created)
  refine ⟨hinv.acyclic, valid, fun fuel hfuel => ?_, hiff⟩
  obtain ⟨valid', hcheck, hiff'⟩ := hinv.isValidParent_eq child parent hfuel
  rw [hcheck, Option.some.injEq, Bool.eq_iff_iff, hiff, hiff']

theorem validParent_of_family : (∀ x, ¬(links family.roles).Ancestor x x) ∧
    ∃ valid, (∀ fuel, 2 < fuel →
        isValidParent family.base.state family.roles fuel 0 1 = some valid) ∧
      (valid = true ↔ (family.base.state.data 1).role = some .xdgToplevel ∧
        ¬(links family.roles).Above 0 1) :=
  validParent_of_run run_family 0 1

end LocalDesktop.Android.Backend.Wayland.Shell
