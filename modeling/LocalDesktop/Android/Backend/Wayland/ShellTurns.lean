/- GID: LocalDesktop/Android/Backend/Wayland/ShellTurns
   generality: G
   digest: The shell in the redraws of the app, beside the compositor without it. -/

import LocalDesktop.Android.Backend.Wayland.Configures

/-!
The app reads the requests of its clients in redraws only. Such a run is a run of
the shell with all its steps one by one, and without the shell it is a run of the
compositor, with the same redraws.
-/

set_option autoImplicit false
set_option relaxedAutoImplicit false

namespace LocalDesktop.Android.Backend.Wayland.Shell

open Foundation.Transition Smithay Smithay.Surfaces

def clients (h : List Turn) : List Client :=
  h.filterMap fun turn =>
    match turn with
    | .connect client => some client
    | _ => none

def askedIn (x : Surface) (h : List Turn) : List WlCallback :=
  h.flatMap fun turn =>
    match turn with
    | .redraw _ requests => requests.flatMap (askedOf x)
    | _ => []

variable {s s' : Shell} {requests : List ShellRequest} {turn : Turn} {h : List Turn} {x : Surface}

private theorem path_steps (hstep : turns.step s turn s') : Path system s turn.steps s' := by
  cases turn with
  | connect client | resumed size | input => exact .single hstep
  | redraw elapsed requests => exact .cons rfl (path_requests hstep)

private theorem run_steps (hrun : turns.Run h s) : system.Run (h.flatMap Turn.steps) s := by
  induction hrun with
  | nil => exact .nil _
  | snoc _ hstep ih =>
    rw [List.flatMap_append, List.flatMap_singleton]
    exact ih.append (path_steps hstep)

private theorem path_base (hpath : Path dispatch s requests s') :
    ∃ below, Path Compositor.dispatch s.base below s'.base ∧
      Compositor.commitsOf below = (requests.map commitsOf).sum ∧
      ∀ x, Compositor.asked x below = requests.flatMap (askedOf x) := by
  induction hpath with
  | nil => exact ⟨[], .nil _, rfl, fun _ => rfl⟩
  | snoc _ hstep ih =>
    obtain ⟨below, hbelow, hcommits, hasked⟩ := ih
    obtain ⟨last, hlast, hlastCommits, hlastAsked⟩ :=
      base_of_effect (effect_of_request hstep.2 hstep.1) hstep.1
    refine ⟨below ++ last, hbelow.append hlast, ?_, fun x => ?_⟩
    · have hsum : Compositor.commitsOf (below ++ last) =
          Compositor.commitsOf below + Compositor.commitsOf last := by simp [Compositor.commitsOf]
      rw [hsum, hcommits, hlastCommits]
      simp
    · have hboth : Compositor.asked x (below ++ last) =
          Compositor.asked x below ++ Compositor.asked x last := by simp [Compositor.asked]
      rw [hboth, hasked, hlastAsked]
      simp

private theorem turn_base (hstep : turns.step s turn s') :
    ∃ below, Path Compositor.system s.base below s'.base ∧
      Compositor.connections below = clients [turn] ∧
      Compositor.commitsIn below = commitsIn turn.steps ∧
      ∀ x, Compositor.askedIn x below = askedIn x [turn] := by
  cases turn with
  | connect client =>
    cases hstep
    exact ⟨[.connect client], .single rfl, rfl, rfl, fun _ => rfl⟩
  | resumed size | input =>
    cases hstep
    exact ⟨[], .nil _, rfl, rfl, fun _ => rfl⟩
  | redraw elapsed requests =>
    obtain ⟨below, hbelow, hcommits, hasked⟩ := path_base hstep
    refine ⟨[.redraw elapsed below], .single hbelow, rfl, ?_, fun x => ?_⟩
    · simp [Compositor.commitsIn, hcommits, commitsIn, Turn.steps, Function.comp_def]
    · simp [Compositor.askedIn, hasked, askedIn]

private theorem base_of_turns (hrun : turns.Run h s) :
    ∃ below, Compositor.system.Run below s.base ∧ Compositor.connections below = clients h ∧
      Compositor.commitsIn below = commitsIn (h.flatMap Turn.steps) ∧
      ∀ x, Compositor.askedIn x below = askedIn x h := by
  induction hrun with
  | nil => exact ⟨[], .nil _, rfl, rfl, fun _ => rfl⟩
  | @snoc s s' h turn _ hstep ih =>
    obtain ⟨below, hbelow, hclients, hcommits, hasked⟩ := ih
    obtain ⟨last, hlast, hlastClients, hlastCommits, hlastAsked⟩ := turn_base hstep
    refine ⟨below ++ last, hbelow.append hlast, ?_, ?_, fun x => ?_⟩
    · have hboth : Compositor.connections (below ++ last) =
          Compositor.connections below ++ Compositor.connections last := List.filterMap_append
      rw [hboth, hclients, hlastClients]
      exact List.filterMap_append.symm
    · have hsum : Compositor.commitsIn (below ++ last) =
          Compositor.commitsIn below + Compositor.commitsIn last := by simp [Compositor.commitsIn]
      rw [hsum, hcommits, hlastCommits]
      simp [commitsIn]
    · have hboth : Compositor.askedIn x (below ++ last) =
          Compositor.askedIn x below ++ Compositor.askedIn x last := List.flatMap_append
      rw [hboth, hasked, hlastAsked]
      exact List.flatMap_append.symm

/-- The compositor with its shell is the compositor without it, as far as surfaces go, and is the
shell with all steps in any order. -/
theorem refines_of_turns (hrun : turns.Run h s) :
    system.Run (h.flatMap Turn.steps) s ∧
      ∃ below, Compositor.system.Run below s.base ∧ Compositor.connections below = clients h ∧
        Compositor.commitsIn below = commitsIn (h.flatMap Turn.steps) ∧
        ∀ x, Compositor.askedIn x below = askedIn x h :=
  ⟨run_steps hrun, base_of_turns hrun⟩

def familyTurns : List Turn := [.connect 0, .redraw (fun _ => 0) familyRequests]

private theorem turns_family : turns.Run familyTurns family := by
  have hconnect : turns.step build (.connect 0)
      { build with base := { build.base with listener := [0] } } := rfl
  have hredraw : turns.step { build with base := { build.base with listener := [0] } }
      (.redraw (fun _ => 0) familyRequests) family := dispatch_family
  exact (Path.single hconnect).snoc hredraw

theorem refines_of_family : system.Run (familyTurns.flatMap Turn.steps) family ∧
    ∃ below, Compositor.system.Run below family.base ∧
      Compositor.connections below = clients familyTurns ∧
      Compositor.commitsIn below = commitsIn (familyTurns.flatMap Turn.steps) ∧
      ∀ x, Compositor.askedIn x below = askedIn x familyTurns :=
  refines_of_turns turns_family

/-- No callback of a frame is lost or answered twice, whatever becomes of the roles. -/
theorem callbacks_of_turns (hrun : turns.Run h s) (x : Surface) :
    answered x s.base.state.events ++ unanswered (s.base.state.data x) = askedIn x h := by
  obtain ⟨below, hbelow, -, -, hasked⟩ := base_of_turns hrun
  rw [← hasked]
  exact (Compositor.Accounts.of_run hbelow).account x

/-! From the commit of a toplevel to the frame that answers its callbacks. -/

private theorem path_turns {later : List Turn} (hpath : Path turns s later s') :
    ∃ below, Path Compositor.system s.base below s'.base := by
  induction hpath with
  | nil => exact ⟨[], .nil _⟩
  | snoc _ hstep ih =>
    obtain ⟨below, hbelow⟩ := ih
    obtain ⟨last, hlast, -⟩ := turn_base hstep
    exact ⟨below ++ last, hbelow.append hlast⟩

/-- No client is left waiting for a frame: what was asked for a toplevel before a commit of it is
answered by every later redraw, as long as the toplevel is there. -/
theorem answered_of_toplevel {mid mid' s₀ s₁ s₂ s₃ : Shell} {before after last : List ShellRequest}
    {later : List Turn} {elapsed elapsed' : Nat → Nat} {world : World} {known : Nat × Surface}
    (hrun : turns.Run h s₀)
    (hbefore : Path dispatch { s₀ with base := (s₀.base.sendAllFrames elapsed).accept } before mid)
    (hcommit : dispatch.step mid (.surface world (.commit known.2)) mid')
    (hafter : Path dispatch mid' after s₁) (hlater : Path turns s₁ later s₂)
    (hredraw : turns.step s₂ (.redraw elapsed' last) s₃)
    (hcommits : commitsIn (h.flatMap Turn.steps) + (before.map commitsOf).sum < 2 ^ 31 - 1)
    (hmid : known ∈ mid.base.knownToplevels) (hknown : known ∈ s₂.base.knownToplevels)
    (halive : s₂.base.state.alive known.2 = true) :
    askedIn known.2 h ++ before.flatMap (askedOf known.2) <+:
      answered known.2 s₃.base.state.events := by
  obtain ⟨below, hbelow, -, hcount, hasked⟩ := base_of_turns hrun
  obtain ⟨requests, hrequests, hcountBefore, haskedBefore⟩ := path_base hbefore
  obtain ⟨rest, hrest, -⟩ := path_base hafter
  obtain ⟨laterBelow, hturns⟩ := path_turns hlater
  obtain ⟨final, hfinal, -⟩ := path_base hredraw
  have hstep : Compositor.dispatch.step mid.base (.surface world (.commit known.2)) mid'.base := by
    have hrequest := hcommit.2
    rw [request_commit] at hrequest
    cases hrequest
    exact ⟨hcommit.1.1, rfl⟩
  have haccounts := (Compositor.Accounts.of_run hbelow).frames.dispatch hrequests
  have hroles := (Compositor.Roles.of_run hbelow).frames.dispatch hrequests
  obtain ⟨hcreated, hrole⟩ := hroles.toplevel known hmid
  have hfor : mid.base.CommitsFor known.2 known.2 :=
    ⟨hcommit.1.1, fun a habove => (hroles.above haccounts.invariant hrole habove).2, .inl rfl⟩
  rw [← hcount, ← hcountBefore] at hcommits
  have hord : mid.base.state.Ordered
      (Compositor.commitsIn below + Compositor.commitsOf requests) :=
    Compositor.ordered_dispatch (Compositor.Accounts.of_run hbelow).frames.invariant
      (Compositor.ordered_frames (Compositor.ordered_of_run hbelow (by omega))) hrequests
      hcommits.le
  have hcurrent : mid'.base.state.answerable known.2 =
      askedIn known.2 h ++ before.flatMap (askedOf known.2) := by
    rw [← hasked, ← haskedBefore]
    exact Compositor.answerable_commit haccounts hord hcommits hfor hstep
  obtain ⟨hle, -⟩ := Compositor.keeps_clientRequest hstep.2 hcreated
  have hturn : turns.step s₀ (.redraw elapsed (before ++ .surface world (.commit known.2) :: after))
      s₁ := hbefore.append (.cons hcommit hafter)
  have hforest : s₂.base.state.Forest :=
    (Invariant.of_run (run_steps ((hrun.snoc hturn).append hlater))).surfaces.forest
  obtain ⟨i, hi⟩ := List.mem_iff_getElem?.mp hknown
  have hshown : s₂.base.Shown i known.2 := by
    refine ⟨known.2, ?_, halive, .refl⟩
    rw [Compositor.toplevelSurfaces, List.getElem?_map, hi]
    rfl
  have hanswered := Compositor.answered_of_answerable hforest (hcreated.trans_le hle) hrest hturns
    hfinal hshown
  rwa [hcurrent] at hanswered

def waiting : Shell :=
  let state := family.base.state.modifyPending 1 fun pending =>
    { pending with frameCallbacks := pending.frameCallbacks ++ [7] }
  { family with base := { family.base with state := state } }

private theorem dispatch_waiting :
    Path dispatch greeted (familyRequests ++ [.surface idle (.frame 1 7)]) waiting :=
  dispatch_family.snoc ⟨⟨rfl, by simp [Request.given], by simp [Request.given]⟩, rfl⟩

def presented : Shell :=
  let state := Surfaces.commit idle (waiting.base.state.setClientScale 1) 1
  { waiting with
    base := { waiting.base with state := state }
    roles := waiting.hooked idle 1 }

theorem answered_of_presented :
    [7] <+: answered 1 (presented.base.sendAllFrames fun _ => 32).accept.state.events := by
  have hconnect : turns.step build (.connect 0)
      { build with base := { build.base with listener := [0] } } := rfl
  have hbefore : Path dispatch { build with base :=
      (Compositor.sendAllFrames (fun _ => 0) { build.base with listener := [0] }).accept }
      (familyRequests ++ [.surface idle (.frame 1 7)]) waiting := dispatch_waiting
  have hcommit : dispatch.step waiting (.surface idle (.commit 1)) presented :=
    ⟨⟨rfl, by simp [Request.given], by simp [Request.given]⟩, request_commit⟩
  have hredraw : turns.step presented (.redraw (fun _ => 32) [])
      { presented with base := (presented.base.sendAllFrames fun _ => 32).accept } := .nil _
  have hchild : (1, 1) ∈ waiting.base.knownToplevels := .tail _ (.head _)
  have hcommits : commitsIn (List.flatMap Turn.steps [.connect 0]) +
      ((familyRequests ++ [ShellRequest.surface idle (.frame 1 7)]).map commitsOf).sum <
        2 ^ 31 - 1 := by
    decide
  exact answered_of_toplevel (Path.single hconnect) hbefore hcommit
    (.nil _) (.nil _) hredraw hcommits hchild hchild rfl

end LocalDesktop.Android.Backend.Wayland.Shell
