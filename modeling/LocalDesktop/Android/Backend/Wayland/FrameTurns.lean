/- GID: LocalDesktop/Android/Backend/Wayland/FrameTurns
   generality: G
   digest: From the commit of a surface to the frame that answers its callbacks. -/

import LocalDesktop.Android.Backend.Wayland.Redraw
import LocalDesktop.Smithay.CommitRuns

set_option autoImplicit false
set_option relaxedAutoImplicit false

namespace LocalDesktop.Android.Backend.Wayland

open Foundation.Forest Foundation.Transition Smithay Smithay.Surfaces

section Frames

variable {s : Surfaces} {x : Surface} {frames : List (Surface × Nat)} {n : Nat}

private theorem answerable_sendFrames {surface : Surface} {time : Nat} :
    (sendFrames time surface s).answerable x = s.answerable x := by
  rw [answerable, answerable, sendFrames, send_events, answered_append, answered_done]
  by_cases hx : surface = x
  · subst hx
    simp [drainFrames]
  · simp [hx, modify_data_of_ne (Ne.symm hx)]

private theorem answerable_sendEach : (sendEach frames s).answerable x = s.answerable x := by
  induction frames generalizing s with
  | nil => rfl
  | cons frame frames ih => exact ih.trans answerable_sendFrames

private theorem queues_sendEach : (sendEach frames s).queues = s.queues := by
  induction frames generalizing s with
  | nil => rfl
  | cons frame frames ih => exact ih

private theorem ordered_sendEach (hord : s.Ordered n) : (sendEach frames s).Ordered n := by
  refine hord.of_book (fun x => ?_) queues_sendEach (congrArg Shape.created shape_sendEach).ge
  rw [data_sendEach]
  split <;> rfl

end Frames

namespace Compositor

def commitsOf (requests : List ClientRequest) : Nat :=
  (requests.map fun request =>
    match request with
    | .surface _ request => request.commits
    | _ => 0).sum

def commitsIn (turns : List Turn) : Nat :=
  (turns.map fun turn =>
    match turn with
    | .connect _ => 0
    | .redraw _ requests => commitsOf requests).sum

section Runs

variable {c c' : Compositor} {h : List Turn} {requests : List ClientRequest}
  {request : ClientRequest} {x : Surface} {n : Nat}

theorem valid_surface {world : World} {r : Request} (hvalid : c.Valid (.surface world r)) :
    c.state.Valid r ∧ r.isBlocker = false := by
  cases r with
  | createSurface => exact ⟨trivial, rfl⟩
  | addBlocker | blockerCleared => exact hvalid.elim
  | _ => exact ⟨hvalid, rfl⟩

theorem invariant_clientRequest (hinv : c.state.Invariant) (hvalid : c.Valid request)
    (hr : c.clientRequest request = some c') : c'.state.Invariant := by
  cases request with
  | surface world r =>
    obtain ⟨surfaces, hs, rfl⟩ := Option.map_eq_some_iff.mp hr
    exact hinv.request (valid_surface hvalid).1 hs
  | getToplevel toplevel surface =>
    simp only [clientRequest] at hr
    split at hr
    next surfaces hset =>
      cases hr
      exact hinv.setRole (by decide) hset
    · cases hr
      exact hinv.of_shape shape_send
  | destroyToplevel toplevel =>
    cases hr
    exact hinv

private theorem invariant_dispatch (hinv : c.state.Invariant)
    (hpath : Path dispatch c requests c') :
    c'.state.Invariant := by
  induction hpath with
  | nil => exact hinv
  | snoc _ hstep ih => exact invariant_clientRequest ih hstep.1 hstep.2

private theorem unbooked_toplevel (hr : c.clientRequest request = some c')
    (hother : ∀ world r, request ≠ .surface world r) :
    Unbooked c.state c'.state ∧ c'.state.created = c.state.created := by
  cases request with
  | surface world r => exact absurd rfl (hother world r)
  | getToplevel toplevel surface =>
    simp only [clientRequest] at hr
    cases hset : c.state.setRole surface .xdgToplevel with
    | none =>
      rw [hset] at hr
      cases hr
      exact ⟨.send, rfl⟩
    | some s =>
      rw [hset] at hr
      cases hr
      refine ⟨.giveRole hset, ?_⟩
      simp only [setRole] at hset
      split at hset
      · cases hset
      · cases hset
        rfl
  | destroyToplevel toplevel =>
    cases hr
    exact ⟨.refl _, rfl⟩

private theorem ordered_clientRequest (hinv : c.state.Invariant) (hord : c.state.Ordered n)
    (hn : n + commitsOf [request] ≤ 2 ^ 31 - 1) (hvalid : c.Valid request)
    (hr : c.clientRequest request = some c') :
    c'.state.Ordered (n + commitsOf [request]) := by
  have hother : (∀ world r, request ≠ .surface world r) →
      c'.state.Ordered (n + commitsOf [request]) := by
    intro hother
    obtain ⟨hsame, hcreated⟩ := unbooked_toplevel hr hother
    exact (hord.of_unbooked hsame hcreated.ge).mono (Nat.le_add_right _ _)
  cases request with
  | surface world r =>
    obtain ⟨s, hs, rfl⟩ := Option.map_eq_some_iff.mp hr
    obtain ⟨hsurfaces, hblocker⟩ := valid_surface hvalid
    have hone : commitsOf [.surface world r] = r.commits := by simp [commitsOf]
    rw [hone] at hn ⊢
    exact hord.request hinv hn hsurfaces hblocker hs
  | getToplevel | destroyToplevel => exact hother fun _ _ => ClientRequest.noConfusion

theorem ordered_dispatch (hinv : c.state.Invariant) (hord : c.state.Ordered n)
    (hpath : Path dispatch c requests c')
    (hn : n + commitsOf requests ≤ 2 ^ 31 - 1) :
    c'.state.Ordered (n + commitsOf requests) := by
  induction hpath with
  | nil => exact hord
  | @snoc c₁ c₂ requests request hpath hstep ih =>
    have hsplit : n + commitsOf (requests ++ [request]) =
        n + commitsOf requests + commitsOf [request] := by
      simp [commitsOf, Nat.add_assoc]
    rw [hsplit] at hn ⊢
    have hbefore := ih (by omega)
    exact ordered_clientRequest (invariant_dispatch hinv hpath) hbefore hn hstep.1 hstep.2

theorem ordered_frames {elapsed : Nat → Nat} (hord : c.state.Ordered n) :
    (c.sendAllFrames elapsed).accept.state.Ordered n := by
  rw [accept_state, sendAllFrames_state]
  exact ordered_sendEach hord

theorem ordered_of_run (hrun : system.Run h c) (hcommits : commitsIn h ≤ 2 ^ 31 - 1) :
    c.state.Ordered (commitsIn h) := by
  induction hrun with
  | nil => exact .empty
  | @snoc c₁ c₂ h turn hpath hstep ih =>
    have hsplit : commitsIn (h ++ [turn]) = commitsIn h + commitsIn [turn] := by
      simp [commitsIn]
    rw [hsplit] at hcommits ⊢
    have hbefore := ih (by omega)
    cases turn with
    | connect client =>
      obtain rfl : c₂ = { c₁ with listener := c₁.listener ++ [client] } := hstep
      exact hbefore
    | redraw elapsed requests =>
      have hone : commitsIn [.redraw elapsed requests] = commitsOf requests := by
        simp [commitsIn]
      rw [hone] at hcommits ⊢
      exact ordered_dispatch (Accounts.of_run hpath).frames.invariant (ordered_frames hbefore)
        hstep hcommits

/-! What is answered or current stays so. -/

/-- Nothing of it is lost or overtaken from one state to the other. -/
def Keeps (x : Surface) (c c' : Compositor) : Prop :=
  x < c.state.created → c.state.created ≤ c'.state.created ∧
    c.state.answerable x <+: c'.state.answerable x

private theorem Keeps.trans {c'' : Compositor} (h : Keeps x c c') (h' : Keeps x c' c'') :
    Keeps x c c'' := by
  intro hx
  obtain ⟨hcreated, hprefix⟩ := h hx
  obtain ⟨hcreated', hprefix'⟩ := h' (hx.trans_le hcreated)
  exact ⟨hcreated.trans hcreated', hprefix.trans hprefix'⟩

theorem keeps_clientRequest (hr : c.clientRequest request = some c') : Keeps x c c' := by
  intro hx
  have hother : (∀ world r, request ≠ .surface world r) → c.state.created ≤ c'.state.created ∧
      c.state.answerable x <+: c'.state.answerable x := by
    intro hother
    obtain ⟨hsame, hcreated⟩ := unbooked_toplevel hr hother
    have hanswered : answered x c'.state.events = answered x c.state.events :=
      answered_of_answers (answers_clientRequest hr)
    refine ⟨hcreated.ge, ?_⟩
    rw [answerable, answerable, hanswered, hsame.current]
  cases request with
  | surface world r =>
    obtain ⟨s, hs, rfl⟩ := Option.map_eq_some_iff.mp hr
    exact ⟨Invariant.created_le_request hs, answerable_request hx hs⟩
  | getToplevel | destroyToplevel => exact hother fun _ _ => ClientRequest.noConfusion

private theorem keeps_dispatch (hpath : Path dispatch c requests c') : Keeps x c c' := by
  induction hpath with
  | nil => exact fun _ => ⟨le_rfl, List.prefix_rfl⟩
  | snoc _ hstep ih => exact ih.trans (keeps_clientRequest hstep.2)

private theorem keeps_frames {elapsed : Nat → Nat} : Keeps x c
    (c.sendAllFrames elapsed).accept := by
  intro _
  rw [accept_state, sendAllFrames_state, answerable_sendEach]
  exact ⟨(congrArg Shape.created shape_sendEach).ge, List.prefix_rfl⟩

private theorem keeps_turn {turn : Turn} (hstep : system.step c turn c') : Keeps x c c' := by
  cases turn with
  | connect client =>
    obtain rfl : c' = { c with listener := c.listener ++ [client] } := hstep
    exact fun _ => ⟨le_rfl, List.prefix_rfl⟩
  | redraw elapsed requests => exact keeps_frames.trans (keeps_dispatch hstep)

private theorem keeps_turns {later : List Turn} (hpath : Path system c later c') :
    Keeps x c c' := by
  induction hpath with
  | nil => exact fun _ => ⟨le_rfl, List.prefix_rfl⟩
  | snoc _ hstep ih => exact ih.trans (keeps_turn hstep)

/-- The surface commits for itself and for all below its synchronized children, and waits for no
other surface. -/
def CommitsFor (c : Compositor) (root x : Surface) : Prop :=
  c.state.alive root = true ∧
    (∀ a, c.state.links.Above a root → (c.state.data a).isDirectSync = false) ∧
    (x = root ∨ ∃ child, (c.state.data child).parent = some root ∧
      (c.state.data child).isDirectSync = true ∧ c.state.links.Above child x)

theorem answerable_commit {asked₀ : Surface → List WlCallback} {world : World} {root : Surface}
    (haccounts : Accounts asked₀ c) (hord : c.state.Ordered n) (hn : n + 1 ≤ 2 ^ 31 - 1)
    (hfor : c.CommitsFor root x)
    (hstep : dispatch.step c (.surface world (.commit root)) c') :
    c'.state.answerable x = asked₀ x := by
  obtain ⟨halive, hdesync, hx⟩ := hfor
  have hr : some { c with state := commit world (c.state.setClientScale root) root } = some c' :=
    hstep.2
  cases hr
  have hdelivered := delivered_setClientScale world haccounts.invariant hord hn halive hdesync hx
  have hunanswered : unanswered ((c.state.setClientScale root).data x) =
      unanswered (c.state.data x) := by
    rw [setClientScale, modifyPending, data_modify]
    split
    next hxr => exact hxr ▸ rfl
    · rfl
  have hanswered : answered x (commit world (c.state.setClientScale root) root).events =
      answered x c.state.events := answered_of_answers elementaries_commit.answers
  rw [answerable, hdelivered.frames, hunanswered, hanswered]
  exact haccounts.account x

/-- What is answered or current is answered by every later frame that shows the surface. -/
theorem answered_of_answerable {mid c₁ c₂ c₃ : Compositor} {after later : List ClientRequest}
    {turns : List Turn} {elapsed : Nat → Nat} {i : Nat} (hforest : c₂.state.Forest)
    (hcreated : x < mid.state.created) (hafter : Path dispatch mid after c₁)
    (hturns : Path system c₁ turns c₂) (hredraw : system.step c₂ (.redraw elapsed later) c₃)
    (hshown : c₂.Shown i x) : mid.state.answerable x <+: answered x c₃.state.events := by
  obtain ⟨-, hprefix⟩ := (keeps_dispatch hafter).trans (keeps_turns hturns) hcreated
  rw [(answered_redraw hforest hredraw x).1 ⟨i, hshown⟩]
  exact hprefix

/-- A callback that was asked for before a commit of its surface, or of one that commits for it, is
answered by every frame that shows the surface afterwards, and before any callback asked for later;
whatever the clients do in between. -/
theorem answered_of_commit {c₀ mid mid' c₁ c₂ c₃ : Compositor}
    {before after later : List ClientRequest}
    {elapsed elapsed' : Nat → Nat} {turns : List Turn} {world : World} {root : Surface} {i : Nat}
    (hrun : system.Run h c₀) (hbefore : Path dispatch (c₀.sendAllFrames elapsed).accept before mid)
    (hcommit : dispatch.step mid (.surface world (.commit root)) mid')
    (hafter : Path dispatch mid' after c₁) (hturns : Path system c₁ turns c₂)
    (hredraw : system.step c₂ (.redraw elapsed' later) c₃)
    (hcommits : commitsIn h + commitsOf before < 2 ^ 31 - 1) (hfor : mid.CommitsFor root x)
    (hshown : c₂.Shown i x) :
    askedIn x h ++ asked x before <+: answered x c₃.state.events := by
  have hrequests : Path dispatch (c₀.sendAllFrames elapsed).accept
      (before ++ .surface world (.commit root) :: after) c₁ :=
    hbefore.append (.cons hcommit hafter)
  have hturn : system.Run (h ++
      [.redraw elapsed (before ++ .surface world (.commit root) :: after)]) c₁ :=
    hrun.snoc hrequests
  have haccounts : Accounts (fun x => askedIn x h ++ asked x before) mid :=
    (Accounts.of_run hrun).frames.dispatch hbefore
  have hord : mid.state.Ordered (commitsIn h + commitsOf before) :=
    ordered_dispatch (Accounts.of_run hrun).frames.invariant
      (ordered_frames (ordered_of_run hrun (by omega))) hbefore hcommits.le
  have hcurrent : mid'.state.answerable x = askedIn x h ++ asked x before :=
    answerable_commit haccounts hord hcommits hfor hcommit
  have halive : mid.state.alive x = true :=
    alive_of_together haccounts.invariant.forest hfor.1
      ((mem_together haccounts.invariant.forest).mpr hfor.2.2)
  have hcreated : x < mid'.state.created := by
    obtain ⟨hle, -⟩ := keeps_clientRequest (x := x) hcommit.2 (haccounts.invariant.created x halive)
    exact (haccounts.invariant.created x halive).trans_le hle
  have hforest := (Accounts.of_run (hturn.append hturns)).invariant.forest
  exact hcurrent ▸ answered_of_answerable hforest hcreated hafter hturns hredraw hshown

theorem answered_of_opened :
    [7] <+: answered 0 (committed.sendAllFrames fun _ => 32).accept.state.events := by
  have hconnect : system.Run [.connect 0] ⟨Surfaces.empty, [], [0], []⟩ := .single rfl
  have hbefore : Path dispatch
      (sendAllFrames (fun _ => 16) ⟨Surfaces.empty, [], [0], []⟩).accept opening opened :=
    dispatch_opening
  have hcommit : dispatch.step opened
      (.surface ⟨fun _ => none, fun _ => .released⟩ (.commit 0)) committed := ⟨rfl, rfl⟩
  have hfor : opened.CommitsFor 0 0 := by
    refine ⟨rfl, fun a habove => ?_, .inl rfl⟩
    rcases Links.above_iff.mp habove with hself | hanc
    · subst hself
      rfl
    · obtain ⟨p, -, hp⟩ := Links.ancestor_iff_above_parent.mp hanc
      cases hp
  have hshown : committed.Shown 0 0 := ⟨0, rfl, rfl, .refl⟩
  exact answered_of_commit hconnect hbefore hcommit (.nil _) (.nil _) (.nil _) (by decide) hfor
    hshown

end Runs

end Compositor

end LocalDesktop.Android.Backend.Wayland
