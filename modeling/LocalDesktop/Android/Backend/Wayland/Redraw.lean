/- GID: LocalDesktop/Android/Backend/Wayland/Redraw
   generality: G
   digest: What a redraw does for the clients: frame callbacks, a new connection, their requests. -/

import LocalDesktop.Smithay.FrameCallbacks

set_option autoImplicit false
set_option relaxedAutoImplicit false

namespace LocalDesktop.Android.Backend.Wayland

open Foundation.Transition Smithay Smithay.Surfaces

def drainFrames (d : PrivateSurfaceData) : PrivateSurfaceData :=
  { d with attributes :=
    { d.attributes with current := { d.attributes.current with frameCallbacks := [] } } }

/-- `send_frames_surface_tree`, for one surface of the tree. -/
def sendFrames (time : Nat) (surface : Surface) (s : Surfaces) : Surfaces :=
  let callbacks := (s.data surface).attributes.current.frameCallbacks
  (s.modify surface drainFrames).send
    (callbacks.map fun callback => .done surface callback time)

def sendFramesSurfaceTree (s : Surfaces) (surface : Surface) (time : Nat) : Surfaces :=
  (s.mapTree (fun _ _ _ => .doChildren ()) (fun x _ s => sendFrames time x s) (fun _ _ _ => true)
    true s.fuel surface () s).2

/-- The clients' part of the compositor. A role object of a toplevel is a number of its own. -/
structure Compositor where
  state : Surfaces
  /-- `XdgShellState::known_toplevels` -/
  knownToplevels : List (Nat × Surface)
  /-- The connections that the socket holds ready. -/
  listener : List Client
  clients : List Client

namespace Compositor

def build : Compositor := ⟨.empty, [], [], []⟩

def toplevelSurfaces (c : Compositor) : List Surface := c.knownToplevels.map Prod.snd

/-- What a client can ask for. Nothing here adds blockers. -/
inductive ClientRequest
  | surface (world : World) (request : Request)
  | getToplevel (toplevel : Nat) (surface : Surface)
  | destroyToplevel (toplevel : Nat)

def clientRequest (c : Compositor) : ClientRequest → Option Compositor
  | .surface world request =>
    (Surfaces.request world c.state request).map fun state => { c with state := state }
  | .getToplevel toplevel surface =>
    match c.state.setRole surface .xdgToplevel with
    | some state =>
      some { c with
        state := state, knownToplevels := c.knownToplevels ++ [(toplevel, surface)] }
    | none => some { c with state := c.state.send [.error surface .alreadyHasRole] }
  | .destroyToplevel toplevel =>
    some { c with
      knownToplevels := c.knownToplevels.eraseP fun known => decide (known.1 = toplevel) }

/-- The request is one of an accepted client, about objects that exist. The surface of a role object
may be gone before it. -/
def Valid (c : Compositor) : ClientRequest → Prop
  | .surface _ (.createSurface client _) => client ∈ c.clients
  | .surface _ (.addBlocker _ _) | .surface _ (.blockerCleared _) => False
  | .surface _ request => Surfaces.Valid c.state request
  | .getToplevel toplevel surface =>
    surface < c.state.created ∧ ∀ known ∈ c.knownToplevels, known.1 ≠ toplevel
  | .destroyToplevel _ => True

/-- `dispatch_clients`: the requests that have come in, one by one. -/
def dispatch : System Compositor ClientRequest where
  start := .build
  step c request c' := c.Valid request ∧ c.clientRequest request = some c'

/-- The frames of all toplevels. The clock is read anew for every one, as a number of 32 bits. -/
def sendAllFrames (elapsed : Nat → Nat) (c : Compositor) : Compositor :=
  { c with
    state := c.toplevelSurfaces.zipIdx.foldl
      (fun s (surface, i) => sendFramesSurfaceTree s surface (elapsed i % 2 ^ 32)) c.state }

/-- One connection is accepted, if there is one. -/
def accept (c : Compositor) : Compositor :=
  match c.listener with
  | client :: rest => { c with listener := rest, clients := c.clients ++ [client] }
  | [] => c

inductive Turn
  | connect (client : Client)
  | redraw (elapsed : Nat → Nat) (requests : List ClientRequest)

/-- Clients connect whenever they like. Their requests are read in a redraw, when the frames of the
last commits are done. -/
def system : System Compositor Turn where
  start := .build
  step c turn c' :=
    match turn with
    | .connect client => c' = { c with listener := c.listener ++ [client] }
    | .redraw elapsed requests => Path dispatch (c.sendAllFrames elapsed).accept requests c'

end Compositor

/-! The callbacks that one redraw answers. -/

section Frames

variable {s : Surfaces} {x surface root : Surface} {time : Nat}

private theorem shape_sendFrames : (sendFrames time surface s).shape = s.shape := by
  rw [sendFrames, shape_send]
  exact shape_modify rfl rfl rfl rfl

private theorem unanswered_eq (d : PrivateSurfaceData) :
    unanswered d = d.attributes.current.frameCallbacks ++ unanswered (drainFrames d) := by
  simp [unanswered, CachedState.content, drainFrames]

private theorem account_sendFrames : (sendFrames time surface s).account x = s.account x := by
  rw [account, account, sendFrames, send_events, answered_append, answered_done]
  by_cases hx : surface = x
  · subst hx
    simp [unanswered_eq (s.data surface)]
  · simp [hx, modify_data_of_ne (Ne.symm hx)]

def sendEach (frames : List (Surface × Nat)) (s : Surfaces) : Surfaces :=
  frames.foldl (fun s frame => sendFrames frame.2 frame.1 s) s

private theorem sendFramesSurfaceTree_eq : sendFramesSurfaceTree s root time =
    sendEach ((s.tree true root).map fun x => (x, time)) s := by
  rw [sendFramesSurfaceTree, mapTree_eq_foldl (fun _ _ => rfl) fun _ _ => rfl, sendEach,
    List.foldl_map]
  rfl

theorem shape_sendEach {frames : List (Surface × Nat)} :
    (sendEach frames s).shape = s.shape := by
  induction frames generalizing s with
  | nil => rfl
  | cons frame frames ih => exact ih.trans shape_sendFrames

private theorem account_sendEach {frames : List (Surface × Nat)} :
    (sendEach frames s).account x = s.account x := by
  induction frames generalizing s with
  | nil => rfl
  | cons frame frames ih => exact ih.trans account_sendFrames

private theorem tree_of_shape {s' : Surfaces} {reverse : Bool} (hshape : s'.shape = s.shape) :
    s'.tree reverse root = s.tree reverse root := by
  have hlinks : s'.links = s.links := by
    apply links_eq
    · exact congrFun (congrArg Shape.parent hshape)
    · exact congrFun (congrArg Shape.children hshape)
  have hfuel : s'.fuel = s.fuel := by
    rw [fuel, fuel]
    exact congrArg (fun shape => shape.surfaces.length + 1) hshape
  rw [tree, tree, hlinks, hfuel]

def framesOf (s : Surfaces) (roots : List (Surface × Nat)) : List (Surface × Nat) :=
  roots.flatMap fun root => (s.tree true root.1).map fun x => (x, root.2)

private theorem foldl_sendFramesSurfaceTree {roots : List (Surface × Nat)} :
    roots.foldl (fun s root => sendFramesSurfaceTree s root.1 root.2) s =
      sendEach (framesOf s roots) s := by
  induction roots generalizing s with
  | nil => rfl
  | cons root roots ih =>
    have hshape : (sendEach ((s.tree true root.1).map fun x => (x, root.2)) s).shape = s.shape :=
      shape_sendEach
    have hframes : framesOf (sendEach ((s.tree true root.1).map fun x => (x, root.2)) s) roots =
        framesOf s roots := by
      simp only [framesOf, tree_of_shape hshape]
    rw [List.foldl_cons, sendFramesSurfaceTree_eq, ih, hframes]
    simp only [sendEach, framesOf, List.flatMap_cons, List.foldl_append]

/-- A surface is answered once, however often its turn comes. -/
theorem data_sendEach {frames : List (Surface × Nat)} : (sendEach frames s).data x =
    if x ∈ frames.map Prod.fst then drainFrames (s.data x) else s.data x := by
  induction frames generalizing s with
  | nil => rfl
  | cons frame frames ih =>
    have hhead : (sendFrames frame.2 frame.1 s).data x =
        if x = frame.1 then drainFrames (s.data x) else s.data x := by
      rw [sendFrames, send_data, data_modify]
      split
      next hx => rw [hx]
      · rfl
    rw [sendEach, List.foldl_cons, ← sendEach, ih, hhead]
    by_cases hx : x = frame.1
    · simp [hx, drainFrames]
    · simp only [List.map_cons, List.mem_cons, hx, false_or, if_false]

private theorem events_sendEach (frames : List (Surface × Nat)) (s : Surfaces) :
    ∃ answers, (sendEach frames s).events = s.events ++ answers ∧
      ∀ event ∈ answers, ∃ frame ∈ frames, ∃ callback, event = .done frame.1 callback frame.2 := by
  induction frames generalizing s with
  | nil => exact ⟨[], (List.append_nil _).symm, by simp⟩
  | cons frame frames ih =>
    obtain ⟨answers, hevents, hdone⟩ := ih (sendFrames frame.2 frame.1 s)
    refine ⟨(s.data frame.1).attributes.current.frameCallbacks.map
      (fun callback => .done frame.1 callback frame.2) ++ answers, ?_, ?_⟩
    · rw [← List.append_assoc]
      exact hevents
    · intro event hevent
      rcases List.mem_append.mp hevent with hhead | htail
      · obtain ⟨callback, -, rfl⟩ := List.mem_map.mp hhead
        exact ⟨frame, List.mem_cons_self, callback, rfl⟩
      · obtain ⟨other, hother, hsame⟩ := hdone event htail
        exact ⟨other, List.mem_cons_of_mem _ hother, hsame⟩

end Frames

/-! Every run: the requests of the clients between the frames, in any order. -/

namespace Compositor

def asked (x : Surface) (requests : List ClientRequest) : List WlCallback :=
  requests.flatMap fun request =>
    match request with
    | .surface _ request => requestedBy x request
    | _ => []

def askedIn (x : Surface) (turns : List Turn) : List WlCallback :=
  turns.flatMap fun turn =>
    match turn with
    | .connect _ => []
    | .redraw _ requests => asked x requests

def connections (turns : List Turn) : List Client :=
  turns.filterMap fun turn =>
    match turn with
    | .connect client => some client
    | .redraw _ _ => none

/-- What is known of the callbacks, and that nobody has asked for one of a surface to come. -/
structure Accounts (asked : Surface → List WlCallback) (c : Compositor) : Prop where
  invariant : c.state.Invariant
  account : ∀ x, c.state.account x = asked x
  fresh : ∀ x, c.state.created ≤ x → asked x = []

section Runs

variable {c c' : Compositor} {h : List Turn} {requests : List ClientRequest}
  {request : ClientRequest} {asked₀ : Surface → List WlCallback} {x : Surface}

private theorem Accounts.surfaces {world : World} {r : Request} {s : Surfaces}
    (haccounts : Accounts asked₀ c) (hvalid : c.state.Valid r)
    (hr : Surfaces.request world c.state r = some s) :
    Accounts (fun x => asked₀ x ++ requestedBy x r) { c with state := s } := by
  have hfresh : unanswered (c.state.data c.state.created) = [] := by
    have hnone := (haccounts.account c.state.created).trans (haccounts.fresh _ le_rfl)
    exact (List.append_eq_nil_iff.mp hnone).2
  refine ⟨haccounts.invariant.request hvalid hr, fun x => ?_, fun x hx => ?_⟩
  · rw [← haccounts.account]
    exact account_request hfresh hr
  · have hold : c.state.created ≤ x := (Invariant.created_le_request hr).trans hx
    rw [haccounts.fresh x hold, List.nil_append]
    cases r with
    | frame surface callback =>
      have hne : surface ≠ x := ((haccounts.invariant.created surface hvalid).trans_le hold).ne
      exact if_neg hne
    | _ => rfl

private theorem Accounts.clientRequest (haccounts : Accounts asked₀ c) (hvalid : c.Valid request)
    (hr : c.clientRequest request = some c') :
    Accounts (fun x => asked₀ x ++ asked x [request]) c' := by
  have hquiet : ∀ {s : Surfaces} {known : List (Nat × Surface)}, s.Invariant →
      s.created = c.state.created → (∀ x, s.account x = c.state.account x) →
        Accounts (fun x => asked₀ x ++ []) { c with state := s, knownToplevels := known } := by
    intro s known hinv hcreated haccount
    refine ⟨hinv, fun x => ?_, fun x hx => ?_⟩
    · rw [List.append_nil]
      exact (haccount x).trans (haccounts.account x)
    · rw [List.append_nil]
      exact haccounts.fresh x (hcreated.symm.trans_le hx)
  cases request with
  | surface world r =>
    obtain ⟨s, hs, rfl⟩ := Option.map_eq_some_iff.mp hr
    have hsurfaces : c.state.Valid r := by
      cases r with
      | createSurface => trivial
      | addBlocker | blockerCleared => exact hvalid.elim
      | _ => exact hvalid
    simpa [asked] using haccounts.surfaces hsurfaces hs
  | getToplevel toplevel surface =>
    simp only [Compositor.clientRequest] at hr
    cases hset : c.state.setRole surface .xdgToplevel with
    | none =>
      rw [hset] at hr
      cases hr
      exact hquiet (haccounts.invariant.of_shape shape_send) rfl fun x => account_send rfl
    | some s =>
      rw [hset] at hr
      cases hr
      have hcreated : s.created = c.state.created := by
        simp only [setRole] at hset
        split at hset
        · cases hset
        · cases hset
          rfl
      exact hquiet (haccounts.invariant.setRole (by decide) hset) hcreated fun x =>
        account_setRole hset
  | destroyToplevel toplevel =>
    cases hr
    exact hquiet haccounts.invariant rfl fun x => rfl

theorem Accounts.dispatch (haccounts : Accounts asked₀ c)
    (hpath : Path Compositor.dispatch c requests c') :
    Accounts (fun x => asked₀ x ++ asked x requests) c' := by
  refine hpath.invariant (I := fun requests c => Accounts (fun x => asked₀ x ++ asked x requests) c)
    (by simpa [asked] using haccounts) ?_
  intro requests c request c' _ hbefore hstep
  have hafter := hbefore.clientRequest hstep.1 hstep.2
  simpa [asked] using hafter

/-- The frames of a redraw, with the number of the toplevel and the time that is read for it. -/
def frames (elapsed : Nat → Nat) (c : Compositor) : List (Surface × Nat) :=
  framesOf c.state (c.toplevelSurfaces.zipIdx.map fun root => (root.1, elapsed root.2 % 2 ^ 32))

theorem sendAllFrames_state {elapsed : Nat → Nat} :
    (c.sendAllFrames elapsed).state = sendEach (c.frames elapsed) c.state := by
  rw [frames, ← foldl_sendFramesSurfaceTree, List.foldl_map]
  rfl

theorem accept_state : c.accept.state = c.state := by
  rw [accept]
  split <;> rfl

private theorem Accounts.of_shape (haccounts : Accounts asked₀ c)
    (hshape : c'.state.shape = c.state.shape) (haccount : ∀ x, c'.state.account x =
      c.state.account x) : Accounts asked₀ c' where
  invariant := haccounts.invariant.of_shape hshape
  account x := (haccount x).trans (haccounts.account x)
  fresh x hx := haccounts.fresh x ((congrArg Shape.created hshape).symm.trans_le hx)

theorem Accounts.frames {elapsed : Nat → Nat} (haccounts : Accounts asked₀ c) :
    Accounts asked₀ (c.sendAllFrames elapsed).accept := by
  apply haccounts.of_shape
  · rw [accept_state, sendAllFrames_state, shape_sendEach]
  · intro x
    rw [accept_state, sendAllFrames_state, account_sendEach]

private theorem Accounts.step {turn : Turn} (haccounts : Accounts asked₀ c)
    (hstep : system.step c turn c') : Accounts (fun x => asked₀ x ++ askedIn x [turn]) c' := by
  cases turn with
  | connect client =>
    obtain rfl : c' = { c with listener := c.listener ++ [client] } := hstep
    have hsame : Accounts asked₀ { c with listener := c.listener ++ [client] } :=
      haccounts.of_shape rfl fun _ => rfl
    simpa [askedIn] using hsame
  | redraw elapsed requests =>
    simpa [askedIn] using haccounts.frames.dispatch hstep

theorem Accounts.of_run (hrun : system.Run h c) : Accounts (fun x => askedIn x h) c := by
  refine hrun.invariant (I := fun h c => Accounts (fun x => askedIn x h) c) ?_ ?_
  · exact ⟨.empty, fun _ => rfl, fun _ _ => rfl⟩
  · intro h c turn c' _ hbefore hstep
    have hafter := hbefore.step hstep
    simpa [askedIn] using hafter

/-- Every callback is answered at most once, in the order of the requests, and none is lost: those
that are not answered yet are still kept. -/
theorem callbacks_of_run (hrun : system.Run h c) (x : Surface) :
    answered x c.state.events ++ unanswered (c.state.data x) = askedIn x h :=
  (Accounts.of_run hrun).account x

def opened : Compositor :=
  ⟨((empty.createSurface 0 5).modify 0 fun d => { d with role := some .xdgToplevel }).modifyPending
    0 fun pending => { pending with frameCallbacks := pending.frameCallbacks ++ [7] },
    [(0, 0)], [], [0]⟩

def opening : List ClientRequest :=
  [.surface ⟨fun _ => none, fun _ => .released⟩ (.createSurface 0 5), .getToplevel 0 0,
    .surface ⟨fun _ => none, fun _ => .released⟩ (.frame 0 7)]

theorem dispatch_opening : Path dispatch ⟨empty, [], [], [0]⟩ opening opened := by
  have hone : Path dispatch ⟨empty, [], [], [0]⟩
      [.surface ⟨fun _ => none, fun _ => .released⟩ (.createSurface 0 5)]
      ⟨empty.createSurface 0 5, [], [], [0]⟩ :=
    .single ⟨List.mem_singleton.mpr rfl, rfl⟩
  have htwo : dispatch.step ⟨empty.createSurface 0 5, [], [], [0]⟩ (.getToplevel 0 0)
      ⟨(empty.createSurface 0 5).modify 0 fun d => { d with role := some .xdgToplevel },
        [(0, 0)], [], [0]⟩ := ⟨⟨Nat.zero_lt_one, by simp⟩, rfl⟩
  have hthree : dispatch.step
      ⟨(empty.createSurface 0 5).modify 0 fun d => { d with role := some .xdgToplevel },
        [(0, 0)], [], [0]⟩
      (.surface ⟨fun _ => none, fun _ => .released⟩ (.frame 0 7)) opened := ⟨rfl, rfl⟩
  exact (hone.snoc htwo).snoc hthree

theorem run_opened : system.Run [.connect 0, .redraw (fun _ => 16) opening] opened := by
  have hconnect : system.Run [.connect 0] ⟨empty, [], [0], []⟩ := .single rfl
  exact hconnect.snoc dispatch_opening

theorem callbacks_of_opened : answered 0 opened.state.events ++ unanswered (opened.state.data 0) =
    askedIn 0 [.connect 0, .redraw (fun _ => 16) opening] :=
  callbacks_of_run run_opened 0

/-- The surfaces that a redraw shows: those of the trees of the toplevels. -/
def Shown (c : Compositor) (i : Nat) (x : Surface) : Prop :=
  ∃ root, c.toplevelSurfaces[i]? = some root ∧ c.state.alive root = true ∧
    c.state.links.Above root x

private theorem mem_tree_iff (hforest : c.state.Forest) {root : Surface} {reverse : Bool} :
    x ∈ c.state.tree reverse root ↔ c.state.alive root = true ∧ c.state.links.Above root x := by
  by_cases halive : c.state.alive root = true
  · simp [mem_tree hforest halive, halive]
  · have hnil : c.state.tree false root = [] := hforest.walk_eq_nil (mt mem_nodes.mp halive)
    have hnone : x ∉ c.state.tree reverse root := by
      cases reverse with
      | false => simp [hnil]
      | true => simp [tree_reverse, hnil]
    exact iff_of_false hnone fun h => halive h.1

private theorem mem_frames {elapsed : Nat → Nat} {time : Nat} (hforest : c.state.Forest) :
    (x, time) ∈ c.frames elapsed ↔ ∃ i, c.Shown i x ∧ time = elapsed i % 2 ^ 32 := by
  simp only [frames, framesOf, List.mem_flatMap, List.mem_map, Shown, Prod.mk.injEq]
  constructor
  · rintro ⟨-, ⟨⟨root, i⟩, hroot, rfl⟩, y, hy, rfl, rfl⟩
    exact ⟨i, ⟨root, List.mem_zipIdx_iff_getElem?.mp hroot, (mem_tree_iff hforest).mp hy⟩, rfl⟩
  · rintro ⟨i, ⟨root, hroot, hshown⟩, rfl⟩
    exact ⟨_, ⟨(root, i), List.mem_zipIdx_iff_getElem?.mpr hroot, rfl⟩, x,
      (mem_tree_iff hforest).mpr hshown, rfl, rfl⟩

theorem answers_clientRequest (hr : c.clientRequest request = some c') :
    answers c'.state.events = answers c.state.events := by
  cases request with
  | surface world r =>
    obtain ⟨s, hs, rfl⟩ := Option.map_eq_some_iff.mp hr
    exact answers_request hs
  | getToplevel toplevel surface =>
    simp only [Compositor.clientRequest, setRole] at hr
    split at hr
    next s hs =>
      cases hr
      split at hs
      · cases hs
      · cases hs
        rfl
    · cases hr
      rw [send_events, answers_append]
      exact List.append_nil _
  | destroyToplevel toplevel =>
    cases hr
    rfl

private theorem answers_dispatch (hpath : Path Compositor.dispatch c requests c') :
    answers c'.state.events = answers c.state.events := by
  induction hpath with
  | nil => rfl
  | snoc _ hstep ih => exact (answers_clientRequest hstep.2).trans ih

theorem answered_redraw {elapsed : Nat → Nat} (hforest : c.state.Forest)
    (hstep : system.step c (.redraw elapsed requests) c') (x : Surface) :
    ((∃ i, c.Shown i x) → answered x c'.state.events = answered x c.state.events ++
        (c.state.data x).attributes.current.frameCallbacks) ∧
      (¬(∃ i, c.Shown i x) → answered x c'.state.events = answered x c.state.events) := by
  have hanswers : answers c'.state.events = answers (sendEach (c.frames elapsed) c.state).events := by
    rw [answers_dispatch hstep, accept_state, sendAllFrames_state]
  have hmem : x ∈ (c.frames elapsed).map Prod.fst ↔ ∃ i, c.Shown i x := by
    simp [mem_frames hforest]
  have haccount : answered x c'.state.events ++
      unanswered ((sendEach (c.frames elapsed) c.state).data x) =
        answered x c.state.events ++ unanswered (c.state.data x) := by
    rw [answered_eq, hanswers, ← answered_eq]
    exact account_sendEach
  rw [data_sendEach] at haccount
  constructor
  · intro hshown
    rw [if_pos (hmem.mpr hshown), unanswered_eq (c.state.data x),
      ← List.append_assoc] at haccount
    exact List.append_cancel_right haccount
  · intro hhidden
    rw [if_neg (mt hmem.mp hhidden)] at haccount
    exact List.append_cancel_right haccount

/-- A redraw answers all that is current on the surfaces it shows, each callback with the time read
for its toplevel, and nothing else is answered. -/
theorem answers_of_redraw {elapsed : Nat → Nat} (hrun : system.Run h c)
    (hstep : system.step c (.redraw elapsed requests) c') :
    ∃ new, answers c'.state.events = answers c.state.events ++ new ∧
      (∀ answer ∈ new, ∃ i, c.Shown i answer.1 ∧ answer.2.2 = elapsed i % 2 ^ 32) ∧
      ∀ x, ((∃ i, c.Shown i x) → answered x c'.state.events = answered x c.state.events ++
          (c.state.data x).attributes.current.frameCallbacks) ∧
        (¬(∃ i, c.Shown i x) → answered x c'.state.events = answered x c.state.events) := by
  have hforest := (Accounts.of_run hrun).invariant.forest
  obtain ⟨sent, hevents, hsent⟩ := events_sendEach (c.frames elapsed) c.state
  have hanswers : answers c'.state.events = answers (sendEach (c.frames elapsed) c.state).events := by
    rw [answers_dispatch hstep, accept_state, sendAllFrames_state]
  refine ⟨answers sent, ?_, ?_, answered_redraw hforest hstep⟩
  · rw [hanswers, hevents, answers_append]
  · intro answer hanswer
    obtain ⟨event, hevent, hdone⟩ := List.mem_filterMap.mp hanswer
    obtain ⟨frame, hframe, callback, rfl⟩ := hsent event hevent
    obtain rfl : (frame.1, callback, frame.2) = answer := by simpa using hdone
    exact (mem_frames hforest).mp hframe

def committed : Compositor :=
  let world : World := ⟨fun _ => none, fun _ => .released⟩
  { opened with state := commit world (opened.state.setClientScale 0) 0 }

theorem answers_of_committed :
    ∃ new, answers (committed.sendAllFrames fun _ => 32).accept.state.events =
        answers committed.state.events ++ new ∧
      (∀ answer ∈ new, ∃ i, committed.Shown i answer.1 ∧ answer.2.2 = 32 % 2 ^ 32) ∧
      ∀ x, ((∃ i, committed.Shown i x) →
          answered x (committed.sendAllFrames fun _ => 32).accept.state.events =
            answered x committed.state.events ++
              (committed.state.data x).attributes.current.frameCallbacks) ∧
        (¬(∃ i, committed.Shown i x) →
          answered x (committed.sendAllFrames fun _ => 32).accept.state.events =
            answered x committed.state.events) := by
  have hconnect : system.Run [.connect 0] ⟨empty, [], [0], []⟩ := .single rfl
  have hcommit : dispatch.step opened
      (.surface ⟨fun _ => none, fun _ => .released⟩ (.commit 0)) committed := ⟨rfl, rfl⟩
  have hredraw : system.step ⟨empty, [], [0], []⟩ (.redraw (fun _ => 16) (opening ++
      [.surface ⟨fun _ => none, fun _ => .released⟩ (.commit 0)])) committed :=
    dispatch_opening.snoc hcommit
  exact answers_of_redraw (hconnect.snoc hredraw) (.nil _)

end Runs

end Compositor

end LocalDesktop.Android.Backend.Wayland
