/- GID: LocalDesktop/Smithay/FrameCallbacks
   generality: G
   digest: Where the frame callbacks of a surface are, from the request to the answer. -/

import LocalDesktop.Smithay.SurfaceRuns

set_option autoImplicit false
set_option relaxedAutoImplicit false

namespace LocalDesktop.Smithay.Surfaces

/-- The callbacks of a surface that were answered. -/
def answered (x : Surface) (events : List SurfaceEvent) : List WlCallback :=
  events.filterMap fun event =>
    match event with
    | .done surface callback _ => if surface = x then some callback else none
    | _ => none

/-- The callbacks that were not answered: current, in the cache or pending, the oldest first. -/
def unanswered (d : PrivateSurfaceData) : List WlCallback :=
  d.attributes.content SurfaceAttributes.frameCallbacks

def account (s : Surfaces) (x : Surface) : List WlCallback :=
  answered x s.events ++ unanswered (s.data x)

def requestedBy (x : Surface) : Request → List WlCallback
  | .frame surface callback => if surface = x then [callback] else []
  | _ => []

theorem carried_frameCallbacks : CachedState.Carried SurfaceAttributes.frameCallbacks where
  commit_left _ := rfl
  commit_snapshot _ := rfl
  merge _ _ := rfl

section Account

variable {s s' : Surfaces} {x surface parent : Surface} {events : List SurfaceEvent}

theorem answered_append {events' : List SurfaceEvent} :
    answered x (events ++ events') = answered x events ++ answered x events' :=
  List.filterMap_append

private theorem answered_release {buffers : List WlBuffer} :
    answered x (buffers.map (SurfaceEvent.release surface)) = [] := by
  simp [answered]

theorem answered_done {callbacks : List WlCallback} {time : Nat} :
    answered x (callbacks.map fun callback => .done surface callback time) =
      if surface = x then callbacks else [] := by
  rw [answered, List.filterMap_map]
  by_cases hx : surface = x
  · simp [hx]
  · simp [hx]

private theorem account_modify {f : PrivateSurfaceData → PrivateSurfaceData}
    (hf : unanswered (f (s.data surface)) = unanswered (s.data surface)) :
    (s.modify surface f).account x = s.account x := by
  rw [account, account, data_modify]
  split
  next hx => rw [hf, hx, modify_events]
  · rfl

theorem account_send (hquiet : answered x events = []) :
    (s.send events).account x = s.account x := by
  rw [account, send_events, answered_append, hquiet, List.append_nil]
  rfl

private theorem account_transform {f : PrivateSurfaceData → PrivateSurfaceData × List WlBuffer}
    (hf : ∀ d, unanswered (f d).1 = unanswered d) :
    (s.transform surface f).account x = s.account x := by
  rw [transform, account_send answered_release]
  exact account_modify (hf _)

private theorem Elementary.account (hstep : Elementary s s') : s'.account x = s.account x := by
  cases hstep with
  | commitState y id =>
    exact account_transform fun d => carried_frameCallbacks.content_commit (some id)
  | applyState y id =>
    exact account_transform fun d => carried_frameCallbacks.content_applyState id
  | updateBuffer y dimensions =>
    apply account_transform
    intro d
    simp only [PrivateSurfaceData.updateBuffer]
    split
    · split <;> rfl
    · rfl
    · rfl
  | transaction y t id => exact account_modify rfl
  | queues queues => rfl

theorem Elementaries.account (hsteps : Elementaries s s') : s'.account x = s.account x := by
  induction hsteps with
  | refl => rfl
  | tail _ hstep ih => exact hstep.account.trans ih

private theorem account_modifyPending {f : SurfaceAttributes → SurfaceAttributes}
    (hf : ∀ pending, (f pending).frameCallbacks = pending.frameCallbacks) :
    (s.modifyPending surface f).account x = s.account x := by
  apply account_modify
  simp only [unanswered, CachedState.content, hf]

private theorem account_frame {callback : WlCallback} :
    (s.modifyPending surface fun pending =>
      { pending with frameCallbacks := pending.frameCallbacks ++ [callback] }).account x =
      s.account x ++ requestedBy x (.frame surface callback) := by
  rw [account, account, modifyPending, data_modify, requestedBy]
  by_cases hx : x = surface
  · simp [hx, unanswered, CachedState.content]
  · simp [hx, Ne.symm hx]

private theorem unsetParent_events : (s.unsetParent surface).events = s.events := by
  rw [unsetParent]
  split <;> rfl

private theorem account_unsetParent : (s.unsetParent surface).account x = s.account x := by
  rw [account, account, unsetParent_events,
    read_unsetParent (g := unanswered) (fun _ _ => rfl) fun _ _ => rfl]

private theorem account_cleanup : (s.cleanup surface).account x = s.account x := by
  rw [account, read_cleanup (g := unanswered) (fun _ _ => rfl) (fun _ _ => rfl) fun _ => rfl]
  simp only [cleanup, send_events, modify_events, orphan, unsetParent_events, answered_append,
    answered_release, List.append_nil]
  rfl

private theorem account_setParent (hset : s.setParent surface parent = some s') :
    s'.account x = s.account x := by
  obtain ⟨-, -, -, rfl⟩ := setParent_eq_some_iff.mp hset
  exact (account_modify rfl).trans (account_modify rfl)

private theorem account_attach {buffer : Option WlBuffer} {i j : Int} :
    (s.attach surface buffer i j).account x = s.account x := by
  have hrefused : ∀ refused : Bool, (if refused = true then s.send
      [.error surface .invalidOffset] else s).account x = s.account x := by
    intro refused
    cases refused with
    | false => rfl
    | true => exact account_send rfl
  simp only [attach]
  rw [account_modifyPending]
  · exact hrefused _
  · exact fun _ => rfl

private theorem account_getSubsurface :
    (s.getSubsurface surface parent).account x = s.account x := by
  rw [getSubsurface]
  split
  next s₁ hset =>
    calc ({ s₁ with subsurfaces := s₁.subsurfaces ++ [surface] }.modify surface fun d =>
          { d with sync := d.sync <|> some true }).account x
        = { s₁ with subsurfaces := s₁.subsurfaces ++ [surface] }.account x := account_modify rfl
      _ = s₁.account x := rfl
      _ = s.account x := account_setParent hset
  · exact account_send rfl

theorem account_setRole {role : Role} (hset : s.setRole surface role = some s') :
    s'.account x = s.account x := by
  simp only [setRole] at hset
  split at hset
  · cases hset
  · cases hset
    exact account_modify rfl

private theorem account_setSyncFlag {sync : Bool} (hset : s.setSyncFlag surface sync = some s') :
    s'.account x = s.account x := by
  obtain ⟨-, -, rfl⟩ := Option.map_eq_some_iff.mp hset
  exact account_modify rfl

private theorem account_destroySubsurface (hdestroy : s.destroySubsurface surface = some s') :
    s'.account x = s.account x := by
  obtain ⟨s₁, hset, rfl⟩ := Option.map_eq_some_iff.mp hdestroy
  have hflag := account_setSyncFlag (x := x) hset
  rw [account_unsetParent] at hflag
  have hreset : (s₁.modify surface fun d => { d with subsurface :=
      { d.subsurface with pending := Cacheable.initial, current := Cacheable.initial } }).account x =
        s₁.account x := account_modify rfl
  exact hreset.trans hflag

private theorem account_place {location : Location} {sibling : Surface}
    (hplace : s.place surface location sibling = some s') : s'.account x = s.account x := by
  obtain ⟨parent, children, rfl⟩ | rfl := place_cases hplace
  · exact account_modify rfl
  · exact account_send rfl

theorem account_request {world : World} {r : Request} (hfresh : unanswered (s.data s.created) = [])
    (hr : request world s r = some s') : s'.account x = s.account x ++ requestedBy x r := by
  have hquiet : ∀ {t : Surfaces}, t.account x = s.account x →
      t.account x = s.account x ++ [] := fun heq => heq.trans (List.append_nil _).symm
  cases r with
  | createSurface client version =>
    cases hr
    apply hquiet
    rw [account, account]
    by_cases hx : x = s.created
    · subst hx
      simp only [createSurface, Function.update_self, hfresh]
      rfl
    · simp [createSurface, hx]
  | attach surface buffer i j =>
    cases hr
    exact hquiet account_attach
  | damage | setOpaqueRegion | setInputRegion | setBufferTransform | damageBuffer | offset =>
    cases hr
    exact hquiet (account_modifyPending fun _ => rfl)
  | frame surface callback =>
    cases hr
    exact account_frame
  | commit surface =>
    cases hr
    exact hquiet (elementaries_commit.account.trans (account_modifyPending fun _ => rfl))
  | setBufferScale surface scale =>
    simp only [request] at hr
    split at hr
    · cases hr
      exact hquiet (account_modifyPending fun _ => rfl)
    · cases hr
      exact hquiet (account_send rfl)
  | destroySurface surface =>
    cases hr
    exact hquiet account_cleanup
  | getSubsurface surface parent =>
    cases hr
    exact hquiet account_getSubsurface
  | setPosition | addBlocker =>
    cases hr
    apply hquiet
    exact account_modify rfl
  | placeAbove | placeBelow => exact hquiet (account_place hr)
  | setSync | setDesync => exact hquiet (account_setSyncFlag hr)
  | destroySubsurface surface => exact hquiet (account_destroySubsurface hr)
  | giveRole surface role =>
    cases hr
    apply hquiet
    cases hset : s.setRole surface role with
    | none => exact account_send rfl
    | some s' => exact account_setRole hset
  | blockerCleared client =>
    cases hr
    exact hquiet elementaries_runQueue.account

end Account

/-! Only a frame answers. -/

def answers (events : List SurfaceEvent) : List (Surface × WlCallback × Nat) :=
  events.filterMap fun event =>
    match event with
    | .done surface callback time => some (surface, callback, time)
    | _ => none

section Answers

variable {s s' : Surfaces} {x surface parent : Surface} {events : List SurfaceEvent}

theorem answers_append {events' : List SurfaceEvent} :
    answers (events ++ events') = answers events ++ answers events' :=
  List.filterMap_append

theorem answered_eq : answered x events =
    ((answers events).filter fun answer => decide (answer.1 = x)).map fun answer => answer.2.1 := by
  induction events with
  | nil => rfl
  | cons event events ih =>
    cases event with
    | done surface callback time =>
      by_cases hx : surface = x
      · simp only [answered, answers, List.filterMap_cons, if_pos hx] at ih ⊢
        rw [List.filter_cons_of_pos (by simpa using hx), List.map_cons, ih]
      · simp only [answered, answers, List.filterMap_cons, if_neg hx] at ih ⊢
        rw [List.filter_cons_of_neg (by simpa using hx), ih]
    | release | error => exact ih

theorem answered_of_answers {events' : List SurfaceEvent} (h : answers events' = answers events) :
    answered x events' = answered x events := by
  rw [answered_eq, answered_eq, h]

private theorem answers_transform {f : PrivateSurfaceData → PrivateSurfaceData × List WlBuffer} :
    answers (s.transform surface f).events = answers s.events := by
  have hquiet : ∀ buffers : List WlBuffer,
      answers (buffers.map (SurfaceEvent.release surface)) = [] := by
    intro buffers
    simp [answers]
  rw [transform, send_events, answers_append, hquiet, List.append_nil, modify_events]

private theorem Elementary.answers (hstep : Elementary s s') :
    answers s'.events = Surfaces.answers s.events := by
  cases hstep with
  | commitState | applyState | updateBuffer => exact answers_transform
  | transaction | queues => rfl

theorem Elementaries.answers (hsteps : Elementaries s s') :
    answers s'.events = Surfaces.answers s.events := by
  induction hsteps with
  | refl => rfl
  | tail _ hstep ih => exact hstep.answers.trans ih

theorem answers_request {world : World} {r : Request} (hr : request world s r = some s') :
    answers s'.events = answers s.events := by
  have hsend : ∀ {surface : Surface} {error : ProtocolError},
      answers (s.send [.error surface error]).events = answers s.events := by
    intro surface error
    rw [send_events, answers_append]
    exact List.append_nil _
  have hflag : ∀ {t : Surfaces} {surface : Surface} {sync : Bool},
      t.setSyncFlag surface sync = some s' → s'.events = t.events := by
    intro t surface sync hset
    obtain ⟨-, -, rfl⟩ := Option.map_eq_some_iff.mp hset
    rfl
  have hplace : ∀ {surface sibling : Surface} {location : Location},
      s.place surface location sibling = some s' → answers s'.events = answers s.events := by
    intro surface sibling location hplace
    obtain ⟨parent, children, rfl⟩ | rfl := place_cases hplace
    · rfl
    · exact hsend
  cases r with
  | attach surface buffer x y =>
    cases hr
    have hrefused : ∀ refused : Bool, answers (if refused = true then s.send
        [.error surface .invalidOffset] else s).events = answers s.events := by
      intro refused
      cases refused with
      | false => rfl
      | true => exact hsend
    exact hrefused _
  | createSurface | damage | frame | setOpaqueRegion | setInputRegion | setBufferTransform
  | damageBuffer | offset | setPosition | addBlocker =>
    cases hr
    rfl
  | commit surface =>
    cases hr
    exact elementaries_commit.answers
  | setBufferScale surface scale =>
    simp only [request] at hr
    split at hr
    · cases hr
      rfl
    · cases hr
      exact hsend
  | destroySurface surface =>
    cases hr
    simp only [destroySurface, cleanup, send_events, modify_events, orphan, answers_append,
      unsetParent_events]
    simp [answers]
  | getSubsurface surface parent =>
    cases hr
    simp only [getSubsurface]
    split
    next s₁ hset =>
      obtain ⟨-, -, -, rfl⟩ := setParent_eq_some_iff.mp hset
      rfl
    · exact hsend
  | placeAbove | placeBelow => exact hplace hr
  | setSync | setDesync => rw [hflag hr]
  | destroySubsurface surface =>
    obtain ⟨s₁, hset, rfl⟩ := Option.map_eq_some_iff.mp hr
    obtain ⟨-, -, rfl⟩ := Option.map_eq_some_iff.mp hset
    exact congrArg answers unsetParent_events
  | giveRole surface role =>
    cases hr
    simp only [setRole]
    split
    · exact hsend
    · rfl
  | blockerCleared client =>
    cases hr
    exact elementaries_runQueue.answers

end Answers

end LocalDesktop.Smithay.Surfaces
