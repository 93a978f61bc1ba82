/- GID: LocalDesktop/Android/Backend/Wayland/Configures
   generality: G
   digest: Every acknowledgement of a configure in every run, and what of it is in effect. -/

import LocalDesktop.Android.Backend.Wayland.ShellInvariant

/-!
The serials of configures and of input events come from one counter of 32 bits,
which wraps around. Acknowledgements compare serials, so they are understood as
long as a client is not half a turn of the counter late.
-/

set_option autoImplicit false
set_option relaxedAutoImplicit false

namespace LocalDesktop.Android.Backend.Wayland

open Foundation.Transition Smithay Smithay.Surfaces

namespace ShellEvent

def serialOf : ShellEvent → Option Nat
  | .configured _ configure _ => some configure.serial
  | .serial n => some n
  | .error _ _ => none

def configureFor (x : Surface) : ShellEvent → Option (Configure ToplevelState)
  | .configured y configure _ => if y = x then some configure else none
  | .serial _ | .error _ _ => none

end ShellEvent

namespace Shell

variable {s s' : Shell} {r : ShellRequest} {e : Step} {h : List Step} {x y : Surface}
  {events new : List ShellEvent}

def serials (events : List ShellEvent) : List Nat := events.filterMap ShellEvent.serialOf

def sentTo (x : Surface) (events : List ShellEvent) : List (Configure ToplevelState) :=
  events.filterMap (ShellEvent.configureFor x)

private theorem serials_append : serials (events ++ new) = serials events ++ serials new :=
  List.filterMap_append

private theorem sentTo_append : sentTo x (events ++ new) = sentTo x events ++ sentTo x new :=
  List.filterMap_append

private theorem sublist_serials : ((sentTo x events).map Configure.serial).Sublist
    (serials events) := by
  induction events with
  | nil => exact .slnil
  | cons event events ih =>
    cases event with
    | configured y configure messages =>
      by_cases hy : y = x
      · simpa [sentTo, serials, ShellEvent.configureFor, ShellEvent.serialOf, hy] using ih
      · simpa [sentTo, serials, ShellEvent.configureFor, ShellEvent.serialOf, hy] using ih.cons _
    | serial n => exact ih.cons n
    | error y error => exact ih

/-! Every serial is drawn once, in the order of the counter. -/

/-- What is told is told after all that was told before, with the next serials. -/
structure Numbered (s : Shell) : Prop where
  drawn : Serial.Drawn (serials s.events).length s.counter
  inTurn : serials s.events = (List.range (serials s.events).length).map Serial.nth

private theorem Numbered.tell_none (hs : s.Numbered) (hnone : serials new = []) :
    (s.tell new).Numbered := by
  have hserials : serials (s.tell new).events = serials s.events := by
    rw [tell, serials_append, hnone, List.append_nil]
  exact ⟨hserials ▸ hs.drawn, hserials ▸ hs.inTurn⟩

private theorem Numbered.next (hs : s.Numbered)
    (hcounter : s'.counter = (Serial.nextSerial s.counter).2)
    (hserials : serials s'.events = serials s.events ++ [(Serial.nextSerial s.counter).1]) :
    s'.Numbered := by
  have hlength : (serials s'.events).length = (serials s.events).length + 1 := by simp [hserials]
  refine ⟨?_, ?_⟩
  · rw [hlength, hcounter]
    exact hs.drawn.succ
  · have hdrawn : (Serial.nextSerial s.counter).1 = Serial.nth (serials s.events).length := hs.drawn
    rw [hlength, List.range_succ, List.map_append, ← hs.inTurn, hserials, hdrawn]
    rfl

private theorem Numbered.congr (hs : s.Numbered) (hcounter : s'.counter = s.counter)
    (hevents : s'.events = s.events) : s'.Numbered := by
  refine ⟨?_, ?_⟩
  · rw [hevents, hcounter]
    exact hs.drawn
  · rw [hevents]
    exact hs.inTurn

private theorem Numbered.configure {version : Nat} {attributes : XdgToplevelAttributes}
    (hs : s.Numbered) : (s.configure version x attributes).Numbered := by
  have hserial : (attributes.sendConfigure version (Serial.nextSerial s.counter).1).1.serial =
      (Serial.nextSerial s.counter).1 :=
    congrArg Configure.serial (RoleAttributes.sendConfigure_state attributes.role _)
  refine hs.next configure_counter ?_
  rw [configure_events, serials_append]
  simp [serials, ShellEvent.serialOf, hserial]

private theorem Numbered.step (hs : s.Numbered) (hstep : system.step s e s') : s'.Numbered := by
  cases e with
  | connect client | frames elapsed | resumed size =>
    cases hstep
    exact hs.congr rfl rfl
  | input =>
    cases hstep
    exact hs.next rfl serials_append
  | request r =>
    cases effect_of_request hstep.2 hstep.1 with
    | made hrole =>
      refine Numbered.configure ?_
      exact hs.congr rfl rfl
    | sent hr hx ha => exact hs.configure
    | invalidParent | refused => exact hs.tell_none rfl
    | surface | commit | unmade | destroyed | parented | popup | noPopup | popupDestroyed | acked
    | popupAcked => exact hs.congr rfl rfl

private theorem Numbered.of_run (hrun : system.Run h s) : s.Numbered :=
  hrun.invariant (I := fun _ s => s.Numbered) ⟨Serial.drawn_zero, rfl⟩
    fun _ _ _ _ _ hs hstep => hs.step hstep

private theorem Numbered.inOrder {before after : List ShellEvent} (hs : s.Numbered)
    (hsplit : s.events = before ++ after) (hshort : (serials after).length < 2 ^ 31) :
    RoleAttributes.InOrder (sentTo x after) := by
  have hall := hs.inTurn
  rw [hsplit, serials_append, List.length_append, List.range_eq_range', ← List.range'_append_1,
    List.map_append] at hall
  obtain ⟨-, hafter⟩ := List.append_inj hall (by simp)
  have hordered := Serial.pairwise_nth (0 + (serials before).length) hshort
  rw [← hafter] at hordered
  exact hordered.sublist sublist_serials

/-! What is kept of a toplevel, against what its client was sent. -/

/-- The client is not half a turn of the counter late with an acknowledgement. -/
def Prompt (s : Shell) : Step → Prop
  | .request (.ackConfigure x _) => ∀ a, s.roles.toplevels x = some a → ∃ before after,
      s.events = before ++ after ∧ sentTo x after = a.role.pendingConfigures ∧
        (serials after).length < 2 ^ 31
  | _ => True

private theorem Prompt.inOrder {serial : Nat} {a : XdgToplevelAttributes} (hs : s.Numbered)
    (hprompt : s.Prompt (.request (.ackConfigure x serial))) (ha : s.roles.toplevels x = some a) :
    RoleAttributes.InOrder a.role.pendingConfigures := by
  obtain ⟨before, after, hsplit, hafter, hshort⟩ := hprompt a ha
  exact hafter ▸ hs.inOrder hsplit hshort

/-- Of a state, what only the server changes: all but the capabilities, which every `get_toplevel`
writes anew. -/
def shown (state : ToplevelState) : Option Size × Option Size × ToplevelStateSet :=
  (state.size, state.bounds, state.states)

def Remembered (r : ShellRoles) (events : List ShellEvent) : Prop :=
  ∀ x a, r.toplevels x = some a → a.role.Remembers shown .default (sentTo x events)

namespace Remembered

variable {roles roles' : ShellRoles} {a : XdgToplevelAttributes}

private theorem tell_none (hr : Remembered roles events) (hnone : ∀ x, sentTo x new = []) :
    Remembered roles (events ++ new) := by
  intro x a ha
  rw [sentTo_append, hnone, List.append_nil]
  exact hr x a ha

private theorem setToplevel (hr : Remembered roles events)
    (ha : a.role.Remembers shown .default (sentTo x events)) :
    Remembered (roles.setToplevel x a) events :=
  ShellRoles.forall_setToplevel hr ha

private theorem configure {version : Nat} (hr : Remembered s.roles s.events)
    (ha : a.role.Remembers shown .default (sentTo x s.events)) :
    Remembered (s.configure version x a).roles (s.configure version x a).events := by
  intro y b hb
  rw [configure_roles, ShellRoles.toplevels_setToplevel] at hb
  rw [configure_events, sentTo_append]
  split at hb
  next hy =>
    cases hb
    subst hy
    have hsent := ha.sendConfigure (Serial.nextSerial s.counter).1
    have hnew : sentTo y [.configured y
        (a.sendConfigure version (Serial.nextSerial s.counter).1).1
        (a.sendConfigure version (Serial.nextSerial s.counter).1).2.1] =
        [(a.role.sendConfigure (Serial.nextSerial s.counter).1).1] := by
      simp only [sentTo, ShellEvent.configureFor, List.filterMap_cons, if_true]
      rfl
    rw [hnew]
    exact hsent
  next hy =>
    have hother : x ≠ y := fun h => hy h.symm
    simpa [sentTo, ShellEvent.configureFor, hother] using hr y b hb

private theorem hooked {world : World} (hr : Remembered s.roles s.events) :
    Remembered (s.hooked world x) s.events :=
  forall_hooked hr fun _ _ _ hrole => hrole.commitHook

private theorem madeAttributes {size : Size} (hr : Remembered s.roles s.events) :
    (madeAttributes size (s.roles.toplevels x)).role.Remembers shown .default
      (sentTo x s.events) := by
  cases ha : s.roles.toplevels x with
  | none => exact RoleAttributes.Remembers.ofDefault.congr rfl rfl rfl rfl rfl
  | some a => exact (hr x a ha).congr rfl rfl rfl rfl rfl

private theorem step (hs : s.Numbered) (hr : Remembered s.roles s.events) (hprompt : s.Prompt e)
    (hstep : system.step s e s') : Remembered s'.roles s'.events := by
  cases e with
  | connect client | frames elapsed | resumed size =>
    cases hstep
    exact hr
  | input =>
    cases hstep
    exact hr.tell_none fun _ => rfl
  | request r =>
    cases effect_of_request hstep.2 hstep.1 with
    | made hrole => exact configure hr hr.madeAttributes
    | sent hr' hx ha => exact configure hr (hr _ _ ha)
    | invalidParent | refused => exact hr.tell_none fun _ => rfl
    | commit world x => exact hr.hooked
    | destroyed hx ha => exact hr.setToplevel .ofDefault
    | @parented toplevel object x parent a hx hparent hvalid ha =>
      have hkept := hr x a ha
      refine hr.setToplevel ?_
      exact hkept
    | acked ha hack =>
      refine hr.setToplevel ?_
      exact (hr _ _ ha).ackConfigure (hprompt.inOrder hs ha) hack
    | surface | unmade | popup | noPopup | popupDestroyed | popupAcked => exact hr

private theorem of_run (hrun : (system.guarded Prompt).Run h s) : Remembered s.roles s.events := by
  have hboth : s.Numbered ∧ Remembered s.roles s.events :=
    hrun.invariant (I := fun _ s => s.Numbered ∧ Remembered s.roles s.events)
      ⟨⟨Serial.drawn_zero, rfl⟩, fun x a ha => by cases ha⟩
      fun _ _ _ _ _ ⟨hs, hr⟩ hstep => ⟨hs.step hstep.2, hr.step hs hstep.1 hstep.2⟩
  exact hboth.2

end Remembered

/-! The child of the family, and its first acknowledgement. -/

private theorem prompt_family : (system.guarded Prompt).Run familyHistory family := by
  refine run_family.to_guarded fun pre e post u v hsplit _ _ => ?_
  have hmem : e ∈ familyHistory := hsplit ▸ List.mem_append_right _ List.mem_cons_self
  simp only [familyHistory, familyRequests, List.mem_append, List.map_cons, List.map_nil,
    List.mem_cons, List.not_mem_nil, or_false, or_assoc] at hmem
  rcases hmem with rfl | rfl | rfl | rfl | rfl | rfl | rfl <;> trivial

def child : XdgToplevelAttributes :=
  { ((madeAttributes single.size none).sendConfigure 6 2).2.2 with parent := some 0 }

def agreedChild : XdgToplevelAttributes :=
  { child with role :=
    { child.role with
      lastAcked := some (madeAttributes single.size none).role.nextState
      configured := true
      configureSerial := some 2
      pendingConfigures := [] } }

def agreed : Shell := { family with roles := family.roles.setToplevel 1 agreedChild }

private theorem prompt_child : family.Prompt (.request (.ackConfigure 1 2)) := by
  intro a ha
  obtain rfl : child = a := Option.some.inj ha
  exact ⟨family.events.take 1, family.events.drop 1, (List.take_append_drop 1 _).symm, rfl,
    by decide⟩

private theorem run_agreed : (system.guarded Prompt).Run
    (familyHistory ++ [.request (.ackConfigure 1 2)])
    agreed := by
  have hack : system.step family (.request (.ackConfigure 1 2)) agreed := ⟨⟨by decide, by decide⟩, rfl⟩
  exact prompt_family.snoc ⟨prompt_child, hack⟩

/-! What comes of an acknowledgement, and what is in effect. -/

section Runs

variable {a : XdgToplevelAttributes} {serial : Nat}

/-- An acknowledgement is accepted exactly if it names a configure that waits. Those wait that were
sent after the one that was acknowledged last; the acknowledgement settles the older ones, too. -/
theorem acknowledged_of_run (hrun : (system.guarded Prompt).Run h s)
    (ha : s.roles.toplevels x = some a)
    (hprompt : s.Prompt (.request (.ackConfigure x serial))) :
    ∃ settled, sentTo x s.events = settled ++ a.role.pendingConfigures ∧
      (∀ state, a.role.lastAcked = some state → ∃ older last,
        settled = older ++ [⟨state, last⟩] ∧ a.role.configureSerial = some last) ∧
      ((∃ before configure after, a.role.pendingConfigures = before ++ configure :: after ∧
          configure.serial = serial ∧
          s.request (.ackConfigure x serial) = some
            { s with roles := s.roles.setToplevel x { a with role :=
              { a.role with
                lastAcked := some configure.state
                configured := true
                configureSerial := some serial
                pendingConfigures := after } } }) ∨
        ((∀ configure ∈ a.role.pendingConfigures, configure.serial ≠ serial) ∧
          s.request (.ackConfigure x serial) =
            some (s.tell [.error x (.wrongConfigureSerial serial)]))) := by
  have hshell := Invariant.of_run hrun.of_guarded
  have hkept := Remembered.of_run hrun x a ha
  have hord := hprompt.inOrder (Numbered.of_run hrun.of_guarded) ha
  have hrole : (s.base.state.data x).role = some .xdgToplevel :=
    (hshell.toplevel x).mpr (Option.isSome_iff_exists.mpr ⟨a, ha⟩)
  obtain ⟨settled, hsent⟩ := hkept.waiting
  refine ⟨settled, hsent.symm, fun state hstate => ?_, ?_⟩
  · obtain ⟨older, last, hlast, hserial⟩ := hkept.acked state hstate
    refine ⟨older, last, List.append_cancel_right (hsent.trans ?_), hserial⟩
    rw [hlast, List.append_assoc, List.singleton_append]
  · cases hack : a.role.ackConfigure serial with
    | none =>
      right
      refine ⟨RoleAttributes.ackConfigure_eq_none_iff.mp hack, ?_⟩
      simp [request, ackConfigure, hrole, ha, hack]
    | some role =>
      left
      obtain ⟨before, configure, after, hsplit, hserial, rfl⟩ :=
        RoleAttributes.ackConfigure_cases hord hack
      refine ⟨before, configure, after, hsplit, hserial, ?_⟩
      simp [request, ackConfigure, hrole, ha, hack]

theorem acknowledged_of_child : ∃ settled, sentTo 1 family.events = settled ++
      child.role.pendingConfigures ∧
    (∀ state, child.role.lastAcked = some state → ∃ older last,
      settled = older ++ [⟨state, last⟩] ∧ child.role.configureSerial = some last) ∧
    ((∃ before configure after, child.role.pendingConfigures = before ++ configure :: after ∧
        configure.serial = 2 ∧
        family.request (.ackConfigure 1 2) = some
          { family with roles := family.roles.setToplevel 1 { child with role :=
            { child.role with
              lastAcked := some configure.state
              configured := true
              configureSerial := some 2
              pendingConfigures := after } } }) ∨
      ((∀ configure ∈ child.role.pendingConfigures, configure.serial ≠ 2) ∧
        family.request (.ackConfigure 1 2) =
          some (family.tell [.error 1 (.wrongConfigureSerial 2)]))) :=
  acknowledged_of_run prompt_family rfl prompt_child

/-- Of the size, bounds and states of a toplevel, only what was configured and then acknowledged is
in effect. -/
theorem inEffect_of_run (hrun : (system.guarded Prompt).Run h s)
    (ha : s.roles.toplevels x = some a) :
    (a.role.currentSerial = none ∧ shown a.role.current = shown .default) ∨
      ∃ settled configure newer, sentTo x s.events = settled ++ configure :: newer ∧
        a.role.pendingConfigures <:+ newer ∧ a.role.currentSerial = some configure.serial ∧
        shown a.role.current = shown configure.state := by
  have hkept := Remembered.of_run hrun x a ha
  cases hserial : a.role.currentSerial with
  | none => exact .inl ⟨rfl, hkept.untouched hserial⟩
  | some serial =>
    obtain ⟨settled, configure, newer, hsent, hnewer, rfl, hshown⟩ := hkept.inEffect serial hserial
    exact .inr ⟨settled, configure, newer, hsent, hnewer, rfl, hshown.symm⟩

theorem inEffect_of_agreed :
    (agreedChild.role.currentSerial = none ∧ shown agreedChild.role.current = shown .default) ∨
      ∃ settled configure newer, sentTo 1 agreed.events = settled ++ configure :: newer ∧
        agreedChild.role.pendingConfigures <:+ newer ∧
        agreedChild.role.currentSerial = some configure.serial ∧
        shown agreedChild.role.current = shown configure.state :=
  inEffect_of_run run_agreed rfl

/-! Popups. -/

/-- No popup waits for an acknowledgement, and only toplevels are sent configures. -/
structure Unsent (s : Shell) : Prop where
  waiting : ∀ x a, s.roles.popups x = some a → a.role.pendingConfigures = []
  sent : ∀ x, s.roles.toplevels x = none → sentTo x s.events = []

namespace Unsent

private theorem setToplevel (hs : s.Unsent) (htoplevels : s'.roles = s.roles.setToplevel x a)
    (hsent : ∀ y, y ≠ x → sentTo y s'.events = sentTo y s.events) : s'.Unsent := by
  refine ⟨?_, fun y hy => ?_⟩
  · rw [htoplevels]
    exact hs.waiting
  · rw [htoplevels, ShellRoles.toplevels_setToplevel] at hy
    split at hy
    · cases hy
    next hne =>
      rw [hsent y hne]
      exact hs.sent y hy

private theorem setPopup {popup : XdgPopupAttributes} (hs : s.Unsent)
    (hpopups : s'.roles = s.roles.setPopup x popup) (hevents : s'.events = s.events)
    (hwaiting : popup.role.pendingConfigures = []) : s'.Unsent := by
  refine ⟨fun y b hb => ?_, ?_⟩
  · rw [hpopups, ShellRoles.popups_setPopup] at hb
    split at hb
    · cases hb
      exact hwaiting
    · exact hs.waiting y b hb
  · rw [hpopups, hevents]
    exact hs.sent

private theorem congr (hs : s.Unsent) (hroles : s'.roles = s.roles)
    (hsent : ∀ y, sentTo y s'.events = sentTo y s.events) : s'.Unsent := by
  refine ⟨?_, fun y hy => ?_⟩
  · rw [hroles]
    exact hs.waiting
  · rw [hsent]
    exact hs.sent y (hroles ▸ hy)

private theorem configure {version : Nat} (hs : s.Unsent) : (s.configure version x a).Unsent := by
  refine hs.setToplevel configure_roles fun y hy => ?_
  have hother : x ≠ y := fun h => hy h.symm
  rw [configure_events, sentTo_append]
  simp [sentTo, ShellEvent.configureFor, hother]

private theorem hooked {world : World} (hs : s.Unsent) (hroles : s'.roles = s.hooked world x)
    (hevents : s'.events = s.events) : s'.Unsent := by
  have hwaiting : ∀ y b, (s.hooked world x).popups y = some b → b.role.pendingConfigures = [] := by
    refine snd_commitWith_kept (I := fun r : ShellRoles => ∀ y b, r.popups y = some b →
      b.role.pendingConfigures = []) (fun y hasBuffer r hr z b hb => ?_) hs.waiting
    rw [ShellRoles.popups_invokePostCommitHooks] at hb
    split at hb
    · obtain ⟨before, hbefore, rfl⟩ := Option.map_eq_some_iff.mp hb
      have hsame : (before.postCommitHook hasBuffer).role.pendingConfigures =
          before.role.pendingConfigures := by
        simp only [XdgPopupAttributes.postCommitHook]
        split <;> rfl
      exact hsame.trans (hr y before hbefore)
    · exact hr z b hb
  refine ⟨hroles ▸ hwaiting, fun y hy => ?_⟩
  have hnone : s.roles.toplevels y = none := by
    rw [hroles] at hy
    rw [← Option.isNone_iff_eq_none, ← Option.not_isSome, ← hooked_commit.toplevels, hy]
    rfl
  rw [hevents]
  exact hs.sent y hnone

private theorem step (hs : s.Unsent) (hstep : system.step s e s') : s'.Unsent := by
  cases e with
  | connect client | frames elapsed | resumed size =>
    cases hstep
    exact hs.congr rfl fun _ => rfl
  | input =>
    cases hstep
    refine hs.congr rfl fun y => ?_
    exact sentTo_append.trans (List.append_nil _)
  | request r =>
    cases effect_of_request hstep.2 hstep.1 with
    | made hrole =>
      refine configure ?_
      exact hs.congr rfl fun _ => rfl
    | sent hr hx ha => exact hs.configure
    | invalidParent | refused => exact hs.congr rfl fun y => sentTo_append.trans (List.append_nil _)
    | commit world x => exact hs.hooked rfl rfl
    | destroyed | parented | acked => exact hs.setToplevel rfl fun _ _ => rfl
    | popup | popupDestroyed => exact hs.setPopup rfl rfl rfl
    | @popupAcked x serial a role ha hack =>
      have hnone : a.role.ackConfigure serial = none := by
        rw [RoleAttributes.ackConfigure_eq_none_iff, hs.waiting x a ha]
        simp
      exact absurd (hnone.symm.trans hack) (Option.some_ne_none _).symm
    | surface | unmade | noPopup => exact hs.congr rfl fun _ => rfl

private theorem of_run (hrun : system.Run h s) : s.Unsent := by
  have hstart : build.Unsent := ⟨fun x a ha => (by cases ha), fun _ _ => rfl⟩
  exact hrun.invariant (I := fun _ s => s.Unsent) hstart fun _ _ _ _ _ hs hstep => hs.step hstep

end Unsent

/-- A popup is never sent a configure, so whatever its client acknowledges is wrong. -/
theorem popup_of_run (hrun : system.Run h s) (hrole : (s.base.state.data x).role = some .xdgPopup)
    (serial : Nat) : sentTo x s.events = [] ∧
      s.request (.ackConfigure x serial) =
        some (s.tell [.error x (.wrongConfigureSerial serial)]) := by
  have hshell := Invariant.of_run hrun
  have hunsent := Unsent.of_run hrun
  obtain ⟨a, ha⟩ := Option.isSome_iff_exists.mp ((hshell.popup x).mp hrole)
  have hnone : s.roles.toplevels x = none := by
    rw [← Option.not_isSome_iff_eq_none, ← hshell.toplevel, hrole]
    simp
  have hack : a.role.ackConfigure serial = none := by
    rw [RoleAttributes.ackConfigure_eq_none_iff, hunsent.waiting x a ha]
    simp
  refine ⟨hunsent.sent x hnone, ?_⟩
  simp [request, ackConfigure, hrole, ha, hack]

def popped : Shell := greeted.surfaced.getPopup 0 0 none .default

theorem popup_of_popped : sentTo 0 popped.events = [] ∧
    popped.request (.ackConfigure 0 1) =
      some (popped.tell [.error 0 (.wrongConfigureSerial 1)]) := by
  have hconnect : system.step build (.connect 0)
      { build with base := { build.base with listener := [0] } } := rfl
  have hframes : system.step { build with base := { build.base with listener := [0] } }
      (.frames fun _ => 0) greeted := rfl
  have hsurface : system.step greeted (.request (.surface idle (.createSurface 0 5)))
      greeted.surfaced := step_surfaced (List.mem_singleton.mpr rfl)
  have hpopup : system.step greeted.surfaced (.request (.getPopup 0 0 none .default)) popped :=
    ⟨⟨by decide, fun known hknown => (by cases hknown), fun p hp => (by cases hp)⟩, rfl⟩
  have hrun : system.Run _ popped :=
    (((Path.single hconnect).snoc hframes).snoc hsurface).snoc hpopup
  exact popup_of_run hrun rfl 1

/-! The commit of a toplevel. -/

def commitsIn (h : List Step) : Nat :=
  (h.map fun step =>
    match step with
    | .request request => commitsOf request
    | _ => 0).sum

private theorem ordered_of_run (hrun : system.Run h s) (hcommits : commitsIn h ≤ 2 ^ 31 - 1) :
    s.base.state.Ordered (commitsIn h) := by
  induction hrun with
  | nil => exact .empty
  | @snoc s s' h e hpath hstep ih =>
    have hsplit : commitsIn (h ++ [e]) = commitsIn h + commitsIn [e] := by simp [commitsIn]
    rw [hsplit] at hcommits ⊢
    have hbefore := ih (by omega)
    cases e with
    | connect client | resumed size | input =>
      cases hstep
      exact hbefore
    | frames elapsed =>
      cases hstep
      exact Compositor.ordered_frames hbefore
    | request r =>
      obtain ⟨requests, hbase, hcount, -⟩ :=
        base_of_effect (effect_of_request hstep.2 hstep.1) hstep.1
      have hone : commitsIn [.request r] = Compositor.commitsOf requests := by
        rw [hcount]
        rfl
      rw [hone] at hcommits ⊢
      exact Compositor.ordered_dispatch (Invariant.of_run hpath).surfaces hbefore hbase hcommits

private theorem toplevels_hooked {world : World} (hrun : system.Run h s)
    (hcommits : commitsIn h < 2 ^ 31 - 1) (halive : s.base.state.alive x = true)
    (ha : s.roles.toplevels x = some a) :
    (s.hooked world x).toplevels x = some
      { a with role := a.role.commitHook (s.base.state.data x).rendered.isSome } := by
  have hinv := Invariant.of_run hrun
  have hrole : (s.base.state.data x).role = some .xdgToplevel :=
    (hinv.toplevel x).mpr (Option.isSome_iff_exists.mpr ⟨a, ha⟩)
  obtain ⟨hparent, hdirect⟩ := hinv.base.rooted hinv.surfaces hrole
  have hshape : (s.base.state.setClientScale x).shape = s.base.state.shape := shape_setClientScale
  have hroot : ((s.base.state.setClientScale x).data x).parent = none :=
    (congrFun (congrArg Shape.parent hshape) x).trans hparent
  have hdesync : (s.base.state.setClientScale x).isEffectivelySync
      (s.base.state.setClientScale x).fuel x = false := by
    have hsame : ((s.base.state.setClientScale x).data x).isDirectSync = false :=
      (isDirectSync_of_shape hshape).trans hdirect
    rw [Surfaces.fuel, isEffectivelySync, hsame, hroot]
    rfl
  have hself : ∀ (hasBuffer : Bool) (r : ShellRoles),
      (r.invokePostCommitHooks x hasBuffer).toplevels x =
        (r.toplevels x).map fun a => { a with role := a.role.commitHook hasBuffer } :=
    fun _ _ => ShellRoles.toplevels_invokePostCommitHooks.trans (if_pos rfl)
  have hother : ∀ (y : Surface) (hasBuffer : Bool) (r : ShellRoles), y ≠ x →
      (r.invokePostCommitHooks y hasBuffer).toplevels x = r.toplevels x :=
    fun _ _ _ hy => ShellRoles.toplevels_invokePostCommitHooks.trans (if_neg (Ne.symm hy))
  have hord : (s.base.state.setClientScale x).Ordered (commitsIn h) :=
    (ordered_of_run hrun (by omega)).of_unbooked unbooked_setClientScale le_rfl
  have hcommit := @get_commitWith ShellRoles
    (fun y hasBuffer r => r.invokePostCommitHooks y hasBuffer) (s.base.state.setClientScale x) x
    s.roles world (commitsIn h) (Option XdgToplevelAttributes) (fun r => r.toplevels x)
    (fun hasBuffer b => b.map fun a => { a with role := a.role.commitHook hasBuffer }) hself hother
    (hinv.surfaces.of_shape hshape).forest hord (by omega) (by rwa [alive_of_shape hshape]) hroot
    hdesync
  have hrendered : ((s.base.state.setClientScale x).data x).rendered =
      (s.base.state.data x).rendered := by
    rw [setClientScale, modifyPending, data_modify, if_pos rfl]
  rw [hrendered, ha] at hcommit
  exact hcommit

/-- A commit of a toplevel puts into effect what its client acknowledged last, and with that the
configure that is older than exactly those that still wait. -/
theorem inEffect_of_commit {world : World} (hrun : (system.guarded Prompt).Run h s)
    (hcommits : commitsIn h < 2 ^ 31 - 1) (halive : s.base.state.alive x = true)
    (ha : s.roles.toplevels x = some a) :
    ∃ s' a', s.request (.surface world (.commit x)) = some s' ∧ s'.roles.toplevels x = some a' ∧
      a'.role.pendingConfigures = a.role.pendingConfigures ∧
      a'.role.hasBuffer = (s.base.state.data x).rendered.isSome ∧
      a'.role.initialConfigureSent = (a.role.initialConfigureSent &&
        !(a.role.hasBuffer && (s.base.state.data x).rendered.isNone)) ∧
      ((a.role.lastAcked = none ∧ a'.role.current = a.role.current ∧
          a'.role.currentSerial = a.role.currentSerial) ∨
        ∃ settled configure, sentTo x s.events = settled ++ configure :: a.role.pendingConfigures ∧
          a'.role.current = configure.state ∧ a'.role.currentSerial = some configure.serial) := by
  have hkept := Remembered.of_run hrun x a ha
  refine ⟨_, _, request_commit, toplevels_hooked hrun.of_guarded hcommits halive ha, rfl, rfl, ?_, ?_⟩
  · rw [← Option.not_isSome]
    rfl
  cases hacked : a.role.lastAcked with
  | none =>
    left
    simp [RoleAttributes.commitHook, hacked]
  | some state =>
    right
    obtain ⟨settled, serial, hsent, hserial⟩ := hkept.acked state hacked
    refine ⟨settled, ⟨state, serial⟩, hsent, ?_, ?_⟩
    · simp [RoleAttributes.commitHook, hacked]
    · simp [RoleAttributes.commitHook, hacked, hserial]

theorem inEffect_of_child : ∃ s' a', agreed.request (.surface idle (.commit 1)) = some s' ∧
    s'.roles.toplevels 1 = some a' ∧
    a'.role.pendingConfigures = agreedChild.role.pendingConfigures ∧
    a'.role.hasBuffer = (agreed.base.state.data 1).rendered.isSome ∧
    a'.role.initialConfigureSent = (agreedChild.role.initialConfigureSent &&
      !(agreedChild.role.hasBuffer && (agreed.base.state.data 1).rendered.isNone)) ∧
    ((agreedChild.role.lastAcked = none ∧ a'.role.current = agreedChild.role.current ∧
        a'.role.currentSerial = agreedChild.role.currentSerial) ∨
      ∃ settled configure,
        sentTo 1 agreed.events = settled ++ configure :: agreedChild.role.pendingConfigures ∧
        a'.role.current = configure.state ∧ a'.role.currentSerial = some configure.serial) :=
  inEffect_of_commit run_agreed (by decide) rfl rfl

end Runs

end Shell

end LocalDesktop.Android.Backend.Wayland
