/- GID: LocalDesktop/Smithay/XdgRole
   generality: G
   digest: What a shell keeps of a surface with a role: configures sent, acknowledged, in effect. -/

import LocalDesktop.Smithay.SerialCounter

/-!
The server suggests states, each in a configure with a serial of its own. The
client acknowledges one of them, which settles the older ones too, and the next
commit puts it into effect.
-/

set_option autoImplicit false
set_option relaxedAutoImplicit false

namespace LocalDesktop.Smithay

structure Configure (α : Type) where
  state : α
  serial : Nat
  deriving DecidableEq

/-- `xdg_role!`, for a state of any kind. -/
structure RoleAttributes (α : Type) where
  configured : Bool
  configureSerial : Option Nat
  initialConfigureSent : Bool
  pendingConfigures : List (Configure α)
  serverPending : Option α
  lastAcked : Option α
  current : α
  currentSerial : Option Nat
  hasBuffer : Bool

namespace RoleAttributes

variable {α : Type}

def default (initial : α) : RoleAttributes α :=
  ⟨false, none, false, [], none, none, initial, none, false⟩

/-- Nothing, if no configure with the serial waits. -/
def ackConfigure (me : RoleAttributes α) (serial : Nat) : Option (RoleAttributes α) :=
  (me.pendingConfigures.find? fun configure => decide (configure.serial = serial)).map
    fun configure =>
      { me with
        lastAcked := some configure.state
        configured := true
        configureSerial := some serial
        pendingConfigures := me.pendingConfigures.filter fun c => Serial.lt serial c.serial }

def currentServerState (me : RoleAttributes α) : α :=
  ((me.pendingConfigures.getLast?.map Configure.state) <|> me.lastAcked).getD me.current

def hasPendingChanges [DecidableEq α] (me : RoleAttributes α) : Bool :=
  match me.serverPending with
  | some state => decide (state ≠ me.currentServerState)
  | none => false

def withPendingState (me : RoleAttributes α) (f : α → α) : RoleAttributes α :=
  { me with serverPending := some (f (me.serverPending.getD me.currentServerState)) }

def getPendingState [DecidableEq α] (me : RoleAttributes α) : Option α × RoleAttributes α :=
  if !me.initialConfigureSent then
    (some (me.serverPending.getD me.currentServerState), { me with serverPending := none })
  else if !me.hasPendingChanges then
    (none, me)
  else
    (me.serverPending, { me with serverPending := none })

def sendConfigure [DecidableEq α] (me : RoleAttributes α) (serial : Nat) :
    Configure α × RoleAttributes α :=
  let (pending, me) := me.getPendingState
  let configure : Configure α := ⟨pending.getD me.currentServerState, serial⟩
  (configure,
    { me with
      pendingConfigures := me.pendingConfigures ++ [configure]
      initialConfigureSent := true })

/-- What the `commit_hook` of a toplevel makes of a surface that has, or has not, a buffer. A surface
that nothing was ever drawn of has none. -/
def commitHook (me : RoleAttributes α) (hasBuffer : Bool) : RoleAttributes α :=
  { me with
    initialConfigureSent := me.initialConfigureSent && !(me.hasBuffer && !hasBuffer)
    hasBuffer := hasBuffer
    current := me.lastAcked.getD me.current
    currentSerial := if me.lastAcked.isSome then me.configureSerial else me.currentSerial }

section Acks

variable {me me' : RoleAttributes α} {serial : Nat} {before after : List (Configure α)}
  {configure : Configure α}

/-- The configures are in the order of their serials. -/
def InOrder (l : List (Configure α)) : Prop :=
  (l.map Configure.serial).Pairwise fun a b => Serial.lt a b = true ∧ Serial.lt b a = false ∧ a ≠ b

private theorem filter_of_inOrder (hord : InOrder (before ++ configure :: after)) :
    (before ++ configure :: after).filter (fun c => Serial.lt configure.serial c.serial) =
      after := by
  simp only [InOrder, List.map_append, List.map_cons, List.pairwise_append, List.pairwise_cons,
    List.mem_map, List.mem_cons, forall_exists_index, and_imp, forall_apply_eq_imp_iff₂] at hord
  obtain ⟨-, ⟨hafter, -⟩, hbefore⟩ := hord
  have hdropped : before.filter (fun c => Serial.lt configure.serial c.serial) = [] := by
    rw [List.filter_eq_nil_iff]
    intro c hc
    obtain ⟨-, hnot, -⟩ := hbefore c hc configure.serial (.inl rfl)
    simp [hnot]
  have hkept : after.filter (fun c => Serial.lt configure.serial c.serial) = after := by
    rw [List.filter_eq_self]
    exact fun c hc => (hafter c hc).1
  rw [List.filter_append, hdropped, List.nil_append,
    List.filter_cons_of_neg (by simp [Serial.lt_self]), hkept]

private theorem find_of_inOrder (hord : InOrder (before ++ configure :: after)) :
    (before ++ configure :: after).find? (fun c => decide (c.serial = configure.serial)) =
      some configure := by
  simp only [InOrder, List.map_append, List.map_cons, List.pairwise_append, List.mem_map,
    List.mem_cons, forall_exists_index, and_imp, forall_apply_eq_imp_iff₂] at hord
  obtain ⟨-, -, hbefore⟩ := hord
  have hnone : before.find? (fun c => decide (c.serial = configure.serial)) = none := by
    rw [List.find?_eq_none]
    intro c hc
    obtain ⟨-, -, hne⟩ := hbefore c hc configure.serial (.inl rfl)
    simpa using hne
  simp [List.find?_append, hnone]

private theorem ackConfigure_eq (hpending : me.pendingConfigures = before ++ configure :: after)
    (hord : InOrder me.pendingConfigures) :
    me.ackConfigure configure.serial = some
      { me with
        lastAcked := some configure.state
        configured := true
        configureSerial := some configure.serial
        pendingConfigures := after } := by
  rw [hpending] at hord
  rw [ackConfigure, hpending, find_of_inOrder hord, filter_of_inOrder hord]
  rfl

theorem ackConfigure_eq_none_iff :
    me.ackConfigure serial = none ↔ ∀ c ∈ me.pendingConfigures, c.serial ≠ serial := by
  simp [ackConfigure, List.find?_eq_none]

theorem ackConfigure_cases (hord : InOrder me.pendingConfigures)
    (hack : me.ackConfigure serial = some me') :
    ∃ before configure after, me.pendingConfigures = before ++ configure :: after ∧
      configure.serial = serial ∧
      me' =
        { me with
          lastAcked := some configure.state
          configured := true
          configureSerial := some serial
          pendingConfigures := after } := by
  have hsome : me.ackConfigure serial ≠ none := by simp [hack]
  rw [ne_eq, ackConfigure_eq_none_iff] at hsome
  push Not at hsome
  obtain ⟨configure, hmem, rfl⟩ := hsome
  obtain ⟨before, after, hsplit⟩ := List.append_of_mem hmem
  refine ⟨before, configure, after, hsplit, rfl, ?_⟩
  rw [ackConfigure_eq hsplit hord] at hack
  exact (Option.some.inj hack).symm

end Acks

section Send

variable [DecidableEq α] (me : RoleAttributes α) (serial : Nat)

private theorem sendConfigure_pendingConfigures : (me.sendConfigure serial).2.pendingConfigures =
    me.pendingConfigures ++ [(me.sendConfigure serial).1] := by
  simp only [sendConfigure, getPendingState]
  split
  · rfl
  · split <;> rfl

private theorem sendConfigure_settled :
    (me.sendConfigure serial).2.configureSerial = me.configureSerial ∧
    (me.sendConfigure serial).2.lastAcked = me.lastAcked ∧
    (me.sendConfigure serial).2.current = me.current ∧
    (me.sendConfigure serial).2.currentSerial = me.currentSerial := by
  simp only [sendConfigure, getPendingState]
  split
  · exact ⟨rfl, rfl, rfl, rfl⟩
  · split <;> exact ⟨rfl, rfl, rfl, rfl⟩

def nextState (me : RoleAttributes α) : α := me.serverPending.getD me.currentServerState

theorem sendConfigure_state : (me.sendConfigure serial).1 = ⟨me.nextState, serial⟩ := by
  simp only [sendConfigure, getPendingState, nextState]
  cases hpending : me.serverPending with
  | none => split <;> [rfl; simp [hasPendingChanges, hpending]]
  | some state =>
    split
    · rfl
    · split
      next hsame =>
        have heq : state = me.currentServerState := by
          simpa [hasPendingChanges, hpending] using hsame
        simp [heq]
      · rfl

end Send

/-! What is kept of a role, against all configures that were sent to it. -/

section Remembers

variable {β : Type} {view : α → β} {initial : α} {sent : List (Configure α)}
  {me me' : RoleAttributes α} {serial : Nat}

/-- The configures that wait are the last ones, the one before them is the one that was acknowledged
last, and what is in effect is as old as that one or older. -/
structure Remembers (view : α → β) (initial : α) (sent : List (Configure α))
    (me : RoleAttributes α) : Prop where
  waiting : me.pendingConfigures <:+ sent
  acked : ∀ state, me.lastAcked = some state → ∃ settled serial,
    sent = settled ++ ⟨state, serial⟩ :: me.pendingConfigures ∧ me.configureSerial = some serial
  inEffect : ∀ serial, me.currentSerial = some serial → ∃ settled configure newer,
    sent = settled ++ configure :: newer ∧ me.pendingConfigures <:+ newer ∧
      configure.serial = serial ∧ view configure.state = view me.current
  untouched : me.currentSerial = none → view me.current = view initial

namespace Remembers

theorem ofDefault : Remembers view initial sent (default initial) where
  waiting := List.nil_suffix
  acked state hstate := by cases hstate
  inEffect serial hserial := by cases hserial
  untouched _ := rfl

theorem congr (hme : me.Remembers view initial sent)
    (hpending : me'.pendingConfigures = me.pendingConfigures)
    (hacked : me'.lastAcked = me.lastAcked) (hserial : me'.configureSerial = me.configureSerial)
    (hcurrent : view me'.current = view me.current)
    (hcurrentSerial : me'.currentSerial = me.currentSerial) : me'.Remembers view initial sent where
  waiting := hpending ▸ hme.waiting
  acked := by
    rw [hacked, hpending, hserial]
    exact hme.acked
  inEffect := by
    rw [hcurrentSerial, hpending, hcurrent]
    exact hme.inEffect
  untouched := by
    rw [hcurrentSerial, hcurrent]
    exact hme.untouched

theorem sendConfigure [DecidableEq α] (hme : me.Remembers view initial sent) (serial : Nat) :
    (me.sendConfigure serial).2.Remembers view initial
      (sent ++ [(me.sendConfigure serial).1]) := by
  obtain ⟨hserial, hacked, hcurrent, hcurrentSerial⟩ := sendConfigure_settled me serial
  have hpending := sendConfigure_pendingConfigures me serial
  refine ⟨?_, fun state hstate => ?_, fun old hold => ?_, fun hnone => ?_⟩
  · obtain ⟨settled, rfl⟩ := hme.waiting
    exact ⟨settled, by rw [hpending, List.append_assoc]⟩
  · rw [hacked] at hstate
    obtain ⟨settled, old, rfl, hold⟩ := hme.acked state hstate
    refine ⟨settled, old, ?_, hserial.trans hold⟩
    rw [hpending, List.append_assoc, List.cons_append]
  · rw [hcurrentSerial] at hold
    obtain ⟨settled, configure, newer, rfl, ⟨between, rfl⟩, hconfigure, hview⟩ :=
      hme.inEffect old hold
    refine ⟨settled, configure, between ++ me.pendingConfigures ++ [(me.sendConfigure serial).1],
      by simp, ⟨between, by rw [hpending, List.append_assoc]⟩, hconfigure, hview.trans ?_⟩
    rw [hcurrent]
  · rw [hcurrentSerial] at hnone
    rw [hcurrent]
    exact hme.untouched hnone

theorem ackConfigure (hme : me.Remembers view initial sent) (hord : InOrder me.pendingConfigures)
    (hack : me.ackConfigure serial = some me') : me'.Remembers view initial sent := by
  obtain ⟨before, configure, after, hsplit, rfl, rfl⟩ := ackConfigure_cases hord hack
  have hafter : after <:+ me.pendingConfigures :=
    hsplit ▸ (List.suffix_cons configure after).trans (List.suffix_append before _)
  refine ⟨hafter.trans hme.waiting, fun state hstate => ?_, fun old hold => ?_, hme.untouched⟩
  · obtain ⟨settled, hsent⟩ := hme.waiting
    obtain rfl : configure.state = state := Option.some.inj hstate
    refine ⟨settled ++ before, configure.serial, ?_, rfl⟩
    rw [← hsent, hsplit, List.append_assoc]
  · obtain ⟨settled, current, newer, hsent, hnewer, hserial, hview⟩ := hme.inEffect old hold
    exact ⟨settled, current, newer, hsent, hafter.trans hnewer, hserial, hview⟩

theorem commitHook {hasBuffer : Bool} (hme : me.Remembers view initial sent) :
    (me.commitHook hasBuffer).Remembers view initial sent := by
  cases hacked : me.lastAcked with
  | none =>
    exact hme.congr rfl rfl rfl (by simp [RoleAttributes.commitHook, hacked])
      (by simp [RoleAttributes.commitHook, hacked])
  | some state =>
    obtain ⟨settled, serial, hsent, hserial⟩ := hme.acked state hacked
    have hcurrent : (me.commitHook hasBuffer).currentSerial = some serial := by
      simp [RoleAttributes.commitHook, hacked, hserial]
    have hview : (me.commitHook hasBuffer).current = state := by
      simp [RoleAttributes.commitHook, hacked]
    refine ⟨hme.waiting, hme.acked, fun old hold => ?_, fun hnone => ?_⟩
    · obtain rfl : serial = old := Option.some.inj (hcurrent.symm.trans hold)
      exact ⟨settled, ⟨state, serial⟩, me.pendingConfigures, hsent, List.suffix_rfl, rfl,
        congrArg view hview.symm⟩
    · rw [hcurrent] at hnone
      cases hnone

end Remembers

end Remembers

/-! Whatever holds of every state that is kept of a role. -/

section Holds

variable {P Q : α → Prop} {initial : α} {me me' : RoleAttributes α} {serial : Nat}

structure Holds (P : α → Prop) (me : RoleAttributes α) : Prop where
  pending : ∀ configure ∈ me.pendingConfigures, P configure.state
  suggested : ∀ state, me.serverPending = some state → P state
  acked : ∀ state, me.lastAcked = some state → P state
  current : P me.current

namespace Holds

theorem ofDefault (hinitial : P initial) : Holds P (default initial) where
  pending configure hmem := by cases hmem
  suggested state hstate := by cases hstate
  acked state hstate := by cases hstate
  current := hinitial

theorem mono (hme : me.Holds P) (himp : ∀ state, P state → Q state) : me.Holds Q where
  pending configure hmem := himp _ (hme.pending configure hmem)
  suggested state hstate := himp _ (hme.suggested state hstate)
  acked state hstate := himp _ (hme.acked state hstate)
  current := himp _ hme.current

private theorem currentServerState (hme : me.Holds P) : P me.currentServerState := by
  rw [RoleAttributes.currentServerState]
  cases hlast : me.pendingConfigures.getLast? with
  | some configure => exact hme.pending configure (List.mem_of_getLast? hlast)
  | none =>
    cases hacked : me.lastAcked with
    | some state => exact hme.acked state hacked
    | none => exact hme.current

theorem nextState (hme : me.Holds P) : P me.nextState := by
  rw [RoleAttributes.nextState]
  cases hsuggested : me.serverPending with
  | some state => exact hme.suggested state hsuggested
  | none => exact hme.currentServerState

theorem withPendingState {f : α → α} (hme : me.Holds P) (hf : ∀ state, P state → P (f state)) :
    (me.withPendingState f).Holds P := by
  refine ⟨hme.pending, fun state hstate => ?_, hme.acked, hme.current⟩
  obtain rfl : f me.nextState = state := Option.some.inj hstate
  exact hf _ hme.nextState

theorem sendConfigure [DecidableEq α] (hme : me.Holds P) (serial : Nat) :
    (me.sendConfigure serial).2.Holds P := by
  obtain ⟨-, hacked, hcurrent, -⟩ := sendConfigure_settled me serial
  refine ⟨fun configure hmem => ?_, fun state hstate => ?_, hacked ▸ hme.acked,
    hcurrent ▸ hme.current⟩
  · rw [sendConfigure_pendingConfigures, sendConfigure_state] at hmem
    rcases List.mem_append.mp hmem with hold | hnew
    · exact hme.pending configure hold
    · obtain rfl := List.mem_singleton.mp hnew
      exact hme.nextState
  · refine hme.suggested state ?_
    simp only [RoleAttributes.sendConfigure, getPendingState] at hstate
    split at hstate
    · cases hstate
    · split at hstate
      · exact hstate
      · cases hstate

theorem ackConfigure (hme : me.Holds P) (hack : me.ackConfigure serial = some me') :
    me'.Holds P := by
  obtain ⟨configure, hfind, rfl⟩ := Option.map_eq_some_iff.mp hack
  refine ⟨fun c hc => hme.pending c (List.mem_of_mem_filter hc), hme.suggested, fun state hstate => ?_,
    hme.current⟩
  obtain rfl : configure.state = state := Option.some.inj hstate
  exact hme.pending configure (List.mem_of_find?_eq_some hfind)

theorem commitHook {hasBuffer : Bool} (hme : me.Holds P) : (me.commitHook hasBuffer).Holds P := by
  refine ⟨hme.pending, hme.suggested, hme.acked, ?_⟩
  simp only [RoleAttributes.commitHook]
  cases hacked : me.lastAcked with
  | some state => exact hme.acked state hacked
  | none => exact hme.current

end Holds

end Holds

end RoleAttributes

end LocalDesktop.Smithay
