/- GID: LocalDesktop/Android/App/Keys
   generality: G
   digest: The counter of the backend and the key codes of the seat against the keys held. -/

import LocalDesktop.Android.App.Run
import LocalDesktop.Foundation.Strokes

set_option autoImplicit false
set_option relaxedAutoImplicit false

namespace LocalDesktop.Android.App

open Foundation.Transition Foundation.Strokes Smithay Backend.Wayland

def keycodeOf (key : PhysicalKey) : Nat := ((physicalkeyToScancode key).getD 0 + 8) % 2 ^ 32

def strokeOf (key : PhysicalKey) : ElementState → Stroke PhysicalKey
  | .pressed => .press key
  | .released => .release key

/-- What a callback says of a key; repeats say nothing new, and synthetic events do not count. -/
def Moment.stroke (m : Moment) : Option (Stroke PhysicalKey) :=
  match m.callback with
  | .windowEvent (.keyboardInput event isSynthetic) =>
      if !isSynthetic && !event.isRepeat then some (strokeOf event.physicalKey event.state) else none
  | _ => none

def strokes (h : List Moment) : List (Stroke PhysicalKey) := observed Moment.stroke h

variable {scene : Scene} {backend backend' : WaylandBackend} {startTime : Nat} {h : List Moment}
  {m : Moment} {sent : List Sent}

/-- The counter and the pressed keys are as they were. -/
structure SameKeys (backend backend' : WaylandBackend) : Prop where
  keyCounter : backend'.keyCounter = backend.keyCounter
  pressedKeys : backend'.keyboard.pressedKeys = backend.keyboard.pressedKeys

private theorem sameKeys_handleInput {event : InputEvent} (hother : ∀ key, event ≠ .keyboard key)
    (hinput : handleInput scene event backend = some (backend', sent)) :
    SameKeys backend backend' := by
  refine ⟨by rw [handleInput_eq hinput], ?_⟩
  cases event with
  | keyboard key => exact absurd rfl (hother key)
  | touchDown | touchUp | touchMotion =>
    simp only [handleInput] at hinput
    split at hinput
    · cases hinput
      rfl
    · cases hinput
      rfl
  | pointerMotionAbsolute =>
    simp only [handleInput, Option.bind_eq_bind, Option.bind_eq_some_iff] at hinput
    obtain ⟨location, -, hinput⟩ := hinput
    cases hinput
    rfl
  | pointerButton event =>
    cases hsurface : getSurface scene <;>
    · simp only [handleInput, hsurface] at hinput
      cases hinput
      rfl
  | _ =>
    cases hinput
    rfl

private theorem sameKeys_handle {event : CentralizedEvent}
    (hother : ∀ key, event ≠ .input (.keyboard key))
    (hhandle : handle scene event backend = some (backend', sent)) : SameKeys backend backend' := by
  cases event with
  | input event => exact sameKeys_handleInput (fun key hkey => hother key (congrArg _ hkey)) hhandle
  | redraw =>
    simp only [handle] at hhandle
    split at hhandle
    · cases hhandle
      exact ⟨rfl, rfl⟩
    · cases hhandle
  | _ =>
    cases hhandle
    exact ⟨rfl, rfl⟩

private theorem sameKeys_centralize {event : WindowEvent} {centralized : CentralizedEvent}
    (hquiet : (Moment.mk scene (.windowEvent event) sent).stroke = none)
    (hcentral : centralize scene event backend = some (centralized, backend')) :
    SameKeys backend backend' ∧ ∀ key, centralized ≠ .input (.keyboard key) := by
  cases event with
  | keyboardInput event isSynthetic =>
    simp only [centralize] at hcentral
    split at hcentral
    · next hnew =>
      simp [Moment.stroke, hnew] at hquiet
    · cases hcentral
      exact ⟨⟨rfl, rfl⟩, by simp⟩
  | scaleFactorChanged | cursorMoved =>
    simp only [centralize, Option.bind_eq_bind, Option.bind_eq_some_iff] at hcentral
    obtain ⟨size, -, hcentral⟩ := hcentral
    cases hcentral
    exact ⟨⟨rfl, rfl⟩, by simp⟩
  | touch phase location id =>
    cases phase with
    | cancelled =>
      cases hcentral
      exact ⟨⟨rfl, rfl⟩, by simp⟩
    | _ =>
      simp only [centralize, Option.bind_eq_bind, Option.bind_eq_some_iff] at hcentral
      obtain ⟨size, -, hcentral⟩ := hcentral
      cases hcentral
      exact ⟨⟨rfl, rfl⟩, by simp⟩
  | _ =>
    cases hcentral
    exact ⟨⟨rfl, rfl⟩, by simp⟩

private theorem sameKeys_of_quiet (hquiet : m.stroke = none)
    (hstep : (system startTime).step backend m backend') : SameKeys backend backend' := by
  obtain ⟨scene, callback, sent⟩ := m
  obtain ⟨-, hstep⟩ := hstep
  cases callback with
  | resumed =>
    obtain ⟨-, rfl, -⟩ := resumed_of_respond hstep
    exact ⟨rfl, rfl⟩
  | windowEvent event =>
    simp only [respond, windowEvent, Option.bind_eq_bind, Option.bind_eq_some_iff] at hstep
    obtain ⟨⟨centralized, middle⟩, hcentral, hhandle⟩ := hstep
    obtain ⟨hmiddle, hother⟩ := sameKeys_centralize hquiet hcentral
    have hend := sameKeys_handle hother hhandle
    exact ⟨hend.keyCounter.trans hmiddle.keyCounter, hend.pressedKeys.trans hmiddle.pressedKeys⟩

private theorem keys_of_stroke {stroke : Stroke PhysicalKey} (hstroke : m.stroke = some stroke)
    (hstep : (system startTime).step backend m backend') :
    backend'.keyCounter = stroke.count (2 ^ 32) backend.keyCounter ∧
      backend'.keyboard.pressedKeys = stroke.mark keycodeOf backend.keyboard.pressedKeys := by
  obtain ⟨scene, callback, sent⟩ := m
  obtain ⟨-, hstep⟩ := hstep
  cases callback with
  | resumed => cases hstroke
  | windowEvent event =>
    cases event with
    | keyboardInput event isSynthetic =>
      simp only [Moment.stroke] at hstroke
      split at hstroke
      · next hnew =>
        obtain rfl := Option.some.inj hstroke
        simp only [respond, windowEvent, centralize, hnew, if_true, Option.bind_eq_bind,
          Option.bind_some, handle, handleInput] at hstep
        cases hstep
        cases event.state with
        | pressed => exact ⟨rfl, rfl⟩
        | released => exact ⟨rfl, rfl⟩
      · cases hstroke
    | _ => cases hstroke

theorem keys_eq (hrun : (system startTime).Run h backend) :
    backend.keyCounter = tally (2 ^ 32) (strokes h) ∧
      backend.keyboard.pressedKeys = marked keycodeOf (strokes h) := by
  refine hrun.invariant (I := fun h backend => backend.keyCounter = tally (2 ^ 32) (strokes h) ∧
    backend.keyboard.pressedKeys = marked keycodeOf (strokes h)) ⟨rfl, rfl⟩ ?_
  intro h backend m backend' _ ⟨hcounter, hpressed⟩ hstep
  cases hstroke : m.stroke with
  | none =>
    have hsame := sameKeys_of_quiet hstroke hstep
    have hquiet : strokes (h ++ [m]) = strokes h := observed_quiet hstroke
    rw [hquiet]
    exact ⟨hsame.keyCounter.trans hcounter, hsame.pressedKeys.trans hpressed⟩
  | some stroke =>
    obtain ⟨hcounter', hpressed'⟩ := keys_of_stroke hstroke hstep
    have htell : strokes (h ++ [m]) = strokes h ++ [stroke] := observed_tell hstroke
    rw [htell, tally_snoc, marked_snoc, ← hcounter, ← hpressed]
    exact ⟨hcounter', hpressed'⟩

/-- The seat and the counter know the keys that are held. -/
structure MatchesKeys (keys : Finset PhysicalKey) (backend : WaylandBackend) : Prop where
  keyCounter : backend.keyCounter = keys.card
  pressedKeys : backend.keyboard.pressedKeys = keys.image keycodeOf

private theorem matchesKeys_iff (hrun : (system startTime).Run h backend) :
    MatchesKeys (held (strokes h)) backend ↔
      tally (2 ^ 32) (strokes h) = (held (strokes h)).card ∧
        marked keycodeOf (strokes h) = (held (strokes h)).image keycodeOf := by
  obtain ⟨hcounter, hpressed⟩ := keys_eq hrun
  constructor
  · rintro ⟨hcard, hcodes⟩
    exact ⟨hcounter.symm.trans hcard, hpressed.symm.trans hcodes⟩
  · rintro ⟨hcard, hcodes⟩
    exact ⟨hcounter.trans hcard, hpressed.trans hcodes⟩

/-- At every moment the counter is the number of the keys held and the seat has their codes, if and
only if the keys held are always fewer than a `u32` counts, and none is released while another one
with its code is held. -/
theorem keyboard_matches_keys_iff (hrun : (system startTime).Run h backend)
    (halternating : Alternating (strokes h)) :
    (∀ pre post middle, h = pre ++ post → (system startTime).Run pre middle →
      MatchesKeys (held (strokes pre)) middle) ↔
    (∀ pre post, h = pre ++ post → (held (strokes pre)).card < 2 ^ 32) ∧
      Apart keycodeOf (strokes h) := by
  have hcut : ∀ a b, strokes h = a ++ b → ∃ pre post, h = pre ++ post ∧ strokes pre = a := by
    intro a b hsplit
    obtain ⟨pre, post, rfl, hpre, -⟩ := List.filterMap_eq_append_iff.mp hsplit
    exact ⟨pre, post, rfl, hpre⟩
  have hstrokes : ∀ pre post, h = pre ++ post → strokes h = strokes pre ++ strokes post := by
    intro pre post hsplit
    rw [hsplit]
    exact observed_append
  rw [← marked_eq_iff]
  constructor
  · intro hall
    have hboth : ∀ pre post, h = pre ++ post →
        tally (2 ^ 32) (strokes pre) = (held (strokes pre)).card ∧
          marked keycodeOf (strokes pre) = (held (strokes pre)).image keycodeOf := by
      intro pre post hsplit
      subst hsplit
      obtain ⟨middle, hpre, -⟩ := hrun.split
      exact (matchesKeys_iff hpre).mp (hall pre post middle rfl hpre)
    refine ⟨fun pre post hsplit => ?_, fun a b hsplit => ?_⟩
    · rw [← (hboth pre post hsplit).1]
      exact tally_lt (by decide)
    · obtain ⟨pre, post, hh, rfl⟩ := hcut a b hsplit
      exact (hboth pre post hh).2
  · rintro ⟨hsmall, hmarked⟩ pre post middle hsplit hpre
    refine (matchesKeys_iff hpre).mpr ⟨?_, hmarked _ _ (hstrokes pre post hsplit)⟩
    have hcounted := (@tally_eq_iff _ _ (strokes h) (2 ^ 32) (by decide) halternating).mpr
      fun a b hab => by
        obtain ⟨pre', post', hh, rfl⟩ := hcut a b hab
        exact hsmall pre' post' hh
    exact hcounted _ _ (hstrokes pre post hsplit)

def keyMoment (key : PhysicalKey) (state : ElementState) : Moment :=
  ⟨sceneAt 0 portrait 1, .windowEvent (.keyboardInput ⟨key, state, false⟩ false), []⟩

/-- The second key is pressed while the first one is held. -/
def rollover (first second : PhysicalKey) : List Moment :=
  [keyMoment first .pressed, keyMoment second .pressed, keyMoment first .released]

variable {first second : PhysicalKey}

private theorem run_rollover (first second : PhysicalKey) :
    ∃ backend, (system 0).Run (rollover first second) backend :=
  ⟨_, @Path.cons _ _ (system 0) _ _ _ _ _ ⟨Nat.le_refl 0, rfl⟩
    (.cons ⟨Nat.le_refl 0, rfl⟩ (.single ⟨Nat.le_refl 0, rfl⟩))⟩

private theorem alternating_rollover (hne : first ≠ second) :
    Alternating (strokes (rollover first second)) := by
  have hpressed : Alternating [Stroke.press first, .press second] :=
    AtEvery.snoc (AtEvery.snoc .nil (Finset.notMem_empty first))
      (by simpa [Stroke.Fits, held, Stroke.hold] using hne.symm)
  have hreleased : (Stroke.release first).Fits (held [.press first, .press second]) := by
    simp [Stroke.Fits, held, Stroke.hold]
  exact hpressed.snoc hreleased

theorem keyboard_matches_digits : ∃ backend,
    (system 0).Run (rollover (.code .digit1) (.code .digit2)) backend ∧
      MatchesKeys {.code .digit2} backend := by
  obtain ⟨backend, hrun⟩ := run_rollover (.code .digit1) (.code .digit2)
  refine ⟨backend, hrun, ?_⟩
  refine (keyboard_matches_keys_iff hrun (alternating_rollover (by decide))).mpr ⟨?_, ?_⟩ _ [] _
    (List.append_nil _).symm hrun
  · intro pre post hsplit
    have hcard := (card_held_le (strokes pre)).trans (List.length_filterMap_le _ _)
    have hlength := congrArg List.length hsplit
    simp only [rollover, List.length_append, List.length_cons, List.length_nil] at hlength
    omega
  · have hpressed : Apart keycodeOf [Stroke.press (PhysicalKey.code .digit1),
        .press (.code .digit2)] :=
      AtEvery.snoc (AtEvery.snoc .nil fun k hk => by cases hk) fun k hk => by cases hk
    refine hpressed.snoc fun k hk other hother hcode => ?_
    cases hk
    rcases Finset.mem_insert.mp hother with rfl | hother
    · exact absurd hcode (by decide)
    · exact Finset.mem_singleton.mp hother

/-- Two keys that it does not know: when the first one is released, the seat no longer has the code
of the second one, which is still held. -/
theorem keyboard_forgets_unknown_key :
    ¬∀ (startTime : Nat) (h : List Moment) (backend : WaylandBackend),
      (system startTime).Run h backend → Alternating (strokes h) →
      ∀ pre post middle, h = pre ++ post → (system startTime).Run pre middle →
        MatchesKeys (held (strokes pre)) middle := by
  intro hclaimed
  have hne : PhysicalKey.unidentified (.android 1000) ≠ .unidentified (.android 1001) := by decide
  obtain ⟨backend, hrun⟩ := run_rollover (.unidentified (.android 1000))
    (.unidentified (.android 1001))
  have hmatch := hclaimed 0 _ backend hrun (alternating_rollover hne) _ [] _
    (List.append_nil _).symm hrun
  have hcodes := ((matchesKeys_iff hrun).mp hmatch).2
  exact absurd hcodes (by decide)

end LocalDesktop.Android.App
