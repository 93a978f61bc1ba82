/- GID: LocalDesktop/Android/App/FocusLoss
   generality: G
   digest: Keys that are held when the window loses the focus stay pressed at the seat. -/

import LocalDesktop.Android.App.Keys

set_option autoImplicit false
set_option relaxedAutoImplicit false

namespace LocalDesktop.Android.App

open Foundation.Transition Foundation.Strokes Smithay Backend.Wayland

def Moment.focus (m : Moment) : Option Bool :=
  match m.callback with
  | .windowEvent (.focused focused) => some focused
  | _ => none

/-- A history, the keys that are down on the keyboard, and whether the window has the focus. The
window is told of a stroke while it has the focus; without it, keys go up unseen. -/
inductive Typed : List Moment → Finset PhysicalKey → Bool → Prop
  | start (focused : Bool) : Typed [] ∅ focused
  | quiet {h : List Moment} {keys : Finset PhysicalKey} {focused : Bool} {m : Moment} :
      Typed h keys focused → m.stroke = none → m.focus = none → Typed (h ++ [m]) keys focused
  | stroke {h : List Moment} {keys : Finset PhysicalKey} {m : Moment}
      {stroke : Stroke PhysicalKey} :
      Typed h keys true → m.stroke = some stroke → stroke.Fits keys →
      Typed (h ++ [m]) (stroke.hold keys) true
  | unseen {h : List Moment} {keys : Finset PhysicalKey} (k : PhysicalKey) :
      Typed h keys false → Typed h (keys.erase k) false
  | focus {h : List Moment} {keys : Finset PhysicalKey} {focused : Bool} {m : Moment} (now : Bool) :
      Typed h keys focused → m.focus = some now → Typed (h ++ [m]) keys now

/-- No key is held when the window loses the focus. -/
def NoneHeld : List Moment → Prop :=
  AtEvery fun pre m => m.focus = some false → held (strokes pre) = ∅

/-- From a loss of the focus on, the counter and the seat know of the strokes since, and of no
others. -/
def FreshAfterLoss (startTime : Nat) (h : List Moment) : Prop :=
  ∀ pre m later post backend, h = pre ++ m :: (later ++ post) → m.focus = some false →
    (system startTime).Run (pre ++ m :: later) backend →
    backend.keyCounter = tally (2 ^ 32) (strokes later) ∧
      backend.keyboard.pressedKeys = marked keycodeOf (strokes later)

variable {backend : WaylandBackend} {startTime : Nat} {h : List Moment} {m : Moment}
  {keys : Finset PhysicalKey} {focused : Bool}

private theorem stroke_of_focus (hfocus : m.focus = some focused) : m.stroke = none := by
  obtain ⟨scene, callback, sent⟩ := m
  cases callback with
  | resumed => rfl
  | windowEvent event =>
    cases event with
    | focused => rfl
    | _ => cases hfocus

private theorem strokes_quiet (hquiet : m.stroke = none) : strokes (h ++ [m]) = strokes h :=
  observed_quiet hquiet

private theorem strokes_tell {stroke : Stroke PhysicalKey} (htell : m.stroke = some stroke) :
    strokes (h ++ [m]) = strokes h ++ [stroke] := observed_tell htell

private theorem Typed.before (htyped : Typed (h ++ [m]) keys focused) :
    ∃ keys' focused', Typed h keys' focused' := by
  generalize hsplit : h ++ [m] = l at htyped
  induction htyped with
  | start => simp at hsplit
  | unseen k _ ih => exact ih hsplit
  | quiet hbefore | stroke hbefore | focus _ hbefore =>
    obtain ⟨rfl, -⟩ := List.append_inj' hsplit rfl
    exact ⟨_, _, hbefore⟩

/-- The strokes tell which keys are down. -/
structure Known (h : List Moment) (keys : Finset PhysicalKey) (focused : Bool) : Prop where
  tracked : keys = held (strokes h)
  alternating : Alternating (strokes h)
  unfocused : focused = false → keys = ∅

/-- As long as no key is held when the focus is lost, no stroke is missed. -/
private theorem Typed.known (htyped : Typed h keys focused) (hnone : NoneHeld h) :
    Known h keys focused := by
  induction htyped with
  | start => exact ⟨rfl, .nil, fun _ => rfl⟩
  | quiet _ hstroke _ ih =>
    have hbefore := ih (AtEvery.before hnone)
    refine ⟨?_, ?_, hbefore.unfocused⟩
    · rw [strokes_quiet hstroke]
      exact hbefore.tracked
    · rw [strokes_quiet hstroke]
      exact hbefore.alternating
  | stroke _ hstroke hfits ih =>
    have hbefore := ih (AtEvery.before hnone)
    refine ⟨?_, ?_, fun hfocused => by cases hfocused⟩
    · rw [strokes_tell hstroke, held_snoc, ← hbefore.tracked]
    · rw [strokes_tell hstroke]
      exact hbefore.alternating.snoc (hbefore.tracked ▸ hfits)
  | unseen k _ ih =>
    have hbefore := ih hnone
    have hempty := hbefore.unfocused rfl
    have hkeys := hbefore.tracked
    subst hempty
    exact ⟨hkeys, hbefore.alternating, fun _ => rfl⟩
  | @focus h _ _ _ now _ hfocus ih =>
    have hbefore := ih (AtEvery.before hnone)
    have hquiet := @strokes_quiet h _ (stroke_of_focus hfocus)
    refine ⟨?_, ?_, fun hnow => ?_⟩
    · rw [hquiet]
      exact hbefore.tracked
    · rw [hquiet]
      exact hbefore.alternating
    · subst hnow
      rw [hbefore.tracked]
      exact AtEvery.last hnone hfocus

private theorem quiet_of_none_held (halternating : Alternating (strokes h))
    (hnone : held (strokes h) = ∅) :
    tally (2 ^ 32) (strokes h) = 0 ∧ marked keycodeOf (strokes h) = ∅ := by
  constructor
  · have hle := @tally_le_card _ _ _ (2 ^ 32) halternating
    rw [hnone, Finset.card_empty] at hle
    exact Nat.le_zero.mp hle
  · have hsubset := @marked_subset _ _ _ _ keycodeOf (strokes h)
    rw [hnone, Finset.image_empty] at hsubset
    exact Finset.subset_empty.mp hsubset

private theorem Typed.upTo {pre post : List Moment} (htyped : Typed (pre ++ post) keys focused) :
    ∃ keys' focused', Typed pre keys' focused' := by
  induction post using List.reverseRecOn generalizing keys focused with
  | nil => exact ⟨keys, focused, by simpa using htyped⟩
  | append_singleton post m ih =>
    rw [← List.append_assoc] at htyped
    obtain ⟨keys', focused', hbefore⟩ := htyped.before
    exact ih hbefore

private theorem fresh_of_none_held (htyped : Typed h keys focused) (hnone : NoneHeld h) :
    FreshAfterLoss startTime h := by
  intro pre m later post backend hsplit hlost hrun
  subst hsplit
  obtain ⟨keys', focused', hpre⟩ := htyped.upTo
  have hempty := hnone pre m (later ++ post) rfl hlost
  have hquiet := quiet_of_none_held (hpre.known (AtEvery.before hnone)).alternating hempty
  have hsince : strokes (pre ++ m :: later) = strokes pre ++ strokes later := by
    have hsilent : strokes (m :: later) = strokes later :=
      List.filterMap_cons_none (stroke_of_focus hlost)
    rw [strokes, observed_append, ← strokes, ← strokes, hsilent]
  obtain ⟨hcounter, hpressed⟩ := keys_eq hrun
  rw [hsince] at hcounter hpressed
  rw [tally_append hquiet.1] at hcounter
  rw [marked_append hquiet.2] at hpressed
  exact ⟨hcounter, hpressed⟩

private theorem FreshAfterLoss.before {post : List Moment}
    (hfresh : FreshAfterLoss startTime (h ++ post)) :
    FreshAfterLoss startTime h := by
  intro pre m later rest backend hsplit hlost hrun
  exact hfresh pre m later (rest ++ post) backend (by simp [hsplit]) hlost hrun

private theorem none_held_of_fresh (hrun : (system startTime).Run h backend)
    (htyped : Typed h keys focused)
    (hsmall : ∀ pre post, h = pre ++ post → (held (strokes pre)).card < 2 ^ 32)
    (hfresh : FreshAfterLoss startTime h) : NoneHeld h := by
  induction h using List.reverseRecOn generalizing backend keys focused with
  | nil => exact AtEvery.nil
  | append_singleton h m ih =>
    obtain ⟨before, hbefore, -⟩ := hrun.split
    obtain ⟨keys', focused', hearlier⟩ := htyped.before
    have hsmall' : ∀ pre post, h = pre ++ post → (held (strokes pre)).card < 2 ^ 32 :=
      fun pre post hsplit => hsmall pre (post ++ [m]) (by rw [hsplit, List.append_assoc])
    have hnone := ih hbefore hearlier hsmall' hfresh.before
    refine hnone.snoc fun hlost => ?_
    obtain ⟨hzero, -⟩ := hfresh h m [] [] backend rfl hlost hrun
    have hcounted : tally (2 ^ 32) (strokes h) = (held (strokes h)).card := by
      refine tally_eq_card (hearlier.known hnone).alternating fun a b hsplit => ?_
      obtain ⟨pre, post, rfl, rfl, -⟩ := List.filterMap_eq_append_iff.mp hsplit
      exact hsmall' pre post rfl
    rw [(keys_eq hrun).1, strokes_quiet (stroke_of_focus hlost), hcounted] at hzero
    exact Finset.card_eq_zero.mp hzero

/-- If no key is held at any loss of the focus, the counter and the seat start afresh at each of
them; if fewer keys are held than a `u32` counts, also only then. -/
theorem fresh_after_loss_iff (hrun : (system startTime).Run h backend)
    (htyped : Typed h keys focused) :
    (NoneHeld h → FreshAfterLoss startTime h) ∧
      ((∀ pre post, h = pre ++ post → (held (strokes pre)).card < 2 ^ 32) →
        FreshAfterLoss startTime h → NoneHeld h) :=
  ⟨fresh_of_none_held htyped, none_held_of_fresh hrun htyped⟩

def focusMoment (focused : Bool) : Moment :=
  ⟨sceneAt 0 portrait 1, .windowEvent (.focused focused), []⟩

def escape : PhysicalKey := .code .escape

private theorem typed_pressed : Typed [keyMoment escape .pressed] {escape} true := by
  have hfits : (Stroke.press escape).Fits ∅ := Finset.notMem_empty escape
  exact Typed.stroke (m := keyMoment escape .pressed) (.start true) rfl hfits

def tappedAndLost : List Moment :=
  [keyMoment escape .pressed, keyMoment escape .released] ++ [focusMoment false]

theorem fresh_after_tap : FreshAfterLoss 0 tappedAndLost := by
  have hrun : ∃ backend, (system 0).Run tappedAndLost backend :=
    ⟨_, @Path.cons _ _ (system 0) _ _ _ _ _ ⟨Nat.le_refl 0, rfl⟩
      (.cons ⟨Nat.le_refl 0, rfl⟩ (.single ⟨Nat.le_refl 0, rfl⟩))⟩
  have hfits : (Stroke.release escape).Fits {escape} := Finset.mem_singleton_self escape
  have hreleased := Typed.stroke (m := keyMoment escape .released) typed_pressed rfl hfits
  obtain ⟨backend, hrun⟩ := hrun
  refine (fresh_after_loss_iff hrun (.focus false hreleased rfl)).1 ?_
  refine AtEvery.snoc (AtEvery.snoc (AtEvery.snoc .nil ?_) ?_) fun _ => ?_
  · exact fun hlost => by cases hlost
  · exact fun hlost => by cases hlost
  · decide

/-- A key is pressed, the focus is lost, and the key is released unseen. -/
def heldAndLost : List Moment := [keyMoment escape .pressed] ++ [focusMoment false]

private theorem typed_heldAndLost : Typed heldAndLost ∅ false := by
  have hlost : Typed heldAndLost {escape} false := .focus false typed_pressed rfl
  have hunseen := hlost.unseen escape
  rwa [Finset.erase_singleton] at hunseen

/-- The seat still has the key, and the counter counts it. -/
theorem key_stays_pressed_after_loss :
    ¬∀ (startTime : Nat) (h : List Moment) (backend : WaylandBackend) (keys : Finset PhysicalKey)
      (focused : Bool), (system startTime).Run h backend → Typed h keys focused →
      FreshAfterLoss startTime h := by
  intro hclaimed
  have hrun : ∃ backend, (system 0).Run heldAndLost backend :=
    ⟨_, @Path.cons _ _ (system 0) _ _ _ _ _ ⟨Nat.le_refl 0, rfl⟩ (.single ⟨Nat.le_refl 0, rfl⟩)⟩
  obtain ⟨backend, hrun⟩ := hrun
  have hfresh := hclaimed 0 _ backend _ _ hrun typed_heldAndLost
  obtain ⟨hzero, -⟩ := hfresh [keyMoment escape .pressed] (focusMoment false) [] [] backend rfl rfl
    hrun
  rw [(keys_eq hrun).1] at hzero
  exact absurd hzero (by decide)

end LocalDesktop.Android.App
