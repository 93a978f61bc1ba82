/- GID: LocalDesktop/Foundation/Transition
   generality: G
   digest: Labelled transition systems: paths with their history, invariants, guards, ends. -/

import Mathlib.Data.List.Basic
import Mathlib.Order.WellFounded

/-!
A system of threads is given by the state it starts in and by its labelled
steps, one step of one thread at a time, in any order. A path carries its
history, the list of its labels, so that an invariant may speak about what
happened before.
-/

set_option autoImplicit false
set_option relaxedAutoImplicit false

namespace LocalDesktop.Foundation.Transition

variable {σ ε : Type}

structure System (σ ε : Type) where
  start : σ
  step : σ → ε → σ → Prop

/-- The finite paths, with the labels of their steps in order. -/
inductive Path (sys : System σ ε) : σ → List ε → σ → Prop
  | nil (s : σ) : Path sys s [] s
  | snoc {s t u : σ} {h : List ε} {e : ε} :
      Path sys s h t → sys.step t e u → Path sys s (h ++ [e]) u

/-- The paths from the start. -/
def System.Run (sys : System σ ε) (h : List ε) (s : σ) : Prop := Path sys sys.start h s

/-- No step is possible any more. -/
def System.Halted (sys : System σ ε) (s : σ) : Prop := ∀ e t, ¬sys.step s e t

/-- The steps that meet a condition on their label and the state before them. -/
def System.guarded (sys : System σ ε) (G : σ → ε → Prop) : System σ ε where
  start := sys.start
  step s e t := G s e ∧ sys.step s e t

/-- Some path whose labels meet a condition leads to a state of the wanted kind. -/
def System.CanReach (sys : System σ ε) (Q : ε → Prop) (s : σ) (P : σ → Prop) : Prop :=
  ∃ h t, Path sys s h t ∧ (∀ e ∈ h, Q e) ∧ P t

variable {sys : System σ ε} {s t u : σ} {h h' : List ε} {e : ε}

theorem Path.append (hst : Path sys s h t) (htu : Path sys t h' u) : Path sys s (h ++ h') u := by
  induction htu with
  | nil => simpa using hst
  | snoc _ hstep ih =>
    rw [← List.append_assoc]
    exact .snoc ih hstep

theorem Path.single (hstep : sys.step s e t) : Path sys s [e] t := .snoc (.nil s) hstep

theorem Path.cons (hstep : sys.step s e t) (htu : Path sys t h u) : Path sys s (e :: h) u :=
  (Path.single hstep).append htu

theorem Path.split (hpath : Path sys s (h ++ h') u) : ∃ t, Path sys s h t ∧ Path sys t h' u := by
  generalize hsplit : h ++ h' = l at hpath
  induction hpath generalizing h' with
  | nil =>
    obtain ⟨rfl, rfl⟩ := List.append_eq_nil_iff.mp hsplit
    exact ⟨s, .nil s, .nil s⟩
  | @snoc t v l e hst hstep ih =>
    rcases List.eq_nil_or_concat h' with rfl | ⟨l', e', rfl⟩
    · rw [List.append_nil] at hsplit
      subst hsplit
      exact ⟨v, .snoc hst hstep, .nil v⟩
    · rw [List.concat_eq_append, ← List.append_assoc] at hsplit
      obtain ⟨hl, he⟩ := List.append_inj' hsplit rfl
      obtain ⟨m, hm, hmt⟩ := ih hl
      obtain rfl : e' = e := by simpa using he
      exact ⟨m, hm, by simpa using hmt.snoc hstep⟩

private theorem Path.eq_of_nil (hpath : Path sys s [] t) : s = t := by
  generalize hl : [] = l at hpath
  cases hpath with
  | nil => rfl
  | snoc => exact absurd hl.symm (by simp)

theorem Path.at_event {pre post : List ε} (hpath : Path sys s (pre ++ e :: post) u) :
    ∃ t t', Path sys s pre t ∧ sys.step t e t' ∧ Path sys t' post u := by
  obtain ⟨t, hpre, hrest⟩ := hpath.split
  rw [← List.singleton_append] at hrest
  obtain ⟨t', hone, hpost⟩ := hrest.split
  refine ⟨t, t', hpre, ?_, hpost⟩
  generalize hl : [e] = l at hone
  cases hone with
  | nil => exact absurd hl (by simp)
  | snoc hnil hstep =>
    rw [← List.nil_append [e]] at hl
    obtain ⟨hempty, he⟩ := List.append_inj' hl rfl
    subst hempty
    obtain rfl : e = _ := by simpa using he
    exact hnil.eq_of_nil ▸ hstep

theorem Path.uncons (hpath : Path sys s (e :: h) u) :
    ∃ t, sys.step s e t ∧ Path sys t h u := by
  rw [← List.nil_append (e :: h)] at hpath
  obtain ⟨t, t', hnil, hstep, hrest⟩ := hpath.at_event
  exact ⟨t', hnil.eq_of_nil ▸ hstep, hrest⟩

/-- Where an event leaves no choice, a history leads to one state. -/
theorem Path.unique (hst : Path sys s h t)
    (hdet : ∀ s e t u, sys.step s e t → sys.step s e u → t = u) (hsu : Path sys s h u) :
    t = u := by
  induction hst generalizing u with
  | nil => exact hsu.eq_of_nil
  | snoc _ hstep ih =>
    obtain ⟨v, hsv, hvu⟩ := hsu.split
    obtain rfl := ih hsv
    obtain ⟨w, hstep', hnil⟩ := hvu.uncons
    obtain rfl := hnil.eq_of_nil
    exact hdet _ _ _ _ hstep hstep'

/-- What holds of the empty history and is kept by every step holds of every path. -/
theorem Path.invariant {I : List ε → σ → Prop} (hpath : Path sys s h t) (hstart : I [] s)
    (hkeep : ∀ h t e u, Path sys s h t → I h t → sys.step t e u → I (h ++ [e]) u) : I h t := by
  induction hpath with
  | nil => exact hstart
  | snoc hst hstep ih => exact hkeep _ _ _ _ hst ih hstep

/-- A condition on states that every step keeps, and what it says of the events after it. -/
theorem Path.stable {P : σ → Prop} {Q : ε → Prop} (hpath : Path sys s h t) (hs : P s)
    (hkeep : ∀ t e u, P t → sys.step t e u → P u ∧ Q e) : P t ∧ ∀ e ∈ h, Q e := by
  induction hpath with
  | nil => exact ⟨hs, by simp⟩
  | snoc _ hstep ih =>
    obtain ⟨ht, hall⟩ := ih
    obtain ⟨hu, he⟩ := hkeep _ _ _ ht hstep
    refine ⟨hu, fun e' he' => ?_⟩
    rcases List.mem_append.mp he' with he' | he'
    · exact hall e' he'
    · exact List.mem_singleton.mp he' ▸ he

theorem Path.of_guarded {G : σ → ε → Prop} (hpath : Path (sys.guarded G) s h t) :
    Path sys s h t := by
  induction hpath with
  | nil => exact .nil _
  | snoc _ hstep ih => exact .snoc ih hstep.2

/-- A path all of whose steps meet the condition; what comes after a step may be used for it. -/
theorem Path.to_guarded {G : σ → ε → Prop} (hpath : Path sys s h t)
    (hG : ∀ pre e post u v, h = pre ++ e :: post → Path sys s pre u → sys.step u e v → G u e) :
    Path (sys.guarded G) s h t := by
  induction hpath with
  | nil => exact .nil _
  | @snoc t u h e hst hstep ih =>
    refine .snoc (ih fun pre e' post v w hsplit => ?_) ⟨hG h e [] t u rfl hst hstep, hstep⟩
    exact hG pre e' (post ++ [e]) v w (by rw [hsplit, List.append_assoc, List.cons_append])

section CanReach

variable {Q : ε → Prop} {P R : σ → Prop}

theorem System.CanReach.here (hs : P s) : sys.CanReach Q s P := ⟨[], s, .nil s, by simp, hs⟩

theorem System.CanReach.after (hstep : sys.step s e t) (he : Q e) (ht : sys.CanReach Q t P) :
    sys.CanReach Q s P := by
  obtain ⟨h, u, hpath, hall, hu⟩ := ht
  exact ⟨e :: h, u, hpath.cons hstep, List.forall_mem_cons.mpr ⟨he, hall⟩, hu⟩

theorem System.CanReach.trans (hs : sys.CanReach Q s P) (hP : ∀ t, P t → sys.CanReach Q t R) :
    sys.CanReach Q s R := by
  obtain ⟨h, t, hst, hall, ht⟩ := hs
  obtain ⟨h', u, htu, hall', hu⟩ := hP t ht
  refine ⟨h ++ h', u, hst.append htu, fun e he => ?_, hu⟩
  exact (List.mem_append.mp he).elim (hall e) (hall' e)

end CanReach

/-- What is seen of a history through a view of its events. -/
def observed {α : Type} (view : ε → Option α) (h : List ε) : List α := h.filterMap view

section Observed

variable {α : Type} {view : ε → Option α} {a : α}

theorem observed_append : observed view (h ++ h') = observed view h ++ observed view h' :=
  List.filterMap_append

theorem observed_snoc : observed view (h ++ [e]) = observed view h ++ (view e).toList := by
  rw [observed, observed, List.filterMap_append]
  cases hview : view e <;> simp [hview]

theorem observed_quiet (he : view e = none) : observed view (h ++ [e]) = observed view h := by
  simp [observed_snoc, he]

theorem observed_tell (he : view e = some a) :
    observed view (h ++ [e]) = observed view h ++ [a] := by
  simp [observed_snoc, he]

theorem mem_observed : a ∈ observed view h ↔ ∃ e ∈ h, view e = some a := List.mem_filterMap

end Observed

/-- A condition on every event of a history and the history before it. -/
def AtEvery (P : List ε → ε → Prop) (h : List ε) : Prop :=
  ∀ pre e post, h = pre ++ e :: post → P pre e

section AtEvery

variable {P : List ε → ε → Prop}

theorem AtEvery.nil : AtEvery P [] := by
  intro pre e post hsplit
  cases pre <;> cases hsplit

theorem AtEvery.before (hall : AtEvery P (h ++ h')) : AtEvery P h := by
  intro pre e post hsplit
  apply hall pre e (post ++ h')
  rw [hsplit, List.append_assoc, List.cons_append]

theorem AtEvery.last (hall : AtEvery P (h ++ [e])) : P h e := hall h e [] rfl

theorem AtEvery.snoc (hall : AtEvery P h) (hlast : P h e) : AtEvery P (h ++ [e]) := by
  intro pre e' post hsplit
  rcases List.eq_nil_or_concat post with rfl | ⟨init, final, rfl⟩
  · obtain ⟨rfl, he⟩ := List.append_inj' hsplit rfl
    obtain rfl : e = e' := by simpa using he
    exact hlast
  · rw [List.concat_eq_append, ← List.cons_append, ← List.append_assoc] at hsplit
    obtain ⟨rfl, -⟩ := List.append_inj' hsplit rfl
    exact hall pre e' init rfl

end AtEvery

/-- Where steps cannot go on for ever, every path can be continued to an end. -/
theorem exists_halted (hwf : WellFounded fun t s => ∃ e, sys.step s e t) (s : σ) :
    ∃ h t, Path sys s h t ∧ sys.Halted t := by
  induction s using hwf.induction with
  | _ s ih =>
    by_cases hhalted : sys.Halted s
    · exact ⟨[], s, .nil s, hhalted⟩
    · simp only [System.Halted, not_forall, not_not] at hhalted
      obtain ⟨e, t, hstep⟩ := hhalted
      obtain ⟨h, u, hpath, hend⟩ := ih t ⟨e, hstep⟩
      exact ⟨e :: h, u, hpath.cons hstep, hend⟩

section Rank

variable {rank : σ → Nat}

theorem Path.length_le (hpath : Path sys s h t)
    (hfall : ∀ s e t, sys.step s e t → rank t < rank s) : h.length + rank t ≤ rank s := by
  induction hpath with
  | nil => simp
  | snoc _ hstep ih =>
    have hlt := hfall _ _ _ hstep
    rw [List.length_append, List.length_singleton]
    omega

theorem wellFounded_of_rank (hfall : ∀ s e t, sys.step s e t → rank t < rank s) :
    WellFounded fun t s => ∃ e, sys.step s e t :=
  Subrelation.wf (fun ⟨_, hstep⟩ => hfall _ _ _ hstep) (measure rank).wf

end Rank

/-! Two systems side by side: a label may be a step of the one, of the other, or of both. -/

section Joint

variable {σ' α β : Type}

/-- The system takes the step, if the label is one of its own. -/
def System.takes (sys : System σ ε) (s : σ) (e : Option ε) (t : σ) : Prop :=
  match e with
  | some e => sys.step s e t
  | none => t = s

theorem System.takes_value {value : σ → α} {put : ε → Option α} {o : Option ε}
    (hstep : ∀ s e t, sys.step s e t → value t = (put e).getD (value s))
    (htakes : sys.takes s o t) : value t = (o.bind put).getD (value s) := by
  cases o with
  | none =>
    rw [show t = s from htakes]
    rfl
  | some e => exact hstep s e t htakes

def System.joint (A : System σ α) (B : System σ' β) (left : ε → Option α) (right : ε → Option β)
    (may : σ × σ' → ε → Prop) : System (σ × σ') ε where
  start := (A.start, B.start)
  step s e t := may s e ∧ A.takes s.1 (left e) t.1 ∧ B.takes s.2 (right e) t.2

private theorem Path.seen {sys' : System σ' α} {view : σ → σ'} {label : ε → Option α}
    (hstep : ∀ s e t, sys.step s e t → sys'.takes (view s) (label e) (view t))
    (hpath : Path sys s h t) : Path sys' (view s) (observed label h) (view t) := by
  induction hpath with
  | nil => exact .nil _
  | @snoc t u h e _ hlast ih =>
    have htakes := hstep t e u hlast
    rw [observed_snoc]
    cases hlabel : label e with
    | none =>
      rw [hlabel] at htakes
      rw [show view u = view t from htakes]
      simpa using ih
    | some a =>
      rw [hlabel] at htakes
      exact ih.snoc htakes

variable {A : System σ α} {B : System σ' β} {left : ε → Option α} {right : ε → Option β}
  {may : σ × σ' → ε → Prop} {a b : σ × σ'} {hist : List ε}

theorem Path.joint_left (hpath : Path (A.joint B left right may) a hist b) :
    Path A a.1 (observed left hist) b.1 := by
  have hstep : ∀ s e t, (A.joint B left right may).step s e t →
      A.takes (Prod.fst s) (left e) (Prod.fst t) := fun _ _ _ h => h.2.1
  exact hpath.seen hstep

theorem Path.joint_right (hpath : Path (A.joint B left right may) a hist b) :
    Path B a.2 (observed right hist) b.2 := by
  have hstep : ∀ s e t, (A.joint B left right may).step s e t →
      B.takes (Prod.snd s) (right e) (Prod.snd t) := fun _ _ _ h => h.2.2
  exact hpath.seen hstep

end Joint

end LocalDesktop.Foundation.Transition
