/- GID: LocalDesktop/Foundation/Effects
   generality: G
   digest: Programs over an environment's operations, their runs cut at any point, and safety. -/

import Mathlib.Data.List.Basic

/-!
A program issues operations one at a time and continues with what the
environment answers. The environment is a relation: an operation may have
several outcomes, failures among them, and may be torn when the process is
killed while it is under way.

`Run` holds every finite behaviour of a program, complete or cut short, with
its events in order. `Safe` is the weakest precondition for an invariant that
must hold wherever the run is cut, and for a condition on every event.
`exec` follows one deterministic environment and is meant for evaluation.
-/

set_option autoImplicit false
set_option relaxedAutoImplicit false

namespace LocalDesktop.Foundation.Effects

variable {Op : Type} {Res : Op → Type} {α β γ σ : Type}

inductive Program (Op : Type) (Res : Op → Type) (α : Type) : Type
  | pure (a : α)
  | panic (message : String)
  /-- A loop that goes on after the turns that are looked at. -/
  | unfinished
  | op (o : Op) (next : Res o → Program Op Res α)

namespace Program

def bind : Program Op Res α → (α → Program Op Res β) → Program Op Res β
  | .pure a, f => f a
  | .panic m, _ => .panic m
  | .unfinished, _ => .unfinished
  | .op o next, f => .op o fun r => (next r).bind f

instance : Monad (Program Op Res) where
  pure := .pure
  bind := bind

def issue (o : Op) : Program Op Res (Res o) := .op o .pure

/-- Run a program to its end on another thread and look at how it ended. -/
def join : Program Op Res α → Program Op Res (Except String α)
  | .pure a => .pure (.ok a)
  | .panic m => .pure (.error m)
  | .unfinished => .unfinished
  | .op o next => .op o fun r => (next r).join

/-- `n` turns of a loop over a state; a turn ends the loop or hands the state on. -/
def iterate (body : β → Program Op Res (α ⊕ β)) : Nat → β → Program Op Res α
  | 0, _ => .unfinished
  | n + 1, b => (body b).bind fun
      | .inl a => .pure a
      | .inr b' => iterate body n b'

@[simp] theorem pure_eq (a : α) : (Pure.pure a : Program Op Res α) = .pure a := rfl

@[simp] theorem bind_eq (p : Program Op Res α) (f : α → Program Op Res β) :
    p >>= f = p.bind f := rfl

@[simp] theorem pure_bind (a : α) (f : α → Program Op Res β) : (pure a).bind f = f a := rfl

@[simp] theorem panic_bind (m : String) (f : α → Program Op Res β) :
    (panic m : Program Op Res α).bind f = .panic m := rfl

@[simp] theorem unfinished_bind (f : α → Program Op Res β) :
    (unfinished : Program Op Res α).bind f = .unfinished := rfl

@[simp] theorem op_bind (o : Op) (next : Res o → Program Op Res α) (f : α → Program Op Res β) :
    (op o next).bind f = .op o fun r => (next r).bind f := rfl

@[simp] theorem issue_bind (o : Op) (f : Res o → Program Op Res β) :
    (issue o).bind f = .op o f := rfl

end Program

/-- How the operations act on the environment. -/
structure Environment (Op : Type) (Res : Op → Type) (σ : Type) where
  /-- The operation completes with a result. -/
  step : (o : Op) → σ → Res o → σ → Prop
  /-- The process is killed while the operation is under way. -/
  torn : Op → σ → σ → Prop

/-- One operation of a run; it has no result when the run is cut inside it. -/
structure Event (Op : Type) (Res : Op → Type) (σ : Type) where
  before : σ
  op : Op
  result : Option (Res op)
  after : σ

/-- How a run ended; `killed` also where nobody looked further. -/
inductive Outcome (α : Type)
  | returned (a : α)
  | panicked (message : String)
  | killed
  deriving DecidableEq

/-- The finite behaviours of a program, complete or cut at any point. -/
inductive Run (env : Environment Op Res σ) :
    Program Op Res α → σ → List (Event Op Res σ) → Outcome α → σ → Prop
  | pure (a : α) (s : σ) : Run env (.pure a) s [] (.returned a) s
  | panic (m : String) (s : σ) : Run env (.panic m) s [] (.panicked m) s
  | killed (p : Program Op Res α) (s : σ) : Run env p s [] .killed s
  | torn {o : Op} {next : Res o → Program Op Res α} {s s' : σ} :
      env.torn o s s' → Run env (.op o next) s [⟨s, o, none, s'⟩] .killed s'
  | step {o : Op} {next : Res o → Program Op Res α} {s s' s'' : σ} {r : Res o}
      {tr : List (Event Op Res σ)} {out : Outcome α} :
      env.step o s r s' → Run env (next r) s' tr out s'' →
      Run env (.op o next) s (⟨s, o, some r, s'⟩ :: tr) out s''

variable {env : Environment Op Res σ}

/-- A run of a sequence is a run cut in its first part, or splits at the value returned. -/
theorem Run.bind_split {p : Program Op Res α} {f : α → Program Op Res β} {s s' : σ}
    {tr : List (Event Op Res σ)} {out : Outcome β} (h : Run env (p.bind f) s tr out s') :
    (∃ out', Run env p s tr out' s' ∧ (∀ a, out' ≠ .returned a) ∧ ∀ b, out ≠ .returned b) ∨
    ∃ tr₁ tr₂ a t, tr = tr₁ ++ tr₂ ∧ Run env p s tr₁ (.returned a) t ∧
      Run env (f a) t tr₂ out s' := by
  induction p generalizing s tr with
  | pure a => exact Or.inr ⟨[], tr, a, s, rfl, .pure a s, h⟩
  | panic m =>
    left
    cases h with
    | panic => exact ⟨_, .panic m _, by simp, by simp⟩
    | killed => exact ⟨_, .killed _ _, by simp, by simp⟩
  | unfinished =>
    cases h
    exact Or.inl ⟨_, .killed _ _, by simp, by simp⟩
  | op o next ih =>
    cases h with
    | killed => exact Or.inl ⟨_, .killed _ _, by simp, by simp⟩
    | torn ht => exact Or.inl ⟨_, .torn ht, by simp, by simp⟩
    | step hs hrest =>
      rcases ih _ hrest with ⟨out', hrun, ha, hb⟩ | ⟨tr₁, tr₂, a, t, rfl, h₁, h₂⟩
      · exact Or.inl ⟨out', .step hs hrun, ha, hb⟩
      · exact Or.inr ⟨_ :: tr₁, tr₂, a, t, rfl, .step hs h₁, h₂⟩

theorem Run.bind {p : Program Op Res α} {f : α → Program Op Res β} {s t s' : σ} {a : α}
    {tr₁ tr₂ : List (Event Op Res σ)} {out : Outcome β}
    (h₁ : Run env p s tr₁ (.returned a) t) (h₂ : Run env (f a) t tr₂ out s') :
    Run env (p.bind f) s (tr₁ ++ tr₂) out s' := by
  induction p generalizing s tr₁ with
  | pure b =>
    cases h₁
    exact h₂
  | panic m => cases h₁
  | unfinished => cases h₁
  | op o next ih =>
    cases h₁ with
    | step hs hrest => exact .step hs (ih _ hrest)

/-- Events that follow one another from one state to another. -/
inductive Linked : σ → List (Event Op Res σ) → σ → Prop
  | nil (s : σ) : Linked s [] s
  | cons {s t : σ} {e : Event Op Res σ} {es : List (Event Op Res σ)} :
      e.before = s → Linked e.after es t → Linked s (e :: es) t

theorem Linked.append {s t u : σ} {es es' : List (Event Op Res σ)} (h : Linked s es t)
    (h' : Linked t es' u) : Linked s (es ++ es') u := by
  induction h with
  | nil => exact h'
  | cons hbefore _ ih => exact .cons hbefore (ih h')

theorem Run.linked {p : Program Op Res α} {s s' : σ} {tr : List (Event Op Res σ)}
    {out : Outcome α} (h : Run env p s tr out s') : Linked s tr s' := by
  induction h with
  | pure | panic | killed => exact .nil _
  | torn => exact .cons rfl (.nil _)
  | step _ _ ih => exact .cons rfl ih

private theorem Linked.forall_of_keeps {P : σ → Prop} {s t : σ} {es : List (Event Op Res σ)}
    (h : Linked s es t) (hkeep : ∀ e ∈ es, P e.before → P e.after) (hs : P s) :
    ∀ e ∈ es, P e.before ∧ P e.after := by
  induction h with
  | nil => simp
  | @cons s t e es hbefore _ ih =>
    subst hbefore
    have he : P e.after := hkeep e List.mem_cons_self hs
    have hrest := ih (fun e' he' => hkeep e' (List.mem_cons_of_mem _ he')) he
    exact List.forall_mem_cons.mpr ⟨⟨hs, he⟩, hrest⟩

theorem Linked.exists_switch {P : σ → Prop} {s t : σ} {es : List (Event Op Res σ)}
    (h : Linked s es t) (hkeep : ∀ e ∈ es, P e.before → P e.after) (hs : ¬P s) (ht : P t) :
    ∃ pre e post, es = pre ++ e :: post ∧ ¬P e.before ∧ P e.after ∧
      (∀ e' ∈ pre, ¬P e'.before ∧ ¬P e'.after) ∧ ∀ e' ∈ post, P e'.before ∧ P e'.after := by
  induction h with
  | nil => exact absurd ht hs
  | @cons s t e es hbefore hrest ih =>
    subst hbefore
    have hkeep' : ∀ e' ∈ es, P e'.before → P e'.after := fun e' he' =>
      hkeep e' (List.mem_cons_of_mem _ he')
    by_cases he : P e.after
    · exact ⟨[], e, es, rfl, hs, he, by simp, hrest.forall_of_keeps hkeep' he⟩
    · obtain ⟨pre, e', post, rfl, hbefore, hafter, hpre, hpost⟩ := ih hkeep' he ht
      exact ⟨e :: pre, e', post, rfl, hbefore, hafter,
        List.forall_mem_cons.mpr ⟨⟨hs, he⟩, hpre⟩, hpost⟩

/-- Programs run one after the other, each to its end or cut at any point; `starts` says which
programs, and with which events. -/
inductive Starts (env : Environment Op Res σ)
    (starts : Program Op Res α → List (Event Op Res σ) → Prop) :
    σ → List (Event Op Res σ) → σ → Prop
  | none (s : σ) : Starts env starts s [] s
  | again {p : Program Op Res α} {s t u : σ} {es tr : List (Event Op Res σ)} {out : Outcome α} :
      Starts env starts s es t → starts p tr → Run env p t tr out u →
      Starts env starts s (es ++ tr) u

theorem Starts.linked {starts : Program Op Res α → List (Event Op Res σ) → Prop} {s t : σ}
    {es : List (Event Op Res σ)} (h : Starts env starts s es t) : Linked s es t := by
  induction h with
  | none => exact .nil _
  | again _ _ hrun ih => exact ih.append hrun.linked

section Safety

variable (env : Environment Op Res σ) (G : Event Op Res σ → Prop) (I : σ → Prop)

/-- From this state on, `I` holds wherever the run is cut, `G` holds of every event, and
`Q` holds of the value returned. -/
def Safe (Q : α → σ → Prop) : Program Op Res α → σ → Prop
  | .pure a, s => I s ∧ Q a s
  | .panic _, s => I s
  | .unfinished, s => I s
  | .op o next, s => I s ∧
      (∀ s', env.torn o s s' → G ⟨s, o, none, s'⟩ ∧ I s') ∧
      ∀ r s', env.step o s r s' → G ⟨s, o, some r, s'⟩ ∧ Safe Q (next r) s'

variable {env G I}

private theorem Safe.invariant {Q : α → σ → Prop} {p : Program Op Res α} {s : σ}
    (h : Safe env G I Q p s) : I s := by
  cases p with
  | pure a => exact h.1
  | panic m => exact h
  | unfinished => exact h
  | op o next => exact h.1

theorem Safe.sound {Q : α → σ → Prop} {p : Program Op Res α} {s s' : σ}
    {tr : List (Event Op Res σ)} {out : Outcome α} (h : Safe env G I Q p s)
    (hrun : Run env p s tr out s') :
    I s' ∧ (∀ e ∈ tr, G e) ∧ ∀ a, out = .returned a → Q a s' := by
  induction hrun with
  | pure a s => exact ⟨h.1, by simp, fun b hb => by cases hb; exact h.2⟩
  | panic m s => exact ⟨h, by simp, by simp⟩
  | killed p s => exact ⟨h.invariant, by simp, by simp⟩
  | torn ht =>
    obtain ⟨hG, hI⟩ := h.2.1 _ ht
    exact ⟨hI, by simpa using hG, by simp⟩
  | step hs _ ih =>
    obtain ⟨hG, hrest⟩ := h.2.2 _ _ hs
    obtain ⟨hI, htr, hQ⟩ := ih hrest
    exact ⟨hI, List.forall_mem_cons.mpr ⟨hG, htr⟩, hQ⟩

theorem Safe.bind {Q : β → σ → Prop} {p : Program Op Res α} {f : α → Program Op Res β} {s : σ}
    (h : Safe env G I (fun a t => Safe env G I Q (f a) t) p s) :
    Safe env G I Q (p.bind f) s := by
  induction p generalizing s with
  | pure a => exact h.2
  | panic m => exact h
  | unfinished => exact h
  | op o next ih =>
    refine ⟨h.1, h.2.1, fun r s' hs => ?_⟩
    obtain ⟨hG, hrest⟩ := h.2.2 r s' hs
    exact ⟨hG, ih r hrest⟩

theorem Safe.mono {Q Q' : α → σ → Prop} {p : Program Op Res α} {s : σ}
    (h : Safe env G I Q p s) (hQ : ∀ a t, I t → Q a t → Q' a t) : Safe env G I Q' p s := by
  induction p generalizing s with
  | pure a => exact ⟨h.1, hQ a s h.1 h.2⟩
  | panic m => exact h
  | unfinished => exact h
  | op o next ih =>
    refine ⟨h.1, h.2.1, fun r s' hs => ?_⟩
    obtain ⟨hG, hrest⟩ := h.2.2 r s' hs
    exact ⟨hG, ih r hrest⟩

theorem Safe.join {Q : Except String α → σ → Prop} {p : Program Op Res α} {s : σ}
    (h : Safe env G I (fun a t => Q (.ok a) t) p s)
    (hpanic : ∀ m t, I t → Q (.error m) t) : Safe env G I Q p.join s := by
  induction p generalizing s with
  | pure a => exact h
  | panic m => exact ⟨h, hpanic m s h⟩
  | unfinished => exact h
  | op o next ih =>
    refine ⟨h.1, h.2.1, fun r s' hs => ?_⟩
    obtain ⟨hG, hrest⟩ := h.2.2 r s' hs
    exact ⟨hG, ih r hrest⟩

/-- A loop keeps an assertion on its state from turn to turn. -/
theorem Safe.iterate {Q : α → σ → Prop} (J : β → σ → Prop)
    {body : β → Program Op Res (α ⊕ β)} (hJ : ∀ b s, J b s → I s)
    (hbody : ∀ b s, J b s → Safe env G I (fun r t => r.elim (Q · t) (J · t)) (body b) s) (n : Nat)
    {b : β} {s : σ} (h : J b s) : Safe env G I Q (Program.iterate body n b) s := by
  induction n generalizing b s with
  | zero => exact hJ b s h
  | succ n ih =>
    refine Safe.bind ((hbody b s h).mono ?_)
    intro r t hI hr
    cases r with
    | inl a => exact ⟨hI, hr⟩
    | inr b' => exact ih hr

/-- Whatever the environment answers, every operation issued satisfies `P` and every value
returned satisfies `R`. -/
def Program.All (P : Op → Prop) (R : α → Prop) : Program Op Res α → Prop
  | .pure a => R a
  | .panic _ => True
  | .unfinished => True
  | .op o next => P o ∧ ∀ r, (next r).All P R

section All

variable {P : Op → Prop} {R : α → Prop}

@[simp] theorem Program.all_pure (a : α) :
    (Program.pure a : Program Op Res α).All P R ↔ R a := Iff.rfl

@[simp] theorem Program.all_panic (m : String) :
    (Program.panic m : Program Op Res α).All P R ↔ True := Iff.rfl

@[simp] theorem Program.all_op (o : Op) (next : Res o → Program Op Res α) :
    (Program.op o next).All P R ↔ P o ∧ ∀ r, (next r).All P R := Iff.rfl

theorem Program.All.bind {R' : β → Prop} {p : Program Op Res α} {f : α → Program Op Res β}
    (hp : p.All P R) (hf : ∀ a, R a → (f a).All P R') : (p.bind f).All P R' := by
  induction p with
  | pure a => exact hf a hp
  | panic m => trivial
  | unfinished => trivial
  | op o next ih => exact ⟨hp.1, fun r => ih r (hp.2 r)⟩

theorem Program.All.mono {P' : Op → Prop} {R' : α → Prop} {p : Program Op Res α}
    (hp : p.All P R) (hP : ∀ o, P o → P' o) (hR : ∀ a, R a → R' a) : p.All P' R' := by
  induction p with
  | pure a => exact hR a hp
  | panic m => trivial
  | unfinished => trivial
  | op o next ih => exact ⟨hP o hp.1, fun r => ih r (hp.2 r)⟩

theorem Program.All.join {p : Program Op Res α} (hp : p.All P R) :
    p.join.All P fun _ => True := by
  induction p with
  | pure a => trivial
  | panic m => trivial
  | unfinished => trivial
  | op o next ih => exact ⟨hp.1, fun r => ih r (hp.2 r)⟩

theorem Program.All.iterate {R : α → Prop} {body : β → Program Op Res (α ⊕ β)}
    (hbody : ∀ b, (body b).All P fun r => ∀ a, r = .inl a → R a) (n : Nat) (b : β) :
    (Program.iterate body n b).All P R := by
  induction n generalizing b with
  | zero => trivial
  | succ n ih =>
    refine (hbody b).bind ?_
    rintro (a | b') hr
    · exact hr a rfl
    · exact ih b'

theorem Program.All.events {p : Program Op Res α} {s t : σ} {tr : List (Event Op Res σ)}
    {out : Outcome α} (hp : p.All P R) (hrun : Run env p s tr out t) : ∀ e ∈ tr, P e.op := by
  induction hrun with
  | pure | panic | killed => simp
  | torn ht =>
    intro e he
    exact List.mem_singleton.mp he ▸ hp.1
  | step _ _ ih => exact List.forall_mem_cons.mpr ⟨hp.1, ih (hp.2 _)⟩

end All

theorem Safe.of_all {P : Op → Prop} {R : α → Prop} {p : Program Op Res α} {s : σ}
    (hstep : ∀ o s r s', P o → I s → env.step o s r s' → G ⟨s, o, some r, s'⟩ ∧ I s')
    (htorn : ∀ o s s', P o → I s → env.torn o s s' → G ⟨s, o, none, s'⟩ ∧ I s')
    (hp : p.All P R) (hs : I s) : Safe env G I (fun a _ => R a) p s := by
  induction p generalizing s with
  | pure a => exact ⟨hs, hp⟩
  | panic m => exact hs
  | unfinished => exact hs
  | op o next ih =>
    refine ⟨hs, fun s' ht => htorn o s s' hp.1 hs ht, fun r s' h => ?_⟩
    obtain ⟨hG, hI⟩ := hstep o s r s' hp.1 hs h
    exact ⟨hG, ih r (hp.2 r) hI⟩

theorem Safe.forget {I' : σ → Prop} {Q : α → σ → Prop} {p : Program Op Res α} {s : σ}
    (h : Safe env G I Q p s) (hI : ∀ t, I t → I' t) :
    Safe env G I' (fun a t => I t ∧ Q a t) p s := by
  induction p generalizing s with
  | pure a => exact ⟨hI s h.1, h⟩
  | panic m => exact hI s h
  | unfinished => exact hI s h
  | op o next ih =>
    refine ⟨hI s h.1, fun s' ht => ?_, fun r s' hs => ?_⟩
    · obtain ⟨hG, ht'⟩ := h.2.1 s' ht
      exact ⟨hG, hI s' ht'⟩
    · obtain ⟨hG, hrest⟩ := h.2.2 r s' hs
      exact ⟨hG, ih r hrest⟩

/-- An invariant kept by each program holds over any number of them. -/
theorem Starts.sound {starts : Program Op Res α → List (Event Op Res σ) → Prop} {s t : σ}
    {es : List (Event Op Res σ)}
    (hrun : ∀ p tr out s u, starts p tr → I s → Run env p s tr out u → I u ∧ ∀ e ∈ tr, G e)
    (h : Starts env starts s es t) (hs : I s) : I t ∧ ∀ e ∈ es, G e := by
  induction h with
  | none => exact ⟨hs, by simp⟩
  | again _ hp hr ih =>
    obtain ⟨hI, hes⟩ := ih hs
    obtain ⟨hI', htr⟩ := hrun _ _ _ _ _ hp hI hr
    refine ⟨hI', ?_⟩
    intro e he
    rcases List.mem_append.mp he with he | he
    · exact hes e he
    · exact htr e he

end Safety

section Recording

/-- The environment that writes down what happens. -/
def Environment.recorded (env : Environment Op Res σ) :
    Environment Op Res (σ × List (Event Op Res σ)) where
  step o s r s' := env.step o s.1 r s'.1 ∧ s'.2 = s.2 ++ [⟨s.1, o, some r, s'.1⟩]
  torn o s s' := env.torn o s.1 s'.1 ∧ s'.2 = s.2 ++ [⟨s.1, o, none, s'.1⟩]

theorem Run.recorded {p : Program Op Res α} {s s' : σ} {tr : List (Event Op Res σ)}
    {out : Outcome α} (h : Run env p s tr out s') (past : List (Event Op Res σ)) :
    ∃ tr', Run env.recorded p (s, past) tr' out (s', past ++ tr) := by
  induction h generalizing past with
  | pure a s => exact ⟨[], by simpa using Run.pure a (s, past)⟩
  | panic m s => exact ⟨[], by simpa using Run.panic m (s, past)⟩
  | killed p s => exact ⟨[], by simpa using Run.killed p (s, past)⟩
  | @torn o next s s' ht => exact ⟨_, .torn ⟨ht, rfl⟩⟩
  | @step o next s s' s'' r tr out hs _ ih =>
    obtain ⟨tr', hrun⟩ := ih (past ++ [⟨s, o, some r, s'⟩])
    rw [List.append_assoc] at hrun
    exact ⟨_, .step ⟨hs, rfl⟩ hrun⟩

end Recording

section Evaluation

/-- A deterministic environment. -/
abbrev Handler (Op : Type) (Res : Op → Type) (σ : Type) := (o : Op) → σ → Res o × σ

variable (handle : Handler Op Res σ)

def exec : Program Op Res α → σ → Outcome α × σ
  | .pure a, s => (.returned a, s)
  | .panic m, s => (.panicked m, s)
  | .unfinished, s => (.killed, s)
  | .op o next, s => exec (next (handle o s).1) (handle o s).2

/-- Follow a deterministic environment for `n` operations, then kill the process. -/
def execKilled : Nat → Program Op Res α → σ → List (Event Op Res σ) × σ
  | n + 1, .op o next, s =>
      let rest := execKilled n (next (handle o s).1) (handle o s).2
      (⟨s, o, some (handle o s).1, (handle o s).2⟩ :: rest.1, rest.2)
  | _, _, s => ([], s)

@[simp] theorem exec_pure (a : α) (s : σ) :
    exec handle (.pure a : Program Op Res α) s = (.returned a, s) := rfl

@[simp] theorem exec_panic (m : String) (s : σ) :
    exec handle (.panic m : Program Op Res α) s = (.panicked m, s) := rfl

@[simp] theorem exec_op (o : Op) (next : Res o → Program Op Res α) (s : σ) :
    exec handle (.op o next) s = exec handle (next (handle o s).1) (handle o s).2 := rfl

theorem exec_bind (p : Program Op Res α) (f : α → Program Op Res β) (s : σ) :
    exec handle (p.bind f) s =
      match exec handle p s with
      | (.returned a, t) => exec handle (f a) t
      | (.panicked m, t) => (.panicked m, t)
      | (.killed, t) => (.killed, t) := by
  induction p generalizing s with
  | pure a => rfl
  | panic m => rfl
  | unfinished => rfl
  | op o next ih => exact ih _ _

theorem exec_bind_ok {p : Program Op Res α} {f : α → Program Op Res β} {s t : σ} {a : α}
    (h : exec handle p s = (.returned a, t)) : exec handle (p.bind f) s = exec handle (f a) t := by
  rw [exec_bind, h]

theorem run_execKilled (hsound : ∀ o s, env.step o s (handle o s).1 (handle o s).2) (n : Nat)
    (p : Program Op Res α) (s : σ) :
    Run env p s (execKilled handle n p s).1 .killed (execKilled handle n p s).2 := by
  induction n generalizing p s with
  | zero => exact .killed p s
  | succ n ih =>
    cases p with
    | pure a => exact .killed _ s
    | panic m => exact .killed _ s
    | unfinished => exact .killed _ s
    | op o next => exact .step (hsound o s) (ih _ _)

end Evaluation

end LocalDesktop.Foundation.Effects
