/- GID: LocalDesktop/Foundation/Served
   generality: G
   digest: Programs some of whose operations are answered from a resource that they use up. -/

import LocalDesktop.Foundation.Effects

set_option autoImplicit false
set_option relaxedAutoImplicit false

namespace LocalDesktop.Foundation.Effects

variable {Op : Type} {Res : Op → Type} {α β γ ρ : Type}

/-- How a resource answers operations: with a result and what is left, or not at all. -/
abbrev Service (Op : Type) (Res : Op → Type) (ρ : Type) := (o : Op) → ρ → Option (Res o × ρ)

namespace Program

/-- The program with the answers of the service filled in. -/
def served (serve : Service Op Res ρ) : Program Op Res α → ρ → Program Op Res (α × ρ)
  | .pure a, left => .pure (a, left)
  | .panic m, _ => .panic m
  | .unfinished, _ => .unfinished
  | .op o next, left =>
    match serve o left with
    | some (r, left') => (next r).served serve left'
    | none => .op o fun r => (next r).served serve left

variable {serve : Service Op Res ρ} {left left' : ρ} {o : Op}

@[simp] theorem served_pure (a : α) :
    (.pure a : Program Op Res α).served serve left = .pure (a, left) := rfl

@[simp] theorem served_panic (m : String) :
    (.panic m : Program Op Res α).served serve left = .panic m := rfl

theorem served_op {r : Res o} (next : Res o → Program Op Res α)
    (ho : serve o left = some (r, left')) :
    (Program.op o next).served serve left = (next r).served serve left' := by
  rw [served, ho]

private theorem served_other (next : Res o → Program Op Res α) (ho : serve o left = none) :
    (Program.op o next).served serve left = .op o fun r => (next r).served serve left := by
  rw [served, ho]

theorem bind_assoc (p : Program Op Res α) (f : α → Program Op Res β) (g : β → Program Op Res γ) :
    (p.bind f).bind g = p.bind fun a => (f a).bind g := by
  induction p with
  | pure a => rfl
  | panic m => rfl
  | unfinished => rfl
  | op o next ih =>
    rw [op_bind, op_bind, op_bind]
    congr 1
    funext r
    exact ih r

theorem served_bind (p : Program Op Res α) (f : α → Program Op Res β) (left : ρ) :
    (p.bind f).served serve left = (p.served serve left).bind fun x => (f x.1).served serve x.2 := by
  induction p generalizing left with
  | pure a => rfl
  | panic m => rfl
  | unfinished => rfl
  | op o next ih =>
    rw [op_bind]
    cases ho : serve o left with
    | some answer =>
      obtain ⟨r, left'⟩ := answer
      rw [served_op _ ho, served_op _ ho, ih]
    | none =>
      rw [served_other _ ho, served_other _ ho, op_bind]
      congr 1
      funext r
      exact ih r left

theorem served_unused {p : Program Op Res α} {R : α → Prop}
    (hp : p.All (fun o => ∀ left, serve o left = none) R) :
    p.served serve left = p.bind fun a => .pure (a, left) := by
  induction p with
  | pure a => rfl
  | panic m => rfl
  | unfinished => rfl
  | op o next ih =>
    rw [served_other _ (hp.1 left), op_bind]
    congr 1
    funext r
    exact ih r (hp.2 r)

end Program

end LocalDesktop.Foundation.Effects
