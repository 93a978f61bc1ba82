/- GID: LocalDesktop/Foundation/Forest
   generality: G
   digest: Forests of parent pointers and ordered child lists: operations, ancestors, walks. -/

import Mathlib.Data.Finset.Card
import Mathlib.Data.List.Pairwise
import Mathlib.Data.List.Nodup
import Mathlib.Data.List.Perm.Basic
import Mathlib.Logic.Function.Basic
import Mathlib.Logic.Relation

/-!
A forest is kept twice, as in a scene graph: every node knows its parent, and
every node has the list of its children, with itself in their midst. The place
of a node in its own list says which of its children come before it in a walk.
-/

set_option autoImplicit false
set_option relaxedAutoImplicit false

namespace LocalDesktop.Foundation.Forest

variable {V : Type}

structure Links (V : Type) where
  parent : V → Option V
  children : V → List V

namespace Links

def Child (l : Links V) (p c : V) : Prop := l.parent c = some p

def Ancestor (l : Links V) : V → V → Prop := Relation.TransGen l.Child

/-- The node itself or one of its ancestors. -/
def Above (l : Links V) : V → V → Prop := Relation.ReflTransGen l.Child

/-- The two ways to keep the forest agree. -/
structure WellFormed (l : Links V) (nodes : Finset V) : Prop where
  self_mem : ∀ v, v ∈ l.children v ↔ v ∈ nodes
  mem_children : ∀ v c, c ≠ v → (c ∈ l.children v ↔ l.parent c = some v)
  nodup : ∀ v, (l.children v).Nodup
  acyclic : ∀ v, ¬l.Ancestor v v
  parent_mem : ∀ c p, l.parent c = some p → c ∈ nodes ∧ p ∈ nodes

variable {l l' : Links V} {nodes : Finset V} {a b c p v x : V} {fuel : ℕ}

theorem above_iff : l.Above a b ↔ b = a ∨ l.Ancestor a b := Relation.reflTransGen_iff_eq_or_transGen

theorem Above.refl : l.Above v v := Relation.ReflTransGen.refl

private theorem ancestor_of_child (hchild : l.Child p c) (habove : l.Above c x) : l.Ancestor p x :=
  Relation.TransGen.head' hchild habove

theorem ancestor_iff_above_parent : l.Ancestor a c ↔ ∃ p, l.Above a p ∧ l.parent c = some p :=
  Relation.TransGen.tail'_iff

private theorem above_total (hax : l.Above a x) (hbx : l.Above b x) :
    l.Above a b ∨ l.Above b a := by
  have hunique : Relator.RightUnique (Function.swap l.Child) := by
    intro u p q hp hq
    exact Option.some.inj (hp.symm.trans hq)
  have hxa := Relation.reflTransGen_swap.mpr hax
  have hxb := Relation.reflTransGen_swap.mpr hbx
  rcases Relation.ReflTransGen.total_of_right_unique hunique hxb hxa with hba | hab
  · exact .inl (Relation.reflTransGen_swap.mp hba)
  · exact .inr (Relation.reflTransGen_swap.mp hab)

private theorem ancestor_mono (hsub : ∀ p c, l'.Child p c → l.Child p c) (hanc : l'.Ancestor a b) :
    l.Ancestor a b := by
  apply Relation.TransGen.mono _ a b hanc
  exact hsub

theorem acyclic_mono (hacyclic : ∀ v, ¬l.Ancestor v v)
    (hsub : ∀ p c, l'.Child p c → l.Child p c) (v : V) : ¬l'.Ancestor v v := by
  intro hcycle
  exact hacyclic v (ancestor_mono hsub hcycle)

namespace WellFormed

theorem child_mem (hwf : l.WellFormed nodes) (hchild : l.parent c = some p) : c ∈ l.children p := by
  have hne : c ≠ p := by
    rintro rfl
    exact hwf.acyclic c (.single hchild)
  exact (hwf.mem_children p c hne).mpr hchild

private theorem children_eq_nil (hwf : l.WellFormed nodes) (hv : v ∉ nodes) : l.children v =
    [] := by
  rw [List.eq_nil_iff_forall_not_mem]
  intro c hc
  by_cases hcv : c = v
  · subst hcv
    exact hv ((hwf.self_mem c).mp hc)
  · exact hv (hwf.parent_mem c v ((hwf.mem_children v c hcv).mp hc)).2

theorem parent_eq_none (hwf : l.WellFormed nodes) (hv : v ∉ nodes) : l.parent v = none := by
  rw [Option.eq_none_iff_forall_ne_some]
  intro p hp
  exact hv (hwf.parent_mem v p hp).1

theorem empty : (⟨fun _ => none, fun _ => []⟩ : Links V).WellFormed ∅ where
  self_mem v := by simp
  mem_children v c _ := by simp
  nodup v := List.nodup_nil
  acyclic v hcycle := by
    obtain ⟨p, -, hp⟩ := ancestor_iff_above_parent.mp hcycle
    cases hp
  parent_mem c p hp := by cases hp

end WellFormed

section Operations

variable [DecidableEq V]

/-! The operations. -/

/-- A new node, alone in its own list. -/
def plant (l : Links V) (v : V) : Links V :=
  { l with children := Function.update l.children v [v] }

def link (l : Links V) (c p : V) : Links V where
  parent := Function.update l.parent c (some p)
  children := Function.update l.children p (l.children p ++ [c])

def unlink (l : Links V) (c : V) : Links V where
  parent := Function.update l.parent c none
  children v := if l.parent c = some v then (l.children v).filter fun d => decide (d ≠ c)
    else l.children v

/-- The node goes, and its children are orphans. -/
def uproot (l : Links V) (v : V) : Links V where
  parent c := if c = v ∨ l.parent c = some v then none else l.parent c
  children := Function.update (l.unlink v).children v []

def permute (l : Links V) (p : V) (cs : List V) : Links V :=
  { l with children := Function.update l.children p cs }

namespace WellFormed

theorem plant (hwf : l.WellFormed nodes) (hv : v ∉ nodes) :
    (l.plant v).WellFormed (insert v nodes) where
  self_mem u := by
    by_cases huv : u = v
    · subst huv
      simp [Links.plant]
    · simp [Links.plant, huv, hwf.self_mem u]
  mem_children u c hcu := by
    by_cases huv : u = v
    · subst huv
      have hparent : l.parent c ≠ some u := fun hp => hv (hwf.parent_mem c u hp).2
      simp [Links.plant, hcu, hparent]
    · simpa [Links.plant, huv] using hwf.mem_children u c hcu
  nodup u := by
    by_cases huv : u = v
    · subst huv
      simp [Links.plant]
    · simpa [Links.plant, huv] using hwf.nodup u
  acyclic := hwf.acyclic
  parent_mem c p hp := by
    obtain ⟨hc, hp⟩ := hwf.parent_mem c p hp
    exact ⟨Finset.mem_insert_of_mem hc, Finset.mem_insert_of_mem hp⟩

private theorem ancestor_link (hanc : (l.link c p).Ancestor a b) :
    l.Ancestor a b ∨ l.Above a p ∧ l.Above c b := by
  have hchild : ∀ {u w}, (l.link c p).Child u w → w = c ∧ u = p ∨ l.Child u w := by
    intro u w huw
    by_cases hwc : w = c
    · subst hwc
      left
      simpa [Links.Child, Links.link, eq_comm] using huw
    · right
      simpa [Links.Child, Links.link, hwc] using huw
  induction hanc with
  | single hab =>
    rcases hchild hab with ⟨rfl, rfl⟩ | hab
    · exact .inr ⟨.refl, .refl⟩
    · exact .inl (.single hab)
  | tail hax hxb ih =>
    rcases hchild hxb with ⟨rfl, rfl⟩ | hxb
    · rcases ih with hap | ⟨hap, -⟩
      · exact .inr ⟨hap.to_reflTransGen, .refl⟩
      · exact .inr ⟨hap, .refl⟩
    · rcases ih with hax | ⟨hap, hcx⟩
      · exact .inl (hax.tail hxb)
      · exact .inr ⟨hap, hcx.tail hxb⟩

theorem acyclic_link (hacyclic : ∀ v, ¬l.Ancestor v v) (hfree : ¬l.Above c p) (v : V) :
    ¬(l.link c p).Ancestor v v := by
  intro hcycle
  rcases ancestor_link hcycle with hold | ⟨hvp, hcv⟩
  · exact hacyclic v hold
  · exact hfree (hcv.trans hvp)

theorem link (hwf : l.WellFormed nodes) (hc : c ∈ nodes) (hp : p ∈ nodes)
    (horphan : l.parent c = none) (hfree : ¬l.Above c p) : (l.link c p).WellFormed nodes where
  self_mem u := by
    have hcp : p ≠ c := fun heq => hfree (heq ▸ .refl)
    by_cases hup : u = p
    · subst hup
      simp [Links.link, hcp, hwf.self_mem u]
    · simp [Links.link, hup, hwf.self_mem u]
  mem_children u d hdu := by
    by_cases hup : u = p
    · subst hup
      by_cases hdc : d = c
      · subst hdc
        simp [Links.link]
      · simp [Links.link, hdc, hwf.mem_children u d hdu]
    · by_cases hdc : d = c
      · subst hdc
        have hnot : d ∉ l.children u := by
          rw [hwf.mem_children u d hdu, horphan]
          exact Option.some_ne_none u ∘ Eq.symm
        simp [Links.link, hup, hnot, Ne.symm hup]
      · simp [Links.link, hup, hdc, hwf.mem_children u d hdu]
  nodup u := by
    by_cases hup : u = p
    · subst hup
      have hcu : c ≠ u := fun heq => hfree (heq ▸ .refl)
      have hnot : c ∉ l.children u := by
        rw [hwf.mem_children u c hcu, horphan]
        exact Option.some_ne_none u ∘ Eq.symm
      simpa [Links.link, List.nodup_append, hwf.nodup u] using
        fun d hd (heq : d = c) => hnot (heq ▸ hd)
    · simpa [Links.link, hup] using hwf.nodup u
  acyclic := acyclic_link hwf.acyclic hfree
  parent_mem d q hq := by
    by_cases hdc : d = c
    · subst hdc
      obtain rfl : p = q := by simpa [Links.link] using hq
      exact ⟨hc, hp⟩
    · exact hwf.parent_mem d q (by simpa [Links.link, hdc] using hq)

theorem unlink (hwf : l.WellFormed nodes) : (l.unlink c).WellFormed nodes where
  self_mem u := by
    have hne : l.parent c = some u → u ≠ c := by
      rintro hp rfl
      exact hwf.acyclic u (.single hp)
    by_cases hp : l.parent c = some u
    · simp [Links.unlink, hp, hwf.self_mem u, hne hp]
    · simp [Links.unlink, hp, hwf.self_mem u]
  mem_children u d hdu := by
    by_cases hdc : d = c
    · subst hdc
      by_cases hp : l.parent d = some u
      · simp [Links.unlink, hp]
      · simpa [Links.unlink, hp] using mt (hwf.mem_children u d hdu).mp hp
    · by_cases hp : l.parent c = some u
      · simp [Links.unlink, hp, hdc, hwf.mem_children u d hdu]
      · simp [Links.unlink, hp, hdc, hwf.mem_children u d hdu]
  nodup u := by
    by_cases hp : l.parent c = some u
    · simpa [Links.unlink, hp] using (hwf.nodup u).filter _
    · simpa [Links.unlink, hp] using hwf.nodup u
  acyclic := by
    apply acyclic_mono hwf.acyclic
    intro q d hd
    by_cases hdc : d = c
    · simp [Links.Child, Links.unlink, hdc] at hd
    · simpa [Links.Child, Links.unlink, hdc] using hd
  parent_mem d q hq := by
    by_cases hdc : d = c
    · simp [Links.unlink, hdc] at hq
    · exact hwf.parent_mem d q (by simpa [Links.unlink, hdc] using hq)

theorem uproot (hwf : l.WellFormed nodes) : (l.uproot v).WellFormed (nodes.erase v) where
  self_mem u := by
    by_cases huv : u = v
    · subst huv
      simp [Links.uproot]
    · simp [Links.uproot, huv, hwf.unlink.self_mem u]
  mem_children u d hdu := by
    by_cases huv : u = v
    · subst huv
      by_cases hp : l.parent d = some u <;> simp [Links.uproot, hdu, hp]
    · have hunlink := (hwf.unlink (c := v)).mem_children u d hdu
      have huv' : Function.update (l.unlink v).children v [] u = (l.unlink v).children u :=
        Function.update_of_ne huv _ _
      simp only [Links.uproot, huv', hunlink]
      by_cases hdv : d = v
      · simp [Links.unlink, hdv]
      · by_cases hp : l.parent d = some v
        · simp [Links.unlink, hdv, hp, Ne.symm huv]
        · simp [Links.unlink, hdv, hp]
  nodup u := by
    by_cases huv : u = v
    · subst huv
      simp [Links.uproot]
    · simpa [Links.uproot, huv] using (hwf.unlink (c := v)).nodup u
  acyclic := by
    apply acyclic_mono hwf.acyclic
    intro q d hd
    simp only [Links.Child, Links.uproot] at hd
    split at hd
    · cases hd
    · exact hd
  parent_mem d q hq := by
    simp only [Links.uproot] at hq
    split at hq
    · cases hq
    · rename_i hno
      obtain ⟨hdv, hqv⟩ := not_or.mp hno
      obtain ⟨hd, hqn⟩ := hwf.parent_mem d q hq
      refine ⟨Finset.mem_erase.mpr ⟨hdv, hd⟩, Finset.mem_erase.mpr ⟨?_, hqn⟩⟩
      rintro rfl
      exact hqv hq

theorem permute {cs : List V} (hwf : l.WellFormed nodes) (hperm : cs.Perm (l.children p)) :
    (l.permute p cs).WellFormed nodes where
  self_mem u := by
    by_cases hup : u = p
    · subst hup
      simp [Links.permute, hperm.mem_iff, hwf.self_mem u]
    · simp [Links.permute, hup, hwf.self_mem u]
  mem_children u d hdu := by
    by_cases hup : u = p
    · subst hup
      simpa [Links.permute, hperm.mem_iff] using hwf.mem_children u d hdu
    · simpa [Links.permute, hup] using hwf.mem_children u d hdu
  nodup u := by
    by_cases hup : u = p
    · subst hup
      simpa [Links.permute] using hperm.nodup_iff.mpr (hwf.nodup u)
    · simpa [Links.permute, hup] using hwf.nodup u
  acyclic := hwf.acyclic
  parent_mem := hwf.parent_mem

end WellFormed

end Operations

/-! How deep and how high a node can be. -/

open Classical in
noncomputable def ancestors (l : Links V) (nodes : Finset V) (v : V) : Finset V :=
  nodes.filter fun a => l.Ancestor a v

open Classical in
noncomputable def descendants (l : Links V) (nodes : Finset V) (v : V) : Finset V :=
  nodes.filter fun d => l.Ancestor v d

private theorem mem_ancestors : a ∈ l.ancestors nodes v ↔ a ∈ nodes ∧ l.Ancestor a v := by
  simp [ancestors]

private theorem mem_descendants : x ∈ l.descendants nodes v ↔ x ∈ nodes ∧ l.Ancestor v x := by
  simp [descendants]

/-- Without cycles, every step up leaves an ancestor behind. -/
theorem card_ancestors_lt_of_acyclic (hacyclic : ∀ v, ¬l.Ancestor v v) (hmem : p ∈ nodes)
    (hp : l.parent c = some p) : (l.ancestors nodes p).card < (l.ancestors nodes c).card := by
  apply Finset.card_lt_card
  rw [Finset.ssubset_iff_of_subset]
  · refine ⟨p, ?_, ?_⟩
    · exact mem_ancestors.mpr ⟨hmem, .single hp⟩
    · intro hpp
      exact hacyclic p (mem_ancestors.mp hpp).2
  · intro a ha
    obtain ⟨hmem, hap⟩ := mem_ancestors.mp ha
    exact mem_ancestors.mpr ⟨hmem, hap.tail hp⟩

namespace WellFormed

private theorem card_ancestors_lt (hwf : l.WellFormed nodes) (hp : l.parent c = some p) :
    (l.ancestors nodes p).card < (l.ancestors nodes c).card :=
  card_ancestors_lt_of_acyclic hwf.acyclic (hwf.parent_mem c p hp).2 hp

private theorem card_descendants_lt (hwf : l.WellFormed nodes) (hp : l.parent c = some p) :
    (l.descendants nodes c).card < (l.descendants nodes p).card := by
  apply Finset.card_lt_card
  rw [Finset.ssubset_iff_of_subset]
  · refine ⟨c, ?_, ?_⟩
    · exact mem_descendants.mpr ⟨(hwf.parent_mem c p hp).1, .single hp⟩
    · intro hcc
      exact hwf.acyclic c (mem_descendants.mp hcc).2
  · intro d hd
    obtain ⟨hmem, hcd⟩ := mem_descendants.mp hd
    exact mem_descendants.mpr ⟨hmem, ancestor_of_child hp hcd.to_reflTransGen⟩

end WellFormed

theorem card_ancestors_le : (l.ancestors nodes v).card ≤ nodes.card := by
  apply Finset.card_le_card
  intro a ha
  exact (mem_ancestors.mp ha).1

theorem card_descendants_le : (l.descendants nodes v).card ≤ nodes.card := by
  apply Finset.card_le_card
  intro d hd
  exact (mem_descendants.mp hd).1

/-! The way up. -/

/-- The node, its parent and so on, for as many steps as there is fuel. -/
def chain (l : Links V) : ℕ → V → List V
  | 0, _ => []
  | fuel + 1, v => v :: (l.parent v).elim [] (chain l fuel)

private theorem WellFormed.mem_chain_of_lt (hwf : l.WellFormed nodes)
    (hfuel : (l.ancestors nodes v).card < fuel) : a ∈ l.chain fuel v ↔ l.Above a v := by
  induction fuel generalizing v with
  | zero => omega
  | succ fuel ih =>
    rw [chain, List.mem_cons, above_iff, ancestor_iff_above_parent, eq_comm]
    cases hp : l.parent v with
    | none => simp
    | some p =>
      have hlt := hwf.card_ancestors_lt hp
      simp [ih (v := p) (by omega)]

theorem WellFormed.mem_chain (hwf : l.WellFormed nodes) (hfuel : nodes.card < fuel) :
    a ∈ l.chain fuel v ↔ l.Above a v := by
  apply hwf.mem_chain_of_lt
  have hle : (l.ancestors nodes v).card ≤ nodes.card := card_ancestors_le
  omega

private theorem WellFormed.disjoint_children (hwf : l.WellFormed nodes) (hb : l.parent b = some v)
    (hc : l.parent c = some v) (hne : b ≠ c) (hbx : l.Above b x) : ¬l.Above c x := by
  have hno : ∀ {b c}, l.parent b = some v → l.parent c = some v → b ≠ c → ¬l.Above b c := by
    intro b c hb hc hne hbc
    rcases above_iff.mp hbc with rfl | hanc
    · exact hne rfl
    · obtain ⟨p, hbp, hp⟩ := ancestor_iff_above_parent.mp hanc
      obtain rfl : p = v := Option.some.inj (hp.symm.trans hc)
      exact hwf.acyclic p (ancestor_of_child hb hbp)
  intro hcx
  rcases above_total hbx hcx with hbc | hcb
  · exact hno hb hc hne hbc
  · exact hno hc hb hne.symm hcb

variable [DecidableEq V]

/-! The walk through a tree, every node in its place among its children. -/

def walk (l : Links V) : ℕ → V → List V
  | 0, _ => []
  | fuel + 1, v => (l.children v).flatMap fun c => if c = v then [v] else walk l fuel c

private theorem mem_walk_succ : x ∈ l.walk (fuel + 1) v ↔
    v ∈ l.children v ∧ x = v ∨ ∃ c ∈ l.children v, c ≠ v ∧ x ∈ l.walk fuel c := by
  simp only [walk, List.mem_flatMap]
  constructor
  · rintro ⟨c, hc, hx⟩
    by_cases hcv : c = v
    · subst hcv
      exact .inl ⟨hc, by simpa using hx⟩
    · exact .inr ⟨c, hc, hcv, by simpa [hcv] using hx⟩
  · rintro (⟨hv, rfl⟩ | ⟨c, hc, hcv, hx⟩)
    · exact ⟨x, hv, by simp⟩
    · exact ⟨c, hc, by simpa [hcv] using hx⟩

private theorem WellFormed.mem_walk_of_lt (hwf : l.WellFormed nodes) (hv : v ∈ nodes)
    (hfuel : (l.descendants nodes v).card < fuel) : x ∈ l.walk fuel v ↔ l.Above v x := by
  induction fuel generalizing v with
  | zero => omega
  | succ fuel ih =>
    have hchild : ∀ {c}, l.parent c = some v → (x ∈ l.walk fuel c ↔ l.Above c x) := by
      intro c hp
      have hlt := hwf.card_descendants_lt hp
      exact ih (hwf.parent_mem c v hp).1 (by omega)
    rw [mem_walk_succ]
    constructor
    · rintro (⟨-, rfl⟩ | ⟨c, hc, hcv, hx⟩)
      · exact .refl
      · have hp := (hwf.mem_children v c hcv).mp hc
        exact (ancestor_of_child hp ((hchild hp).mp hx)).to_reflTransGen
    · intro habove
      rcases Relation.ReflTransGen.cases_head habove with rfl | ⟨c, hp, hcx⟩
      · exact .inl ⟨(hwf.self_mem v).mpr hv, rfl⟩
      · have hcv : c ≠ v := by
          rintro rfl
          exact hwf.acyclic c (.single hp)
        exact .inr ⟨c, hwf.child_mem hp, hcv, (hchild hp).mpr hcx⟩

theorem WellFormed.mem_walk (hwf : l.WellFormed nodes) (hv : v ∈ nodes)
    (hfuel : nodes.card < fuel) : x ∈ l.walk fuel v ↔ l.Above v x := by
  apply hwf.mem_walk_of_lt hv
  have hle : (l.descendants nodes v).card ≤ nodes.card := card_descendants_le
  omega

theorem WellFormed.nodup_walk (hwf : l.WellFormed nodes) (hv : v ∈ nodes)
    (hfuel : (l.descendants nodes v).card < fuel) : (l.walk fuel v).Nodup := by
  induction fuel generalizing v with
  | zero => omega
  | succ fuel ih =>
    have hchild : ∀ {c}, c ∈ l.children v → c ≠ v → l.parent c = some v ∧ c ∈ nodes ∧
        (l.descendants nodes c).card < fuel := by
      intro c hc hcv
      have hp := (hwf.mem_children v c hcv).mp hc
      have hlt := hwf.card_descendants_lt hp
      exact ⟨hp, (hwf.parent_mem c v hp).1, by omega⟩
    rw [walk, List.nodup_flatMap]
    constructor
    · intro c hc
      by_cases hcv : c = v
      · simp [hcv]
      · obtain ⟨-, hmem, hlt⟩ := hchild hc hcv
        simpa [hcv] using ih hmem hlt
    · refine (hwf.nodup v).pairwise_of_forall_ne fun b hb c hc hne => ?_
      have hself : ∀ {d}, d ∈ l.children v → d ≠ v → v ∉ l.walk fuel d := by
        intro d hd hdv hin
        obtain ⟨hp, hmem, hlt⟩ := hchild hd hdv
        exact hwf.acyclic v (ancestor_of_child hp ((hwf.mem_walk_of_lt hmem hlt).mp hin))
      intro x hxb hxc
      by_cases hbv : b = v
      · subst hbv
        obtain rfl : x = b := by simpa using hxb
        exact hself hc hne.symm (by simpa [hne.symm] using hxc)
      · by_cases hcv : c = v
        · subst hcv
          obtain rfl : x = c := by simpa using hxc
          exact hself hb hbv (by simpa [hbv] using hxb)
        · obtain ⟨hpb, hbmem, hblt⟩ := hchild hb hbv
          obtain ⟨hpc, hcmem, hclt⟩ := hchild hc hcv
          have hbx := (hwf.mem_walk_of_lt hbmem hblt).mp (by simpa [hbv] using hxb)
          have hcx := (hwf.mem_walk_of_lt hcmem hclt).mp (by simpa [hcv] using hxc)
          exact hwf.disjoint_children hpb hpc hne hbx hcx

theorem WellFormed.walk_eq_nil (hwf : l.WellFormed nodes) (hv : v ∉ nodes) :
    l.walk fuel v = [] := by
  cases fuel with
  | zero => rfl
  | succ fuel => simp [walk, hwf.children_eq_nil hv]

/-- The same forest with every list of children from its end. -/
def flip (l : Links V) : Links V := { l with children := fun v => (l.children v).reverse }

theorem walk_flip : l.flip.walk fuel v = (l.walk fuel v).reverse := by
  induction fuel generalizing v with
  | zero => rfl
  | succ fuel ih =>
    have hone : ∀ c, (if c = v then [v] else l.flip.walk fuel c) =
        (if c = v then [v] else l.walk fuel c).reverse := by
      intro c
      split
      · rfl
      · exact ih
    simp only [walk, hone]
    rw [List.reverse_flatMap]
    rfl

/-- The same forest with every node behind its children. -/
def last (l : Links V) : Links V :=
  { l with children := fun v =>
    (l.children v).filter (fun c => !decide (c = v)) ++ (l.children v).filter fun c => decide (c = v) }

private theorem WellFormed.last (hwf : l.WellFormed nodes) : l.last.WellFormed nodes where
  self_mem v := by simpa [Links.last] using hwf.self_mem v
  mem_children v c hcv := by simpa [Links.last, hcv] using hwf.mem_children v c hcv
  nodup v := by
    refine List.Nodup.append ((hwf.nodup v).filter _) ((hwf.nodup v).filter _) fun x hx hx' => ?_
    have hne : x ≠ v := by simpa using (List.mem_filter.mp hx).2
    exact hne (by simpa using (List.mem_filter.mp hx').2)
  acyclic := hwf.acyclic
  parent_mem := hwf.parent_mem

/-! The walk that comes to a node when all below it is done. -/

def post (l : Links V) : ℕ → V → List V
  | 0, _ => []
  | fuel + 1, v =>
    ((l.children v).filter fun c => decide (c ≠ v)).flatMap (post l fuel) ++ [v]

private theorem WellFormed.post_eq_walk (hwf : l.WellFormed nodes) (hv : v ∈ nodes) :
    l.post fuel v = l.last.walk fuel v := by
  induction fuel generalizing v with
  | zero => rfl
  | succ fuel ih =>
    have hself : (l.children v).filter (fun c => decide (c = v)) = [v] := by
      rw [List.filter_eq, List.count_eq_one_of_mem (hwf.nodup v) ((hwf.self_mem v).mpr hv)]
      rfl
    have hchildren : (l.children v).filter (fun c => decide (c ≠ v)) =
        (l.children v).filter fun c => !decide (c = v) := by simp
    rw [post, walk, Links.last, List.flatMap_append, hself, hchildren]
    congr 1
    · apply List.flatMap_congr
      intro c hc
      obtain ⟨hmem, hne⟩ := List.mem_filter.mp hc
      have hcv : c ≠ v := by simpa using hne
      rw [if_neg hcv]
      exact ih (hwf.parent_mem c v ((hwf.mem_children v c hcv).mp hmem)).1
    · simp

theorem WellFormed.mem_post (hwf : l.WellFormed nodes) (hv : v ∈ nodes)
    (hfuel : nodes.card < fuel) : x ∈ l.post fuel v ↔ l.Above v x := by
  rw [hwf.post_eq_walk hv]
  exact hwf.last.mem_walk hv hfuel

theorem WellFormed.nodup_post (hwf : l.WellFormed nodes) (hv : v ∈ nodes)
    (hfuel : nodes.card < fuel) : (l.post fuel v).Nodup := by
  rw [hwf.post_eq_walk hv]
  apply hwf.last.nodup_walk hv
  have hle : (l.last.descendants nodes v).card ≤ nodes.card := card_descendants_le
  omega

end Links

end LocalDesktop.Foundation.Forest
