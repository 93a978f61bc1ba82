/- GID: LocalDesktop/Smithay/SurfaceForest
   generality: G
   digest: The tree of the surfaces is a forest, and what its operations do to the forest. -/

import LocalDesktop.Smithay.SurfaceTree

set_option autoImplicit false
set_option relaxedAutoImplicit false

namespace LocalDesktop.Smithay.Surfaces

open Foundation.Forest

def links (s : Surfaces) : Links Surface :=
  ⟨fun x => (s.data x).parent, fun x => (s.data x).children⟩

def nodes (s : Surfaces) : Finset Surface := s.surfaces.toFinset

/-- The surfaces that are there make up the forest; those that are gone are out of it. -/
def Forest (s : Surfaces) : Prop := s.links.WellFormed s.nodes

variable {s s' : Surfaces} {surface parent child x a b : Surface} {client : Client} {version : Nat}
  {f : PrivateSurfaceData → PrivateSurfaceData}

theorem links_eq {l : Links Surface} (hparent : ∀ x, (s.data x).parent = l.parent x)
    (hchildren : ∀ x, (s.data x).children = l.children x) : s.links = l := by
  have hfst : (fun x => (s.data x).parent) = l.parent := funext hparent
  have hsnd : (fun x => (s.data x).children) = l.children := funext hchildren
  rw [links, hfst, hsnd]

private theorem links_modify_parent (hchildren : (f (s.data surface)).children =
    (s.data surface).children) : (s.modify surface f).links =
      { s.links with
        parent := Function.update s.links.parent surface (f (s.data surface)).parent } := by
  apply links_eq
  · intro x
    by_cases hx : x = surface
    · subst hx
      simp
    · simp [modify_data_of_ne hx, hx, links]
  · intro x
    by_cases hx : x = surface
    · subst hx
      simp [hchildren, links]
    · simp [modify_data_of_ne hx, links]

private theorem links_modify_children
    (hparent : (f (s.data surface)).parent = (s.data surface).parent) :
    (s.modify surface f).links =
      { s.links with
        children := Function.update s.links.children surface (f (s.data surface)).children } := by
  apply links_eq
  · intro x
    by_cases hx : x = surface
    · subst hx
      simp [hparent, links]
    · simp [modify_data_of_ne hx, links]
  · intro x
    by_cases hx : x = surface
    · subst hx
      simp
    · simp [modify_data_of_ne hx, hx, links]

theorem links_modify (hparent : (f (s.data surface)).parent = (s.data surface).parent)
    (hchildren : (f (s.data surface)).children = (s.data surface).children) :
    (s.modify surface f).links = s.links := by
  have hkeep : Function.update s.links.parent surface (f (s.data surface)).parent =
      s.links.parent := Function.update_eq_self_iff.mpr hparent
  rw [links_modify_parent hchildren, hkeep]

theorem nodes_card_lt_fuel : s.nodes.card < s.fuel := by
  have hle := List.toFinset_card_le s.surfaces
  rw [nodes, fuel]
  omega

theorem mem_nodes : x ∈ s.nodes ↔ s.alive x = true := by
  simp [nodes, alive]

/-! Ancestors and the way up. -/

private theorem isAncestor_iff_chain {fuel : Nat} : s.isAncestor a fuel b = true ↔
    ∃ p, (s.data b).parent = some p ∧ a ∈ s.links.chain fuel p := by
  induction fuel generalizing b with
  | zero => simp [isAncestor, Links.chain]
  | succ fuel ih =>
    rw [isAncestor]
    cases hparent : (s.data b).parent with
    | none => simp
    | some p =>
      have hchain : a ∈ s.links.chain (fuel + 1) p ↔
          a = p ∨ ∃ q, (s.data p).parent = some q ∧ a ∈ s.links.chain fuel q := by
        rw [Links.chain, List.mem_cons]
        have hlinks : s.links.parent p = (s.data p).parent := rfl
        rw [hlinks]
        cases (s.data p).parent <;> simp
      by_cases hpa : p = a
      · simp [hpa, Links.chain]
      · simp [hpa, Ne.symm hpa, ih, hchain]

private theorem isAncestor_iff (hforest : s.Forest) :
    s.isAncestor a s.fuel b = true ↔ s.links.Ancestor a b := by
  rw [isAncestor_iff_chain, Links.ancestor_iff_above_parent]
  constructor
  · rintro ⟨p, hp, hmem⟩
    exact ⟨p, (hforest.mem_chain nodes_card_lt_fuel).mp hmem, hp⟩
  · rintro ⟨p, habove, hp⟩
    exact ⟨p, hp, (hforest.mem_chain nodes_card_lt_fuel).mpr habove⟩

/-! What the operations do to the links. -/

private theorem links_createSurface (hforest : s.Forest) (hnew : s.alive s.created = false) :
    (s.createSurface client version).links = s.links.plant s.created := by
  have hnone : (s.data s.created).parent = none := by
    apply hforest.parent_eq_none
    rw [mem_nodes, hnew]
    exact Bool.false_ne_true
  apply links_eq
  · intro x
    by_cases hx : x = s.created
    · subst hx
      simp [createSurface, links, Links.plant, PrivateSurfaceData.new, hnone]
    · simp [createSurface, links, Links.plant, hx]
  · intro x
    by_cases hx : x = s.created
    · subst hx
      simp [createSurface, Links.plant]
    · simp [createSurface, links, Links.plant, hx]

theorem forest_createSurface (hforest : s.Forest) (hnew : s.alive s.created = false) :
    (s.createSurface client version).Forest := by
  have hnodes : (s.createSurface client version).nodes = insert s.created s.nodes := by
    ext x
    simp [nodes, createSurface]
  rw [Forest, links_createSurface hforest hnew, hnodes]
  apply hforest.plant
  rw [mem_nodes, hnew]
  exact Bool.false_ne_true

theorem links_unsetParent : (s.unsetParent child).links = s.links.unlink child := by
  rw [unsetParent]
  cases hparent : (s.data child).parent with
  | none =>
    have hlinks : s.links.parent child = none := hparent
    have hkeep : Function.update s.links.parent child none = s.links.parent :=
      Function.update_eq_self_iff.mpr hlinks.symm
    simp [Links.unlink, hkeep, hlinks]
  | some p =>
    have hlinks : s.links.parent child = some p := hparent
    have hfirst : (s.modify child fun d => { d with parent := none }).links =
        { s.links with parent := Function.update s.links.parent child none } :=
      links_modify_parent rfl
    have hchildren : ((s.modify child fun d => { d with parent := none }).data p).children =
        s.links.children p := congrFun (congrArg Links.children hfirst) p
    simp only [links_modify_children, hfirst, hchildren, Links.unlink, hlinks, Option.some.injEq]
    congr 1
    funext x
    by_cases hxp : x = p
    · simp [hxp]
    · simp [hxp, Ne.symm hxp]

theorem read_unsetParent {β : Type} {g : PrivateSurfaceData → β}
    (hparent : ∀ d p, g { d with parent := p } = g d)
    (hchildren : ∀ d cs, g { d with children := cs } = g d) :
    g ((s.unsetParent child).data x) = g (s.data x) := by
  have hfirst : ∀ x, g ((s.modify child fun d => { d with parent := none }).data x) =
      g (s.data x) := by
    intro x
    rw [data_modify]
    split
    next hx => rw [hparent, hx]
    · rfl
  rw [unsetParent]
  split
  · rw [data_modify]
    split
    next hx => rw [hchildren, hfirst, hx]
    · exact hfirst x
  · rfl

theorem forest_unsetParent (hforest : s.Forest) : (s.unsetParent child).Forest := by
  have hnodes : (s.unsetParent child).nodes = s.nodes := by
    rw [unsetParent]
    split <;> rfl
  rw [Forest, links_unsetParent, hnodes]
  exact hforest.unlink

theorem setParent_eq_some_iff : s.setParent child parent = some s' ↔
    (child ≠ parent ∧ s.isAncestor child s.fuel parent = false) ∧
      ((s.data child).role = none ∨ (s.data child).role = some .subsurface) ∧
      (s.data child).parent = none ∧
      s' = (s.modify child fun d =>
        { d with role := some .subsurface, parent := some parent }).modify parent fun d =>
          { d with children := d.children ++ [child] } := by
  have hrole : ¬((s.data child).role.isSome ∧ (s.data child).role ≠ some .subsurface) ↔
      (s.data child).role = none ∨ (s.data child).role = some .subsurface := by
    cases (s.data child).role <;> simp
  rw [setParent]
  split_ifs with hfree hother hparent
  · simpa using fun hne hanc => absurd hfree (by simp [hne, hanc])
  · simpa using fun _ _ hnone => absurd hother (hrole.mpr hnone)
  · simpa using fun _ _ _ hnone => absurd hparent (by simp [hnone])
  · have hfree : child ≠ parent ∧ s.isAncestor child s.fuel parent = false := by
      simpa using hfree
    constructor
    · intro hsome
      cases hsome
      exact ⟨hfree, hrole.mp hother, Option.not_isSome_iff_eq_none.mp hparent, rfl⟩
    · rintro ⟨-, -, -, rfl⟩
      rfl

private theorem links_setParent (hparent : s.setParent child parent = some s') :
    s'.links = s.links.link child parent := by
  obtain ⟨-, -, -, rfl⟩ := setParent_eq_some_iff.mp hparent
  have hfirst : (s.modify child fun d =>
      { d with role := some .subsurface, parent := some parent }).links =
        { s.links with parent := Function.update s.links.parent child (some parent) } :=
    links_modify_parent rfl
  have hchildren := congrFun (congrArg Links.children hfirst) parent
  rw [links_modify_children rfl, hfirst]
  simp only [Links.link]
  congr 2
  exact congrArg (· ++ [child]) hchildren

private theorem not_above_of_setParent (hforest : s.Forest)
    (hparent : s.setParent child parent = some s') :
    ¬s.links.Above child parent := by
  obtain ⟨⟨hne, hfree⟩, -⟩ := setParent_eq_some_iff.mp hparent
  rw [Links.above_iff, ← isAncestor_iff hforest, hfree]
  simpa using hne.symm

theorem forest_setParent (hforest : s.Forest) (hchild : s.alive child = true)
    (halive : s.alive parent = true) (hparent : s.setParent child parent = some s') :
    s'.Forest := by
  have hfree := not_above_of_setParent hforest hparent
  have hlinks := links_setParent hparent
  obtain ⟨-, -, horphan, rfl⟩ := setParent_eq_some_iff.mp hparent
  rw [Forest, hlinks]
  exact hforest.link (mem_nodes.mpr hchild) (mem_nodes.mpr halive) horphan hfree

theorem mem_getChildren {nodes : Finset Surface} (hwf : s.links.WellFormed nodes) :
    x ∈ s.getChildren surface ↔ (s.data x).parent = some surface := by
  rw [getChildren, List.mem_filter, decide_eq_true_eq]
  constructor
  · rintro ⟨hmem, hne⟩
    exact (hwf.mem_children surface x hne).mp hmem
  · intro hparent
    have hne : x ≠ surface := by
      rintro rfl
      exact hwf.acyclic x (.single hparent)
    exact ⟨(hwf.mem_children surface x hne).mpr hparent, hne⟩

private theorem links_cleanup {nodes : Finset Surface} (hwf : s.links.WellFormed nodes) :
    (s.cleanup surface).links = s.links.uproot surface := by
  have hunset : (s.unsetParent surface).links = s.links.unlink surface := links_unsetParent
  have hparent : ∀ x, ((s.unsetParent surface).data x).parent =
      if x = surface then none else (s.data x).parent := by
    intro x
    rw [← Function.update_apply (fun x => (s.data x).parent)]
    exact congrFun (congrArg Links.parent hunset) x
  have horphans : ∀ x, x ∈ (s.unsetParent surface).getChildren surface ↔
      x ≠ surface ∧ (s.data x).parent = some surface := by
    intro x
    rw [mem_getChildren (hunset ▸ hwf.unlink), hparent]
    by_cases hx : x = surface <;> simp [hx]
  have hchildren : ∀ x, ((s.unsetParent surface).data x).children =
      (s.links.unlink surface).children x := fun x => congrFun (congrArg Links.children hunset) x
  apply links_eq
  · intro x
    by_cases hx : x = surface
    · subst hx
      simp [cleanup, orphan, Links.uproot, horphans, hparent]
    · by_cases horphan : (s.data x).parent = some surface
      · simp [cleanup, orphan, Links.uproot, modify_data_of_ne hx, horphans, hx, horphan, links]
      · simp [cleanup, orphan, Links.uproot, modify_data_of_ne hx, horphans, hx, horphan, links,
          hparent]
  · intro x
    by_cases hx : x = surface
    · subst hx
      simp [cleanup, Links.uproot]
    · have hkeep : ((s.cleanup surface).data x).children =
          ((s.unsetParent surface).data x).children := by
        simp only [cleanup, send_data, modify_data_of_ne hx, orphan]
        split <;> rfl
      rw [hkeep, hchildren]
      simp [Links.uproot, hx]

theorem read_cleanup {β : Type} {g : PrivateSurfaceData → β}
    (hparent : ∀ d p, g { d with parent := p } = g d)
    (hchildren : ∀ d cs, g { d with children := cs } = g d)
    (hbuffers : ∀ d : PrivateSurfaceData, g { d with
      children := []
      attributes := { d.attributes with
        current := { d.attributes.current with buffer := none }
        pending := { d.attributes.pending with buffer := none } }
      rendered := none } = g d) :
    g ((s.cleanup surface).data x) = g (s.data x) := by
  have horphan : ∀ x cs, g (((s.unsetParent surface).orphan cs).data x) = g (s.data x) := by
    intro x cs
    simp only [orphan]
    split
    · rw [hparent, read_unsetParent hparent hchildren]
    · exact read_unsetParent hparent hchildren
  simp only [cleanup, send_data, data_modify]
  split
  next hx => rw [hbuffers, horphan, hx]
  · exact horphan x _

theorem unsetParent_surfaces : (s.unsetParent child).surfaces = s.surfaces := by
  rw [unsetParent]
  split <;> rfl

theorem links_destroySurface (hforest : s.Forest) :
    (s.destroySurface surface).links = s.links.uproot surface := by
  rw [destroySurface]
  exact links_cleanup hforest

theorem forest_destroySurface (hforest : s.Forest) : (s.destroySurface surface).Forest := by
  have hnodes : (s.destroySurface surface).nodes = s.nodes.erase surface := by
    ext x
    simp [nodes, destroySurface, cleanup, orphan, unsetParent_surfaces, and_comm]
  rw [Forest, hnodes, links_destroySurface hforest]
  exact hforest.uproot

/-! Siblings in another order. -/

section Reorder

variable {children pre post : List Surface} {relativeTo : Surface} {location : Location}

private theorem idxOf_of_split (hnot : x ∉ pre) :
    (pre ++ x :: post).idxOf? x = some pre.length := by
  induction pre with
  | nil => simp [List.idxOf?_cons]
  | cons y pre ih =>
    obtain ⟨hne, hnot⟩ := List.ne_and_not_mem_of_not_mem_cons hnot
    simp [List.idxOf?_cons, Ne.symm hne, ih hnot]

private theorem insertIdx_of_split : (pre ++ post).insertIdx pre.length x = pre ++ x :: post := by
  induction pre with
  | nil => simp
  | cons y pre ih => simp [ih]

private theorem eraseIdx_of_split : (pre ++ x :: post).eraseIdx pre.length = pre ++ post := by
  rw [List.eraseIdx_append_of_length_le le_rfl]
  simp

def beside (location : Location) (surface relativeTo : Surface) : List Surface :=
  match location with
  | .before => [surface, relativeTo]
  | .after => [relativeTo, surface]

private theorem reorderChildren_of_ne (hnot : surface ∉ pre) (hne : relativeTo ≠ surface)
    {l r : List Surface} (hrest : pre ++ post = l ++ relativeTo :: r) (hl : relativeTo ∉ l) :
    reorderChildren (pre ++ surface :: post) surface location relativeTo =
      some (some (l ++ beside location surface relativeTo ++ r)) := by
  have hinsert : ∀ j, j = l.length → (if (match location with
      | .before => j
      | .after => j + 1) ≤ (pre ++ post).length then
        some (some ((pre ++ post).insertIdx (match location with
          | .before => j
          | .after => j + 1) surface)) else none) =
      some (some (l ++ beside location surface relativeTo ++ r)) := by
    rintro j rfl
    cases location with
    | before =>
      rw [hrest, insertIdx_of_split]
      simp [beside]
    | after =>
      have hlength : l.length + 1 = (l ++ [relativeTo]).length := by simp
      have hcons : l ++ relativeTo :: r = (l ++ [relativeTo]) ++ r := by simp
      rw [hrest, hcons]
      simp only [hlength, insertIdx_of_split]
      simp [beside]
  have hindex : ∃ i, (pre ++ surface :: post).idxOf? relativeTo = some i ∧
      (if pre.length < i then i - 1 else i) = l.length := by
    have hright : ∀ a, l = pre ++ a → post = a ++ relativeTo :: r →
        ∃ i, (pre ++ surface :: post).idxOf? relativeTo = some i ∧
          (if pre.length < i then i - 1 else i) = l.length := by
      rintro a rfl rfl
      have hsplit : pre ++ surface :: (a ++ relativeTo :: r) =
          (pre ++ surface :: a) ++ relativeTo :: r := by simp
      refine ⟨(pre ++ surface :: a).length, ?_, ?_⟩
      · rw [hsplit]
        apply idxOf_of_split
        simp only [List.mem_append, List.mem_cons, not_or] at hl ⊢
        exact ⟨hl.1, hne, hl.2⟩
      · rw [if_pos (by simp)]
        simp
    rcases List.append_eq_append_iff.mp hrest with ⟨a, hla, hpost⟩ | ⟨c, hpre, hc⟩
    · exact hright a hla hpost
    · cases c with
      | nil => exact hright [] (by simpa using hpre.symm) (by simpa using hc.symm)
      | cons y c =>
        obtain ⟨rfl, hr⟩ := List.cons.inj hc
        subst hpre
        refine ⟨l.length, ?_, if_neg (by simp)⟩
        have hsplit : l ++ relativeTo :: c ++ surface :: post =
            l ++ relativeTo :: (c ++ surface :: post) := by simp
        rw [hsplit]
        exact idxOf_of_split hl
  obtain ⟨i, hi, hother⟩ := hindex
  simp only [reorderChildren, idxOf_of_split hnot, eraseIdx_of_split, hi, Option.bind_eq_bind,
    Option.bind_some]
  exact hinsert _ hother

/-- Next to itself a surface stays, or changes places with the one above it; the topmost one
cannot go up. -/
private theorem reorderChildren_self (hnot : surface ∉ pre) :
    reorderChildren (pre ++ surface :: post) surface location surface =
      match location, post with
      | .before, _ => some (some (pre ++ surface :: post))
      | .after, [] => none
      | .after, y :: post => some (some (pre ++ y :: surface :: post)) := by
  simp only [reorderChildren, idxOf_of_split hnot, eraseIdx_of_split, Option.bind_eq_bind,
    Option.bind_some, lt_irrefl, if_false]
  cases location with
  | before => simp [insertIdx_of_split]
  | after =>
    cases post with
    | nil => simp
    | cons y post =>
      have hlength : pre.length + 1 = (pre ++ [y]).length := by simp
      have hcons : pre ++ y :: post = (pre ++ [y]) ++ post := by simp
      simp only [hcons, hlength, insertIdx_of_split]
      simp

theorem reorderChildren_of_not_mem (hmem : surface ∈ children) (hrelative : relativeTo ∉ children) :
    reorderChildren children surface location relativeTo = some none := by
  obtain ⟨pre, post, rfl, hnot⟩ := List.eq_append_cons_of_mem hmem
  simp only [reorderChildren, idxOf_of_split hnot, List.idxOf?_eq_none_iff.mpr hrelative,
    Option.bind_eq_bind, Option.bind_some]

theorem reorderChildren_of_mem (location : Location) (hmem : surface ∈ children)
    (hrelative : relativeTo ∈ children) (hne : relativeTo ≠ surface) :
    ∃ l r, children.erase surface = l ++ relativeTo :: r ∧ relativeTo ∉ l ∧
      reorderChildren children surface location relativeTo =
        some (some (l ++ beside location surface relativeTo ++ r)) := by
  obtain ⟨pre, post, rfl, hnot⟩ := List.eq_append_cons_of_mem hmem
  have herase : (pre ++ surface :: post).erase surface = pre ++ post := by
    rw [List.erase_append_right _ hnot, List.erase_cons_head]
  have hrest : relativeTo ∈ pre ++ post := by
    simpa [hne] using hrelative
  obtain ⟨l, r, hsplit, hl⟩ := List.eq_append_cons_of_mem hrest
  exact ⟨l, r, herase.trans hsplit, hl, reorderChildren_of_ne hnot hne hsplit hl⟩

private theorem reorderChildren_perm (hmem : surface ∈ children) {cs : List Surface}
    (hsome : reorderChildren children surface location relativeTo = some (some cs)) :
    cs.Perm children := by
  by_cases hself : relativeTo = surface
  · subst hself
    obtain ⟨pre, post, rfl, hnot⟩ := List.eq_append_cons_of_mem hmem
    rw [reorderChildren_self hnot] at hsome
    cases location with
    | before =>
      cases hsome
      exact .refl _
    | after =>
      cases post with
      | nil => cases hsome
      | cons y post =>
        cases hsome
        exact (List.Perm.swap _ _ _).append_left pre
  · by_cases hrelative : relativeTo ∈ children
    · obtain ⟨l, r, herase, -, hreorder⟩ :=
        reorderChildren_of_mem location hmem hrelative hself
      obtain rfl : cs = l ++ beside location surface relativeTo ++ r := by
        simpa [hreorder, eq_comm] using hsome
      have hbeside : (l ++ beside location surface relativeTo ++ r).Perm
          (surface :: (l ++ relativeTo :: r)) := by
        cases location with
        | before => simp [beside]
        | after =>
          have hmiddle : (l ++ [relativeTo] ++ surface :: r).Perm
              (surface :: (l ++ [relativeTo] ++ r)) := List.perm_middle
          simpa [beside] using hmiddle
      exact hbeside.trans (herase ▸ (List.perm_cons_erase hmem).symm)
    · rw [reorderChildren_of_not_mem hmem hrelative] at hsome
      cases hsome

end Reorder

theorem forest_reorder {relativeTo : Surface} {location : Location} (hforest : s.Forest)
    (hreorder : s.reorder surface location relativeTo = some (some s')) : s'.Forest := by
  simp only [reorder, Option.bind_eq_bind, Option.bind_eq_some_iff] at hreorder
  obtain ⟨parent, hparent, cs, hcs, hsome⟩ := hreorder
  obtain ⟨cs, rfl, rfl⟩ := Option.map_eq_some_iff.mp (Option.some.inj hsome)
  have hperm := reorderChildren_perm (hforest.child_mem hparent) hcs
  rw [Forest, links_modify_children rfl]
  exact hforest.permute hperm

/-! Walks through a tree. -/

section MapTree

variable {σ τ : Type} {filter : Surface → τ → σ → TraversalAction τ}
  {processor : Surface → τ → σ → σ} {postFilter : Surface → τ → σ → Bool} {reverse : Bool}

/-- The surfaces of a tree, from the bottom to the top of the stack, or the other way round. -/
def tree (s : Surfaces) (reverse : Bool) (surface : Surface) : List Surface :=
  (if reverse then s.links.flip else s.links).walk s.fuel surface

private theorem foldl_loop {body : Bool × σ → Surface → Bool × σ} {p : Surface → List Surface}
    {q : σ → Surface → σ} (hbody : ∀ c st, body (true, st) c = (true, (p c).foldl q st))
    (cs : List Surface) (st : σ) :
    cs.foldl body (true, st) = (true, (cs.flatMap p).foldl q st) := by
  induction cs generalizing st with
  | nil => rfl
  | cons c cs ih => rw [List.foldl_cons, hbody, ih, List.flatMap_cons, List.foldl_append]

/-- Callbacks that never stop the traversal see the surfaces of the walk, one by one. -/
theorem mapTree_eq_foldl {t : τ} {fuel : Nat} {st : σ}
    (hfilter : ∀ x st, filter x t st = .doChildren t) (hpost : ∀ x st, postFilter x t st = true) :
    s.mapTree filter processor postFilter reverse fuel surface t st =
      (true, ((if reverse then s.links.flip else s.links).walk fuel surface).foldl
        (fun st x => processor x t st) st) := by
  induction fuel generalizing surface st with
  | zero => rfl
  | succ fuel ih =>
    have hchildren : (if reverse then (s.data surface).children.reverse
        else (s.data surface).children) =
          (if reverse then s.links.flip else s.links).children surface := by
      cases reverse <;> rfl
    rw [mapTree, hfilter]
    simp only [hchildren]
    rw [foldl_loop (p := fun c => if c = surface then [surface]
      else (if reverse then s.links.flip else s.links).walk fuel c)
      (q := fun st x => processor x t st)]
    · simp only [hpost, if_true, Links.walk]
    · intro c st
      by_cases hc : c = surface
      · simp [hc]
      · simp [hc, ih]

end MapTree

section Tree

variable {reverse : Bool}

theorem tree_reverse : s.tree true surface = (s.tree false surface).reverse := Links.walk_flip

theorem mem_tree (hforest : s.Forest) (halive : s.alive surface = true) :
    x ∈ s.tree reverse surface ↔ s.links.Above surface x := by
  have hwalk := hforest.mem_walk (x := x) (mem_nodes.mpr halive) nodes_card_lt_fuel
  cases reverse with
  | false => exact hwalk
  | true =>
    rw [tree_reverse, List.mem_reverse]
    exact hwalk

theorem nodup_tree (hforest : s.Forest) : (s.tree reverse surface).Nodup := by
  have hwalk : (s.tree false surface).Nodup := by
    by_cases halive : surface ∈ s.nodes
    · apply hforest.nodup_walk halive
      have hle : (s.links.descendants s.nodes surface).card ≤ s.nodes.card :=
        Links.card_descendants_le
      have hfuel := nodes_card_lt_fuel (s := s)
      omega
    · have hnil : s.tree false surface = [] := hforest.walk_eq_nil halive
      rw [hnil]
      exact List.nodup_nil
  cases reverse with
  | false => exact hwalk
  | true =>
    rw [tree_reverse]
    exact List.nodup_reverse.mpr hwalk

end Tree

end LocalDesktop.Smithay.Surfaces
