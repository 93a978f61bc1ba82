/- GID: LocalDesktop/Smithay/Transaction
   generality: G
   digest: Commits that are applied together, and the queue in which they wait for their blockers. -/

import LocalDesktop.Smithay.CachedState
import LocalDesktop.Smithay.Seat

set_option autoImplicit false
set_option relaxedAutoImplicit false

namespace LocalDesktop.Smithay

inductive BlockerState
  | pending | released | cancelled
  deriving DecidableEq

abbrev Blocker := Nat

/-- Pending or final: the handles of a pending transaction that was merged into another one are
dropped at once, so none of them is ever followed. -/
structure Transaction where
  surfaces : List (Surface × Nat)
  blockers : List Blocker
  deriving DecidableEq

namespace Transaction

def new : Transaction := ⟨[], []⟩

/-- `TransactionState::insert`, in the list of the surfaces. -/
def insertPlace (surface : Surface) (id : Nat) : List (Surface × Nat) → List (Surface × Nat)
  | [] => [(surface, id)]
  | place :: rest =>
    if place.1 = surface then
      (if Serial.lt place.2 id then (place.1, id) else place) :: rest
    else
      place :: insertPlace surface id rest

def insert (t : Transaction) (surface : Surface) (id : Nat) : Transaction :=
  { t with surfaces := insertPlace surface id t.surfaces }

def addBlocker (t : Transaction) (blocker : Blocker) : Transaction :=
  { t with blockers := t.blockers ++ [blocker] }

def insertAlive (alive : Surface → Bool) (into : Transaction) (place : Surface × Nat) :
    Transaction :=
  if alive place.1 then into.insert place.1 place.2 else into

def mergeInto (alive : Surface → Bool) (t into : Transaction) : Transaction :=
  let into := t.surfaces.foldl (insertAlive alive) into
  { into with blockers := into.blockers ++ t.blockers }

/-- The worst state of the blockers; a transaction without a surface is of no use any more. -/
def state (alive : Surface → Bool) (blockerState : Blocker → BlockerState) (t : Transaction) :
    BlockerState :=
  if t.surfaces.any fun place => alive place.1 then
    t.blockers.foldl
      (fun acc blocker =>
        match acc, blockerState blocker with
        | .cancelled, _ | _, .cancelled => .cancelled
        | .pending, _ | _, .pending => .pending
        | .released, .released => .released)
      .released
  else
    .cancelled

/-- The surface is still there, and the transaction has a state of it. -/
def touches (alive : Surface → Bool) (surface : Surface) (t : Transaction) : Bool :=
  alive surface && t.surfaces.any fun place => decide (place.1 = surface)

/-- One turn after the other; `seen` are the surfaces of the transactions that have to wait. The
ready transactions and those that stay in the queue. -/
def takeReady (alive : Surface → Bool) (blockerState : Blocker → BlockerState) :
    List Transaction → List Surface → List Transaction × List Transaction
  | [], _ => ([], [])
  | t :: rest, seen =>
    let dependent := t.surfaces.any fun place => alive place.1 && seen.contains place.1
    let skip := (t.state alive blockerState == .pending) || dependent
    if t.state alive blockerState = .cancelled then
      takeReady alive blockerState rest seen
    else if skip then
      let shown := (t.surfaces.filter fun place => alive place.1).map Prod.fst
      let (ready, left) := takeReady alive blockerState rest (seen ++ shown)
      (ready, t :: left)
    else
      let (ready, left) := takeReady alive blockerState rest seen
      (t :: ready, left)

/-! What is in a transaction. -/

section Insert

variable {t into : Transaction} {surface x : Surface} {id i : Nat} {alive : Surface → Bool}

/-- The state of a surface with this id, or a newer one. -/
def Covers (t : Transaction) (x : Surface) (i : Nat) : Prop := ∃ j, (x, j) ∈ t.surfaces ∧ i ≤ j

private theorem mem_insertPlace {places : List (Surface × Nat)}
    (hmem : (x, i) ∈ insertPlace surface id
    places) : (x, i) ∈ places ∨ x = surface ∧ i = id := by
  induction places with
  | nil =>
    right
    simpa [insertPlace] using hmem
  | cons place rest ih =>
    rw [insertPlace] at hmem
    split at hmem
    next heq =>
      rcases List.mem_cons.mp hmem with hhead | htail
      · split at hhead
        · obtain ⟨rfl, rfl⟩ := Prod.mk.inj hhead
          exact .inr ⟨heq, rfl⟩
        · exact .inl (hhead ▸ List.mem_cons_self)
      · exact .inl (List.mem_cons_of_mem _ htail)
    next =>
      rcases List.mem_cons.mp hmem with hhead | htail
      · exact .inl (hhead ▸ List.mem_cons_self)
      · rcases ih htail with hin | hnew
        · exact .inl (List.mem_cons_of_mem _ hin)
        · exact .inr hnew

private theorem mem_insert (hmem : (x, i) ∈ (t.insert surface id).surfaces) :
    (x, i) ∈ t.surfaces ∨ x = surface ∧ i = id := mem_insertPlace hmem

private theorem exists_mem_insertPlace (surface : Surface) {places : List (Surface × Nat)}
    (hid : id < 2 ^ 31 - 1) (hall : ∀ place ∈ places, place.2 < 2 ^ 31 - 1)
    (hmem : (x, i) ∈ places ∨ x = surface ∧ i = id) :
    ∃ j, (x, j) ∈ insertPlace surface id places ∧ i ≤ j := by
  induction places with
  | nil =>
    rcases hmem with hin | ⟨rfl, rfl⟩
    · cases hin
    · exact ⟨i, List.mem_singleton.mpr rfl, le_rfl⟩
  | cons place rest ih =>
    have hplace : place.2 < 2 ^ 31 - 1 := hall place List.mem_cons_self
    have hlt := Serial.lt_iff hplace hid
    rw [insertPlace]
    split
    next heq =>
      by_cases hless : place.2 < id
      · rw [if_pos (hlt.mpr hless)]
        rcases hmem with hin | ⟨rfl, rfl⟩
        · rcases List.mem_cons.mp hin with hhead | htail
          · refine ⟨id, hhead ▸ List.mem_cons_self, ?_⟩
            have : place.2 = i := congrArg Prod.snd hhead.symm
            omega
          · exact ⟨i, List.mem_cons_of_mem _ htail, le_rfl⟩
        · exact ⟨i, heq ▸ List.mem_cons_self, le_rfl⟩
      · rw [if_neg (mt hlt.mp hless)]
        rcases hmem with hin | ⟨rfl, rfl⟩
        · exact ⟨i, hin, le_rfl⟩
        · exact ⟨place.2, heq ▸ List.mem_cons_self, by omega⟩
    next hne =>
      rcases hmem with hin | hnew
      · rcases List.mem_cons.mp hin with hhead | htail
        · exact ⟨i, hhead ▸ List.mem_cons_self, le_rfl⟩
        · obtain ⟨j, hj, hle⟩ := ih (fun p hp => hall p (List.mem_cons_of_mem _ hp)) (.inl htail)
          exact ⟨j, List.mem_cons_of_mem _ hj, hle⟩
      · obtain ⟨j, hj, hle⟩ := ih (fun p hp => hall p (List.mem_cons_of_mem _ hp)) (.inr hnew)
        exact ⟨j, List.mem_cons_of_mem _ hj, hle⟩

private theorem nodup_insertPlace {places : List (Surface × Nat)}
    (hnodup : (places.map Prod.fst).Nodup) :
    ((insertPlace surface id places).map Prod.fst).Nodup := by
  induction places with
  | nil => exact List.nodup_singleton _
  | cons place rest ih =>
    rw [List.map_cons] at hnodup
    obtain ⟨hplace, hrest⟩ := List.nodup_cons.mp hnodup
    rw [insertPlace]
    split
    · have hsame : (if Serial.lt place.2 id then (place.1, id) else place).1 = place.1 := by
        split <;> rfl
      rw [List.map_cons, hsame]
      exact hnodup
    next hne =>
      rw [List.map_cons]
      refine List.nodup_cons.mpr ⟨fun hmem => ?_, ih hrest⟩
      obtain ⟨other, hother, heq⟩ := List.mem_map.mp hmem
      rcases mem_insertPlace (x := other.1) (i := other.2) hother with hold | ⟨hx, -⟩
      · exact hplace (heq ▸ List.mem_map_of_mem hold)
      · exact hne (heq ▸ hx)

/-- Nothing to wait for, and of every surface at most one id, below its bound. -/
structure Fits (bound : Surface → Nat) (t : Transaction) : Prop where
  blockers : t.blockers = []
  places : ∀ place ∈ t.surfaces, place.2 < bound place.1
  nodup : (t.surfaces.map Prod.fst).Nodup

variable {bound bound' : Surface → Nat}

theorem Fits.new : Fits bound .new :=
  ⟨rfl, by simp [Transaction.new], by simp [Transaction.new]⟩

theorem Fits.mono (hfits : t.Fits bound) (hle : ∀ x, bound x ≤ bound' x) : t.Fits bound' :=
  ⟨hfits.blockers, fun place hplace => (hfits.places place hplace).trans_le (hle place.1),
    hfits.nodup⟩

theorem Fits.insert (hfits : t.Fits bound) (hid : id < bound surface) :
    (t.insert surface id).Fits bound := by
  refine ⟨hfits.blockers, fun place hplace => ?_, nodup_insertPlace hfits.nodup⟩
  rcases mem_insert hplace with hold | ⟨hx, hi⟩
  · exact hfits.places place hold
  · rwa [hx, hi]

private theorem Fits.insertAlive {place : Surface × Nat} (hinto : into.Fits bound)
    (hplace : place.2 < bound place.1) : (into.insertAlive alive place).Fits bound := by
  rw [Transaction.insertAlive]
  split
  · exact hinto.insert hplace
  · exact hinto

private theorem Fits.foldl_insertAlive {places : List (Surface × Nat)} (hinto : into.Fits bound)
    (hplaces : ∀ place ∈ places, place.2 < bound place.1) :
    (places.foldl (Transaction.insertAlive alive) into).Fits bound := by
  induction places generalizing into with
  | nil => exact hinto
  | cons place places ih =>
    exact ih (hinto.insertAlive (hplaces place List.mem_cons_self)) fun p hp =>
      hplaces p (List.mem_cons_of_mem _ hp)

theorem Fits.mergeInto (hfits : t.Fits bound) (hinto : into.Fits bound) :
    (t.mergeInto alive into).Fits bound := by
  have hfold : (t.surfaces.foldl (Transaction.insertAlive alive) into).Fits bound :=
    hinto.foldl_insertAlive hfits.places
  refine ⟨?_, hfold.places, hfold.nodup⟩
  simp only [Transaction.mergeInto, hfold.blockers, hfits.blockers, List.append_nil]

section Covers

variable (hbound : ∀ x, bound x ≤ 2 ^ 31 - 1)
include hbound

theorem covers_insert (hfits : t.Fits bound) (hid : id < bound surface)
    (hcovers : t.Covers x i ∨ x = surface ∧ i ≤ id) : (t.insert surface id).Covers x i := by
  have hlt : id < 2 ^ 31 - 1 := hid.trans_le (hbound surface)
  have hall : ∀ place ∈ t.surfaces, place.2 < 2 ^ 31 - 1 := fun place hplace =>
    (hfits.places place hplace).trans_le (hbound place.1)
  rcases hcovers with ⟨j, hj, hle⟩ | ⟨rfl, hle⟩
  · obtain ⟨k, hk, hjk⟩ := exists_mem_insertPlace surface hlt hall (.inl hj)
    exact ⟨k, hk, hle.trans hjk⟩
  · obtain ⟨k, hk, hik⟩ := exists_mem_insertPlace x hlt hall (.inr ⟨rfl, rfl⟩)
    exact ⟨k, hk, hle.trans hik⟩

private theorem covers_foldl_insertAlive {places : List (Surface × Nat)} (hinto : into.Fits bound)
    (hplaces : ∀ place ∈ places, place.2 < bound place.1)
    (hcovers : into.Covers x i ∨ alive x = true ∧ ∃ j, (x, j) ∈ places ∧ i ≤ j) :
    (places.foldl (insertAlive alive) into).Covers x i := by
  induction places generalizing into with
  | nil =>
    rcases hcovers with hcovers | ⟨-, j, hj, -⟩
    · exact hcovers
    · cases hj
  | cons place places ih =>
    have hhead := hplaces place List.mem_cons_self
    refine ih (hinto.insertAlive hhead) (fun p hp => hplaces p (List.mem_cons_of_mem _ hp)) ?_
    rcases hcovers with hcovers | ⟨halive, j, hj, hle⟩
    · left
      rw [insertAlive]
      split
      · exact covers_insert hbound hinto hhead (.inl hcovers)
      · exact hcovers
    · rcases List.mem_cons.mp hj with rfl | hrest
      · left
        rw [insertAlive, if_pos halive]
        exact covers_insert hbound hinto hhead (.inr ⟨rfl, hle⟩)
      · exact .inr ⟨halive, j, hrest, hle⟩

theorem covers_mergeInto (hfits : t.Fits bound) (hinto : into.Fits bound)
    (hcovers : into.Covers x i ∨ alive x = true ∧ t.Covers x i) :
    (t.mergeInto alive into).Covers x i :=
  covers_foldl_insertAlive hbound hinto hfits.places hcovers

end Covers

end Insert

/-! The queue. -/

section Queue

variable {alive : Surface → Bool} {blockerState : Blocker → BlockerState} {surface : Surface}
  {queue : List Transaction} {seen : List Surface} {t : Transaction}

/-- Not given up: it is applied now or later. -/
def kept (alive : Surface → Bool) (blockerState : Blocker → BlockerState) (t : Transaction) :
    Bool := t.state alive blockerState != .cancelled

private theorem mem_shown (htouch : t.touches alive surface = true) :
    surface ∈ (t.surfaces.filter fun place => alive place.1).map Prod.fst := by
  simp only [touches, Bool.and_eq_true, List.any_eq_true, decide_eq_true_eq] at htouch
  obtain ⟨halive, place, hplace, rfl⟩ := htouch
  exact List.mem_map.mpr ⟨place, List.mem_filter.mpr ⟨hplace, halive⟩, rfl⟩

private theorem dependent_of_touches (htouch : t.touches alive surface = true)
    (hseen : surface ∈ seen) :
    (t.surfaces.any fun place => alive place.1 && seen.contains place.1) = true := by
  simp only [touches, Bool.and_eq_true, List.any_eq_true, decide_eq_true_eq] at htouch
  obtain ⟨halive, place, hplace, rfl⟩ := htouch
  rw [List.any_eq_true]
  exact ⟨place, hplace, by simp [halive, hseen]⟩

/-- Nothing passes a transaction that has to wait with the same surface. -/
private theorem filter_ready_eq_nil (hseen : surface ∈ seen) :
    (takeReady alive blockerState queue seen).1.filter (touches alive surface) = [] := by
  induction queue generalizing seen with
  | nil => rfl
  | cons t rest ih =>
    simp only [takeReady]
    split
    · exact ih hseen
    · split
      · exact ih (List.mem_append_left _ hseen)
      next hskip =>
        have htouch : t.touches alive surface ≠ true := by
          intro htouch
          exact hskip (Bool.or_eq_true_iff.mpr (.inr (dependent_of_touches htouch hseen)))
        rw [List.filter_cons_of_neg htouch]
        exact ih hseen

/-- For every surface, the transactions that are ready come before those that stay. -/
private theorem filter_kept_eq : (queue.filter fun t => kept alive blockerState t &&
      t.touches alive surface) =
    (takeReady alive blockerState queue seen).1.filter (touches alive surface) ++
      (takeReady alive blockerState queue seen).2.filter (touches alive surface) := by
  induction queue generalizing seen with
  | nil => rfl
  | cons t rest ih =>
    simp only [takeReady]
    split
    next hcancelled =>
      have hnot : ¬(kept alive blockerState t && t.touches alive surface) = true := by
        simp [kept, hcancelled]
      rw [List.filter_cons, if_neg hnot]
      exact ih
    next hkept =>
      have hkeep : (kept alive blockerState t && t.touches alive surface) =
          t.touches alive surface := by
        simp [kept, hkept]
      split
      · by_cases htouch : t.touches alive surface = true
        · have hwait : surface ∈ seen ++
              (t.surfaces.filter fun place => alive place.1).map Prod.fst :=
            List.mem_append_right _ (mem_shown htouch)
          rw [List.filter_cons, if_pos (hkeep.trans htouch), ih, filter_ready_eq_nil hwait,
            List.filter_cons_of_pos htouch]
          rfl
        · rw [List.filter_cons, if_neg (mt hkeep.symm.trans htouch), ih,
            List.filter_cons_of_neg htouch]
      · by_cases htouch : t.touches alive surface = true
        · rw [List.filter_cons, if_pos (hkeep.trans htouch), ih, List.filter_cons_of_pos htouch]
          rfl
        · rw [List.filter_cons, if_neg (mt hkeep.symm.trans htouch), ih,
            List.filter_cons_of_neg htouch]

private theorem state_of_ready (hmem : t ∈ (takeReady alive blockerState queue seen).1) :
    t ∈ queue ∧ t.state alive blockerState = .released := by
  induction queue generalizing seen with
  | nil => cases hmem
  | cons u rest ih =>
    simp only [takeReady] at hmem
    split at hmem
    · obtain ⟨hin, hstate⟩ := ih hmem
      exact ⟨List.mem_cons_of_mem _ hin, hstate⟩
    next hkept =>
      split at hmem
      · obtain ⟨hin, hstate⟩ := ih hmem
        exact ⟨List.mem_cons_of_mem _ hin, hstate⟩
      next hskip =>
        rcases List.mem_cons.mp hmem with rfl | hrest
        · refine ⟨List.mem_cons_self, ?_⟩
          simp only [Bool.or_eq_true, beq_iff_eq, not_or] at hskip
          cases hstate : t.state alive blockerState with
          | pending => exact absurd hstate hskip.1
          | cancelled => exact absurd hstate hkept
          | released => rfl
        · obtain ⟨hin, hstate⟩ := ih hrest
          exact ⟨List.mem_cons_of_mem _ hin, hstate⟩

/-- What is taken out of the queue has nothing to wait for, and of every surface it is what came
first: a later transaction never passes one that waits. -/
theorem takeReady_in_order :
    (∀ t ∈ (takeReady alive blockerState queue []).1,
      t ∈ queue ∧ t.state alive blockerState = .released) ∧
    ∀ surface, (queue.filter fun t => kept alive blockerState t && t.touches alive surface) =
      (takeReady alive blockerState queue []).1.filter (touches alive surface) ++
        (takeReady alive blockerState queue []).2.filter (touches alive surface) :=
  ⟨fun _ => state_of_ready, fun _ => filter_kept_eq⟩

theorem takeReady_of_free (hfree : ∀ t ∈ queue, t.blockers = []) :
    takeReady alive blockerState queue [] =
      (queue.filter fun t => t.surfaces.any fun place => alive place.1, []) := by
  induction queue with
  | nil => rfl
  | cons t rest ih =>
    have ht := hfree t List.mem_cons_self
    have hrest := ih fun u hu => hfree u (List.mem_cons_of_mem _ hu)
    by_cases hany : (t.surfaces.any fun place => alive place.1) = true
    · have hstate : t.state alive blockerState = .released := by
        rw [state, if_pos hany, ht, List.foldl_nil]
      simp [takeReady, hstate, hrest, hany]
    · have hstate : t.state alive blockerState = .cancelled := by
        rw [state, if_neg hany]
      simp [takeReady, hstate, hrest, hany]

end Queue

end Transaction

end LocalDesktop.Smithay
