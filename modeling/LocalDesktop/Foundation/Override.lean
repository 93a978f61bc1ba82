/- GID: LocalDesktop/Foundation/Override
   generality: G
   digest: Keyed settings with trial entries: first place kept, last trial value wins. -/

import Mathlib.Data.List.Basic
import Mathlib.Data.List.Induction
import Mathlib.Data.List.Nodup

/-!
A settings file is a sequence of items. Some carry no key and are only carried
along; an entry assigns a value to a key, either plainly or as a trial. A key
keeps the place of its first entry. Its value is that of its last trial entry,
or of its first plain entry when it has no trial.

`place` is the incremental reader with an accumulator that is searched and
updated in place. `resolve` states the outcome without an accumulator.
-/

set_option autoImplicit false
set_option relaxedAutoImplicit false

namespace LocalDesktop.Foundation.Override

variable {L K V : Type}

/-- One item read from the file. -/
inductive Item (L K V : Type)
  | other (line : L)
  | entry (trial : Bool) (key : K) (value : V)
  deriving DecidableEq

/-- One item of the outcome. -/
inductive Slot (L K V : Type)
  | other (line : L)
  | entry (key : K) (value : V)
  deriving DecidableEq

def Item.key? : Item L K V → Option K
  | .other _ => none
  | .entry _ k _ => some k

def Slot.key? : Slot L K V → Option K
  | .other _ => none
  | .entry k _ => some k

def Item.slot : Item L K V → Slot L K V
  | .other l => .other l
  | .entry _ k v => .entry k v

@[simp] theorem key?_slot (x : Item L K V) : x.slot.key? = x.key? := by
  cases x <;> rfl

def keys (acc : List (Slot L K V)) : List K := acc.filterMap Slot.key?

def itemKeys (items : List (Item L K V)) : List K := items.filterMap Item.key?

private theorem mem_keys {acc : List (Slot L K V)} {k : K} :
    k ∈ keys acc ↔ ∃ v, Slot.entry k v ∈ acc := by
  simp only [keys, List.mem_filterMap]
  constructor
  · rintro ⟨s, hs, hk⟩
    cases s with
    | other l => simp [Slot.key?] at hk
    | entry k' v =>
      obtain rfl : k' = k := by simpa [Slot.key?] using hk
      exact ⟨v, hs⟩
  · rintro ⟨v, hv⟩
    exact ⟨_, hv, rfl⟩

@[simp] theorem keys_append (xs ys : List (Slot L K V)) : keys (xs ++ ys) = keys xs ++ keys ys :=
  List.filterMap_append

@[simp] theorem keys_nil : keys ([] : List (Slot L K V)) = [] := rfl

@[simp] theorem itemKeys_nil : itemKeys ([] : List (Item L K V)) = [] := rfl

@[simp] theorem keys_other (l : L) : keys [(.other l : Slot L K V)] = [] := rfl

@[simp] theorem keys_entry (k : K) (v : V) : keys [(.entry k v : Slot L K V)] = [k] := rfl

@[simp] theorem itemKeys_append (xs ys : List (Item L K V)) :
    itemKeys (xs ++ ys) = itemKeys xs ++ itemKeys ys :=
  List.filterMap_append

@[simp] theorem itemKeys_cons_other (l : L) (items : List (Item L K V)) :
    itemKeys (.other l :: items) = itemKeys items := rfl

@[simp] theorem itemKeys_cons_entry (t : Bool) (k : K) (v : V) (items : List (Item L K V)) :
    itemKeys (.entry t k v :: items) = k :: itemKeys items := rfl

@[simp] theorem keys_map_slot (items : List (Item L K V)) :
    keys (items.map Item.slot) = itemKeys items := by
  simp [keys, itemKeys, List.filterMap_map]

variable [DecidableEq K]

def Slot.assign (k : K) (v : V) : Slot L K V → Slot L K V
  | .other l => .other l
  | .entry k' v' => .entry k' (if k' = k then v else v')

@[simp] theorem key?_assign (k : K) (v : V) (s : Slot L K V) :
    (s.assign k v).key? = s.key? := by
  cases s <;> rfl

/-- Read one item into the accumulator. -/
def place (acc : List (Slot L K V)) : Item L K V → List (Slot L K V)
  | .other l => acc ++ [.other l]
  | .entry true k v => if k ∈ keys acc then acc.map (Slot.assign k v) else acc ++ [.entry k v]
  | .entry false k v => if k ∈ keys acc then acc else acc ++ [.entry k v]

def placeAll (items : List (Item L K V)) : List (Slot L K V) := items.foldl place []

/-- The last trial value of a key, if the key is ever tried. -/
def lastTrial (k : K) (items : List (Item L K V)) : Option V :=
  (items.filterMap fun
    | .entry true k' v => if k' = k then some v else none
    | _ => none).getLast?

/-- The value of the first plain entry of a key. -/
def firstPlain (k : K) (items : List (Item L K V)) : Option V :=
  (items.filterMap fun
    | .entry false k' v => if k' = k then some v else none
    | _ => none).head?

/-- The value a key ends up with. -/
def winner (k : K) (items : List (Item L K V)) : Option V :=
  (lastTrial k items).or (firstPlain k items)

/-- The items that keep their place: all keyless ones and the first entry of each key. -/
def places : List K → List (Item L K V) → List (Item L K V)
  | _, [] => []
  | seen, .other l :: items => .other l :: places seen items
  | seen, .entry t k v :: items =>
      if k ∈ seen then places seen items else .entry t k v :: places (k :: seen) items

/-- Give an item the value its key ends up with. -/
def settle (items : List (Item L K V)) : Item L K V → Slot L K V
  | .other l => .other l
  | .entry _ k v => .entry k ((winner k items).getD v)

/-- The outcome, stated without an accumulator. -/
def resolve (items : List (Item L K V)) : List (Slot L K V) :=
  (places [] items).map (settle items)

@[simp] theorem keys_map_assign (k : K) (v : V) (acc : List (Slot L K V)) :
    keys (acc.map (Slot.assign k v)) = keys acc := by
  simp [keys, List.filterMap_map]

theorem map_assign_of_not_mem {acc : List (Slot L K V)} {k : K} (h : k ∉ keys acc) (v : V) :
    acc.map (Slot.assign k v) = acc := by
  conv_rhs => rw [← List.map_id acc]
  apply List.map_congr_left
  intro s hs
  cases s with
  | other l => rfl
  | entry k' v' =>
    have hne : k' ≠ k := fun e => h (mem_keys.mpr ⟨v', e ▸ hs⟩)
    simp [Slot.assign, hne]

theorem keys_place_nodup {acc : List (Slot L K V)} (h : (keys acc).Nodup) (x : Item L K V) :
    (keys (place acc x)).Nodup := by
  cases x with
  | other l => simpa only [place, keys_append, keys_other, List.append_nil] using h
  | entry t k v =>
    by_cases hk : k ∈ keys acc
    · cases t <;> simpa only [place, if_pos hk, keys_map_assign] using h
    · have hnew : (keys acc ++ [k]).Nodup := by
        simpa [List.nodup_append, h] using fun a ha (hak : a = k) => hk (hak ▸ ha)
      cases t <;> simpa only [place, if_neg hk, keys_append, keys_entry] using hnew

private theorem winner_append_other (k : K) (l : L) (xs : List (Item L K V)) :
    winner k (xs ++ [.other l]) = winner k xs := by
  simp [winner, lastTrial, firstPlain]

private theorem winner_append_trial (k k' : K) (v : V) (xs : List (Item L K V)) :
    winner k' (xs ++ [.entry true k v]) = if k = k' then some v else winner k' xs := by
  by_cases hk : k = k' <;> simp [winner, lastTrial, firstPlain, hk]

private theorem winner_append_plain (k k' : K) (v : V) (xs : List (Item L K V)) :
    winner k' (xs ++ [.entry false k v]) =
      (winner k' xs).or (if k = k' then some v else none) := by
  by_cases hk : k = k' <;> simp [winner, lastTrial, firstPlain, hk]

private theorem isSome_winner {k : K} {items : List (Item L K V)} :
    (winner k items).isSome ↔ k ∈ itemKeys items := by
  induction items using List.reverseRecOn with
  | nil => simp [winner, lastTrial, firstPlain, itemKeys]
  | append_singleton xs x ih =>
    cases x with
    | other l => simp [winner_append_other, ih]
    | entry t k' v =>
      cases t with
      | true =>
        by_cases hk : k' = k
        · simp [winner_append_trial, hk]
        · simp [winner_append_trial, hk, ih, Ne.symm hk]
      | false =>
        by_cases hk : k' = k
        · simp [winner_append_plain, hk]
        · simp [winner_append_plain, hk, ih, Ne.symm hk]

private theorem winner_eq_none {k : K} {items : List (Item L K V)} (h : k ∉ itemKeys items) :
    winner k items = none := by
  rwa [← isSome_winner, Bool.not_eq_true, Option.isSome_eq_false_iff, Option.isNone_iff_eq_none]
    at h

private theorem places_append_other (seen : List K) (l : L) (xs : List (Item L K V)) :
    places seen (xs ++ [.other l]) = places seen xs ++ [.other l] := by
  induction xs generalizing seen with
  | nil => rfl
  | cons x xs ih =>
    cases x with
    | other l' => simp [places, ih]
    | entry t k v => by_cases hk : k ∈ seen <;> simp [places, hk, ih]

private theorem places_append_entry (seen : List K) (t : Bool) (k : K) (v : V)
    (xs : List (Item L K V)) :
    places seen (xs ++ [.entry t k v]) =
      if k ∈ seen ∨ k ∈ itemKeys xs then places seen xs
      else places seen xs ++ [.entry t k v] := by
  induction xs generalizing seen with
  | nil => simp [places, itemKeys]
  | cons x xs ih =>
    cases x with
    | other l => by_cases hk : k ∈ seen ∨ k ∈ itemKeys xs <;> simp [places, ih, hk]
    | entry t' k' v' =>
      by_cases hseen : k' ∈ seen
      · have hiff : (k ∈ seen ∨ k ∈ itemKeys xs) ↔
            (k ∈ seen ∨ k ∈ itemKeys (.entry t' k' v' :: xs)) := by
          simp only [itemKeys_cons_entry, List.mem_cons]
          constructor
          · tauto
          · rintro (h | rfl | h)
            · exact Or.inl h
            · exact Or.inl hseen
            · exact Or.inr h
        simp only [List.cons_append, places, if_pos hseen, ih, if_congr hiff rfl rfl]
      · have hiff : (k ∈ k' :: seen ∨ k ∈ itemKeys xs) ↔
            (k ∈ seen ∨ k ∈ itemKeys (.entry t' k' v' :: xs)) := by
          simp only [itemKeys_cons_entry, List.mem_cons]
          tauto
        simp only [List.cons_append, places, if_neg hseen, ih, if_congr hiff rfl rfl]
        split <;> rfl

private theorem itemKeys_places_subset (seen : List K) (items : List (Item L K V)) :
    itemKeys (places seen items) ⊆ itemKeys items := by
  induction items generalizing seen with
  | nil => exact fun _ h => h
  | cons x items ih =>
    cases x with
    | other l => exact ih seen
    | entry t k v =>
      by_cases hk : k ∈ seen
      · simpa only [places, if_pos hk, itemKeys_cons_entry] using
          List.Subset.trans (ih seen) (List.subset_cons_self _ _)
      · simpa only [places, if_neg hk, itemKeys_cons_entry] using List.cons_subset_cons _ (ih _)

private theorem settle_congr {xs ys items : List (Item L K V)} {f : Slot L K V → Slot L K V}
    (hother : ∀ l, f (.other l) = .other l)
    (h : ∀ t k v, k ∈ itemKeys items →
      settle ys (.entry t k v) = f (settle xs (.entry t k v))) :
    items.map (settle ys) = (items.map (settle xs)).map f := by
  rw [List.map_map]
  apply List.map_congr_left
  intro x hx
  cases x with
  | other l => exact (hother l).symm
  | entry t k v => exact h t k v (List.mem_filterMap.mpr ⟨_, hx, rfl⟩)

@[simp] theorem keys_settle (ys items : List (Item L K V)) :
    keys (items.map (settle ys)) = itemKeys items := by
  unfold keys itemKeys
  rw [List.filterMap_map]
  congr 1
  funext x
  cases x <;> rfl

private theorem mem_keys_resolve {k : K} {items : List (Item L K V)} :
    k ∈ keys (resolve items) ↔ k ∈ itemKeys items := by
  rw [resolve, keys_settle]
  constructor
  · exact fun h => itemKeys_places_subset [] items h
  · intro h
    induction items using List.reverseRecOn with
    | nil => exact h
    | append_singleton xs x ih =>
      cases x with
      | other l =>
        simp only [places_append_other, itemKeys_append, itemKeys_cons_other, itemKeys_nil,
          List.append_nil] at h ⊢
        exact ih h
      | entry t k' v =>
        rw [places_append_entry]
        by_cases hk' : k' ∈ itemKeys xs
        · have hk : k ∈ itemKeys xs := by
            simp only [itemKeys_append, List.mem_append, itemKeys_cons_entry,
              List.mem_cons] at h
            rcases h with h | rfl | h
            · exact h
            · exact hk'
            · exact absurd h List.not_mem_nil
          simpa [hk'] using ih hk
        · simp only [List.not_mem_nil, hk', or_self, if_false, itemKeys_append, List.mem_append]
            at h ⊢
          exact h.imp_left ih

/-- Reading one more item changes the outcome as it changes the accumulator. -/
private theorem resolve_append (xs : List (Item L K V)) (x : Item L K V) :
    resolve (xs ++ [x]) = place (resolve xs) x := by
  cases x with
  | other l =>
    rw [resolve, places_append_other, List.map_append, place, resolve]
    congr 1
    simpa using settle_congr (f := id) (fun _ => rfl) fun t k v _ => by
      simp [settle, winner_append_other]
  | entry t k v =>
    have hmem : (k ∈ ([] : List K) ∨ k ∈ itemKeys xs) ↔ k ∈ keys (resolve xs) := by
      simp [mem_keys_resolve]
    rw [resolve, places_append_entry, if_congr hmem rfl rfl]
    by_cases hk : k ∈ keys (resolve xs)
    · cases t with
      | true =>
        rw [if_pos hk, place, if_pos hk, resolve]
        exact settle_congr (fun _ => rfl) fun t' k' v' _ => by
          by_cases hkk : k = k' <;> simp [settle, Slot.assign, winner_append_trial, hkk, eq_comm]
      | false =>
        rw [if_pos hk, place, if_pos hk, resolve]
        simpa using settle_congr (f := id) (fun _ => rfl) fun t' k' v' hk' => by
          have hsome := isSome_winner.mpr (itemKeys_places_subset [] xs hk')
          obtain ⟨w, hw⟩ := Option.isSome_iff_exists.mp hsome
          simp [settle, winner_append_plain, hw]
    · have hnone : winner k xs = none := winner_eq_none fun h => hk (mem_keys_resolve.mpr h)
      have hold : (places [] xs).map (settle (xs ++ [.entry t k v])) =
          (places [] xs).map (settle xs) := by
        simpa using settle_congr (f := id) (fun _ => rfl) fun t' k' v' hk' => by
          have hne : k ≠ k' := fun e =>
            hk (mem_keys_resolve.mpr (e ▸ itemKeys_places_subset [] xs hk'))
          cases t <;> simp [settle, winner_append_plain, winner_append_trial, hne]
      rw [if_neg hk, List.map_append, hold, ← resolve]
      cases t <;> simp [place, hk, settle, winner_append_plain, winner_append_trial, hnone]

/-- The accumulator ends with the stated outcome. -/
theorem placeAll_eq_resolve (items : List (Item L K V)) : placeAll items = resolve items := by
  induction items using List.reverseRecOn with
  | nil => rfl
  | append_singleton xs x ih =>
    rw [resolve_append, ← ih, placeAll, List.foldl_append]
    rfl

/-- What becomes of the `i`th item: an entry whose key has a place already leaves nothing. -/
def slotAt (items : List (Item L K V)) (i : Nat) : Item L K V → Option (Slot L K V)
  | .other l => some (.other l)
  | .entry _ k _ => if k ∈ itemKeys (items.take i) then none else (winner k items).map (.entry k)

private theorem map_settle_places {items pre post : List (Item L K V)} {seen : List K}
    (hitems : items = pre ++ post) (hseen : ∀ k, k ∈ seen ↔ k ∈ itemKeys pre) :
    (places seen post).map (settle items) =
      (post.zipIdx pre.length).filterMap fun p => slotAt items p.2 p.1 := by
  induction post generalizing pre seen with
  | nil => rfl
  | cons x post ih =>
    have hnext : items = (pre ++ [x]) ++ post := by simp [hitems]
    have hlength : (pre ++ [x]).length = pre.length + 1 := List.length_append
    have htake : items.take pre.length = pre := by rw [hitems, List.take_left]
    rw [List.zipIdx_cons]
    cases x with
    | other l =>
      have hseen' : ∀ k, k ∈ seen ↔ k ∈ itemKeys (pre ++ [.other l]) := fun k => by simp [hseen]
      have hrest := ih hnext hseen'
      rw [hlength] at hrest
      simp [places, settle, slotAt, hrest]
    | entry t k v =>
      by_cases hk : k ∈ itemKeys pre
      · have hseen' : ∀ k', k' ∈ seen ↔ k' ∈ itemKeys (pre ++ [.entry t k v]) := fun k' => by
          simp only [hseen, itemKeys_append, itemKeys_cons_entry, itemKeys_nil, List.mem_append,
            List.mem_singleton]
          exact ⟨Or.inl, fun h => h.elim id fun e => e ▸ hk⟩
        have hrest := ih hnext hseen'
        rw [hlength] at hrest
        simp [places, slotAt, htake, (hseen k).mpr hk, hk, hrest]
      · have hseen' : ∀ k', k' ∈ k :: seen ↔ k' ∈ itemKeys (pre ++ [.entry t k v]) := fun k' => by
          simp [hseen, or_comm]
        have hrest := ih hnext hseen'
        have hnew : k ∉ seen := fun h => hk ((hseen k).mp h)
        obtain ⟨w, hw⟩ : ∃ w, winner k items = some w := by
          rw [← Option.isSome_iff_exists, isSome_winner, hitems]
          simp
        rw [hlength] at hrest
        simp [places, slotAt, settle, htake, hnew, hk, hw, hrest]

theorem resolve_eq_filterMap (items : List (Item L K V)) :
    resolve items = items.zipIdx.filterMap fun p => slotAt items p.2 p.1 := by
  have hseen : ∀ k : K, k ∈ ([] : List K) ↔ k ∈ itemKeys ([] : List (Item L K V)) := by simp
  exact map_settle_places (List.nil_append items).symm hseen

theorem exists_of_mem_resolve {items : List (Item L K V)} {s : Slot L K V}
    (h : s ∈ resolve items) : ∃ x ∈ items, x.slot = s := by
  induction items using List.reverseRecOn generalizing s with
  | nil => exact absurd h List.not_mem_nil
  | append_singleton xs x ih =>
    have hold : ∀ s ∈ resolve xs, ∃ y ∈ xs ++ [x], y.slot = s := by
      intro s hs
      obtain ⟨y, hy, hys⟩ := ih hs
      exact ⟨y, List.mem_append_left _ hy, hys⟩
    have hpush : ∀ s ∈ resolve xs ++ [x.slot], ∃ y ∈ xs ++ [x], y.slot = s := by
      intro s hs
      rcases List.mem_append.mp hs with hs | hs
      · exact hold s hs
      · exact ⟨x, by simp, (List.mem_singleton.mp hs).symm⟩
    rw [resolve_append] at h
    cases x with
    | other l => exact hpush s h
    | entry t k v =>
      cases t with
      | true =>
        rw [place] at h
        split at h
        · obtain ⟨s', hs', rfl⟩ := List.mem_map.mp h
          cases s' with
          | other l => exact hold _ hs'
          | entry k' v' =>
            by_cases hk : k' = k
            · exact ⟨.entry true k v, by simp, by simp [Slot.assign, Item.slot, hk]⟩
            · simpa [Slot.assign, hk] using hold _ hs'
        · exact hpush s h
      | false =>
        rw [place] at h
        split at h
        · exact hold s h
        · exact hpush s h

section Selection

variable (onLine : L → Bool) (onKey : K → Bool)

def Item.selected : Item L K V → Bool
  | .other l => onLine l
  | .entry _ k _ => onKey k

def Slot.selected : Slot L K V → Bool
  | .other l => onLine l
  | .entry k _ => onKey k

omit [DecidableEq K] in
private theorem mem_keys_filter {acc : List (Slot L K V)} {k : K} (hk : onKey k = true) :
    k ∈ keys (acc.filter (Slot.selected onLine onKey)) ↔ k ∈ keys acc := by
  simp only [mem_keys, List.mem_filter]
  exact exists_congr fun v => and_iff_left hk

private theorem selected_comp_assign (k : K) (v : V) :
    Slot.selected onLine onKey ∘ Slot.assign k v = Slot.selected onLine onKey := by
  funext s
  cases s <;> rfl

private theorem filter_place (acc : List (Slot L K V)) (x : Item L K V) :
    (place acc x).filter (Slot.selected onLine onKey) =
      if x.selected onLine onKey then place (acc.filter (Slot.selected onLine onKey)) x
      else acc.filter (Slot.selected onLine onKey) := by
  cases x with
  | other l => by_cases hl : onLine l = true <;> simp [place, Item.selected, Slot.selected, hl]
  | entry t k v =>
    by_cases hk : onKey k = true
    · have hmem : k ∈ keys (acc.filter (Slot.selected onLine onKey)) ↔ k ∈ keys acc :=
        mem_keys_filter onLine onKey hk
      by_cases hacc : k ∈ keys acc
      · cases t <;>
          simp [place, Item.selected, hk, hmem, hacc, List.filter_map, selected_comp_assign]
      · cases t <;> simp [place, Item.selected, Slot.selected, hk, hmem, hacc]
    · have hassign : (acc.map (Slot.assign k v)).filter (Slot.selected onLine onKey) =
          acc.filter (Slot.selected onLine onKey) := by
        rw [List.filter_map, selected_comp_assign]
        conv_rhs => rw [← List.map_id (acc.filter _)]
        apply List.map_congr_left
        intro s hs
        cases s with
        | other l => rfl
        | entry k' v' =>
          have hk' : onKey k' = true := (List.mem_filter.mp hs).2
          have hne : k' ≠ k := fun e => hk (e ▸ hk')
          simp [Slot.assign, hne]
      by_cases hacc : k ∈ keys acc <;> cases t <;>
        simp [place, Item.selected, Slot.selected, hk, hacc, hassign]

theorem resolve_filter (items : List (Item L K V)) :
    (resolve items).filter (Slot.selected onLine onKey) =
      resolve (items.filter (Item.selected onLine onKey)) := by
  induction items using List.reverseRecOn with
  | nil => rfl
  | append_singleton xs x ih =>
    rw [resolve_append, filter_place, ih, List.filter_append]
    by_cases hx : x.selected onLine onKey = true
    · simp [hx, resolve_append]
    · simp [hx]

end Selection

private theorem place_append {pre acc : List (Slot L K V)} {x : Item L K V}
    (h : ∀ k, x.key? = some k → k ∉ keys pre) : place (pre ++ acc) x = pre ++ place acc x := by
  cases x with
  | other l => simp [place]
  | entry t k v =>
    have hk : k ∉ keys pre := h k rfl
    have hpre : pre.map (Slot.assign k v) = pre := map_assign_of_not_mem hk v
    by_cases hacc : k ∈ keys acc <;> cases t <;> simp [place, hk, hacc, hpre]

private theorem resolve_append_of_disjoint {xs ys : List (Item L K V)}
    (h : List.Disjoint (itemKeys xs) (itemKeys ys)) :
    resolve (xs ++ ys) = resolve xs ++ resolve ys := by
  induction ys using List.reverseRecOn with
  | nil => simp [resolve, places]
  | append_singleton ys y ih =>
    rw [itemKeys_append, List.disjoint_append_right] at h
    rw [← List.append_assoc, resolve_append, ih h.1, resolve_append, place_append]
    intro k hk hmem
    refine h.2 (mem_keys_resolve.mp hmem) ?_
    simp [itemKeys, hk]

theorem resolve_flatten {parts : List (List (Item L K V))}
    (h : parts.Pairwise fun xs ys => List.Disjoint (itemKeys xs) (itemKeys ys)) :
    resolve parts.flatten = parts.flatMap resolve := by
  induction parts with
  | nil => rfl
  | cons xs parts ih =>
    obtain ⟨hxs, hparts⟩ := List.pairwise_cons.mp h
    have hdisjoint : List.Disjoint (itemKeys xs) (itemKeys parts.flatten) := by
      intro k hk hmem
      obtain ⟨x, hx, hkey⟩ := List.mem_filterMap.mp hmem
      obtain ⟨ys, hys, hx⟩ := List.mem_flatten.mp hx
      exact hxs ys hys hk (List.mem_filterMap.mpr ⟨x, hx, hkey⟩)
    rw [List.flatten_cons, resolve_append_of_disjoint hdisjoint, ih hparts, List.flatMap_cons]

theorem resolve_of_plain {items : List (Item L K V)} (hnodup : (itemKeys items).Nodup) :
    (∀ k v, Item.entry true k v ∉ items) → resolve items = items.map Item.slot := by
  induction items using List.reverseRecOn with
  | nil => exact fun _ => rfl
  | append_singleton xs x ih =>
    intro hplain
    rw [itemKeys_append, List.nodup_append] at hnodup
    rw [resolve_append, ih hnodup.1 fun k v h => hplain k v (List.mem_append_left _ h)]
    cases x with
    | other l => simp [place, Item.slot]
    | entry t k v =>
      have hk : k ∉ itemKeys xs := fun h => hnodup.2.2 k h k List.mem_cons_self rfl
      cases t with
      | true => exact absurd (List.mem_append_right xs (List.mem_singleton.mpr rfl)) (hplain k v)
      | false => simp [place, hk, Item.slot]

end LocalDesktop.Foundation.Override
