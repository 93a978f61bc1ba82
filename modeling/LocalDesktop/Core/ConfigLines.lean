/- GID: LocalDesktop/Core/ConfigLines
   generality: G
   digest: The loop of process_config_file is the incremental reader of keyed settings. -/

import LocalDesktop.Core.Config
import LocalDesktop.Foundation.Override

set_option autoImplicit false
set_option relaxedAutoImplicit false

namespace LocalDesktop.Core.ConfigLines

open Foundation.Strings Foundation.Override Config

abbrev Item := Foundation.Override.Item Text Text Text
abbrev Slot := Foundation.Override.Slot Text Text Text

/-- A line with `=` is an entry; its key is what stands before the first `=`. -/
def classify (line : Text) : Item :=
  match splitOnce '=' (trim line) with
  | some (k, v) =>
      if tryPrefix.isPrefixOf (trim k) then .entry true (trimStartTry (trim k)) (trim v)
      else .entry false (trim k) (trim v)
  | none => .other (trim line)

def slotLine : Slot → Text
  | .other l => l
  | .entry k v => entryLine k v

@[simp] theorem slotLine_other (l : Text) : slotLine (.other l) = l := rfl

@[simp] theorem slotLine_entry (k v : Text) : slotLine (.entry k v) = entryLine k v := rfl

/-- The lines of a file with its try_ entries applied: each key keeps its first place and has the
value of its last try_ entry, or of its first plain entry. -/
def overridden (ls : List Text) : List Text := (resolve (ls.map classify)).map slotLine

def isTry (line : Text) : Bool :=
  match splitOnce '=' (trim line) with
  | some (k, _) => tryPrefix.isPrefixOf (trim k)
  | none => false

def writeBackLine (line : Text) : Text :=
  if isTry line then "# ".toList ++ trim line else trim line

def tidy (line : Text) : Text :=
  match splitOnce '=' (trim line) with
  | some (k, v) => entryLine (trim k) (trim v)
  | none => trim line

/-- A slot as the reader makes it: no `=` but the one after the key. -/
def Legible : Slot → Prop
  | .other l => '=' ∉ l
  | .entry k _ => '=' ∉ k

theorem splitOnce_entryLine {k : Text} (hk : '=' ∉ k) (v : Text) :
    splitOnce '=' (entryLine k v) = some (k, v) :=
  splitOnce_eq_some.mpr ⟨rfl, hk⟩

private theorem assigns_iff {k line : Text} (hk : '=' ∉ k) :
    assigns k line = true ↔ ∃ v, splitOnce '=' line = some (k, v) := by
  rw [assigns, List.isPrefixOf_iff_prefix]
  constructor
  · rintro ⟨v, rfl⟩
    exact ⟨v, splitOnce_eq_some.mpr ⟨by simp, hk⟩⟩
  · rintro ⟨v, hv⟩
    obtain ⟨rfl, -⟩ := splitOnce_eq_some.mp hv
    exact ⟨v, by simp⟩

private theorem assigns_slotLine {k : Text} (hk : '=' ∉ k) {s : Slot} (hs : Legible s) :
    assigns k (slotLine s) = true ↔ s.key? = some k := by
  rw [assigns_iff hk]
  cases s with
  | other l => simp [slotLine, Slot.key?, splitOnce_eq_none.mpr hs]
  | entry k' v =>
    have hsplit := splitOnce_entryLine (show '=' ∉ k' from hs) v
    simp [slotLine, Slot.key?, hsplit, eq_comm]

private theorem mem_keys_iff_assigns {k : Text} (hk : '=' ∉ k) {acc : List Slot}
    (hacc : ∀ s ∈ acc, Legible s) :
    k ∈ keys acc ↔ ∃ line ∈ acc.map slotLine, assigns k line = true := by
  simp only [keys, List.mem_filterMap, List.mem_map, exists_exists_and_eq_and]
  exact exists_congr fun s => and_congr_right fun hs => (assigns_slotLine hk (hacc s hs)).symm

private theorem set_findIdx {k : Text} (hk : '=' ∉ k) (v : Text) {acc : List Slot}
    (hacc : ∀ s ∈ acc, Legible s) (hnodup : (keys acc).Nodup) (hmem : k ∈ keys acc) :
    ∃ i, (acc.map slotLine).findIdx? (assigns k) = some i ∧
      (acc.map slotLine).set i (entryLine k v) = (acc.map (Slot.assign k v)).map slotLine := by
  induction acc with
  | nil => exact absurd hmem List.not_mem_nil
  | cons s acc ih =>
    have hs := hacc s List.mem_cons_self
    have hrest : ∀ s' ∈ acc, Legible s' := fun s' h => hacc s' (List.mem_cons_of_mem _ h)
    by_cases hfound : assigns k (slotLine s) = true
    · refine ⟨0, by simp [List.findIdx?_cons, hfound], ?_⟩
      have hkey := (assigns_slotLine hk hs).mp hfound
      cases s with
      | other l => simp [Slot.key?] at hkey
      | entry k' v' =>
        obtain rfl : k' = k := by simpa [Slot.key?] using hkey
        have hfresh : k' ∉ keys acc := (List.nodup_cons.mp hnodup).1
        have hkeep : acc.map (Slot.assign k' v) = acc := map_assign_of_not_mem hfresh v
        simp [slotLine, Slot.assign, hkeep]
    · have hkey : s.key? ≠ some k := fun h => hfound ((assigns_slotLine hk hs).mpr h)
      have hassign : s.assign k v = s := by
        cases s with
        | other l => rfl
        | entry k' v' =>
          have hne : k' ≠ k := fun e => hkey (by rw [Slot.key?, e])
          simp [Slot.assign, hne]
      have hkeys : keys (s :: acc) = s.key?.toList ++ keys acc := by
        cases hk' : s.key? <;> simp [keys, hk']
      rw [hkeys] at hnodup hmem
      have hmem' : k ∈ keys acc := by
        rcases List.mem_append.mp hmem with h | h
        · exact absurd (Option.mem_toList.mp h) hkey
        · exact h
      obtain ⟨i, hi, hset⟩ := ih hrest (List.nodup_append.mp hnodup).2.1 hmem'
      refine ⟨i + 1, ?_, ?_⟩
      · simp [List.findIdx?_cons, hfound, hi]
      · simp [hset, hassign]

theorem trimStartTry_suffix (k : Text) : trimStartTry k <:+ k := by
  induction k using trimStartTry.induct with
  | case1 t ih =>
    rw [trimStartTry]
    exact ih.trans ⟨['t', 'r', 'y', '_'], rfl⟩
  | case2 t h =>
    rw [trimStartTry]
    exact h

private theorem equals_not_mem_trimStartTry {k : Text} (hk : '=' ∉ k) :
    '=' ∉ trimStartTry k := fun h =>
  hk ((trimStartTry_suffix k).subset h)

private theorem equals_not_mem_of_split {line k v : Text}
    (h : splitOnce '=' (trim line) = some (k, v)) : '=' ∉ trim k := fun hmem =>
  (splitOnce_eq_some.mp h).2 (mem_of_mem_trim hmem)

private theorem legible_place {acc : List Slot} (hacc : ∀ s ∈ acc, Legible s) {x : Item}
    (hx : Legible x.slot) : ∀ s ∈ place acc x, Legible s := by
  have hpush : ∀ s ∈ acc ++ [x.slot], Legible s := by
    intro s hs
    rcases List.mem_append.mp hs with hs | hs
    · exact hacc s hs
    · exact List.mem_singleton.mp hs ▸ hx
  have hassign : ∀ k v, ∀ s ∈ acc.map (Slot.assign k v), Legible s := by
    intro k v s hs
    obtain ⟨s', hs', rfl⟩ := List.mem_map.mp hs
    have hs'' := hacc s' hs'
    cases s' with
    | other l => exact hs''
    | entry k' v' => exact hs''
  cases x with
  | other l => exact hpush
  | entry t k v =>
    cases t with
    | true =>
      rw [place]
      split
      · exact hassign k v
      · exact hpush
    | false =>
      rw [place]
      split
      · exact hacc
      · exact hpush

private theorem legible_classify (line : Text) : Legible (classify line).slot := by
  unfold classify
  cases hsplit : splitOnce '=' (trim line) with
  | none => exact splitOnce_eq_none.mp hsplit
  | some kv =>
    have hk := equals_not_mem_of_split hsplit
    dsimp only
    split
    · exact equals_not_mem_trimStartTry hk
    · exact hk

/-- One turn of the loop writes one line back and reads one item. -/
private theorem processLine_refines {acc : List Slot} (hacc : ∀ s ∈ acc, Legible s)
    (hnodup : (keys acc).Nodup) (back : List Text) (line : Text) :
    processLine ⟨back, acc.map slotLine⟩ line =
      ⟨back ++ [writeBackLine line], (place acc (classify line)).map slotLine⟩ := by
  unfold processLine writeBackLine isTry classify
  dsimp only
  cases hsplit : splitOnce '=' (trim line) with
  | none => simp [place]
  | some kv =>
    obtain ⟨k, v⟩ := kv
    have hk := equals_not_mem_of_split hsplit
    by_cases htry : tryPrefix.isPrefixOf (trim k) = true
    · have hk' := equals_not_mem_trimStartTry hk
      simp only [htry, if_true, place]
      by_cases hmem : trimStartTry (trim k) ∈ keys acc
      · obtain ⟨i, hi, hset⟩ := set_findIdx hk' (trim v) hacc hnodup hmem
        simp only [hi, hset, if_pos hmem]
      · have hnone : (acc.map slotLine).findIdx? (assigns (trimStartTry (trim k))) = none := by
          rw [List.findIdx?_eq_none_iff]
          intro l hl
          by_contra hfound
          exact hmem ((mem_keys_iff_assigns hk' hacc).mpr ⟨l, hl, by simpa using hfound⟩)
        simp only [hnone, if_neg hmem, List.map_append, List.map_singleton, slotLine_entry]
    · have hany : (acc.map slotLine).any (assigns (trim k)) = true ↔ trim k ∈ keys acc := by
        rw [List.any_eq_true, mem_keys_iff_assigns hk hacc]
      simp only [htry, place, hany, Bool.false_eq_true, if_false]
      by_cases hmem : trim k ∈ keys acc
      · simp only [if_pos hmem]
      · simp only [if_neg hmem, List.map_append, List.map_singleton, slotLine_entry]

private theorem foldl_processLine_refines {acc : List Slot} (hacc : ∀ s ∈ acc, Legible s)
    (hnodup : (keys acc).Nodup) (back ls : List Text) :
    ls.foldl processLine ⟨back, acc.map slotLine⟩ =
      ⟨back ++ ls.map writeBackLine, ((ls.map classify).foldl place acc).map slotLine⟩ := by
  induction ls generalizing acc back with
  | nil => simp
  | cons line ls ih =>
    rw [List.foldl_cons, processLine_refines hacc hnodup,
      ih (legible_place hacc (legible_classify line)) (keys_place_nodup hnodup _)]
    simp

/-- What the loop leaves: every line rewritten in place, and the file with its try_ entries
applied. -/
theorem processLines_eq (ls : List Text) :
    processLines ls = ⟨ls.map writeBackLine, overridden ls⟩ := by
  have hnodup : (keys ([] : List Slot)).Nodup := List.nodup_nil
  have hlegible : ∀ s ∈ ([] : List Slot), Legible s := by simp
  have h := foldl_processLine_refines hlegible hnodup [] ls
  rw [overridden, ← placeAll_eq_resolve]
  simpa [processLines, placeAll] using h

end LocalDesktop.Core.ConfigLines
