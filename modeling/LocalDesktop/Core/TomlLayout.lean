/- GID: LocalDesktop/Core/TomlLayout
   generality: G
   digest: What the app relies on of TOML: comments and blanks do not matter on single lines. -/

import LocalDesktop.Core.ConfigLines
import LocalDesktop.Core.TomlScan

/-!
The toml crate is a parameter. `Laws` lists what the results about whole runs
assume of it: `#` lines are comments, blanks at line ends and around `=` do not
matter as long as every value stays on its line, and the saved default reads
back. `lineToml` reads the line-oriented part of TOML and satisfies them.
-/

set_option autoImplicit false
set_option relaxedAutoImplicit false

namespace LocalDesktop.Core.TomlLayout

open Foundation.Strings Foundation.Override Config ConfigLines TomlScan

/-- Neither blank nor a comment. -/
def significant (line : Text) : Bool :=
  decide (trim line ≠ [] ∧ (trim line).head? ≠ some '#')

/-- A basic string without anything to escape. -/
def quoted (s : Text) : Text := '"' :: (s ++ ['"'])

/-- The lines `toml::to_string` makes of strings with nothing to escape. -/
def savedLines (config : LocalConfig) : List Text := [
  "[user]".toList,
  "username = ".toList ++ quoted config.user.username,
  [],
  "[command]".toList,
  "check = ".toList ++ quoted config.command.check,
  "install = ".toList ++ quoted config.command.install,
  "launch = ".toList ++ quoted config.command.launch]

def savedDefault : Text := unlines (savedLines LocalConfig.default)

structure Laws (toml : Toml) : Prop where
  /-- Comments and blank lines may come and go, and the other lines be tidied. -/
  layout : ∀ (ls ls' : List Text) (doc : Document),
    (∀ l ∈ ls, SingleLine l) → (∀ l ∈ ls', '\n' ∉ l ∧ Trimmed l) →
    ls'.filter significant = (ls.filter significant).map tidy →
    toml.parse (join ls) = some doc → toml.parse (join ls') = some doc
  saved : toml.toString LocalConfig.default = savedDefault
  readsBack : toml.fromStr savedDefault = some LocalConfig.default

private theorem Laws.fromStr_layout {toml : Toml} (laws : Laws toml) {ls ls' : List Text}
    {config : LocalConfig} (hsingle : ∀ l ∈ ls, SingleLine l)
    (htrimmed : ∀ l ∈ ls', '\n' ∉ l ∧ Trimmed l)
    (hsame : ls'.filter significant = (ls.filter significant).map tidy)
    (hparse : toml.fromStr (join ls) = some config) : toml.fromStr (join ls') = some config := by
  obtain ⟨doc, hdoc, hconfig⟩ := Option.bind_eq_some_iff.mp hparse
  rw [Toml.fromStr, laws.layout ls ls' doc hsingle htrimmed hsame hdoc]
  exact hconfig

/-! How tidying and rewriting act on the lines that matter. -/

@[simp] theorem tidy_trim (line : Text) : tidy (trim line) = tidy line := by
  rw [tidy, trim_trim, tidy]

@[simp] theorem significant_trim (line : Text) : significant (trim line) = significant line := by
  rw [significant, trim_trim, significant]

theorem trimmed_tidy (line : Text) : Trimmed (tidy line) := by
  unfold tidy
  split
  · exact trimmed_append_cons (by decide) (trimmed_trim _) (trimmed_trim _)
  · exact trimmed_trim _

theorem tidy_tidy (line : Text) : tidy (tidy line) = tidy line := by
  have htrim := trim_eq_self (trimmed_tidy line)
  rw [tidy, htrim]
  cases hsplit : splitOnce '=' (trim line) with
  | none => simp [tidy, hsplit]
  | some kv =>
    have hk : '=' ∉ trim kv.1 := fun h =>
      (splitOnce_eq_some.mp (show splitOnce '=' (trim line) = some (kv.1, kv.2) from hsplit)).2
        (mem_of_mem_trim h)
    have htidy : tidy line = entryLine (trim kv.1) (trim kv.2) := by simp [tidy, hsplit]
    simp [htidy, splitOnce_entryLine hk]

theorem head?_trim_key {line k v : Text} (h : splitOnce '=' (trim line) = some (k, v)) (c : Char)
    (hc : c ≠ '=') : (trim k).head? = some c ↔ (trim line).head? = some c := by
  obtain ⟨heq, -⟩ := splitOnce_eq_some.mp h
  have hline := trimmed_trim line
  cases k with
  | nil =>
    rw [heq]
    simp [trim, Ne.symm hc]
  | cons d k =>
    rw [heq] at hline ⊢
    have hd : isWhitespace d = false := hline.1 d rfl
    have hdrop : (d :: k).dropWhile isWhitespace = d :: k :=
      List.dropWhile_cons_of_neg (by simp [hd])
    have hne : trim (d :: k) ≠ [] := by
      rw [trim, hdrop, Ne, List.rdropWhile_eq_nil_iff]
      intro hall
      simp [hd] at hall
    have hpre : trim (d :: k) <+: d :: k := by
      rw [trim, hdrop]
      exact List.rdropWhile_prefix _ _
    obtain ⟨r, hr⟩ := hpre
    cases htrim : trim (d :: k) with
    | nil => exact absurd htrim hne
    | cons e k' =>
      rw [htrim] at hr
      obtain ⟨rfl, -⟩ := List.cons.inj hr
      simp

/-- The items that the lines that matter become. -/
def significantItem : Item → Bool :=
  Item.selected (fun l => decide (l ≠ [] ∧ l.head? ≠ some '#')) fun k =>
    decide (k.head? ≠ some '#')

def significantSlot : Slot → Bool :=
  Slot.selected (fun l => decide (l ≠ [] ∧ l.head? ≠ some '#')) fun k =>
    decide (k.head? ≠ some '#')

private theorem significant_slotLine {s : Slot} (h : Trimmed (slotLine s)) :
    significant (slotLine s) = significantSlot s := by
  rw [significant, trim_eq_self h]
  cases s with
  | other l => rfl
  | entry k v => cases k <;> simp [entryLine, significantSlot, Slot.selected]

def effectiveLine (line : Text) : Text := slotLine (classify line).slot

theorem tidy_of_plain {line : Text} (h : isTry line = false) :
    tidy line = effectiveLine line := by
  unfold tidy effectiveLine classify
  cases hsplit : splitOnce '=' (trim line) with
  | none => rfl
  | some kv =>
    have hplain : tryPrefix.isPrefixOf (trim kv.1) = false := by
      simpa only [isTry, hsplit] using h
    simp only [hplain, Bool.false_eq_true, if_false]
    rfl

theorem significantItem_of_plain {line : Text} (h : isTry line = false) :
    significantItem (classify line) = significant line := by
  unfold significant classify
  cases hsplit : splitOnce '=' (trim line) with
  | none => rfl
  | some kv =>
    have hplain : tryPrefix.isPrefixOf (trim kv.1) = false := by
      simpa only [isTry, hsplit] using h
    have hne : trim line ≠ [] := by
      intro hnil
      rw [hnil] at hsplit
      exact absurd hsplit (by simp [splitOnce])
    simp only [hplain, Bool.false_eq_true, if_false]
    simp only [significantItem, Item.selected, hne, ne_eq, not_false_eq_true, true_and,
      head?_trim_key (k := kv.1) (v := kv.2) hsplit '#' (by decide)]

private theorem classify_ne_trial {line : Text} (h : isTry line = false) (k v : Text) :
    classify line ≠ .entry true k v := by
  unfold classify
  cases hsplit : splitOnce '=' (trim line) with
  | none => simp
  | some kv =>
    have hplain : tryPrefix.isPrefixOf (trim kv.1) = false := by
      simpa only [isTry, hsplit] using h
    simp [hplain]

private theorem isTry_of_comment {line : Text} (h : (trim line).head? = some '#') :
    isTry line = false := by
  unfold isTry
  cases hsplit : splitOnce '=' (trim line) with
  | none => rfl
  | some kv =>
    have hhead := (head?_trim_key (k := kv.1) (v := kv.2) hsplit '#' (by decide)).mpr h
    cases htrim : trim kv.1 with
    | nil => simp [htrim] at hhead
    | cons c k =>
      obtain rfl : c = '#' := by simpa [htrim] using hhead
      simp only [htrim]
      rfl

private theorem trimmed_hash {t : Text} (h : Trimmed t) (hne : t ≠ []) :
    Trimmed ('#' :: ' ' :: t) := by
  refine ⟨by simp [show isWhitespace '#' = false from by decide], ?_⟩
  intro c hc
  refine h.2 c ?_
  rwa [List.getLast?_cons_cons, List.getLast?_cons, List.getLast?_eq_getLast_of_ne_nil hne,
    Option.getD_some, ← List.getLast?_eq_getLast_of_ne_nil hne] at hc

private theorem trim_ne_nil_of_isTry {line : Text} (h : isTry line = true) : trim line ≠ [] := by
  intro hnil
  simp [isTry, hnil, splitOnce] at h

theorem trimmed_writeBackLine (line : Text) : Trimmed (writeBackLine line) := by
  unfold writeBackLine
  split
  · rename_i htry
    exact trimmed_hash (trimmed_trim line) (trim_ne_nil_of_isTry htry)
  · exact trimmed_trim line

theorem head?_writeBackLine_of_try {line : Text} (h : isTry line = true) :
    (writeBackLine line).head? = some '#' := by
  rw [writeBackLine, if_pos h]
  rfl

theorem isTry_writeBackLine (line : Text) : isTry (writeBackLine line) = false := by
  by_cases h : isTry line = true
  · apply isTry_of_comment
    rw [trim_eq_self (trimmed_writeBackLine line)]
    exact head?_writeBackLine_of_try h
  · have hplain : isTry line = false := by simpa using h
    rw [writeBackLine, if_neg h]
    simpa only [isTry, trim_trim] using hplain

theorem wholeLine_writeBackLine {line : Text} (h : '\n' ∉ line) :
    WholeLine (writeBackLine line) := by
  refine ⟨?_, ?_⟩
  · have htrim : '\n' ∉ trim line := fun hmem => h (mem_of_mem_trim hmem)
    unfold writeBackLine
    split
    · simpa using htrim
    · exact htrim
  · have hlast := getLast?_trim_ne (t := writeBackLine line) (c := '\r') (by decide)
    rwa [trim_eq_self (trimmed_writeBackLine line)] at hlast

theorem classify_writeBackLine_of_plain {line : Text} (h : isTry line = false) :
    classify (writeBackLine line) = classify line := by
  rw [writeBackLine, if_neg (by simp [h]), classify, trim_trim, classify]

theorem newline_not_mem_tidy {line : Text} (h : '\n' ∉ line) : '\n' ∉ tidy line := by
  have htrim : '\n' ∉ trim line := fun hmem => h (mem_of_mem_trim hmem)
  unfold tidy
  split
  · rename_i k v hsplit
    obtain ⟨heq, -⟩ := splitOnce_eq_some.mp hsplit
    rw [heq] at htrim
    simp only [List.mem_append, List.mem_cons, not_or] at htrim
    intro hmem
    rcases List.mem_append.mp hmem with hmem | hmem
    · exact htrim.1 (mem_of_mem_trim hmem)
    · rcases List.mem_cons.mp hmem with hmem | hmem
      · exact absurd hmem (by decide)
      · exact htrim.2.2 (mem_of_mem_trim hmem)
  · exact htrim

theorem exists_of_mem_overridden {ls : List Text} {line : Text} (h : line ∈ overridden ls) :
    ∃ l ∈ ls, effectiveLine l = line := by
  obtain ⟨s, hs, rfl⟩ := List.mem_map.mp h
  obtain ⟨x, hx, rfl⟩ := exists_of_mem_resolve hs
  obtain ⟨l, hl, rfl⟩ := List.mem_map.mp hx
  exact ⟨l, hl, rfl⟩

theorem overridden_significant {ls : List Text} (htrimmed : ∀ l ∈ ls, Trimmed (effectiveLine l)) :
    (overridden ls).filter significant =
      (resolve ((ls.map classify).filter significantItem)).map slotLine := by
  have hfilter := resolve_filter (fun l => decide (l ≠ [] ∧ l.head? ≠ some '#'))
    (fun k : Text => decide (k.head? ≠ some '#')) (ls.map classify)
  rw [significantItem, ← hfilter, overridden, List.filter_map]
  congr 1
  apply List.filter_congr
  intro s hs
  obtain ⟨l, hl, hline⟩ := exists_of_mem_overridden (List.mem_map_of_mem hs)
  have hslot : Trimmed (slotLine s) := hline ▸ htrimmed l hl
  exact significant_slotLine hslot

theorem overridden_eq_tidy {ls : List Text} (hplain : ∀ l ∈ ls, isTry l = false)
    (hnodup : (itemKeys (ls.map classify)).Nodup) : overridden ls = ls.map tidy := by
  have hnone : ∀ k v, Item.entry true k v ∉ ls.map classify := by
    intro k v hmem
    obtain ⟨l, hl, hentry⟩ := List.mem_map.mp hmem
    exact classify_ne_trial (hplain l hl) k v hentry
  rw [overridden, resolve_of_plain hnodup hnone, List.map_map, List.map_map]
  apply List.map_congr_left
  intro l hl
  exact (tidy_of_plain (hplain l hl)).symm

private theorem exists_tidy_of_mem_overridden {ls : List Text} (hplain : ∀ l ∈ ls, isTry l = false)
    {line : Text} (h : line ∈ overridden ls) : ∃ l ∈ ls, tidy l = line := by
  obtain ⟨l, hl, heq⟩ := exists_of_mem_overridden h
  exact ⟨l, hl, (tidy_of_plain (hplain l hl)).trans heq⟩

/-- Lines without try_ entries, each key once. -/
structure Plain (ls : List Text) : Prop where
  noTry : ∀ l ∈ ls, isTry l = false
  uniqueKeys : (itemKeys ((ls.map classify).filter significantItem)).Nodup

theorem Laws.fromStr_overridden {toml : Toml} (laws : Laws toml) {ls back : List Text}
    {config : LocalConfig} (hplain : Plain ls) (hsingle : ∀ l ∈ ls, SingleLine l)
    (hback : ∀ l ∈ back, isTry l = false ∧ '\n' ∉ l)
    (hsame : (back.map classify).filter significantItem =
      (ls.map classify).filter significantItem)
    (hparse : toml.fromStr (join ls) = some config) :
    toml.fromStr (join (overridden back)) = some config := by
  have hnoTry : ∀ l ∈ back, isTry l = false := fun l hl => (hback l hl).1
  refine laws.fromStr_layout hsingle ?_ ?_ hparse
  · intro line hline
    obtain ⟨l, hl, rfl⟩ := exists_tidy_of_mem_overridden hnoTry hline
    exact ⟨newline_not_mem_tidy (hback l hl).2, trimmed_tidy l⟩
  · have hnone : ∀ k v, Item.entry true k v ∉ (ls.map classify).filter significantItem := by
      intro k v hmem
      obtain ⟨l, hl, hentry⟩ := List.mem_map.mp (List.mem_filter.mp hmem).1
      exact classify_ne_trial (hplain.noTry l hl) k v hentry
    have hsig : ls.filter (significantItem ∘ classify) = ls.filter significant :=
      List.filter_congr fun l hl => significantItem_of_plain (hplain.noTry l hl)
    have htrimmed : ∀ l ∈ back, Trimmed (effectiveLine l) := fun l hl =>
      tidy_of_plain (hnoTry l hl) ▸ trimmed_tidy l
    rw [overridden_significant htrimmed, hsame, resolve_of_plain hplain.uniqueKeys hnone,
      List.filter_map, hsig, List.map_map, List.map_map]
    apply List.map_congr_left
    intro l hl
    exact (tidy_of_plain (hplain.noTry l (List.mem_filter.mp hl).1)).symm

end LocalDesktop.Core.TomlLayout
