/- GID: LocalDesktop/Core/Tables
   generality: G
   digest: Where no key name is used in two tables, try_ entries are applied table by table. -/

import Mathlib.Data.List.SplitBy
import LocalDesktop.Core.ConfigRun
import LocalDesktop.Core.LineToml

set_option autoImplicit false
set_option relaxedAutoImplicit false

namespace LocalDesktop.Core.Tables

open Foundation.Strings Foundation.Override Foundation.FileTree Foundation.Effects Platform Config
  ConfigLines ConfigRun TomlScan TomlLayout LineToml

def opensTable (line : Text) : Bool := decide ((trim line).head? = some '[')

/-- The lines before the first header, then the lines of each table with its header. -/
def tables (ls : List Text) : List (List Text) := ls.splitBy fun _ l => !opensTable l

/-- The document in which each table has its own try_ entries applied. -/
def tableDocument (ls : List Text) : List Text := (tables ls).flatMap overridden

/-- The names that stand before a `=` in the lines that matter, without their try_. -/
def keyNames (ls : List Text) : List Text := itemKeys ((ls.map classify).filter significantItem)

def ScopesApart (ls : List Text) : Prop :=
  (tables ls).Pairwise fun a b => ∀ k ∈ keyNames a, k ∉ keyNames b

instance scopesApartDecidable (ls : List Text) : Decidable (ScopesApart ls) :=
  inferInstanceAs (Decidable (List.Pairwise _ _))

/-- Values end on their line, and a try_ key is bare. -/
structure BareFile (ls : List Text) : Prop where
  singleLine : ∀ l ∈ ls, SingleLine l
  bareKeys : ∀ l ∈ ls, isTry l = true →
    ∀ kv ∈ splitOnce '=' (trim l), (trim kv.1).all bareChar = true

private theorem flatten_tables (ls : List Text) :
    (tables ls).flatten = ls := List.flatten_splitBy _ ls

private theorem mem_of_mem_tables {ls table : List Text} {l : Text} (ht : table ∈ tables ls)
    (hl : l ∈ table) : l ∈ ls := by
  rw [← flatten_tables ls]
  exact List.mem_flatten.mpr ⟨table, ht, hl⟩

private theorem splitOnce_of_trim {line k v : Text} (h : splitOnce '=' (trim line) = some (k, v)) :
    ∃ a v', a.all isWhitespace = true ∧ splitOnce '=' line = some (a ++ k, v') := by
  obtain ⟨a, b, ha, -, heq⟩ := exists_trim line
  obtain ⟨htrim, hk⟩ := splitOnce_eq_some.mp h
  refine ⟨a, v ++ b, ha, splitOnce_eq_some.mpr ⟨?_, ?_⟩⟩
  · conv_lhs => rw [heq, htrim]
    simp
  · intro hmem
    rcases List.mem_append.mp hmem with hmem | hmem
    · exact absurd (List.all_eq_true.mp ha _ hmem) (by decide)
    · exact hk hmem

private theorem closes_key {line k v : Text} (hline : SingleLine line)
    (h : splitOnce '=' (trim line) = some (k, v)) : closes k = true := by
  obtain ⟨a, v', ha, hsplit⟩ := splitOnce_of_trim h
  have hkey := hline.2.2 (a ++ k, v') hsplit
  rwa [closes_blank_append ha] at hkey

private theorem singleLine_tidy {line : Text} (h : SingleLine line) : SingleLine (tidy line) := by
  have hnewline := newline_not_mem_tidy h.1
  have hclosed := closes_trim h.2.1
  unfold tidy at hnewline ⊢
  cases hsplit : splitOnce '=' (trim line) with
  | none =>
    simp only [hsplit] at hnewline ⊢
    exact ⟨hnewline, hclosed, by simp [hsplit]⟩
  | some kv =>
    obtain ⟨k, v⟩ := kv
    have hkey := closes_key h hsplit
    obtain ⟨htrim, hequals⟩ := splitOnce_eq_some.mp hsplit
    have hequals' : '=' ∉ trim k := fun hmem => hequals (mem_of_mem_trim hmem)
    simp only [hsplit] at hnewline ⊢
    refine ⟨hnewline, closes_entryLine_trim hkey (htrim ▸ hclosed), ?_⟩
    rw [splitOnce_entryLine hequals']
    intro kv hkv
    obtain rfl := Option.mem_some_iff.mp hkv
    exact closes_trim hkey

private theorem effectiveLine_of_try {line : Text} (htry : isTry line = true)
    (hbare : ∀ kv ∈ splitOnce '=' (trim line), (trim kv.1).all bareChar = true) :
    ∃ k k' v, splitOnce '=' (trim line) = some (k, v) ∧ (trim k).all bareChar = true ∧
      k'.all bareChar = true ∧ '=' ∉ k' ∧ tidy line = entryLine (trim k) (trim v) ∧
      effectiveLine line = entryLine k' (trim v) := by
  unfold isTry at htry
  unfold effectiveLine classify tidy
  cases hsplit : splitOnce '=' (trim line) with
  | none => simp [hsplit] at htry
  | some kv =>
    obtain ⟨k, v⟩ := kv
    simp only [hsplit] at htry
    have hk : (trim k).all bareChar = true := hbare (k, v) hsplit
    have hsub := (trimStartTry_suffix (trim k)).subset
    have hk' : (trimStartTry (trim k)).all bareChar = true := by
      rw [List.all_eq_true] at hk ⊢
      exact fun c hc => hk c (hsub hc)
    have hequals : '=' ∉ trimStartTry (trim k) := fun hmem =>
      absurd (List.all_eq_true.mp hk' _ hmem) (by decide)
    refine ⟨k, trimStartTry (trim k), v, rfl, hk, hk', hequals, rfl, ?_⟩
    simp only [htry, if_true]
    rfl

private theorem isWhitespace_of_bareChar {c : Char} (hc : bareChar c = true) :
    isWhitespace c = false := by
  have hranges : bareChar c = (((decide ('A'.val ≤ c.val ∧ c.val ≤ 'Z'.val) ||
    (decide ('a'.val ≤ c.val) && decide (c.val ≤ 'z'.val))) ||
    (decide ('0'.val ≤ c.val) && decide (c.val ≤ '9'.val))) || c == '_' || c == '-') := rfl
  simp only [hranges, Bool.or_eq_true, beq_iff_eq, Bool.and_eq_true, decide_eq_true_eq,
    UInt32.le_iff_toNat_le] at hc
  change ((((65 ≤ c.toNat ∧ c.toNat ≤ 90) ∨ (97 ≤ c.toNat ∧ c.toNat ≤ 122)) ∨
    (48 ≤ c.toNat ∧ c.toNat ≤ 57)) ∨ c = '_') ∨ c = '-' at hc
  rcases hc with (hletter | rfl) | rfl
  · simp only [isWhitespace, Bool.or_eq_false_iff, Bool.and_eq_false_iff, decide_eq_false_iff_not,
      beq_eq_false_iff_ne]
    omega
  · decide
  · decide

private theorem trimmed_bare {k : Text} (hk : k.all bareChar = true) : Trimmed k := by
  rw [List.all_eq_true] at hk
  constructor
  · intro c hc
    exact isWhitespace_of_bareChar (hk c (List.mem_of_mem_head? hc))
  · intro c hc
    exact isWhitespace_of_bareChar (hk c (List.mem_of_getLast? hc))

private theorem BareFile.trimmed {ls : List Text} (h : BareFile ls) {l : Text} (hl : l ∈ ls) :
    Trimmed (effectiveLine l) := by
  by_cases htry : isTry l = true
  · obtain ⟨k, k', v, -, -, hk', -, -, heq⟩ := effectiveLine_of_try htry (h.bareKeys l hl htry)
    rw [heq]
    exact trimmed_append_cons (by decide) (trimmed_bare hk') (trimmed_trim v)
  · rw [← tidy_of_plain (by simpa using htry)]
    exact trimmed_tidy l

private theorem BareFile.tidy_effectiveLine {ls : List Text} (h : BareFile ls) {l : Text}
    (hl : l ∈ ls) :
    tidy (effectiveLine l) = effectiveLine l := by
  by_cases htry : isTry l = true
  · obtain ⟨k, k', v, -, -, hk', hequals, -, heq⟩ :=
      effectiveLine_of_try htry (h.bareKeys l hl htry)
    have htrimmed := h.trimmed hl
    rw [heq] at htrimmed ⊢
    rw [tidy, trim_eq_self htrimmed, splitOnce_entryLine hequals]
    simp only [trim_eq_self (trimmed_bare hk'), trim_trim]
  · rw [← tidy_of_plain (by simpa using htry), tidy_tidy]

private theorem BareFile.singleLine_effectiveLine {ls : List Text} (h : BareFile ls) {l : Text}
    (hl : l ∈ ls) : SingleLine (effectiveLine l) := by
  have htidy := singleLine_tidy (h.singleLine l hl)
  by_cases htry : isTry l = true
  · obtain ⟨k, k', v, -, hk, hk', hequals, htidyEq, heq⟩ :=
      effectiveLine_of_try htry (h.bareKeys l hl htry)
    rw [htidyEq] at htidy
    rw [heq]
    refine ⟨?_, ?_, ?_⟩
    · intro hmem
      rcases List.mem_append.mp hmem with hmem | hmem
      · exact absurd (List.all_eq_true.mp hk' _ hmem) (by decide)
      · exact htidy.1 (List.mem_append_right _ hmem)
    · rw [closes_entryLine_bare hk' hk]
      exact htidy.2.1
    · rw [splitOnce_entryLine hequals]
      intro kv hkv
      obtain rfl := Option.mem_some_iff.mp hkv
      exact closes_bare hk'
  · rwa [← tidy_of_plain (by simpa using htry)]

private theorem exists_of_mem_tableDocument {ls : List Text} {line : Text}
    (h : line ∈ tableDocument ls) : ∃ l ∈ ls, effectiveLine l = line := by
  obtain ⟨table, ht, hline⟩ := List.mem_flatMap.mp h
  obtain ⟨l, hl, heq⟩ := exists_of_mem_overridden hline
  exact ⟨l, mem_of_mem_tables ht hl, heq⟩

private theorem overridden_eq_tableDocument {ls : List Text} (h : BareFile ls)
    (hapart : ScopesApart ls) :
    (overridden ls).filter significant = (tableDocument ls).filter significant := by
  have htables : ∀ table ∈ tables ls, (overridden table).filter significant =
      (resolve ((table.map classify).filter significantItem)).map slotLine := fun table ht =>
    overridden_significant fun l hl => h.trimmed (mem_of_mem_tables ht hl)
  have hparts : ((tables ls).map fun table => (table.map classify).filter significantItem).Pairwise
      fun xs ys => List.Disjoint (itemKeys xs) (itemKeys ys) := by
    refine List.pairwise_map.mpr (hapart.imp ?_)
    intro a b hab k ha hb
    exact hab k ha hb
  have hflat : (ls.map classify).filter significantItem =
      ((tables ls).map fun table => (table.map classify).filter significantItem).flatten := by
    conv_lhs => rw [← flatten_tables ls]
    rw [List.map_flatten, List.filter_flatten, List.map_map]
    rfl
  rw [overridden_significant fun l hl => h.trimmed hl, hflat, resolve_flatten hparts,
    tableDocument, List.filter_flatMap, List.map_flatMap, List.flatMap_map]
  exact (List.flatMap_congr htables).symm

variable {toml : Toml} (sv : Served) {t : Tree} {p : Path} {content : Text}

theorem parse_overridden (laws : Laws toml) {doc : Document} (hbare : BareFile (lines content))
    (hapart : ScopesApart (lines content))
    (hparse : toml.parse (join (tableDocument (lines content))) = some doc) :
    toml.parse (join (overridden (lines content))) = some doc := by
  refine laws.layout _ _ doc ?_ ?_ ?_ hparse
  · intro line hline
    obtain ⟨l, hl, rfl⟩ := exists_of_mem_tableDocument hline
    exact hbare.singleLine_effectiveLine hl
  · intro line hline
    obtain ⟨l, hl, rfl⟩ := exists_of_mem_overridden hline
    exact ⟨(hbare.singleLine_effectiveLine hl).1, hbare.trimmed hl⟩
  · have htidy : ((tableDocument (lines content)).filter significant).map tidy =
        (tableDocument (lines content)).filter significant := by
      conv_rhs => rw [← List.map_id ((tableDocument (lines content)).filter significant)]
      apply List.map_congr_left
      intro line hline
      obtain ⟨l, hl, rfl⟩ := exists_of_mem_tableDocument (List.mem_filter.mp hline).1
      exact hbare.tidy_effectiveLine hl
    rw [htidy]
    exact overridden_eq_tableDocument hbare hapart

/-- Where no key name is used in two tables, each table has its own try_ entries applied. -/
theorem parse_config_respects_tables (laws : Laws toml) {config : LocalConfig}
    (hfile : HasText t p content) (hbare : BareFile (lines content))
    (hapart : ScopesApart (lines content))
    (hspec : toml.fromStr (join (tableDocument (lines content))) = some config) :
    (exec (succeed sv) (parseConfig toml p) t).1 = .returned config := by
  obtain ⟨doc, hdoc, hconfig⟩ := Option.bind_eq_some_iff.mp hspec
  have hread : toml.fromStr (join (overridden (lines content))) = some config := by
    rw [Toml.fromStr, parse_overridden laws hbare hapart hdoc]
    exact hconfig
  obtain ⟨t', hexec, -⟩ := exec_parseConfig_of_some sv toml hfile hread
  rw [hexec]

def twoTables : Text :=
  "[user]\nusername = \"bob\"\ntry_username = \"alice\"\n[panel]\ntry_size = 4\nsize = 3\n".toList

theorem parse_config_respects_two_tables :
    (exec (succeed nothingServed) (parseConfig lineToml fullConfigPath) (storing twoTables)).1 =
      .returned alice := by
  have hliteral : twoTables = _ := String.toList_ofList
  have hspec : lineToml.fromStr (join (tableDocument (lines twoTables))) = some alice := by
    rw [hliteral]
    with_unfolding_all rfl
  have hbare : BareFile (lines twoTables) := by
    rw [hliteral]
    exact ⟨by decide +kernel, by decide +kernel⟩
  have hapart : ScopesApart (lines twoTables) := by
    rw [hliteral]
    decide +kernel
  exact parse_config_respects_tables nothingServed laws_lineToml (hasText_storing twoTables)
    hbare hapart hspec

/-- At most one plain entry of each key in each table. -/
def OnePlainEach (ls : List Text) : Prop :=
  ∀ table ∈ tables ls, (keyNames (table.filter fun l => !isTry l)).Nodup

instance onePlainEachDecidable (ls : List Text) : Decidable (OnePlainEach ls) :=
  inferInstanceAs (Decidable (∀ _ ∈ _, _))

def sameNameTwice : Text :=
  "[panel]\nusername = \"kde\"\n[user]\nusername = \"alice\"\n".toList

/-- A key of an unknown table hides the same key of a later one. -/
theorem parse_config_mixes_tables :
    ¬∀ (toml : Toml) (sv : Served) (t : Tree) (p : Path) (content : Text) (config : LocalConfig),
      Laws toml → HasText t p content → (toml.parse content).isSome = true →
      BareFile (lines content) → OnePlainEach (lines content) →
      toml.fromStr (join (tableDocument (lines content))) = some config →
      (exec (succeed sv) (parseConfig toml p) t).1 = .returned config := by
  intro h
  have hliteral : sameNameTwice = _ := String.toList_ofList
  have hspec : lineToml.fromStr (join (tableDocument (lines sameNameTwice))) = some alice := by
    rw [hliteral]
    with_unfolding_all rfl
  have hread : lineToml.fromStr (join (overridden (lines sameNameTwice))) = none := by
    rw [hliteral]
    with_unfolding_all rfl
  have hbare : BareFile (lines sameNameTwice) := by
    rw [hliteral]
    exact ⟨by decide +kernel, by decide +kernel⟩
  have hplain : OnePlainEach (lines sameNameTwice) := by
    rw [hliteral]
    decide +kernel
  have hparsed : (lineToml.parse sameNameTwice).isSome = true := by
    rw [hliteral]
    decide +kernel
  have hfile := hasText_storing sameNameTwice
  have hclaimed := h lineToml nothingServed _ _ sameNameTwice alice laws_lineToml hfile hparsed
    hbare hplain hspec
  rw [exec_parseConfig_fst nothingServed lineToml hfile, hread] at hclaimed
  have husername := congrArg (fun c => c.user.username) (Outcome.returned.inj hclaimed)
  exact absurd husername (by decide)

end LocalDesktop.Core.Tables
