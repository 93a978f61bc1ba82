/- GID: LocalDesktop/Core/SavedLines
   generality: G
   digest: How the line rewriting treats the lines that saving writes. -/

import LocalDesktop.Core.TomlLayout

set_option autoImplicit false
set_option relaxedAutoImplicit false

namespace LocalDesktop.Core.SavedLines

open Foundation.Strings Foundation.Override Config ConfigLines TomlLayout

/-- A bare key that asks for no trial. -/
structure PlainKey (key : Text) : Prop where
  ne : key ≠ []
  trimmed : Trimmed key
  noEquals : '=' ∉ key
  noTry : tryPrefix.isPrefixOf key = false

/-- The first line of a value: it has something visible at both ends. -/
structure Visible (value : Text) : Prop where
  ne : value ≠ []
  trimmed : Trimmed value

/-- `key = value`, as `toml::to_string` writes it. -/
def keyLine (key value : Text) : Text := key ++ ' ' :: '=' :: ' ' :: value

variable {key value : Text}

private theorem trimmed_keyLine (hkey : PlainKey key) (hvalue : Visible value) :
    Trimmed (keyLine key value) := by
  constructor
  · intro c hc
    rw [keyLine, List.head?_append_of_ne_nil _ hkey.ne] at hc
    exact hkey.trimmed.1 c hc
  · intro c hc
    have hlast : (keyLine key value).getLast? = value.getLast? := by
      rw [keyLine, show key ++ ' ' :: '=' :: ' ' :: value = (key ++ [' ', '=', ' ']) ++ value by simp]
      exact List.getLast?_append_of_ne_nil _ hvalue.ne
    rw [hlast] at hc
    exact hvalue.trimmed.2 c hc

private theorem splitOnce_keyLine (hkey : PlainKey key) :
    splitOnce '=' (keyLine key value) = some (key ++ [' '], ' ' :: value) := by
  refine splitOnce_eq_some.mpr ⟨by simp [keyLine], ?_⟩
  intro hmem
  rcases List.mem_append.mp hmem with hmem | hmem
  · exact hkey.noEquals hmem
  · exact absurd hmem (by decide)

private theorem trim_key_blank (hkey : PlainKey key) : trim (key ++ [' ']) = key := by
  rw [trim_concat_blank _ (by decide), trim_eq_self hkey.trimmed]

private theorem trim_blank_value (hvalue : Visible value) : trim (' ' :: value) = value := by
  rw [trim_cons_blank _ (by decide), trim_eq_self hvalue.trimmed]

private theorem classify_keyLine (hkey : PlainKey key) (hvalue : Visible value) :
    classify (keyLine key value) = .entry false key value := by
  simp [classify, trim_eq_self (trimmed_keyLine hkey hvalue), splitOnce_keyLine hkey,
    trim_key_blank hkey, trim_blank_value hvalue, hkey.noTry]

private theorem isTry_keyLine (hkey : PlainKey key) (hvalue : Visible value) :
    isTry (keyLine key value) = false := by
  simp [isTry, trim_eq_self (trimmed_keyLine hkey hvalue), splitOnce_keyLine hkey,
    trim_key_blank hkey, hkey.noTry]

private theorem tidy_keyLine (hkey : PlainKey key) (hvalue : Visible value) :
    tidy (keyLine key value) = entryLine key value := by
  simp [tidy, trim_eq_self (trimmed_keyLine hkey hvalue), splitOnce_keyLine hkey,
    trim_key_blank hkey, trim_blank_value hvalue]

private theorem isTry_bare {line : Text} (htrimmed : Trimmed line) (hbare : '=' ∉ line) :
    isTry line = false := by
  simp [isTry, trim_eq_self htrimmed, splitOnce_eq_none.mpr hbare]

private theorem writeBackLine_plain {line : Text} (htrimmed : Trimmed line)
    (hplain : isTry line = false) :
    writeBackLine line = line := by
  simp [writeBackLine, hplain, trim_eq_self htrimmed]

theorem visible_quoted (s : Text) : Visible (quoted s) where
  ne := by simp [quoted]
  trimmed := by
    have hquote : isWhitespace '"' = false := by decide
    constructor
    · simp [quoted, hquote]
    · intro c hc
      rw [quoted, ← List.cons_append, List.getLast?_concat] at hc
      cases hc
      exact hquote

private theorem plainKey_username : PlainKey "username".toList := by
  constructor <;> decide

private theorem plainKey_check : PlainKey "check".toList := by
  constructor <;> decide

private theorem plainKey_install : PlainKey "install".toList := by
  constructor <;> decide

private theorem plainKey_launch : PlainKey "launch".toList := by
  constructor <;> decide

/-! A configuration as saving writes it, with values that may take several lines. -/

/-- The lines of an entry: the key with the first line of its value, and the value's other lines. -/
def valueLines (line : Text → Text → Text) (key : Text) (value : Text × List Text) : List Text :=
  line key value.1 :: value.2

/-- The lines that `toml::to_string` makes, for a way to write the first line of an entry and a way
to write a string. -/
def layoutLines (line : Text → Text → Text) (written : Text → Text × List Text)
    (config : LocalConfig) : List Text :=
  ["[user]".toList] ++ valueLines line "username".toList (written config.user.username) ++
    [[], "[command]".toList] ++ valueLines line "check".toList (written config.command.check) ++
    valueLines line "install".toList (written config.command.install) ++
    valueLines line "launch".toList (written config.command.launch)

/-- A line that goes to the reader as it is: no try_ entry, and no blanks to trim. -/
structure Untouched (line : Text) : Prop where
  plain : isTry line = false
  tidy : tidy line = line

instance untouchedDecidable (line : Text) : Decidable (Untouched line) :=
  decidable_of_iff (isTry line = false ∧ tidy line = line)
    ⟨fun h => ⟨h.1, h.2⟩, fun h => ⟨h.plain, h.tidy⟩⟩

/-- A value whose written form the line rewriting does not reach into. -/
structure Undisturbed (value : Text × List Text) : Prop where
  first : Visible value.1
  rest : ∀ l ∈ value.2, Untouched l

/-- Every value of a configuration satisfies a property. -/
def EveryValue (P : Text → Prop) (config : LocalConfig) : Prop :=
  P config.user.username ∧ P config.command.check ∧ P config.command.install ∧
    P config.command.launch

/-- The keys that the line rewriting sees: those of the entries, and those of the further lines of
a value that look like entries. -/
def seenKeys (written : Text → Text × List Text) (config : LocalConfig) : List Text :=
  itemKeys ((layoutLines keyLine written config).map classify)

/-- A configuration whose saved lines the line rewriting does not change or mix up. -/
structure Intact (written : Text → Text × List Text) (config : LocalConfig) : Prop where
  values : EveryValue (fun s => Undisturbed (written s)) config
  keys : (seenKeys written config).Nodup

/-- A line that is written back as it is. -/
structure Steady (line : Text) : Prop where
  trimmed : Trimmed line
  plain : isTry line = false

private theorem Untouched.steady {line : Text} (h : Untouched line) : Steady line :=
  ⟨h.tidy ▸ trimmed_tidy line, h.plain⟩

theorem Steady.of_bare {line : Text} (htrimmed : Trimmed line) (hbare : '=' ∉ line) :
    Steady line := ⟨htrimmed, isTry_bare htrimmed hbare⟩

section Value

variable {v : Text × List Text} (hkey : PlainKey key) (hv : Undisturbed v)
include hkey hv

private theorem steady_valueLines : ∀ l ∈ valueLines keyLine key v, Steady l := by
  intro l hl
  rcases List.mem_cons.mp hl with rfl | hl
  · exact ⟨trimmed_keyLine hkey hv.first, isTry_keyLine hkey hv.first⟩
  · exact (hv.rest l hl).steady

private theorem map_tidy_valueLines :
    (valueLines keyLine key v).map tidy = valueLines entryLine key v := by
  have hrest : v.2.map tidy = v.2.map id :=
    List.map_congr_left fun l hl => (hv.rest l hl).tidy
  rw [valueLines, List.map_cons, tidy_keyLine hkey hv.first, hrest, List.map_id, valueLines]

end Value

def Broken (value : Text × List Text) : Prop := '\n' ∉ value.1 ∧ ∀ l ∈ value.2, '\n' ∉ l

private theorem newline_not_mem_valueLines {v : Text × List Text} (hkey : '\n' ∉ key)
    (hv : Broken v) :
    ∀ l ∈ valueLines keyLine key v, '\n' ∉ l := by
  intro l hl
  rcases List.mem_cons.mp hl with rfl | hl
  · simp [keyLine, hkey, hv.1]
  · exact hv.2 l hl

private theorem newline_not_mem_layoutLines {written : Text → Text × List Text}
    {config : LocalConfig}
    (hbroken : EveryValue (fun s => Broken (written s)) config) :
    ∀ l ∈ layoutLines keyLine written config, '\n' ∉ l := by
  obtain ⟨husername, hcheck, hinstall, hlaunch⟩ := hbroken
  have huser : ∀ l ∈ ["[user]".toList], '\n' ∉ l := by decide
  have hcommand : ∀ l ∈ [[], "[command]".toList], '\n' ∉ l := by decide
  intro l hl
  simp only [layoutLines, List.mem_append] at hl
  rcases hl with ((((hl | hl) | hl) | hl) | hl) | hl
  · exact huser l hl
  · exact newline_not_mem_valueLines (by decide) husername l hl
  · exact hcommand l hl
  · exact newline_not_mem_valueLines (by decide) hcheck l hl
  · exact newline_not_mem_valueLines (by decide) hinstall l hl
  · exact newline_not_mem_valueLines (by decide) hlaunch l hl

section Layout

variable {written : Text → Text × List Text} {config : LocalConfig} (h : Intact written config)
include h

theorem steady_layoutLines : ∀ l ∈ layoutLines keyLine written config, Steady l := by
  obtain ⟨husername, hcheck, hinstall, hlaunch⟩ := h.values
  have huser : ∀ l ∈ ["[user]".toList], Steady l := by
    intro l hl
    refine .of_bare ?_ ?_ <;> revert l <;> decide
  have hcommand : ∀ l ∈ [[], "[command]".toList], Steady l := by
    intro l hl
    refine .of_bare ?_ ?_ <;> revert l <;> decide
  intro l hl
  simp only [layoutLines, List.mem_append] at hl
  rcases hl with ((((hl | hl) | hl) | hl) | hl) | hl
  · exact huser l hl
  · exact steady_valueLines plainKey_username husername l hl
  · exact hcommand l hl
  · exact steady_valueLines plainKey_check hcheck l hl
  · exact steady_valueLines plainKey_install hinstall l hl
  · exact steady_valueLines plainKey_launch hlaunch l hl

private theorem map_tidy_layoutLines :
    (layoutLines keyLine written config).map tidy = layoutLines entryLine written config := by
  obtain ⟨husername, hcheck, hinstall, hlaunch⟩ := h.values
  have hheaders : ["[user]".toList].map tidy = ["[user]".toList] ∧
      [[], "[command]".toList].map tidy = [[], "[command]".toList] := by decide
  simp only [layoutLines, List.map_append, map_tidy_valueLines plainKey_username husername,
    map_tidy_valueLines plainKey_check hcheck, map_tidy_valueLines plainKey_install hinstall,
    map_tidy_valueLines plainKey_launch hlaunch, hheaders]

theorem overridden_layoutLines :
    overridden (layoutLines keyLine written config) = layoutLines entryLine written config := by
  have hplain : ∀ l ∈ layoutLines keyLine written config, isTry l = false :=
    fun l hl => (steady_layoutLines h l hl).plain
  rw [overridden_eq_tidy hplain h.keys, map_tidy_layoutLines h]

private theorem writeBack_layoutLines :
    (layoutLines keyLine written config).map writeBackLine = layoutLines keyLine written config := by
  have hkept : (layoutLines keyLine written config).map writeBackLine =
      (layoutLines keyLine written config).map id := by
    apply List.map_congr_left
    intro l hl
    have hsteady := steady_layoutLines h l hl
    exact writeBackLine_plain hsteady.trimmed hsteady.plain
  rw [hkept, List.map_id]

theorem wholeLine_layoutLines (hbroken : EveryValue (fun s => Broken (written s)) config) :
    ∀ l ∈ layoutLines keyLine written config, WholeLine l := by
  intro l hl
  refine ⟨newline_not_mem_layoutLines hbroken l hl, fun hlast => ?_⟩
  have hvisible := (steady_layoutLines h l hl).trimmed.2 '\r' hlast
  exact absurd hvisible (by decide)

end Layout

theorem intact_of_oneLine {written : Text → Text × List Text} {config : LocalConfig}
    (hvisible : EveryValue (fun s => Visible (written s).1) config)
    (hone : EveryValue (fun s => (written s).2 = []) config) : Intact written config := by
  obtain ⟨husername, hcheck, hinstall, hlaunch⟩ := hvisible
  obtain ⟨husername', hcheck', hinstall', hlaunch'⟩ := hone
  have hrest {v : Text × List Text} (hv : v.2 = []) : ∀ l ∈ v.2, Untouched l := by simp [hv]
  have hkeys {v : Text × List Text} {key : Text} (hkey : PlainKey key) (hfirst : Visible v.1)
      (hv : v.2 = []) : itemKeys ((valueLines keyLine key v).map classify) = [key] := by
    rw [valueLines, hv, List.map_singleton, classify_keyLine hkey hfirst]
    rfl
  have hheaders : itemKeys (["[user]".toList].map classify) = [] ∧
      itemKeys ([[], "[command]".toList].map classify) = [] := by decide
  refine ⟨⟨⟨husername, hrest husername'⟩, ⟨hcheck, hrest hcheck'⟩, ⟨hinstall, hrest hinstall'⟩,
    ⟨hlaunch, hrest hlaunch'⟩⟩, ?_⟩
  simp only [seenKeys, layoutLines, List.map_append, itemKeys_append,
    hkeys plainKey_username husername husername', hkeys plainKey_check hcheck hcheck',
    hkeys plainKey_install hinstall hinstall', hkeys plainKey_launch hlaunch hlaunch', hheaders]
  decide

/-- What is assumed of TOML for a configuration: `toml::to_string` writes it line by line, each value
with something visible at both ends of its first line, and it reads back, with the blanks around
`=` and without. -/
structure Restores (toml : Toml) (written : Text → Text × List Text) (config : LocalConfig) :
    Prop where
  saved : toml.toString config = unlines (layoutLines keyLine written config)
  broken : EveryValue (fun s => Broken (written s)) config
  visible : EveryValue (fun s => Visible (written s).1) config
  readsBack : toml.fromStr (toml.toString config) = some config
  readsTight : toml.fromStr (join (layoutLines entryLine written config)) = some config

section Restores

variable {toml : Toml} {written : Text → Text × List Text} {config : LocalConfig}
  (h : Restores toml written config)
include h

theorem Restores.intact (hrest : EveryValue (fun s => ∀ l ∈ (written s).2, Untouched l) config)
    (hkeys : (seenKeys written config).Nodup) : Intact written config := by
  obtain ⟨husername, hcheck, hinstall, hlaunch⟩ := h.visible
  obtain ⟨husername', hcheck', hinstall', hlaunch'⟩ := hrest
  exact ⟨⟨⟨husername, husername'⟩, ⟨hcheck, hcheck'⟩, ⟨hinstall, hinstall'⟩,
    ⟨hlaunch, hlaunch'⟩⟩, hkeys⟩

variable (hintact : Intact written config)
include hintact

private theorem Restores.lines_saved :
    lines (toml.toString config) = layoutLines keyLine written config := by
  rw [h.saved]
  exact lines_unlines (wholeLine_layoutLines hintact h.broken)

theorem Restores.fromStr_overridden :
    toml.fromStr (join (overridden (lines (toml.toString config)))) = some config := by
  rw [h.lines_saved hintact, overridden_layoutLines hintact]
  exact h.readsTight

theorem Restores.writeBack_saved :
    unlines ((lines (toml.toString config)).map writeBackLine) = toml.toString config := by
  rw [h.lines_saved hintact, writeBack_layoutLines hintact, h.saved]

end Restores

/-! Without anything to escape, saving writes each value between quotes. -/

def quotedLine (s : Text) : Text × List Text := (quoted s, [])

theorem savedLines_eq (config : LocalConfig) :
    savedLines config = layoutLines keyLine quotedLine config := rfl

private theorem broken_quotedLine {s : Text} (h : '\n' ∉ s) : Broken (quotedLine s) := by
  simp [Broken, quotedLine, quoted, h]

set_option maxRecDepth 2000 in
theorem broken_default : EveryValue (fun s => Broken (quotedLine s)) LocalConfig.default := by
  simp only [LocalConfig.default, CommandConfig.default]
  rw [show defaultCheck = _ from String.toList_ofList,
    show defaultInstall = _ from String.toList_ofList,
    show defaultLaunch = _ from String.toList_ofList]
  refine ⟨broken_quotedLine ?_, broken_quotedLine ?_, broken_quotedLine ?_,
    broken_quotedLine ?_⟩ <;> decide +kernel

theorem visible_quotedLine (config : LocalConfig) :
    EveryValue (fun s => Visible (quotedLine s).1) config :=
  ⟨visible_quoted _, visible_quoted _, visible_quoted _, visible_quoted _⟩

theorem intact_quotedLine (config : LocalConfig) : Intact quotedLine config :=
  intact_of_oneLine (visible_quotedLine config) ⟨rfl, rfl, rfl, rfl⟩

end LocalDesktop.Core.SavedLines
