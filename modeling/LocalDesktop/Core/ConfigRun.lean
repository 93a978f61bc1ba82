/- GID: LocalDesktop/Core/ConfigRun
   generality: G
   digest: What parse_config returns and leaves behind when every file operation succeeds. -/

import LocalDesktop.Core.ConfigLines

set_option autoImplicit false
set_option relaxedAutoImplicit false

namespace LocalDesktop.Core.ConfigRun

open Foundation.Strings Foundation.FileTree Foundation.Effects Platform Config ConfigLines

variable (sv : Served) (toml : Toml) {t : Tree} {p : Path} {content : Text}

def HasText (t : Tree) (p : Path) (content : Text) : Prop :=
  t.get p = some (.file (.text content))

private theorem exec_writeLines {x : Text} (h : HasText t p x) (ls : List Text) :
    ∃ t', exec (succeed sv) (writeLines p ls) t = (.returned (), t') ∧
      HasText t' p (x ++ unlines ls) ∧ ∀ q, p ≠ q → t'.get q = t.get q := by
  induction ls generalizing t x with
  | nil => exact ⟨t, rfl, by simpa [unlines] using h, fun _ _ => rfl⟩
  | cons line ls ih =>
    have hline : HasText (t.set p (.file (.text (x ++ (line ++ ['\n']))))) p
        (x ++ (line ++ ['\n'])) := get_set_self _ _ _
    obtain ⟨t', hexec, htext, hframe⟩ := ih hline
    refine ⟨t', ?_, ?_, fun q hq => ?_⟩
    · have hwrite : succeed sv (.writeLine p line) t =
          (true, t.set p (.file (.text (x ++ (line ++ ['\n']))))) := by
        simp only [succeed, show t.get p = _ from h]
      simpa [writeLines, hwrite] using hexec
    · simpa [unlines] using htext
    · rw [hframe q hq, get_set_of_ne hq]

theorem occupied_of_hasText (h : HasText t fullConfigPath content) :
    t.occupied archFsRoot = true :=
  occupied_of_get (q := fullConfigPath) ⟨configFile, rfl⟩ (by decide) (by rw [h]; rfl)

/-! Saving replaces the file, and what was there goes to `localdesktop.bak`. -/

private theorem bak_apart : ¬withExtension fullConfigPath "bak" <+: fullConfigPath ∧
    ¬fullConfigPath <+: withExtension fullConfigPath "bak" := by
  decide

private theorem exec_saveConfig_aside (h : t.occupied archFsRoot = true) (config : LocalConfig) :
    ∃ t', exec (succeed sv) (saveConfig toml config) t = (.returned (), t') ∧
      HasText t' fullConfigPath (toml.toString config) ∧
      ∀ content, HasText t fullConfigPath content →
        t.occupied (withExtension fullConfigPath "bak") = false →
        HasText t' (withExtension fullConfigPath "bak") content := by
  by_cases hexists : (t.get fullConfigPath).isSome = true
  · cases hfree : t.occupied (withExtension fullConfigPath "bak") with
    | true => simp [saveConfig, backUp, succeed, h, hexists, hfree, pbExpect, HasText]
    | false =>
      refine ⟨((t.move fullConfigPath (withExtension fullConfigPath "bak")).mkdirs
        fullConfigPath.dropLast).set fullConfigPath (.file (.text (toml.toString config))),
        by simp [saveConfig, backUp, succeed, h, hexists, hfree, pbExpect], get_set_self _ _ _, ?_⟩
      intro content htext _
      have hne : fullConfigPath ≠ withExtension fullConfigPath "bak" := fun heq =>
        bak_apart.2 (heq ▸ List.prefix_refl _)
      rw [HasText, get_set_of_ne hne, get_mkdirs, get_move_target bak_apart.1 bak_apart.2, htext]
      rfl
  · have hnone : t.get fullConfigPath = none := by simpa using hexists
    simp [saveConfig, backUp, succeed, h, hnone, pbExpect, HasText]

theorem exec_saveConfig (h : t.occupied archFsRoot = true) (config : LocalConfig) :
    ∃ t', exec (succeed sv) (saveConfig toml config) t = (.returned (), t') ∧
      HasText t' fullConfigPath (toml.toString config) := by
  obtain ⟨t', hexec, htext, -⟩ := exec_saveConfig_aside sv toml h config
  exact ⟨t', hexec, htext⟩

private theorem exec_processConfigFile_frame (h : HasText t p content) :
    ∃ t', exec (succeed sv) (processConfigFile toml p) t =
        (.returned (overridden (lines content)), t') ∧
      HasText t' p (unlines ((lines content).map writeBackLine)) ∧
      ∀ q, p ≠ q → t'.get q = t.get q := by
  have htrunc : HasText (t.set p (.file (.text []))) p [] := get_set_self _ _ _
  obtain ⟨t', hexec, htext, hframe⟩ :=
    exec_writeLines sv htrunc ((lines content).map writeBackLine)
  refine ⟨t', ?_, htext, fun q hq => by rw [hframe q hq, get_set_of_ne hq]⟩
  have hread : succeed sv (.readToString p) t = (some content, t) := by
    simp only [succeed, show t.get p = _ from h]
  have hopen : succeed sv (.openTruncate p) t = (true, t.set p (.file (.text []))) := by
    simp only [succeed, show t.get p = _ from h]
  simp only [processConfigFile, Program.bind_eq, Program.issue_bind, exec_op, hread, hopen,
    processLines_eq, if_true]
  rw [exec_bind_ok _ hexec]
  rfl

theorem exec_processConfigFile (h : HasText t p content) :
    ∃ t', exec (succeed sv) (processConfigFile toml p) t =
        (.returned (overridden (lines content)), t') ∧
      HasText t' p (unlines ((lines content).map writeBackLine)) := by
  obtain ⟨t', hexec, htext, -⟩ := exec_processConfigFile_frame sv toml h
  exact ⟨t', hexec, htext⟩

theorem exec_parseConfig_of_some {config : LocalConfig} (h : HasText t p content)
    (hparse : toml.fromStr (join (overridden (lines content))) = some config) :
    ∃ t', exec (succeed sv) (parseConfig toml p) t = (.returned config, t') ∧
      HasText t' p (unlines ((lines content).map writeBackLine)) := by
  obtain ⟨t', hexec, htext⟩ := exec_processConfigFile sv toml h
  refine ⟨t', ?_, htext⟩
  simp only [parseConfig, Program.bind_eq]
  rw [exec_bind_ok _ hexec]
  simp [hparse]

/-- A file that does not deserialize is moved aside and replaced by the saved default. -/
theorem exec_parseConfig_aside (h : HasText t fullConfigPath content)
    (hparse : toml.fromStr (join (overridden (lines content))) = none) :
    ∃ t', exec (succeed sv) (parseConfig toml fullConfigPath) t =
        (.returned LocalConfig.default, t') ∧
      HasText t' fullConfigPath (toml.toString LocalConfig.default) ∧
      (t.occupied (withExtension fullConfigPath "bak") = false →
        HasText t' (withExtension fullConfigPath "bak")
          (unlines ((lines content).map writeBackLine))) := by
  obtain ⟨t₁, hexec, htext, hframe⟩ := exec_processConfigFile_frame sv toml h
  obtain ⟨t₂, hsave, hsaved, haside⟩ := exec_saveConfig_aside sv toml
    (occupied_of_hasText htext) LocalConfig.default
  refine ⟨t₂, ?_, hsaved, fun hfree => haside _ htext ?_⟩
  · simp only [parseConfig, Program.bind_eq]
    rw [exec_bind_ok _ hexec]
    simp only [hparse]
    rw [exec_bind_ok _ hsave]
    rfl
  · have hbelow : SameBelow (withExtension fullConfigPath "bak") t t₁ := by
      intro q hq
      refine hframe q ?_
      rintro rfl
      exact bak_apart.1 hq
    rw [hbelow.occupied_eq, hfree]

theorem exec_parseConfig_of_none (h : HasText t fullConfigPath content)
    (hparse : toml.fromStr (join (overridden (lines content))) = none) :
    ∃ t', exec (succeed sv) (parseConfig toml fullConfigPath) t =
        (.returned LocalConfig.default, t') ∧
      HasText t' fullConfigPath (toml.toString LocalConfig.default) := by
  obtain ⟨t', hexec, htext, -⟩ := exec_parseConfig_aside sv toml h hparse
  exact ⟨t', hexec, htext⟩

theorem exec_parseConfig_fst (h : HasText t fullConfigPath content) :
    (exec (succeed sv) (parseConfig toml fullConfigPath) t).1 =
      .returned ((toml.fromStr (join (overridden (lines content)))).getD LocalConfig.default) := by
  cases hparse : toml.fromStr (join (overridden (lines content))) with
  | none =>
    obtain ⟨t', hexec, -⟩ := exec_parseConfig_of_none sv toml h hparse
    rw [hexec]
    rfl
  | some config =>
    obtain ⟨t', hexec, -⟩ := exec_parseConfig_of_some sv toml h hparse
    rw [hexec]
    rfl

/-! A storage with nothing but the config file, for inputs written out. -/

def nothingServed : Served := ⟨[], [], "", fun _ => true⟩

def storing (content : Text) : Tree := (Tree.mk []).set fullConfigPath (.file (.text content))

theorem hasText_storing (content : Text) :
    HasText (storing content) fullConfigPath content := get_set_self _ _ _

def alice : LocalConfig := ⟨⟨"alice".toList⟩, CommandConfig.default⟩

end LocalDesktop.Core.ConfigRun
