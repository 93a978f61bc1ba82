/- GID: LocalDesktop/Core/Settled
   generality: G
   digest: From the second call of parse_config on, the result and the file stay as they are. -/

import LocalDesktop.Core.SavedLines
import LocalDesktop.Core.TryOnce

set_option autoImplicit false
set_option relaxedAutoImplicit false

namespace LocalDesktop.Core.Settled

open Foundation.Strings Foundation.Override Foundation.FileTree Foundation.Effects Platform Config
  ConfigLines ConfigRun TomlLayout LineToml TryOnce SavedLines

/-- The `n`th call of `parse_config`, with the calls before it. -/
def nthCall (toml : Toml) : Nat → App LocalConfig
  | n + 2 => do
      let _ ← parseConfig toml fullConfigPath
      nthCall toml (n + 1)
  | _ => parseConfig toml fullConfigPath

/-- The content that the line rewriting leaves. -/
def rewritten (content : Text) : Text := unlines ((lines content).map writeBackLine)

def effective (toml : Toml) (content : Text) : Option LocalConfig :=
  toml.fromStr (join (overridden (lines content)))

def result (toml : Toml) (content : Text) : LocalConfig :=
  (effective toml content).getD LocalConfig.default

def contentAfter (toml : Toml) (content : Text) : Text :=
  if (effective toml content).isSome then rewritten content
  else toml.toString LocalConfig.default

@[simp] theorem writeBackLine_writeBackLine (line : Text) :
    writeBackLine (writeBackLine line) = writeBackLine line := by
  rw [writeBackLine.eq_def (writeBackLine line), isTry_writeBackLine,
    trim_eq_self (trimmed_writeBackLine line)]
  simp

theorem wholeLine_of_rewritten {content line : Text}
    (hline : line ∈ (lines content).map writeBackLine) : WholeLine line := by
  obtain ⟨l, hl, rfl⟩ := List.mem_map.mp hline
  exact wholeLine_writeBackLine (newline_not_mem_of_mem_lines hl)

theorem rewritten_rewritten (content : Text) : rewritten (rewritten content) = rewritten content := by
  have hlines : lines (rewritten content) = (lines content).map writeBackLine :=
    lines_unlines fun _ hl => wholeLine_of_rewritten hl
  rw [rewritten, hlines, rewritten, List.map_map]
  congr 1
  apply List.map_congr_left
  intro l _
  exact writeBackLine_writeBackLine l

/-- The saved default, one line for each key. -/
structure RestoresDefault (toml : Toml) (written : Text → Text × List Text) : Prop
    extends Restores toml written LocalConfig.default where
  oneLine : EveryValue (fun s => (written s).2 = []) LocalConfig.default

section Default

variable {toml : Toml} {written : Text → Text × List Text} (h : RestoresDefault toml written)
include h

private theorem RestoresDefault.intact : Intact written LocalConfig.default :=
  intact_of_oneLine h.visible h.oneLine

private theorem rewritten_saved :
    rewritten (toml.toString LocalConfig.default) = toml.toString LocalConfig.default :=
  h.writeBack_saved h.intact

private theorem effective_saved :
    effective toml (toml.toString LocalConfig.default) = some LocalConfig.default :=
  h.fromStr_overridden h.intact

private theorem rewritten_contentAfter (content : Text) :
    rewritten (contentAfter toml content) = contentAfter toml content := by
  unfold contentAfter
  split
  · exact rewritten_rewritten content
  · exact rewritten_saved h

private theorem settles_of_rewritten {content : Text}
    (hfixed : rewritten content = content) :
    contentAfter toml (contentAfter toml content) = contentAfter toml content ∧
      result toml (contentAfter toml content) = result toml content := by
  cases heff : effective toml content with
  | some config =>
    have hafter : contentAfter toml content = content := by simp [contentAfter, heff, hfixed]
    rw [hafter]
    exact ⟨hafter, rfl⟩
  | none =>
    have hsaved := effective_saved h
    have hafter : contentAfter toml content = toml.toString LocalConfig.default := by
      simp [contentAfter, heff]
    rw [hafter]
    refine ⟨?_, ?_⟩
    · simp [contentAfter, hsaved, rewritten_saved h]
    · simp [result, heff, hsaved]

end Default

variable {toml : Toml} {written : Text → Text × List Text} (sv : Served) {t : Tree}

variable (toml) in
private theorem exec_parseConfig {content : Text} (hfile : HasText t fullConfigPath content) :
    ∃ t', exec (succeed sv) (parseConfig toml fullConfigPath) t =
        (.returned (result toml content), t') ∧
      HasText t' fullConfigPath (contentAfter toml content) := by
  cases heff : effective toml content with
  | some config =>
    have hafter : contentAfter toml content = rewritten content := by simp [contentAfter, heff]
    rw [hafter, result, heff]
    exact exec_parseConfig_of_some sv toml hfile heff
  | none =>
    have hafter : contentAfter toml content = toml.toString LocalConfig.default := by
      simp [contentAfter, heff]
    rw [hafter, result, heff]
    exact exec_parseConfig_of_none sv toml hfile heff

private theorem exec_parseConfig_unreadable (hroot : t.occupied archFsRoot = true)
    (hnone : ∀ content, ¬HasText t fullConfigPath content) :
    ∃ config t', exec (succeed sv) (parseConfig toml fullConfigPath) t = (.returned config, t') ∧
      HasText t' fullConfigPath (toml.toString LocalConfig.default) := by
  have hread : succeed sv (.readToString fullConfigPath) t = (none, t) := by
    simp only [succeed]
    split
    · rename_i content hget
      exact absurd hget (hnone content)
    · rfl
  obtain ⟨t₁, hsave, hsaved⟩ := exec_saveConfig sv toml hroot LocalConfig.default
  obtain ⟨t₂, hagain, hsavedAgain⟩ :=
    exec_saveConfig sv toml (occupied_of_hasText hsaved) LocalConfig.default
  have hprocess : exec (succeed sv) (processConfigFile toml fullConfigPath) t =
      (.returned [], t₁) := by
    simp only [processConfigFile, Program.bind_eq, Program.issue_bind, exec_op, hread]
    rw [exec_bind_ok _ hsave]
    rfl
  simp only [parseConfig, Program.bind_eq]
  rw [exec_bind_ok _ hprocess]
  cases hempty : toml.fromStr (join []) with
  | some config => exact ⟨config, t₁, rfl, hsaved⟩
  | none =>
    refine ⟨LocalConfig.default, t₂, ?_, hsavedAgain⟩
    dsimp only
    rw [exec_bind_ok _ hagain]
    rfl

private theorem exec_parseConfig_first (h : RestoresDefault toml written)
    (hroot : t.occupied archFsRoot = true) :
    ∃ config content t', exec (succeed sv) (parseConfig toml fullConfigPath) t =
        (.returned config, t') ∧
      HasText t' fullConfigPath content ∧ rewritten content = content := by
  by_cases hfile : ∃ content, HasText t fullConfigPath content
  · obtain ⟨content, hfile⟩ := hfile
    obtain ⟨t', hexec, htext⟩ := exec_parseConfig toml sv hfile
    exact ⟨_, _, t', hexec, htext, rewritten_contentAfter h content⟩
  · obtain ⟨config, t', hexec, htext⟩ :=
      exec_parseConfig_unreadable sv hroot fun content hcontent => hfile ⟨content, hcontent⟩
    exact ⟨config, _, t', hexec, htext, rewritten_saved h⟩

private theorem exec_nthCall {content : Text} (hfixed : contentAfter toml content = content)
    (n : Nat)
    {t : Tree} (hfile : HasText t fullConfigPath content) :
    ∃ t', exec (succeed sv) (nthCall toml (n + 1)) t = (.returned (result toml content), t') ∧
      HasText t' fullConfigPath content := by
  obtain ⟨t₁, hexec, htext⟩ := exec_parseConfig toml sv hfile
  rw [hfixed] at htext
  induction n generalizing t t₁ with
  | zero => exact ⟨t₁, hexec, htext⟩
  | succ n ih =>
    obtain ⟨t₂, hexec₂, htext₂⟩ := exec_parseConfig toml sv htext
    rw [hfixed] at htext₂
    simp only [nthCall, Program.bind_eq]
    rw [exec_bind_ok _ hexec]
    exact ih htext t₂ hexec₂ htext₂

/-- From the second call on, the configuration and the file are always the same. -/
theorem parse_config_settles (h : RestoresDefault toml written)
    (hroot : t.occupied archFsRoot = true) :
    ∃ config content, ∀ n, 2 ≤ n → ∃ t', exec (succeed sv) (nthCall toml n) t =
        (.returned config, t') ∧ HasText t' fullConfigPath content := by
  obtain ⟨first, content, t₁, hexec, htext, hrewritten⟩ := exec_parseConfig_first sv h hroot
  obtain ⟨hsettled, hresult⟩ := settles_of_rewritten h hrewritten
  refine ⟨result toml content, contentAfter toml content, ?_⟩
  intro n hn
  obtain ⟨m, rfl⟩ := Nat.exists_eq_add_of_le' hn
  simp only [nthCall, Program.bind_eq]
  rw [exec_bind_ok _ hexec]
  obtain ⟨t₂, hsecond, htext₂⟩ := exec_parseConfig toml sv htext
  cases m with
  | zero => exact ⟨t₂, hsecond, htext₂⟩
  | succ m =>
    simp only [nthCall, Program.bind_eq]
    rw [exec_bind_ok _ hsecond, ← hresult]
    exact exec_nthCall sv hsettled m htext₂

private theorem restoresDefault_lineToml : RestoresDefault lineToml quotedLine where
  saved := congrArg unlines (savedLines_eq LocalConfig.default)
  broken := broken_default
  visible := visible_quotedLine LocalConfig.default
  readsBack := by
    rw [laws_lineToml.saved]
    exact laws_lineToml.readsBack
  readsTight := by
    have htight := fromStr_overridden_saved laws_lineToml
    rwa [savedDefault, lines_unlines wholeLine_savedLines, savedLines_eq,
      overridden_layoutLines (intact_quotedLine LocalConfig.default)] at htight
  oneLine := ⟨rfl, rfl, rfl, rfl⟩

theorem parse_config_settles_on_ill_typed_try :
    ∃ config content, ∀ n, 2 ≤ n →
      ∃ t', exec (succeed nothingServed) (nthCall lineToml n) (storing illTyped) =
        (.returned config, t') ∧ HasText t' fullConfigPath content :=
  parse_config_settles nothingServed restoresDefault_lineToml
    (occupied_of_hasText (hasText_storing illTyped))

end LocalDesktop.Core.Settled
