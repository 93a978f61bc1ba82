/- GID: LocalDesktop/Core/SaveParse
   generality: G
   digest: When parse_config gives back the configuration that save_config wrote. -/

import LocalDesktop.Core.ConfigRun
import LocalDesktop.Core.StringToml

set_option autoImplicit false
set_option relaxedAutoImplicit false

namespace LocalDesktop.Core.SaveParse

open Foundation.Strings Foundation.FileTree Foundation.Effects Platform Config ConfigLines
  ConfigRun SavedLines StringToml

/-- `save_config(&config)`, and `parse_config` right after it. -/
def saveThenParse (toml : Toml) (config : LocalConfig) : App LocalConfig := do
  saveConfig toml config
  parseConfig toml fullConfigPath

/-- What is assumed of TOML: every configuration reads back, and a value takes more than its one
line only if there is a newline in it. -/
structure Serializer (toml : Toml) (written : Text → Text × List Text) : Prop where
  restores : ∀ config, Restores toml written config
  oneLine : ∀ s, '\n' ∉ s → (written s).2 = []
  spread : ∀ s, '\n' ∈ s → (written s).1 = threeQuotes ∨ (written s).1 = ['\'', '\'', '\'']

/-- No further line of a string is a try_ entry or has blanks that the line rewriting trims, and no
two lines of the file have the same key before their `=`. -/
structure Inert (written : Text → Text × List Text) (config : LocalConfig) : Prop where
  rest : EveryValue (fun s => ∀ l ∈ (written s).2, Untouched l) config
  keys : (seenKeys written config).Nodup

def SingleLines : LocalConfig → Prop := EveryValue fun s => '\n' ∉ s

variable {toml : Toml} {written : Text → Text × List Text} {config : LocalConfig}

private theorem Serializer.intact (h : Serializer toml written)
    (hconfig : SingleLines config ∨ Inert written config) : Intact written config := by
  have hrestores := h.restores config
  rcases hconfig with ⟨husername, hcheck, hinstall, hlaunch⟩ | hinert
  · exact intact_of_oneLine hrestores.visible ⟨h.oneLine _ husername, h.oneLine _ hcheck,
      h.oneLine _ hinstall, h.oneLine _ hlaunch⟩
  · exact hrestores.intact hinert.rest hinert.keys

variable (sv : Served) {t : Tree}

private theorem exec_saveThenParse (hroot : t.occupied archFsRoot = true) :
    (exec (succeed sv) (saveThenParse toml config) t).1 =
      .returned ((toml.fromStr (join (overridden (lines (toml.toString config))))).getD
        LocalConfig.default) := by
  obtain ⟨t', hexec, htext⟩ := exec_saveConfig sv toml hroot config
  rw [saveThenParse, Program.bind_eq, exec_bind_ok _ hexec, exec_parseConfig_fst sv toml htext]

/-- What was saved is what is parsed, unless a string has a newline and a line after it that the
line rewriting changes or takes for an entry met before. -/
theorem parse_config_returns_saved (h : Serializer toml written)
    (hconfig : SingleLines config ∨ Inert written config) (hroot : t.occupied archFsRoot = true) :
    (exec (succeed sv) (saveThenParse toml config) t).1 = .returned config := by
  rw [exec_saveThenParse sv hroot, (h.restores config).fromStr_overridden (h.intact hconfig)]
  rfl

private theorem serializer_stringToml : Serializer stringToml writtenString where
  restores := restores_stringToml
  oneLine s hs := by simp [writtenString, hs]
  spread s hs := by simp [writtenString, hs]

def twoLines : LocalConfig :=
  ⟨⟨"alice".toList⟩, ⟨" a = b".toList, "try_c=d".toList, "export A=1\nstart".toList⟩⟩

def indented : LocalConfig :=
  ⟨⟨"alice".toList⟩, ⟨"a".toList, "b".toList, "one\n  two".toList⟩⟩

private theorem inert_twoLines : Inert writtenString twoLines where
  rest := ⟨by decide +kernel, by decide +kernel, by decide +kernel, by decide +kernel⟩
  keys := by decide +kernel

theorem parse_config_returns_two_lines :
    (exec (succeed nothingServed) (saveThenParse stringToml twoLines) (storing [])).1 =
      .returned twoLines :=
  parse_config_returns_saved nothingServed serializer_stringToml (Or.inr inert_twoLines)
    (occupied_of_hasText (hasText_storing []))

/-- The second line of a saved string loses its indentation. -/
theorem parse_config_drops_indentation :
    ¬∀ (toml : Toml) (written : Text → Text × List Text) (sv : Served) (t : Tree)
      (config : LocalConfig), Serializer toml written → t.occupied archFsRoot = true →
      (exec (succeed sv) (saveThenParse toml config) t).1 = .returned config := by
  intro h
  have hroot := occupied_of_hasText (hasText_storing [])
  have hclaimed := h stringToml writtenString nothingServed (storing []) indented
    serializer_stringToml hroot
  rw [exec_saveThenParse nothingServed hroot] at hclaimed
  have hread : stringToml.fromStr (join (overridden (lines (stringToml.toString indented)))) =
      some ⟨⟨"alice".toList⟩, ⟨"a".toList, "b".toList, "one\ntwo".toList⟩⟩ := by
    decide +kernel
  rw [hread] at hclaimed
  exact absurd (Outcome.returned.inj hclaimed) (by decide)

end LocalDesktop.Core.SaveParse
