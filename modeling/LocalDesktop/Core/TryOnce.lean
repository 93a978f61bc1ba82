/- GID: LocalDesktop/Core/TryOnce
   generality: G
   digest: A try_ entry lasts for one run of parse_config, as long as the document stays readable. -/

import LocalDesktop.Core.ConfigRun
import LocalDesktop.Core.LineToml
import LocalDesktop.Core.SavedLines

set_option autoImplicit false
set_option relaxedAutoImplicit false

namespace LocalDesktop.Core.TryOnce

open Foundation.Strings Foundation.Override Foundation.FileTree Foundation.Effects Platform Config
  ConfigLines ConfigRun TomlScan TomlLayout LineToml SavedLines

def plainLines (content : Text) : List Text := (lines content).filter fun l => !isTry l

/-- A file as the documentation asks for it. -/
structure Documented (content : Text) : Prop where
  singleLine : ∀ l ∈ plainLines content, SingleLine l
  uniqueKeys : (itemKeys (((plainLines content).map classify).filter significantItem)).Nodup

private theorem Documented.plain {content : Text} (h : Documented content) :
    Plain (plainLines content) where
  noTry l hl := by simpa using (List.mem_filter.mp hl).2
  uniqueKeys := h.uniqueKeys

private theorem steady_savedLines : ∀ l ∈ savedLines LocalConfig.default ++ [[]], Steady l := by
  intro l hl
  rcases List.mem_append.mp hl with hl | hl
  · rw [savedLines_eq] at hl
    exact steady_layoutLines (intact_quotedLine LocalConfig.default) l hl
  · cases List.mem_singleton.mp hl
    exact .of_bare (by decide) (by decide)

theorem wholeLine_savedLines : ∀ l ∈ savedLines LocalConfig.default, WholeLine l := by
  rw [savedLines_eq]
  exact wholeLine_layoutLines (intact_quotedLine LocalConfig.default) broken_default

private theorem plain_savedLines : Plain (savedLines LocalConfig.default ++ [[]]) where
  noTry l hl := (steady_savedLines l hl).plain
  uniqueKeys := by
    have hkeys := (intact_quotedLine LocalConfig.default).keys
    have hblank : itemKeys ([[]].map classify) = [] := by decide
    have hall : (itemKeys ((savedLines LocalConfig.default ++ [[]]).map classify)).Nodup := by
      rw [savedLines_eq, List.map_append, itemKeys_append, hblank, List.append_nil]
      exact hkeys
    exact hall.sublist (List.filter_sublist.filterMap _)

set_option maxRecDepth 2000 in
private theorem singleLine_savedLines :
    ∀ l ∈ savedLines LocalConfig.default ++ [[]], SingleLine l := by
  simp only [savedLines, LocalConfig.default, CommandConfig.default]
  rw [show defaultCheck = _ from String.toList_ofList,
    show defaultInstall = _ from String.toList_ofList,
    show defaultLaunch = _ from String.toList_ofList]
  decide +kernel

variable {toml : Toml} (sv : Served) {t : Tree} {content : Text}

theorem fromStr_overridden_saved (laws : Laws toml) :
    toml.fromStr (join (overridden (lines savedDefault))) = some LocalConfig.default := by
  have hlines : lines savedDefault = savedLines LocalConfig.default :=
    lines_unlines wholeLine_savedLines
  have hjoin : join (savedLines LocalConfig.default ++ [[]]) = savedDefault := by
    rw [savedDefault, join_concat_nil]
  rw [hlines]
  refine laws.fromStr_overridden plain_savedLines singleLine_savedLines ?_ ?_ ?_
  · intro l hl
    exact ⟨plain_savedLines.noTry l (List.mem_append_left _ hl), (wholeLine_savedLines l hl).1⟩
  · have hblank : significantItem (classify []) = false := by decide
    simp [hblank]
  · rw [hjoin]
    exact laws.readsBack

def illTyped : Text := "[user]\nusername = \"alice\"\ntry_username = 5\n".toList

end LocalDesktop.Core.TryOnce
