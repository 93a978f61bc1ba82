/- GID: LocalDesktop/Core/EffectiveLines
   generality: G
   digest: The lines process_config_file returns, place by place, and the file it writes back. -/

import LocalDesktop.Core.Settled

set_option autoImplicit false
set_option relaxedAutoImplicit false

namespace LocalDesktop.Core.EffectiveLines

open Foundation.Strings Foundation.Override Foundation.FileTree Foundation.Effects Platform Config
  ConfigLines ConfigRun TomlLayout LineToml Settled

/-- What the `i`th line becomes: itself without `=`, the entry that wins at the first place of a
key, and nothing at its other places. -/
def effectiveAt (ls : List Text) (i : Nat) (line : Text) : Option Text :=
  match classify line with
  | .other l => some l
  | .entry _ k _ =>
      if k ∈ itemKeys ((ls.take i).map classify) then none
      else (winner k (ls.map classify)).map (entryLine k)

def effectiveLines (content : Text) : List Text :=
  (lines content).zipIdx.filterMap fun p => effectiveAt (lines content) p.2 p.1

def withoutTry (content : Text) : Text := keepLines (fun l => !isTry l) content

def isComment (line : Text) : Bool := decide (line.head? = some '#')

def uncommented (ls : List Text) : List Text := ls.filter fun l => !isComment l

def activeItem : Item → Bool := Item.selected (fun l => !isComment l) fun k => !isComment k

def activeSlot : Slot → Bool := Slot.selected (fun l => !isComment l) fun k => !isComment k

variable {content : Text}

private theorem slotAt_classify (ls : List Text) (i : Nat) (line : Text) :
    (slotAt (ls.map classify) i (classify line)).map slotLine = effectiveAt ls i line := by
  unfold slotAt effectiveAt
  cases classify line with
  | other l => rfl
  | entry t k v =>
    dsimp only
    rw [← List.map_take]
    split
    · rfl
    · cases winner k (ls.map classify) <;> rfl

private theorem overridden_eq_effectiveLines (content : Text) :
    overridden (lines content) = effectiveLines content := by
  rw [overridden, resolve_eq_filterMap, List.map_filterMap, List.zipIdx_map, List.filterMap_map]
  exact congrArg (List.filterMap · _) (funext fun p => slotAt_classify _ p.2 p.1)

/-! What is returned does not depend on how the rewriting goes. -/

private theorem exec_writeLines_returned {σ : Type} (handle : Handler Op Res σ) (p : Path)
    (ls : List Text)
    (s : σ) : ∃ t, exec handle (writeLines p ls) s = (.returned (), t) := by
  induction ls generalizing s with
  | nil => exact ⟨s, rfl⟩
  | cons line ls ih =>
    simp only [writeLines, Program.bind_eq, Program.issue_bind, exec_op]
    split
    · exact ih _
    · exact ⟨_, rfl⟩

/-- Once the file is read, its effective lines are returned, whatever the other file operations
do. -/
theorem process_config_file_returns {σ : Type} (handle : Handler Op Res σ) (toml : Toml) {p : Path}
    {s : σ} (hread : (handle (.readToString p) s).1 = some content) :
    (exec handle (processConfigFile toml p) s).1 = .returned (effectiveLines content) := by
  simp only [processConfigFile, Program.bind_eq, Program.issue_bind, exec_op, hread,
    processLines_eq, overridden_eq_effectiveLines]
  split
  · obtain ⟨t, hwrite⟩ := exec_writeLines_returned handle p ((lines content).map writeBackLine) _
    rw [exec_bind_ok _ hwrite]
    rfl
  · rfl

set_option maxRecDepth 2000 in
theorem process_config_file_returns_overridden :
    (exec (succeed nothingServed) (processConfigFile lineToml fullConfigPath)
      (storing "a = 1\ntry_a = 2\n\nab = 3\na = 4".toList)).1 =
      .returned ["a=2".toList, [], "ab=3".toList] := by
  rw [process_config_file_returns (succeed nothingServed) lineToml rfl]
  have hliteral : "a = 1\ntry_a = 2\n\nab = 3\na = 4".toList = _ := String.toList_ofList
  rw [hliteral]
  decide +kernel

/-! What is written back. -/

private theorem activeItem_of_plain {line : Text} (h : isTry line = false) :
    activeItem (classify line) = !isComment (trim line) := by
  unfold classify
  cases hsplit : splitOnce '=' (trim line) with
  | none => rfl
  | some kv =>
    have hplain : tryPrefix.isPrefixOf (trim kv.1) = false := by
      simpa only [isTry, hsplit] using h
    have hhead := head?_trim_key (k := kv.1) (v := kv.2) hsplit '#' (by decide)
    simp only [hplain, Bool.false_eq_true, if_false]
    simp only [activeItem, Item.selected, isComment, hhead]

private theorem uncommented_overridden (ls : List Text) :
    uncommented (overridden ls) =
      (resolve ((ls.map classify).filter activeItem)).map slotLine := by
  have hslot : (fun l => !isComment l) ∘ slotLine = activeSlot := by
    funext s
    cases s with
    | other l => rfl
    | entry k v => cases k <;> simp [isComment, entryLine, activeSlot, Slot.selected]
  rw [uncommented, overridden, List.filter_map, hslot, activeSlot, resolve_filter, activeItem]

private theorem active_writtenBack (ls : List Text) :
    ((ls.map writeBackLine).map classify).filter activeItem =
      ((ls.filter fun l => !isTry l).map classify).filter activeItem := by
  induction ls with
  | nil => rfl
  | cons l ls ih =>
    cases htry : isTry l with
    | true =>
      have hcomment : activeItem (classify (writeBackLine l)) = false := by
        rw [activeItem_of_plain (isTry_writeBackLine l), trim_eq_self (trimmed_writeBackLine l),
          isComment, head?_writeBackLine_of_try htry]
        rfl
      simpa [htry, hcomment] using ih
    | false =>
      have hsame := classify_writeBackLine_of_plain htry
      simp only [List.map_cons, List.filter_cons, hsame, htry, Bool.not_false, if_true, ih]

private theorem isTry_trim (line : Text) : isTry (trim line) = isTry line := by
  rw [isTry, trim_trim, isTry]

private theorem lines_rewritten (content : Text) :
    lines (rewritten content) = (lines content).map writeBackLine :=
  lines_unlines fun _ hl => wholeLine_of_rewritten hl

private theorem lines_withoutTry (content : Text) :
    lines (withoutTry content) = (lines content).filter fun l => !isTry l :=
  lines_keepLines (fun l => by rw [isTry_trim]) content

private theorem uncommented_rewritten (content : Text) :
    uncommented (effectiveLines (rewritten content)) =
      uncommented (effectiveLines (withoutTry content)) := by
  rw [← overridden_eq_effectiveLines, ← overridden_eq_effectiveLines, uncommented_overridden,
    uncommented_overridden, lines_rewritten, lines_withoutTry, active_writtenBack]

private theorem isTry_of_rewritten {line : Text} (hline : line ∈ lines (rewritten content)) :
    isTry line = false := by
  rw [lines_rewritten] at hline
  obtain ⟨l, -, rfl⟩ := List.mem_map.mp hline
  exact isTry_writeBackLine l

private theorem exec_effectiveLines (sv : Served) (toml : Toml) {t : Tree} {p : Path}
    (hfile : HasText t p content) :
    ∃ t', exec (succeed sv) (processConfigFile toml p) t = (.returned (effectiveLines content), t') ∧
      HasText t' p (rewritten content) := by
  rw [← overridden_eq_effectiveLines]
  exact exec_processConfigFile sv toml hfile

/-- The first run puts each line back trimmed, behind `# ` if it is a try_ entry. The second run
writes the same again, and apart from comments it returns what a run on the file without its try_
entries returns. -/
theorem process_config_file_writes_back (sv : Served) (toml : Toml) {t : Tree} {p : Path}
    (hfile : HasText t p content) :
    ∃ back first second t₁ t₂,
      exec (succeed sv) (processConfigFile toml p) t = (.returned first, t₁) ∧
      HasText t₁ p back ∧
      exec (succeed sv) (processConfigFile toml p) t₁ = (.returned second, t₂) ∧
      HasText t₂ p back ∧
      lines back = (lines content).map writeBackLine ∧
      (∀ line ∈ lines back, isTry line = false) ∧
      ∀ t₃, HasText t₃ p (withoutTry content) → ∃ plain t₄,
        exec (succeed sv) (processConfigFile toml p) t₃ = (.returned plain, t₄) ∧
        uncommented second = uncommented plain := by
  obtain ⟨t₁, hfirst, hback⟩ := exec_effectiveLines sv toml hfile
  obtain ⟨t₂, hsecond, hagain⟩ := exec_effectiveLines sv toml hback
  rw [rewritten_rewritten] at hagain
  refine ⟨rewritten content, _, _, t₁, t₂, hfirst, hback, hsecond, hagain, lines_rewritten content,
    fun line hline => isTry_of_rewritten hline, ?_⟩
  intro t₃ hplain
  obtain ⟨t₄, hthird, -⟩ := exec_effectiveLines sv toml hplain
  exact ⟨_, t₄, hthird, uncommented_rewritten content⟩

def tried : Text := "try_a = 2\r\n  a = 1\n# b = 3\n".toList

theorem process_config_file_writes_tried_back :
    ∃ back first second t₁ t₂,
      exec (succeed nothingServed) (processConfigFile lineToml fullConfigPath) (storing tried) =
        (.returned first, t₁) ∧
      HasText t₁ fullConfigPath back ∧
      exec (succeed nothingServed) (processConfigFile lineToml fullConfigPath) t₁ =
        (.returned second, t₂) ∧
      HasText t₂ fullConfigPath back ∧
      lines back = ["# try_a = 2".toList, "a = 1".toList, "# b = 3".toList] := by
  obtain ⟨back, first, second, t₁, t₂, hfirst, hback, hsecond, hagain, hlines, -⟩ :=
    process_config_file_writes_back nothingServed lineToml (hasText_storing tried)
  have hliteral : tried = _ := String.toList_ofList
  have hwritten : (lines tried).map writeBackLine =
      ["# try_a = 2".toList, "a = 1".toList, "# b = 3".toList] := by
    rw [hliteral]
    decide +kernel
  exact ⟨back, first, second, t₁, t₂, hfirst, hback, hsecond, hagain, hlines.trans hwritten⟩

end LocalDesktop.Core.EffectiveLines
