/- GID: LocalDesktop/Core/UserText
   generality: G
   digest: parse_config on a storage on which some of its writes fail, and what is left of the file. -/

import LocalDesktop.Core.ConfigRun
import LocalDesktop.Core.LineToml

set_option autoImplicit false
set_option relaxedAutoImplicit false

namespace LocalDesktop.Core.UserText

open Foundation.Strings Foundation.FileTree Foundation.Effects Platform Config ConfigLines
  ConfigRun TomlLayout LineToml

/-- The operations that fail: the opening with truncation, the write of the line with a number,
the rename to the backup, the final write. -/
structure Faults where
  opening : Bool
  line : Option Nat
  backup : Bool
  saving : Bool

/-- How much a failing write leaves: of the line, and of the saved text unless the file is not even
opened. -/
structure Cut where
  line : Nat
  saved : Option Nat

/-- The storage, and how many lines were written to it. -/
abbrev Storage := Tree × Nat

def appendText (p : Path) (x : Text) (t : Tree) : Tree :=
  match t.get p with
  | some (.file (.text y)) => t.set p (.file (.text (y ++ x)))
  | _ => t

section Handler

variable (sv : Served)

def carry (o : Op) (s : Storage) : Res o × Storage :=
  ((succeed sv o s.1).1, ((succeed sv o s.1).2, s.2))

/-- A storage on which nothing fails but the named operations. -/
def faulty (f : Faults) (cut : Cut) : Handler Op Res Storage
  | .openTruncate p, s => if f.opening then (false, s) else carry sv (.openTruncate p) s
  | .writeLine p line, s =>
      if f.line = some s.2 then
        (false, (appendText p ((line ++ ['\n']).take cut.line) s.1, s.2 + 1))
      else ((succeed sv (.writeLine p line) s.1).1,
        ((succeed sv (.writeLine p line) s.1).2, s.2 + 1))
  | .rename p q, s => if f.backup then (false, s) else carry sv (.rename p q) s
  | .write p x, s =>
      if f.saving then
        (false, (match cut.saved with
          | none => s.1
          | some k => s.1.set p (.file (.text (x.take k))), s.2))
      else carry sv (.write p x) s
  | o, s => carry sv o s

private theorem scribbled_appendText (p : Path) (x : Text) (t : Tree) :
    Scribbled p t (appendText p x t) := by
  unfold appendText
  split
  · exact Or.inr ⟨_, rfl⟩
  · exact Or.inl rfl

theorem step_faulty {w : World} {sv : Served}
    (hstep : ∀ o t, step w o t (succeed sv o t).1 (succeed sv o t).2)
    (f : Faults) (cut : Cut) (o : Op) (s : Storage) :
    step w o s.1 (faulty sv f cut o s).1 (faulty sv f cut o s).2.1 := by
  cases o with
  | openTruncate p =>
    simp only [faulty]
    split
    · exact Or.inl ⟨rfl, rfl⟩
    · exact hstep (.openTruncate p) s.1
  | writeLine p line =>
    simp only [faulty]
    split
    · exact Or.inl ⟨rfl, scribbled_appendText _ _ _⟩
    · exact hstep (.writeLine p line) s.1
  | rename p q =>
    simp only [faulty]
    split
    · exact Or.inl ⟨rfl, rfl⟩
    · exact hstep (.rename p q) s.1
  | write p x =>
    simp only [faulty]
    split
    · refine Or.inl ⟨rfl, ?_⟩
      cases cut.saved with
      | none => exact Or.inl rfl
      | some k => exact Or.inr ⟨_, rfl⟩
    · exact hstep (.write p x) s.1
  | _ => exact hstep _ s.1

end Handler

/-! What the write-back leaves. -/

/-- The lines before the one that fails. -/
def untilFault (f : Faults) : Nat → List Text → List Text
  | _, [] => []
  | n, l :: ls => if f.line = some n then [] else l :: untilFault f (n + 1) ls

/-- The text that reaches the file, line by line. -/
def reached (f : Faults) (cut : Cut) : Nat → List Text → Text
  | _, [] => []
  | n, l :: ls =>
      if f.line = some n then (l ++ ['\n']).take cut.line else l ++ '\n' :: reached f cut (n + 1) ls

private theorem untilFault_eq (f : Faults) (n : Nat) (ls : List Text) :
    untilFault f n ls =
      match f.line with
      | none => ls
      | some i => if n ≤ i then ls.take (i - n) else ls := by
  induction ls generalizing n with
  | nil => cases f.line <;> simp [untilFault]
  | cons l ls ih =>
    rw [untilFault, ih]
    cases hline : f.line with
    | none => simp
    | some i =>
      by_cases heq : i = n
      · simp [heq]
      · have hne : some i ≠ some n := fun h => heq (Option.some.inj h)
        rw [if_neg hne]
        by_cases hle : n ≤ i
        · obtain ⟨k, rfl⟩ := Nat.exists_eq_add_of_lt (Nat.lt_of_le_of_ne hle (Ne.symm heq))
          dsimp only
          rw [if_pos (by omega), if_pos (by omega), show n + k + 1 - n = k + 1 by omega,
            show n + k + 1 - (n + 1) = k by omega, List.take_succ_cons]
        · have hnext : ¬n + 1 ≤ i := by omega
          simp [hle, hnext]

/-- Only the last line may be there in part. -/
private theorem exists_reached (f : Faults) (cut : Cut) (n : Nat) (ls : List Text) :
    ∃ part, reached f cut n ls = unlines (untilFault f n ls) ++ part ∧
      (cut.line = 0 → part = []) := by
  induction ls generalizing n with
  | nil => exact ⟨[], rfl, fun _ => rfl⟩
  | cons l ls ih =>
    by_cases hfault : f.line = some n
    · refine ⟨(l ++ ['\n']).take cut.line, ?_, fun h => by simp [h]⟩
      simp [reached, untilFault, hfault]
    · obtain ⟨part, hreached, hnone⟩ := ih (n + 1)
      refine ⟨part, ?_, hnone⟩
      simp [reached, untilFault, hfault, hreached]

section Exec

variable (sv : Served) (toml : Toml) (f : Faults) (cut : Cut)

private theorem exec_writeLines_faulty {p : Path} {t : Tree} {x : Text} (h : HasText t p x)
    (n : Nat)
    (ls : List Text) :
    ∃ t' n', exec (faulty sv f cut) (writeLines p ls) (t, n) = (.returned (), (t', n')) ∧
      HasText t' p (x ++ reached f cut n ls) ∧ ∀ q, q ≠ p → t'.get q = t.get q := by
  induction ls generalizing t x n with
  | nil => exact ⟨t, n, rfl, by simpa [reached] using h, fun _ _ => rfl⟩
  | cons l ls ih =>
    by_cases hfault : f.line = some n
    · have happend : appendText p ((l ++ ['\n']).take cut.line) t =
          t.set p (.file (.text (x ++ (l ++ ['\n']).take cut.line))) := by
        simp only [appendText, show t.get p = _ from h]
      refine ⟨t.set p (.file (.text (x ++ (l ++ ['\n']).take cut.line))), n + 1, ?_, ?_, ?_⟩
      · simp [writeLines, faulty, hfault, happend]
      · simp [reached, hfault, HasText]
      · intro q hq
        exact get_set_of_ne (Ne.symm hq)
    · have hwrite : succeed sv (.writeLine p l) t =
          (true, t.set p (.file (.text (x ++ (l ++ ['\n']))))) := by
        simp only [succeed, show t.get p = _ from h]
      have hline : HasText (t.set p (.file (.text (x ++ (l ++ ['\n']))))) p (x ++ (l ++ ['\n'])) :=
        get_set_self _ _ _
      obtain ⟨t', n', hexec, htext, hframe⟩ := ih hline (n + 1)
      refine ⟨t', n', ?_, ?_, ?_⟩
      · simpa [writeLines, faulty, hfault, hwrite] using hexec
      · simpa [reached, hfault] using htext
      · intro q hq
        rw [hframe q hq, get_set_of_ne (Ne.symm hq)]

def writtenBack (f : Faults) (cut : Cut) (content : Text) : Text :=
  if f.opening then content else reached f cut 0 ((lines content).map writeBackLine)

private theorem exec_processConfigFile_faulty {p : Path} {t : Tree} {content : Text}
    (h : HasText t p content) :
    ∃ t' n, exec (faulty sv f cut) (processConfigFile toml p) (t, 0) =
        (.returned (overridden (lines content)), (t', n)) ∧
      HasText t' p (writtenBack f cut content) ∧ ∀ q, q ≠ p → t'.get q = t.get q := by
  have hread : faulty sv f cut (.readToString p) (t, 0) = (some content, (t, 0)) := by
    simp only [faulty, carry, succeed, show t.get p = _ from h]
  by_cases hopening : f.opening = true
  · have hopen : faulty sv f cut (.openTruncate p) (t, 0) = (false, (t, 0)) := by
      simp only [faulty, hopening, if_true]
    refine ⟨t, 0, ?_, by simpa [writtenBack, hopening] using h, fun _ _ => rfl⟩
    simp only [processConfigFile, Program.bind_eq, Program.issue_bind, exec_op, hread, hopen,
      processLines_eq, Bool.false_eq_true, if_false]
    rfl
  · have hopen : faulty sv f cut (.openTruncate p) (t, 0) =
        (true, (t.set p (.file (.text [])), 0)) := by
      simp only [faulty, hopening, carry, succeed, show t.get p = _ from h]
      rfl
    have htrunc : HasText (t.set p (.file (.text []))) p [] := get_set_self _ _ _
    obtain ⟨t', n, hexec, htext, hframe⟩ := exec_writeLines_faulty sv f cut htrunc 0
      ((lines content).map writeBackLine)
    refine ⟨t', n, ?_, by simpa [writtenBack, hopening] using htext, ?_⟩
    · simp only [processConfigFile, Program.bind_eq, Program.issue_bind, exec_op, hread, hopen,
        processLines_eq, if_true]
      rw [exec_bind_ok _ hexec]
      rfl
    · intro q hq
      rw [hframe q hq, get_set_of_ne (Ne.symm hq)]

def backupPath : Path := withExtension fullConfigPath "bak"

private theorem backupPath_apart :
    ¬backupPath <+: fullConfigPath ∧ ¬fullConfigPath <+: backupPath := by
  decide +kernel

structure Files where
  config : Option Node
  backup : Option Node

def filesOf (t : Tree) : Files := ⟨t.get fullConfigPath, t.get backupPath⟩

def afterWrite (f : Faults) (cut : Cut) (text : Text) (before : Option Node) : Option Node :=
  if f.saving then
    match cut.saved with
    | none => before
    | some k => some (.file (.text (text.take k)))
  else some (.file (.text text))

/-- The two files after a save that found a config file. -/
def afterSave (f : Faults) (cut : Cut) (text : Text) (files : Files) : Files :=
  if f.backup then ⟨afterWrite f cut text files.config, files.backup⟩
  else ⟨afterWrite f cut text none, files.config⟩

private theorem filesOf_move (t : Tree) :
    filesOf (t.move fullConfigPath backupPath) = ⟨none, t.get fullConfigPath⟩ := by
  have hconfig := get_move_source (t := t) backupPath_apart.1 backupPath_apart.2 []
  rw [List.append_nil] at hconfig
  rw [filesOf, hconfig, get_move_target backupPath_apart.1 backupPath_apart.2]

private theorem filesOf_mkdirs (t : Tree) : filesOf
    (t.mkdirs fullConfigPath.dropLast) = filesOf t := by
  have hconfig : ¬fullConfigPath <+: fullConfigPath.dropLast := by decide
  have hbackup : ¬backupPath <+: fullConfigPath.dropLast := by decide +kernel
  simp only [filesOf, get_mkdirs, hconfig, hbackup, if_false, Option.or_none]

private theorem filesOf_set (t : Tree) (node : Node) :
    filesOf (t.set fullConfigPath node) = ⟨some node, t.get backupPath⟩ := by
  have hne : fullConfigPath ≠ backupPath := by
    intro heq
    exact backupPath_apart.1 (heq ▸ List.prefix_refl _)
  rw [filesOf, get_set_self, get_set_of_ne hne]

private theorem exec_write_faulty (t : Tree) (n : Nat) (text : Text) :
    ∃ t', exec (faulty sv f cut) (do
        let written ← perform (.write fullConfigPath text)
        pbExpect "Failed to write config file" written) (t, n) =
      (if f.saving then .panicked (expectation "Failed to write config file") else .returned (),
        (t', n)) ∧
      filesOf t' = ⟨afterWrite f cut text (t.get fullConfigPath), t.get backupPath⟩ := by
  cases hsaving : f.saving with
  | false =>
    refine ⟨t.set fullConfigPath (.file (.text text)), ?_, ?_⟩
    · simp [faulty, hsaving, carry, succeed, pbExpect]
    · simp [filesOf_set, afterWrite, hsaving]
  | true =>
    cases hcut : cut.saved with
    | none =>
      refine ⟨t, ?_, ?_⟩
      · simp [faulty, hsaving, hcut, pbExpect]
      · simp [filesOf, afterWrite, hsaving, hcut]
    | some k =>
      refine ⟨t.set fullConfigPath (.file (.text (text.take k))), ?_, ?_⟩
      · simp [faulty, hsaving, hcut, pbExpect]
      · simp [filesOf_set, afterWrite, hsaving, hcut]

private theorem exec_saveConfig_faulty {t : Tree} (n : Nat) (config : LocalConfig)
    (hfile : (t.get fullConfigPath).isSome = true) (hbackup : t.occupied backupPath = false) :
    ∃ t', exec (faulty sv f cut) (saveConfig toml config) (t, n) =
        (if f.saving then .panicked (expectation "Failed to write config file") else .returned (),
          (t', n)) ∧
      filesOf t' = afterSave f cut (toml.toString config) (filesOf t) := by
  have hroot : t.occupied archFsRoot = true :=
    occupied_of_get (q := fullConfigPath) ⟨configFile, rfl⟩ (by decide) hfile
  let moved := if f.backup then t else t.move fullConfigPath backupPath
  have hmoved : filesOf moved = if f.backup then filesOf t else ⟨none, t.get fullConfigPath⟩ := by
    cases hb : f.backup with
    | false => simpa [moved, hb] using filesOf_move t
    | true => simp [moved, hb]
  have hrename : faulty sv f cut
      (.rename fullConfigPath (withExtension fullConfigPath "bak")) (t, n) =
        (!f.backup, (moved, n)) := by
    cases hb : f.backup with
    | false =>
      have hfree : t.occupied (withExtension fullConfigPath "bak") = false := hbackup
      simp [faulty, hb, carry, succeed, hfile, hfree, moved, backupPath]
    | true => simp [faulty, hb, moved]
  obtain ⟨t', hexec, hfiles⟩ := exec_write_faulty sv f cut
    (moved.mkdirs fullConfigPath.dropLast) n (toml.toString config)
  refine ⟨t', ?_, ?_⟩
  · have hdir : faulty sv f cut (.readDirEmpty archFsRoot) (t, n) = (false, (t, n)) := by
      simp [faulty, carry, succeed, hroot]
    have hexists : faulty sv f cut (.pathExists fullConfigPath) (t, n) = (true, (t, n)) := by
      simp [faulty, carry, succeed, hfile]
    have hbackUp : exec (faulty sv f cut) (backUp true) (t, n) = (.returned (), (moved, n)) := by
      simp [backUp, hrename]
    have hmake : faulty sv f cut (.createDirAll fullConfigPath.dropLast) (moved, n) =
        (true, (moved.mkdirs fullConfigPath.dropLast, n)) := by
      simp only [faulty, carry, succeed]
    rw [← hexec]
    simp only [saveConfig, Program.bind_eq, Program.issue_bind, exec_op, hdir, hexists,
      Bool.false_eq_true, if_false]
    rw [exec_bind_ok _ hbackUp]
    simp only [exec_op, hmake]
    rfl
  · have hmade := (filesOf_mkdirs moved).trans hmoved
    rw [hfiles, afterSave]
    cases hb : f.backup with
    | false =>
      rw [hb, filesOf] at hmade
      obtain ⟨hconfig, hbak⟩ := Files.mk.inj hmade
      rw [hconfig, hbak]
      rfl
    | true =>
      rw [hb, filesOf] at hmade
      obtain ⟨hconfig, hbak⟩ := Files.mk.inj hmade
      rw [hconfig, hbak]
      rfl

end Exec

/-! What a call leaves, and what is left of the user's lines. -/

variable (toml : Toml)

/-- The default is saved over a content that does not parse. -/
def saves (content : Text) : Bool :=
  (toml.fromStr (join (processLines (lines content)).effectiveConfig)).isNone

def filesAfter (f : Faults) (cut : Cut) (data : Data) (backup : Option Node) : Files :=
  match data with
  | .text content =>
      let files := ⟨some (.file (.text (writtenBack f cut content))), backup⟩
      if saves toml content then afterSave f cut (toml.toString LocalConfig.default) files
      else files
  | .bytes b => afterSave f cut (toml.toString LocalConfig.default) ⟨some (.file (.bytes b)), backup⟩

variable {toml}

private theorem exec_parseConfig_faulty (hempty : toml.parse [] = some []) (sv : Served)
    (f : Faults)
    (cut : Cut) {t : Tree} {data : Data} (hfile : t.get fullConfigPath = some (.file data))
    (hbackup : t.occupied backupPath = false) :
    filesOf (exec (faulty sv f cut) (parseConfig toml fullConfigPath) (t, 0)).2.1 =
      filesAfter toml f cut data (t.get backupPath) := by
  cases data with
  | text content =>
    obtain ⟨t', n, hexec, htext, hframe⟩ := exec_processConfigFile_faulty sv toml f cut hfile
    have hbackup' : t'.get backupPath = t.get backupPath := by
      apply hframe
      intro heq
      exact backupPath_apart.1 (heq ▸ List.prefix_refl _)
    have hfiles : filesOf t' =
        ⟨some (.file (.text (writtenBack f cut content))), t.get backupPath⟩ := by
      rw [filesOf, show t'.get fullConfigPath = _ from htext, hbackup']
    simp only [parseConfig, Program.bind_eq]
    rw [exec_bind_ok _ hexec]
    cases hparse : toml.fromStr (join (overridden (lines content))) with
    | some config =>
      have hsaves : saves toml content = false := by simp [saves, processLines_eq, hparse]
      simpa [filesAfter, hsaves] using hfiles
    | none =>
      have hsaves : saves toml content = true := by simp [saves, processLines_eq, hparse]
      have hfree : t'.occupied backupPath = false := by
        rw [SameBelow.occupied_eq (t := t) ?_, hbackup]
        intro q hq
        apply hframe
        intro heq
        exact backupPath_apart.1 (heq ▸ hq)
      have hsome : (t'.get fullConfigPath).isSome = true := by
        rw [show t'.get fullConfigPath = _ from htext]
        rfl
      obtain ⟨t'', hsave, hsaved⟩ :=
        exec_saveConfig_faulty sv toml f cut n LocalConfig.default hsome hfree
      have hafter : filesAfter toml f cut (.text content) (t.get backupPath) =
          filesOf t'' := by
        simp [filesAfter, hsaves, hsaved, hfiles]
      rw [hafter]
      dsimp only
      rw [exec_bind, hsave]
      cases f.saving <;> rfl
  | bytes b =>
    have hsome : (t.get fullConfigPath).isSome = true := by
      rw [hfile]
      rfl
    obtain ⟨t', hsave, hsaved⟩ :=
      exec_saveConfig_faulty sv toml f cut 0 LocalConfig.default hsome hbackup
    have hread : faulty sv f cut (.readToString fullConfigPath) (t, 0) = (none, (t, 0)) := by
      simp only [faulty, carry, succeed, hfile]
    have hafter : filesAfter toml f cut (.bytes b) (t.get backupPath) = filesOf t' := by
      rw [hsaved, filesOf, hfile]
      rfl
    have hparse : toml.fromStr (join []) = some LocalConfig.default := by
      rw [Toml.fromStr, show join [] = [] from rfl, hempty]
      rfl
    have hprocess : exec (faulty sv f cut) (processConfigFile toml fullConfigPath) (t, 0) =
        (if f.saving then .panicked (expectation "Failed to write config file") else .returned [],
          (t', 0)) := by
      simp only [processConfigFile, Program.bind_eq, Program.issue_bind, exec_op, hread]
      rw [exec_bind, hsave]
      cases f.saving <;> rfl
    rw [hafter]
    simp only [parseConfig, Program.bind_eq]
    rw [exec_bind, hprocess]
    cases f.saving with
    | false =>
      simp only [Bool.false_eq_true, if_false, hparse]
      rfl
    | true => rfl

/-- A line of the file that holds a line of the user: the same line up to blanks around it, behind
`# ` if it was a try_ entry. -/
def Holds (line l : Text) : Prop :=
  trim l = trim line ∨ (isTry line = true ∧ trim l = "# ".toList ++ trim line)

instance holdsDecidable (line l : Text) : Decidable (Holds line l) :=
  inferInstanceAs (Decidable (_ ∨ _))

def StandsIn (line : Text) (ls : List Text) : Prop := ∃ l ∈ ls, Holds line l

instance standsInDecidable (line : Text) (ls : List Text) : Decidable (StandsIn line ls) :=
  inferInstanceAs (Decidable (∃ l ∈ ls, Holds line l))

def Stored (files : Files) (line : Text) : Prop :=
  ∃ x, (files.config = some (.file (.text x)) ∨ files.backup = some (.file (.text x))) ∧
    StandsIn line (lines x)

/-- Every line of the content is in one of the two files; a content that is no text is there as a
whole. -/
def Kept (data : Data) (files : Files) : Prop :=
  match data with
  | .text content => ∀ line ∈ lines content, Stored files line
  | .bytes b => files.config = some (.file (.bytes b)) ∨ files.backup = some (.file (.bytes b))

/-- No call on a storage with these faults loses a line of the content. -/
def NothingLost (toml : Toml) (f : Faults) (data : Data) : Prop :=
  ∀ (sv : Served) (cut : Cut) (t : Tree), t.get fullConfigPath = some (.file data) →
    t.occupied backupPath = false →
    Kept data (filesOf (exec (faulty sv f cut) (parseConfig toml fullConfigPath) (t, 0)).2.1)

/-- The lines that are in the config file when the write-back ends. -/
def leftLines (f : Faults) (content : Text) : List Text :=
  if f.opening then lines content
  else
    match f.line with
    | none => (lines content).map writeBackLine
    | some i => ((lines content).map writeBackLine).take i

/-- The default is saved over the config file without a backup. -/
def overwrites (toml : Toml) (f : Faults) (content : Text) : Bool := saves toml content && f.backup

/-- The write-back got to the line, or to one like it, and what it wrote is not overwritten; or the
line is one of the default that is saved. -/
def Survives (toml : Toml) (f : Faults) (content line : Text) : Prop :=
  (overwrites toml f content = false ∧ StandsIn line (leftLines f content)) ∨
    (saves toml content = true ∧ f.saving = false ∧
      StandsIn line (lines (toml.toString LocalConfig.default)))

instance survivesDecidable (toml : Toml) (f : Faults) (content line : Text) :
    Decidable (Survives toml f content line) :=
  inferInstanceAs (Decidable (_ ∨ _))

def Spared (toml : Toml) (f : Faults) (data : Data) : Prop :=
  match data with
  | .text content => ∀ line ∈ lines content, Survives toml f content line
  | .bytes _ => f.backup = false

private theorem StandsIn.mono {line : Text} {ls ls' : List Text} (h : StandsIn line ls)
    (hsub : ls ⊆ ls') : StandsIn line ls' := by
  obtain ⟨l, hl, hholds⟩ := h
  exact ⟨l, hsub hl, hholds⟩

private theorem leftLines_eq (f : Faults) (content : Text) :
    leftLines f content = if f.opening then lines content
      else untilFault f 0 ((lines content).map writeBackLine) := by
  rw [leftLines, untilFault_eq]
  cases f.line <;> simp

private theorem untilFault_subset (f : Faults) (n : Nat) (ls : List Text) :
    untilFault f n ls ⊆ ls := by
  rw [untilFault_eq]
  split
  · exact List.Subset.refl _
  · split
    · exact List.take_subset _ _
    · exact List.Subset.refl _

private theorem wholeLine_untilFault (f : Faults) (content : Text) (n : Nat) :
    ∀ l ∈ untilFault f n ((lines content).map writeBackLine), WholeLine l := by
  intro l hl
  obtain ⟨l', hl', rfl⟩ := List.mem_map.mp (untilFault_subset f n _ hl)
  exact wholeLine_writeBackLine (newline_not_mem_of_mem_lines hl')

private theorem leftLines_subset (f : Faults) (cut : Cut) (content : Text) :
    leftLines f content ⊆ lines (writtenBack f cut content) := by
  rw [leftLines_eq, writtenBack]
  split
  · exact List.Subset.refl _
  · obtain ⟨part, hreached, -⟩ := exists_reached f cut 0 ((lines content).map writeBackLine)
    rw [hreached, lines_unlines_append (wholeLine_untilFault f content 0)]
    exact List.subset_append_left _ _

private theorem lines_writtenBack (f : Faults) {cut : Cut} (hcut : cut.line = 0) (content : Text) :
    lines (writtenBack f cut content) = leftLines f content := by
  rw [leftLines_eq, writtenBack]
  split
  · rfl
  · obtain ⟨part, hreached, hnone⟩ := exists_reached f cut 0 ((lines content).map writeBackLine)
    rw [hreached, hnone hcut, List.append_nil, lines_unlines (wholeLine_untilFault f content 0)]

section Iff

variable {f : Faults} {content : Text}

private theorem stored_of_survives {line : Text} (h : Survives toml f content line) (cut : Cut)
    (backup : Option Node) : Stored (filesAfter toml f cut (.text content) backup) line := by
  rcases h with ⟨hover, hstands⟩ | ⟨hsaves, hsaving, hstands⟩
  · refine ⟨writtenBack f cut content, ?_, hstands.mono (leftLines_subset f cut content)⟩
    cases hsaves : saves toml content with
    | false => simp [filesAfter, hsaves]
    | true =>
      have hbackup : f.backup = false := by simpa [overwrites, hsaves] using hover
      simp [filesAfter, hsaves, afterSave, hbackup]
  · refine ⟨toml.toString LocalConfig.default, Or.inl ?_, hstands⟩
    simp only [filesAfter, hsaves, if_true, afterSave, afterWrite, hsaving]
    cases f.backup <;> rfl

/-- Nothing more of a failing write than must be. -/
def leastCut : Cut := ⟨0, some 0⟩

private theorem afterWrite_leastCut {text x : Text} {before : Option Node}
    (h : afterWrite f leastCut text before = some (.file (.text x))) :
    (f.saving = false ∧ x = text) ∨ x = [] := by
  unfold afterWrite at h
  split at h
  · cases h
    exact Or.inr rfl
  · rename_i hsaving
    cases h
    exact Or.inl ⟨by simpa using hsaving, rfl⟩

private theorem not_standsIn_nil (line : Text) : ¬StandsIn line (lines []) := by
  rintro ⟨l, hl, -⟩
  exact List.not_mem_nil hl

private theorem survives_of_stored {line : Text}
    (h : Stored (filesAfter toml f leastCut (.text content) none) line) :
    Survives toml f content line := by
  have hleft : lines (writtenBack f leastCut content) = leftLines f content :=
    lines_writtenBack f rfl content
  obtain ⟨x, hx, hstands⟩ := h
  cases hsaves : saves toml content with
  | false =>
    have hover : overwrites toml f content = false := by simp [overwrites, hsaves]
    simp only [filesAfter, hsaves, Bool.false_eq_true, if_false, reduceCtorEq, or_false,
      Option.some.injEq, Node.file.injEq, Data.text.injEq] at hx
    refine Or.inl ⟨hover, ?_⟩
    rwa [← hleft, hx]
  | true =>
    have hwritten : ∀ before, afterWrite f leastCut (toml.toString LocalConfig.default) before =
        some (.file (.text x)) → Survives toml f content line := by
      intro before hwrite
      rcases afterWrite_leastCut hwrite with ⟨hsaving, rfl⟩ | rfl
      · exact Or.inr ⟨hsaves, hsaving, hstands⟩
      · exact absurd hstands (not_standsIn_nil line)
    simp only [filesAfter, hsaves, if_true, afterSave] at hx
    cases hbackup : f.backup with
    | false =>
      have hover : overwrites toml f content = false := by simp [overwrites, hbackup]
      simp only [hbackup, Bool.false_eq_true, if_false] at hx
      rcases hx with hx | hx
      · exact hwritten none hx
      · cases hx
        exact Or.inl ⟨hover, by rwa [← hleft]⟩
    | true =>
      simp only [hbackup, if_true, reduceCtorEq, or_false] at hx
      exact hwritten _ hx

private theorem kept_bytes (hbackup : f.backup = false) (cut : Cut) (b : List UInt8)
    (backup : Option Node) : Kept (.bytes b) (filesAfter toml f cut (.bytes b) backup) := by
  refine Or.inr ?_
  simp [filesAfter, afterSave, hbackup]

private theorem backup_of_kept_bytes {b : List UInt8}
    (h : Kept (.bytes b) (filesAfter toml f leastCut (.bytes b) none)) : f.backup = false := by
  by_contra hbackup
  simp only [Bool.not_eq_false] at hbackup
  simp only [Kept, filesAfter, afterSave, hbackup, if_true, afterWrite, reduceCtorEq,
    or_false] at h
  split at h <;> cases h

def alone (data : Data) : Tree := (Tree.mk []).set fullConfigPath (.file data)

private theorem alone_config (data : Data) : (alone data).get fullConfigPath = some (.file data) :=
  get_set_self _ _ _

private theorem alone_backup (data : Data) : (alone data).get backupPath = none := by
  have hne : fullConfigPath ≠ backupPath := by
    intro heq
    exact backupPath_apart.1 (heq ▸ List.prefix_refl _)
  rw [alone, get_set_of_ne hne]
  rfl

private theorem alone_free (data : Data) : (alone data).occupied backupPath = false := by
  simp [alone, Tree.set, Tree.occupied, backupPath_apart.1]

/-- Nothing of the user's is lost exactly where every line got back to the file before a write
failed, and is not overwritten by the default for want of a backup. -/
theorem nothing_lost_iff (hempty : toml.parse [] = some []) (data : Data) :
    NothingLost toml f data ↔ Spared toml f data := by
  constructor
  · intro h
    have hleast := h nothingServed leastCut (alone data) (alone_config data) (alone_free data)
    rw [exec_parseConfig_faulty hempty _ f leastCut (alone_config data) (alone_free data),
      alone_backup] at hleast
    cases data with
    | text content => exact fun line hline => survives_of_stored (hleast line hline)
    | bytes b => exact backup_of_kept_bytes hleast
  · intro h sv cut t hfile hbackup
    rw [exec_parseConfig_faulty hempty sv f cut hfile hbackup]
    cases data with
    | text content => exact fun line hline => stored_of_survives (h line hline) cut _
    | bytes b => exact kept_bytes h cut b _

end Iff

def withTry : Text := "[user]\nusername = \"alice\"\ntry_username = \"bob\"\n".toList

theorem nothing_lost_without_save :
    NothingLost lineToml ⟨false, none, true, true⟩ (.text withTry) :=
  (nothing_lost_iff rfl (.text withTry)).mpr
    (show ∀ line ∈ lines withTry, Survives lineToml ⟨false, none, true, true⟩ withTry line by
      decide +kernel)

/-- Where the second line cannot be written any more, it is gone. -/
theorem line_lost_by_failing_write :
    ¬∀ (toml : Toml) (f : Faults) (data : Data), toml.parse [] = some [] →
      NothingLost toml f data := by
  intro h
  let f : Faults := ⟨false, some 1, false, false⟩
  have hkept := h lineToml f (.text withTry) rfl nothingServed leastCut (alone (.text withTry))
    (alone_config _) (alone_free _)
  rw [exec_parseConfig_faulty rfl _ f leastCut (alone_config _) (alone_free _), alone_backup]
    at hkept
  have hline : "username = \"alice\"".toList ∈ lines withTry := by decide +kernel
  have hsurvives := survives_of_stored (hkept _ hline)
  have hlost : ¬Survives lineToml f withTry "username = \"alice\"".toList := by decide +kernel
  exact hlost hsurvives

end LocalDesktop.Core.UserText
