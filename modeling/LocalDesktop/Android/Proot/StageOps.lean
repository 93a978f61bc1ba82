/- GID: LocalDesktop/Android/Proot/StageOps
   generality: G
   digest: Which operations each program of a start issues, whatever it is answered. -/

import LocalDesktop.Android.Proot.RootOps

set_option autoImplicit false
set_option relaxedAutoImplicit false

namespace LocalDesktop.Android.Proot.StageOps

open Foundation.Strings Foundation.FileTree Foundation.Effects Platform Core.Config Process Stages
  RootOps

/-- What all but the second stage do: `Quiet` anywhere, and `Inside` once the root is occupied. -/
def Beside (dataDir : Path) (o : Op) : Prop := Quiet dataDir o ∨ Inside o

def Later (dataDir : Path) (o : Op) : Prop := Beside dataDir o ∨ WritesProc o

/-- The function of a stage and its thread issue such operations only. -/
def StageIssues (P : Op → Prop) (stage : SetupStage) : Prop :=
  stage.All P fun output => ∀ handle ∈ output, Program.All P (fun _ => True) handle

variable {α β : Type} {P P' : Op → Prop} {R : α → Prop} {R' : β → Prop}

theorem StageIssues.mono {stage : SetupStage} (h : StageIssues P stage)
    (hP : ∀ o, P o → P' o) : StageIssues P' stage :=
  Program.All.mono h hP fun _ hout handle hmem => (hout handle hmem).mono hP fun _ => id

theorem all_perform {o : Op} {f : Res o → App α} (ho : P o) (hf : ∀ r, (f r).All P R) :
    (perform o >>= f).All P R :=
  ⟨ho, hf⟩

theorem all_bind {p : App α} {f : α → App β} (hp : p.All P R)
    (hf : ∀ a, R a → (f a).All P R') : (p >>= f).All P R' :=
  hp.bind hf

theorem all_pbExpect (msg : String) (ok : Bool) : (pbExpect msg ok).All P fun _ => True := by
  cases ok <;> trivial

/-! The configuration. -/

private theorem besideProc_fullConfigPath : BesideProc fullConfigPath := by
  unfold BesideProc
  decide

variable (dataDir : Path)

private theorem inside_fullConfigPath : archFsRoot <+: fullConfigPath ∧ BesideProc fullConfigPath :=
  ⟨⟨configFile, rfl⟩, besideProc_fullConfigPath⟩

private theorem all_backUp (exist : Bool) : (backUp exist).All (Beside dataDir) fun _ => True := by
  unfold backUp
  split
  · refine all_perform (Or.inr ⟨inside_fullConfigPath.1, ?_, ?_, ?_, ?_, ?_⟩) fun _ => trivial
    all_goals decide
  · trivial

theorem all_saveConfigFile (toml : Toml) (config : LocalConfig) :
    Program.All (Beside dataDir) (fun _ => True) (do
      let exist ← perform (.pathExists fullConfigPath)
      backUp exist
      let made ← perform (.createDirAll fullConfigPath.dropLast)
      pbExpect "Failed to create config directory" made
      let written ← perform (.write fullConfigPath (toml.toString config))
      pbExpect "Failed to write config file" written) := by
  refine all_perform (Or.inl (by trivial)) fun exist => ?_
  refine all_bind (all_backUp dataDir exist) fun _ _ => ?_
  have hdir : archFsRoot <+: fullConfigPath.dropLast ∧ BesideProc fullConfigPath.dropLast := by
    unfold BesideProc
    decide
  refine all_perform (Or.inr hdir) fun _ => all_bind (all_pbExpect _ _) fun _ _ => ?_
  exact all_perform (Or.inr inside_fullConfigPath) fun _ => all_pbExpect _ _

private theorem all_saveConfig (toml : Toml) (config : LocalConfig) :
    (saveConfig toml config).All (Beside dataDir) fun _ => True := by
  refine all_perform (Or.inl (by trivial)) fun missing => ?_
  split
  · trivial
  · exact all_saveConfigFile dataDir toml config

private theorem all_writeLines (ls : List Text) :
    (writeLines fullConfigPath ls).All (Beside dataDir) fun _ => True := by
  induction ls with
  | nil => trivial
  | cons line ls ih =>
    refine all_perform (Or.inr inside_fullConfigPath) fun ok => ?_
    split
    · exact ih
    · trivial

theorem all_rewrite (result : Rewrite) :
    Program.All (Beside dataDir) (fun _ => True) (do
      let opened ← perform (.openTruncate fullConfigPath)
      if opened = true then writeLines fullConfigPath result.writeBackLines else pure ()
      pure result.effectiveConfig) := by
  refine all_perform (Or.inr inside_fullConfigPath) fun opened => ?_
  dsimp only
  split
  · exact all_bind (all_writeLines dataDir _) fun _ _ => trivial
  · trivial

theorem all_parseConfig (toml : Toml) :
    (parseConfig toml fullConfigPath).All (Beside dataDir) fun _ => True := by
  refine all_bind (R := fun _ => True) ?_ fun ls _ => ?_
  · refine all_perform (Or.inl (by trivial)) fun read => ?_
    match read with
    | none => exact all_bind (all_saveConfig dataDir toml _) fun _ _ => trivial
    | some content => exact all_rewrite dataDir _
  · split
    · trivial
    · exact all_bind (all_saveConfig dataDir toml _) fun _ _ => trivial

/-! The download and the extraction. -/

theorem all_sendOrPanic (m : String) : (sendOrPanic m).All (Quiet dataDir) fun _ => True :=
  all_perform trivial fun _ => all_pbExpect _ _

private theorem all_readTurn (totalSize : Nat) (state : Nat × Nat) :
    (readTurn (tempFile dataDir) totalSize state).All (Quiet dataDir) fun _ => True := by
  refine all_perform trivial fun read => ?_
  match read with
  | none => trivial
  | some [] => trivial
  | some (_ :: _) =>
    refine all_perform rfl fun _ => all_bind (all_pbExpect _ _) fun _ _ => ?_
    dsimp only
    split
    · exact all_perform trivial fun _ => trivial
    · trivial

theorem all_ensureDownloaded (turns : Nat) (present : Bool) :
    (ensureDownloaded turns dataDir present).All (Quiet dataDir) fun _ => True := by
  unfold ensureDownloaded
  split
  · trivial
  · refine all_bind (all_sendOrPanic dataDir _) fun _ _ => all_perform trivial fun response => ?_
    match response with
    | none => trivial
    | some contentLength =>
      refine all_perform rfl fun _ => all_bind (all_pbExpect _ _) fun _ _ => ?_
      refine Program.All.iterate (fun state => ?_) turns _
      exact (all_readTurn dataDir _ state).mono (fun _ => id) fun _ _ _ _ => trivial

theorem all_extractTurn (turns : Nat) (u : Unit) :
    (extractTurn turns dataDir u).All (Quiet dataDir) fun _ => True := by
  refine all_perform trivial fun present => ?_
  refine all_bind (all_ensureDownloaded dataDir turns present) fun _ _ => ?_
  refine all_bind (all_sendOrPanic dataDir _) fun _ _ => ?_
  refine all_perform rfl fun _ => all_perform trivial fun _ => ?_
  refine all_bind (all_pbExpect _ _) fun _ _ => all_perform rfl fun unpacked => ?_
  match unpacked with
  | .ok () => trivial
  | .error e =>
    refine all_perform rfl fun _ => all_perform rfl fun _ => ?_
    exact all_perform trivial fun _ => trivial

/-! The stages after the first one, and the desktop. -/

theorem prefix_inRoot (p : Path) : archFsRoot <+: inRoot p := List.prefix_append _ _

private theorem all_sendOrPanic_beside (m : String) :
    (sendOrPanic m).All (Beside dataDir) fun _ => True :=
  (all_sendOrPanic dataDir m).mono (fun _ => Or.inl) fun _ => id

private theorem all_spawn (c : Command) : (spawn c).All (Beside dataDir) fun _ => True :=
  all_perform (Or.inr rfl) fun _ => all_bind (all_pbExpect _ _) fun _ _ => trivial

theorem all_withLog {P : Op → Prop} (turns : Nat) {c : Command} {log : Text → App Unit}
    (hline : P (.outputLine archFsRoot c)) (hlog : ∀ l, (log l).All P fun _ => True) :
    (withLog turns c log).All P fun _ => True := by
  refine Program.All.iterate (fun _ => all_perform hline fun line => ?_) turns ()
  match line with
  | none => exact fun _ _ => trivial
  | some .garbled => trivial
  | some (.text l) => exact all_bind (hlog l) fun _ _ _ _ => trivial

private theorem all_execWithPanicOnError (command : Text) :
    (execWithPanicOnError command).All (Beside dataDir) fun _ => True := by
  refine all_bind (all_spawn dataDir _) fun c _ => all_perform (Or.inr rfl) fun output => ?_
  match output with
  | none => trivial
  | some output =>
    dsimp only
    split <;> trivial

private theorem all_installed (check : Text) :
    (installed check).All (Beside dataDir) fun _ => True := by
  refine all_bind (all_spawn dataDir _) fun c _ => all_perform (Or.inr rfl) fun status => ?_
  match status with
  | none => trivial
  | some success => trivial

private theorem all_installTurn (turns : Nat) (check install : Text) (u : Unit) :
    (installTurn turns check install u).All (Beside dataDir) fun _ => True := by
  refine all_bind (all_execWithPanicOnError dataDir _) fun _ _ => ?_
  refine all_bind (all_spawn dataDir _) fun c _ => ?_
  refine all_bind (all_withLog turns (Or.inr rfl) fun l => all_sendOrPanic_beside dataDir _)
    fun _ _ => ?_
  refine all_bind (all_installed dataDir check) fun done _ => ?_
  split <;> trivial

theorem stageIssues_installDependencies (turns : Nat) (context : ApplicationContext) :
    StageIssues (Beside dataDir) (installDependencies turns context) := by
  refine all_bind (all_installed dataDir _) fun done _ => ?_
  split
  · exact fun _ h => absurd h (by simp)
  · rintro _ ⟨⟩
    refine Program.All.iterate (fun u => ?_) turns ()
    exact (all_installTurn dataDir turns _ _ u).mono (fun _ => id) fun _ _ _ _ => trivial

private theorem inside_of_firefox {p : Path} (hp : inRoot ["usr", "lib", "firefox"] <+: p) :
    archFsRoot <+: p ∧ BesideProc p := by
  refine ⟨(prefix_inRoot _).trans hp, fun f hf hpre => ?_⟩
  have hdisjoint : ∀ f ∈ procFiles, ¬inRoot f.1 <+: inRoot ["usr", "lib", "firefox"] ∧
      ¬inRoot ["usr", "lib", "firefox"] <+: inRoot f.1 := by decide
  rcases List.prefix_or_prefix_of_prefix hpre hp with h | h
  · exact (hdisjoint f hf).1 h
  · exact (hdisjoint f hf).2 h

theorem stageIssues_setupFirefoxConfig : StageIssues (Beside dataDir) setupFirefoxConfig := by
  have hroot := inside_of_firefox (List.prefix_refl _)
  have hpref := inside_of_firefox (List.prefix_append _ ["defaults", "pref"])
  have hcfg := inside_of_firefox (List.prefix_append _ ["localdesktop.cfg"])
  have hjs := inside_of_firefox ((List.prefix_append _ ["defaults", "pref"]).trans
    (List.prefix_append _ ["autoconfig.js"]))
  refine all_perform (Or.inr hroot) fun _ => all_bind (all_pbExpect _ _) fun _ _ => ?_
  refine all_perform (Or.inr hpref) fun _ => all_bind (all_pbExpect _ _) fun _ _ => ?_
  refine all_perform (Or.inr hjs) fun _ => all_bind (all_pbExpect _ _) fun _ _ => ?_
  refine all_perform (Or.inr hcfg) fun _ => all_bind (all_pbExpect _ _) fun _ _ => ?_
  exact fun _ h => absurd h (by simp)

theorem stageIssues_fixXkbSymlink (diffPaths : Path → Path → Option Path) :
    StageIssues (Beside dataDir) (fixXkbSymlink diffPaths) := by
  have hbeside : BesideProc (inRoot ["usr", "share", "X11", "xkb"]) := by
    unfold BesideProc
    decide
  refine all_perform (Or.inl trivial) fun link => ?_
  match link with
  | none => exact fun _ h => absurd h (by simp)
  | some ⟨false, _⟩ => exact fun _ h => absurd h (by simp)
  | some ⟨true, _⟩ =>
    refine all_perform (Or.inr ⟨by decide, by decide, hbeside⟩) fun _ => ?_
    refine all_perform (Or.inr ⟨prefix_inRoot _, hbeside⟩) fun linked => ?_
    match linked with
    | .ok () => exact fun _ h => absurd h (by simp)
    | .error e => exact all_perform (Or.inl trivial) fun _ _ h => absurd h (by simp)

private theorem all_launch (turns : Nat) (config : LocalConfig) :
    (launch turns config).All (Beside dataDir) fun _ => True := by
  refine all_bind (all_spawn dataDir _) fun _ _ => all_bind (all_spawn dataDir _) fun _ _ => ?_
  exact all_bind (all_spawn dataDir _) fun c _ => all_withLog turns (Or.inr rfl) fun _ => trivial

private theorem all_resumes (turns : Nat) (config : LocalConfig) (n : Nat) :
    (resumes turns config n).All (Beside dataDir) fun _ => True := by
  induction n with
  | zero => trivial
  | succ n ih => exact all_bind (all_launch dataDir turns config).join fun _ _ => ih

theorem all_desktop (turns resumed : Nat) (config : LocalConfig) :
    Program.All (Beside dataDir) (fun _ => True) (do
      let bound ← perform (.bindSocket (inRoot ["tmp", "wayland-0"]))
      pbExpect "Failed to build compositor" bound
      resumes turns config resumed) := by
  have hbeside : BesideProc (inRoot ["tmp", "wayland-0"]) := by
    unfold BesideProc
    decide
  refine all_perform (Or.inr ⟨prefix_inRoot _, hbeside⟩) fun _ => ?_
  exact all_bind (all_pbExpect _ _) fun _ _ => all_resumes dataDir turns config resumed

/-! The second stage also writes the simulated files. -/

theorem all_prepareSysdata : Program.All (Beside dataDir) (fun _ => True) prepareSysdata := by
  have hproc : BesideProc (inRoot ["proc"]) := by
    unfold BesideProc
    decide
  have hsys : BesideProc (inRoot ["sys"]) := by
    unfold BesideProc
    decide
  have hempty : BesideProc (inRoot ["sys", ".empty"]) := by
    unfold BesideProc
    decide
  refine all_bind (all_sendOrPanic_beside dataDir _) fun _ _ => ?_
  refine all_perform (Or.inr ⟨prefix_inRoot _, hproc⟩) fun _ => ?_
  refine all_perform (Or.inr ⟨prefix_inRoot _, hsys⟩) fun _ => ?_
  refine all_perform (Or.inr ⟨prefix_inRoot _, hempty⟩) fun _ => ?_
  refine all_perform (Or.inl trivial) fun _ => all_perform (Or.inl trivial) fun _ => ?_
  exact all_perform (Or.inl trivial) fun _ => trivial

private theorem all_writeProcFiles {files : List (Path × Text)}
    (hfiles : ∀ f ∈ files, f ∈ procFiles) :
    (writeProcFiles files).All (Later dataDir) fun _ => True := by
  induction files with
  | nil => trivial
  | cons file files ih =>
    obtain ⟨hfile, hfiles⟩ := List.forall_mem_cons.mp hfiles
    refine all_perform (Or.inr ⟨file, hfile, rfl⟩) fun _ => ?_
    exact all_bind (all_pbExpect _ _) fun _ _ => ih hfiles

theorem stageIssues_simulateLinuxSysdataStage :
    StageIssues (Later dataDir) simulateLinuxSysdataStage := by
  refine all_perform (Or.inl (Or.inl trivial)) fun done => ?_
  split
  · exact fun _ h => absurd h (by simp)
  · rintro _ ⟨⟩
    refine all_bind ((all_prepareSysdata dataDir).mono (fun _ => Or.inl) fun _ => id) fun _ _ => ?_
    exact all_writeProcFiles dataDir fun _ => id

/-! The loops of `setup` over stages of one kind. -/

section Loops

variable {rest : List SetupStage} (hsend : ∀ m, P (.send m))
  (hrest : ∀ stage ∈ rest, StageIssues P stage)

include hsend hrest

theorem all_remainingStages : (remainingStages rest).All P fun _ => True := by
  induction rest with
  | nil => exact all_perform (hsend _) fun _ => all_pbExpect _ _
  | cons stage rest ih =>
    obtain ⟨hstage, hrest⟩ := List.forall_mem_cons.mp hrest
    refine all_bind hstage fun output houtput => ?_
    match output with
    | none => exact ih hrest
    | some handle =>
      refine all_bind (houtput handle rfl).join fun joined _ => ?_
      match joined with
      | .ok () => exact ih hrest
      | .error e => exact all_perform (hsend _) fun _ => trivial

private theorem all_coordinator {handle : App Unit} (hhandle : handle.All P fun _ => True) :
    (coordinator handle rest).All P fun _ => True := by
  refine all_bind hhandle.join fun joined _ => ?_
  match joined with
  | .ok () => exact all_remainingStages hsend hrest
  | .error e => exact all_perform (hsend _) fun _ => trivial

theorem all_runStages : (runStages rest).All P fun _ => True := by
  induction rest with
  | nil => trivial
  | cons stage rest ih =>
    obtain ⟨hstage, hrest⟩ := List.forall_mem_cons.mp hrest
    refine all_bind hstage fun output houtput => ?_
    match output with
    | none => exact ih hrest
    | some handle =>
      refine all_bind (R := fun _ => True) ?_ fun _ _ => trivial
      exact (all_coordinator hsend hrest (houtput handle rfl)).join

end Loops

end LocalDesktop.Android.Proot.StageOps
