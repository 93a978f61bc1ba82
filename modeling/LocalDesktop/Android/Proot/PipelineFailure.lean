/- GID: LocalDesktop/Android/Proot/PipelineFailure
   generality: G
   digest: When a failure of setup is reported, and the panic of a stage that is not. -/

import LocalDesktop.Android.Proot.PipelineOrder
import LocalDesktop.Android.Proot.ArchFs

set_option autoImplicit false
set_option relaxedAutoImplicit false

namespace LocalDesktop.Android.Proot.PipelineFailure

open Foundation.Strings Foundation.FileTree Foundation.Transition Platform Core.Config Stages ArchFs
  Pipeline PipelineOrder
open Foundation.Effects (Run Program Outcome)

def CoordinatorEnded (s : State) : Prop :=
  s.driver = .done ∨ (∃ i x, s.driver = .failed i x) ∨
    ∃ d, s.driver = .crashed d ∧ s.driver.Background

def StageFailed (h : List Event) : Prop :=
  (∃ i x, .ended i (.panicked x) ∈ h) ∨ ∃ i x, .raised .coordinator i x ∈ h

def ErrorSent (h : List Event) : Prop := ∃ x, .sent .coordinator (.error (stageError x)) ∈ h

def NotSilent (h : List Event) (s : State) : Prop :=
  CoordinatorEnded s →
    (StageFailed h → ErrorSent h) ∧ (.sent .coordinator installationFinished ∈ h ∨ ErrorSent h)

def Speaking (d : Driver) : Prop := d = .finishing ∨ ∃ i x, d = .reporting i x

/-- Before the step: the coordinator is not in a stage function that panics, no percentage it
computes panics, and the receiver is there when it sends. -/
def Careful (p : Setup) (s : State) (_ : Event) : Prop :=
  (∀ i ms x, s.driver ≠ .calling .coordinator i ms (.panicked x)) ∧
  (∀ k, s.driver.due p.stages.length = some k → p.percent k ≠ none) ∧
  (Speaking s.driver → s.receiver = true)

/-- What the end of the coordinator says of the history. -/
def Told (h : List Event) : Driver → Prop
  | .done => .sent .coordinator installationFinished ∈ h
  | .failed _ x => .sent .coordinator (.error (stageError x)) ∈ h
  | .crashed d => ¬(Driver.crashed d).Background
  | _ => True

variable {p : Setup} {h : List Event} {s t : State} {e : Event}

private theorem Told.append {d : Driver} (hd : Told h d) (e : Event) : Told (h ++ [e]) d := by
  unfold Told at hd ⊢
  split
  · exact List.mem_append_left _ hd
  · exact List.mem_append_left _ hd
  · exact hd
  · trivial

private theorem told_step (hcareful : Careful p s e) (hs : Told h s.driver) (hstep : Step p s e t) :
    Told (h ++ [e]) t.driver := by
  obtain ⟨hreturns, hpercent, hheard⟩ := hcareful
  cases hstep with
  | @finished caller i hd => cases caller <;> trivial
  | @handle caller i ms x hd => cases caller <;> trivial
  | @raise caller i x hd =>
    cases caller with
    | main => simp [Told, hd, Driver.backend]
    | coordinator => exact absurd hd (hreturns i [] x)
  | choose => exact hs.append _
  | @threadSend i m ms x hd =>
    rcases Driver.setThread_cases hd (.running ms x) with ⟨-, h'⟩ | ⟨first, -, h'⟩ | ⟨h', -⟩
    · simp only [h', Told]
    · simp only [h', Told]
    · rw [h'] at hs
      exact absurd rfl hs
  | @threadEnd i x hd =>
    rcases Driver.setThread_cases hd (.ended x) with ⟨-, h'⟩ | ⟨first, -, h'⟩ | ⟨h', -⟩
    · simp only [h', Told]
    · simp only [h', Told]
    · rw [h'] at hs
      exact absurd rfl hs
  | store hd _ =>
    unfold Driver.due at hd
    cases hdriver : s.driver <;> simp_all [Driver.stored, Told]
  | overflow hd hnone => exact absurd hnone (hpercent _ hd)
  | @report i x hd =>
    have halive : s.receiver = true := hheard (Or.inr ⟨i, x, hd⟩)
    simp [Told, State.send, halive]
  | finish => simp [Told]
  | unheard hd hlost =>
    have halive : s.receiver = true := hheard (Or.inl hd)
    exact absurd (halive.symm.trans hlost) (by simp)
  | drop => exact hs.append _
  | call | functionSend | leave | unbuilt | joinFirst | joinNext | joinFailed | allDone => trivial

private theorem told (hrun : (p.system.guarded (Careful p)).Run h s) : Told h s.driver := by
  have hstart : Told [] (.loop 0) := trivial
  refine Path.invariant (I := fun h s => Told h s.driver) hrun hstart ?_
  rintro h s e t - hs ⟨hcareful, hstep⟩
  exact told_step hcareful hs hstep

private theorem not_failed_of_done (hrun : p.system.Run h s) (hd : s.driver = .done) :
    ¬StageFailed h := by
  have htales := (agrees hrun).tales
  rw [hd] at htales
  have hnone : ∀ i r, r ∈ tale i h → r = .finished ∨ r = .handle ∨ r = .ended .ok ∨
      r = .joined .ok := by
    intro i r hr
    rcases tale_cases htales hr with ⟨-, htale | ⟨-, htale⟩⟩ | ⟨-, hnow⟩
    · rw [htale] at hr
      simp_all
    · rw [htale] at hr
      simp_all
    · cases hnow
  rintro (⟨i, x, hmem⟩ | ⟨i, x, hmem⟩)
  · have hr := hnone i (.ended (.panicked x)) (mem_tale.mpr ⟨_, hmem, rfl⟩)
    simp at hr
  · have hr := hnone i (.raised x) (mem_tale.mpr ⟨_, hmem, rfl⟩)
    simp at hr

/-- In every run whose steps are careful the coordinator reports how it ended. -/
theorem never_silent (hrun : (p.system.guarded (Careful p)).Run h s) : NotSilent h s := by
  have htold := told hrun
  rintro (hd | ⟨i, x, hd⟩ | ⟨d, hd, hb⟩)
  · rw [hd] at htold
    exact ⟨fun hfailed => absurd hfailed (not_failed_of_done hrun.of_guarded hd), Or.inl htold⟩
  · rw [hd] at htold
    exact ⟨fun _ => ⟨x, htold⟩, Or.inr ⟨x, htold⟩⟩
  · rw [hd] at htold hb
    exact absurd hb htold

private theorem guarded_of_sane (hstays : p.receiverStays = true) (hreturns : Returns p)
    (hp : PercentDefined p) (hrun : p.system.Run h s) : (p.system.guarded (Careful p)).Run h s := by
  refine Path.to_guarded hrun ?_
  intro pre e post t u _ hpath hstep
  have hsane := sane hstays hreturns hp hpath
  refine ⟨fun i ms x => hsane.returns _ _ _ _, fun k hd => ?_, fun _ => hsane.receiver⟩
  obtain ⟨hk, hpos⟩ := due_le hd (agrees hpath).bound
  exact percent_ne_none hp hpos hk

def failingStage : Setup := ⟨true, true, [fun c => c = ⟨[], .handle [] (.panicked .other)⟩]⟩

def failingHistory : List Event := [.called .main 0, .returned 0 true, .chosen .webview,
  .ended 0 (.panicked .other), .stored 0, .joined 0 (.panicked .other),
  .sent .coordinator (.error (stageError .other))]

private theorem run_failingStage :
    failingStage.system.Run failingHistory ⟨.failed 0 .other, true, 0, true⟩ := by
  have hcall : Step failingStage ⟨.loop 0, false, 0, true⟩ (.called .main 0)
      ⟨.calling .main 0 [] (.handle [] (.panicked .other)), false, 0, true⟩ :=
    .call (c := ⟨[], .handle [] (.panicked .other)⟩) rfl rfl rfl
  have hhandle : Step failingStage ⟨.calling .main 0 [] (.handle [] (.panicked .other)), false, 0,
      true⟩ (.returned 0 true) ⟨.starting 0 (.running [] (.panicked .other)), false, 0, true⟩ :=
    @Step.handle _ _ .main 0 [] (.panicked .other) rfl
  have hchoose : Step failingStage ⟨.starting 0 (.running [] (.panicked .other)), false, 0, true⟩
      (.chosen .webview) ⟨.starting 0 (.running [] (.panicked .other)), true, 0, true⟩ :=
    .choose rfl rfl rfl
  have hend : Step failingStage ⟨.starting 0 (.running [] (.panicked .other)), true, 0, true⟩
      (.ended 0 (.panicked .other)) ⟨.starting 0 (.ended (.panicked .other)), true, 0, true⟩ :=
    .threadEnd rfl
  have hstore : Step failingStage ⟨.starting 0 (.ended (.panicked .other)), true, 0, true⟩
      (.stored 0) ⟨.joining 0 true (.ended (.panicked .other)), true, 0, true⟩ :=
    .store (k := 0) rfl (by decide)
  have hjoin : Step failingStage ⟨.joining 0 true (.ended (.panicked .other)), true, 0, true⟩
      (.joined 0 (.panicked .other)) ⟨.reporting 0 .other, true, 0, true⟩ := .joinFailed rfl
  have hreport : Step failingStage ⟨.reporting 0 .other, true, 0, true⟩
      (.sent .coordinator (.error (stageError .other))) ⟨.failed 0 .other, true, 0, true⟩ :=
    .report rfl
  exact @Path.cons _ _ failingStage.system _ _ _ _ _ hcall (Path.cons hhandle (Path.cons hchoose
    (Path.cons hend (Path.cons hstore (Path.cons hjoin (Path.single hreport))))))

theorem never_silent_of_failing_stage :
    StageFailed failingHistory ∧
      NotSilent failingHistory ⟨.failed 0 .other, true, 0, true⟩ := by
  have hreturns : Returns failingStage := by
    intro stage hmem c hc x
    obtain rfl := List.mem_singleton.mp hmem
    cases hc
    simp
  have hp : PercentDefined failingStage := by simp [PercentDefined, failingStage]
  exact ⟨Or.inl ⟨0, .other, by simp [failingHistory]⟩,
    never_silent (guarded_of_sane rfl hreturns hp run_failingStage)⟩

/-! The five stages of `setup`, with the behaviours of their programs. -/

abbrev StorageEvent := Foundation.Effects.Event Op Res Tree

abbrev StorageRun (w : World) {α : Type} (program : App α) (s : Tree)
    (tr : List StorageEvent) (out : Outcome α)
    (t : Tree) : Prop :=
  Run (environment w) program s tr out t

def sends (tr : List StorageEvent) : List SetupMessage :=
  tr.filterMap fun
    | ⟨_, .send m, some true, _⟩ => some m
    | _ => none

/-- What the function of a stage may do, and the thread it returns. -/
inductive Behaves (w : World) (stage : SetupStage) : Call → Prop
  | finished {s t : Tree} {tr : List StorageEvent} :
      StorageRun w stage s tr (.returned none) t → Behaves w stage ⟨sends tr, .finished⟩
  | handle {s t s' t' : Tree} {tr tr' : List StorageEvent}
      {thread : App Unit} :
      StorageRun w stage s tr (.returned (some thread)) t →
      StorageRun w thread s' tr' (.returned ()) t' →
      Behaves w stage ⟨sends tr, .handle (sends tr') .ok⟩
  | failing {s t s' t' : Tree} {tr tr' : List StorageEvent}
      {thread : App Unit} {message : String} :
      StorageRun w stage s tr (.returned (some thread)) t →
      StorageRun w thread s' tr' (.panicked message) t' →
      Behaves w stage ⟨sends tr, .handle (sends tr') (.panicked (.string message))⟩
  | panicked {s t : Tree} {tr : List StorageEvent} {message : String} :
      StorageRun w stage s tr (.panicked message) t →
      Behaves w stage ⟨sends tr, .panicked (.string message)⟩

def setup (w : World) (overflowChecks receiverStays : Bool) (turns : Nat)
    (diffPaths : Path → Path → Option Path) (context : ApplicationContext) : Setup :=
  ⟨overflowChecks, receiverStays, (stages turns diffPaths context).map (Behaves w)⟩

def smallContext : ApplicationContext := ⟨filesDir, LocalConfig.default⟩

def installedTree : Tree := ⟨[(inRoot ["proc", ".version"], .file (.text []))]⟩

/-- The program may end so without a change, with these messages. -/
def Says {α : Type} (program : App α) (ms : List SetupMessage) (out : Outcome α) : Prop :=
  ∃ tr, StorageRun smallDevice program installedTree tr out installedTree ∧ sends tr = ms

/-- The program may end so without a change and without a message. -/
def Silently {α : Type} (program : App α) (out : Outcome α) : Prop :=
  ∃ tr, StorageRun smallDevice program installedTree tr out installedTree ∧ sends tr = []

def printed (lines : List Text) : List SetupMessage :=
  lines.map fun line => .progress (String.ofList line)

section Bind

variable {α β : Type} {first : App α} {rest : α → App β} {a : α} {ms ms' : List SetupMessage}
  {out : Outcome β}

private theorem Says.bind (hfirst : Says first ms (.returned a)) (hrest : Says (rest a) ms' out) :
    Says (first >>= rest) (ms ++ ms') out := by
  obtain ⟨tr, hrun, rfl⟩ := hfirst
  obtain ⟨tr', hrun', rfl⟩ := hrest
  exact ⟨tr ++ tr', hrun.bind hrun', List.filterMap_append⟩

private theorem Says.after (hfirst : Silently first (.returned a)) (hrest : Says (rest a) ms out) :
    Says (first >>= rest) ms out := by
  have hnothing : Says first [] (.returned a) := hfirst
  exact hnothing.bind hrest

private theorem Says.before (hfirst : Says first ms (.returned a)) (hrest : Silently (rest a) out) :
    Says (first >>= rest) ms out := by
  have hnothing : Says (rest a) [] out := hrest
  have hbind := hfirst.bind hnothing
  rwa [List.append_nil] at hbind

private theorem Silently.bind (hfirst : Silently first (.returned a))
    (hrest : Silently (rest a) out) :
    Silently (first >>= rest) out :=
  Says.after hfirst hrest

end Bind

private theorem silently_pure {α : Type} (a : α) : Silently (pure a : App α) (.returned a) :=
  ⟨[], .pure _ _, rfl⟩

private theorem silently_exec (command : Text) :
    Silently (Process.exec command) (.returned ⟨command, "root".toList⟩) :=
  ⟨[⟨installedTree, .spawn archFsRoot ⟨command, "root".toList⟩, some true, installedTree⟩],
    .step rfl (.pure _ _), rfl⟩

private theorem silently_wait (c : Command) (success : Bool) :
    Silently (Process.wait c) (.returned (some success)) :=
  ⟨[⟨installedTree, .wait archFsRoot c, some (some success), installedTree⟩],
    .step rfl (.pure _ _), rfl⟩

private theorem silently_installed (check : Text) (success : Bool) :
    Silently (installed check) (.returned success) :=
  (silently_exec check).bind ((silently_wait _ success).bind (silently_pure success))

private theorem silently_execWithPanicOnError (command : Text) :
    Silently (Process.execWithPanicOnError command) (.returned ()) := by
  refine (silently_exec command).bind ?_
  refine ⟨[⟨installedTree, .errorOutput archFsRoot ⟨command, "root".toList⟩, some (some []),
    installedTree⟩], .step rfl ?_, rfl⟩
  have hclean : ¬"fatal error: see `libproot.so --help`".toList <:+: ([] : Text) := by simp
  simp only [Program.pure_bind, hclean, if_false]
  exact .pure _ _

private theorem silently_withLog (c : Command) (log : Text → App Unit) :
    Silently (Process.withLog 1 c log) (.returned ()) :=
  ⟨[⟨installedTree, .outputLine archFsRoot c, some none, installedTree⟩],
    .step rfl (.pure _ _), rfl⟩

private theorem says_withLog (c : Command) (lines : List Text) :
    Says (Process.withLog (lines.length + 1) c fun line => sendOrPanic (String.ofList line))
      (printed lines) (.returned ()) := by
  induction lines with
  | nil => exact silently_withLog c _
  | cons line lines ih =>
    show Says _ ([.progress (String.ofList line)] ++ printed lines) _
    refine Says.bind (a := Sum.inr ()) ?_ ?_
    · exact ⟨[⟨installedTree, .outputLine archFsRoot c, some (some (.text line)), installedTree⟩,
        ⟨installedTree, .send (.progress (String.ofList line)), some true, installedTree⟩],
        .step rfl (.step rfl (.pure _ _)), rfl⟩
    · exact ih

theorem archFs_done (turns : Nat) :
    Behaves smallDevice (setupArchFs turns smallContext) ⟨[], .finished⟩ := by
  have hrun : StorageRun smallDevice (setupArchFs turns smallContext) installedTree
      [⟨installedTree, .readDirEmpty archFsRoot, some false, installedTree⟩] (.returned none)
      installedTree := .step ⟨rfl, fun _ => by decide⟩ (.pure _ _)
  exact .finished hrun

theorem sysdata_done : Behaves smallDevice simulateLinuxSysdataStage ⟨[], .finished⟩ := by
  have hrun : StorageRun smallDevice simulateLinuxSysdataStage installedTree
      [⟨installedTree, .pathExists (inRoot ["proc", ".version"]), some true, installedTree⟩]
      (.returned none) installedTree := .step ⟨rfl, by decide⟩ (.pure _ _)
  exact .finished hrun

theorem dependencies_installed (lines : List Text) :
    Behaves smallDevice (installDependencies (lines.length + 1) smallContext)
      ⟨[], .handle (printed lines) .ok⟩ := by
  have hturn : Says (installTurn (lines.length + 1) defaultCheck defaultInstall ())
      (printed lines) (.returned (.inl ())) :=
    .after (silently_execWithPanicOnError _) (.after (silently_exec _)
      (.before (says_withLog _ lines) ((silently_installed _ true).bind (silently_pure _))))
  have hloop : Says (Program.iterate (installTurn (lines.length + 1) defaultCheck defaultInstall)
      (lines.length + 1) ()) (printed lines) (.returned ()) :=
    hturn.before (silently_pure ())
  have hcheck : Silently (installDependencies (lines.length + 1) smallContext)
      (.returned (some (Program.iterate (installTurn (lines.length + 1) defaultCheck defaultInstall)
        (lines.length + 1) ()))) :=
    (silently_installed _ false).bind (silently_pure _)
  obtain ⟨tr, hrun, hsends⟩ := hcheck
  obtain ⟨tr', hrun', hsends'⟩ := hloop
  have hbehaves := Behaves.handle hrun hrun'
  rwa [hsends, hsends'] at hbehaves

private theorem firefox_panics : Behaves smallDevice setupFirefoxConfig
    ⟨[], .panicked (.string (expectation "Failed to create Firefox root directory"))⟩ := by
  have hrun : StorageRun smallDevice setupFirefoxConfig installedTree
      [⟨installedTree, .createDirAll (inRoot ["usr", "lib", "firefox"]), some false,
        installedTree.mkdirs []⟩]
      (.panicked (expectation "Failed to create Firefox root directory"))
      (installedTree.mkdirs []) :=
    .step (Or.inl ⟨rfl, [], List.nil_prefix, rfl⟩) (.panic _ _)
  exact .panicked hrun

/-- The check of the dependencies fails and they are installed; then the Firefox directory cannot
be made. Nothing at all is sent. -/
theorem setup_silent_after_firefox :
    ∃ h s, (setup smallDevice false true 1 (fun _ _ => none) smallContext).system.Run h s ∧
      CoordinatorEnded s ∧ (∃ x, .raised .coordinator 3 x ∈ h) ∧ ∀ sender m, .sent sender m ∉ h := by
  let p := setup smallDevice false true 1 (fun _ _ => none) smallContext
  let x := Payload.string (expectation "Failed to create Firefox root directory")
  have hdone : ∀ i < 2, Allows p i ⟨[], .finished⟩ := by
    intro i hi
    obtain rfl | rfl : i = 0 ∨ i = 1 := by omega
    · exact ⟨_, rfl, archFs_done _⟩
    · exact ⟨_, rfl, sysdata_done⟩
  have hwork : Allows p 2 ⟨[], .handle [] .ok⟩ := ⟨_, rfl, dependencies_installed []⟩
  have h₈ : Step p ⟨.starting 2 (.ended .ok), true, 0, true⟩ (.stored 40)
      ⟨.joining 2 true (.ended .ok), true, 40, true⟩ := .store (k := 2) rfl (by decide)
  have h₉ : Step p ⟨.joining 2 true (.ended .ok), true, 40, true⟩ (.joined 2 .ok)
      ⟨.next 3, true, 40, true⟩ := .joinFirst rfl
  have h₁₀ : Step p ⟨.next 3, true, 40, true⟩ (.stored 60) ⟨.ready 3, true, 60, true⟩ :=
    .store (k := 3) rfl (by decide)
  have h₁₁ : Step p ⟨.ready 3, true, 60, true⟩ (.called .coordinator 3)
      ⟨.calling .coordinator 3 [] (.panicked x), true, 60, true⟩ := .call rfl rfl firefox_panics
  have h₁₂ : Step p ⟨.calling .coordinator 3 [] (.panicked x), true, 60, true⟩
      (.raised .coordinator 3 x)
      ⟨.crashed (.calling .coordinator 3 [] (.panicked x)), true, 60, true⟩ := .raise rfl
  have hpath := @Path.cons _ _ p.system _ _ _ _ _ h₈ (.cons h₉ (.cons h₁₀ (.cons h₁₁
    (.single h₁₂))))
  refine ⟨_, _, (run_handed hdone hwork).append hpath, Or.inr (Or.inr ⟨_, rfl, rfl⟩),
    ⟨x, by simp⟩, fun sender m => by simp [skipped]⟩

end LocalDesktop.Android.Proot.PipelineFailure
