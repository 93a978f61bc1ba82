/- GID: LocalDesktop/Android/Proot/ArchFs
   generality: G
   digest: Over any number of killed starts, the root is occupied by a complete extraction only. -/

import LocalDesktop.Android.Proot.StageOps
import LocalDesktop.Core.LineToml

set_option autoImplicit false
set_option relaxedAutoImplicit false

namespace LocalDesktop.Android.Proot.ArchFs

open Foundation.Strings Foundation.FileTree Foundation.Effects Platform Core.Config
  Core.LineToml Process Stages RootOps StageOps

variable {w : World} {dataDir : Path}

/-- The rename that puts a complete extraction where nothing was. -/
structure Installs (w : World) (dataDir : Path) (e : Event Op Res Tree) : Prop where
  op : e.op = .rename (extractedDir dataDir) archFsRoot
  vacant : ¬Occupied e.before
  complete : Extracted w.image (extractedDir dataDir) e.before
  moved : e.after = e.before.move (extractedDir dataDir) archFsRoot

/-- Each event leaves the root alone, installs it, or writes inside of an occupied root. -/
structure Accounted (w : World) (dataDir : Path) (e : Event Op Res Tree) : Prop where
  vacant : ¬Occupied e.before → SameBelow archFsRoot e.before e.after ∨ Installs w dataDir e
  occupied : Occupied e.before →
    Occupied e.after ∧
      (SameBelow archFsRoot e.before e.after ∨ Inside e.op ∨ WritesProc e.op)

private theorem accounted_of_sameBelow {e : Event Op Res Tree}
    (h : SameBelow archFsRoot e.before e.after) : Accounted w dataDir e :=
  ⟨fun _ => Or.inl h, fun ho => ⟨ho.of_sameBelow h, Or.inl h⟩⟩

private theorem accounted_of_inside {e : Event Op Res Tree} (ho : Occupied e.before)
    (hi : Inside e.op ∨ WritesProc e.op) (ha : Occupied e.after) : Accounted w dataDir e :=
  ⟨fun hn => absurd ho hn, fun _ => ⟨ha, Or.inr hi⟩⟩

section Programs

variable {α : Type} {R : α → Prop} {s : Tree}

private theorem safe_of_quiet (hd : DataDir w dataDir) {p : App α} (hp : p.All (Quiet dataDir) R) :
    Safe (environment w) (Accounted w dataDir) (fun _ => True) (fun a _ => R a) p s := by
  refine Safe.of_all ?_ ?_ hp trivial
  · exact fun o s r s' hq _ hs => ⟨accounted_of_sameBelow (hq.step hd hs), trivial⟩
  · exact fun o s s' hq _ ht => ⟨accounted_of_sameBelow (hq.torn hd ht), trivial⟩

private theorem safe_of_later (hd : DataDir w dataDir) {p : App α} (hp : p.All (Later dataDir) R)
    (hs : Occupied s) :
    Safe (environment w) (Accounted w dataDir) (fun _ => True) (fun a t => Occupied t ∧ R a)
      p s := by
  refine Safe.forget (I := Occupied) ?_ fun _ _ => trivial
  refine Safe.of_all ?_ ?_ hp hs
  · rintro o s r s' ((hq | hi) | hw) ho hs
    · have hsame := hq.step hd hs
      exact ⟨accounted_of_sameBelow hsame, ho.of_sameBelow hsame⟩
    · have ho' := hi.step hs ho
      exact ⟨accounted_of_inside ho (Or.inl hi) ho', ho'⟩
    · have ho' := hw.step hs ho
      exact ⟨accounted_of_inside ho (Or.inr hw) ho', ho'⟩
  · rintro o s s' ((hq | hi) | hw) ho ht
    · have hsame := hq.torn hd ht
      exact ⟨accounted_of_sameBelow hsame, ho.of_sameBelow hsame⟩
    · have ho' := hi.torn ht ho
      exact ⟨accounted_of_inside ho (Or.inl hi) ho', ho'⟩
    · have ho' := hw.torn ht ho
      exact ⟨accounted_of_inside ho (Or.inr hw) ho', ho'⟩

private theorem safe_of_beside (hd : DataDir w dataDir) {p : App α} (hp : p.All (Beside dataDir) R)
    (hs : Occupied s) :
    Safe (environment w) (Accounted w dataDir) (fun _ => True) (fun a t => Occupied t ∧ R a)
      p s :=
  safe_of_later hd (hp.mono (fun _ => Or.inl) fun _ => id) hs

end Programs

/-! The first stage, and the configuration read before it. -/

private theorem later_send (m : SetupMessage) : Later dataDir (.send m) := Or.inl (Or.inl trivial)

section Start

variable (hd : DataDir w dataDir) {α β : Type} {s : Tree}

include hd

private theorem safe_perform {o : Op} (ho : Quiet dataDir o) {f : Res o → App α}
    {Q : α → Tree → Prop}
    (hf : ∀ r t, step w o s r t →
      Safe (environment w) (Accounted w dataDir) (fun _ => True) Q (f r) t) :
    Safe (environment w) (Accounted w dataDir) (fun _ => True) Q (perform o >>= f) s :=
  ⟨trivial, fun _ ht => ⟨accounted_of_sameBelow (ho.torn hd ht), trivial⟩,
    fun r t hs => ⟨accounted_of_sameBelow (ho.step hd hs), hf r t hs⟩⟩

omit hd in
private theorem safe_bind {p : App α} {f : α → App β} {Q : α → Tree → Prop} {Q' : β → Tree → Prop}
    (hp : Safe (environment w) (Accounted w dataDir) (fun _ => True) Q p s)
    (hf : ∀ a t, Q a t →
      Safe (environment w) (Accounted w dataDir) (fun _ => True) Q' (f a) t) :
    Safe (environment w) (Accounted w dataDir) (fun _ => True) Q' (p >>= f) s :=
  (hp.mono fun a t _ => hf a t).bind

private theorem safe_extractTurn (turns : Nat) (u : Unit) :
    Safe (environment w) (Accounted w dataDir) (fun _ => True)
      (fun r t => r.elim (fun _ => Extracted w.image (extractedDir dataDir) t) fun _ => True)
      (extractTurn turns dataDir u) s := by
  refine safe_perform hd (by trivial) fun present t _ => ?_
  refine safe_bind (safe_of_quiet hd (all_ensureDownloaded dataDir turns present)) fun _ t _ => ?_
  refine safe_bind (safe_of_quiet hd (all_sendOrPanic dataDir _)) fun _ t _ => ?_
  refine safe_perform hd (by exact rfl) fun _ t _ => ?_
  refine safe_perform hd (by trivial) fun _ t _ => ?_
  refine safe_bind (safe_of_quiet hd (all_pbExpect _ _)) fun _ t _ => ?_
  refine safe_perform hd (by exact rfl) fun unpacked t hunpack => ?_
  match unpacked with
  | .ok () => exact ⟨trivial, hd.extractedDir_eq ▸ (hunpack.2 rfl).2⟩
  | .error e =>
    refine safe_perform hd (by exact rfl) fun _ t _ => ?_
    refine safe_perform hd (by exact rfl) fun _ t _ => ?_
    refine safe_perform hd (by trivial) fun _ t _ => ?_
    exact ⟨trivial, trivial⟩

private theorem occupied_of_installs {e : Event Op Res Tree} (h : Installs w dataDir e) :
    Occupied e.after := by
  obtain ⟨f, hf⟩ := List.exists_mem_of_ne_nil _ w.image.files_ne
  refine occupied_of_get (q := archFsRoot ++ f.1) (List.prefix_append _ _) ?_ ?_
  · simpa using w.image.proper f hf
  · rw [h.moved, get_move_below hd.apart_extractedDir.1 hd.apart_extractedDir.2,
      h.complete f hf]
    rfl

omit hd in
private theorem accounted_rename {r : Option (Res (.rename (extractedDir dataDir) archFsRoot))}
    {t : Tree}
    (hcomplete : Extracted w.image (extractedDir dataDir) s)
    (hstep : t = s ∨ (s.occupied archFsRoot = false ∧
      t = s.move (extractedDir dataDir) archFsRoot)) :
    Accounted w dataDir ⟨s, .rename (extractedDir dataDir) archFsRoot, r, t⟩ := by
  rcases hstep with rfl | ⟨hvacant, rfl⟩
  · exact accounted_of_sameBelow (SameBelow.refl _ _)
  · have hnot : ¬Occupied s := by simp [Occupied, hvacant]
    exact ⟨fun _ => Or.inr ⟨rfl, hnot, hcomplete, rfl⟩, fun ho => absurd ho hnot⟩

private theorem safe_moveExtraction :
    Extracted w.image (extractedDir dataDir) s →
    Safe (environment w) (Accounted w dataDir) (fun _ => True) (fun _ t => Occupied t)
      (do
        let renamed ← perform (.rename (extractedDir dataDir) archFsRoot)
        pbExpect "Failed to rename extracted files to final destination" renamed
        let removed ← perform (.removeFile (tempFile dataDir))
        pbExpect "Failed to remove temporary file" removed) s := by
  intro hcomplete
  refine ⟨trivial, ?_, ?_⟩
  · rintro t (rfl | ⟨r, ⟨-, rfl⟩ | ⟨-, -, hvacant, rfl⟩⟩)
    · exact ⟨accounted_rename hcomplete (Or.inl rfl), trivial⟩
    · exact ⟨accounted_rename hcomplete (Or.inl rfl), trivial⟩
    · exact ⟨accounted_rename hcomplete (Or.inr ⟨hvacant, rfl⟩), trivial⟩
  · rintro r t (⟨rfl, rfl⟩ | ⟨rfl, -, hvacant, rfl⟩)
    · exact ⟨accounted_rename hcomplete (Or.inl rfl), trivial⟩
    · have hnot : ¬Occupied s := by simp [Occupied, hvacant]
      have hinstall : Installs w dataDir
          ⟨s, .rename (extractedDir dataDir) archFsRoot, some true,
            s.move (extractedDir dataDir) archFsRoot⟩ :=
        ⟨rfl, hnot, hcomplete, rfl⟩
      have hoccupied := occupied_of_installs hd hinstall
      refine ⟨accounted_rename hcomplete (Or.inr ⟨hvacant, rfl⟩), ?_⟩
      refine Safe.mono (safe_of_beside hd (R := fun _ => True) ?_ hoccupied) fun _ _ _ h => h.1
      exact all_perform (Or.inl rfl) fun _ => all_pbExpect _ _

private theorem safe_setupArchFs (turns : Nat) (localConfig : LocalConfig) :
    Safe (environment w) (Accounted w dataDir) (fun _ => True)
      (fun output t => match output with
        | none => Occupied t
        | some handle => Safe (environment w) (Accounted w dataDir) (fun _ => True)
            (fun _ t => Occupied t) handle t)
      (setupArchFs turns ⟨dataDir, localConfig⟩) s := by
  refine safe_perform hd (by trivial) fun needSetup t hread => ?_
  cases needSetup with
  | false => exact ⟨trivial, (hread.1.symm ▸ hread.2 rfl : Occupied t)⟩
  | true =>
    refine ⟨trivial, ?_⟩
    have hloop : Safe (environment w) (Accounted w dataDir) (fun _ => True)
        (fun _ t => Extracted w.image (extractedDir dataDir) t)
        (Program.iterate (extractTurn turns dataDir) turns ()) t := by
      refine Safe.iterate (fun _ _ => True) (fun _ _ _ => trivial) (fun u s _ => ?_) turns trivial
      refine (safe_extractTurn hd turns u).mono ?_
      rintro (_ | _) t _ h
      · exact h
      · trivial
    exact safe_bind hloop fun _ t hcomplete => safe_moveExtraction hd hcomplete

private theorem safe_coordinator {handle : App Unit} {rest : List SetupStage}
    (hhandle : Safe (environment w) (Accounted w dataDir) (fun _ => True)
      (fun _ t => Occupied t) handle s)
    (hrest : ∀ stage ∈ rest, StageIssues (Later dataDir) stage) :
    Safe (environment w) (Accounted w dataDir) (fun _ => True) (fun _ _ => True)
      (coordinator handle rest) s := by
  refine safe_bind (Q := fun joined t => joined = .ok () → Occupied t)
    (Safe.join (hhandle.mono fun _ t _ h _ => h) fun _ _ _ h => absurd h (by simp))
    fun joined t hjoined => ?_
  match joined with
  | .ok () =>
    exact (safe_of_later hd (all_remainingStages later_send hrest) (hjoined rfl)).mono
      fun _ _ _ _ => trivial
  | .error e => exact safe_perform hd (by trivial) fun _ _ _ => ⟨trivial, trivial⟩

private theorem safe_runStages (turns : Nat) (localConfig : LocalConfig) {rest : List SetupStage}
    (hrest : ∀ stage ∈ rest, StageIssues (Later dataDir) stage) :
    Safe (environment w) (Accounted w dataDir) (fun _ => True)
      (fun done t => done = true → Occupied t)
      (runStages (setupArchFs turns ⟨dataDir, localConfig⟩ :: rest)) s := by
  refine safe_bind (safe_setupArchFs hd turns localConfig) fun output t houtput => ?_
  match output with
  | none =>
    exact (safe_of_later hd (all_runStages later_send hrest) houtput).mono fun _ _ _ h _ => h.1
  | some handle =>
    refine safe_bind (Q := fun _ _ => True) ?_ fun _ _ _ => ⟨trivial, fun h => absurd h (by simp)⟩
    exact Safe.join ((safe_coordinator hd houtput hrest).mono fun _ _ _ h => h)
      fun _ _ _ => trivial

private theorem safe_saveConfig (toml : Toml) (config : LocalConfig) :
    Safe (environment w) (Accounted w dataDir) (fun _ => True) (fun _ _ => True)
      (saveConfig toml config) s := by
  refine safe_perform hd (by trivial) fun missing t hread => ?_
  cases missing with
  | true => exact ⟨trivial, trivial⟩
  | false =>
    have hoccupied : Occupied t := hread.1.symm ▸ hread.2 rfl
    exact (safe_of_beside hd (all_saveConfigFile dataDir toml config) hoccupied).mono
      fun _ _ _ _ => trivial

private theorem safe_parseConfig (toml : Toml) :
    Safe (environment w) (Accounted w dataDir) (fun _ => True) (fun _ _ => True)
      (parseConfig toml fullConfigPath) s := by
  refine safe_bind (Q := fun _ _ => True) ?_ fun ls t _ => ?_
  · refine safe_perform hd (by trivial) fun read t hread => ?_
    match read with
    | none => exact safe_bind (safe_saveConfig hd toml _) fun _ _ _ => ⟨trivial, trivial⟩
    | some content =>
      have hfile := hread.2 content rfl
      have hoccupied : Occupied s := occupied_of_get (q := fullConfigPath)
        ⟨configFile, rfl⟩ (by decide) (by rw [hfile]; rfl)
      exact (safe_of_beside hd (all_rewrite dataDir _) (hread.1.symm ▸ hoccupied)).mono
        fun _ _ _ _ => trivial
  · match h : toml.fromStr (join ls) with
    | some config => exact ⟨trivial, trivial⟩
    | none => exact safe_bind (safe_saveConfig hd toml _) fun _ _ _ => ⟨trivial, trivial⟩

omit hd in
private theorem stageIssues_rest (turns : Nat) (diffPaths : Path → Path → Option Path)
    (context : ApplicationContext) :
    ∀ stage ∈ [simulateLinuxSysdataStage, installDependencies turns context, setupFirefoxConfig,
      fixXkbSymlink diffPaths], StageIssues (Later dataDir) stage := by
  simp only [List.forall_mem_cons, List.not_mem_nil, false_imp_iff, implies_true, and_true]
  exact ⟨stageIssues_simulateLinuxSysdataStage dataDir,
    (stageIssues_installDependencies dataDir turns context).mono fun _ => Or.inl,
    (stageIssues_setupFirefoxConfig dataDir).mono fun _ => Or.inl,
    (stageIssues_fixXkbSymlink dataDir diffPaths).mono fun _ => Or.inl⟩

private theorem safe_appStart (turns resumed : Nat) (toml : Toml)
    (diffPaths : Path → Path → Option Path) :
    Safe (environment w) (Accounted w dataDir) (fun _ => True) (fun _ _ => True)
      (appStart turns resumed toml diffPaths dataDir) s := by
  refine safe_bind (safe_parseConfig hd toml) fun localConfig t _ => ?_
  have hrest := @stageIssues_rest dataDir turns diffPaths ⟨dataDir, localConfig⟩
  refine safe_bind (safe_runStages hd turns localConfig hrest) fun done t hdone => ?_
  cases done with
  | false => exact ⟨trivial, trivial⟩
  | true =>
    exact (safe_of_beside hd (all_desktop dataDir turns resumed localConfig) (hdone rfl)).mono
      fun _ _ _ _ => trivial

end Start

/-- The starts of the app on one device, however long each of them is followed. -/
def AppStarts (toml : Toml) (diffPaths : Path → Path → Option Path) (dataDir : Path)
    (p : App Unit) (_ : List (Event Op Res Tree)) : Prop :=
  ∃ turns resumed, p = appStart turns resumed toml diffPaths dataDir

private theorem accounted_of_starts (hd : DataDir w dataDir) {toml : Toml}
    {diffPaths : Path → Path → Option Path} {s t : Tree} {es : List (Event Op Res Tree)}
    (h : Starts (environment w) (AppStarts toml diffPaths dataDir) s es t) :
    ∀ e ∈ es, Accounted w dataDir e := by
  refine (Starts.sound (I := fun _ => True) ?_ h trivial).2
  rintro p tr out s u ⟨turns, resumed, rfl⟩ _ hrun
  exact ⟨trivial, ((safe_appStart hd turns resumed toml diffPaths).sound hrun).2.1⟩

/-- The root came from the rename of a complete extraction; before it nothing was there, and
after it only operations of the configuration and of the later stages changed it. -/
def InstalledIn (w : World) (dataDir : Path) (es : List (Event Op Res Tree)) : Prop :=
  ∃ pre install post, es = pre ++ install :: post ∧ Installs w dataDir install ∧
    (∀ e ∈ pre, ¬Occupied e.before ∧ ¬Occupied e.after) ∧
    ∀ e ∈ post, Occupied e.before ∧ Occupied e.after ∧
      (SameBelow archFsRoot e.before e.after ∨ Inside e.op ∨ WritesProc e.op)

private theorem Accounted.installs {e : Event Op Res Tree} (h : Accounted w dataDir e)
    (hbefore : ¬Occupied e.before) (hafter : Occupied e.after) : Installs w dataDir e := by
  rcases h.vacant hbefore with hsame | hinstall
  · exact absurd (by rwa [Occupied, hsame.occupied_eq] at hafter) hbefore
  · exact hinstall

private theorem installedIn_of_occupied {s t : Tree} {es : List (Event Op Res Tree)}
    (hlinked : Linked s es t) (haccounted : ∀ e ∈ es, Accounted w dataDir e) (hs : ¬Occupied s)
    (ht : Occupied t) : InstalledIn w dataDir es := by
  have hkeep : ∀ e ∈ es, Occupied e.before → Occupied e.after := fun e he ho =>
    ((haccounted e he).occupied ho).1
  obtain ⟨pre, install, post, rfl, hbefore, hafter, hpre, hpost⟩ :=
    hlinked.exists_switch hkeep hs ht
  have hinstall := (haccounted install (by simp)).installs hbefore hafter
  refine ⟨pre, install, post, rfl, hinstall, hpre, fun e he => ?_⟩
  have ho := hpost e he
  exact ⟨ho.1, ho.2, ((haccounted e (by simp [he])).occupied ho.1).2⟩

private theorem occupied_of_setupArchFs_none (hd : DataDir w dataDir) {turns : Nat}
    {localConfig : LocalConfig} {t t' : Tree} {tr : List (Event Op Res Tree)}
    (h : Run (environment w) (setupArchFs turns ⟨dataDir, localConfig⟩) t tr (.returned none) t') :
    Occupied t' :=
  ((safe_setupArchFs hd turns localConfig).sound h).2.2 none rfl

/-- From a missing or empty root, over any number of starts each cut anywhere: an occupied root
was installed by a rename, `setup_arch_fs` reports the stage done over such a root only, and
nothing else occupies the root. -/
theorem arch_fs_crash_consistent (hd : DataDir w dataDir) {toml : Toml}
    {diffPaths : Path → Path → Option Path} {s t : Tree} {es : List (Event Op Res Tree)}
    (hfresh : ¬Occupied s)
    (hstarts : Starts (environment w) (AppStarts toml diffPaths dataDir) s es t) :
    (Occupied t → InstalledIn w dataDir es) ∧
    (∀ turns localConfig tr t',
      Run (environment w) (setupArchFs turns ⟨dataDir, localConfig⟩) t tr (.returned none) t' →
      InstalledIn w dataDir (es ++ tr)) ∧
    ∀ e ∈ es, ¬Occupied e.before → Occupied e.after → Installs w dataDir e := by
  have haccounted := accounted_of_starts hd hstarts
  refine ⟨installedIn_of_occupied hstarts.linked haccounted hfresh, ?_, fun e he =>
    (haccounted e he).installs⟩
  intro turns localConfig tr t' hrun
  have htr := ((safe_setupArchFs hd turns localConfig).sound hrun).2.1
  refine installedIn_of_occupied (hstarts.linked.append hrun.linked) ?_ hfresh
    (occupied_of_setupArchFs_none hd hrun)
  intro e he
  rcases List.mem_append.mp he with he | he
  · exact haccounted e he
  · exact htr e he

/-! A small device on which nothing fails. -/

def filesDir : Path := ["data", "data", "app.polarbear", "files"]

def smallArchive : Served where
  bytes := [80, 75]
  files := [(["etc", "hostname"], .text "arch".toList)]
  top := "archlinux-aarch64"
  success _ := true

def smallDevice : World where
  image := ⟨smallArchive.bytes, smallArchive.files, by decide, by decide⟩
  top := smallArchive.top
  guest := idleGuest

theorem dataDir_smallDevice : DataDir smallDevice filesDir := ⟨by decide, rfl⟩

private theorem step_smallDevice (o : Op) (t : Tree) :
    step smallDevice o t (succeed smallArchive o t).1 (succeed smallArchive o t).2 :=
  step_succeed rfl rfl rfl rfl (by decide) o t

/-- A first start on an empty storage, killed after `n` operations. -/
def firstStart (n : Nat) : List (Event Op Res Tree) × Tree :=
  execKilled (succeed smallArchive) n (appStart 5 0 lineToml (fun _ _ => none) filesDir) ⟨[]⟩

theorem run_firstStart (n : Nat) :
    Run (environment smallDevice) (appStart 5 0 lineToml (fun _ _ => none) filesDir) ⟨[]⟩
      (firstStart n).1 .killed (firstStart n).2 :=
  run_execKilled (succeed smallArchive) step_smallDevice n _ _

theorem starts_firstStart (n : Nat) :
    Starts (environment smallDevice) (AppStarts lineToml (fun _ _ => none) filesDir) ⟨[]⟩
      (firstStart n).1 (firstStart n).2 :=
  Starts.again (Starts.none _) ⟨5, 0, rfl⟩ (run_firstStart n)

theorem arch_fs_crash_consistent_after_rename :
    Occupied (firstStart 16).2 ∧ InstalledIn smallDevice filesDir (firstStart 16).1 := by
  have hoccupied : (firstStart 16).2.occupied archFsRoot = true := by decide +kernel
  have hfresh : ¬Occupied (Tree.mk []) := by simp [Occupied, Tree.occupied]
  exact ⟨hoccupied, (arch_fs_crash_consistent dataDir_smallDevice hfresh
    (starts_firstStart 16)).1 hoccupied⟩

end LocalDesktop.Android.Proot.ArchFs
