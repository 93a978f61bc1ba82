/- GID: LocalDesktop/Android/Proot/Stages
   generality: G
   digest: The setup stages, and one start of the app from its configuration to the desktop. -/

import LocalDesktop.Android.Proot.Process

set_option autoImplicit false
set_option relaxedAutoImplicit false

namespace LocalDesktop.Android.Proot.Stages

open Foundation.Strings Foundation.FileTree Foundation.Effects Platform Core.Config Process

/-- What the stages read of the application context. -/
structure ApplicationContext where
  dataDir : Path
  localConfig : LocalConfig

abbrev StageOutput := Option (App Unit)

abbrev SetupStage := App StageOutput

def sendOrPanic (message : String) : App Unit := do
  let sent ← perform (.send (.progress message))
  pbExpect "Failed to send log message" sent

def archFsArchive : String :=
  "https://github.com/termux/proot-distro/releases/download/v4.22.1/archlinux-aarch64-pd-v4.22.1.tar.xz"

def tempFile (dataDir : Path) : Path := dataDir ++ ["archlinux-fs.tar.xz"]

def extractedDir (dataDir : Path) : Path := dataDir ++ ["archlinux-aarch64"]

/-- Megabytes with two decimals, the last one rounded to even. -/
def megabytes (bytes : Nat) : String :=
  let scaled := bytes * 100
  let down := scaled / 1048576
  let rest := scaled % 1048576 * 2
  let hundredths := if 1048576 < rest ∨ (rest = 1048576 ∧ down % 2 = 1) then down + 1 else down
  let decimals := toString (hundredths % 100)
  toString (hundredths / 100) ++ "." ++ (if hundredths % 100 < 10 then "0" else "") ++ decimals

def downloadText (percent downloaded totalSize : Nat) : String :=
  "Downloading Arch Linux FS... " ++ toString percent ++ "% (" ++ megabytes downloaded ++
    " MB / " ++ megabytes totalSize ++ " MB)"

/-- One turn of the loop that reads the response; it holds `downloaded` and `last_percent`. -/
def readTurn (tempFile : Path) (totalSize : Nat) (state : Nat × Nat) :
    App (Unit ⊕ (Nat × Nat)) := do
  let read ← perform (.readResponse state.1)
  match read with
  | none => .panic (expectation "Failed to read from response")
  | some [] => pure (.inl ())
  | some chunk => do
      let written ← perform (.writeAll tempFile chunk)
      pbExpect "Failed to write to file" written
      let downloaded := state.1 + chunk.length
      let percent := min (downloaded * 100 / totalSize) 100
      if totalSize > 0 ∧ percent ≠ state.2 then do
        let _ ← perform (.send (.progress (downloadText percent downloaded totalSize)))
        pure (.inr (downloaded, percent))
      else pure (.inr (downloaded, state.2))

def download (turns : Nat) (dataDir : Path) : App Unit := do
  sendOrPanic "Downloading Arch Linux FS..."
  let response ← perform (.get archFsArchive)
  match response with
  | none => .panic (expectation "Failed to download Arch Linux FS")
  | some contentLength => do
      let created ← perform (.createFile (tempFile dataDir))
      pbExpect "Failed to create temp file for Arch Linux FS" created
      Program.iterate (readTurn (tempFile dataDir) (contentLength.getD 0)) turns (0, 0)

/-- Download if the archive does not exist. -/
def ensureDownloaded (turns : Nat) (dataDir : Path) (present : Bool) : App Unit :=
  if present = true then pure () else download turns dataDir

/-- One turn of the download and extraction loop. -/
def extractTurn (turns : Nat) (dataDir : Path) (_ : Unit) : App (Unit ⊕ Unit) := do
  let present ← perform (.pathExists (tempFile dataDir))
  ensureDownloaded turns dataDir present
  sendOrPanic "Extracting Arch Linux FS..."
  let _ ← perform (.removeDirAll (extractedDir dataDir))
  let opened ← perform (.openFile (tempFile dataDir))
  pbExpect "Failed to open downloaded Arch Linux FS file" opened
  let unpacked ← perform (.unpack (tempFile dataDir) dataDir)
  match unpacked with
  | .ok () => pure (.inl ())
  | .error e => do
      let _ ← perform (.removeDirAll (extractedDir dataDir))
      let _ ← perform (.removeFile (tempFile dataDir))
      let _ ← perform (.send (.error
        ("Failed to extract Arch Linux FS: " ++ e ++ ". Restarting download...")))
      pure (.inr ())

def setupArchFs (turns : Nat) (context : ApplicationContext) : SetupStage := do
  let needSetup ← perform (.readDirEmpty archFsRoot)
  if needSetup = true then
    pure (some (do
      Program.iterate (extractTurn turns context.dataDir) turns ()
      let renamed ← perform (.rename (extractedDir context.dataDir) archFsRoot)
      pbExpect "Failed to rename extracted files to final destination" renamed
      let removed ← perform (.removeFile (tempFile context.dataDir))
      pbExpect "Failed to remove temporary file" removed))
  else pure none

def inRoot (path : Path) : Path := archFsRoot ++ path

/-- The simulated files, in the order in which they are written. -/
def procFiles : List (Path × Text) := [
  (["proc", ".loadavg"], "0.12 0.07 0.02 2/165 765\n".toList),
  (["proc", ".stat"],
    "cpu  1957 0 2877 93280 262 342 254 87 0 0\ncpu0 31 0 226 12027 82 10 4 9 0 0\n".toList),
  (["proc", ".uptime"], "124.08 932.80\n".toList),
  (["proc", ".version"],
    "Linux version 6.2.1 (proot@termux) (gcc (GCC) 12.2.1 20230201, GNU ld (GNU Binutils) 2.40) #1 SMP PREEMPT_DYNAMIC Wed, 01 Mar 2023 00:00:00 +0000\n".toList),
  (["proc", ".vmstat"],
    "nr_free_pages 1743136\nnr_zone_inactive_anon 179281\nnr_zone_active_anon 7183\n".toList),
  (["proc", ".sysctl_entry_cap_last_cap"], "40\n".toList),
  (["proc", ".sysctl_inotify_max_user_watches"], "4096\n".toList)]

def writeProcFiles : List (Path × Text) → App Unit
  | [] => pure ()
  | (path, content) :: files => do
      let written ← perform (.write (inRoot path) content)
      pbExpect ("Permission denied while writing to " ++ String.intercalate "/" path) written
      writeProcFiles files

/-- The directories; that they cannot be made or protected is ignored. -/
def prepareSysdata : App Unit := do
  sendOrPanic "Simulating Linux system data..."
  let _ ← perform (.createDirAll (inRoot ["proc"]))
  let _ ← perform (.createDirAll (inRoot ["sys"]))
  let _ ← perform (.createDirAll (inRoot ["sys", ".empty"]))
  let _ ← perform (.setPermissions (inRoot ["proc"]) 0o700)
  let _ ← perform (.setPermissions (inRoot ["sys"]) 0o700)
  let _ ← perform (.setPermissions (inRoot ["sys", ".empty"]) 0o700)
  pure ()

def simulateLinuxSysdataStage : SetupStage := do
  let done ← perform (.pathExists (inRoot ["proc", ".version"]))
  if done = true then pure none
  else pure (some (do
    prepareSysdata
    writeProcFiles procFiles))

/-- The check of `install_dependencies`. -/
def installed (check : Text) : App Bool := do
  let c ← exec check
  let status ← wait c
  match status with
  | none => .panic (expectation "Failed to check whether the installation target is installed")
  | some success => pure success

def installTurn (turns : Nat) (check install : Text) (_ : Unit) : App (Unit ⊕ Unit) := do
  execWithPanicOnError "rm -f /var/lib/pacman/db.lck".toList
  let c ← exec install
  withLog turns c fun line => sendOrPanic (String.ofList line)
  let done ← installed check
  if done = true then pure (.inl ()) else pure (.inr ())

def installDependencies (turns : Nat) (context : ApplicationContext) : SetupStage := do
  let command := context.localConfig.command
  let done ← installed command.check
  if done = true then pure none
  else pure (some (Program.iterate (installTurn turns command.check command.install) turns ()))

def autoconfigJs : Text :=
  "pref(\"general.config.filename\", \"localdesktop.cfg\");\npref(\"general.config.obscure_value\", 0);\n".toList

def firefoxCfg : Text :=
  "// Auto updated by Local Desktop on each startup, do not edit manually\ndefaultPref(\"media.cubeb.sandbox\", false);\ndefaultPref(\"security.sandbox.content.level\", 0);\n".toList

def setupFirefoxConfig : SetupStage := do
  let firefoxRoot := inRoot ["usr", "lib", "firefox"]
  let prefDir := firefoxRoot ++ ["defaults", "pref"]
  let made ← perform (.createDirAll firefoxRoot)
  pbExpect "Failed to create Firefox root directory" made
  let made ← perform (.createDirAll prefDir)
  pbExpect "Failed to create Firefox pref directory" made
  let written ← perform (.write (prefDir ++ ["autoconfig.js"]) autoconfigJs)
  pbExpect "Failed to write Firefox autoconfig.js" written
  let written ← perform (.write (firefoxRoot ++ ["localdesktop.cfg"]) firefoxCfg)
  pbExpect "Failed to write Firefox configuration" written
  pure none

/-- `fix_xkb_symlink`. The crate pathdiff is the parameter `diffPaths`. -/
def fixXkbSymlink (diffPaths : Path → Path → Option Path) : SetupStage := do
  let xkbPath := inRoot ["usr", "share", "X11", "xkb"]
  let link ← perform (.readLink xkbPath)
  match link with
  | some ⟨true, _⟩ => do
      let targetInside := ["usr", "share", "xkeyboard-config-2"]
      let relTarget : Target :=
        match diffPaths targetInside ["usr", "share", "X11"] with
        | some path => ⟨false, path⟩
        | none => ⟨true, targetInside⟩
      let _ ← perform (.removeFile xkbPath)
      let linked ← perform (.symlink relTarget xkbPath)
      match linked with
      | .ok () => pure none
      | .error e => do
          let _ ← perform (.send (.error ("Failed to create relative symlink for xkb: " ++ e)))
          pure none
  | _ => pure none

def stages (turns : Nat) (diffPaths : Path → Path → Option Path)
    (context : ApplicationContext) : List SetupStage := [
  setupArchFs turns context,
  simulateLinuxSysdataStage,
  installDependencies turns context,
  setupFirefoxConfig,
  fixXkbSymlink diffPaths]

/-- What the coordinator thread does with the stages that are left. -/
def remainingStages : List SetupStage → App Unit
  | [] => do
      let sent ← perform (.send (.progress "Installation finished, please restart the app"))
      pbExpect "Failed to send installation finished message" sent
  | stage :: rest => do
      let output ← stage
      match output with
      | none => remainingStages rest
      | some handle => do
          let joined ← handle.join
          match joined with
          | .ok () => remainingStages rest
          | .error e => do
              let _ ← perform (.send (.error ("Stage execution failed: " ++ e)))
              pure ()

def coordinator (handle : App Unit) (rest : List SetupStage) : App Unit := do
  let joined ← handle.join
  match joined with
  | .ok () => remainingStages rest
  | .error e => do
      let _ ← perform (.send (.error ("Stage execution failed: " ++ e)))
      pure ()

/-- The stages of `setup` as they act on the storage: the loop up to the first handle, then the
coordinator. A panic of the coordinator ends its thread only. -/
def runStages : List SetupStage → App Bool
  | [] => pure true
  | stage :: rest => do
      let output ← stage
      match output with
      | none => runStages rest
      | some handle => do
          let _ ← (coordinator handle rest).join
          pure false

def launch (turns : Nat) (config : LocalConfig) : App Unit := do
  let _ ← exec "rm -f /tmp/.X1-lock".toList
  let _ ← exec "rm -f /tmp/.X11-unix/X1".toList
  let c ← execAs config.command.launch config.user.username
  withLog turns c fun _ => pure ()

/-- Every `resumed` of a session launches the desktop again. -/
def resumes (turns : Nat) (config : LocalConfig) : Nat → App Unit
  | 0 => pure ()
  | n + 1 => do
      let _ ← (launch turns config).join
      resumes turns config n

/-- What one start of the app does to the storage: the configuration is read, the stages run, and
when all are done the desktop is launched. -/
def appStart (turns resumed : Nat) (toml : Toml) (diffPaths : Path → Path → Option Path)
    (dataDir : Path) : App Unit := do
  let localConfig ← parseConfig toml fullConfigPath
  let fullyInstalled ← runStages (stages turns diffPaths ⟨dataDir, localConfig⟩)
  if fullyInstalled = true then do
    let bound ← perform (.bindSocket (inRoot ["tmp", "wayland-0"]))
    pbExpect "Failed to build compositor" bound
    resumes turns localConfig resumed
  else pure ()

end LocalDesktop.Android.Proot.Stages
