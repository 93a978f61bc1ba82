/- GID: LocalDesktop/Core/Config
   generality: G
   digest: The configuration file: its groups and defaults, the try_ rewriting, saving, parsing. -/

import LocalDesktop.Platform

set_option autoImplicit false
set_option relaxedAutoImplicit false

namespace LocalDesktop.Core.Config

open Foundation.Strings Foundation.FileTree Foundation.Effects Platform

/-- `ARCH_FS_ROOT`: /data/data/app.polarbear/files/arch. -/
def archFsRoot : Path := ["data", "data", "app.polarbear", "files", "arch"]

/-- `CONFIG_FILE`: /etc/localdesktop/localdesktop.toml, inside the file system. -/
def configFile : Path := ["etc", "localdesktop", "localdesktop.toml"]

/-- `format!("{}{}", ARCH_FS_ROOT, CONFIG_FILE)`. -/
def fullConfigPath : Path := archFsRoot ++ configFile

structure UserConfig where
  username : Text
  deriving DecidableEq

structure CommandConfig where
  check : Text
  install : Text
  launch : Text
  deriving DecidableEq

structure LocalConfig where
  user : UserConfig
  command : CommandConfig
  deriving DecidableEq

def UserConfig.default : UserConfig := ⟨"root".toList⟩

def defaultCheck : Text :=
  "pacman -Q xorg-xwayland && pacman -Qg xfce4 && pacman -Q onboard".toList

def defaultInstall : Text :=
  "stdbuf -oL pacman -Syu xorg-xwayland xfce4 onboard --noconfirm --noprogressbar".toList

def defaultLaunch : Text :=
  "XDG_RUNTIME_DIR=/tmp Xwayland -hidpi :1 2>&1 & while [ ! -e /tmp/.X11-unix/X1 ]; do sleep 0.1; done; XDG_SESSION_TYPE=x11 DISPLAY=:1 dbus-launch startxfce4 2>&1".toList

def CommandConfig.default : CommandConfig := ⟨defaultCheck, defaultInstall, defaultLaunch⟩

def LocalConfig.default : LocalConfig := ⟨UserConfig.default, CommandConfig.default⟩

/-- A TOML value. Floats and dates are kept as they are written. -/
inductive Value
  | string (s : Text)
  | integer (n : Int)
  | float (repr : Text)
  | boolean (b : Bool)
  | datetime (repr : Text)
  | array (items : List Value)
  | table (entries : List (Text × Value))

abbrev Document := List (Text × Value)

def Value.asString : Value → Option Text
  | .string s => some s
  | _ => none

/-- A field with `#[serde(default = "..")]` takes its default when it is absent, and only then. -/
def fieldOr (absent : Text) : Option Value → Option Text
  | none => some absent
  | some v => v.asString

/-- The field of the map that a datetime is handed over as. -/
def datetimeField : Text := "$__toml_private_datetime".toList

/-- By field name. `username` has no default, so it must be there; other fields are ignored. -/
def UserConfig.visitMap (entries : List (Text × Value)) : Option UserConfig :=
  (entries.lookup "username".toList).bind fun v => v.asString.map .mk

/-- The derived deserializer reads a map by field name, or an array in field order. -/
def UserConfig.deserialize : Value → Option UserConfig
  | .table entries => visitMap entries
  | .datetime repr => visitMap [(datetimeField, .string repr)]
  | .array items => items.head?.bind fun v => v.asString.map .mk
  | _ => none

def CommandConfig.visitMap (entries : List (Text × Value)) : Option CommandConfig := do
  let check ← fieldOr defaultCheck (entries.lookup "check".toList)
  let install ← fieldOr defaultInstall (entries.lookup "install".toList)
  let launch ← fieldOr defaultLaunch (entries.lookup "launch".toList)
  pure ⟨check, install, launch⟩

def CommandConfig.deserialize : Value → Option CommandConfig
  | .table entries => visitMap entries
  -- No field of the map is known, so every field takes its default.
  | .datetime repr => visitMap [(datetimeField, .string repr)]
  | .array items => do
      let check ← fieldOr defaultCheck items[0]?
      let install ← fieldOr defaultInstall items[1]?
      let launch ← fieldOr defaultLaunch items[2]?
      pure ⟨check, install, launch⟩
  | _ => none

/-- A group with `#[serde(default)]` takes the default of its type when the group is absent. -/
def groupOr {α : Type} (absent : α) (deserialize : Value → Option α) : Option Value → Option α
  | none => some absent
  | some v => deserialize v

def userGroup (doc : Document) : Option UserConfig :=
  groupOr UserConfig.default UserConfig.deserialize (doc.lookup "user".toList)

def commandGroup (doc : Document) : Option CommandConfig :=
  groupOr CommandConfig.default CommandConfig.deserialize (doc.lookup "command".toList)

def LocalConfig.deserialize (doc : Document) : Option LocalConfig := do
  let user ← userGroup doc
  let command ← commandGroup doc
  pure ⟨user, command⟩

/-- The `toml` crate: reading a document, and writing a configuration. -/
structure Toml where
  parse : Text → Option Document
  toString : LocalConfig → Text

def Toml.fromStr (toml : Toml) (content : Text) : Option LocalConfig :=
  (toml.parse content).bind LocalConfig.deserialize

def tryPrefix : Text := "try_".toList

def trimStartTry : Text → Text
  | 't' :: 'r' :: 'y' :: '_' :: t => trimStartTry t
  | t => t

/-- The line of an entry, with no spaces around `=`. -/
def entryLine (key value : Text) : Text := key ++ '=' :: value

def assigns (key line : Text) : Bool := (key ++ ['=']).isPrefixOf line

structure Rewrite where
  writeBackLines : List Text
  effectiveConfig : List Text

def processLine (acc : Rewrite) (line : Text) : Rewrite :=
  let trimmed := trim line
  match splitOnce '=' trimmed with
  | some (key, value) =>
      let key := trim key
      let value := trim value
      if tryPrefix.isPrefixOf key then
        let actualKey := trimStartTry key
        ⟨acc.writeBackLines ++ ["# ".toList ++ trimmed],
          match acc.effectiveConfig.findIdx? (assigns actualKey) with
          | some index => acc.effectiveConfig.set index (entryLine actualKey value)
          | none => acc.effectiveConfig ++ [entryLine actualKey value]⟩
      else
        ⟨acc.writeBackLines ++ [trimmed],
          if acc.effectiveConfig.any (assigns key) then acc.effectiveConfig
          else acc.effectiveConfig ++ [entryLine key value]⟩
  | none => ⟨acc.writeBackLines ++ [trimmed], acc.effectiveConfig ++ [trimmed]⟩

def processLines (ls : List Text) : Rewrite := ls.foldl processLine ⟨[], []⟩

/-- `with_extension` on a path whose last component has an extension. -/
def withExtension (p : Path) (extension : String) : Path :=
  p.dropLast ++ [String.ofList ((p.getLastD "").toList.rdropWhile (· ≠ '.')) ++ extension]

/-- If the file already exists, rename it; a failure is only logged. -/
def backUp (exist : Bool) : App Unit :=
  if exist = true then do
    let _ ← perform (.rename fullConfigPath (withExtension fullConfigPath "bak"))
    pure ()
  else pure ()

/-- `save_config`. It does nothing where the Arch file system is missing or empty. -/
def saveConfig (toml : Toml) (config : LocalConfig) : App Unit := do
  let missing ← perform (.readDirEmpty archFsRoot)
  if missing = true then pure () else do
    let exist ← perform (.pathExists fullConfigPath)
    backUp exist
    let made ← perform (.createDirAll fullConfigPath.dropLast)
    pbExpect "Failed to create config directory" made
    let written ← perform (.write fullConfigPath (toml.toString config))
    pbExpect "Failed to write config file" written

/-- The `for` loop over `writeln!`; its first error ends it. -/
def writeLines (path : Path) : List Text → App Unit
  | [] => pure ()
  | line :: ls => do
      let ok ← perform (.writeLine path line)
      if ok = true then writeLines path ls else pure ()

def processConfigFile (toml : Toml) (path : Path) : App (List Text) := do
  let read ← perform (.readToString path)
  match read with
  | some content => do
      let result := processLines (lines content)
      let opened ← perform (.openTruncate path)
      -- The outcome of the rewrite is ignored.
      if opened = true then writeLines path result.writeBackLines else pure ()
      pure result.effectiveConfig
  | none => do
      saveConfig toml LocalConfig.default
      pure []

def parseConfig (toml : Toml) (path : Path) : App LocalConfig := do
  let ls ← processConfigFile toml path
  match toml.fromStr (join ls) with
  | some config => pure config
  -- Config malformed, giving back the default config so that the user can modify it again.
  | none => do
      saveConfig toml LocalConfig.default
      pure LocalConfig.default

end LocalDesktop.Core.Config
