/- GID: LocalDesktop/Android/Proot/Process
   generality: G
   digest: Children inside the Arch file system: started, waited for, read line by line. -/

import LocalDesktop.Core.Config

set_option autoImplicit false
set_option relaxedAutoImplicit false

namespace LocalDesktop.Android.Proot.Process

open Foundation.Strings Foundation.FileTree Foundation.Effects Platform Core.Config

/-- The `--bind` arguments of `spawn` with a source inside the root, and their places. -/
def rootBinds : List (Path × Path) := [
  (archFsRoot ++ ["tmp"], ["dev", "shm"]),
  (archFsRoot ++ ["proc", ".loadavg"], ["proc", "loadavg"]),
  (archFsRoot ++ ["proc", ".stat"], ["proc", "stat"]),
  (archFsRoot ++ ["proc", ".uptime"], ["proc", "uptime"]),
  (archFsRoot ++ ["proc", ".version"], ["proc", "version"]),
  (archFsRoot ++ ["proc", ".vmstat"], ["proc", "vmstat"]),
  (archFsRoot ++ ["proc", ".sysctl_entry_cap_last_cap"],
    ["proc", "sys", "kernel", "cap_last_cap"]),
  (archFsRoot ++ ["proc", ".sysctl_inotify_max_user_watches"],
    ["proc", "sys", "fs", "inotify", "max_user_watches"]),
  (archFsRoot ++ ["sys", ".empty"], ["sys", "fs", "selinux"])]

def spawn (c : Command) : App Command := do
  let started ← perform (.spawn archFsRoot c)
  pbExpect "Failed to run command" started
  pure c

def exec (command : Text) : App Command := spawn ⟨command, "root".toList⟩

def execAs (command user : Text) : App Command := spawn ⟨command, user⟩

def garbledLine : String :=
  "called `Result::unwrap()` on an `Err` value: Error \x7b kind: InvalidData, message: " ++
    "\"stream did not contain valid UTF-8\" \x7d"

/-- `with_log`: the lines of the output in order, up to its end. -/
def withLog (turns : Nat) (c : Command) (log : Text → App Unit) : App Unit :=
  Program.iterate (fun _ : Unit => do
    let line ← perform (.outputLine archFsRoot c)
    match line with
    | none => pure (.inl ())
    | some .garbled => .panic garbledLine
    | some (.text l) => do
        log l
        pure (.inr ())) turns ()

def wait (c : Command) : App (Option Bool) := perform (.wait archFsRoot c)

/-- `exec_with_panic_on_error`: it waits for the end of the error output, not for the exit. -/
def execWithPanicOnError (command : Text) : App Unit := do
  let c ← exec command
  let errorOutput ← perform (.errorOutput archFsRoot c)
  match errorOutput with
  | none => .panic garbledLine
  | some output =>
      if "fatal error: see `libproot.so --help`".toList <:+: output then
        .panic ("PRoot error: " ++ String.ofList output)
      else pure ()

end LocalDesktop.Android.Proot.Process
