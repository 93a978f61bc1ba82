/- GID: LocalDesktop/Platform
   generality: G
   digest: The operations the app issues on its storage, the network and its children. -/

import LocalDesktop.Foundation.FileTree
import LocalDesktop.Foundation.Effects

/-!
Every call of the app that reads or changes the world outside its memory is an
operation with a result. The environment answers it with any result the call
may have: an operation that fails may have done part of its work, and so may
one that is cut by the death of the process. Two parts of the world are not in
the repository and are parameters: the programs that run inside the Arch file
system, and the archive the file system is extracted from.
-/

set_option autoImplicit false
set_option relaxedAutoImplicit false

namespace LocalDesktop.Platform

open Foundation.Strings Foundation.FileTree Foundation.Effects

/-- `SetupMessage` of setup.rs. -/
inductive SetupMessage
  | progress (message : String)
  | error (message : String)
  deriving DecidableEq, Repr

/-- What `ArchProcess` runs: a shell command line and the user it runs as. -/
structure Command where
  line : Text
  user : Text
  deriving DecidableEq

/-- A line that a child writes; one that is not UTF-8 does not read as a line. -/
inductive OutputLine
  | text (line : Text)
  | garbled
  deriving DecidableEq

inductive Op
  -- `std::fs`: reading.
  | readToString (p : Path)
  -- `read_dir().map_or(true, |mut d| d.next().is_none())`
  | readDirEmpty (p : Path)
  | pathExists (p : Path)
  -- `symlink_metadata`, `is_symlink` and `read_link`
  | readLink (p : Path)
  | openFile (p : Path)
  -- `std::fs`: writing.
  -- `OpenOptions::new().write(true).truncate(true).open`
  | openTruncate (p : Path)
  | writeLine (p : Path) (line : Text)
  | write (p : Path) (content : Text)
  | createFile (p : Path)
  | writeAll (p : Path) (chunk : List UInt8)
  | rename (p q : Path)
  | createDirAll (p : Path)
  | setPermissions (p : Path) (mode : Nat)
  | removeDirAll (p : Path)
  | removeFile (p : Path)
  | symlink (target : Target) (p : Path)
  -- `ListeningSocket::bind_absolute`
  | bindSocket (p : Path)
  -- `Archive::unpack` over `XzDecoder`
  | unpack (archive dest : Path)
  -- `reqwest::blocking::get`, and `read` on the response after so many bytes.
  | get (url : String)
  | readResponse (downloaded : Nat)
  -- A child inside `root`: its start, its exit, its next line, its whole error output.
  | spawn (root : Path) (c : Command)
  | wait (root : Path) (c : Command)
  | outputLine (root : Path) (c : Command)
  | errorOutput (root : Path) (c : Command)
  -- `Sender::send`
  | send (m : SetupMessage)

/-- `none`, `false` and `error` stand for `Err`; an error has its text where the app reports it. -/
abbrev Res : Op → Type
  | .readToString _ => Option Text
  | .readLink _ => Option Target
  | .symlink _ _ => Except String Unit
  | .unpack _ _ => Except String Unit
  -- The response has a content length or not.
  | .get _ => Option (Option Nat)
  | .readResponse _ => Option (List UInt8)
  -- The exit status is a success or not.
  | .wait _ _ => Option Bool
  -- `none` at the end of the output.
  | .outputLine _ _ => Option OutputLine
  | .errorOutput _ _ => Option Text
  | _ => Bool

/-- The archive: its bytes and its files, relative to its one top directory. -/
structure Image where
  bytes : List UInt8
  files : List (Path × Data)
  files_ne : files ≠ []
  proper : ∀ f ∈ files, f.1 ≠ []

/-- The programs that run inside the Arch file system. They only see what is below their
root, they do not delete the system they run in, and they do not write to the read-only
files simulated below `/proc`. -/
structure Guest where
  run : Path → Command → Tree → Tree → Prop
  inside : ∀ root c t t' q, run root c t t' → ¬root <+: q → t'.get q = t.get q
  keeps : ∀ root c t t', run root c t t' → t.occupied root = true → t'.occupied root = true
  hidden : ∀ root c t t' q, run root c t t' → root ++ ["proc"] <+: q → t'.get q = t.get q

/-- The parts of the world the repository does not contain. `top` is the archive's directory. -/
structure World where
  image : Image
  top : String
  guest : Guest

/-- A path holds some content of a file that was being written, all else is as it was. -/
def Scribbled (p : Path) (t t' : Tree) : Prop :=
  t' = t ∨ ∃ d, t' = t.set p (.file d)

/-- Part of the subtree at `p` is gone. -/
def PartlyRemoved (p : Path) (t t' : Tree) : Prop :=
  ∀ q, t'.get q = t.get q ∨ (p <+: q ∧ t'.get q = none)

/-- Only the archive's own paths below `dir` changed. -/
def PartlyUnpacked (image : Image) (dir : Path) (t t' : Tree) : Prop :=
  ∀ q, t'.get q = t.get q ∨ (dir <+: q ∧ ∃ f ∈ image.files, q <+: dir ++ f.1)

/-- Every file of the archive is below `dir`, with its full content. -/
def Extracted (image : Image) (dir : Path) (t : Tree) : Prop :=
  ∀ f ∈ image.files, t.get (dir ++ f.1) = some (.file f.2)

/-- A removed file leaves its directory behind. -/
def unlink (t : Tree) (p : Path) : Tree := (t.erase p).mkdirs p.dropLast

/-- What an operation may do and answer. -/
def step (w : World) : (o : Op) → Tree → Res o → Tree → Prop
  | .readToString p, t, r, t' => t' = t ∧ ∀ x, r = some x → t.get p = some (.file (.text x))
  | .openTruncate p, t, r, t' =>
      (r = false ∧ t' = t) ∨
      (r = true ∧ (∃ d, t.get p = some (.file d)) ∧ t' = t.set p (.file (.text [])))
  | .writeLine p line, t, r, t' =>
      (r = false ∧ Scribbled p t t') ∨
      ∃ x, t.get p = some (.file (.text x)) ∧ r = true ∧
        t' = t.set p (.file (.text (x ++ (line ++ ['\n']))))
  | .readDirEmpty p, t, r, t' => t' = t ∧ (r = false → t.occupied p = true)
  | .pathExists p, t, r, t' => t' = t ∧ r = (t.get p).isSome
  | .rename p q, t, r, t' =>
      (r = false ∧ t' = t) ∨
      (r = true ∧ (t.get p).isSome = true ∧ t.occupied q = false ∧ t' = t.move p q)
  | .createDirAll p, t, r, t' =>
      (r = false ∧ ∃ q, q <+: p ∧ t' = t.mkdirs q) ∨ (r = true ∧ t' = t.mkdirs p)
  | .setPermissions _ _, t, _, t' => t' = t
  | .write p x, t, r, t' =>
      (r = false ∧ Scribbled p t t') ∨ (r = true ∧ t' = t.set p (.file (.text x)))
  | .createFile p, t, r, t' =>
      (r = false ∧ t' = t) ∨ (r = true ∧ t' = t.set p (.file (.bytes [])))
  | .writeAll p chunk, t, r, t' =>
      (r = false ∧ Scribbled p t t') ∨
      ∃ b, t.get p = some (.file (.bytes b)) ∧ r = true ∧
        t' = t.set p (.file (.bytes (b ++ chunk)))
  | .openFile p, t, r, t' => t' = t ∧ (r = true → ∃ d, t.get p = some (.file d))
  | .removeDirAll p, t, r, t' =>
      (r = false ∧ PartlyRemoved p t t') ∨ (r = true ∧ t' = t.prune p)
  | .removeFile p, t, r, t' => (r = false ∧ t' = t) ∨ (r = true ∧ t' = unlink t p)
  | .readLink p, t, r, t' => t' = t ∧ ∀ x, r = some x → t.get p = some (.symlink x)
  | .symlink target p, t, r, t' =>
      ((∃ e, r = .error e) ∧ t' = t) ∨ (r = .ok () ∧ t' = t.set p (.symlink target))
  | .bindSocket p, t, r, t' =>
      (r = false ∧ t' = t) ∨ (r = true ∧ t' = t.set p (.file (.bytes [])))
  -- `Ok` only when the archive file is complete, and then every file is there.
  | .unpack archive dest, t, r, t' =>
      PartlyUnpacked w.image (dest ++ [w.top]) t t' ∧
      (r = .ok () → t.get archive = some (.file (.bytes w.image.bytes)) ∧
        Extracted w.image (dest ++ [w.top]) t')
  | .get _, t, _, t' => t' = t
  | .readResponse _, t, _, t' => t' = t
  -- Whatever the app waits for, the child goes on meanwhile.
  | .spawn root c, t, _, t' => w.guest.run root c t t'
  | .wait root c, t, _, t' => w.guest.run root c t t'
  | .outputLine root c, t, _, t' => w.guest.run root c t t'
  | .errorOutput root c, t, _, t' => w.guest.run root c t t'
  | .send _, t, _, t' => t' = t

/-- What the death of the process may leave of an operation. A rename is atomic. -/
def torn (w : World) : Op → Tree → Tree → Prop
  | .writeLine p _, t, t' => Scribbled p t t'
  | .write p _, t, t' => Scribbled p t t'
  | .writeAll p _, t, t' => Scribbled p t t'
  | .createDirAll p, t, t' => ∃ q, q <+: p ∧ t' = t.mkdirs q
  | .removeDirAll p, t, t' => PartlyRemoved p t t'
  | .unpack _ dest, t, t' => PartlyUnpacked w.image (dest ++ [w.top]) t t'
  | o, t, t' => t' = t ∨ ∃ r, step w o t r t'

def environment (w : World) : Environment Op Res Tree := ⟨step w, torn w⟩

abbrev App (α : Type) := Program Op Res α

abbrev perform (o : Op) : App (Res o) := Program.issue o

/-- `pb_expect` and `log_format` of logging.rs. After it a panic of a `Result` has a colon and the
debug text of the error, which is left out here. -/
def expectation (msg : String) : String :=
  "\n*** *** *** [POLAR BEAR EXPECTATION] *** *** ***\n" ++ msg ++
    "\n*** *** *** [POLAR BEAR EXPECTATION] *** *** ***\n\n"

def pbExpect (msg : String) : Bool → App Unit
  | true => .pure ()
  | false => .panic (expectation msg)

/-- What is served to the app where nothing fails: the archive, and the commands' success. -/
structure Served where
  bytes : List UInt8
  files : List (Path × Data)
  top : String
  success : Command → Bool

def succeed (sv : Served) : Handler Op Res Tree
  | .readToString p, t =>
      (match t.get p with
        | some (.file (.text x)) => some x
        | _ => none, t)
  | .openTruncate p, t =>
      match t.get p with
      | some (.file _) => (true, t.set p (.file (.text [])))
      | _ => (false, t)
  | .writeLine p line, t =>
      match t.get p with
      | some (.file (.text x)) => (true, t.set p (.file (.text (x ++ (line ++ ['\n'])))))
      | _ => (false, t)
  | .readDirEmpty p, t => (!t.occupied p, t)
  | .pathExists p, t => ((t.get p).isSome, t)
  | .rename p q, t =>
      if (t.get p).isSome && !t.occupied q then (true, t.move p q) else (false, t)
  | .createDirAll p, t => (true, t.mkdirs p)
  | .setPermissions _ _, t => (true, t)
  | .write p x, t => (true, t.set p (.file (.text x)))
  | .createFile p, t => (true, t.set p (.file (.bytes [])))
  | .writeAll p chunk, t =>
      match t.get p with
      | some (.file (.bytes b)) => (true, t.set p (.file (.bytes (b ++ chunk))))
      | _ => (false, t)
  | .openFile p, t =>
      (match t.get p with
        | some (.file _) => true
        | _ => false, t)
  | .removeDirAll p, t => (true, t.prune p)
  | .removeFile p, t => (true, unlink t p)
  | .readLink p, t =>
      (match t.get p with
        | some (.symlink x) => some x
        | _ => none, t)
  | .symlink target p, t => (.ok (), t.set p (.symlink target))
  | .bindSocket p, t => (true, t.set p (.file (.bytes [])))
  | .unpack archive dest, t =>
      if t.get archive = some (.file (.bytes sv.bytes)) then
        (.ok (), sv.files.foldl (fun t f => t.set (dest ++ [sv.top] ++ f.1) (.file f.2))
          (t.set (dest ++ [sv.top]) .dir))
      else (.error "unexpected end of file", t)
  | .get _, t => (some (some sv.bytes.length), t)
  | .readResponse downloaded, t => (some ((sv.bytes.drop downloaded).take 8192), t)
  | .spawn _ _, t => (true, t)
  | .wait _ c, t => (some (sv.success c), t)
  | .outputLine _ _, t => (none, t)
  | .errorOutput _ _, t => (some [], t)
  | .send _, t => (true, t)

def idleGuest : Guest where
  run _ _ t t' := t' = t
  inside _ _ _ _ _ h _ := by rw [h]
  keeps _ _ _ _ h ht := by rwa [h]
  hidden _ _ _ _ _ h _ := by rw [h]

private theorem get_unpacked (files : List (Path × Data)) (dir : Path) (t : Tree) (q : Path) :
    (files.foldl (fun t f => t.set (dir ++ f.1) (.file f.2)) t).get q = t.get q ∨
      ∃ f ∈ files, q = dir ++ f.1 := by
  induction files generalizing t with
  | nil => exact Or.inl rfl
  | cons f files ih =>
    rw [List.foldl_cons]
    rcases ih (t.set (dir ++ f.1) (.file f.2)) with h | ⟨g, hg, hq⟩
    · by_cases hqf : dir ++ f.1 = q
      · exact Or.inr ⟨f, List.mem_cons_self, hqf.symm⟩
      · exact Or.inl (h.trans (get_set_of_ne hqf))
    · exact Or.inr ⟨g, List.mem_cons_of_mem _ hg, hq⟩

private theorem get_unpacked_mem {files : List (Path × Data)} (hnodup : (files.map Prod.fst).Nodup)
    (dir : Path) (t : Tree) {f : Path × Data} (hf : f ∈ files) :
    (files.foldl (fun t f => t.set (dir ++ f.1) (.file f.2)) t).get (dir ++ f.1) =
      some (.file f.2) := by
  induction files generalizing t with
  | nil => exact absurd hf List.not_mem_nil
  | cons g files ih =>
    rw [List.map_cons, List.nodup_cons] at hnodup
    rw [List.foldl_cons]
    rcases List.mem_cons.mp hf with rfl | hf
    · rcases get_unpacked files dir (t.set (dir ++ f.1) (.file f.2)) (dir ++ f.1) with h | ⟨g, hg, hq⟩
      · rw [h, get_set_self]
      · have heq : f.1 = g.1 := List.append_cancel_left hq
        exact absurd (List.mem_map.mpr ⟨g, hg, heq.symm⟩) hnodup.1
    · exact ih hnodup.2 _ hf

theorem step_succeed {w : World} {sv : Served} (hguest : w.guest = idleGuest)
    (hbytes : w.image.bytes = sv.bytes) (hfiles : w.image.files = sv.files) (htop : w.top = sv.top)
    (hnodup : (sv.files.map Prod.fst).Nodup) (o : Op) (t : Tree) :
    step w o t (succeed sv o t).1 (succeed sv o t).2 := by
  cases o with
  | readToString p =>
    refine ⟨rfl, fun x hx => ?_⟩
    simp only [succeed] at hx
    split at hx
    · rename_i y hget
      rw [hget, Option.some.inj hx]
    · exact absurd hx (by simp)
  | readDirEmpty p => exact ⟨rfl, fun h => by simpa [succeed] using h⟩
  | pathExists p => exact ⟨rfl, rfl⟩
  | readLink p =>
    refine ⟨rfl, fun x hx => ?_⟩
    simp only [succeed] at hx
    split at hx
    · rename_i y hget
      rw [hget, Option.some.inj hx]
    · exact absurd hx (by simp)
  | openFile p =>
    refine ⟨rfl, fun h => ?_⟩
    simp only [succeed] at h
    split at h
    · rename_i d hget
      exact ⟨d, hget⟩
    · exact absurd h (by simp)
  | openTruncate p =>
    simp only [succeed]
    split
    · rename_i d hget
      exact Or.inr ⟨rfl, ⟨d, hget⟩, rfl⟩
    · exact Or.inl ⟨rfl, rfl⟩
  | writeLine p line =>
    simp only [succeed]
    split
    · rename_i x hget
      exact Or.inr ⟨x, hget, rfl, rfl⟩
    · exact Or.inl ⟨rfl, Or.inl rfl⟩
  | writeAll p chunk =>
    simp only [succeed]
    split
    · rename_i b hget
      exact Or.inr ⟨b, hget, rfl, rfl⟩
    · exact Or.inl ⟨rfl, Or.inl rfl⟩
  | rename p q =>
    simp only [succeed]
    split
    · rename_i h
      rw [Bool.and_eq_true, Bool.not_eq_true'] at h
      exact Or.inr ⟨rfl, h.1, h.2, rfl⟩
    · exact Or.inl ⟨rfl, rfl⟩
  | unpack archive dest =>
    simp only [succeed]
    split
    · rename_i hget
      obtain ⟨f₀, hf₀⟩ := List.exists_mem_of_ne_nil _ w.image.files_ne
      rw [← htop]
      refine ⟨fun q => ?_, fun _ => ⟨by rw [hbytes, hget], fun f hf => ?_⟩⟩
      · rcases get_unpacked sv.files (dest ++ [w.top]) (t.set (dest ++ [w.top]) .dir) q with
          h | ⟨f, hf, rfl⟩
        · by_cases hq : dest ++ [w.top] = q
          · exact Or.inr ⟨hq ▸ List.prefix_refl _, f₀, hf₀, hq ▸ List.prefix_append _ _⟩
          · exact Or.inl (h.trans (get_set_of_ne hq))
        · exact Or.inr ⟨List.prefix_append _ _, f, hfiles ▸ hf, List.prefix_refl _⟩
      · exact get_unpacked_mem hnodup _ _ (hfiles ▸ hf)
    · exact ⟨fun q => Or.inl rfl, fun h => absurd h (by simp)⟩
  | spawn root c => simp [step, succeed, hguest, idleGuest]
  | wait root c => simp [step, succeed, hguest, idleGuest]
  | outputLine root c => simp [step, succeed, hguest, idleGuest]
  | errorOutput root c => simp [step, succeed, hguest, idleGuest]
  | write | createFile | createDirAll | removeDirAll | removeFile | symlink | bindSocket =>
    exact Or.inr ⟨rfl, rfl⟩
  | setPermissions | get | readResponse | send => exact rfl

end LocalDesktop.Platform
