/- GID: LocalDesktop/Android/Proot/RootOps
   generality: G
   digest: Which operations leave the Arch file system alone, and which write inside of it. -/

import LocalDesktop.Android.Proot.Stages

set_option autoImplicit false
set_option relaxedAutoImplicit false

namespace LocalDesktop.Android.Proot.RootOps

open Foundation.Strings Foundation.FileTree Foundation.Effects Platform Core.Config Stages

/-- An operation that reads, or works on the archive and its extraction. -/
def Quiet (dataDir : Path) : Op → Prop
  | .readToString _ | .readDirEmpty _ | .pathExists _ | .readLink _ | .openFile _ => True
  | .setPermissions _ _ | .get _ | .readResponse _ | .send _ => True
  | .createFile p | .writeAll p _ | .removeFile p => p = tempFile dataDir
  | .removeDirAll p => p = extractedDir dataDir
  | .unpack _ dest => dest = dataDir
  | _ => False

/-- A path none of the simulated files lies on the way to. -/
def BesideProc (p : Path) : Prop := ∀ f ∈ procFiles, ¬inRoot f.1 <+: p

/-- An operation that writes inside the root, beside the simulated files, and leaves it occupied. -/
def Inside : Op → Prop
  | .openTruncate p | .writeLine p _ | .write p _ | .createDirAll p | .symlink _ p
  | .bindSocket p => archFsRoot <+: p ∧ BesideProc p
  | .removeFile p => archFsRoot <+: p.dropLast ∧ p.dropLast ≠ archFsRoot ∧ BesideProc p
  | .rename p q => archFsRoot <+: p ∧ archFsRoot <+: q ∧ q ≠ archFsRoot ∧ ¬p <+: q ∧ ¬q <+: p ∧
      ∀ f ∈ procFiles, ¬p <+: inRoot f.1 ∧ ¬q <+: inRoot f.1
  | .spawn root _ | .wait root _ | .outputLine root _ | .errorOutput root _ => root = archFsRoot
  | _ => False

/-- The write of one of the simulated files. -/
def WritesProc (o : Op) : Prop := ∃ f ∈ procFiles, o = .write (inRoot f.1) f.2

def Occupied (t : Tree) : Prop := t.occupied archFsRoot = true

variable {w : World} {dataDir : Path} {t t' : Tree} {p q : Path}

private theorem sameBelow_set {n : Node} (h : ¬archFsRoot <+: p) :
    SameBelow archFsRoot t (t.set p n) := by
  intro q hq
  exact get_set_of_ne fun heq => h (heq ▸ hq)

private theorem sameBelow_scribbled (h : ¬archFsRoot <+: p) (hs : Scribbled p t t') :
    SameBelow archFsRoot t t' := by
  rcases hs with rfl | ⟨d, rfl⟩
  · exact SameBelow.refl _ _
  · exact sameBelow_set h

private theorem apart_of_outside {r : Path} (h : ¬archFsRoot <+: p ∧ ¬p <+: archFsRoot)
    (hr : archFsRoot <+: r) : ¬p <+: r := fun hp =>
  (List.prefix_or_prefix_of_prefix hr hp).elim h.1 h.2

private theorem sameBelow_prune (h : ¬archFsRoot <+: p ∧ ¬p <+: archFsRoot) :
    SameBelow archFsRoot t (t.prune p) := by
  intro q hq
  rw [get_prune, if_neg (apart_of_outside h hq)]

private theorem sameBelow_partlyRemoved (h : ¬archFsRoot <+: p ∧ ¬p <+: archFsRoot)
    (hr : PartlyRemoved p t t') : SameBelow archFsRoot t t' := by
  intro q hq
  rcases hr q with heq | ⟨hp, -⟩
  · exact heq
  · exact absurd hp (apart_of_outside h hq)

private theorem sameBelow_unlink (h : ¬archFsRoot <+: p) : SameBelow archFsRoot t (unlink t p) := by
  intro q hq
  have hne : p ≠ q := fun heq => h (heq ▸ hq)
  have hdir : ¬q <+: p.dropLast := fun hpre =>
    h ((hq.trans hpre).trans (List.dropLast_prefix p))
  rw [unlink, get_mkdirs, get_erase, if_neg hne, if_neg hdir, Option.or_none]

/-- The data directory lies outside the root, and so do the archive and its extraction. -/
structure DataDir (w : World) (dataDir : Path) : Prop where
  outside : ¬archFsRoot <+: dataDir
  top : w.top = "archlinux-aarch64"

private theorem DataDir.apart (hd : DataDir w dataDir) {name : String}
    (hname : name ∉ archFsRoot) :
    ¬archFsRoot <+: dataDir ++ [name] ∧ ¬dataDir ++ [name] <+: archFsRoot := by
  constructor
  · intro h
    rcases List.prefix_concat_iff.mp h with heq | hpre
    · exact hname (heq ▸ by simp)
    · exact hd.outside hpre
  · intro h
    exact hname (h.subset (by simp))

theorem DataDir.apart_extractedDir (hd : DataDir w dataDir) :
    ¬archFsRoot <+: extractedDir dataDir ∧ ¬extractedDir dataDir <+: archFsRoot :=
  hd.apart (by decide)

private theorem DataDir.apart_tempFile (hd : DataDir w dataDir) :
    ¬archFsRoot <+: tempFile dataDir ∧ ¬tempFile dataDir <+: archFsRoot :=
  hd.apart (by decide)

theorem DataDir.extractedDir_eq (hd : DataDir w dataDir) :
    dataDir ++ [w.top] = extractedDir dataDir := by
  rw [hd.top, extractedDir]

private theorem sameBelow_partlyUnpacked (hd : DataDir w dataDir)
    (hu : PartlyUnpacked w.image (dataDir ++ [w.top]) t t') : SameBelow archFsRoot t t' := by
  intro q hq
  rcases hu q with heq | ⟨hp, -⟩
  · exact heq
  · rw [hd.extractedDir_eq] at hp
    exact absurd hp (apart_of_outside hd.apart_extractedDir hq)

theorem Quiet.step {o : Op} {r : Res o} (hd : DataDir w dataDir) (hq : Quiet dataDir o)
    (hs : step w o t r t') : SameBelow archFsRoot t t' := by
  cases o with
  | readToString p => exact hs.1 ▸ SameBelow.refl _ _
  | readDirEmpty p => exact hs.1 ▸ SameBelow.refl _ _
  | pathExists p => exact hs.1 ▸ SameBelow.refl _ _
  | readLink p => exact hs.1 ▸ SameBelow.refl _ _
  | openFile p => exact hs.1 ▸ SameBelow.refl _ _
  | setPermissions p m => exact hs ▸ SameBelow.refl _ _
  | get u => exact hs ▸ SameBelow.refl _ _
  | readResponse n => exact hs ▸ SameBelow.refl _ _
  | send m => exact hs ▸ SameBelow.refl _ _
  | createFile p =>
    obtain rfl : p = tempFile dataDir := hq
    rcases hs with ⟨-, rfl⟩ | ⟨-, rfl⟩
    · exact SameBelow.refl _ _
    · exact sameBelow_set hd.apart_tempFile.1
  | writeAll p c =>
    obtain rfl : p = tempFile dataDir := hq
    rcases hs with ⟨-, hs⟩ | ⟨b, -, -, rfl⟩
    · exact sameBelow_scribbled hd.apart_tempFile.1 hs
    · exact sameBelow_set hd.apart_tempFile.1
  | removeFile p =>
    obtain rfl : p = tempFile dataDir := hq
    rcases hs with ⟨-, rfl⟩ | ⟨-, rfl⟩
    · exact SameBelow.refl _ _
    · exact sameBelow_unlink hd.apart_tempFile.1
  | removeDirAll p =>
    obtain rfl : p = extractedDir dataDir := hq
    rcases hs with ⟨-, hs⟩ | ⟨-, rfl⟩
    · exact sameBelow_partlyRemoved hd.apart_extractedDir hs
    · exact sameBelow_prune hd.apart_extractedDir
  | unpack a dest =>
    obtain rfl : dest = dataDir := hq
    exact sameBelow_partlyUnpacked hd hs.1
  | openTruncate | writeLine | write | rename | createDirAll | symlink | bindSocket | spawn | wait
  | outputLine | errorOutput => exact absurd hq (by simp [Quiet])

theorem Quiet.torn {o : Op} (hd : DataDir w dataDir) (hq : Quiet dataDir o)
    (ht : torn w o t t') : SameBelow archFsRoot t t' := by
  cases o with
  | writeAll p c =>
    obtain rfl : p = tempFile dataDir := hq
    exact sameBelow_scribbled hd.apart_tempFile.1 ht
  | removeDirAll p =>
    obtain rfl : p = extractedDir dataDir := hq
    exact sameBelow_partlyRemoved hd.apart_extractedDir ht
  | unpack a dest =>
    obtain rfl : dest = dataDir := hq
    exact sameBelow_partlyUnpacked hd ht
  | openTruncate | writeLine | write | rename | createDirAll | symlink | bindSocket | spawn | wait
  | outputLine | errorOutput => exact absurd hq (by simp [Quiet])
  | readToString | readDirEmpty | pathExists | readLink | openFile | setPermissions | get
  | readResponse | send | createFile | removeFile =>
    rcases ht with rfl | ⟨r, hs⟩
    · exact SameBelow.refl _ _
    · exact hq.step hd hs

theorem Occupied.of_sameBelow (h : Occupied t) (hs : SameBelow archFsRoot t t') : Occupied t' := by
  rw [Occupied, hs.occupied_eq]
  exact h

private theorem Occupied.set (h : Occupied t) (p : Path) (n : Node) : Occupied (t.set p n) := by
  refine occupied_mono h ?_
  intro q _ hsome
  by_cases hpq : p = q
  · simp [hpq]
  · rwa [get_set_of_ne hpq]

private theorem Occupied.scribbled (h : Occupied t) (hs : Scribbled p t t') : Occupied t' := by
  rcases hs with rfl | ⟨d, rfl⟩
  · exact h
  · exact h.set p _

private theorem Occupied.mkdirs (h : Occupied t) (p : Path) : Occupied (t.mkdirs p) := by
  refine occupied_mono h ?_
  intro q _ hsome
  rw [get_mkdirs, Option.isSome_or, hsome, Bool.true_or]

private theorem occupied_unlink (hp : archFsRoot <+: p.dropLast) (hne : p.dropLast ≠ archFsRoot) :
    Occupied (unlink t p) := by
  refine occupied_of_get hp hne ?_
  rw [unlink, get_mkdirs, if_pos (List.prefix_refl _), Option.isSome_or]
  simp

private theorem occupied_move (hq : archFsRoot <+: q) (hne : q ≠ archFsRoot) (hpq : ¬p <+: q)
    (hqp : ¬q <+: p) (hsome : (t.get p).isSome = true) : Occupied (t.move p q) := by
  refine occupied_of_get hq hne ?_
  have hmoved := get_move_below (t := t) hqp hpq []
  rw [List.append_nil, List.append_nil] at hmoved
  rwa [hmoved]

theorem Inside.step {o : Op} {r : Res o} (hi : Inside o) (hs : step w o t r t')
    (h : Occupied t) : Occupied t' := by
  cases o with
  | openTruncate p =>
    rcases hs with ⟨-, rfl⟩ | ⟨-, -, rfl⟩
    · exact h
    · exact h.set p _
  | writeLine p line =>
    rcases hs with ⟨-, hs⟩ | ⟨x, -, -, rfl⟩
    · exact h.scribbled hs
    · exact h.set p _
  | write p x =>
    rcases hs with ⟨-, hs⟩ | ⟨-, rfl⟩
    · exact h.scribbled hs
    · exact h.set p _
  | createDirAll p =>
    rcases hs with ⟨-, q, -, rfl⟩ | ⟨-, rfl⟩
    · exact h.mkdirs q
    · exact h.mkdirs p
  | symlink target p =>
    rcases hs with ⟨-, rfl⟩ | ⟨-, rfl⟩
    · exact h
    · exact h.set p _
  | bindSocket p =>
    rcases hs with ⟨-, rfl⟩ | ⟨-, rfl⟩
    · exact h
    · exact h.set p _
  | removeFile p =>
    rcases hs with ⟨-, rfl⟩ | ⟨-, rfl⟩
    · exact h
    · exact occupied_unlink hi.1 hi.2.1
  | rename p q =>
    rcases hs with ⟨-, rfl⟩ | ⟨-, hsome, -, rfl⟩
    · exact h
    · obtain ⟨-, hq, hne, hpq, hqp, -⟩ := hi
      exact occupied_move hq hne hpq hqp hsome
  | spawn root c =>
    obtain rfl : root = archFsRoot := hi
    exact w.guest.keeps _ _ _ _ hs h
  | wait root c =>
    obtain rfl : root = archFsRoot := hi
    exact w.guest.keeps _ _ _ _ hs h
  | outputLine root c =>
    obtain rfl : root = archFsRoot := hi
    exact w.guest.keeps _ _ _ _ hs h
  | errorOutput root c =>
    obtain rfl : root = archFsRoot := hi
    exact w.guest.keeps _ _ _ _ hs h
  | readToString | readDirEmpty | pathExists | readLink | openFile | setPermissions | get
  | readResponse | send | createFile | writeAll | removeDirAll | unpack =>
    exact absurd hi (by simp [Inside])

theorem Inside.torn {o : Op} (hi : Inside o) (ht : torn w o t t') (h : Occupied t) :
    Occupied t' := by
  cases o with
  | writeLine p line => exact h.scribbled ht
  | write p x => exact h.scribbled ht
  | createDirAll p =>
    obtain ⟨q, -, rfl⟩ := ht
    exact h.mkdirs q
  | readToString | readDirEmpty | pathExists | readLink | openFile | setPermissions | get
  | readResponse | send | createFile | writeAll | removeDirAll | unpack =>
    exact absurd hi (by simp [Inside])
  | openTruncate | symlink | bindSocket | removeFile | rename | spawn | wait | outputLine
  | errorOutput =>
    rcases ht with rfl | ⟨r, hs⟩
    · exact h
    · exact hi.step hs h

theorem WritesProc.step {o : Op} {r : Res o} (hw : WritesProc o) (hs : Platform.step w o t r t')
    (h : Occupied t) : Occupied t' := by
  obtain ⟨f, -, rfl⟩ := hw
  rcases hs with ⟨-, hs⟩ | ⟨-, rfl⟩
  · exact h.scribbled hs
  · exact h.set _ _

theorem WritesProc.torn {o : Op} (hw : WritesProc o) (ht : Platform.torn w o t t')
    (h : Occupied t) : Occupied t' := by
  obtain ⟨f, -, rfl⟩ := hw
  exact h.scribbled ht

/-! What an operation inside the root does not reach. -/

/-- The operation does not reach the path. -/
def Clear (r : Path) : Op → Prop
  | .openTruncate p | .writeLine p _ | .write p _ | .createDirAll p | .symlink _ p
  | .bindSocket p | .removeFile p => ¬r <+: p
  | .rename p q => ¬p <+: r ∧ ¬q <+: r
  | .spawn _ _ | .wait _ _ | .outputLine _ _ | .errorOutput _ _ =>
      ¬archFsRoot <+: r ∨ inRoot ["proc"] <+: r
  | _ => True

variable {r : Path}

private theorem get_set_clear {n : Node} (h : ¬r <+: p) : (t.set p n).get r = t.get r :=
  get_set_of_ne fun heq => h (heq ▸ List.prefix_refl _)

private theorem get_scribbled_clear (h : ¬r <+: p) (hs : Scribbled p t t') :
    t'.get r = t.get r := by
  rcases hs with rfl | ⟨d, rfl⟩
  · rfl
  · exact get_set_clear h

private theorem get_mkdirs_clear (h : ¬r <+: p) (hq : q <+: p) :
    (t.mkdirs q).get r = t.get r := by
  rw [get_mkdirs, if_neg fun hr => h (hr.trans hq), Option.or_none]

private theorem get_unlink_clear (h : ¬r <+: p) : (unlink t p).get r = t.get r := by
  have hne : p ≠ r := fun heq => h (heq ▸ List.prefix_refl _)
  rw [unlink, get_mkdirs_clear h (List.dropLast_prefix p), get_erase, if_neg hne]

private theorem get_guest_clear {c : Command} (hs : w.guest.run archFsRoot c t t')
    (h : ¬archFsRoot <+: r ∨ inRoot ["proc"] <+: r) : t'.get r = t.get r := by
  rcases h with h | h
  · exact w.guest.inside _ _ _ _ _ hs h
  · exact w.guest.hidden _ _ _ _ _ hs h

theorem Inside.get_step {o : Op} {a : Res o} (hi : Inside o) (hc : Clear r o)
    (hs : Platform.step w o t a t') : t'.get r = t.get r := by
  cases o with
  | openTruncate p =>
    rcases hs with ⟨-, rfl⟩ | ⟨-, -, rfl⟩
    · rfl
    · exact get_set_clear hc
  | writeLine p line =>
    rcases hs with ⟨-, hs⟩ | ⟨x, -, -, rfl⟩
    · exact get_scribbled_clear hc hs
    · exact get_set_clear hc
  | write p x =>
    rcases hs with ⟨-, hs⟩ | ⟨-, rfl⟩
    · exact get_scribbled_clear hc hs
    · exact get_set_clear hc
  | createDirAll p =>
    rcases hs with ⟨-, q, hq, rfl⟩ | ⟨-, rfl⟩
    · exact get_mkdirs_clear hc hq
    · exact get_mkdirs_clear hc (List.prefix_refl _)
  | symlink target p =>
    rcases hs with ⟨-, rfl⟩ | ⟨-, rfl⟩
    · rfl
    · exact get_set_clear hc
  | bindSocket p =>
    rcases hs with ⟨-, rfl⟩ | ⟨-, rfl⟩
    · rfl
    · exact get_set_clear hc
  | removeFile p =>
    rcases hs with ⟨-, rfl⟩ | ⟨-, rfl⟩
    · rfl
    · exact get_unlink_clear hc
  | rename p q =>
    rcases hs with ⟨-, rfl⟩ | ⟨-, -, -, rfl⟩
    · rfl
    · exact get_move_outside hc.1 hc.2
  | spawn root c =>
    obtain rfl : root = archFsRoot := hi
    exact get_guest_clear hs hc
  | wait root c =>
    obtain rfl : root = archFsRoot := hi
    exact get_guest_clear hs hc
  | outputLine root c =>
    obtain rfl : root = archFsRoot := hi
    exact get_guest_clear hs hc
  | errorOutput root c =>
    obtain rfl : root = archFsRoot := hi
    exact get_guest_clear hs hc
  | readToString | readDirEmpty | pathExists | readLink | openFile | setPermissions | get
  | readResponse | send | createFile | writeAll | removeDirAll | unpack =>
    exact absurd hi (by simp [Inside])

theorem Inside.get_torn {o : Op} (hi : Inside o) (hc : Clear r o)
    (ht : Platform.torn w o t t') : t'.get r = t.get r := by
  cases o with
  | writeLine p line => exact get_scribbled_clear hc ht
  | write p x => exact get_scribbled_clear hc ht
  | createDirAll p =>
    obtain ⟨q, hq, rfl⟩ := ht
    exact get_mkdirs_clear hc hq
  | readToString | readDirEmpty | pathExists | readLink | openFile | setPermissions | get
  | readResponse | send | createFile | writeAll | removeDirAll | unpack =>
    exact absurd hi (by simp [Inside])
  | openTruncate | symlink | bindSocket | removeFile | rename | spawn | wait | outputLine
  | errorOutput =>
    rcases ht with rfl | ⟨a, hs⟩
    · rfl
    · exact hi.get_step hc hs

theorem Inside.clear_proc {o : Op} (hi : Inside o) {f : Path × Text} (hf : f ∈ procFiles) :
    Clear (inRoot f.1) o := by
  have hproc : inRoot ["proc"] <+: inRoot f.1 := by
    have hall : ∀ f ∈ procFiles, inRoot ["proc"] <+: inRoot f.1 := by decide
    exact hall f hf
  cases o with
  | openTruncate p => exact hi.2 f hf
  | writeLine p line => exact hi.2 f hf
  | write p x => exact hi.2 f hf
  | createDirAll p => exact hi.2 f hf
  | symlink target p => exact hi.2 f hf
  | bindSocket p => exact hi.2 f hf
  | removeFile p => exact hi.2.2 f hf
  | rename p q => exact hi.2.2.2.2.2 f hf
  | spawn root c => exact Or.inr hproc
  | wait root c => exact Or.inr hproc
  | outputLine root c => exact Or.inr hproc
  | errorOutput root c => exact Or.inr hproc
  | readToString | readDirEmpty | pathExists | readLink | openFile | setPermissions | get
  | readResponse | send | createFile | writeAll | removeDirAll | unpack => trivial

theorem Inside.clear_apart {o : Op} (hi : Inside o) (hr : ¬archFsRoot <+: r ∧ ¬r <+: archFsRoot) :
    Clear r o := by
  have hset : ∀ p, archFsRoot <+: p → ¬r <+: p := fun p hp h =>
    (List.prefix_or_prefix_of_prefix hp h).elim hr.1 hr.2
  have hmove : ∀ p, archFsRoot <+: p → ¬p <+: r := fun p hp h => hr.1 (hp.trans h)
  cases o with
  | openTruncate p => exact hset p hi.1
  | writeLine p line => exact hset p hi.1
  | write p x => exact hset p hi.1
  | createDirAll p => exact hset p hi.1
  | symlink target p => exact hset p hi.1
  | bindSocket p => exact hset p hi.1
  | removeFile p => exact hset p (hi.1.trans (List.dropLast_prefix p))
  | rename p q => exact ⟨hmove p hi.1, hmove q hi.2.1⟩
  | spawn root c => exact Or.inl hr.1
  | wait root c => exact Or.inl hr.1
  | outputLine root c => exact Or.inl hr.1
  | errorOutput root c => exact Or.inl hr.1
  | readToString | readDirEmpty | pathExists | readLink | openFile | setPermissions | get
  | readResponse | send | createFile | writeAll | removeDirAll | unpack => trivial

end LocalDesktop.Android.Proot.RootOps
