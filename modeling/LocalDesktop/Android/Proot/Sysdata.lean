/- GID: LocalDesktop/Android/Proot/Sysdata
   generality: G
   digest: When the done-check of the simulated system data stands for all seven files. -/

import LocalDesktop.Android.Proot.ArchFs

set_option autoImplicit false
set_option relaxedAutoImplicit false

namespace LocalDesktop.Android.Proot.Sysdata

open Foundation.Strings Foundation.FileTree Foundation.Effects Platform Core.Config
  Core.LineToml Process Stages RootOps StageOps ArchFs

def versionPath : Path := inRoot ["proc", ".version"]

/-- The file written last. -/
def lastPath : Path := inRoot ["proc", ".sysctl_inotify_max_user_watches"]

/-- All seven files are there with their full content. -/
def SysdataComplete (t : Tree) : Prop :=
  ∀ f ∈ procFiles, t.get (inRoot f.1) = some (.file (.text f.2))

/-- The write of `.version` has begun. -/
def begins : Event Op Res Tree → Bool
  | ⟨_, .write p _, _, _⟩ => p = versionPath
  | _ => false

/-- The last write has succeeded. -/
def finishes : Event Op Res Tree → Bool
  | ⟨_, .write p _, some true, _⟩ => p = lastPath
  | _ => false

/-- The start is not cut, and no write of it fails, between the beginning of the write of
`.version` and the end of the last write. -/
def UncutSysdata (tr : List (Event Op Res Tree)) : Prop :=
  (∃ e ∈ tr, begins e = true) → ∃ e ∈ tr, finishes e = true

instance (tr : List (Event Op Res Tree)) : Decidable (UncutSysdata tr) :=
  inferInstanceAs (Decidable (_ → _))

private theorem finishes_eq {e : Event Op Res Tree} (h : finishes e = true) :
    ∃ s x t, e = ⟨s, .write lastPath x, some true, t⟩ := by
  unfold finishes at h
  split at h
  · obtain rfl := of_decide_eq_true h
    exact ⟨_, _, _, rfl⟩
  · exact absurd h (by simp)

def UncutStarts (toml : Toml) (diffPaths : Path → Path → Option Path) (dataDir : Path)
    (p : App Unit) (tr : List (Event Op Res Tree)) : Prop :=
  AppStarts toml diffPaths dataDir p tr ∧ UncutSysdata tr

structure Fresh (dataDir : Path) (t : Tree) : Prop where
  vacant : ¬Occupied t
  unextracted : ∀ q, extractedDir dataDir <+: q → t.get q = none

/-- The archive brings no `.version` of its own. -/
def WithoutVersion (image : Image) : Prop := ∀ f ∈ image.files, ¬["proc", ".version"] <+: f.1

def extractedVersion (dataDir : Path) : Path := extractedDir dataDir ++ ["proc", ".version"]

/-- `.version` stands for all seven files, and no extraction brings one. -/
structure Kept (dataDir : Path) (t : Tree) : Prop where
  unextracted : t.get (extractedVersion dataDir) = none
  complete : t.get versionPath = none ∨ SysdataComplete t

variable {w : World} {dataDir : Path} {t t' : Tree}

private theorem Fresh.kept (h : Fresh dataDir t) : Kept dataDir t where
  unextracted := h.unextracted _ (List.prefix_append _ _)
  complete := by
    left
    by_contra hsome
    exact h.vacant (occupied_of_get (q := versionPath) (prefix_inRoot _) (by decide)
      (Option.isSome_iff_ne_none.mpr hsome))

/-- What all programs but the writes of the seven files do. -/
def Early (dataDir : Path) (o : Op) : Prop :=
  Beside dataDir o ∨ o = .rename (extractedDir dataDir) archFsRoot

private theorem extractedVersion_apart (hd : DataDir w dataDir) :
    ¬archFsRoot <+: extractedVersion dataDir ∧ ¬extractedVersion dataDir <+: archFsRoot := by
  constructor
  · intro h
    rcases List.prefix_or_prefix_of_prefix h (List.prefix_append _ _) with h | h
    · exact hd.apart_extractedDir.1 h
    · exact hd.apart_extractedDir.2 h
  · intro h
    exact hd.apart_extractedDir.2 ((List.prefix_append _ _).trans h)

private theorem versionPath_mem : ∃ f ∈ procFiles, inRoot f.1 = versionPath := by decide

private theorem Kept.of_get (h : Kept dataDir t)
    (hextracted : t'.get (extractedVersion dataDir) = t.get (extractedVersion dataDir))
    (hproc : ∀ f ∈ procFiles, t'.get (inRoot f.1) = t.get (inRoot f.1)) : Kept dataDir t' := by
  obtain ⟨v, hv, hversion⟩ := versionPath_mem
  refine ⟨hextracted.trans h.unextracted, ?_⟩
  rcases h.complete with hnone | hall
  · left
    rw [← hversion, hproc v hv, hversion, hnone]
  · right
    intro f hf
    rw [hproc f hf, hall f hf]

private theorem Kept.of_sameBelow (h : Kept dataDir t)
    (hextracted : t'.get (extractedVersion dataDir) = none)
    (hsame : SameBelow archFsRoot t t') : Kept dataDir t' :=
  h.of_get (hextracted.trans h.unextracted.symm) fun f _ => hsame _ (prefix_inRoot f.1)

private theorem extractedVersion_ne_tempFile : tempFile dataDir ≠ extractedVersion dataDir := by
  intro h
  rw [extractedVersion, extractedDir, List.append_assoc, tempFile, List.append_cancel_left_eq] at h
  exact absurd h (by decide)

private theorem extractedVersion_not_unpacked (hd : DataDir w dataDir)
    (himage : WithoutVersion w.image) (h : t.get (extractedVersion dataDir) = none)
    (hu : PartlyUnpacked w.image (dataDir ++ [w.top]) t t') :
    t'.get (extractedVersion dataDir) = none := by
  rcases hu (extractedVersion dataDir) with heq | ⟨-, f, hf, hpre⟩
  · rw [heq, h]
  · rw [hd.extractedDir_eq, extractedVersion, List.prefix_append_right_inj] at hpre
    exact absurd hpre (himage f hf)

private theorem Quiet.unextracted_step {o : Op} {r : Res o} (hd : DataDir w dataDir)
    (himage : WithoutVersion w.image) (hq : Quiet dataDir o) (hs : step w o t r t')
    (h : t.get (extractedVersion dataDir) = none) :
    t'.get (extractedVersion dataDir) = none := by
  have hne := @extractedVersion_ne_tempFile dataDir
  cases o with
  | readToString p => rwa [hs.1]
  | readDirEmpty p => rwa [hs.1]
  | pathExists p => rwa [hs.1]
  | readLink p => rwa [hs.1]
  | openFile p => rwa [hs.1]
  | setPermissions p m => rwa [show t' = t from hs]
  | get u => rwa [show t' = t from hs]
  | readResponse n => rwa [show t' = t from hs]
  | send m => rwa [show t' = t from hs]
  | createFile p =>
    obtain rfl : p = tempFile dataDir := hq
    rcases hs with ⟨-, rfl⟩ | ⟨-, rfl⟩
    · exact h
    · rw [get_set_of_ne hne, h]
  | writeAll p c =>
    obtain rfl : p = tempFile dataDir := hq
    rcases hs with ⟨-, rfl | ⟨d, rfl⟩⟩ | ⟨b, -, -, rfl⟩
    · exact h
    · rw [get_set_of_ne hne, h]
    · rw [get_set_of_ne hne, h]
  | removeFile p =>
    obtain rfl : p = tempFile dataDir := hq
    rcases hs with ⟨-, rfl⟩ | ⟨-, rfl⟩
    · exact h
    · have hdir : ¬extractedVersion dataDir <+: (tempFile dataDir).dropLast := by
        intro hpre
        have hlen := hpre.length_le
        simp only [extractedVersion, extractedDir, tempFile, List.length_dropLast,
          List.length_append, List.length_cons, List.length_nil] at hlen
        omega
      rw [unlink, get_mkdirs, get_erase, if_neg hne, h, if_neg hdir, Option.or_none]
  | removeDirAll p =>
    rcases hs with ⟨-, hs⟩ | ⟨-, rfl⟩
    · rcases hs (extractedVersion dataDir) with heq | ⟨-, hnone⟩
      · rw [heq, h]
      · exact hnone
    · rw [get_prune]
      split
      · rfl
      · exact h
  | unpack a dest =>
    obtain rfl : dest = dataDir := hq
    exact extractedVersion_not_unpacked hd himage h hs.1
  | openTruncate | writeLine | write | rename | createDirAll | symlink | bindSocket | spawn | wait
  | outputLine | errorOutput => exact absurd hq (by simp [Quiet])

private theorem Quiet.unextracted_torn {o : Op} (hd : DataDir w dataDir)
    (himage : WithoutVersion w.image)
    (hq : Quiet dataDir o) (ht : torn w o t t') (h : t.get (extractedVersion dataDir) = none) :
    t'.get (extractedVersion dataDir) = none := by
  cases o with
  | writeAll p c =>
    obtain rfl : p = tempFile dataDir := hq
    rcases ht with rfl | ⟨d, rfl⟩
    · exact h
    · rw [get_set_of_ne extractedVersion_ne_tempFile, h]
  | removeDirAll p =>
    rcases ht (extractedVersion dataDir) with heq | ⟨-, hnone⟩
    · rw [heq, h]
    · exact hnone
  | unpack a dest =>
    obtain rfl : dest = dataDir := hq
    exact extractedVersion_not_unpacked hd himage h ht
  | openTruncate | writeLine | write | rename | createDirAll | symlink | bindSocket | spawn | wait
  | outputLine | errorOutput => exact absurd hq (by simp [Quiet])
  | readToString | readDirEmpty | pathExists | readLink | openFile | setPermissions | get
  | readResponse | send | createFile | removeFile =>
    rcases ht with rfl | ⟨r, hs⟩
    · exact h
    · exact Quiet.unextracted_step hd himage hq hs h

private theorem Kept.move (hd : DataDir w dataDir) (h : Kept dataDir t) :
    Kept dataDir (t.move (extractedDir dataDir) archFsRoot) where
  unextracted := get_move_source hd.apart_extractedDir.1 hd.apart_extractedDir.2 _
  complete := Or.inl ((get_move_below hd.apart_extractedDir.1 hd.apart_extractedDir.2 _).trans
    h.unextracted)

private theorem Early.kept_step {o : Op} {r : Res o} (hd : DataDir w dataDir)
    (himage : WithoutVersion w.image) (ho : Early dataDir o) (hs : step w o t r t')
    (h : Kept dataDir t) : Kept dataDir t' := by
  rcases ho with (hq | hi) | rfl
  · exact h.of_sameBelow (Quiet.unextracted_step hd himage hq hs h.unextracted) (hq.step hd hs)
  · exact h.of_get (hi.get_step (hi.clear_apart (extractedVersion_apart hd)) hs)
      fun f hf => hi.get_step (hi.clear_proc hf) hs
  · rcases hs with ⟨-, rfl⟩ | ⟨-, -, -, rfl⟩
    · exact h
    · exact h.move hd

private theorem Early.kept_torn {o : Op} (hd : DataDir w dataDir) (himage : WithoutVersion w.image)
    (ho : Early dataDir o) (ht : torn w o t t') (h : Kept dataDir t) : Kept dataDir t' := by
  rcases ho with (hq | hi) | rfl
  · exact h.of_sameBelow (Quiet.unextracted_torn hd himage hq ht h.unextracted) (hq.torn hd ht)
  · exact h.of_get (hi.get_torn (hi.clear_apart (extractedVersion_apart hd)) ht)
      fun f hf => hi.get_torn (hi.clear_proc hf) ht
  · rcases ht with rfl | ⟨r, ⟨-, rfl⟩ | ⟨-, -, -, rfl⟩⟩
    · exact h
    · exact h
    · exact h.move hd

/-! The starts with their record of events. -/

/-- A state of the storage, and what the current start did so far. -/
abbrev Recorded := Tree × List (Event Op Res Tree)

/-- What holds wherever a start is cut. -/
def Inv (dataDir : Path) (x : Recorded) : Prop := UncutSysdata x.2 → Kept dataDir x.1

def Unfinished (x : Recorded) : Prop := ∀ e ∈ x.2, ¬finishes e = true

def Before (dataDir : Path) (x : Recorded) : Prop := Kept dataDir x.1 ∧ Unfinished x

abbrev SafeRec (w : World) (dataDir : Path) {α : Type} (Q : α → Recorded → Prop) (p : App α)
    (x : Recorded) : Prop :=
  Safe (environment w).recorded (fun _ => True) (Inv dataDir) Q p x

private theorem inv_of_kept {x : Recorded} (h : Kept dataDir x.1) : Inv dataDir x := fun _ => h

private theorem not_finishes_of_early {e : Event Op Res Tree} (ho : Early dataDir e.op) :
    ¬finishes e = true := by
  intro hfinish
  obtain ⟨s, x, t, rfl⟩ := finishes_eq hfinish
  rcases ho with (hq | hi) | hr
  · exact hq
  · have hmem : ∃ f ∈ procFiles, inRoot f.1 = lastPath := by decide
    obtain ⟨f, hf, heq⟩ := hmem
    exact hi.2 f hf (heq ▸ List.prefix_refl _)
  · exact absurd hr (by simp)

section Safety

variable (hd : DataDir w dataDir) (himage : WithoutVersion w.image) {α : Type} {R : α → Prop}
  {x : Recorded}

include hd himage

private theorem safe_of_kept {p : App α} (hp : p.All (Early dataDir) R) (hx : Kept dataDir x.1) :
    SafeRec w dataDir (fun a y => Kept dataDir y.1 ∧ R a) p x := by
  refine Safe.forget (I := fun y : Recorded => Kept dataDir y.1) ?_ fun _ h => inv_of_kept h
  refine Safe.of_all ?_ ?_ hp hx
  · exact fun o y r y' ho h hs => ⟨trivial, ho.kept_step hd himage hs.1 h⟩
  · exact fun o y y' ho h ht => ⟨trivial, ho.kept_torn hd himage ht.1 h⟩

private theorem safe_of_before {p : App α} (hp : p.All (Early dataDir) R) (hx : Before dataDir x) :
    SafeRec w dataDir (fun a y => Before dataDir y ∧ R a) p x := by
  have hpush : ∀ {y y' : Recorded} {e : Event Op Res Tree}, Early dataDir e.op → Unfinished y →
      y'.2 = y.2 ++ [e] → Unfinished y' := by
    intro y y' e he hy heq e' he'
    rw [heq] at he'
    rcases List.mem_append.mp he' with he' | he'
    · exact hy e' he'
    · exact List.mem_singleton.mp he' ▸ not_finishes_of_early he
  refine Safe.forget (I := Before dataDir) ?_ fun _ h => inv_of_kept h.1
  refine Safe.of_all ?_ ?_ hp hx
  · intro o y r y' ho h hs
    exact ⟨trivial, ho.kept_step hd himage hs.1 h.1, hpush (by exact ho) h.2 hs.2⟩
  · intro o y y' ho h ht
    exact ⟨trivial, ho.kept_torn hd himage ht.1 h.1, hpush (by exact ho) h.2 ht.2⟩

end Safety

/-! The writes of the seven files. -/

/-- Either `.version` is not there, or its write has begun. -/
def Gap (dataDir : Path) (x : Recorded) : Prop :=
  x.1.get (extractedVersion dataDir) = none ∧
    (x.1.get versionPath = none ∨ ∃ e ∈ x.2, begins e = true)

private theorem inv_of_gap {x : Recorded} (hgap : Gap dataDir x) (hun : Unfinished x) :
    Inv dataDir x := by
  intro huncut
  rcases hgap.2 with hnone | hbegun
  · exact ⟨hgap.1, Or.inl hnone⟩
  · obtain ⟨e, he, hfinish⟩ := huncut hbegun
    exact absurd hfinish (hun e he)

private theorem extractedVersion_ne_inRoot (hd : DataDir w dataDir) (p : Path) :
    inRoot p ≠ extractedVersion dataDir := fun heq =>
  (extractedVersion_apart hd).1 (heq ▸ prefix_inRoot p)

/-- Whatever a write of one of the files left, the gap is not closed before the last one. -/
private theorem Gap.write (hd : DataDir w dataDir) {x y : Recorded} {f : Path × Text}
    {r : Option (Res (.write (inRoot f.1) f.2))} (hgap : Gap dataDir x)
    (hy : Scribbled (inRoot f.1) x.1 y.1)
    (hrec : y.2 = x.2 ++ [⟨x.1, .write (inRoot f.1) f.2, r, y.1⟩]) : Gap dataDir y := by
  have hother : ∀ q, inRoot f.1 ≠ q → y.1.get q = x.1.get q := by
    intro q hq
    rcases hy with heq | ⟨d, heq⟩
    · rw [heq]
    · rw [heq, get_set_of_ne hq]
  refine ⟨(hother _ (extractedVersion_ne_inRoot hd _)).trans hgap.1, ?_⟩
  by_cases hversion : inRoot f.1 = versionPath
  · right
    exact ⟨_, hrec ▸ List.mem_append_right _ (List.mem_singleton.mpr rfl), by
      simp [begins, hversion]⟩
  · rcases hgap.2 with hnone | ⟨e, he, hbegin⟩
    · exact Or.inl ((hother _ hversion).trans hnone)
    · exact Or.inr ⟨e, hrec ▸ List.mem_append_left _ he, hbegin⟩

private theorem Unfinished.push {x y : Recorded} {e : Event Op Res Tree} (h : Unfinished x)
    (hrec : y.2 = x.2 ++ [e]) (he : ¬finishes e = true) : Unfinished y := by
  intro e' he'
  rw [hrec] at he'
  rcases List.mem_append.mp he' with he' | he'
  · exact h e' he'
  · exact List.mem_singleton.mp he' ▸ he

private theorem nodup_procPaths : (procFiles.map fun f => inRoot f.1).Nodup := by decide

private theorem getLast_procPaths : (procFiles.map fun f => inRoot f.1).getLast? = some lastPath := by
  decide

private theorem ne_lastPath {done rest : List (Path × Text)} {f : Path × Text}
    (hsplit : procFiles = done ++ f :: rest) (hrest : rest ≠ []) : inRoot f.1 ≠ lastPath := by
  intro heq
  have hlast := getLast_procPaths
  have hnodup := nodup_procPaths
  rw [hsplit, List.map_append, List.map_cons] at hlast hnodup
  have hne : (rest.map fun f => inRoot f.1) ≠ [] := by simpa using hrest
  rw [List.getLast?_append_of_ne_nil _ (by simp), List.getLast?_cons,
    List.getLast?_eq_getLast_of_ne_nil hne, Option.getD_some, Option.some.injEq] at hlast
  have hmem := List.getLast_mem hne
  rw [hlast, ← heq] at hmem
  exact (List.nodup_cons.mp (List.nodup_append.mp hnodup).2.1).1 hmem

private theorem ne_of_mem_done {done rest : List (Path × Text)} {f g : Path × Text}
    (hsplit : procFiles = done ++ f :: rest) (hg : g ∈ done) : inRoot f.1 ≠ inRoot g.1 := by
  intro heq
  have hnodup := nodup_procPaths
  rw [hsplit, List.map_append, List.map_cons] at hnodup
  have hmem : inRoot g.1 ∈ done.map fun f => inRoot f.1 := List.mem_map_of_mem hg
  exact (List.nodup_append.mp hnodup).2.2 _ hmem _ List.mem_cons_self heq.symm

private theorem finishes_write {s t : Tree} {p : Path} {v : Text} {r : Option (Res (.write p v))}
    (h : finishes ⟨s, .write p v, r, t⟩ = true) : p = lastPath ∧ r = some true := by
  obtain ⟨s', v', t', heq⟩ := finishes_eq h
  cases heq
  exact ⟨rfl, rfl⟩

private theorem safe_writeProcFiles (hd : DataDir w dataDir) {done rest : List (Path × Text)}
    {x : Recorded} (hsplit : procFiles = done ++ rest)
    (hdone : ∀ f ∈ done, x.1.get (inRoot f.1) = some (.file (.text f.2)))
    (hgap : Gap dataDir x) (hun : rest ≠ [] → Unfinished x) :
    SafeRec w dataDir (fun _ y => Kept dataDir y.1) (writeProcFiles rest) x := by
  induction rest generalizing done x with
  | nil =>
    rw [List.append_nil] at hsplit
    have hkept : Kept dataDir x.1 := ⟨hgap.1, Or.inr fun f hf => hdone f (hsplit ▸ hf)⟩
    exact ⟨inv_of_kept hkept, hkept⟩
  | cons f rest ih =>
    have hun := hun (by simp)
    refine ⟨inv_of_gap hgap hun, ?_, ?_⟩
    · rintro y ⟨hs, hrec⟩
      have hun' := hun.push hrec fun h => absurd (finishes_write h).2 (by simp)
      exact ⟨trivial, inv_of_gap (hgap.write hd hs hrec) hun'⟩
    · rintro r y ⟨hs | ⟨rfl, hs⟩, hrec⟩
      · obtain ⟨rfl, hs⟩ := hs
        have hun' := hun.push hrec fun h => absurd (finishes_write h).2 (by simp)
        exact ⟨trivial, inv_of_gap (hgap.write hd hs hrec) hun'⟩
      · refine ⟨trivial, @ih (done ++ [f]) y (by simpa using hsplit) ?_
          (hgap.write hd (Or.inr ⟨_, hs⟩) hrec) fun hrest => ?_⟩
        · intro g hg
          rw [hs]
          rcases List.mem_append.mp hg with hg | hg
          · rw [get_set_of_ne (ne_of_mem_done hsplit hg), hdone g hg]
          · obtain rfl := List.mem_singleton.mp hg
            exact get_set_self _ _ _
        · exact hun.push hrec fun h => ne_lastPath hsplit hrest (finishes_write h).1

/-! One start. -/

private theorem early_of_beside {o : Op} (h : Beside dataDir o) : Early dataDir o := Or.inl h

private theorem stageIssues_setupArchFs (turns : Nat) (localConfig : LocalConfig) :
    StageIssues (Early dataDir) (setupArchFs turns ⟨dataDir, localConfig⟩) := by
  have hquiet : ∀ o, Quiet dataDir o → Early dataDir o := fun o h => early_of_beside (Or.inl h)
  refine all_perform (hquiet _ trivial) fun needSetup => ?_
  split
  · rintro _ ⟨⟩
    refine all_bind (R := fun _ => True) ?_ fun _ _ => ?_
    · refine Program.All.iterate (fun u => ?_) turns ()
      exact (all_extractTurn dataDir turns u).mono hquiet fun _ _ _ _ => trivial
    refine all_perform (Or.inr rfl) fun renamed => all_bind (all_pbExpect _ _) fun _ _ => ?_
    exact all_perform (hquiet _ rfl) fun _ => all_pbExpect _ _
  · exact fun _ h => absurd h (by simp)

section Start

variable (hd : DataDir w dataDir) {x : Recorded}

include hd

private theorem Beside.get_proc_step {o : Op} {r : Res o} (ho : Beside dataDir o)
    (hs : step w o t r t')
    {f : Path × Text} (hf : f ∈ procFiles) : t'.get (inRoot f.1) = t.get (inRoot f.1) := by
  rcases ho with hq | hi
  · exact hq.step hd hs _ (prefix_inRoot f.1)
  · exact hi.get_step (hi.clear_proc hf) hs

private theorem Beside.get_proc_torn {o : Op} (ho : Beside dataDir o) (ht : torn w o t t')
    {f : Path × Text} (hf : f ∈ procFiles) : t'.get (inRoot f.1) = t.get (inRoot f.1) := by
  rcases ho with hq | hi
  · exact hq.torn hd ht _ (prefix_inRoot f.1)
  · exact hi.get_torn (hi.clear_proc hf) ht

variable (himage : WithoutVersion w.image)

include himage

private theorem safe_sysdataThread (hx : Before dataDir x) (hnone : x.1.get versionPath = none) :
    SafeRec w dataDir (fun _ y => Kept dataDir y.1)
      (do
        prepareSysdata
        writeProcFiles procFiles) x := by
  obtain ⟨v, hv, hversion⟩ := versionPath_mem
  have hprepare : SafeRec w dataDir
      (fun _ y => (Before dataDir y ∧ y.1.get versionPath = none) ∧ True) prepareSysdata x := by
    refine Safe.forget (I := fun y => Before dataDir y ∧ y.1.get versionPath = none) ?_
      fun _ h => inv_of_kept h.1.1
    refine Safe.of_all ?_ ?_ (all_prepareSysdata dataDir) ⟨hx, hnone⟩
    · rintro o y r y' ho ⟨h, hn⟩ ⟨hs, hrec⟩
      refine ⟨trivial, ⟨(early_of_beside ho).kept_step hd himage hs h.1, ?_⟩, ?_⟩
      · exact h.2.push hrec (not_finishes_of_early (early_of_beside ho))
      · rw [← hversion] at hn ⊢
        rw [Beside.get_proc_step hd ho hs hv, hn]
    · rintro o y y' ho ⟨h, hn⟩ ⟨ht, hrec⟩
      refine ⟨trivial, ⟨(early_of_beside ho).kept_torn hd himage ht h.1, ?_⟩, ?_⟩
      · exact h.2.push hrec (not_finishes_of_early (early_of_beside ho))
      · rw [← hversion] at hn ⊢
        rw [Beside.get_proc_torn hd ho ht hv, hn]
  refine (hprepare.mono fun _ y _ hy => ?_).bind
  obtain ⟨⟨hbefore, hn⟩, -⟩ := hy
  exact @safe_writeProcFiles w dataDir hd [] procFiles y rfl (by simp)
    ⟨hbefore.1.unextracted, Or.inl hn⟩ fun _ => hbefore.2

private theorem safe_simulateLinuxSysdataStage (hx : Before dataDir x) :
    SafeRec w dataDir
      (fun output y => match output with
        | none => SysdataComplete y.1 ∧ Kept dataDir y.1
        | some handle => SafeRec w dataDir (fun _ z => Kept dataDir z.1) handle y)
      simulateLinuxSysdataStage x := by
  have hearly : Early dataDir (.pathExists versionPath) := early_of_beside (Or.inl trivial)
  refine ⟨inv_of_kept hx.1, ?_, ?_⟩
  · rintro y ⟨ht, hrec⟩
    exact ⟨trivial, inv_of_kept (hearly.kept_torn hd himage ht hx.1)⟩
  · rintro done y ⟨hs, hrec⟩
    have hkept : Kept dataDir y.1 := hearly.kept_step hd himage hs hx.1
    have hbefore : Before dataDir y :=
      ⟨hkept, hx.2.push hrec (not_finishes_of_early (by exact hearly))⟩
    obtain ⟨hsame, hdone⟩ := hs
    refine ⟨trivial, ?_⟩
    cases done with
    | true =>
      refine ⟨inv_of_kept hkept, ?_, hkept⟩
      rcases hkept.complete with hnone | hall
      · rw [hsame] at hnone
        exact absurd hdone (by simp [show x.1.get (inRoot ["proc", ".version"]) = none from hnone])
      · exact hall
    | false =>
      have hnone : y.1.get versionPath = none := by
        rw [hsame]
        simpa [versionPath] using hdone.symm
      exact ⟨inv_of_kept hkept, safe_sysdataThread hd himage hbefore hnone⟩

omit hd himage in
private theorem safe_report (hx : Inv dataDir x) (m : SetupMessage) :
    SafeRec w dataDir (fun _ _ => True) (do let _ ← perform (.send m); pure ()) x := by
  have hpush : ∀ {y : Recorded} {r : Option (Res (.send m))}, y.1 = x.1 →
      y.2 = x.2 ++ [⟨x.1, .send m, r, y.1⟩] → Inv dataDir y := by
    intro y r hsame hrec huncut
    rw [hsame]
    refine hx fun ⟨e, he, hbegin⟩ => ?_
    obtain ⟨e', he', hfinish⟩ := huncut ⟨e, hrec ▸ List.mem_append_left _ he, hbegin⟩
    rw [hrec] at he'
    rcases List.mem_append.mp he' with he' | he'
    · exact ⟨e', he', hfinish⟩
    · obtain rfl := List.mem_singleton.mp he'
      obtain ⟨s, v, t, heq⟩ := finishes_eq hfinish
      cases heq
  refine ⟨hx, ?_, ?_⟩
  · rintro y ⟨ht | ⟨r, hs⟩, hrec⟩
    · exact ⟨trivial, hpush ht hrec⟩
    · exact ⟨trivial, hpush hs hrec⟩
  · rintro r y ⟨hs, hrec⟩
    exact ⟨trivial, hpush hs hrec, trivial⟩

variable {rest : List SetupStage} (hrest : ∀ stage ∈ rest, StageIssues (Early dataDir) stage)

omit hd himage in
private theorem early_send (m : SetupMessage) : Early dataDir (.send m) := early_of_beside
    (Or.inl trivial)

include hrest

private theorem safe_joinSysdata {handle : App Unit}
    (hhandle : SafeRec w dataDir (fun _ z => Kept dataDir z.1) handle x) :
    SafeRec w dataDir (fun _ _ => True) (coordinator handle rest) x := by
  have hjoin : SafeRec w dataDir
      (fun joined y => Inv dataDir y ∧ (joined = .ok () → Kept dataDir y.1)) handle.join x :=
    Safe.join (hhandle.mono fun _ _ hI h => ⟨hI, fun _ => h⟩)
      fun _ _ hI => ⟨hI, fun h => absurd h (by simp)⟩
  refine (hjoin.mono fun joined y _ hy => ?_).bind
  match joined with
  | .ok () =>
    have hall := all_remainingStages early_send hrest
    exact (safe_of_kept hd himage hall (hy.2 rfl)).mono fun _ _ _ _ => trivial
  | .error e => exact safe_report hy.1 _

private theorem safe_remainingStages (hx : Before dataDir x) :
    SafeRec w dataDir (fun _ _ => True) (remainingStages (simulateLinuxSysdataStage :: rest))
      x := by
  refine ((safe_simulateLinuxSysdataStage hd himage hx).mono fun output y _ hy => ?_).bind
  match output with
  | none =>
    have hall := all_remainingStages early_send hrest
    exact (safe_of_kept hd himage hall hy.2).mono fun _ _ _ _ => trivial
  | some handle => exact safe_joinSysdata hd himage hrest hy

private theorem safe_runStages_sysdata (hx : Before dataDir x) :
    SafeRec w dataDir (fun done y => done = true → Kept dataDir y.1)
      (runStages (simulateLinuxSysdataStage :: rest)) x := by
  refine ((safe_simulateLinuxSysdataStage hd himage hx).mono fun output y _ hy => ?_).bind
  match output with
  | none =>
    have hall := all_runStages early_send hrest
    exact (safe_of_kept hd himage hall hy.2).mono fun _ _ _ h _ => h.1
  | some handle =>
    have hjoin := Safe.join (Q := fun _ _ => True)
      ((safe_joinSysdata hd himage hrest hy).mono fun _ _ _ _ => trivial) fun _ _ _ => trivial
    exact (hjoin.mono fun _ _ hI _ => ⟨hI, fun h => absurd h (by simp)⟩).bind

private theorem safe_runStages_archFs (turns : Nat) (localConfig : LocalConfig)
    (hx : Before dataDir x) :
    SafeRec w dataDir (fun done y => done = true → Kept dataDir y.1)
      (runStages (setupArchFs turns ⟨dataDir, localConfig⟩ :: simulateLinuxSysdataStage :: rest))
      x := by
  have hstage := @stageIssues_setupArchFs dataDir turns localConfig
  refine ((safe_of_before hd himage hstage hx).mono fun output y _ hy => ?_).bind
  match output with
  | none => exact safe_runStages_sysdata hd himage hrest hy.1
  | some handle =>
    have hhandle := (hy.2 handle rfl).join
    have hcoordinator : SafeRec w dataDir (fun _ _ => True)
        (coordinator handle (simulateLinuxSysdataStage :: rest)) y := by
      refine ((safe_of_before hd himage hhandle hy.1).mono fun joined z _ hz => ?_).bind
      match joined with
      | .ok () => exact safe_remainingStages hd himage hrest hz.1
      | .error e => exact safe_report (inv_of_kept hz.1.1) _
    have hjoin := Safe.join (Q := fun _ _ => True)
      (hcoordinator.mono fun _ _ _ _ => trivial) fun _ _ _ => trivial
    exact (hjoin.mono fun _ _ hI _ => ⟨hI, fun h => absurd h (by simp)⟩).bind

end Start

private theorem kept_of_run (hd : DataDir w dataDir) (himage : WithoutVersion w.image)
    {turns resumed : Nat}
    {toml : Toml} {diffPaths : Path → Path → Option Path} {tr : List (Event Op Res Tree)}
    {out : Outcome Unit} (h : Kept dataDir t) (huncut : UncutSysdata tr)
    (hrun : Run (environment w) (appStart turns resumed toml diffPaths dataDir) t tr out t') :
    Kept dataDir t' := by
  have hbefore : Before dataDir (t, []) := ⟨h, by simp [Unfinished]⟩
  have hsafe : SafeRec w dataDir (fun _ _ => True)
      (appStart turns resumed toml diffPaths dataDir) (t, []) := by
    have hconfig := (all_parseConfig dataDir toml).mono (fun _ => early_of_beside) fun _ => id
    refine ((safe_of_before hd himage hconfig hbefore).mono fun localConfig y _ hy => ?_).bind
    have hrest : ∀ stage ∈ [installDependencies turns ⟨dataDir, localConfig⟩, setupFirefoxConfig,
        fixXkbSymlink diffPaths], StageIssues (Early dataDir) stage := by
      simp only [List.forall_mem_cons, List.not_mem_nil, false_imp_iff, implies_true, and_true]
      exact ⟨(stageIssues_installDependencies dataDir turns _).mono fun _ => early_of_beside,
        (stageIssues_setupFirefoxConfig dataDir).mono fun _ => early_of_beside,
        (stageIssues_fixXkbSymlink dataDir diffPaths).mono fun _ => early_of_beside⟩
    refine ((safe_runStages_archFs hd himage hrest turns localConfig hy.1).mono
      fun done z hI hz => ?_).bind
    cases done with
    | false => exact ⟨hI, trivial⟩
    | true =>
      have hdesktop := (all_desktop dataDir turns resumed localConfig).mono
        (fun _ => early_of_beside) fun _ => id
      exact (safe_of_kept hd himage hdesktop (hz rfl)).mono fun _ _ _ _ => trivial
  obtain ⟨tr', hrec⟩ := hrun.recorded []
  exact (hsafe.sound hrec).1 (by simpa using huncut)

private theorem kept_of_uncut_starts (hd : DataDir w dataDir) (himage : WithoutVersion w.image)
    {toml : Toml} {diffPaths : Path → Path → Option Path} {es : List (Event Op Res Tree)}
    (h : Starts (environment w) (UncutStarts toml diffPaths dataDir) t es t')
    (ht : Kept dataDir t) : Kept dataDir t' := by
  refine (Starts.sound (G := fun _ => True) ?_ h ht).1
  rintro p tr out s u ⟨⟨turns, resumed, rfl⟩, huncut⟩ hs hrun
  exact ⟨kept_of_run hd himage hs huncut hrun, fun _ _ => trivial⟩

private theorem safe_reported (t : Tree) :
    Safe (environment w) (fun _ => True) (fun u => u = t)
      (fun output _ => output = none → t.get versionPath ≠ none) simulateLinuxSysdataStage t := by
  refine ⟨rfl, ?_, ?_⟩
  · rintro u (rfl | ⟨r, rfl, -⟩) <;> exact ⟨trivial, rfl⟩
  · rintro done u ⟨rfl, hdone⟩
    refine ⟨trivial, ?_⟩
    cases done with
    | true =>
      refine ⟨rfl, fun _ hnone => ?_⟩
      rw [show u.get (inRoot ["proc", ".version"]) = none from hnone] at hdone
      exact absurd hdone (by simp)
    | false => exact ⟨rfl, fun h => absurd h (by simp)⟩

private theorem rootBinds_below_proc : ∀ b ∈ rootBinds, inRoot ["proc"] <+: b.1 →
    ∃ f ∈ procFiles, inRoot f.1 = b.1 := by decide

private theorem SysdataComplete.binds (h : SysdataComplete t) :
    ∀ b ∈ rootBinds, inRoot ["proc"] <+: b.1 → (t.get b.1).isSome = true := by
  intro b hb hproc
  obtain ⟨f, hf, hpath⟩ := rootBinds_below_proc b hb hproc
  rw [← hpath, h f hf]
  rfl

/-- Over any number of starts none of which is cut, or fails to write, between the beginning of
the write of `.version` and the end of the last write: when the stage reports itself done, all
seven files are there in full, and so is every source that `spawn` binds below `/proc`. -/
theorem sysdata_complete_of_uncut_starts (hd : DataDir w dataDir)
    (himage : WithoutVersion w.image) {toml : Toml} {diffPaths : Path → Path → Option Path}
    {s : Tree} {es tr : List (Event Op Res Tree)} (hfresh : Fresh dataDir s)
    (hstarts : Starts (environment w) (UncutStarts toml diffPaths dataDir) s es t)
    (hdone : Run (environment w) simulateLinuxSysdataStage t tr (.returned none) t') :
    SysdataComplete t' ∧
      ∀ b ∈ rootBinds, inRoot ["proc"] <+: b.1 → (t'.get b.1).isSome = true := by
  have hkept := kept_of_uncut_starts hd himage hstarts hfresh.kept
  obtain ⟨rfl, -, hreported⟩ := (@safe_reported w t).sound hdone
  have hall : SysdataComplete t' := hkept.complete.resolve_left (hreported none rfl rfl)
  exact ⟨hall, hall.binds⟩

private theorem withoutVersion_smallDevice : WithoutVersion smallDevice.image := by
  unfold WithoutVersion smallDevice
  decide

private theorem fresh_empty : Fresh filesDir ⟨[]⟩ :=
    ⟨by simp [Occupied, Tree.occupied], fun _ _ => rfl⟩

private theorem run_reported {t : Tree} (h : (t.get versionPath).isSome = true) :
    Run (environment smallDevice) simulateLinuxSysdataStage t
      [⟨t, .pathExists versionPath, some true, t⟩] (.returned none) t :=
  .step ⟨rfl, h.symm⟩ (.pure _ _)

theorem sysdata_complete_of_first_start :
    SysdataComplete (firstStart 40).2 ∧
      ∀ b ∈ rootBinds, inRoot ["proc"] <+: b.1 → ((firstStart 40).2.get b.1).isSome = true := by
  have huncut : UncutSysdata (firstStart 40).1 := by decide +kernel
  have hstarts : Starts (environment smallDevice) (UncutStarts lineToml (fun _ _ => none) filesDir)
      ⟨[]⟩ (firstStart 40).1 (firstStart 40).2 :=
    Starts.again (Starts.none _) ⟨⟨5, 0, rfl⟩, huncut⟩ (run_firstStart 40)
  have hversion : ((firstStart 40).2.get versionPath).isSome = true := by decide +kernel
  exact sysdata_complete_of_uncut_starts dataDir_smallDevice withoutVersion_smallDevice fresh_empty
    hstarts (run_reported hversion)

/-- A first start killed right after `.version` was written: the stage is reported done for ever,
and the last file is not there. -/
theorem sysdata_incomplete_after_kill :
    Fresh filesDir ⟨[]⟩ ∧
    Starts (environment smallDevice) (AppStarts lineToml (fun _ _ => none) filesDir) ⟨[]⟩
      (firstStart 29).1 (firstStart 29).2 ∧
    (∃ tr, Run (environment smallDevice) simulateLinuxSysdataStage (firstStart 29).2 tr
      (.returned none) (firstStart 29).2) ∧
    (firstStart 29).2.get lastPath = none ∧ ¬SysdataComplete (firstStart 29).2 := by
  have hversion : ((firstStart 29).2.get versionPath).isSome = true := by decide +kernel
  have hlast : (firstStart 29).2.get lastPath = none := by decide +kernel
  refine ⟨fresh_empty, starts_firstStart 29, ⟨_, run_reported hversion⟩, hlast, fun hall => ?_⟩
  have hmem : ∃ f ∈ procFiles, inRoot f.1 = lastPath := by decide
  obtain ⟨f, hf, hpath⟩ := hmem
  have hfile := hall f hf
  rw [hpath, hlast] at hfile
  exact absurd hfile (by simp)

end LocalDesktop.Android.Proot.Sysdata
