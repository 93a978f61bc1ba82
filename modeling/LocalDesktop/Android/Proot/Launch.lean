/- GID: LocalDesktop/Android/Proot/Launch
   generality: G
   digest: The processes of repeated launches, and when no display file is removed too late. -/

import LocalDesktop.Foundation.Transition
import LocalDesktop.Android.Proot.StageOps
import Mathlib.Logic.Function.Basic

/-!
Every `resumed` of the Wayland backend calls `launch`, which starts a thread.
The thread starts two `rm` processes and the desktop, and waits for none of the
two: `ArchProcess::exec` returns when the child is started.
-/

set_option autoImplicit false
set_option relaxedAutoImplicit false

namespace LocalDesktop.Android.Proot.Launch

open Foundation.Strings Foundation.Transition Foundation.FileTree Platform Core.Config Stages

inductive DisplayFile
  | lock
  | socket
  deriving DecidableEq

def rmCommand : DisplayFile → Command
  | .lock => ⟨"rm -f /tmp/.X1-lock".toList, "root".toList⟩
  | .socket => ⟨"rm -f /tmp/.X11-unix/X1".toList, "root".toList⟩

def desktopCommand (config : LocalConfig) : Command :=
  ⟨config.command.launch, config.user.username⟩

/-- What a thread of `launch` does next. -/
inductive Place
  | absent
  | rm (f : DisplayFile)
  | desktop
  | logging
  | ended
  deriving DecidableEq

/-- Where a thread goes on after the `rm` of a file. -/
def DisplayFile.next : DisplayFile → Place
  | .lock => .rm .socket
  | .socket => .desktop

inductive Removal
  | absent
  | outstanding
  | ended
  deriving DecidableEq

/-- The threads and processes of launch 0, 1, 2 and so on; `made` says which display files a
desktop has created. -/
structure State where
  launches : Nat
  place : Nat → Place
  removal : Nat → DisplayFile → Removal
  desktop : Nat → Bool
  made : Nat → DisplayFile → Bool

inductive Event
  | resumed
  | spawned (k : Nat) (f : DisplayFile)
  -- The `rm` process removes its file, or ends without that.
  | removed (k : Nat) (f : DisplayFile)
  | gaveUp (k : Nat) (f : DisplayFile)
  | started (j : Nat)
  | created (j : Nat) (f : DisplayFile)
  | exited (j : Nat)
  -- A child cannot be started, and the thread panics.
  | broke (k : Nat)
  -- The output of the desktop ends, and with it `with_log`.
  | logged (k : Nat)
  deriving DecidableEq

def setAt {α : Type} (table : Nat → DisplayFile → α) (k : Nat) (f : DisplayFile) (a : α) :
    Nat → DisplayFile → α :=
  fun k' g => if k' = k ∧ g = f then a else table k' g

/-- One step of a thread or of a process. -/
inductive Step : State → Event → State → Prop
  | resumed {s : State} :
      Step s .resumed
        { s with
          launches := s.launches + 1
          place := Function.update s.place s.launches (.rm .lock) }
  | spawn {s : State} {k : Nat} {f : DisplayFile} :
      s.place k = .rm f →
      Step s (.spawned k f)
        { s with
          place := Function.update s.place k f.next
          removal := setAt s.removal k f .outstanding }
  | remove {s : State} {k : Nat} {f : DisplayFile} :
      s.removal k f = .outstanding →
      Step s (.removed k f)
        { s with
          removal := setAt s.removal k f .ended }
  | giveUp {s : State} {k : Nat} {f : DisplayFile} :
      s.removal k f = .outstanding →
      Step s (.gaveUp k f)
        { s with
          removal := setAt s.removal k f .ended }
  | start {s : State} {j : Nat} :
      s.place j = .desktop →
      Step s (.started j)
        { s with
          place := Function.update s.place j .logging
          desktop := Function.update s.desktop j true }
  | create {s : State} {j : Nat} {f : DisplayFile} :
      s.desktop j = true →
      Step s (.created j f)
        { s with made := setAt s.made j f true }
  | exit {s : State} {j : Nat} :
      s.desktop j = true → Step s (.exited j) { s with desktop := Function.update s.desktop j false }
  | broke {s : State} {k : Nat} :
      (∃ f, s.place k = .rm f) ∨ s.place k = .desktop →
      Step s (.broke k) { s with place := Function.update s.place k .ended }
  | logged {s : State} {k : Nat} :
      s.place k = .logging →
      Step s (.logged k) { s with place := Function.update s.place k .ended }

def system : System State Event where
  start := ⟨0, fun _ => .absent, fun _ _ => .absent, fun _ => false, fun _ _ => false⟩
  step := Step

/-- No `rm` removes its file after the desktop of its own or of an earlier launch has created it. -/
def Undisturbed (h : List Event) : Prop :=
  h.Pairwise fun a b => ∀ j k f, a = .created j f → b = .removed k f → k < j

/-- Before the step: a desktop creates a file only when no `rm` of it, of its own or of a later
launch, is under way; and a launch starts an `rm` only when no desktop of its own or of an earlier
launch has created the file. -/
def Orderly (s : State) : Event → Prop
  | .created j f => ∀ k, j ≤ k → s.removal k f ≠ .outstanding
  | .spawned k f => ∀ j, j ≤ k → s.made j f = false
  | _ => True

variable {h : List Event} {s t : State} {e : Event} {j k : Nat} {f g : DisplayFile}

/-! The order of the places is the order of the program. -/

abbrev StorageEvents := List (Foundation.Effects.Event Op Res Tree)

def starts (tr : StorageEvents) : List Command :=
  tr.filterMap fun e => match e.op with
    | .spawn _ c => some c
    | _ => none

private theorem starts_append (tr tr' : StorageEvents) : starts
    (tr ++ tr') = starts tr ++ starts tr' :=
  List.filterMap_append

section Program

open Foundation.Effects (Run Outcome)

variable {w : World} {a b : Tree} {tr : StorageEvents}

private theorem starts_spawn {c : Command} {out : Outcome Command}
    (hrun : Run (environment w) (Process.spawn c) a tr out b) :
    starts tr <+: [c] ∧ ((∃ c', out = .returned c') → starts tr = [c]) := by
  cases hrun with
  | killed => exact ⟨List.nil_prefix, by simp⟩
  | torn => exact ⟨List.prefix_refl _, by simp⟩
  | @step _ _ _ _ _ started _ _ hs hrest =>
    cases started with
    | true => cases hrest <;> exact ⟨List.prefix_refl _, fun _ => rfl⟩
    | false => cases hrest <;> exact ⟨List.prefix_refl _, fun _ => rfl⟩

private theorem starts_withLog {turns : Nat} {c : Command} {out : Outcome Unit}
    (hrun : Run (environment w) (Process.withLog turns c fun _ => pure ()) a tr out b) :
    starts tr = [] := by
  have hall := @StageOps.all_withLog (fun o => ∀ root c, o ≠ .spawn root c) turns c
    (fun _ => pure ()) (by simp) fun _ => trivial
  refine List.filterMap_eq_nil_iff.mpr fun e he => ?_
  split
  · rename_i root c heq
    exact absurd heq (hall.events hrun e he root c)
  · rfl

theorem starts_launch {turns : Nat} {config : LocalConfig} {out : Outcome Unit}
    (hrun : Run (environment w) (launch turns config) a tr out b) :
    starts tr <+: [rmCommand .lock, rmCommand .socket, desktopCommand config] := by
  rcases hrun.bind_split with ⟨_, hlock, -⟩ | ⟨tr₁, rest, _, _, rfl, hlock, hrest⟩
  · exact (starts_spawn hlock).1.trans (List.prefix_append [_] _)
  have hlock := (starts_spawn hlock).2 ⟨_, rfl⟩
  rw [starts_append, hlock]
  refine List.prefix_append_right_inj [_] |>.mpr ?_
  rcases hrest.bind_split with ⟨_, hsocket, -⟩ | ⟨tr₂, rest, _, _, rfl, hsocket, hrest⟩
  · exact (starts_spawn hsocket).1.trans (List.prefix_append [_] _)
  have hsocket := (starts_spawn hsocket).2 ⟨_, rfl⟩
  rw [starts_append, hsocket]
  refine List.prefix_append_right_inj [_] |>.mpr ?_
  rcases hrest.bind_split with ⟨_, hdesktop, -⟩ | ⟨tr₃, rest, _, _, rfl, hdesktop, hlog⟩
  · exact (starts_spawn hdesktop).1
  · rw [starts_append, (starts_spawn hdesktop).2 ⟨_, rfl⟩, starts_withLog hlog]
    exact List.prefix_refl _

end Program

/-! What the state says of the history. -/

/-- The `rm` processes that are under way, and what every process has done. -/
structure Agrees (h : List Event) (s : State) : Prop where
  fresh : ∀ k, s.launches ≤ k → s.place k = .absent
  unspawned : ∀ k f, s.place k = .absent ∨ s.place k = .rm .lock ∨ s.place k = .rm f →
    s.removal k f = .absent
  spawned : ∀ k f, s.removal k f ≠ .absent → .spawned k f ∈ h
  removed : ∀ k f, .removed k f ∈ h → s.removal k f = .ended
  made : ∀ j f, s.made j f = true ↔ .created j f ∈ h

private theorem mem_append_single {a : Event} (hne : a ≠ e) : a ∈ h ++ [e] ↔ a ∈ h := by
  simp [hne]

private theorem setAt_self {α : Type} (table : Nat → DisplayFile → α) (a : α) :
    setAt table k f a k f = a := if_pos ⟨rfl, rfl⟩

private theorem setAt_of_ne {α : Type} {table : Nat → DisplayFile → α} {a : α}
    (hne : ¬(j = k ∧ g = f)) : setAt table k f a j g = table j g := if_neg hne

private theorem Agrees.quiet (ha : Agrees h s) (hremoval : t.removal = s.removal)
    (hmade : t.made = s.made)
    (hfresh : ∀ k, t.launches ≤ k → t.place k = .absent)
    (hplace : ∀ k, t.place k = s.place k ∨ s.place k = .absent ∨
      (t.place k ≠ .absent ∧ ∀ f, t.place k ≠ .rm f))
    (hcreated : ∀ j f, e ≠ .created j f) (hremoved : ∀ k f, e ≠ .removed k f) :
    Agrees (h ++ [e]) t := by
  refine ⟨hfresh, fun k f hk => ?_, fun k f hr => ?_, fun k f hmem => ?_, fun j f => ?_⟩
  · rw [hremoval]
    rcases hplace k with heq | habsent | ⟨hne, hrm⟩
    · exact ha.unspawned k f (heq ▸ hk)
    · exact ha.unspawned k f (Or.inl habsent)
    · rcases hk with hk | hk | hk
      · exact absurd hk hne
      · exact absurd hk (hrm _)
      · exact absurd hk (hrm _)
  · rw [hremoval] at hr
    exact List.mem_append_left _ (ha.spawned k f hr)
  · rw [hremoval]
    exact ha.removed k f ((mem_append_single (hremoved k f).symm).mp hmem)
  · rw [hmade, mem_append_single (hcreated j f).symm]
    exact ha.made j f

private theorem Agrees.settle (ha : Agrees h s) (hd : s.removal k f = .outstanding)
    (hcreated : ∀ j f, e ≠ .created j f) (hremoved : ∀ k' g, e = .removed k' g → k' = k ∧ g = f) :
    Agrees (h ++ [e]) { s with removal := setAt s.removal k f .ended } := by
  refine ⟨ha.fresh, fun k' g hk => ?_, fun k' g hr => ?_, fun k' g hmem => ?_, fun j g => ?_⟩
  · have habsent := ha.unspawned k' g hk
    by_cases heq : k' = k ∧ g = f
    · obtain ⟨rfl, rfl⟩ := heq
      exact absurd (habsent.symm.trans hd) (by simp)
    · simpa only [setAt_of_ne heq] using habsent
  · by_cases heq : k' = k ∧ g = f
    · obtain ⟨rfl, rfl⟩ := heq
      exact List.mem_append_left _ (ha.spawned k' g (by simp [hd]))
    · simp only [setAt_of_ne heq] at hr
      exact List.mem_append_left _ (ha.spawned k' g hr)
  · by_cases heq : k' = k ∧ g = f
    · obtain ⟨rfl, rfl⟩ := heq
      exact setAt_self _ _
    · simp only [setAt_of_ne heq]
      refine ha.removed k' g ((mem_append_single fun he => ?_).mp hmem)
      exact heq (hremoved k' g he.symm)
  · rw [mem_append_single (hcreated j g).symm]
    exact ha.made j g

private theorem Agrees.spawn (ha : Agrees h s) (hd : s.place k = .rm f) :
    Agrees (h ++ [.spawned k f])
      { s with
        place := Function.update s.place k f.next
        removal := setAt s.removal k f .outstanding } := by
  have habsent : s.removal k f = .absent := ha.unspawned k f (Or.inr (Or.inr hd))
  have hlt : k < s.launches := by
    by_contra hk
    exact absurd ((ha.fresh k (by omega)).symm.trans hd) (by simp)
  refine ⟨fun k' hk => ?_, fun k' g hplace => ?_, fun k' g hr => ?_, fun k' g hmem => ?_,
    fun j g => ?_⟩
  · simp only at hk ⊢
    rw [Function.update_of_ne (by omega)]
    exact ha.fresh k' hk
  · by_cases hk : k' = k
    · subst hk
      simp only [Function.update_self] at hplace
      cases f with
      | lock =>
        have hg : .socket = g := by simpa [DisplayFile.next] using hplace
        rw [← hg]
        simp only [setAt_of_ne (f := .lock) (g := .socket) (by simp)]
        exact ha.unspawned k' .socket (Or.inr (Or.inl hd))
      | socket => simp [DisplayFile.next] at hplace
    · simp only [Function.update_of_ne hk] at hplace
      simp only [setAt_of_ne fun h' => hk h'.1]
      exact ha.unspawned k' g hplace
  · by_cases heq : k' = k ∧ g = f
    · obtain ⟨rfl, rfl⟩ := heq
      exact List.mem_append_right _ (List.mem_singleton.mpr rfl)
    · simp only [setAt_of_ne heq] at hr
      exact List.mem_append_left _ (ha.spawned k' g hr)
  · have hended := ha.removed k' g ((mem_append_single (by simp)).mp hmem)
    by_cases heq : k' = k ∧ g = f
    · obtain ⟨rfl, rfl⟩ := heq
      exact absurd (habsent.symm.trans hended) (by simp)
    · simpa only [setAt_of_ne heq] using hended
  · rw [mem_append_single (by simp)]
    exact ha.made j g

private theorem Agrees.create (ha : Agrees h s) (j : Nat) (f : DisplayFile) :
    Agrees (h ++ [.created j f]) { s with made := setAt s.made j f true } := by
  refine ⟨ha.fresh, ha.unspawned, fun k' g hr => List.mem_append_left _ (ha.spawned k' g hr),
    fun k' g hmem => ha.removed k' g ((mem_append_single (by simp)).mp hmem), fun j' g => ?_⟩
  by_cases heq : j' = j ∧ g = f
  · obtain ⟨rfl, rfl⟩ := heq
    simp [setAt_self]
  · simp only [setAt_of_ne heq]
    rw [mem_append_single fun he => heq (by cases he; exact ⟨rfl, rfl⟩)]
    exact ha.made j' g

private theorem Agrees.move (ha : Agrees h s) {place : Place} (hd : s.place k ≠ .absent)
    (hplace : place ≠ .absent ∧ ∀ f, place ≠ .rm f) (hcreated : ∀ j f, e ≠ .created j f)
    (hremoved : ∀ k f, e ≠ .removed k f) (desktop : Nat → Bool) :
    Agrees (h ++ [e]) { s with place := Function.update s.place k place, desktop := desktop } := by
  refine ha.quiet rfl rfl (fun k' hk => ?_) (fun k' => ?_) hcreated hremoved
  · have hne : k' ≠ k := by
      rintro rfl
      exact hd (ha.fresh k' hk)
    simp only [Function.update_of_ne hne]
    exact ha.fresh k' hk
  · by_cases hk : k' = k
    · subst hk
      simp only [Function.update_self]
      exact Or.inr (Or.inr hplace)
    · exact Or.inl (Function.update_of_ne hk _ _)

private theorem agrees_step (ha : Agrees h s) (hstep : Step s e t) : Agrees (h ++ [e]) t := by
  cases hstep with
  | resumed =>
    refine ha.quiet rfl rfl (fun k hk => ?_) (fun k => ?_) (by simp) (by simp)
    · simp only at hk ⊢
      rw [Function.update_of_ne (by omega)]
      exact ha.fresh k (by omega)
    · by_cases hk : k = s.launches
      · exact Or.inr (Or.inl (ha.fresh k (by omega)))
      · exact Or.inl (Function.update_of_ne hk _ _)
  | spawn hd => exact ha.spawn hd
  | remove hd => exact ha.settle hd (by simp) fun k' g he => by cases he; exact ⟨rfl, rfl⟩
  | giveUp hd => exact ha.settle hd (by simp) fun k' g he => by cases he
  | start hd => exact ha.move (by simp [hd]) (by simp) (by simp) (by simp) _
  | create hd => exact ha.create _ _
  | exit hd => exact ha.quiet rfl rfl ha.fresh (fun k => Or.inl rfl) (by simp) (by simp)
  | broke hd =>
    refine ha.move ?_ (by simp) (by simp) (by simp) _
    rcases hd with ⟨f, hd⟩ | hd <;> simp [hd]
  | logged hd => exact ha.move (by simp [hd]) (by simp) (by simp) (by simp) _

private theorem agrees (hrun : system.Run h s) : Agrees h s := by
  refine Path.invariant hrun ⟨fun _ _ => rfl, fun _ _ _ => rfl, fun k f hr => absurd rfl hr,
    by simp, by simp [system]⟩ ?_
  intro h s e t _ ha hstep
  exact agrees_step ha hstep

/-! Orderly runs. -/

/-- Nothing is under way that could remove a file that a desktop has created. -/
def Settled (h : List Event) (s : State) : Prop :=
  ∀ j k f, .created j f ∈ h → j ≤ k → s.removal k f ≠ .outstanding

private theorem settled_step (ha : Agrees h s) (hs : Settled h s) (horderly : Orderly s e)
    (hstep : Step s e t) : Settled (h ++ [e]) t := by
  have hquiet : t.removal = s.removal → (∀ j f, e ≠ .created j f) → Settled (h ++ [e]) t := by
    intro hremoval hcreated j k f hmem hle
    rw [hremoval]
    exact hs j k f ((mem_append_single (hcreated j f).symm).mp hmem) hle
  have hended : ∀ {k f}, (∀ j f, e ≠ .created j f) → t.removal = setAt s.removal k f .ended →
      Settled (h ++ [e]) t := by
    intro k f hcreated hremoval j k' g hmem hle
    rw [hremoval]
    by_cases heq : k' = k ∧ g = f
    · obtain ⟨rfl, rfl⟩ := heq
      simp [setAt_self]
    · rw [setAt_of_ne heq]
      exact hs j k' g ((mem_append_single (hcreated j g).symm).mp hmem) hle
  cases hstep with
  | @spawn k f hd =>
    intro j k' g hmem hle
    have hcreated := (mem_append_single (by simp)).mp hmem
    by_cases heq : k' = k ∧ g = f
    · obtain ⟨rfl, rfl⟩ := heq
      have hmade := (ha.made j g).mpr hcreated
      rw [horderly j hle] at hmade
      exact absurd hmade (by simp)
    · simp only [setAt_of_ne heq]
      exact hs j k' g hcreated hle
  | @create j f hd =>
    intro j' k g hmem hle
    rcases List.mem_append.mp hmem with hmem | hmem
    · exact hs j' k g hmem hle
    · cases List.mem_singleton.mp hmem
      exact horderly k hle
  | remove => exact hended (by simp) rfl
  | giveUp => exact hended (by simp) rfl
  | resumed | start | exit | broke | logged => exact hquiet rfl (by simp)

private theorem undisturbed_append (hs : Settled h s) (hundisturbed : Undisturbed h)
    (hstep : Step s e t) : Undisturbed (h ++ [e]) := by
  refine List.pairwise_append.mpr ⟨hundisturbed, List.pairwise_singleton _ _, ?_⟩
  intro a ha b hb j k f hcreated hremoved
  obtain rfl := List.mem_singleton.mp hb
  subst hcreated hremoved
  by_contra hle
  cases hstep with
  | remove hd => exact hs j k f ha (by omega) hd

private theorem undisturbed_of_orderly (hrun : (system.guarded Orderly).Run h s) :
    Undisturbed h := by
  have hboth : Undisturbed h ∧ Settled h s := by
    refine Path.invariant (I := fun h s => Undisturbed h ∧ Settled h s) hrun
      ⟨List.Pairwise.nil, by simp [Settled]⟩ ?_
    rintro h s e t hpath ⟨hundisturbed, hs⟩ ⟨horderly, hstep⟩
    exact ⟨undisturbed_append hs hundisturbed hstep,
      settled_step (agrees hpath.of_guarded) hs horderly hstep⟩
  exact hboth.1

/-- Where every `rm` that was started has removed its file, a step that was not orderly has been
followed by a removal that came too late. -/
private theorem orderly_of_undisturbed (hrun : system.Run h s)
    (hdone : ∀ k f, .spawned k f ∈ h → .removed k f ∈ h) (hundisturbed : Undisturbed h) :
    (system.guarded Orderly).Run h s := by
  refine Path.to_guarded hrun fun pre e post u v hsplit hpre hstep => ?_
  have ha := agrees hpre
  subst hsplit
  have hlate : ∀ {j k f}, .removed k f ∈ post → .created j f ∈ pre ++ [e] → k < j := by
    intro j k f hremoved hcreated
    have hsplit : pre ++ e :: post = (pre ++ [e]) ++ post := by simp
    rw [Undisturbed, hsplit, List.pairwise_append] at hundisturbed
    exact hundisturbed.2.2 _ hcreated _ hremoved j k f rfl rfl
  cases hstep with
  | @create j f hd =>
    intro k hle houtstanding
    have hspawned := ha.spawned k f (by simp [houtstanding])
    have hremoved := hdone k f (List.mem_append_left _ hspawned)
    rcases List.mem_append.mp hremoved with hremoved | hremoved
    · exact absurd (houtstanding.symm.trans (ha.removed k f hremoved)) (by simp)
    · rcases List.mem_cons.mp hremoved with hremoved | hremoved
      · cases hremoved
      · have hlt := hlate hremoved (List.mem_append_right _ (List.mem_singleton.mpr rfl))
        omega
  | @spawn k f hd =>
    intro j hle
    by_contra hmade
    have hcreated : .created j f ∈ pre := (ha.made j f).mp (by simpa using hmade)
    have hremoved := hdone k f (by simp)
    have habsent : u.removal k f = .absent := ha.unspawned k f (Or.inr (Or.inr hd))
    rcases List.mem_append.mp hremoved with hremoved | hremoved
    · exact absurd (habsent.symm.trans (ha.removed k f hremoved)) (by simp)
    · rcases List.mem_cons.mp hremoved with hremoved | hremoved
      · cases hremoved
      · have hlt := hlate hremoved (List.mem_append_left _ hcreated)
        omega
  | resumed | remove | giveUp | start | exit | broke | logged => trivial

/-- In every run whose steps are orderly no display file is removed too late, and in a run whose
`rm` processes have all removed their files only then. -/
theorem display_files_undisturbed (hrun : system.Run h s) :
    ((system.guarded Orderly).Run h s → Undisturbed h) ∧
    ((∀ k f, .spawned k f ∈ h → .removed k f ∈ h) → Undisturbed h →
      (system.guarded Orderly).Run h s) :=
  ⟨undisturbed_of_orderly, orderly_of_undisturbed hrun⟩

def orderlyHistory : List Event := [.resumed, .spawned 0 .lock, .removed 0 .lock,
  .spawned 0 .socket, .removed 0 .socket, .started 0, .created 0 .lock, .created 0 .socket]

private theorem run_orderlyHistory : ∃ s, system.Run orderlyHistory s ∧ s.launches = 1 :=
  ⟨_, @Path.cons _ _ system _ _ _ _ _ .resumed (.cons (.spawn rfl) (.cons (.remove rfl)
    (.cons (.spawn rfl) (.cons (.remove rfl) (.cons (.start rfl) (.cons (.create rfl)
      (.single (.create rfl)))))))), rfl⟩

private theorem undisturbed_orderlyHistory : Undisturbed orderlyHistory := by
  simp [Undisturbed, orderlyHistory]

theorem display_files_undisturbed_at_first_launch :
    ∃ s, (system.guarded Orderly).Run orderlyHistory s ∧ Undisturbed orderlyHistory := by
  obtain ⟨s, hrun, -⟩ := run_orderlyHistory
  have hdone : ∀ k f, .spawned k f ∈ orderlyHistory → .removed k f ∈ orderlyHistory := by
    simp [orderlyHistory]
  obtain ⟨horderly, hconverse⟩ := display_files_undisturbed hrun
  have hguarded := hconverse hdone undisturbed_orderlyHistory
  exact ⟨s, hguarded, horderly hguarded⟩

private theorem path_relaunch (s : State) : ∃ t, Path system s
    [.resumed, .spawned s.launches .lock, .removed s.launches .lock] t :=
  ⟨_, Path.cons .resumed (.cons (.spawn (Function.update_self _ _ _))
    (.single (.remove (setAt_self _ _))))⟩

/-- The `rm` of the first launch is late; and after an orderly first launch the `rm` of a second
one removes the lock of the first desktop. -/
theorem display_files_removed_late :
    (∃ h s, system.Run h s ∧ .removed 0 .lock ∈ h ∧ s.launches = 1 ∧ ¬Undisturbed h) ∧
    ∃ s, system.Run (orderlyHistory ++ [.resumed, .spawned 1 .lock, .removed 1 .lock]) s ∧
      ¬Undisturbed (orderlyHistory ++ [.resumed, .spawned 1 .lock, .removed 1 .lock]) := by
  constructor
  · refine ⟨[.resumed, .spawned 0 .lock, .spawned 0 .socket, .started 0, .created 0 .lock,
      .removed 0 .lock], _, @Path.cons _ _ system _ _ _ _ _ .resumed (.cons (.spawn rfl)
      (.cons (.spawn rfl) (.cons (.start rfl) (.cons (.create rfl) (.single (.remove rfl)))))),
      by simp, rfl, ?_⟩
    simp [Undisturbed]
  · obtain ⟨s, hrun, hlaunches⟩ := run_orderlyHistory
    obtain ⟨t, hrelaunch⟩ := path_relaunch s
    rw [hlaunches] at hrelaunch
    refine ⟨t, hrun.append hrelaunch, ?_⟩
    simp [Undisturbed, orderlyHistory]

end LocalDesktop.Android.Proot.Launch
