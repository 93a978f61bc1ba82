/- GID: LocalDesktop/Android/Backend/Sampling
   generality: G
   digest: The progress values that the pages show, read at delivery from a value that rises. -/

import LocalDesktop.Android.Backend.Delivery

set_option autoImplicit false
set_option relaxedAutoImplicit false

namespace LocalDesktop.Android.Backend.Sampling

open Foundation.Transition Platform Webview

def writtenPage : Event → Option PageMessage
  | .written _ _ page => some page
  | _ => none

def storedValue : Event → Option Nat
  | .stored v => some v
  | _ => none

def pages : List Event → List PageMessage := observed writtenPage

/-- The object that a delivery thread is about to write. -/
def pageInHand (s : State) : List PageMessage :=
  match s.server with
  | some (_, .locking _ page) => [page]
  | some (_, .holding _ page) => [page]
  | _ => []

/-- The progress fields written, and the one about to be written. -/
def shown (h : List Event) (s : State) : List Nat :=
  (pages h ++ pageInHand s).map PageMessage.progress

/-- A value that is stored is no less than the one before it. -/
def Rising (s : State) (e : Event) : Prop := ∀ v, e = .stored v → s.progress ≤ v

variable {h pre post : List Event} {s t : State} {e : Event} {c v : Nat} {m : SetupMessage}
  {page : PageMessage}

theorem pages_append {h' : List Event} : pages (h ++ h') = pages h ++ pages h' := observed_append

@[simp] theorem pageMessage_progress (progress : Nat) (m : SetupMessage) :
    (pageMessage progress m).progress = progress := by
  cases m <;> rfl

theorem progress_step (hstep : Step s e t) : t.progress = (storedValue e).getD s.progress := by
  cases hstep <;> rfl

private theorem progress_cases (hstep : Step s e t) :
    t.progress = s.progress ∨ e = .stored t.progress := by
  cases hstep with
  | store => exact Or.inr rfl
  | _ => exact Or.inl rfl

private theorem shown_step (hstep : Step s e t) :
    (shown (h ++ [e]) t).Sublist (shown h s ++ [s.progress]) := by
  have hquiet (he : writtenPage e = none) : pages (h ++ [e]) = pages h := observed_quiet he
  have hless (he : writtenPage e = none) (hpage : (pageInHand t).Sublist (pageInHand s)) :
      (shown (h ++ [e]) t).Sublist (shown h s ++ [s.progress]) := by
    rw [shown, hquiet he]
    have hshown : ((pages h ++ pageInHand t).map PageMessage.progress).Sublist (shown h s) :=
      (hpage.append_left _).map _
    exact hshown.trans (List.sublist_append_left _ _)
  cases hstep with
  | @read i m hserver =>
    simp only [shown, hquiet rfl, pageInHand, hserver, List.append_nil, List.map_append,
      List.map_cons, List.map_nil, pageMessage_progress]
    exact List.Sublist.refl _
  | @write i c m page hserver =>
    have hpages : pages (h ++ [.written c m page]) = pages h ++ [page] := observed_tell rfl
    simp only [shown, hpages, pageInHand, hserver, List.append_nil]
    exact List.sublist_append_left _ _
  | turn hserver =>
    apply hless rfl
    simp [pageInHand, hserver]
  | serve | take | disconnect | turnPoisoned | writeFails | skip | finish =>
    exact hless rfl (List.nil_sublist _)
  | _ => exact hless rfl (List.Sublist.refl _)

private theorem shown_sorted (hrun : (system.guarded Rising).Run h s) :
    (shown h s ++ [s.progress]).Pairwise (· ≤ ·) := by
  refine Path.invariant (I := fun h s => (shown h s ++ [s.progress]).Pairwise (· ≤ ·)) hrun
    (List.pairwise_singleton _ _) ?_
  rintro h s e t - hs ⟨hrising, hstep⟩
  have hle : s.progress ≤ t.progress := by
    rcases progress_cases hstep with heq | he
    · exact heq.ge
    · exact hrising _ he
  have hlast : ∀ v ∈ shown h s ++ [s.progress], v ≤ t.progress := by
    intro v hv
    rcases List.mem_append.mp hv with hv | hv
    · have hbelow := (List.pairwise_append.mp hs).2.2 v hv s.progress (List.mem_singleton_self _)
      exact hbelow.trans hle
    · exact (List.mem_singleton.mp hv).trans_le hle
  have hall : (shown h s ++ [s.progress] ++ [t.progress]).Pairwise (· ≤ ·) := by
    refine List.pairwise_append.mpr ⟨hs, List.pairwise_singleton _ _, ?_⟩
    intro v hv w hw
    exact List.mem_singleton.mp hw ▸ hlast v hv
  exact hall.sublist ((shown_step hstep).append_right _)

theorem pages_sorted (hrun : (system.guarded Rising).Run h s) :
    ((pages h).map PageMessage.progress).Pairwise (· ≤ ·) := by
  have hshown := (List.pairwise_append.mp (shown_sorted hrun)).1
  rw [shown, List.map_append] at hshown
  exact (List.pairwise_append.mp hshown).1

private theorem shown_stored (hrun : system.Run h s) :
    ∀ v ∈ shown h s ++ [s.progress], v = 0 ∨ .stored v ∈ h := by
  refine Path.invariant (I := fun h s => ∀ v ∈ shown h s ++ [s.progress], v = 0 ∨ .stored v ∈ h)
    hrun ?_ ?_
  · intro v hv
    exact Or.inl (List.mem_singleton.mp hv)
  intro h s e t _ hs hstep v hv
  rcases List.mem_append.mp hv with hv | hv
  · have hbefore := hs v ((shown_step hstep).subset hv)
    exact hbefore.imp_right (List.mem_append_left _)
  · rw [List.mem_singleton.mp hv]
    rcases progress_cases hstep with heq | he
    · rw [heq]
      have hbefore := hs s.progress (List.mem_append_right _ (List.mem_singleton_self _))
      exact hbefore.imp_right (List.mem_append_left _)
    · rw [he]
      exact Or.inr (List.mem_append_right _ (List.mem_singleton_self _))

theorem stored_of_written (hrun : system.Run (pre ++ .written c m page :: post) s) :
    page.progress = 0 ∨ .stored page.progress ∈ pre := by
  obtain ⟨t, t', hpre, hstep, -⟩ := hrun.at_event
  have hpage : page ∈ pageInHand t := by
    generalize he : Event.written c m page = e at hstep
    cases hstep with
    | write hserver =>
      cases he
      simp [pageInHand, hserver]
    | _ => cases he
  apply shown_stored hpre
  rw [shown, List.map_append]
  apply List.mem_append_left
  exact List.mem_append_right _ (List.mem_map_of_mem hpage)

end LocalDesktop.Android.Backend.Sampling
