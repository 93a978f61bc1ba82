/- GID: LocalDesktop/Smithay/CommitRuns
   generality: G
   digest: Every run without blockers: when the state that a client has set becomes current. -/

import LocalDesktop.Smithay.CommitEffect

set_option autoImplicit false
set_option relaxedAutoImplicit false

namespace LocalDesktop.Smithay.Surfaces

open Foundation.Forest Foundation.Transition CachedState

variable {s s' : Surfaces} {x surface : Surface} {world : World} {n : Nat}

/-! The other requests leave the ids alone. -/

/-- The ids that wait, the transaction and the next id of a surface. -/
def book (d : PrivateSurfaceData) : List Nat × Transaction × Nat :=
  (ids d, d.pendingTransaction, d.currentTxid)

theorem Ordered.of_book (hord : s.Ordered n) (hbook : ∀ x, book (s'.data x) = book (s.data x))
    (hqueues : s'.queues = s.queues) (hcreated : s.created ≤ s'.created) : s'.Ordered n := by
  have hids : ∀ x, Surfaces.ids (s'.data x) = Surfaces.ids (s.data x) := fun x =>
    congrArg Prod.fst (hbook x)
  have htransaction : ∀ x, (s'.data x).pendingTransaction = (s.data x).pendingTransaction :=
    fun x => congrArg (fun b => b.2.1) (hbook x)
  have htxid : ∀ x, (s'.data x).currentTxid = (s.data x).currentTxid := fun x =>
    congrArg (fun b => b.2.2) (hbook x)
  refine ⟨fun client => ?_, fun x => ?_, fun x id hid => ?_, fun x => ?_, fun x hx => ?_⟩
  · rw [hqueues]
    exact hord.queues client
  · simp only [htransaction, htxid]
    exact hord.pending x
  · rw [htxid]
    exact hord.ids x id (hids x ▸ hid)
  · rw [htxid]
    exact hord.txid x
  · rw [htxid]
    exact hord.fresh x (hcreated.trans hx)

private theorem Ordered.createSurface {client : Client} {version : Nat} (hord : s.Ordered n) :
    (s.createSurface client version).Ordered n := by
  have hself : (s.data s.created).currentTxid = 0 := hord.fresh s.created le_rfl
  have htxid : ∀ x, ((s.createSurface client version).data x).currentTxid =
      (s.data x).currentTxid := by
    intro x
    by_cases hx : x = s.created
    · subst hx
      rw [hself]
      simp [Surfaces.createSurface, PrivateSurfaceData.new]
    · simp [Surfaces.createSurface, hx]
  have hother : ∀ x, x ≠ s.created → (s.createSurface client version).data x = s.data x :=
    fun x hx => Function.update_of_ne hx _ _
  have hnew : (s.createSurface client version).data s.created =
      { PrivateSurfaceData.new client version with children := [s.created] } :=
    Function.update_self _ _ _
  refine ⟨hord.queues, fun x => ?_, fun x id hid => ?_, fun x => ?_, fun x hx => ?_⟩
  · simp only [htxid]
    by_cases hx : x = s.created
    · rw [hx, hnew]
      exact .new
    · rw [hother x hx]
      exact hord.pending x
  · rw [htxid]
    by_cases hx : x = s.created
    · rw [hx, hnew] at hid
      cases hid
    · rw [hother x hx] at hid
      exact hord.ids x id hid
  · rw [htxid]
    exact hord.txid x
  · rw [htxid]
    exact hord.fresh x ((Nat.le_succ _).trans hx)

/-- Nothing that only a commit changes. -/
structure Unbooked (s s' : Surfaces) : Prop where
  book : ∀ x, book (s'.data x) = book (s.data x)
  current : ∀ x, (s'.data x).attributes.current.frameCallbacks =
    (s.data x).attributes.current.frameCallbacks
  queues : s'.queues = s.queues

theorem Ordered.of_unbooked (hord : s.Ordered n) (hsame : Unbooked s s')
    (hcreated : s.created ≤ s'.created) : s'.Ordered n :=
  hord.of_book hsame.book hsame.queues hcreated

namespace Unbooked

variable {s'' : Surfaces} {events : List SurfaceEvent} {parent : Surface}

theorem refl (s : Surfaces) : Unbooked s s := ⟨fun _ => rfl, fun _ => rfl, rfl⟩

private theorem trans (h : Unbooked s s') (h' : Unbooked s' s'') : Unbooked s s'' :=
  ⟨fun x => (h'.book x).trans (h.book x), fun x => (h'.current x).trans (h.current x),
    h'.queues.trans h.queues⟩

private theorem modify {f : PrivateSurfaceData → PrivateSurfaceData}
    (hf : Surfaces.book (f (s.data surface)) = Surfaces.book (s.data surface))
    (hcurrent : (f (s.data surface)).attributes.current.frameCallbacks =
      (s.data surface).attributes.current.frameCallbacks) :
    Unbooked s (s.modify surface f) where
  book x := by
    rw [data_modify]
    split
    next hx => rw [hf, hx]
    · rfl
  current x := by
    rw [data_modify]
    split
    next hx => rw [hcurrent, hx]
    · rfl
  queues := rfl

theorem send : Unbooked s (s.send events) := ⟨fun _ => rfl, fun _ => rfl, rfl⟩

private theorem unsetParent : Unbooked s (s.unsetParent surface) where
  book x := read_unsetParent (g := Surfaces.book) (fun _ _ => rfl) fun _ _ => rfl
  current x := read_unsetParent (g := fun d => d.attributes.current.frameCallbacks)
    (fun _ _ => rfl) fun _ _ => rfl
  queues := by
    rw [Surfaces.unsetParent]
    split <;> rfl

private theorem cleanup : Unbooked s (s.cleanup surface) where
  book x := read_cleanup (g := Surfaces.book) (fun _ _ => rfl) (fun _ _ => rfl) fun _ => rfl
  current x := read_cleanup (g := fun d => d.attributes.current.frameCallbacks)
    (fun _ _ => rfl) (fun _ _ => rfl) fun _ => rfl
  queues := by
    simp only [Surfaces.cleanup, send_queues, modify_queues, orphan]
    exact unsetParent.queues

private theorem attach {buffer : Option WlBuffer} {i j : Int} :
    Unbooked s (s.attach surface buffer i j) := by
  have hrefused : ∀ refused : Bool, Unbooked s (if refused = true then s.send
      [.error surface .invalidOffset] else s) := by
    intro refused
    cases refused with
    | false => exact .refl s
    | true => exact .send
  simp only [Surfaces.attach, modifyPending]
  exact (hrefused _).trans (.modify rfl rfl)

private theorem setSyncFlag {sync : Bool} (hset : s.setSyncFlag surface sync = some s') :
    Unbooked s s' := by
  obtain ⟨-, -, rfl⟩ := Option.map_eq_some_iff.mp hset
  exact .modify rfl rfl

private theorem getSubsurface : Unbooked s (s.getSubsurface surface parent) := by
  simp only [Surfaces.getSubsurface]
  split
  next s₁ hset =>
    have hlinked : Unbooked s s₁ := by
      obtain ⟨-, -, -, rfl⟩ := setParent_eq_some_iff.mp hset
      exact (Unbooked.modify rfl rfl).trans (.modify rfl rfl)
    have hobject : Unbooked s₁ { s₁ with subsurfaces := s₁.subsurfaces ++ [surface] } :=
      ⟨fun _ => rfl, fun _ => rfl, rfl⟩
    exact (hlinked.trans hobject).trans (.modify rfl rfl)
  · exact .send

private theorem destroySubsurface (hdestroy : s.destroySubsurface surface = some s') :
    Unbooked s s' := by
  obtain ⟨s₁, hset, rfl⟩ := Option.map_eq_some_iff.mp hdestroy
  have hobject : Unbooked s { s with subsurfaces := s.subsurfaces.erase surface } :=
    ⟨fun _ => rfl, fun _ => rfl, rfl⟩
  exact ((hobject.trans unsetParent).trans (setSyncFlag hset)).trans (.modify rfl rfl)

private theorem place {sibling : Surface} {location : Location}
    (hplace : s.place surface location sibling = some s') : Unbooked s s' := by
  obtain ⟨parent, children, rfl⟩ | rfl := place_cases hplace
  · exact .modify rfl rfl
  · exact .send

theorem giveRole {role : Role} (hset : s.setRole surface role = some s') : Unbooked s s' := by
  simp only [setRole] at hset
  split at hset
  · cases hset
  · cases hset
    exact .modify rfl rfl

end Unbooked

def Request.commits : Request → Nat
  | .commit _ => 1
  | _ => 0

def Request.isBlocker : Request → Bool
  | .addBlocker _ _ => true
  | _ => false

private theorem Ordered.blockerCleared {client : Client} (hord : s.Ordered n) :
    (runQueue world s client).Ordered n := by
  have hempty : runQueue world s client = s := by
    simp only [runQueue, dequeue, hord.queues, Transaction.takeReady, List.foldl_nil]
    rw [Function.update_eq_self_iff.mpr (hord.queues client).symm]
  rwa [hempty]

private theorem Ordered.commit (hord : s.Ordered n) (hinv : s.Invariant) (hn : n + 1 ≤ 2 ^ 31 - 1)
    (halive : s.alive surface = true) : (commit world s surface).Ordered (n + 1) := by
  cases hsync : s.isEffectivelySync s.fuel surface with
  | true => exact hord.commit_sync hinv hn halive hsync
  | false => exact hord.commit_desync hinv hn halive hsync

/-- What a request can be: one that leaves all this alone, a new surface, a commit, or about
blockers. -/
private theorem request_cases {r : Request} (hr : request world s r = some s') :
    Unbooked s s' ∨ (∃ client version, r = .createSurface client version) ∨
      (∃ surface, r = .commit surface) ∨ (∃ surface blocker, r = .addBlocker surface blocker) ∨
      ∃ client, r = .blockerCleared client := by
  cases r with
  | createSurface client version => exact .inr (.inl ⟨client, version, rfl⟩)
  | commit surface => exact .inr (.inr (.inl ⟨surface, rfl⟩))
  | addBlocker surface blocker => exact .inr (.inr (.inr (.inl ⟨surface, blocker, rfl⟩)))
  | blockerCleared client => exact .inr (.inr (.inr (.inr ⟨client, rfl⟩)))
  | attach surface buffer x y =>
    cases hr
    exact .inl .attach
  | damage | frame | setOpaqueRegion | setInputRegion | setBufferTransform | damageBuffer | offset
  | setPosition =>
    cases hr
    exact .inl (.modify rfl rfl)
  | setBufferScale surface scale =>
    simp only [request] at hr
    split at hr
    · cases hr
      exact .inl (.modify rfl rfl)
    · cases hr
      exact .inl .send
  | destroySurface surface =>
    cases hr
    have hgone : Unbooked s
        { s with surfaces := s.surfaces.filter fun other => decide (other ≠ surface) } :=
      ⟨fun _ => rfl, fun _ => rfl, rfl⟩
    exact .inl (hgone.trans .cleanup)
  | getSubsurface surface parent =>
    cases hr
    exact .inl .getSubsurface
  | placeAbove | placeBelow => exact .inl (.place hr)
  | setSync | setDesync => exact .inl (.setSyncFlag hr)
  | destroySubsurface surface => exact .inl (.destroySubsurface hr)
  | giveRole surface role =>
    cases hr
    cases hset : s.setRole surface role with
    | none => exact .inl .send
    | some s' => exact .inl (.giveRole hset)

theorem unbooked_setClientScale : Unbooked s (s.setClientScale surface) := by
  rw [setClientScale, modifyPending]
  exact .modify rfl rfl

theorem shape_setClientScale : (s.setClientScale surface).shape = s.shape := shape_modifyPending

theorem Ordered.request {r : Request} (hord : s.Ordered n) (hinv : s.Invariant)
    (hn : n + r.commits ≤ 2 ^ 31 - 1) (hvalid : s.Valid r) (hblocker : r.isBlocker = false)
    (hr : Surfaces.request world s r = some s') : s'.Ordered (n + r.commits) := by
  rcases request_cases hr with hsame | ⟨client, version, rfl⟩ | ⟨surface, rfl⟩ |
    ⟨surface, blocker, rfl⟩ | ⟨client, rfl⟩
  · have hsame := hord.of_unbooked hsame (Invariant.created_le_request hr)
    exact hsame.mono (Nat.le_add_right _ _)
  · cases hr
    exact hord.createSurface
  · cases hr
    exact (hord.of_unbooked unbooked_setClientScale le_rfl).commit
      (hinv.of_shape shape_setClientScale) hn hvalid
  · exact absurd hblocker (by simp [Request.isBlocker])
  · cases hr
    exact hord.blockerCleared

theorem delivered_setClientScale (world : World) (hinv : s.Invariant) (hord : s.Ordered n)
    (hn : n + 1 ≤ 2 ^ 31 - 1) (halive : s.alive surface = true)
    (hdesync : ∀ a, s.links.Above a surface → (s.data a).isDirectSync = false)
    (hx : x = surface ∨ ∃ c, (s.data c).parent = some surface ∧ (s.data c).isDirectSync = true ∧
      s.links.Above c x) :
    Delivered ((s.setClientScale surface).data x)
      ((commit world (s.setClientScale surface) surface).data x) := by
  have hshape : (s.setClientScale surface).shape = s.shape := shape_setClientScale
  have hinv' := hinv.of_shape hshape
  have hlinks := links_of_shape hshape
  have hdirect : ∀ a, ((s.setClientScale surface).data a).isDirectSync =
      (s.data a).isDirectSync := fun a => isDirectSync_of_shape hshape
  have hnot : (s.setClientScale surface).isEffectivelySync (s.setClientScale surface).fuel
      surface = false := by
    rw [Bool.eq_false_iff, ne_eq, isEffectivelySync_iff hinv'.forest, hlinks]
    rintro ⟨a, habove, hsync⟩
    exact absurd ((hdirect a).symm.trans hsync) (by simp [hdesync a habove])
  refine delivered_commit hinv' (hord.of_unbooked unbooked_setClientScale le_rfl) hn
    (by rwa [alive_of_shape hshape]) hnot ((mem_together hinv'.forest).mpr ?_)
  have hparent : ∀ c, ((s.setClientScale surface).data c).parent = (s.data c).parent := fun c =>
    congrFun (congrArg Shape.parent hshape) c
  simpa only [hparent, hdirect, hlinks] using hx

theorem Ordered.empty : Surfaces.empty.Ordered 0 where
  queues _ := rfl
  pending _ := .new
  ids x id hid := by cases hid
  txid _ := le_rfl
  fresh _ _ := rfl

/-! What was answered and what the next frame answers: it only grows at its end. -/

/-- The callbacks of a surface that are answered or current. -/
def answerable (s : Surfaces) (x : Surface) : List WlCallback :=
  answered x s.events ++ (s.data x).attributes.current.frameCallbacks

private theorem Elementary.current_prefix (hstep : Elementary s s') :
    (s.data x).attributes.current.frameCallbacks <+:
      (s'.data x).attributes.current.frameCallbacks := by
  have htransform : ∀ {y : Surface} {f : PrivateSurfaceData → PrivateSurfaceData × List WlBuffer},
      (∀ d : PrivateSurfaceData, d.attributes.current.frameCallbacks <+:
        (f d).1.attributes.current.frameCallbacks) →
        (s.data x).attributes.current.frameCallbacks <+:
          ((s.transform y f).data x).attributes.current.frameCallbacks := by
    intro y f hf
    rw [transform, send_data, data_modify]
    split
    next hx => exact hx ▸ hf _
    · exact List.prefix_rfl
  cases hstep with
  | commitState y id =>
    refine htransform fun d => ?_
    have hsame : (d.attributes.commit (some id)).1.current = d.attributes.current :=
      commit_current_some
    exact (congrArg SurfaceAttributes.frameCallbacks hsame).symm ▸ List.prefix_rfl
  | applyState y id =>
    refine htransform fun d => ?_
    exact ⟨_, (carried_frameCallbacks.mergeAll _ _).symm⟩
  | updateBuffer y dimensions =>
    refine htransform fun d => ?_
    simp only [PrivateSurfaceData.updateBuffer]
    split
    · split <;> exact List.prefix_rfl
    · exact List.prefix_rfl
    · exact List.prefix_rfl
  | transaction y t id =>
    rw [data_modify]
    split
    next hx => exact hx ▸ List.prefix_rfl
    · exact List.prefix_rfl
  | queues queues => exact List.prefix_rfl

private theorem Elementaries.current_prefix (hsteps : Elementaries s s') :
    (s.data x).attributes.current.frameCallbacks <+:
      (s'.data x).attributes.current.frameCallbacks := by
  induction hsteps with
  | refl => exact List.prefix_rfl
  | tail _ hstep ih => exact ih.trans hstep.current_prefix

theorem answerable_request {r : Request} (hcreated : x < s.created)
    (hr : request world s r = some s') : s.answerable x <+: s'.answerable x := by
  have hanswered : answered x s'.events = answered x s.events :=
    answered_of_answers (answers_request hr)
  rw [answerable, answerable, hanswered, List.prefix_append_right_inj]
  rcases request_cases hr with hsame | ⟨client, version, rfl⟩ | ⟨surface, rfl⟩ |
    ⟨surface, blocker, rfl⟩ | ⟨client, rfl⟩
  · rw [hsame.current]
  · cases hr
    have hother : (s.createSurface client version).data x = s.data x :=
      Function.update_of_ne hcreated.ne _ _
    rw [hother]
  · cases hr
    rw [← unbooked_setClientScale.current x]
    exact elementaries_commit.current_prefix
  · cases hr
    have hsame : Elementary s (s.modify surface fun d =>
        { d with pendingTransaction := d.pendingTransaction.addBlocker blocker }) :=
      .transaction s surface ((s.data surface).pendingTransaction.addBlocker blocker)
        (s.data surface).currentTxid
    exact hsame.current_prefix
  · cases hr
    exact elementaries_runQueue.current_prefix

section Runs

variable {h : List (World × Request)}

def commits (h : List (World × Request)) : Nat := (h.map fun label => label.2.commits).sum

private theorem ordered_of_run (hrun : system.Run h s)
    (hblockers : ∀ label ∈ h, label.2.isBlocker = false)
    (hcommits : commits h ≤ 2 ^ 31 - 1) : s.Ordered (commits h) := by
  induction hrun with
  | nil => exact .empty
  | @snoc t s h label hpath hstep ih =>
    have hsplit : commits (h ++ [label]) = commits h + label.2.commits := by
      simp [commits]
    have hord := ih (fun l hl => hblockers l (List.mem_append_left _ hl)) (by omega)
    rw [hsplit] at hcommits ⊢
    exact hord.request (invariant_of_run hpath) hcommits hstep.1
      (hblockers label (List.mem_append_right _ (List.mem_singleton.mpr rfl))) hstep.2

/-- A surface that is not synchronized commits for itself and for all below its synchronized
children: what is pending in them counts from now on, with every callback that waited. -/
theorem delivered_of_run (hrun : system.Run h s)
    (hblockers : ∀ label ∈ h, label.2.isBlocker = false) (hcommits : commits h < 2 ^ 31 - 1)
    (halive : s.alive surface = true)
    (hdesync : ∀ a, s.links.Above a surface → (s.data a).isDirectSync = false)
    (hx : x = surface ∨ ∃ c, (s.data c).parent = some surface ∧ (s.data c).isDirectSync = true ∧
      s.links.Above c x) (hr : request world s (.commit surface) = some s') :
    Delivered ((s.setClientScale surface).data x) (s'.data x) := by
  cases hr
  exact delivered_setClientScale world (invariant_of_run hrun) (ordered_of_run hrun hblockers
    hcommits.le) hcommits halive hdesync hx

/-- No buffer is known, and no blocker blocks. -/
def quiet : World := ⟨fun _ => none, fun _ => .released⟩

def scaled : Surfaces :=
  (pair.modifyPending 1 fun pending => { pending with bufferScale := 3 }).modifyPending 1
    fun pending => { pending with frameCallbacks := pending.frameCallbacks ++ [7] }

def scaledHistory : List (World × Request) :=
  [(quiet, .createSurface 0 5), (quiet, .createSurface 0 5), (quiet, .getSubsurface 1 0),
    (quiet, .setBufferScale 1 3), (quiet, .frame 1 7)]

private theorem run_scaled : system.Run scaledHistory scaled := by
  have hscale : system.step pair (quiet, .setBufferScale 1 3)
      (pair.modifyPending 1 fun pending => { pending with bufferScale := 3 }) := ⟨rfl, rfl⟩
  exact (run_pair.snoc hscale).snoc ⟨rfl, rfl⟩

/-- The subsurface has committed, and its scale and its callback wait for the surface. -/
def scaledWaiting : Surfaces := commit quiet (scaled.setClientScale 1) 1

theorem delivered_of_scaled :
    Delivered ((scaledWaiting.setClientScale 0).data 1)
        ((commit quiet (scaledWaiting.setClientScale 0) 0).data 1) ∧
      ((commit quiet (scaledWaiting.setClientScale 0) 0).data 1).attributes.current.bufferScale =
        3 := by
  have hwaiting : system.Run (scaledHistory ++ [(quiet, .commit 1)]) scaledWaiting :=
    run_scaled.snoc ⟨rfl, rfl⟩
  have hdesync : ∀ a, scaledWaiting.links.Above a 0 →
      (scaledWaiting.data a).isDirectSync = false := by
    intro a habove
    rcases Links.above_iff.mp habove with hself | hanc
    · subst hself
      rfl
    · obtain ⟨p, -, hp⟩ := Links.ancestor_iff_above_parent.mp hanc
      cases hp
  have hdelivered : Delivered ((scaledWaiting.setClientScale 0).data 1)
      ((commit quiet (scaledWaiting.setClientScale 0) 0).data 1) :=
    delivered_of_run hwaiting (by decide) (by decide) rfl hdesync
      (.inr ⟨1, rfl, rfl, .refl⟩) rfl
  exact ⟨hdelivered, congrArg SurfaceAttributes.Overwrites.bufferScale hdelivered.overwrites⟩

/-- A synchronized surface keeps its commits back: nothing that counts changes, of any surface. -/
theorem withheld_of_run (hrun : system.Run h s) {a : Surface} (habove : s.links.Above a surface)
    (hdirect : (s.data a).isDirectSync = true) (hr : request world s (.commit surface) = some s')
    (x : Surface) :
    (s'.data x).attributes.current = (s.data x).attributes.current ∧
      (s'.data x).subsurface.current = (s.data x).subsurface.current ∧
      (s'.data x).rendered = (s.data x).rendered := by
  cases hr
  have hforest : (s.setClientScale surface).Forest :=
    ((invariant_of_run hrun).of_shape shape_setClientScale).forest
  have hsync : (s.setClientScale surface).isEffectivelySync (s.setClientScale surface).fuel
      surface = true := by
    rw [isEffectivelySync_iff hforest, links_of_shape shape_setClientScale]
    exact ⟨a, habove, (isDirectSync_of_shape shape_setClientScale).trans hdirect⟩
  have hsame : ((s.setClientScale surface).data x).attributes.current =
      (s.data x).attributes.current ∧
        ((s.setClientScale surface).data x).subsurface = (s.data x).subsurface ∧
        ((s.setClientScale surface).data x).rendered = (s.data x).rendered := by
    rw [setClientScale, modifyPending, data_modify]
    split
    next hx => exact hx ▸ ⟨rfl, rfl, rfl⟩
    · exact ⟨rfl, rfl, rfl⟩
  rw [← hsame.1, ← hsame.2.1, ← hsame.2.2, data_commit_sync hforest hsync]
  split
  next hx => exact hx ▸ ⟨commit_current_some, commit_current_some, rfl⟩
  · split <;> exact ⟨rfl, rfl, rfl⟩

theorem withheld_of_scaled :
    (scaledWaiting.data 1).attributes.current = (scaled.data 1).attributes.current ∧
      (scaledWaiting.data 1).subsurface.current = (scaled.data 1).subsurface.current ∧
      (scaledWaiting.data 1).rendered = (scaled.data 1).rendered :=
  withheld_of_run run_scaled (.refl : scaled.links.Above 1 1) rfl rfl 1

end Runs

end LocalDesktop.Smithay.Surfaces
