/- GID: LocalDesktop/Smithay/CommitEffect
   generality: G
   digest: What one commit does, with a parent to wait for and without one. -/

import Mathlib.Data.List.Flatten
import LocalDesktop.Smithay.SurfaceApply

set_option autoImplicit false
set_option relaxedAutoImplicit false

namespace LocalDesktop.Smithay.Surfaces

open Foundation.Forest CachedState

variable {s s' : Surfaces} {x surface : Surface} {world : World} {n : Nat}

def syncChildren (s : Surfaces) (surface : Surface) : List Surface :=
  (s.getChildren surface).filter fun c => (s.data c).isDirectSync

/-- The surfaces that a commit is about: those below the synchronized children, and its own. -/
def together (s : Surfaces) (surface : Surface) : List Surface :=
  (s.syncChildren surface).flatMap s.below ++ [surface]

theorem mem_together (hforest : s.Forest) : x ∈ s.together surface ↔ x = surface ∨
    ∃ c, (s.data c).parent = some surface ∧ (s.data c).isDirectSync = true ∧
      s.links.Above c x := by
  have hbelow : ∀ {c}, (s.data c).parent = some surface → (x ∈ s.below c ↔ s.links.Above c x) :=
    fun hparent => hforest.mem_post (hforest.parent_mem _ _ hparent).1 nodes_card_lt_fuel
  simp only [together, syncChildren, List.mem_append, List.mem_flatMap, List.mem_filter,
    List.mem_singleton, mem_getChildren hforest]
  rw [or_comm]
  refine or_congr_right (exists_congr fun c => ⟨?_, ?_⟩)
  · rintro ⟨⟨hparent, hdirect⟩, hx⟩
    exact ⟨hparent, hdirect, (hbelow hparent).mp hx⟩
  · rintro ⟨hparent, hdirect, hx⟩
    exact ⟨⟨hparent, hdirect⟩, (hbelow hparent).mpr hx⟩

private theorem nodup_children (hforest : s.Forest) (halive : s.alive surface = true) :
    ((s.getChildren surface).flatMap s.below ++ [surface]).Nodup := by
  have hpost : (s.links.post (s.fuel + 1) surface).Nodup :=
    hforest.nodup_post (mem_nodes.mpr halive) (nodes_card_lt_fuel.trans (Nat.lt_succ_self _))
  exact hpost

private theorem nodup_together (hforest : s.Forest) (halive : s.alive surface = true) :
    (s.together surface).Nodup := by
  refine (nodup_children hforest halive).sublist ?_
  exact (List.filter_sublist.flatMap s.below).append (List.Sublist.refl _)

theorem alive_of_together (hforest : s.Forest) (halive : s.alive surface = true)
    (hx : x ∈ s.together surface) : s.alive x = true := by
  rcases (mem_together hforest).mp hx with rfl | ⟨c, hparent, -, habove⟩
  · exact halive
  · rcases Links.above_iff.mp habove with rfl | hanc
    · exact mem_nodes.mp (hforest.parent_mem _ _ hparent).1
    · obtain ⟨p, -, hp⟩ := Links.ancestor_iff_above_parent.mp hanc
      exact mem_nodes.mp (hforest.parent_mem _ _ hp).1

/-! The commit of a surface that is not synchronized. -/

/-- The transaction that such a commit makes. -/
def commitTransaction (s : Surfaces) (surface : Surface) : Transaction :=
  ((s.syncChildren surface).foldl (fun t child => s.gather s.fuel child t)
    (s.data surface).pendingTransaction).insert surface (s.data surface).currentTxid

def commitStates (s : Surfaces) (surface : Surface) : Surfaces :=
  (commitEach ((s.syncChildren surface).flatMap s.below)
    (s.transform surface (PrivateSurfaceData.commitState (s.data surface).currentTxid))).modify
      surface nextTransaction

theorem shape_commitStates : (s.commitStates surface).shape = s.shape := by
  rw [commitStates, shape_modify rfl rfl rfl rfl, shape_commitEach, shape_commitState]

private theorem commitEach_queues {surfaces : List Surface} :
    (commitEach surfaces s).queues = s.queues := by
  induction surfaces generalizing s with
  | nil => rfl
  | cons y ys ih => exact ih

theorem data_commitStates (hforest : s.Forest) (halive : s.alive surface = true) :
    (s.commitStates surface).data x =
      if x ∈ s.together surface then commitData (s.data x) else s.data x := by
  obtain ⟨hnodup, -, hdisjoint⟩ := List.nodup_append'.mp (nodup_together hforest halive)
  have hnot : surface ∉ (s.syncChildren surface).flatMap s.below := fun hin =>
    hdisjoint hin (List.mem_singleton.mpr rfl)
  rw [commitStates, data_modify, data_commitEach hnodup, data_commitEach hnodup, if_neg hnot]
  by_cases hx : x = surface
  · subst hx
    have hmem : x ∈ s.together x := List.mem_append_right _ (List.mem_singleton.mpr rfl)
    rw [if_pos rfl, if_pos hmem, transform, send_data, modify_data_self, commitData]
  · have hsame : (s.transform surface (PrivateSurfaceData.commitState
        (s.data surface).currentTxid)).data x = s.data x := by
      rw [transform, send_data, modify_data_of_ne hx]
    rw [if_neg hx, hsame]
    simp only [together, List.mem_append, List.mem_singleton, hx, or_false]

private theorem enqueueCommit_eq (hforest : s.Forest) (halive : s.alive surface = true)
    (hdesync : s.isEffectivelySync s.fuel surface = false) :
    s.enqueueCommit surface =
      ({ s.commitStates surface with
        queues := Function.update s.queues (s.data surface).client
          (s.queues (s.data surface).client ++ [s.commitTransaction surface]) },
      some (s.data surface).client) := by
  obtain ⟨hnodup, -, hdisjoint⟩ := List.nodup_append'.mp (nodup_children hforest halive)
  have hshape : (s.transform surface (PrivateSurfaceData.commitState
      (s.data surface).currentTxid)).shape = s.shape := shape_commitState
  have hlinks := links_of_shape hshape
  have hself : ((s.transform surface (PrivateSurfaceData.commitState
      (s.data surface).currentTxid)).data surface).pendingTransaction =
        (s.data surface).pendingTransaction := by
    rw [transform, send_data, modify_data_self]
    rfl
  have hgather : ∀ child ∈ s.syncChildren surface, ∀ t,
      (s.transform surface (PrivateSurfaceData.commitState (s.data surface).currentTxid)).gather
        s.fuel child t = s.gather s.fuel child t := by
    intro child hchild t
    refine gather_congr hshape fun y hy => ?_
    have hne : y ≠ surface := by
      rintro rfl
      exact hdisjoint (List.mem_flatMap.mpr ⟨child, List.mem_of_mem_filter hchild, hy⟩)
        (List.mem_singleton.mpr rfl)
    rw [transform, send_data, modify_data_of_ne hne]
  have hstep : ∀ (s' : Surfaces) (t : Transaction),
      s'.shape = (s.transform surface (PrivateSurfaceData.commitState
        (s.data surface).currentTxid)).shape → ∀ child ∈ s.getChildren surface,
          commitChild false s' t child = if (s.data child).isDirectSync then
            (commitEach (s'.links.post s.fuel child) s', s'.gather s.fuel child t) else (s', t) := by
    intro s' t hsame child hchild
    have hone := (List.nodup_flatMap.mp hnodup).1 child hchild
    have hlinks' := links_of_shape (hsame.trans hshape)
    have heq : commitSyncSurfaceTree s.fuel s' child t =
        (commitEach (s'.links.post s.fuel child) s', s'.gather s.fuel child t) :=
      commitSyncSurfaceTree_eq (by rw [hlinks']; exact hone)
    rw [commitChild, isDirectSync_of_shape (hsame.trans hshape),
      fuel_of_shape (hsame.trans hshape)]
    cases (s.data child).isDirectSync with
    | true => simpa using heq
    | false => rfl
  have hloop := foldl_commit (fun c => (s.data c).isDirectSync)
    (fun p child => commitChild false p.1 p.2 child) (s.data surface).pendingTransaction
    (by rw [hlinks]; exact hnodup) hstep
  rw [hlinks, ← syncChildren, List.foldl_ext _ _ _ fun t child hchild =>
    hgather child hchild t] at hloop
  have hqueues : (s.commitStates surface).queues = s.queues := commitEach_queues
  have hclient : ((s.commitStates surface).data surface).client = (s.data surface).client := by
    rw [data_commitStates hforest halive]
    split <;> rfl
  calc s.enqueueCommit surface
      = ({ s.commitStates surface with
            queues := Function.update (s.commitStates surface).queues
              ((s.commitStates surface).data surface).client
              ((s.commitStates surface).queues ((s.commitStates surface).data surface).client ++
                [s.commitTransaction surface]) },
          some ((s.commitStates surface).data surface).client) := by
        simp only [enqueueCommit, hdesync, hself, hloop]
        rfl
    _ = _ := by rw [hqueues, hclient]

/-! The ids, as long as no counter wraps around. -/

/-- The state between two requests: nothing is queued, and every id that is kept somewhere is an
older one than the next id of its surface. -/
structure Ordered (commits : Nat) (s : Surfaces) : Prop where
  queues : ∀ client, s.queues client = []
  pending : ∀ x, (s.data x).pendingTransaction.Fits fun y => (s.data y).currentTxid
  ids : ∀ x, ∀ id ∈ ids (s.data x), id < (s.data x).currentTxid
  txid : ∀ x, (s.data x).currentTxid ≤ commits
  fresh : ∀ x, s.created ≤ x → (s.data x).currentTxid = 0

theorem Ordered.mono {m : Nat} (hord : s.Ordered n) (hle : n ≤ m) : s.Ordered m :=
  { hord with txid := fun x => (hord.txid x).trans hle }

private theorem commitData_cache {d : PrivateSurfaceData}
    (hids : ∀ id ∈ ids d, id < d.currentTxid) :
    (commitData d).attributes.cache =
        d.attributes.cache ++ [(d.currentTxid, (Cacheable.commit d.attributes.pending).2)] ∧
      (commitData d).subsurface.cache =
        d.subsurface.cache ++ [(d.currentTxid, (Cacheable.commit d.subsurface.pending).2)] := by
  constructor
  · refine commit_cache_some fun entry hentry => (hids entry.1 ?_).ne
    exact List.mem_append_left _ (List.mem_map_of_mem hentry)
  · refine commit_cache_some fun entry hentry => (hids entry.1 ?_).ne
    exact List.mem_append_right _ (List.mem_map_of_mem hentry)

private theorem ids_commitData {d : PrivateSurfaceData} (hids : ∀ id ∈ ids d, id < d.currentTxid) :
    ∀ id ∈ ids (commitData d), id ≤ d.currentTxid := by
  intro id hid
  have hmem : id ∈ ids d ∨ id = d.currentTxid := by
    obtain ⟨hattributes, hsubsurface⟩ := commitData_cache hids
    simp only [ids, hattributes, hsubsurface, List.map_append, List.mem_append, List.map_cons,
      List.map_nil, List.mem_singleton] at hid ⊢
    tauto
  rcases hmem with hold | rfl
  · exact (hids id hold).le
  · exact le_rfl

theorem fits_commitTransaction (surface : Surface) (hord : s.Ordered n) :
    (s.commitTransaction surface).Fits fun y => (s.data y).currentTxid + 1 := by
  have hpending : ∀ x, (s.data x).pendingTransaction.Fits fun y => (s.data y).currentTxid + 1 :=
    fun x => (hord.pending x).mono fun y => Nat.le_succ _
  refine Transaction.Fits.insert ?_ (Nat.lt_succ_self _)
  exact fits_foldl_gather (hpending surface) fun child _ t ht =>
    fits_gather hpending (fun y => Nat.lt_succ_self _) ht

theorem covers_commitTransaction (hforest : s.Forest) (hord : s.Ordered n)
    (hn : n + 1 ≤ 2 ^ 31 - 1) (halive : s.alive surface = true) (hx : x ∈ s.together surface) :
    (s.commitTransaction surface).Covers x (s.data x).currentTxid := by
  have hbound : ∀ y, (s.data y).currentTxid + 1 ≤ 2 ^ 31 - 1 := fun y =>
    (Nat.succ_le_succ (hord.txid y)).trans hn
  have hpending : ∀ x, (s.data x).pendingTransaction.Fits fun y => (s.data y).currentTxid + 1 :=
    fun x => (hord.pending x).mono fun y => Nat.le_succ _
  have hfits : ∀ child t, t.Fits (fun y => (s.data y).currentTxid + 1) →
      (s.gather s.fuel child t).Fits fun y => (s.data y).currentTxid + 1 := fun child t ht =>
    fits_gather hpending (fun y => Nat.lt_succ_self _) ht
  refine Transaction.covers_insert hbound
    (fits_foldl_gather (hpending surface) fun child _ t ht => hfits child t ht)
    (Nat.lt_succ_self _) ?_
  have hself := alive_of_together hforest halive hx
  rcases List.mem_append.mp hx with hbelow | hsingle
  · left
    exact covers_foldl_gather (hpending surface) hfits (fun child t ht hcovers =>
      covers_gather hbound hpending (fun y => Nat.lt_succ_self _) hself ht hcovers)
      (.inr ⟨hbelow, le_rfl⟩)
  · obtain rfl := List.mem_singleton.mp hsingle
    exact .inr ⟨rfl, le_rfl⟩

theorem dequeue_commit (world : World) (hforest : s.Forest) (hord : s.Ordered n)
    (hn : n + 1 ≤ 2 ^ 31 - 1) (halive : s.alive surface = true)
    (hdesync : s.isEffectivelySync s.fuel surface = false) :
    ∃ queued client, s.enqueueCommit surface = (queued, some client) ∧
      dequeue world queued client =
        ([s.commitTransaction surface], { s.commitStates surface with queues := fun _ => [] }) := by
  refine ⟨_, _, enqueueCommit_eq hforest halive hdesync, ?_⟩
  have hqueues : s.queues = fun _ => [] := funext hord.queues
  have hself : surface ∈ s.together surface := List.mem_append_right _ (List.mem_singleton.mpr rfl)
  obtain ⟨j, hplace, -⟩ := covers_commitTransaction hforest hord hn halive hself
  have hany : ((s.commitTransaction surface).surfaces.any fun place =>
      (s.commitStates surface).alive place.1) = true := by
    rw [List.any_eq_true]
    exact ⟨_, hplace, by rwa [alive_of_shape shape_commitStates]⟩
  have hfree : ∀ t ∈ [s.commitTransaction surface], t.blockers = [] := by
    intro t ht
    rw [List.mem_singleton.mp ht]
    exact (fits_commitTransaction surface hord).blockers
  have hready : Transaction.takeReady (s.commitStates surface).alive world.blockerState
      [s.commitTransaction surface] [] = ([s.commitTransaction surface], []) := by
    rw [Transaction.takeReady_of_free hfree]
    simp [hany]
  have halive' : ∀ queues, Surfaces.alive { s.commitStates surface with queues := queues } =
      (s.commitStates surface).alive := fun _ => rfl
  have hleft : ∀ q : List Transaction, Function.update (Function.update (fun _ => [])
      (s.data surface).client q) (s.data surface).client ([] : List Transaction) =
        fun _ : Client => [] := by
    intro q
    rw [Function.update_idem, Function.update_eq_self_iff]
  rw [hqueues]
  simp only [dequeue, Function.update_self, List.nil_append, halive', hready, hleft]

private theorem commit_eq_applyTransaction (hforest : s.Forest) (hord : s.Ordered n)
    (hn : n + 1 ≤ 2 ^ 31 - 1) (halive : s.alive surface = true)
    (hdesync : s.isEffectivelySync s.fuel surface = false) :
    commit world s surface = applyTransaction world.dimensions
      { s.commitStates surface with queues := fun _ => [] } (s.commitTransaction surface) := by
  obtain ⟨queued, client, hqueued, hdequeue⟩ :=
    dequeue_commit world hforest hord hn halive hdesync
  simp only [commit, hqueued, runQueue, hdequeue, List.foldl_cons, List.foldl_nil]

private theorem applied_commit (world : World) (hforest : s.Forest) (hord : s.Ordered n)
    (hn : n + 1 ≤ 2 ^ 31 - 1) (halive : s.alive surface = true)
    (hdesync : s.isEffectivelySync s.fuel surface = false) :
    AppliedAll { s.commitStates surface with queues := fun _ => [] } (commit world s surface) ∧
      ∀ x ∈ s.together surface, ids ((commit world s surface).data x) = [] := by
  rw [commit_eq_applyTransaction hforest hord hn halive hdesync]
  refine ⟨.applyTransaction, fun x hx => ?_⟩
  obtain ⟨j, hplace, hle⟩ := covers_commitTransaction hforest hord hn halive hx
  have hj : j < (s.data x).currentTxid + 1 :=
    (fits_commitTransaction surface hord).places _ hplace
  have htxid := hord.txid x
  have hself : (s.commitStates surface).alive x = true := by
    rw [alive_of_shape shape_commitStates]
    exact alive_of_together hforest halive hx
  refine ids_foldl hself hplace fun id hid => ?_
  have hdata : (s.commitStates surface).data x = commitData (s.data x) := by
    rw [data_commitStates hforest halive, if_pos hx]
  have hold : id ≤ (s.data x).currentTxid := by
    refine ids_commitData (hord.ids x) id ?_
    rwa [← hdata]
  rw [Bool.eq_false_iff, ne_eq, Serial.lt_iff (by omega) (by omega)]
  omega

private theorem next_txid (hord : s.Ordered n) (hn : n + 1 ≤ 2 ^ 31 - 1) :
    Serial.next (s.data x).currentTxid = (s.data x).currentTxid + 1 := by
  have hle := hord.txid x
  rw [Serial.next, Nat.mod_eq_of_lt (by omega)]

private theorem not_mem_of_created_le (hinv : s.Invariant) (halive : s.alive surface = true)
    (hx : s.created ≤ x) : x ∉ s.together surface := fun hin =>
  absurd (hinv.created x (alive_of_together hinv.forest halive hin)) hx.not_gt

theorem Ordered.commit_desync (hord : s.Ordered n) (hinv : s.Invariant)
    (hn : n + 1 ≤ 2 ^ 31 - 1) (halive : s.alive surface = true)
    (hdesync : s.isEffectivelySync s.fuel surface = false) :
    (commit world s surface).Ordered (n + 1) := by
  obtain ⟨hall, -⟩ := applied_commit world hinv.forest hord hn halive hdesync
  have hdata : ∀ x, (s.commitStates surface).data x =
      if x ∈ s.together surface then commitData (s.data x) else s.data x := fun x =>
    data_commitStates hinv.forest halive
  have htxid : ∀ x, ((commit world s surface).data x).currentTxid =
      if x ∈ s.together surface then (s.data x).currentTxid + 1 else (s.data x).currentTxid := by
    intro x
    rw [(hall.data x).txid, hdata]
    split
    · exact next_txid hord hn
    · rfl
  have hmono : ∀ x, (s.data x).currentTxid ≤ ((commit world s surface).data x).currentTxid := by
    intro x
    rw [htxid]
    split
    · exact Nat.le_succ _
    · exact le_rfl
  refine ⟨fun client => congrFun hall.queues client, fun x => ?_, fun x id hid => ?_, fun x => ?_,
    fun x hx => ?_⟩
  · rw [(hall.data x).transaction, hdata]
    split
    · exact .new
    · exact (hord.pending x).mono hmono
  · have hmem := (hall.data x).ids hid
    rw [hdata] at hmem
    rw [htxid]
    split at hmem
    next hx =>
      rw [if_pos hx]
      exact Nat.lt_succ_of_le (ids_commitData (hord.ids x) id hmem)
    next hx =>
      rw [if_neg hx]
      exact hord.ids x id hmem
  · have hle := hord.txid x
    rw [htxid]
    split <;> omega
  · have hcreated : (commit world s surface).created = s.created :=
      (congrArg Shape.created hall.shape).trans (congrArg Shape.created shape_commitStates)
    rw [hcreated] at hx
    rw [htxid, if_neg (not_mem_of_created_le hinv halive hx)]
    exact hord.fresh x hx

/-- What a commit makes of a surface: what is pending in it is current, and nothing waits. -/
structure Delivered (d d' : PrivateSurfaceData) : Prop where
  attributes_cache : d'.attributes.cache = []
  subsurface_cache : d'.subsurface.cache = []
  pending : d'.attributes.pending = (Cacheable.commit d.attributes.pending).1
  location : d'.subsurface.current = d.subsurface.pending
  overwrites : d'.attributes.current.overwrites = d.attributes.pending.overwrites
  frames : d'.attributes.current.frameCallbacks = unanswered d

theorem delivered_commit (hinv : s.Invariant) (hord : s.Ordered n) (hn : n + 1 ≤ 2 ^ 31 - 1)
    (halive : s.alive surface = true) (hdesync : s.isEffectivelySync s.fuel surface = false)
    (hx : x ∈ s.together surface) :
    Delivered (s.data x) ((commit world s surface).data x) := by
  obtain ⟨hall, hids⟩ := applied_commit world hinv.forest hord hn halive hdesync
  obtain ⟨hattributes, hsubsurface⟩ := ids_eq_nil_iff.mp (hids x hx)
  have happlied := hall.data x
  have hdata : (s.commitStates surface).data x = commitData (s.data x) := by
    rw [data_commitStates hinv.forest halive, if_pos hx]
  have hpending : ((commit world s surface).data x).attributes.pending =
      (Cacheable.commit (s.data x).attributes.pending).1 := by
    rw [happlied.attributes, hdata]
    exact commit_pending_some
  refine ⟨hattributes, hsubsurface, hpending, ?_, ?_, ?_⟩
  · have hnewest : newest SubsurfaceCachedState.location (commitData (s.data x)).subsurface =
        (s.data x).subsurface.pending.location :=
      overwritten_location.newest_commit fun entry hentry =>
        (hord.ids x entry.1 (List.mem_append_right _ (List.mem_map_of_mem hentry))).ne
    have hlocation := happlied.location
    rw [newest_eq_current hsubsurface, hdata, hnewest] at hlocation
    exact congrArg SubsurfaceCachedState.mk hlocation
  · have hnewest : newest SurfaceAttributes.overwrites (commitData (s.data x)).attributes =
        (s.data x).attributes.pending.overwrites :=
      overwritten_attributes.newest_commit fun entry hentry =>
        (hord.ids x entry.1 (List.mem_append_left _ (List.mem_map_of_mem hentry))).ne
    have hoverwrites := happlied.overwrites
    rwa [newest_eq_current hattributes, hdata, hnewest] at hoverwrites
  · have haccount : (commit world s surface).account x = s.account x := elementaries_commit.account
    have hanswers : answers (commit world s surface).events = answers s.events :=
      elementaries_commit.answers
    rw [account, account, answered_of_answers hanswers] at haccount
    rw [← List.append_cancel_left haccount]
    simp [unanswered, content, waiting, hattributes, hpending,
      carried_frameCallbacks.commit_left]

/-! The commit of a synchronized surface. -/

/-- The next ids of the children; what they had pending has gone to the parent. -/
def advanceEach (children : List Surface) (s : Surfaces) : Surfaces :=
  children.foldl (fun s c => s.modify c nextTransaction) s

def collect (s : Surfaces) (children : List Surface) (t : Transaction) : Transaction :=
  children.foldl (fun t c => (s.data c).pendingTransaction.mergeInto s.alive t) t

private theorem advanceEach_queues {children : List Surface} :
    (advanceEach children s).queues = s.queues := by
  induction children generalizing s with
  | nil => rfl
  | cons c cs ih => exact ih

private theorem data_advanceEach {children : List Surface} (hnodup : children.Nodup) :
    (advanceEach children s).data x =
      if x ∈ children then nextTransaction (s.data x) else s.data x := by
  induction children generalizing s with
  | nil => rfl
  | cons c cs ih =>
    obtain ⟨hc, hcs⟩ := List.nodup_cons.mp hnodup
    rw [advanceEach, List.foldl_cons, ← advanceEach, ih hcs, data_modify]
    by_cases hx : x = c
    · simp [hx, hc]
    · simp only [List.mem_cons, hx, false_or, if_false]

private theorem collect_congr {children : List Surface} {t : Transaction}
    (hshape : s'.shape = s.shape)
    (hsame : ∀ c ∈ children, s'.data c = s.data c) :
    s'.collect children t = s.collect children t := by
  rw [collect, collect, alive_of_shape hshape]
  exact List.foldl_ext _ _ _ fun t c hc => by rw [hsame c hc]

private theorem foldl_commitChild {children : List Surface} {t : Transaction}
    (hnodup : children.Nodup) :
    children.foldl (fun p child => commitChild true p.1 p.2 child) (s, t) =
      (advanceEach children s, s.collect children t) := by
  induction children generalizing s t with
  | nil => rfl
  | cons c cs ih =>
    obtain ⟨hc, hcs⟩ := List.nodup_cons.mp hnodup
    have hone : commitChild true s t c = (s.modify c nextTransaction,
        (s.data c).pendingTransaction.mergeInto s.alive t) := by simp [commitChild]
    have hlater : (s.modify c nextTransaction).collect cs
        ((s.data c).pendingTransaction.mergeInto s.alive t) =
          s.collect cs ((s.data c).pendingTransaction.mergeInto s.alive t) := by
      refine collect_congr (shape_modify rfl rfl rfl rfl) fun y hy => ?_
      exact modify_data_of_ne (ne_of_mem_of_not_mem hy hc)
    rw [List.foldl_cons, hone, ih hcs, hlater]
    rfl

/-- What the surface has pending after such a commit: its own part, and that of the children. -/
def pendingOf (s : Surfaces) (surface : Surface) : Transaction :=
  (s.collect (s.getChildren surface) (s.data surface).pendingTransaction).insert surface
    (s.data surface).currentTxid

private theorem not_mem_getChildren (hforest : s.Forest) : surface ∉ s.getChildren surface := by
  rw [mem_getChildren hforest]
  exact fun hself => hforest.acyclic surface (.single hself)

private theorem commit_eq_of_sync (hforest : s.Forest)
    (hsync : s.isEffectivelySync s.fuel surface = true) :
    commit world s surface =
      ((advanceEach (s.getChildren surface) (s.transform surface (PrivateSurfaceData.commitState
        (s.data surface).currentTxid))).modify surface nextTransaction).modify surface
          fun d => { d with pendingTransaction := s.pendingOf surface } := by
  have hnot : surface ∉ s.getChildren surface := not_mem_getChildren hforest
  have hpending : ((s.transform surface (PrivateSurfaceData.commitState
      (s.data surface).currentTxid)).data surface).pendingTransaction =
        (s.data surface).pendingTransaction := by
    rw [transform, send_data, modify_data_self]
    rfl
  have hcollect : (s.transform surface (PrivateSurfaceData.commitState
      (s.data surface).currentTxid)).collect (s.getChildren surface)
        (s.data surface).pendingTransaction =
          s.collect (s.getChildren surface) (s.data surface).pendingTransaction := by
    refine collect_congr shape_commitState fun y hy => ?_
    rw [transform, send_data, modify_data_of_ne (ne_of_mem_of_not_mem hy hnot)]
  have hnodup : (s.getChildren surface).Nodup := (hforest.nodup surface).filter _
  simp only [commit, enqueueCommit, hsync, hpending, foldl_commitChild hnodup, hcollect, if_true]
  rfl

theorem data_commit_sync (hforest : s.Forest)
    (hsync : s.isEffectivelySync s.fuel surface = true) :
    (commit world s surface).data x =
      if x = surface then
        { commitData (s.data surface) with pendingTransaction := s.pendingOf surface }
      else if x ∈ s.getChildren surface then nextTransaction (s.data x) else s.data x := by
  have hnodup : (s.getChildren surface).Nodup := (hforest.nodup surface).filter _
  have hnot : surface ∉ s.getChildren surface := not_mem_getChildren hforest
  rw [commit_eq_of_sync hforest hsync, data_modify]
  by_cases hx : x = surface
  · rw [if_pos hx, if_pos hx, modify_data_self, data_advanceEach hnodup, if_neg hnot, transform,
      send_data, modify_data_self]
    rfl
  · rw [if_neg hx, if_neg hx, modify_data_of_ne hx, data_advanceEach hnodup, transform, send_data,
      modify_data_of_ne hx]

private theorem fits_collect {bound : Surface → Nat} {children : List Surface} {t : Transaction}
    (hpending : ∀ x, (s.data x).pendingTransaction.Fits bound) (ht : t.Fits bound) :
    (s.collect children t).Fits bound := by
  induction children generalizing t with
  | nil => exact ht
  | cons c cs ih => exact ih ((hpending c).mergeInto ht)

theorem Ordered.commit_sync (hord : s.Ordered n) (hinv : s.Invariant) (hn : n + 1 ≤ 2 ^ 31 - 1)
    (halive : s.alive surface = true) (hsync : s.isEffectivelySync s.fuel surface = true) :
    (commit world s surface).Ordered (n + 1) := by
  have hshape : (commit world s surface).shape = s.shape := elementaries_commit.shape
  have hqueues : (commit world s surface).queues = s.queues := by
    rw [commit_eq_of_sync hinv.forest hsync, modify_queues, modify_queues, advanceEach_queues]
    rfl
  have hdata : ∀ x, (commit world s surface).data x = _ := fun x =>
    data_commit_sync hinv.forest hsync
  have htxid : ∀ x, ((commit world s surface).data x).currentTxid =
      if x = surface ∨ x ∈ s.getChildren surface then (s.data x).currentTxid + 1
      else (s.data x).currentTxid := by
    intro x
    rw [hdata]
    by_cases hx : x = surface
    · subst hx
      rw [if_pos rfl, if_pos (.inl rfl)]
      exact next_txid hord hn
    · by_cases hchild : x ∈ s.getChildren surface
      · rw [if_neg hx, if_pos hchild, if_pos (.inr hchild)]
        exact next_txid hord hn
      · rw [if_neg hx, if_neg hchild, if_neg (not_or.mpr ⟨hx, hchild⟩)]
  have hmono : ∀ x, (s.data x).currentTxid ≤ ((commit world s surface).data x).currentTxid := by
    intro x
    rw [htxid]
    split
    · exact Nat.le_succ _
    · exact le_rfl
  have hpending : ∀ x, (s.data x).pendingTransaction.Fits fun y =>
      ((commit world s surface).data y).currentTxid := fun x => (hord.pending x).mono hmono
  have hself : (s.data surface).currentTxid <
      ((commit world s surface).data surface).currentTxid := by
    rw [htxid, if_pos (.inl rfl)]
    exact Nat.lt_succ_self _
  refine ⟨?_, fun x => ?_, fun x id hid => ?_, fun x => ?_, fun x hx => ?_⟩
  · rw [hqueues]
    exact hord.queues
  · rw [hdata]
    by_cases hx : x = surface
    · rw [if_pos hx]
      exact (fits_collect hpending (hpending surface)).insert hself
    · rw [if_neg hx]
      split
      · exact .new
      · exact hpending x
  · rw [htxid]
    rw [hdata] at hid
    by_cases hx : x = surface
    · subst hx
      rw [if_pos rfl] at hid
      rw [if_pos (.inl rfl)]
      exact Nat.lt_succ_of_le (ids_commitData (hord.ids x) id hid)
    · have hold : id ∈ Surfaces.ids (s.data x) := by
        rw [if_neg hx] at hid
        split at hid <;> exact hid
      have hlt := hord.ids x id hold
      split <;> omega
  · have hle := hord.txid x
    rw [htxid]
    split <;> omega
  · have hnew : s.created ≤ x := (congrArg Shape.created hshape).symm.trans_le hx
    have hgone : ¬s.alive x = true := fun hin => absurd (hinv.created x hin) hnew.not_gt
    have hself : x ≠ surface := by
      rintro rfl
      exact hgone halive
    have hchild : x ∉ s.getChildren surface := fun hin =>
      hgone (mem_nodes.mp (hinv.forest.parent_mem _ _
        ((mem_getChildren hinv.forest).mp hin)).1)
    rw [htxid, if_neg (not_or.mpr ⟨hself, hchild⟩)]
    exact hord.fresh x hnew

end LocalDesktop.Smithay.Surfaces
