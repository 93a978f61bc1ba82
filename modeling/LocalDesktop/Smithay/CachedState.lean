/- GID: LocalDesktop/Smithay/CachedState
   generality: G
   digest: Double-buffered state: what is pending, what waits under its commit id, what is current. -/

import Mathlib.Algebra.Group.Nat.Defs
import Mathlib.Data.List.TakeWhile

/-!
A client changes the pending state. A commit takes a snapshot of it, which
waits in the cache under the id of the commit until that id is applied: then it
is merged into the current state, and so are all the snapshots before it.

A merge may give buffers back to the client.
-/

set_option autoImplicit false
set_option relaxedAutoImplicit false

namespace LocalDesktop.Smithay

abbrev WlBuffer := Nat

namespace Serial

/-! A serial is a number of 32 bits, of a counter that wraps around. -/

def next (id : Nat) : Nat := (id + 1) % 2 ^ 32

/-- `partial_cmp`: between serials far apart the counter has wrapped around. -/
def lt (a b : Nat) : Bool :=
  let distance := if b < a then a - b else b - a
  if distance < (2 ^ 32 - 1) / 2 then decide (a < b) else decide (b < a)

theorem lt_iff {a b : Nat} (ha : a < 2 ^ 31 - 1) (hb : b < 2 ^ 31 - 1) :
    lt a b = true ↔ a < b := by
  have hdistance : (if b < a then a - b else b - a) < (2 ^ 32 - 1) / 2 := by
    split <;> omega
  simp only [lt, if_pos hdistance, decide_eq_true_eq]

end Serial

class Cacheable (α : Type) where
  initial : α
  /-- What stays pending, and the snapshot. -/
  commit : α → α × α
  /-- A snapshot, the state it is merged into, and the buffers that are released. -/
  mergeInto : α → α → α × List WlBuffer

structure CachedState (α : Type) where
  pending : α
  cache : List (Nat × α)
  current : α

namespace CachedState

variable {α : Type} [Cacheable α]

def new : CachedState α := ⟨Cacheable.initial, [], Cacheable.initial⟩

/-- The snapshots of a list, one after the other. -/
def mergeAll : List (Nat × α) → α → α × List WlBuffer
  | [], current => (current, [])
  | (_, state) :: rest, current =>
    let (current, released) := Cacheable.mergeInto state current
    let (current, later) := mergeAll rest current
    (current, released ++ later)

def commit (me : CachedState α) (commitId : Option Nat) : CachedState α × List WlBuffer :=
  let (pending, newState) := Cacheable.commit me.pending
  match commitId with
  | some id =>
    match me.cache.getLast? with
    | some (cid, state) =>
      if cid = id then
        let (merged, released) := Cacheable.mergeInto newState state
        ({ me with pending := pending, cache := me.cache.dropLast ++ [(cid, merged)] }, released)
      else
        ({ me with pending := pending, cache := me.cache ++ [(id, newState)] }, [])
    | none => ({ me with pending := pending, cache := me.cache ++ [(id, newState)] }, [])
  | none =>
    let (current, released) := mergeAll me.cache me.current
    let (current, later) := Cacheable.mergeInto newState current
    (⟨pending, [], current⟩, released ++ later)

/-- What is merged for a commit id: all snapshots up to the first one of a later commit. -/
def ready (me : CachedState α) (commitId : Nat) : List (Nat × α) :=
  me.cache.takeWhile fun entry => !Serial.lt commitId entry.1

def applyState (me : CachedState α) (commitId : Nat) : CachedState α × List WlBuffer :=
  let (current, released) := mergeAll (me.ready commitId) me.current
  (⟨me.pending, me.cache.dropWhile fun entry => !Serial.lt commitId entry.1, current⟩, released)

variable {me : CachedState α} {id : Nat}

private theorem applyState_pending : (me.applyState id).1.pending = me.pending := rfl

theorem commit_pending_some :
    (me.commit (some id)).1.pending = (Cacheable.commit me.pending).1 := by
  simp only [commit]
  split
  · split <;> rfl
  · rfl

theorem commit_current_some : (me.commit (some id)).1.current = me.current := by
  simp only [commit]
  split
  · split <;> rfl
  · rfl

theorem commit_cache_some (hnew : ∀ entry ∈ me.cache, entry.1 ≠ id) :
    (me.commit (some id)).1.cache = me.cache ++ [(id, (Cacheable.commit me.pending).2)] := by
  simp only [commit]
  split
  next cid state hlast =>
    rw [if_neg (hnew (cid, state) (List.mem_of_getLast? hlast))]
  · rfl

theorem applyState_cache_eq_nil (hall : ∀ entry ∈ me.cache, Serial.lt id entry.1 = false) :
    (me.applyState id).1.cache = [] := by
  simp only [applyState, List.dropWhile_eq_nil_iff]
  intro entry hentry
  simp [hall entry hentry]

section Carried

/-! What is carried along in order: nothing of it is lost, made twice or overtaken. -/

variable {β : Type} {carry : α → List β}

/-- A commit moves it to the snapshot, a merge appends it. -/
structure Carried (carry : α → List β) : Prop where
  commit_left : ∀ a, carry (Cacheable.commit a).1 = []
  commit_snapshot : ∀ a, carry (Cacheable.commit a).2 = carry a
  merge : ∀ a b, carry (Cacheable.mergeInto a b).1 = carry b ++ carry a

def waiting (carry : α → List β) (cache : List (Nat × α)) : List β :=
  cache.flatMap fun entry => carry entry.2

/-- From the oldest to the newest. -/
def content (carry : α → List β) (me : CachedState α) : List β :=
  carry me.current ++ waiting carry me.cache ++ carry me.pending

omit [Cacheable α] in
private theorem waiting_append {cache cache' : List (Nat × α)} :
    waiting carry (cache ++ cache') = waiting carry cache ++ waiting carry cache' :=
  List.flatMap_append

theorem Carried.mergeAll (hcarry : Carried carry) (cache : List (Nat × α)) (current : α) :
    carry (mergeAll cache current).1 = carry current ++ waiting carry cache := by
  induction cache generalizing current with
  | nil => simp [CachedState.mergeAll, waiting]
  | cons entry rest ih =>
    simp only [CachedState.mergeAll, ih, hcarry.merge, waiting, List.flatMap_cons,
      List.append_assoc]

theorem Carried.content_commit (hcarry : Carried carry) (commitId : Option Nat) :
    content carry (me.commit commitId).1 = content carry me := by
  cases commitId with
  | none =>
    simp [content, commit, hcarry.merge, hcarry.mergeAll, hcarry.commit_left,
      hcarry.commit_snapshot, waiting]
  | some id =>
    have hsnoc : carry me.current ++ waiting carry (me.cache ++ [(id, (Cacheable.commit
        me.pending).2)]) ++ carry (Cacheable.commit me.pending).1 = content carry me := by
      simp [content, hcarry.commit_left, hcarry.commit_snapshot, waiting]
    rcases List.eq_nil_or_concat me.cache with hnil | ⟨init, ⟨cid, state⟩, hcons⟩
    · rw [← hsnoc]
      simp [content, commit, hnil]
    · rw [List.concat_eq_append] at hcons
      by_cases hid : cid = id
      · simp [content, commit, hcons, hid, hcarry.merge, hcarry.commit_left,
          hcarry.commit_snapshot, waiting]
      · rw [← hsnoc]
        simp [content, commit, hcons, hid]

theorem Carried.content_applyState (hcarry : Carried carry) (id : Nat) :
    content carry (me.applyState id).1 = content carry me := by
  have hsplit : waiting carry (me.ready id) ++
      waiting carry (me.applyState id).1.cache = waiting carry me.cache := by
    rw [← waiting_append, ready, applyState, List.takeWhile_append_dropWhile]
  rw [content, content, ← hsplit, applyState_pending]
  simp only [applyState, hcarry.mergeAll, List.append_assoc]

end Carried

section Overwritten

/-! What a snapshot overwrites when it is merged: the newest one counts. -/

variable {β : Type} {read : α → β}

structure Overwritten (read : α → β) : Prop where
  commit_snapshot : ∀ a, read (Cacheable.commit a).2 = read a
  merge : ∀ a b, read (Cacheable.mergeInto a b).1 = read a

/-- The last snapshot that waits, or what is current. -/
def newest (read : α → β) (me : CachedState α) : β :=
  read ((me.cache.getLast?.map Prod.snd).getD me.current)

omit [Cacheable α] in
theorem newest_eq_current (hempty : me.cache = []) : newest read me = read me.current := by
  simp [newest, hempty]

private theorem Overwritten.mergeAll (hread : Overwritten read) (cache : List (Nat × α))
    (current : α) :
    read (mergeAll cache current).1 =
      read ((cache.getLast?.map Prod.snd).getD current) := by
  induction cache generalizing current with
  | nil => rfl
  | cons entry rest ih =>
    simp only [CachedState.mergeAll, ih]
    cases hrest : rest.getLast? with
    | none =>
      obtain rfl := List.getLast?_eq_none_iff.mp hrest
      exact hread.merge _ _
    | some last =>
      rw [List.getLast?_cons, hrest]
      rfl

theorem Overwritten.newest_applyState (hread : Overwritten read) (id : Nat) :
    newest read (me.applyState id).1 = newest read me := by
  have hsplit : me.ready id ++ (me.applyState id).1.cache = me.cache := by
    rw [ready, applyState, List.takeWhile_append_dropWhile]
  have hcurrent : read (me.applyState id).1.current =
      read (((me.ready id).getLast?.map Prod.snd).getD me.current) := hread.mergeAll _ _
  rw [newest, newest, ← hsplit, List.getLast?_append]
  cases (me.applyState id).1.cache.getLast? with
  | none => exact hcurrent
  | some last => rfl

theorem Overwritten.newest_commit (hread : Overwritten read)
    (hnew : ∀ entry ∈ me.cache, entry.1 ≠ id) :
    newest read (me.commit (some id)).1 = read me.pending := by
  rw [newest, commit_cache_some hnew, List.getLast?_append]
  exact hread.commit_snapshot _

end Overwritten

end CachedState

end LocalDesktop.Smithay
