/- GID: LocalDesktop/Foundation/Pipes
   generality: G
   digest: A child that writes to bounded pipes, a parent that waits for it, and their deadlocks. -/

import Mathlib.Data.Finset.Basic
import Mathlib.Logic.Function.Basic
import LocalDesktop.Foundation.Transition

/-!
A child writes to its streams, closes some of them and exits. A stream is a
pipe of bounded capacity or goes elsewhere. The parent reads one of the pipes
to its end, or reads none and waits for the exit; what happens after it has
returned is not looked at. The two take their steps in any order, and a write
puts one byte after the other.
-/

set_option autoImplicit false
set_option relaxedAutoImplicit false

namespace LocalDesktop.Foundation.Pipes

open Transition

variable {S : Type} [DecidableEq S]

inductive Act (S : Type)
  | write (s : S) (bytes : Nat)
  | close (s : S)
  deriving DecidableEq

structure Setting (S : Type) where
  piped : S → Bool
  /-- The stream that the parent reads to its end. Without one it waits for the exit. -/
  reads : Option S
  reads_piped : ∀ t, reads = some t → piped t = true
  capacity : S → Nat
  capacity_pos : ∀ s, 0 < capacity s

structure State (S : Type) where
  acts : List (Act S)
  closed : Finset S
  filled : S → Nat
  exited : Bool
  returned : Bool

inductive Event (S : Type)
  | wrote (s : S)
  | finished (s : S)
  | closed (s : S)
  | exited
  | took (s : S)
  | returned

namespace Setting

variable (w : Setting S)

def Unread (s : S) : Prop := w.piped s = true ∧ w.reads ≠ some s

/-- What the parent waits for has come. -/
def Over (st : State S) : Prop :=
  match w.reads with
  | none => st.exited = true
  | some t => (t ∈ st.closed ∨ st.exited = true) ∧ st.filled t = 0

/-- A stream that was closed takes nothing: writing to it fails at once. -/
inductive Step : State S → Event S → State S → Prop
  | write {st : State S} {s : S} {n : Nat} {acts : List (Act S)} :
      st.returned = false → st.acts = .write s (n + 1) :: acts → s ∉ st.closed →
      (w.piped s = true → st.filled s < w.capacity s) →
      Step st (.wrote s) { st with
        acts := .write s n :: acts
        filled := Function.update st.filled s (st.filled s + 1) }
  | finish {st : State S} {s : S} {n : Nat} {acts : List (Act S)} :
      st.returned = false → st.acts = .write s n :: acts → n = 0 ∨ s ∈ st.closed →
      Step st (.finished s) { st with acts := acts }
  | close {st : State S} {s : S} {acts : List (Act S)} :
      st.returned = false → st.acts = .close s :: acts →
      Step st (.closed s) { st with acts := acts, closed := insert s st.closed }
  | exit {st : State S} :
      st.returned = false → st.acts = [] → st.exited = false →
      Step st .exited { st with exited := true }
  | take {st : State S} {t : S} :
      st.returned = false → w.reads = some t → 0 < st.filled t →
      Step st (.took t) { st with filled := Function.update st.filled t (st.filled t - 1) }
  | leave {st : State S} :
      st.returned = false → w.Over st → Step st .returned { st with returned := true }

def begin (acts : List (Act S)) : State S := ⟨acts, ∅, fun _ => 0, false, false⟩

def system (acts : List (Act S)) : System (State S) (Event S) := ⟨begin acts, w.Step⟩

/-! Deadlock. -/

/-- The parent waits, and there is nothing for it to read. -/
def ParentBlocked (st : State S) : Prop :=
  st.returned = false ∧ ¬w.Over st ∧ ∀ t, w.reads = some t → st.filled t = 0

/-- The child writes to a full pipe that nobody reads. -/
def ChildBlocked (st : State S) : Prop :=
  ∃ s n acts, st.acts = .write s (n + 1) :: acts ∧ s ∉ st.closed ∧ w.Unread s ∧
    w.capacity s ≤ st.filled s

def Deadlocked (st : State S) : Prop := w.ParentBlocked st ∧ w.ChildBlocked st

def NeverDeadlocks (acts : List (Act S)) : Prop :=
  ∀ h st, (w.system acts).Run h st → ¬w.Deadlocked st

end Setting

def Act.bytesTo (s : S) : Act S → Nat
  | .write t n => if t = s then n else 0
  | .close _ => 0

def Act.size : Act S → Nat
  | .write _ n => n + 1
  | .close _ => 1

def written (s : S) : List (Act S) → Nat
  | [] => 0
  | a :: acts => a.bytesTo s + written s acts

def before (t : S) (acts : List (Act S)) : List (Act S) :=
  acts.takeWhile fun a => decide (a ≠ .close t)

namespace Setting

variable (w : Setting S)

def attended (acts : List (Act S)) : List (Act S) := w.reads.elim acts fun t => before t acts

def load (s : S) (acts : List (Act S)) : Nat := written s (before s (w.attended acts))

variable {w : Setting S} {st st' : State S} {s t u : S} {n : Nat} {acts acts' : List (Act S)}
  {e : Event S} {h : List (Event S)}

@[simp] theorem load_nil : w.load s [] = 0 := by
  cases hreads : w.reads <;> simp [load, attended, hreads, before, written]

private theorem load_write : w.load s (.write u n :: acts) =
    (if u = s then n else 0) + w.load s acts := by
  cases hreads : w.reads <;> simp [load, attended, hreads, before, written, Act.bytesTo]

private theorem load_close_self : w.load s (.close s :: acts) = 0 := by
  cases hreads : w.reads with
  | none => simp [load, attended, hreads, before, written, List.takeWhile_cons]
  | some t =>
    by_cases ht : s = t <;>
      simp [load, attended, hreads, before, written, List.takeWhile_cons, ht]

private theorem load_close_awaited (hreads : w.reads = some t) : w.load s
    (.close t :: acts) = 0 := by
  simp [load, attended, hreads, before, written, List.takeWhile_cons]

private theorem load_close (hs : u ≠ s) (hreads : w.reads ≠ some u) :
    w.load s (.close u :: acts) = w.load s acts := by
  cases hawaited : w.reads with
  | none => simp [load, attended, hawaited, before, written, Act.bytesTo, List.takeWhile_cons, hs]
  | some t =>
    have ht : u ≠ t := fun heq => hreads (heq ▸ hawaited)
    simp [load, attended, hawaited, before, written, Act.bytesTo, List.takeWhile_cons, hs, ht]

/-- The parent and the child can both do nothing, that is: no step is possible any more. -/
theorem deadlocked_iff_halted (hst : st.returned = false) :
    w.Deadlocked st ↔ (w.system acts).Halted st := by
  constructor
  · rintro ⟨⟨-, hover, hempty⟩, s, n, rest, hacts, hopen, hunread, hfull⟩ e st' hstep
    cases hstep with
    | write _ hother _ hroom =>
      rw [hacts] at hother
      cases hother
      have hlt := hroom hunread.1
      omega
    | finish _ hother hdone =>
      rw [hacts] at hother
      cases hother
      exact hdone.elim (by omega) hopen
    | close _ hother =>
      rw [hacts] at hother
      cases hother
    | exit _ hnil _ =>
      rw [hacts] at hnil
      cases hnil
    | take _ hreads hpos =>
      have hzero := hempty _ hreads
      omega
    | leave _ hcome => exact hover hcome
  · intro hhalted
    have hover : ¬w.Over st := fun hover => hhalted _ _ (.leave hst hover)
    have hempty : ∀ t, w.reads = some t → st.filled t = 0 := by
      intro t ht
      by_contra hne
      exact hhalted _ _ (.take hst ht (Nat.pos_of_ne_zero hne))
    refine ⟨⟨hst, hover, hempty⟩, ?_⟩
    cases hacts : st.acts with
    | nil =>
      have hexited : st.exited = true := by
        by_contra hexited
        exact hhalted _ _ (.exit hst hacts (Bool.eq_false_iff.mpr hexited))
      cases hreads : w.reads with
      | none => exact absurd (by simp [Over, hreads, hexited]) hover
      | some t => exact absurd (by simp [Over, hreads, hexited, hempty t hreads]) hover
    | cons a rest =>
      cases a with
      | close s => exact absurd (.close hst hacts) (hhalted _ _)
      | write s n =>
        cases n with
        | zero => exact absurd (.finish hst hacts (Or.inl rfl)) (hhalted _ _)
        | succ n =>
          have hopen : s ∉ st.closed := fun hs => hhalted _ _ (.finish hst hacts (Or.inr hs))
          have hfull : w.piped s = true ∧ w.capacity s ≤ st.filled s := by
            by_contra hroom
            exact hhalted _ _ (.write hst hacts hopen fun hpiped => by
              by_contra hle
              exact hroom ⟨hpiped, Nat.le_of_not_lt hle⟩)
          refine ⟨s, n, rest, hacts, hopen, ⟨hfull.1, fun hread => ?_⟩, hfull.2⟩
          have hzero := hempty s hread
          have hpos := w.capacity_pos s
          omega

def Waits (w : Setting S) (st : State S) : Prop := ∀ t, w.reads = some t → t ∉ st.closed

/-- While a pipe is open, what is in it and what is to come make up what it gets in all. -/
def Booked (w : Setting S) (acts : List (Act S)) (st : State S) : Prop :=
  ∀ s, w.Unread s → s ∉ st.closed → w.Waits st → st.filled s + w.load s st.acts = w.load s acts

private theorem booked_step (hst : w.Booked acts st) (hstep : w.Step st e st') :
    w.Booked acts st' := by
  intro s hs hopen hwaits
  cases hstep with
  | @write u n rest _ hacts _ _ =>
    have hbefore := hst s hs hopen hwaits
    rw [hacts, load_write] at hbefore
    show Function.update st.filled u (st.filled u + 1) s + w.load s (.write u n :: rest) = _
    rw [load_write]
    by_cases hu : u = s
    · subst hu
      rw [if_pos rfl] at hbefore ⊢
      rw [Function.update_self]
      omega
    · rw [if_neg hu] at hbefore ⊢
      rwa [Function.update_of_ne (Ne.symm hu)]
  | @finish u n rest _ hacts hdone =>
    have hbefore := hst s hs hopen hwaits
    rw [hacts, load_write] at hbefore
    rcases hdone with rfl | hclosed
    · simpa using hbefore
    · have hu : u ≠ s := fun heq => hopen (heq ▸ hclosed)
      simpa [hu] using hbefore
  | @close u rest _ hacts =>
    simp only [Finset.mem_insert, not_or] at hopen
    have hread : w.reads ≠ some u := fun hread => hwaits u hread (Finset.mem_insert_self _ _)
    have hbefore := hst s hs hopen.2 fun t ht hclosed =>
      hwaits t ht (Finset.mem_insert_of_mem hclosed)
    rwa [hacts, load_close (Ne.symm hopen.1) hread] at hbefore
  | exit => exact hst s hs hopen hwaits
  | @take t _ hread _ =>
    have hts : s ≠ t := fun heq => hs.2 (heq ▸ hread)
    show Function.update st.filled t (st.filled t - 1) s + w.load s st.acts = _
    rw [Function.update_of_ne hts]
    exact hst s hs hopen hwaits
  | leave => exact hst s hs hopen hwaits

private theorem booked (hrun : (w.system acts).Run h st) : w.Booked acts st := by
  refine hrun.invariant (I := fun _ st => w.Booked acts st) ?_ ?_
  · exact fun s _ _ _ => Nat.zero_add _
  · exact fun h st e st' _ hst hstep => booked_step hst hstep

private theorem neverDeadlocks_of_load (hfits : ∀ s, w.Unread s → w.load s acts ≤ w.capacity s) :
    w.NeverDeadlocks acts := by
  rintro h st hrun ⟨⟨-, hover, hempty⟩, s, n, rest, hacts, hopen, hunread, hfull⟩
  have hwaits : w.Waits st := by
    intro t ht hclosed
    apply hover
    simp [Over, ht, hclosed, hempty t ht]
  have hkept := booked hrun s hunread hopen hwaits
  rw [hacts, load_write, if_pos rfl] at hkept
  have hle := hfits s hunread
  omega

/-- The parent waits for the child, which has more for an open pipe than it can hold. -/
structure Heavy (w : Setting S) (s : S) (st : State S) : Prop where
  running : st.returned = false
  alive : st.exited = false
  isOpen : s ∉ st.closed
  waits : w.Waits st
  within : ∀ u, w.piped u = true → st.filled u ≤ w.capacity u
  load : w.capacity s < st.filled s + w.load s st.acts

private theorem Heavy.wrote (hst : w.Heavy s st) (hacts : st.acts = .write u (n + 1) :: acts)
    (hroom : w.piped u = true → st.filled u < w.capacity u) :
    w.Heavy s { st with
      acts := .write u n :: acts
      filled := Function.update st.filled u (st.filled u + 1) } := by
  refine ⟨hst.running, hst.alive, hst.isOpen, hst.waits, fun t ht => ?_, ?_⟩
  · by_cases hu : t = u
    · subst hu
      have hlt := hroom ht
      simp only [Function.update_self]
      omega
    · simp only [Function.update_of_ne hu]
      exact hst.within t ht
  · have hload := hst.load
    rw [hacts, load_write] at hload
    show _ < Function.update st.filled u (st.filled u + 1) s + w.load s (.write u n :: acts)
    rw [load_write]
    by_cases hu : u = s
    · subst hu
      rw [if_pos rfl] at hload ⊢
      rw [Function.update_self]
      omega
    · rw [if_neg hu] at hload ⊢
      rwa [Function.update_of_ne (Ne.symm hu)]

private theorem Heavy.took (hst : w.Heavy s st) (hs : w.Unread s) (ht : w.reads = some t) :
    w.Heavy s { st with filled := Function.update st.filled t (st.filled t - 1) } := by
  have hts : s ≠ t := fun heq => hs.2 (heq ▸ ht)
  refine ⟨hst.running, hst.alive, hst.isOpen, hst.waits, fun u hu => ?_, ?_⟩
  · have hle := hst.within u hu
    by_cases hut : u = t
    · subst hut
      simp only [Function.update_self]
      omega
    · simpa only [Function.update_of_ne hut] using hle
  · show _ < Function.update st.filled t (st.filled t - 1) s + w.load s st.acts
    rw [Function.update_of_ne hts]
    exact hst.load

private theorem Heavy.finished (hst : w.Heavy s st) (hacts : st.acts = .write u n :: acts)
    (hdone : n = 0 ∨ u ∈ st.closed) : w.Heavy s { st with acts := acts } := by
  refine ⟨hst.running, hst.alive, hst.isOpen, hst.waits, hst.within, ?_⟩
  have hload := hst.load
  rw [hacts, load_write] at hload
  rcases hdone with rfl | hclosed
  · simpa using hload
  · have hu : u ≠ s := fun heq => hst.isOpen (heq ▸ hclosed)
    simpa [hu] using hload

private theorem Heavy.closed (hst : w.Heavy s st) (hs : w.Unread s)
    (hacts : st.acts = .close u :: acts) :
    w.Heavy s { st with acts := acts, closed := insert u st.closed } := by
  have hload := hst.load
  have hle := hst.within s hs.1
  rw [hacts] at hload
  have hus : u ≠ s := by
    rintro rfl
    rw [load_close_self] at hload
    omega
  have hread : w.reads ≠ some u := by
    intro hread
    rw [load_close_awaited hread] at hload
    omega
  refine ⟨hst.running, hst.alive, ?_, fun t ht => ?_, hst.within, ?_⟩
  · simp [Ne.symm hus, hst.isOpen]
  · have htu : t ≠ u := fun heq => hread (heq ▸ ht)
    simp [htu, hst.waits t ht]
  · rwa [load_close hus hread] at hload

structure Drained (w : Setting S) (st st' : State S) : Prop where
  empty : ∀ t, w.reads = some t → st'.filled t = 0
  acts : st'.acts = st.acts
  closed : st'.closed = st.closed
  unread : ∀ u, w.Unread u → st'.filled u = st.filled u

private theorem Heavy.canReach_drained (hst : w.Heavy s st) (hs : w.Unread s) :
    (w.system acts').CanReach (fun _ => True) st fun st' => w.Heavy s st' ∧ w.Drained st st' := by
  cases hread : w.reads with
  | none =>
    refine .here ⟨hst, fun t ht => ?_, rfl, rfl, fun u _ => rfl⟩
    rw [hread] at ht
    cases ht
  | some t =>
    generalize hn : st.filled t = n
    induction n generalizing st with
    | zero =>
      refine .here ⟨hst, fun u hu => ?_, rfl, rfl, fun u _ => rfl⟩
      rw [hread] at hu
      cases hu
      exact hn
    | succ n ih =>
      have htook := hst.took hs hread
      have hrest := ih htook (by simp [hn])
      refine .after (.take hst.running hread (by omega)) trivial ?_
      refine hrest.trans fun st' hst' => .here ⟨hst'.1, ?_⟩
      refine ⟨hst'.2.empty, hst'.2.acts, hst'.2.closed, fun u hu => ?_⟩
      have hut : u ≠ t := fun heq => hu.2 (heq ▸ hread)
      rw [hst'.2.unread u hu]
      exact Function.update_of_ne hut _ _

/-- A child with more for an open pipe than it can hold can come to a deadlock. -/
private theorem Heavy.canReach_deadlocked (hst : w.Heavy s st) (hs : w.Unread s) :
    (w.system acts').CanReach (fun _ => True) st w.Deadlocked := by
  generalize hsize : (st.acts.map Act.size).sum = size
  induction size using Nat.strong_induction_on generalizing st with
  | _ size ih =>
    subst hsize
    cases hacts : st.acts with
    | nil =>
      have hload := hst.load
      have hle := hst.within s hs.1
      rw [hacts, load_nil] at hload
      omega
    | cons a rest =>
      rw [hacts] at ih
      cases a with
      | close u =>
        refine .after (.close hst.running hacts) trivial ?_
        exact ih _ (by simp [Act.size]) (hst.closed hs hacts) rfl
      | write u n =>
        by_cases hdone : n = 0 ∨ u ∈ st.closed
        · refine .after (.finish hst.running hacts hdone) trivial ?_
          exact ih _ (by simp [Act.size]) (hst.finished hacts hdone) rfl
        · obtain ⟨hn, hopen⟩ := not_or.mp hdone
          obtain ⟨n, rfl⟩ := Nat.exists_eq_succ_of_ne_zero hn
          have hsize : (Act.write u n).size < (Act.write u (n + 1)).size := Nat.lt_succ_self _
          by_cases hroom : w.piped u = true → st.filled u < w.capacity u
          · refine .after (.write hst.running hacts hopen hroom) trivial ?_
            exact ih _ (by simpa using hsize) (hst.wrote hacts hroom) rfl
          · obtain ⟨hpiped, hfull⟩ := Classical.not_imp.mp hroom
            by_cases hread : w.reads = some u
            -- The parent makes room for one more byte.
            · have hpos := w.capacity_pos u
              have htook := hst.took hs hread
              have hroom : w.piped u = true →
                  Function.update st.filled u (st.filled u - 1) u < w.capacity u := by
                intro _
                have hle := hst.within u hpiped
                rw [Function.update_self]
                omega
              refine .after (.take hst.running hread (by omega)) trivial ?_
              refine .after (.write htook.running hacts hopen hroom) trivial ?_
              exact ih _ (by simpa using hsize) (htook.wrote hacts hroom) rfl
            -- The child cannot go on; the parent reads until it cannot go on either.
            · refine (hst.canReach_drained hs).trans fun st' hst' => .here ?_
              obtain ⟨hheavy, hdrained⟩ := hst'
              refine ⟨⟨hheavy.running, ?_, hdrained.empty⟩, u, n, rest, ?_, ?_, ⟨hpiped, hread⟩, ?_⟩
              · intro hover
                cases hreads : w.reads with
                | none => simp [Over, hreads, hheavy.alive] at hover
                | some t => simp [Over, hreads, hheavy.alive, hheavy.waits t hreads] at hover
              · exact hdrained.acts.trans hacts
              · rwa [hdrained.closed]
              · rw [hdrained.unread u ⟨hpiped, hread⟩]
                omega

/-- The child never blocks the parent and itself if and only if each pipe that nobody reads can
hold what it gets while the parent waits. -/
theorem neverDeadlocks_iff :
    w.NeverDeadlocks acts ↔ ∀ s, w.Unread s → w.load s acts ≤ w.capacity s := by
  constructor
  · intro hnever s hs
    by_contra hgt
    have hheavy : w.Heavy s (begin acts) := by
      refine ⟨rfl, rfl, Finset.notMem_empty s, fun t _ => Finset.notMem_empty t,
        fun u _ => Nat.zero_le _, ?_⟩
      have hload : w.capacity s < 0 + w.load s acts := by omega
      exact hload
    have hreach : (w.system acts).CanReach (fun _ => True) (begin acts) w.Deadlocked :=
      hheavy.canReach_deadlocked hs
    obtain ⟨h, st, hpath, -, hdead⟩ := hreach
    exact hnever h st hpath hdead
  · exact neverDeadlocks_of_load

end Setting

end LocalDesktop.Foundation.Pipes
