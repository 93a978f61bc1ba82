/- GID: LocalDesktop/Smithay/Shm
   generality: G
   digest: Pools of shared memory, the buffers in them, and what keeps a buffer inside its pool. -/

import Mathlib.Data.Int.Bitwise
import Mathlib.Tactic.Linarith
import Mathlib.Tactic.Ring
import LocalDesktop.Foundation.Transition

/-!
The numbers of a client are 32 bits and are checked when a buffer is made; the
renderer relies on them as long as the buffer lives, while the pool is resized.
-/

set_option autoImplicit false
set_option relaxedAutoImplicit false

namespace LocalDesktop.Smithay

open Foundation.Transition

/-- The result of an operation on 32 bits. Nothing, if it overflows. -/
def i32 (n : Int) : Option Int := if -2 ^ 31 ≤ n ∧ n < 2 ^ 31 then some n else none

def asUsize (n : Int) : Nat := (n % 2 ^ 64).toNat

def sizeAsI32 (n : Nat) : Int := Int.bmod n (2 ^ 32)

/-- Also the division itself, which panics where this is nothing. -/
def checkedDiv (n d : Int) : Option Int := if d = 0 then none else i32 (n.tdiv d)

inductive ShmFormat
  | argb8888 | xrgb8888
  -- Any other format of the table, with its bytes per pixel.
  | other (bytes : Nat)
  -- A number that is no format.
  | unknown (code : Nat)
  deriving DecidableEq

def wlBytesPerPixel : ShmFormat → Int
  | .argb8888 | .xrgb8888 => 4
  | .other bytes => bytes
  | .unknown _ => 0

inductive ShmError
  -- invalid wl_shm_pool size, for a new pool and for one that is there
  | invalidPoolSize
  | invalidResize
  -- Failed to mmap fd {}
  | mmapFailed
  -- offset must not be negative
  | negativeOffset
  -- invalid width or height ({}x{})
  | invalidSize (width height : Int)
  -- width must not be larger than stride (width {}, stride {})
  | widthTooLarge (width stride : Int)
  -- height is too large for stride (max {})
  | heightTooLarge (max : Int)
  -- offset is too large
  | offsetTooLarge
  -- format {:?} not supported
  | formatNotSupported (format : ShmFormat)
  -- unknown format 0x{:x}
  | unknownFormat (code : Nat)
  -- cannot shrink wl_shm_pool
  | cannotShrink
  -- mremap failed
  | mremapFailed
  deriving DecidableEq

structure BufferData where
  offset : Int
  width : Int
  height : Int
  stride : Int
  format : ShmFormat
  deriving DecidableEq

/-- A mapping. The pointer is null when it is lost. -/
structure MemMap where
  size : Nat
  isNull : Bool
  deriving DecidableEq

namespace MemMap

def remap (m : MemMap) (newsize : Nat) (mapped : Bool) : Option ShmError × MemMap :=
  if m.isNull then (some .mremapFailed, m)
  else if mapped then (none, ⟨newsize, false⟩)
  else (some .mremapFailed, ⟨0, true⟩)

def resize (m : MemMap) (newsize : Nat) (mapped : Bool) : Option ShmError × MemMap :=
  if newsize < m.size then (some .cannotShrink, m) else m.remap newsize mapped

private theorem resize_cases (m : MemMap) (newsize : Nat) (mapped : Bool) :
    (∃ error, m.resize newsize mapped = (some error, m)) ∨
      m.resize newsize mapped = (some .mremapFailed, ⟨0, true⟩) ∨
      (mapped = true ∧ m.isNull = false ∧ m.size ≤ newsize ∧
        m.resize newsize mapped = (none, ⟨newsize, false⟩)) := by
  rw [resize, remap]
  split
  · exact .inl ⟨_, rfl⟩
  next hsize =>
    split
    · exact .inl ⟨_, rfl⟩
    next hnull =>
      split
      next hmapped => exact .inr (.inr ⟨hmapped, by simpa using hnull, not_lt.mp hsize, rfl⟩)
      · exact .inr (.inl rfl)

end MemMap

/-- The checks of `create_buffer` in a pool of a size. Nothing is left of a panic. -/
def checkBuffer (size : Nat) (data : BufferData) : Option (Option ShmError) :=
  if data.offset < 0 then some (some .negativeOffset)
  else if data.width ≤ 0 ∨ data.height ≤ 0 then some (some (.invalidSize data.width data.height))
  else
    let line := (checkedDiv data.stride (wlBytesPerPixel data.format)).getD 0
    if line < data.width then some (some (.widthTooLarge data.width line))
    else do
      let max ← checkedDiv (2 ^ 31 - 1) data.stride
      if max < data.height then some (some (.heightTooLarge max))
      else do
        let bytes ← i32 (data.stride * data.height)
        let last ← i32 (sizeAsI32 size - bytes)
        some (if last < data.offset then some .offsetTooLarge else none)

/-- The assertion of `import_shm_buffer`, for pixels of four bytes. -/
def consistent (data : BufferData) (len : Nat) : Option Bool := do
  let rows ← i32 (data.height - 1)
  let above ← i32 (rows * data.stride)
  let start ← i32 (data.offset + above)
  let line ← i32 (data.width * 4)
  let stop ← i32 (start + line)
  some (decide (asUsize stop ≤ len))

/-- The pools, and the buffers with theirs. A buffer keeps its pool. -/
structure Shm where
  pools : Nat → Option MemMap
  buffers : List (Nat × BufferData)
  errors : List (Nat × ShmError)

inductive ShmRequest
  | createPool (pool : Nat) (size : Int) (mapped : Bool)
  | createBuffer (pool : Nat) (data : BufferData)
  | resize (pool : Nat) (size : Int) (mapped : Bool)

namespace Shm

def new : Shm := ⟨fun _ => none, [], []⟩

def formats : List ShmFormat := [.argb8888, .xrgb8888]

def postError (s : Shm) (pool : Nat) (error : ShmError) : Shm :=
  { s with errors := s.errors ++ [(pool, error)] }

def setPool (s : Shm) (pool : Nat) (m : MemMap) : Shm :=
  { s with pools := Function.update s.pools pool (some m) }

def createPool (s : Shm) (pool : Nat) (size : Int) (mapped : Bool) : Shm :=
  if size ≤ 0 then s.postError pool .invalidPoolSize
  else if mapped then s.setPool pool ⟨asUsize size, false⟩
  else s.postError pool .mmapFailed

def createBuffer (s : Shm) (pool : Nat) (m : MemMap) (data : BufferData) : Option Shm :=
  (checkBuffer m.size data).map fun
    | some error => s.postError pool error
    | none =>
      match data.format with
      | .unknown code => s.postError pool (.unknownFormat code)
      | format =>
        if format ∈ formats then { s with buffers := s.buffers ++ [(pool, data)] }
        else s.postError pool (.formatNotSupported format)

def withResized (s : Shm) (pool : Nat) (result : Option ShmError × MemMap) : Shm :=
  match result with
  | (some error, m) => (s.setPool pool m).postError pool error
  | (none, m) => s.setPool pool m

/-- A size that is not positive is an error, and is used all the same. -/
def resize (s : Shm) (pool : Nat) (m : MemMap) (size : Int) (mapped : Bool) : Option Shm :=
  let s := if size ≤ 0 then s.postError pool .invalidResize else s
  if asUsize size = 0 then none
  else some (s.withResized pool (m.resize (asUsize size) mapped))

def request (s : Shm) : ShmRequest → Option Shm
  | .createPool pool size mapped => some (s.createPool pool size mapped)
  | .createBuffer pool data => (s.pools pool).bind fun m => s.createBuffer pool m data
  | .resize pool size mapped => (s.pools pool).bind fun m => s.resize pool m size mapped

/-- Numbers of 32 bits, and the objects are there. No mapping is as large as half of all
addresses. -/
def Valid (s : Shm) : ShmRequest → Prop
  | .createPool pool size _ => s.pools pool = none ∧ size < 2 ^ 31
  | .createBuffer pool data => (s.pools pool).isSome ∧ data.offset < 2 ^ 31 ∧
      data.width < 2 ^ 31 ∧ data.height < 2 ^ 31 ∧ data.stride < 2 ^ 31
  | .resize pool size mapped => (s.pools pool).isSome ∧ -2 ^ 31 ≤ size ∧ size < 2 ^ 31 ∧
      (mapped = true → asUsize size < 2 ^ 63)

def system : System Shm ShmRequest where
  start := .new
  step s request s' := s.Valid request ∧ s.request request = some s'

end Shm

/-! The checks of a buffer. -/

section Checks

variable {n d width : Int} {size : Nat} {data : BufferData}

private theorem i32_eq (hlow : -2 ^ 31 ≤ n) (hhigh : n < 2 ^ 31) : i32 n = some n := by
  rw [i32, if_pos ⟨hlow, hhigh⟩]

private theorem sizeAsI32_eq (hsize : size < 2 ^ 31) : sizeAsI32 size = size := by
  exact Int.bmod_eq_of_le (by omega) (by omega)

private theorem asUsize_eq_zero_iff (hlow : -2 ^ 31 ≤ n) (hhigh : n < 2 ^ 31) :
    asUsize n = 0 ↔ n = 0 := by
  rw [asUsize]
  omega

private theorem line_fits (hd : 0 ≤ d) (hwidth : 0 < width)
    (hline : width ≤ (checkedDiv n d).getD 0) :
    0 < d ∧ width * d ≤ n := by
  by_cases hzero : d = 0
  · simp only [checkedDiv, hzero, if_true, Option.getD_none] at hline
    omega
  · have hpos : 0 < d := lt_of_le_of_ne hd (Ne.symm hzero)
    have hquotient : width ≤ n.tdiv d := by
      simp only [checkedDiv, if_neg hzero, i32] at hline
      split at hline
      · exact hline
      · simp only [Option.getD_none] at hline
        omega
    have hnonneg : 0 ≤ n := by
      by_contra hneg
      have hle : 0 ≤ (-n).tdiv d := Int.tdiv_nonneg (by omega) hd
      rw [Int.neg_tdiv] at hle
      omega
    rw [Int.tdiv_eq_ediv_of_nonneg hnonneg] at hquotient
    exact ⟨hpos, (Int.le_ediv_iff_mul_le hpos).mp hquotient⟩

/-- A buffer that passes the checks lies in its pool, line by line. -/
structure BufferData.Inside (data : BufferData) (size : Nat) : Prop where
  offset : 0 ≤ data.offset
  width : 0 < data.width
  height : 0 < data.height
  line : data.width * wlBytesPerPixel data.format ≤ data.stride
  stop : data.offset + data.stride * data.height ≤ size

private theorem wlBytesPerPixel_nonneg (format : ShmFormat) : 0 ≤ wlBytesPerPixel format := by
  cases format <;> simp [wlBytesPerPixel]

private theorem checkBuffer_eq (data : BufferData) (hsize : size < 2 ^ 31) :
    ∃ result, checkBuffer size data = some result ∧ (result = none → data.Inside size) := by
  rw [checkBuffer]
  split
  · exact ⟨_, rfl, fun h => by cases h⟩
  next hoffset =>
    split
    · exact ⟨_, rfl, fun h => by cases h⟩
    next hpositive =>
      simp only [not_or, not_le] at hpositive
      obtain ⟨hwidth, hheight⟩ := hpositive
      dsimp only
      split
      · exact ⟨_, rfl, fun h => by cases h⟩
      next hline =>
        obtain ⟨hbytes, hfits⟩ :=
          line_fits (wlBytesPerPixel_nonneg data.format) hwidth (not_lt.mp hline)
        have hpos : 0 < data.stride := lt_of_lt_of_le (Int.mul_pos hwidth hbytes) hfits
        have hquotient : 0 ≤ (2 ^ 31 - 1) / data.stride := Int.ediv_nonneg (by omega) hpos.le
        have hquotient' : (2 ^ 31 - 1) / data.stride ≤ 2 ^ 31 - 1 :=
          Int.ediv_le_self _ (by omega)
        have hmax : checkedDiv (2 ^ 31 - 1) data.stride = some ((2 ^ 31 - 1) / data.stride) := by
          rw [checkedDiv, if_neg hpos.ne', Int.tdiv_eq_ediv_of_nonneg (by omega)]
          exact i32_eq (by omega) (by omega)
        rw [hmax]
        simp only [Option.bind_eq_bind, Option.bind_some]
        split
        · exact ⟨_, rfl, fun h => by cases h⟩
        next hrows =>
          have hproduct : data.height * data.stride ≤ 2 ^ 31 - 1 :=
            (Int.le_ediv_iff_mul_le hpos).mp (not_lt.mp hrows)
          have hproduct' : 0 < data.stride * data.height := Int.mul_pos hpos hheight
          rw [Int.mul_comm] at hproduct
          rw [i32_eq (by omega) (by omega), sizeAsI32_eq hsize]
          simp only [Option.bind_some]
          rw [i32_eq (by omega) (by omega)]
          refine ⟨_, rfl, fun hnone => ?_⟩
          split at hnone
          · cases hnone
          next hlast => exact ⟨by omega, hwidth, hheight, hfits, by omega⟩

private theorem consistent_eq (len : Nat) (hinside : data.Inside size) (hsize : size < 2 ^ 31)
    (hpixel : wlBytesPerPixel data.format = 4) : ∃ stop : Int, 0 < stop ∧ stop ≤ size ∧
      consistent data len = some (decide (stop ≤ len)) := by
  obtain ⟨hoffset, hwidth, hheight, hline, hstop⟩ := hinside
  rw [hpixel] at hline
  have hpos : 0 < data.stride := by omega
  have habove : 0 ≤ (data.height - 1) * data.stride := Int.mul_nonneg (by omega) hpos.le
  have hrows : (data.height - 1) * data.stride = data.stride * data.height - data.stride := by ring
  have hheight' : data.height ≤ data.stride * data.height := by nlinarith
  refine ⟨data.offset + (data.height - 1) * data.stride + data.width * 4, by omega, by omega, ?_⟩
  rw [consistent, i32_eq (by omega) (by omega)]
  simp only [Option.bind_eq_bind, Option.bind_some]
  rw [i32_eq (by omega) (by omega)]
  simp only [Option.bind_some]
  rw [i32_eq (by omega) (by omega)]
  simp only [Option.bind_some]
  rw [i32_eq (by omega) (by omega)]
  simp only [Option.bind_some]
  rw [i32_eq (by omega) (by omega)]
  simp only [Option.bind_some, asUsize]
  congr 2
  rw [eq_iff_iff]
  omega

private theorem pixel_inside {row column : Int} (hinside : data.Inside size)
    (hpixel : wlBytesPerPixel data.format = 4) (hrow : 0 ≤ row) (hrow' : row < data.height)
    (hcolumn : 0 ≤ column) (hcolumn' : column < data.width * 4) :
    0 ≤ data.offset + row * data.stride + column ∧
      data.offset + row * data.stride + column < size := by
  obtain ⟨hoffset, hwidth, -, hline, hstop⟩ := hinside
  rw [hpixel] at hline
  have hpos : 0 < data.stride := by omega
  have habove : 0 ≤ row * data.stride := Int.mul_nonneg hrow hpos.le
  have hrows : (row + 1) * data.stride ≤ data.height * data.stride :=
    Int.mul_le_mul_of_nonneg_right (by omega) hpos.le
  have hsplit : (row + 1) * data.stride = row * data.stride + data.stride := by ring
  have hcomm : data.height * data.stride = data.stride * data.height := Int.mul_comm _ _
  exact ⟨by omega, by omega⟩

end Checks

/-! What holds of the buffers of every run. -/

namespace Shm

variable {s s' : Shm} {r : ShmRequest} {h : List ShmRequest} {pool : Nat} {m m' : MemMap}
  {data : BufferData}

/-- A pool only grows as long as it is mapped, so its buffers stay inside. -/
structure Invariant (s : Shm) : Prop where
  size : ∀ p m, s.pools p = some m → m.size < 2 ^ 31
  lost : ∀ p m, s.pools p = some m → m.isNull = true →
    m.size = 0 ∧ ∃ error, (p, error) ∈ s.errors
  inside : ∀ b ∈ s.buffers, b.2.format ∈ formats ∧ ∃ m size, s.pools b.1 = some m ∧
    size < 2 ^ 31 ∧ b.2.Inside size ∧ (m.isNull = false → size ≤ m.size)

namespace Invariant

private theorem postError {error : ShmError} (hinv : s.Invariant) :
    (s.postError pool error).Invariant := by
  refine ⟨hinv.size, fun p m hm hnull => ?_, hinv.inside⟩
  obtain ⟨hsize, old, hold⟩ := hinv.lost p m hm hnull
  exact ⟨hsize, old, List.mem_append_left _ hold⟩

private theorem setPool (hinv : s.Invariant) (hsize : m'.size < 2 ^ 31)
    (hlost : m'.isNull = true → m'.size = 0 ∧ ∃ error, (pool, error) ∈ s.errors)
    (hgrown : ∀ m, s.pools pool = some m → m'.isNull = false → m.isNull = false ∧ m.size ≤ m'.size) :
    (s.setPool pool m').Invariant := by
  have hpools : ∀ p, (s.setPool pool m').pools p = if p = pool then some m' else s.pools p :=
    fun p => Function.update_apply _ _ _ _
  refine ⟨fun p n hn => ?_, fun p n hn hnull => ?_, fun b hb => ?_⟩
  · rw [hpools] at hn
    split at hn
    · cases hn
      exact hsize
    · exact hinv.size p n hn
  · rw [hpools] at hn
    split at hn
    next hp =>
      cases hn
      exact hp ▸ hlost hnull
    · exact hinv.lost p n hn hnull
  · obtain ⟨hformat, m, size, hm, hlt, hinside, hle⟩ := hinv.inside b hb
    refine ⟨hformat, ?_⟩
    rw [hpools]
    split
    next hp =>
      refine ⟨m', size, rfl, hlt, hinside, fun hmapped => ?_⟩
      obtain ⟨hbefore, hgrew⟩ := hgrown m (hp ▸ hm) hmapped
      exact (hle hbefore).trans hgrew
    · exact ⟨m, size, hm, hlt, hinside, hle⟩

private theorem createPool {size : Int} {mapped : Bool} (hinv : s.Invariant)
    (hnew : s.pools pool = none)
    (hsize : size < 2 ^ 31) : (s.createPool pool size mapped).Invariant := by
  rw [Shm.createPool]
  split
  · exact hinv.postError
  next hpositive =>
    split
    · refine hinv.setPool ?_ (fun h => by cases h) fun m hm => absurd (hnew.symm.trans hm) (by simp)
      simp only [asUsize]
      omega
    · exact hinv.postError

private theorem createBuffer (hinv : s.Invariant) (hm : s.pools pool = some m)
    (hs : s.createBuffer pool m data = some s') : s'.Invariant := by
  obtain ⟨result, hresult, hinside⟩ := checkBuffer_eq data (hinv.size pool m hm)
  rw [Shm.createBuffer, hresult, Option.map_some] at hs
  cases result with
  | some error =>
    cases hs
    exact hinv.postError
  | none =>
    have hadd : data.format ∈ formats →
        Invariant { s with buffers := s.buffers ++ [(pool, data)] } := by
      intro hformat
      refine ⟨hinv.size, hinv.lost, fun b hb => ?_⟩
      rcases List.mem_append.mp hb with hold | hnew
      · exact hinv.inside b hold
      · obtain rfl := List.mem_singleton.mp hnew
        exact ⟨hformat, m, m.size, hm, hinv.size pool m hm, hinside rfl, fun _ => le_rfl⟩
    cases hs
    dsimp only
    split
    · exact hinv.postError
    · split
      next hformat => exact hadd hformat
      · exact hinv.postError

private theorem resize {size : Int} {mapped : Bool} (hinv : s.Invariant)
    (hm : s.pools pool = some m)
    (hlow : -2 ^ 31 ≤ size) (hhigh : size < 2 ^ 31) (hmapped : mapped = true → asUsize size < 2 ^ 63)
    (hs : s.resize pool m size mapped = some s') : s'.Invariant := by
  have hkept : ∀ s : Shm, s.Invariant → s.pools pool = some m → ∀ error,
      ((s.setPool pool m).postError pool error).Invariant := by
    intro s hinv hm error
    have hset : (s.setPool pool m).Invariant := by
      refine hinv.setPool (hinv.size pool m hm) (hinv.lost pool m hm) fun n hn hn' => ?_
      obtain rfl : m = n := Option.some.inj (hm.symm.trans hn)
      exact ⟨hn', le_rfl⟩
    exact hset.postError
  have hresized : ∀ s : Shm, s.Invariant → s.pools pool = some m →
      (s.withResized pool (m.resize (asUsize size) mapped)).Invariant := by
    intro s hinv hm
    rcases MemMap.resize_cases m (asUsize size) mapped with
      ⟨error, heq⟩ | heq | ⟨hyes, hnull, hle, heq⟩
    · rw [heq]
      exact hkept s hinv hm error
    · rw [heq]
      -- The mapping is lost, and the error is posted for it.
      have hlost : ((s.postError pool .mremapFailed).setPool pool ⟨0, true⟩).Invariant := by
        refine hinv.postError.setPool (by simp) (fun _ => ⟨rfl, _, List.mem_append_right _
          (List.mem_singleton.mpr rfl)⟩) fun _ _ hfalse => by cases hfalse
      exact hlost
    · rw [heq]
      have hbound := hmapped hyes
      refine hinv.setPool ?_ (fun hfalse => by cases hfalse) fun n hn _ => ?_
      · simp only [asUsize] at hbound ⊢
        omega
      · obtain rfl : m = n := Option.some.inj (hm.symm.trans hn)
        exact ⟨hnull, hle⟩
  rw [Shm.resize] at hs
  split at hs
  · cases hs
  · cases hs
    split
    · exact hresized _ hinv.postError hm
    · exact hresized _ hinv hm

private theorem step (hinv : s.Invariant) (hstep : system.step s r s') : s'.Invariant := by
  cases r with
  | createPool pool size mapped =>
    obtain ⟨⟨hnew, hsize⟩, hs⟩ := hstep
    cases hs
    exact hinv.createPool hnew hsize
  | createBuffer pool data =>
    obtain ⟨m, hm, hs⟩ := Option.bind_eq_some_iff.mp hstep.2
    exact hinv.createBuffer hm hs
  | resize pool size mapped =>
    obtain ⟨⟨-, hlow, hhigh, hmapped⟩, hs⟩ := hstep
    obtain ⟨m, hm, hs⟩ := Option.bind_eq_some_iff.mp hs
    exact hinv.resize hm hlow hhigh hmapped hs

private theorem of_run (hrun : system.Run h s) : s.Invariant := by
  have hstart : Shm.new.Invariant :=
    ⟨fun p m hm => (by cases hm), fun p m hm => (by cases hm), fun b hb => (by cases hb)⟩
  exact hrun.invariant (I := fun _ s => s.Invariant) hstart fun _ _ _ _ _ hinv hstep =>
    hinv.step hstep

end Invariant

def filling : List ShmRequest :=
  [.createPool 0 16384 true, .createBuffer 0 ⟨0, 64, 64, 256, .argb8888⟩]

def filled : Shm :=
  { pools := Function.update (fun _ => none) 0 (some ⟨16384, false⟩)
    buffers := [(0, ⟨0, 64, 64, 256, .argb8888⟩)]
    errors := [] }

private theorem run_filled : system.Run filling filled := by
  have hpool : system.step .new (.createPool 0 16384 true)
      { Shm.new with pools := Function.update (fun _ => none) 0 (some ⟨16384, false⟩) } :=
    ⟨⟨rfl, by decide⟩, rfl⟩
  have hbuffer : system.step
      { Shm.new with pools := Function.update (fun _ => none) 0 (some ⟨16384, false⟩) }
      (.createBuffer 0 ⟨0, 64, 64, 256, .argb8888⟩) filled :=
    ⟨⟨rfl, by decide, by decide, by decide, by decide⟩, rfl⟩
  exact (Path.single hpool).snoc hbuffer

/-- The one request that the compositor does not survive: a pool resized to nothing. The error is
posted, and then the size is used. -/
theorem crash_iff (hrun : system.Run h s) (hvalid : s.Valid r) :
    s.request r = none ↔ ∃ pool mapped, r = .resize pool 0 mapped := by
  have hinv := Invariant.of_run hrun
  cases r with
  | createPool pool size mapped =>
    exact iff_of_false (Option.some_ne_none _) fun ⟨_, _, h⟩ => by cases h
  | createBuffer pool data =>
    obtain ⟨m, hm⟩ := Option.isSome_iff_exists.mp hvalid.1
    obtain ⟨result, hresult, -⟩ := checkBuffer_eq data (hinv.size pool m hm)
    refine iff_of_false ?_ fun ⟨_, _, h⟩ => by cases h
    simp [request, hm, createBuffer, hresult]
  | resize pool size mapped =>
    obtain ⟨hsome, hlow, hhigh, -⟩ := hvalid
    obtain ⟨m, hm⟩ := Option.isSome_iff_exists.mp hsome
    have hzero : s.request (.resize pool size mapped) = none ↔ asUsize size = 0 := by
      simp [request, hm, resize]
    rw [hzero, asUsize_eq_zero_iff hlow hhigh]
    constructor
    · rintro rfl
      exact ⟨pool, mapped, rfl⟩
    · rintro ⟨_, _, h⟩
      cases h
      rfl

theorem crash_iff_of_filled : filled.request (.resize 0 0 true) = none ↔
    ∃ pool mapped, ShmRequest.resize 0 0 true = .resize pool 0 mapped :=
  crash_iff run_filled ⟨rfl, by decide, by decide, fun _ => by decide⟩

/-- A buffer that was accepted lies in its pool for good, so the renderer reads inside of it and its
assertion holds, unless a later resize lost the mapping, and then its client was sent an error. -/
theorem inside_of_run (hrun : system.Run h s) (hmem : (pool, data) ∈ s.buffers) :
    ∃ m, s.pools pool = some m ∧ consistent data m.size = some !m.isNull ∧
      (m.isNull = true → ∃ error, (pool, error) ∈ s.errors) ∧
      (m.isNull = false → ∀ row column : Int, 0 ≤ row → row < data.height → 0 ≤ column →
        column < data.width * 4 → 0 ≤ data.offset + row * data.stride + column ∧
          data.offset + row * data.stride + column < m.size) := by
  have hinv := Invariant.of_run hrun
  obtain ⟨hformat, m, size, hm, hsize, hinside, hle⟩ := hinv.inside (pool, data) hmem
  have hinside : data.Inside size := hinside
  have hpixel : wlBytesPerPixel data.format = 4 := by
    simp only [formats, List.mem_cons, List.not_mem_nil, or_false] at hformat
    rcases hformat with hformat | hformat <;> rw [hformat] <;> rfl
  obtain ⟨stop, hpos, hstop, hconsistent⟩ := consistent_eq m.size hinside hsize hpixel
  refine ⟨m, hm, hconsistent.trans ?_, fun hnull => (hinv.lost pool m hm hnull).2, ?_⟩
  · cases hnull : m.isNull with
    | true =>
      rw [(hinv.lost pool m hm hnull).1]
      simp [hpos]
    | false =>
      have hfits : stop ≤ m.size := hstop.trans (by exact_mod_cast hle hnull)
      simp [hfits]
  · intro hnull row column hrow hrow' hcolumn hcolumn'
    have hfits : (size : Int) ≤ m.size := by exact_mod_cast hle hnull
    obtain ⟨hlow, hhigh⟩ := pixel_inside hinside hpixel hrow hrow' hcolumn hcolumn'
    exact ⟨hlow, hhigh.trans_le hfits⟩

theorem inside_of_filled : ∃ m, filled.pools 0 = some m ∧
    consistent ⟨0, 64, 64, 256, .argb8888⟩ m.size = some !m.isNull ∧
    (m.isNull = true → ∃ error, (0, error) ∈ filled.errors) ∧
    (m.isNull = false → ∀ row column : Int, 0 ≤ row → row < 64 → 0 ≤ column → column < 64 * 4 →
      0 ≤ 0 + row * 256 + column ∧ 0 + row * 256 + column < m.size) :=
  inside_of_run run_filled (List.mem_singleton.mpr rfl)

end Shm

end LocalDesktop.Smithay
