/- GID: LocalDesktop/Smithay/Space
   generality: G
   digest: Outputs of the compositor and the space they are mapped in. -/

import Mathlib.Data.Rat.Floor

set_option autoImplicit false
set_option relaxedAutoImplicit false

namespace LocalDesktop.Smithay

/-- A point, of the window in physical pixels or of the compositor space in logical ones. -/
@[ext] structure Point where
  x : ℚ
  y : ℚ
  deriving DecidableEq

instance : Zero Point := ⟨⟨0, 0⟩⟩

instance : Sub Point := ⟨fun p q => ⟨p.x - q.x, p.y - q.y⟩⟩

@[simp] theorem Point.sub_origin (p : Point) : p - 0 = p := by
  apply Point.ext
  · exact sub_zero p.x
  · exact sub_zero p.y

structure Size where
  w : Int
  h : Int
  deriving DecidableEq

structure Rectangle where
  loc : Int × Int
  size : Size
  deriving DecidableEq

def Rectangle.contains (r : Rectangle) (point : Int × Int) : Bool :=
  decide (r.loc.1 ≤ point.1) && decide (point.1 < r.loc.1 + r.size.w) &&
    (decide (r.loc.2 ≤ point.2) && decide (point.2 < r.loc.2 + r.size.h))

structure Mode where
  size : Size
  refresh : Int
  deriving DecidableEq

inductive Scale
  | integer (scale : Int)
  | fractional (scale : ℚ)
  deriving DecidableEq

def Scale.fractionalScale : Scale → ℚ
  | .integer scale => scale
  | .fractional scale => scale

/-- An output is a shared object: `identity` stands for its address. Its transform is always the
normal one. -/
structure Output where
  identity : Nat
  currentMode : Option Mode
  scale : Scale
  -- In the space it is mapped in.
  location : Int × Int
  deriving DecidableEq

def Output.new (identity : Nat) : Output := ⟨identity, none, .integer 1, (0, 0)⟩

def Output.changeCurrentState (o : Output) (mode : Option Mode) (scale : Option Scale) : Output :=
  { o with currentMode := mode <|> o.currentMode, scale := scale.getD o.scale }

/-- From physical to logical pixels, rounded up. -/
def Size.toLogicalCeil (size : Size) (scale : ℚ) : Size := ⟨⌈size.w / scale⌉, ⌈size.h / scale⌉⟩

structure Space where
  outputs : List Output
  deriving DecidableEq

def Space.isMapped (space : Space) (o : Output) : Bool :=
  space.outputs.any fun other => other.identity == o.identity

def Space.mapOutput (space : Space) (o : Output) (location : Int × Int) : Space :=
  if space.isMapped o then
    ⟨space.outputs.map fun other =>
      if other.identity = o.identity then { other with location := location } else other⟩
  else
    ⟨space.outputs ++ [{ o with location := location }]⟩

def Space.outputGeometry (space : Space) (o : Output) : Option Rectangle :=
  if space.isMapped o then
    o.currentMode.map fun mode => ⟨o.location, mode.size.toLogicalCeil o.scale.fractionalScale⟩
  else
    none

def Space.geometries (space : Space) : Option (List Rectangle) :=
  space.outputs.mapM space.outputGeometry

variable {space : Space} {o : Output}

theorem Space.isMapped_of_mem (ho : o ∈ space.outputs) : space.isMapped o = true :=
  List.any_eq_true.mpr ⟨o, ho, beq_self_eq_true _⟩

theorem Space.mapOutput_new (hnew : ∀ other ∈ space.outputs, other.identity ≠ o.identity)
    (location : Int × Int) :
    space.mapOutput o location = ⟨space.outputs ++ [{ o with location := location }]⟩ := by
  have hnot : space.isMapped o = false := by
    rw [Space.isMapped, List.any_eq_false]
    intro other hmem
    simpa using hnew other hmem
  simp [Space.mapOutput, hnot]

theorem Space.geometries_single {mode : Mode} (hspace : space.outputs = [o])
    (hmode : o.currentMode = some mode) :
    space.geometries =
      some [⟨o.location, mode.size.toLogicalCeil o.scale.fractionalScale⟩] := by
  have hmapped : space.isMapped o = true := Space.isMapped_of_mem (by simp [hspace])
  simp [Space.geometries, hspace, Space.outputGeometry, hmapped, hmode]

end LocalDesktop.Smithay
