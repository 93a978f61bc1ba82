/- GID: LocalDesktop/Smithay/Row
   generality: G
   digest: Outputs side by side: every column before the end of the row belongs to one of them. -/

import LocalDesktop.Smithay.Space

set_option autoImplicit false
set_option relaxedAutoImplicit false

namespace LocalDesktop.Smithay

def Rectangle.right (geo : Rectangle) : Int := geo.loc.1 + geo.size.w

/-- The column belongs to the rectangle, the right edge left out. -/
def Rectangle.Spans (geo : Rectangle) (column : Int) : Prop :=
  geo.loc.1 ≤ column ∧ column < geo.right

structure Rectangle.Holds (geo : Rectangle) (point : Point) : Prop where
  left : geo.loc.1 ≤ point.x
  right : point.x ≤ geo.right
  top : geo.loc.2 ≤ point.y
  bottom : point.y ≤ geo.loc.2 + geo.size.h

def widths (geometries : List Rectangle) : Int := (geometries.map fun geo => geo.size.w).sum

/-- From left to right, each output with its left edge at the right edge of the one before. -/
def Adjacent : Int → List Rectangle → Prop
  | _, [] => True
  | left, geo :: rest =>
      geo.loc = (left, 0) ∧ 0 < geo.size.w ∧ 0 < geo.size.h ∧ Adjacent (left + geo.size.w) rest

/-- Outputs that lie side by side from `x = 0`, in whatever order they were mapped. The end of the
row is a coordinate, so it is in the range of an `i32`. -/
structure SideBySide (geometries : List Rectangle) : Prop where
  row : ∃ row, geometries.Perm row ∧ Adjacent 0 row
  fits : widths geometries < 2 ^ 31

variable {geometries row : List Rectangle} {geo other : Rectangle} {left column : Int}

theorem widths_cons (geo : Rectangle) (rest : List Rectangle) :
    widths (geo :: rest) = geo.size.w + widths rest := List.sum_cons

private theorem Adjacent.widths_nonneg (hrow : Adjacent left row) : 0 ≤ widths row := by
  induction row generalizing left with
  | nil => exact Int.le_refl 0
  | cons first rest ih =>
    obtain ⟨-, hw, -, hrest⟩ := hrow
    have hwidths := ih hrest
    rw [widths_cons]
    omega

private theorem Adjacent.mem (hrow : Adjacent left row) (hgeo : geo ∈ row) :
    geo.loc.2 = 0 ∧ 0 < geo.size.w ∧ 0 < geo.size.h ∧ left ≤ geo.loc.1 ∧
      geo.right ≤ left + widths row := by
  induction row generalizing left with
  | nil => cases hgeo
  | cons first rest ih =>
    obtain ⟨hloc, hw, hh, hrest⟩ := hrow
    have hwidths := hrest.widths_nonneg
    rw [widths_cons]
    rcases List.mem_cons.mp hgeo with rfl | hgeo
    · refine ⟨congrArg Prod.snd hloc, hw, hh, ?_, ?_⟩
      · rw [hloc]
      · rw [Rectangle.right, hloc]
        omega
    · obtain ⟨htop, hw', hh', hleft, hright⟩ := ih hrest hgeo
      exact ⟨htop, hw', hh', by omega, by omega⟩

private theorem Adjacent.cover (hrow : Adjacent left row) (hleft : left ≤ column)
    (hright : column < left + widths row) : ∃ geo ∈ row, geo.Spans column := by
  induction row generalizing left with
  | nil =>
    simp only [widths, List.map_nil, List.sum_nil] at hright
    omega
  | cons first rest ih =>
    obtain ⟨hloc, -, -, hrest⟩ := hrow
    rw [widths_cons] at hright
    by_cases hfirst : column < left + first.size.w
    · refine ⟨first, List.mem_cons_self, ?_, ?_⟩
      · rw [hloc]
        exact hleft
      · rw [Rectangle.right, hloc]
        exact hfirst
    · obtain ⟨geo, hgeo, hspans⟩ := ih hrest (by omega) (by omega)
      exact ⟨geo, List.mem_cons_of_mem _ hgeo, hspans⟩

private theorem Adjacent.apart (hrow : Adjacent left row) (hgeo : geo ∈ row)
    (hother : other ∈ row) :
    geo = other ∨ geo.right ≤ other.loc.1 ∨ other.right ≤ geo.loc.1 := by
  induction row generalizing left with
  | nil => cases hgeo
  | cons first rest ih =>
    obtain ⟨hloc, -, -, hrest⟩ := hrow
    have hafter : ∀ later ∈ rest, first.right ≤ later.loc.1 := by
      intro later hlater
      obtain ⟨-, -, -, hleft, -⟩ := hrest.mem hlater
      rwa [Rectangle.right, hloc]
    rcases List.mem_cons.mp hgeo with hfirst | hgeo' <;>
      rcases List.mem_cons.mp hother with hfirst' | hother'
    · exact Or.inl (hfirst.trans hfirst'.symm)
    · exact Or.inr (Or.inl (hfirst ▸ hafter other hother'))
    · exact Or.inr (Or.inr (hfirst' ▸ hafter geo hgeo'))
    · exact ih hrest hgeo' hother'

private theorem widths_perm (hperm : geometries.Perm row) : widths geometries = widths row :=
  (hperm.map _).sum_eq

namespace SideBySide

variable (hside : SideBySide geometries)
include hside

theorem mem (hgeo : geo ∈ geometries) :
    geo.loc.2 = 0 ∧ 0 < geo.size.w ∧ 0 < geo.size.h ∧ 0 ≤ geo.loc.1 ∧
      geo.right ≤ widths geometries := by
  obtain ⟨row, hperm, hrow⟩ := hside.row
  have hmem := hrow.mem (hperm.mem_iff.mp hgeo)
  rwa [Int.zero_add, ← widths_perm hperm] at hmem

theorem cover (hleft : 0 ≤ column) (hright : column < widths geometries) :
    ∃ geo ∈ geometries, geo.Spans column := by
  obtain ⟨row, hperm, hrow⟩ := hside.row
  rw [widths_perm hperm] at hright
  obtain ⟨geo, hgeo, hspans⟩ := hrow.cover hleft (by omega)
  exact ⟨geo, hperm.mem_iff.mpr hgeo, hspans⟩

theorem apart (hgeo : geo ∈ geometries) (hother : other ∈ geometries) :
    geo = other ∨ geo.right ≤ other.loc.1 ∨ other.right ≤ geo.loc.1 := by
  obtain ⟨row, hperm, hrow⟩ := hside.row
  exact hrow.apart (hperm.mem_iff.mp hgeo) (hperm.mem_iff.mp hother)

theorem unique (hgeo : geo ∈ geometries) (hother : other ∈ geometries) {x : ℚ}
    (hx : geo.loc.1 ≤ x ∧ x < geo.right) (hx' : other.loc.1 ≤ x ∧ x < other.right) :
    geo = other := by
  rcases hside.apart hgeo hother with heq | hbefore | hafter
  · exact heq
  · have hle : (geo.right : ℚ) ≤ other.loc.1 := Int.cast_le.mpr hbefore
    exact absurd hx.2 (not_lt.mpr (hle.trans hx'.1))
  · have hle : (other.right : ℚ) ≤ geo.loc.1 := Int.cast_le.mpr hafter
    exact absurd hx'.2 (not_lt.mpr (hle.trans hx.1))

theorem widths_pos (hne : geometries ≠ []) : 0 < widths geometries := by
  obtain ⟨geo, hgeo⟩ := List.exists_mem_of_ne_nil _ hne
  obtain ⟨-, hw, -, hleft, hright⟩ := hside.mem hgeo
  simp only [Rectangle.right] at hright
  omega

theorem exists_last (hne : geometries ≠ []) : ∃ geo ∈ geometries, geo.right = widths geometries := by
  have hpos := hside.widths_pos hne
  obtain ⟨geo, hgeo, -, hright⟩ := @cover _ (widths geometries - 1) hside (by omega) (by omega)
  obtain ⟨-, -, -, -, hle⟩ := hside.mem hgeo
  exact ⟨geo, hgeo, by omega⟩

end SideBySide

end LocalDesktop.Smithay
