/- GID: LocalDesktop/Android/Backend/Wayland/ScreenLimits
   generality: G
   digest: Where clamp_coords keeps the pointer on the screen, with outputs side by side. -/

import LocalDesktop.Android.Backend.Wayland.EventHandler
import LocalDesktop.Smithay.Row
import Mathlib.Tactic.Linarith

set_option autoImplicit false
set_option relaxedAutoImplicit false

namespace LocalDesktop.Android.Backend.Wayland

open Smithay

/-- A point is clamped to the screen, kept if it is there, and not moved again. -/
def ClampedToScreen (space : Space) (geometries : List Rectangle) (pos : Point) : Prop :=
  ∃ place, clampCoords space pos = some place ∧ (∃ geo ∈ geometries, geo.Holds place) ∧
    ((∃ geo ∈ geometries, geo.Holds pos) → place = pos) ∧ clampCoords space place = some place

/-- The lookup finds no output at the end of the row, and the next one at the right edge of an
output: a point there must be within the height of the last, or of the next one. -/
structure WithinHeights (geometries : List Rectangle) (pos : Point) : Prop where
  atEnd : ∀ geo ∈ geometries, geo.right = widths geometries → geo.right ≤ pos.x →
    0 ≤ pos.y ∧ pos.y ≤ geo.size.h
  atEdge : ∀ geo ∈ geometries, ∀ next ∈ geometries, geo.right = next.loc.1 → pos.x = geo.right →
    pos.y ≤ geo.size.h → pos.y ≤ next.size.h

variable {space : Space} {geometries : List Rectangle} {geo : Rectangle} {pos : Point}
  {x lower upper : ℚ}

private theorem le_clamp : lower ≤ clamp x lower upper := le_max_left _ _

private theorem clamp_le (h : lower ≤ upper) : clamp x lower upper ≤ upper := max_le h
    (min_le_right _ _)

private theorem clamp_of_mem (hl : lower ≤ x) (hu : x ≤ upper) : clamp x lower upper = x := by
  rw [clamp, min_eq_left hu, max_eq_right hl]

private theorem clamp_of_upper_le (h : lower ≤ upper) (hu : upper ≤ x) :
    clamp x lower upper = upper := by
  rw [clamp, min_eq_right hu, max_eq_right h]

private theorem clamp_lt (h : lower < upper) (hx : x < upper) : clamp x lower upper < upper :=
  max_lt h (min_lt_of_left_lt hx)

private theorem maxX_eq_widths (geometries : List Rectangle) :
    maxX geometries = widths geometries := by
  have hfold : ∀ acc, geometries.foldl (fun acc geo => acc + geo.size.w) acc =
      acc + widths geometries := by
    induction geometries with
    | nil => exact fun acc => (Int.add_zero acc).symm
    | cons geo rest ih =>
      intro acc
      rw [List.foldl_cons, ih, widths_cons, Int.add_assoc]
  rw [maxX, hfold, Int.zero_add]

private theorem asI32_eq_floor (hx : 0 ≤ x) (hlt : x < 2 ^ 31) : asI32 x = ⌊x⌋ := by
  have hnonneg : 0 ≤ ⌊x⌋ := Int.floor_nonneg.mpr hx
  have hfloor : ⌊x⌋ < 2 ^ 31 := by
    rw [Int.floor_lt]
    exact_mod_cast hlt
  rw [asI32, if_pos hx]
  omega

private theorem floor_spans : geo.Spans ⌊x⌋ ↔ geo.loc.1 ≤ x ∧ x < geo.right := by
  rw [Rectangle.Spans, Int.le_floor, Int.floor_lt]

private theorem contains_iff {column : Int} (htop : geo.loc.2 = 0) (hh : 0 < geo.size.h) :
    geo.contains (column, 0) = true ↔ geo.Spans column := by
  simp only [Rectangle.contains, Rectangle.Spans, Rectangle.right, htop, Bool.and_eq_true,
    decide_eq_true_eq]
  omega

private theorem geometries_ne_nil (hspace : space.geometries = some geometries)
    (houtputs : space.outputs ≠ []) : geometries ≠ [] := by
  rintro rfl
  rw [Space.geometries] at hspace
  cases houtput : space.outputs with
  | nil => exact houtputs houtput
  | cons output rest =>
    simp [houtput, List.mapM_cons, Option.bind_eq_some_iff] at hspace

section Row

variable (hspace : space.geometries = some geometries) (houtputs : space.outputs ≠ [])
  (hside : SideBySide geometries)
include hspace houtputs hside

private theorem clampCoords_of_lt (hx : pos.x < widths geometries) :
    ∃ geo ∈ geometries, (geo.loc.1 ≤ clamp pos.x 0 (widths geometries) ∧
        clamp pos.x 0 (widths geometries) < geo.right) ∧
      clampCoords space pos =
        some ⟨clamp pos.x 0 (widths geometries), clamp pos.y 0 geo.size.h⟩ := by
  have hpos : (0 : ℚ) < widths geometries :=
    Int.cast_pos.mpr (hside.widths_pos (geometries_ne_nil hspace houtputs))
  have hlow : 0 ≤ clamp pos.x 0 (widths geometries) := le_clamp
  have hhigh := clamp_lt hpos hx
  have hfits : ((widths geometries : Int) : ℚ) < 2 ^ 31 := by exact_mod_cast hside.fits
  have hcolumn := asI32_eq_floor hlow (hhigh.trans hfits)
  have hlookup : ∃ geo ∈ geometries, geo.contains (⌊clamp pos.x 0 (widths geometries)⌋, 0) = true := by
    obtain ⟨geo, hgeo, hspans⟩ :=
      hside.cover (Int.floor_nonneg.mpr hlow) (Int.floor_lt.mpr hhigh)
    obtain ⟨htop, -, hh, -, -⟩ := hside.mem hgeo
    exact ⟨geo, hgeo, (contains_iff htop hh).mpr hspans⟩
  obtain ⟨geo, hfind⟩ := Option.isSome_iff_exists.mp (List.find?_isSome.mpr hlookup)
  have hgeo := List.mem_of_find?_eq_some hfind
  obtain ⟨htop, -, hh, -, -⟩ := hside.mem hgeo
  have hcontains : geo.contains (⌊clamp pos.x 0 (widths geometries)⌋, 0) = true := by
    simpa using List.find?_some hfind
  refine ⟨geo, hgeo, floor_spans.mp ((contains_iff htop hh).mp hcontains), ?_⟩
  rw [clampCoords, if_neg houtputs]
  simp [hspace, maxX_eq_widths, hcolumn, hfind]

private theorem clampCoords_of_le (hx : widths geometries ≤ pos.x) :
    clampCoords space pos = some ⟨widths geometries, pos.y⟩ := by
  have hpos := hside.widths_pos (geometries_ne_nil hspace houtputs)
  have hclamp : clamp pos.x 0 (widths geometries) = widths geometries :=
    clamp_of_upper_le (Int.cast_nonneg hpos.le) hx
  have hfits : ((widths geometries : Int) : ℚ) < 2 ^ 31 := by exact_mod_cast hside.fits
  have hcolumn : asI32 (widths geometries) = widths geometries := by
    rw [asI32_eq_floor (Int.cast_nonneg hpos.le) hfits, Int.floor_intCast]
  have hnone : geometries.find? (fun geo => geo.contains (widths geometries, 0)) = none := by
    rw [List.find?_eq_none]
    intro geo hgeo hcontains
    obtain ⟨htop, -, hh, -, hright⟩ := hside.mem hgeo
    have hspans := (contains_iff htop hh).mp hcontains
    exact absurd hspans.2 (not_lt.mpr hright)
  rw [clampCoords, if_neg houtputs]
  simp [hspace, maxX_eq_widths, hclamp, hcolumn, hnone]

omit hspace houtputs in
/-- A point of an output is in the looked-up output, or at the edge before it. -/
private theorem low_of_holds (hgeo : geo ∈ geometries)
    (hspan : geo.loc.1 ≤ pos.x ∧ pos.x < geo.right)
    (hwithin : WithinHeights geometries pos) {other : Rectangle} (hother : other ∈ geometries)
    (hholds : other.Holds pos) : 0 ≤ pos.y ∧ pos.y ≤ geo.size.h := by
  obtain ⟨htop, -, -, -, -⟩ := hside.mem hother
  have hlow : pos.y ≤ other.size.h := by simpa [htop] using hholds.bottom
  refine ⟨by simpa [htop] using hholds.top, ?_⟩
  rcases hside.apart hgeo hother with rfl | hbefore | hafter
  · exact hlow
  · have hle : (geo.right : ℚ) ≤ other.loc.1 := Int.cast_le.mpr hbefore
    exact absurd hspan.2 (not_lt.mpr (hle.trans hholds.left))
  · have hle : (other.right : ℚ) ≤ geo.loc.1 := Int.cast_le.mpr hafter
    have hat : pos.x = other.right := le_antisymm hholds.right (hle.trans hspan.1)
    have hedge : geo.loc.1 ≤ other.right := Int.cast_le.mp (hspan.1.trans hat.le)
    exact hwithin.atEdge other hother geo hgeo (le_antisymm hafter hedge) hat hlow

private theorem withinHeights_of_lt (hx : pos.x < widths geometries)
    (hclamped : ClampedToScreen space geometries pos) : WithinHeights geometries pos := by
  obtain ⟨geo, hgeo, hspan, hclamp⟩ := clampCoords_of_lt hspace houtputs hside hx
  obtain ⟨place, hplace, -, hkeep, -⟩ := hclamped
  obtain rfl := Option.some.inj (hclamp.symm.trans hplace)
  refine ⟨fun last _ hlast hle => ?_, fun edge hedge next hnext hadjacent hat hlow => ?_⟩
  · rw [hlast] at hle
    exact absurd hx (not_lt.mpr hle)
  · obtain ⟨hedgeTop, hedgeW, -, -, -⟩ := hside.mem hedge
    obtain ⟨-, hnextW, hnextH, -, -⟩ := hside.mem hnext
    have hnextH' : (0 : ℚ) ≤ next.size.h := Int.cast_nonneg hnextH.le
    rcases le_total pos.y 0 with hneg | hy
    · exact hneg.trans hnextH'
    · have hleft : (edge.loc.1 : ℚ) ≤ edge.right := Int.cast_le.mpr (by rw [Rectangle.right]; omega)
      have hholds : edge.Holds pos :=
        ⟨hat ▸ hleft, hat.le, by rwa [hedgeTop, Int.cast_zero],
          by rwa [hedgeTop, Int.cast_zero, zero_add]⟩
      have hsame := hkeep ⟨edge, hedge, hholds⟩
      have hsameX : clamp pos.x 0 (widths geometries) = pos.x := congrArg Point.x hsame
      have hsameY : clamp pos.y 0 geo.size.h = pos.y := congrArg Point.y hsame
      have hstart : pos.x = next.loc.1 := by rw [hat, hadjacent]
      have hinside : (next.loc.1 : ℚ) < next.right := Int.cast_lt.mpr (by rw [Rectangle.right]; omega)
      have hnextSpan : next.loc.1 ≤ pos.x ∧ pos.x < next.right := ⟨hstart.ge, hstart ▸ hinside⟩
      rw [hsameX] at hspan
      obtain rfl := hside.unique hgeo hnext hspan hnextSpan
      rw [← hsameY]
      exact clamp_le hnextH'

private theorem clampedToScreen_of_lt (hx : pos.x < widths geometries)
    (hwithin : WithinHeights geometries pos) : ClampedToScreen space geometries pos := by
  obtain ⟨geo, hgeo, hspan, hclamp⟩ := clampCoords_of_lt hspace houtputs hside hx
  obtain ⟨htop, -, hh, -, hright⟩ := hside.mem hgeo
  have hh' : (0 : ℚ) ≤ geo.size.h := Int.cast_nonneg hh.le
  have hright' : (geo.right : ℚ) ≤ widths geometries := Int.cast_le.mpr hright
  refine ⟨_, hclamp, ⟨geo, hgeo, hspan.1, hspan.2.le, ?_, ?_⟩, ?_, ?_⟩
  · rw [htop, Int.cast_zero]
    exact le_clamp
  · rw [htop, Int.cast_zero, zero_add]
    exact clamp_le hh'
  · rintro ⟨other, hother, hholds⟩
    obtain ⟨-, -, -, hotherLeft, -⟩ := hside.mem hother
    have hzero : 0 ≤ pos.x := le_trans (Int.cast_nonneg hotherLeft) hholds.left
    have hsameX : clamp pos.x 0 (widths geometries) = pos.x := clamp_of_mem hzero hx.le
    rw [hsameX] at hspan
    obtain ⟨hlow, hhigh⟩ := low_of_holds hside hgeo hspan hwithin hother hholds
    rw [hsameX, clamp_of_mem hlow hhigh]
  · have hagain : clamp (clamp pos.x 0 (widths geometries)) 0 (widths geometries) =
        clamp pos.x 0 (widths geometries) :=
      clamp_of_mem le_clamp (hspan.2.le.trans hright')
    obtain ⟨geo', hgeo', hspan', hclamp'⟩ := @clampCoords_of_lt _ _
      ⟨clamp pos.x 0 (widths geometries), clamp pos.y 0 geo.size.h⟩ hspace houtputs hside
      (hspan.2.trans_le hright')
    dsimp only at hspan' hclamp'
    rw [hagain] at hspan' hclamp'
    rw [hclamp', hside.unique hgeo' hgeo hspan' hspan, clamp_of_mem le_clamp (clamp_le hh')]

private theorem withinHeights_of_le (hx : widths geometries ≤ pos.x)
    (hclamped : ClampedToScreen space geometries pos) : WithinHeights geometries pos := by
  obtain ⟨place, hplace, ⟨geo, hgeo, hholds⟩, -, -⟩ := hclamped
  obtain rfl := Option.some.inj ((clampCoords_of_le hspace houtputs hside hx).symm.trans hplace)
  obtain ⟨htop, hw, -, -, hright⟩ := hside.mem hgeo
  have hend : widths geometries ≤ geo.right := Int.cast_le.mp hholds.right
  refine ⟨fun last hlast hlastEnd _ => ?_, fun edge _ next hnext hadjacent hat _ => ?_⟩
  · rcases hside.apart hlast hgeo with rfl | hbefore | hafter
    · exact ⟨by simpa [htop] using hholds.top, by simpa [htop] using hholds.bottom⟩
    · simp only [Rectangle.right] at hbefore hlastEnd hright
      omega
    · obtain ⟨-, hlastW, -, -, hle⟩ := hside.mem hlast
      simp only [Rectangle.right] at hafter hend hle
      omega
  · obtain ⟨-, hnextW, -, -, hle⟩ := hside.mem hnext
    rw [hat, hadjacent] at hx
    have hlt : widths geometries ≤ next.loc.1 := Int.cast_le.mp hx
    simp only [Rectangle.right] at hle
    omega

private theorem clampedToScreen_of_le (hx : widths geometries ≤ pos.x)
    (hwithin : WithinHeights geometries pos) : ClampedToScreen space geometries pos := by
  obtain ⟨last, hlast, hend⟩ := hside.exists_last (geometries_ne_nil hspace houtputs)
  obtain ⟨htop, hw, -, -, -⟩ := hside.mem hlast
  obtain ⟨hlow, hhigh⟩ := hwithin.atEnd last hlast hend (by rwa [hend])
  refine ⟨_, clampCoords_of_le hspace houtputs hside hx, ⟨last, hlast, ?_, ?_, ?_, ?_⟩, ?_, ?_⟩
  · rw [← hend]
    exact Int.cast_le.mpr (by rw [Rectangle.right]; omega)
  · rw [hend]
  · simpa [htop] using hlow
  · simpa [htop] using hhigh
  · rintro ⟨other, hother, hholds⟩
    obtain ⟨-, -, -, -, hright⟩ := hside.mem hother
    have hle : (other.right : ℚ) ≤ widths geometries := Int.cast_le.mpr hright
    apply Point.ext
    · exact le_antisymm hx (hholds.right.trans hle)
    · rfl
  · exact @clampCoords_of_le _ _ ⟨widths geometries, pos.y⟩ hspace houtputs hside (le_refl _)

/-- A point stays on the screen if and only if it is not left without a height at the end of the
row, or given the height of the next output at the right edge of a higher one. -/
theorem clamp_coords_on_screen_iff :
    ClampedToScreen space geometries pos ↔ WithinHeights geometries pos := by
  rcases lt_or_ge pos.x (widths geometries) with hx | hx
  · exact ⟨withinHeights_of_lt hspace houtputs hside hx,
      clampedToScreen_of_lt hspace houtputs hside hx⟩
  · exact ⟨withinHeights_of_le hspace houtputs hside hx,
      clampedToScreen_of_le hspace houtputs hside hx⟩

end Row

def phoneOutput : Output := ⟨0, some ⟨⟨1080, 2400⟩, 60000⟩, .integer 1, (0, 0)⟩

def phoneSpace : Space := ⟨[phoneOutput]⟩

def phoneRectangle : Rectangle := ⟨(0, 0), ⟨1080, 2400⟩⟩

private theorem geometries_phoneSpace : phoneSpace.geometries = some [phoneRectangle] := by
  have hsize : Size.toLogicalCeil ⟨1080, 2400⟩ (Scale.integer 1).fractionalScale = ⟨1080, 2400⟩ := by
    simp [Size.toLogicalCeil, Scale.fractionalScale]
  have hsingle : phoneSpace.geometries =
      some [⟨(0, 0), Size.toLogicalCeil ⟨1080, 2400⟩ (Scale.integer 1).fractionalScale⟩] :=
    @Space.geometries_single phoneSpace phoneOutput _ rfl rfl
  rw [hsingle, hsize]
  rfl

private theorem sideBySide_phone : SideBySide [phoneRectangle] where
  row := ⟨_, List.Perm.refl _, rfl, by decide, by decide, trivial⟩
  fits := by decide

theorem clamp_coords_beside_the_phone : ClampedToScreen phoneSpace [phoneRectangle] ⟨2000, 100⟩ := by
  refine (clamp_coords_on_screen_iff geometries_phoneSpace (by simp [phoneSpace])
    sideBySide_phone).mpr ⟨fun geo hgeo _ _ => ?_, fun geo hgeo next hnext hadjacent => ?_⟩
  · obtain rfl := List.mem_singleton.mp hgeo
    constructor <;> norm_num [phoneRectangle]
  · obtain rfl := List.mem_singleton.mp hgeo
    obtain rfl := List.mem_singleton.mp hnext
    exact absurd hadjacent (by decide)

/-- Beside and below the screen the pointer stays below it. -/
theorem clamp_coords_leaves_the_phone :
    ¬∀ (space : Space) (geometries : List Rectangle) (pos : Point),
      space.geometries = some geometries → space.outputs ≠ [] → SideBySide geometries →
      ClampedToScreen space geometries pos := by
  intro h
  have houtputs : phoneSpace.outputs ≠ [] := by simp [phoneSpace]
  obtain ⟨place, hplace, ⟨geo, hgeo, hholds⟩, -⟩ :=
    h phoneSpace [phoneRectangle] ⟨1080, 5000⟩ geometries_phoneSpace houtputs sideBySide_phone
  have hclamp := @clampCoords_of_le _ _ ⟨1080, 5000⟩ geometries_phoneSpace houtputs
    sideBySide_phone (by norm_num [widths, phoneRectangle])
  obtain rfl := Option.some.inj (hclamp.symm.trans hplace)
  obtain rfl := List.mem_singleton.mp hgeo
  have hbottom := hholds.bottom
  norm_num [phoneRectangle] at hbottom

end LocalDesktop.Android.Backend.Wayland
