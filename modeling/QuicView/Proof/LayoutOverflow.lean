import QuicView.Library.Checked
import QuicView.Library.Execution
import QuicView.Proof.UniformWall

namespace QuicView

open Checked Execution

theorem computes_cast {op : Int32 → Option Int32} {size : UInt32} {safe : Prop} {value : Int32}
    (hop : size.toInt32.toInt = size.toNat → Computes (op size.toInt32) safe value) :
    Computes (size.checkedToInt32 >>= op) (size.toNat < 2 ^ 31 ∧ safe) value := by
  apply Computes.bind .ite
  intro hsize
  apply hop
  rw [UInt32.toInt_toInt32, Int.bmod_eq_of_fits ⟨by omega, by omega⟩]

namespace DisplayLayout

def spanChecked (entries : List DisplayEntry) (start : DisplayEntry → Int32)
    (size : DisplayEntry → UInt32) : Option (Int32 × UInt32) := do
  let lo := (entries.map start).min?.getD 0
  let ends ← entries.mapM fun e => do
    let width ← (size e).checkedToInt32
    (start e).checkedAdd width
  let hi := ends.max?.getD 0
  let extent ← hi.checkedSub lo
  some (lo, extent.toUInt32)

/-- `boundingBox` with its operations checked. -/
def boundingBoxChecked (layout : DisplayLayout) : Option (Int32 × Int32 × UInt32 × UInt32) :=
  if layout.entries.isEmpty then some (0, 0, 0, 0)
  else do
    let across ← spanChecked layout.entries (fun e => e.x) fun e => e.resolution.width
    let down ← spanChecked layout.entries (fun e => e.y) fun e => e.resolution.height
    some (across.1, down.1, across.2, down.2)

theorem computes_end (start : Int32) (size : UInt32) :
    Computes (size.checkedToInt32 >>= fun width => start.checkedAdd width)
      (size.toNat < 2 ^ 31 ∧ start.toInt + size.toNat < 2 ^ 31) (start + size.toInt32) := by
  apply computes_cast
  intro hcast
  apply Computes.ite.congr
  rw [hcast]
  have hle := start.le_toInt
  constructor
  · exact And.right
  · exact fun hlt => ⟨by omega, hlt⟩

theorem computes_span {entries : List DisplayEntry} (hne : entries ≠ [])
    (start : DisplayEntry → Int32) (size : DisplayEntry → UInt32) :
    Computes (spanChecked entries start size)
      ((∀ e ∈ entries, (start e).toInt + (size e).toNat < 2 ^ 31)
        ∧ ∀ e ∈ entries, ∀ f ∈ entries,
          (start e).toInt + (size e).toNat - (start f).toInt < 2 ^ 31)
      (span entries start size) := by
  have hends := Computes.mapM (fun e => computes_end (start e) (size e)) entries
  have hextent : Computes ((span.hi entries start size).checkedSub (span.lo entries start)) _ _ :=
    .ite
  have haxis := hextent.map fun extent => (span.lo entries start, extent.toUInt32)
  have hspan : Computes (spanChecked entries start size) (_ ∧ _) (span entries start size) :=
    hends.bind fun _ => haxis
  apply hspan.congr
  constructor
  · rintro ⟨hsums, -, hlt⟩
    have hsums' := fun e hmem => (hsums e hmem).2
    refine ⟨hsums', ?_⟩
    have hhull := isHull_ends hne hsums'
    intro e hmem f hmem'
    rw [← Int.le_sub_one_iff]
    exact (hhull.extent_le_iff _).mp (Int.le_sub_one_iff.mpr hlt) e hmem f hmem'
  · rintro ⟨hsums, hextents⟩
    have hhull := isHull_ends hne hsums
    obtain ⟨e, hmem⟩ := List.exists_mem_of_ne_nil entries hne
    have hlower := hhull.lower.1 (Set.mem_image_of_mem _ hmem)
    have hupper := hhull.upper.1 (Set.mem_image_of_mem _ hmem)
    refine ⟨?_, ?_, ?_⟩
    · intro e hmem
      have hsize := hextents e hmem e hmem
      exact ⟨by omega, hsums e hmem⟩
    · omega
    · rw [← Int.le_sub_one_iff, hhull.extent_le_iff]
      exact fun e hmem f hmem' => Int.le_sub_one_iff.mpr (hextents e hmem f hmem')

theorem computes_boundingBox (layout : DisplayLayout) :
    Computes layout.boundingBoxChecked layout.Fits layout.boundingBox := by
  by_cases hne : layout.entries = []
  · rw [boundingBoxChecked, boundingBox, hne]
    apply (Computes.pure _).congr
    constructor
    · intro _
      constructor <;> simp [hne]
    · exact fun _ => trivial
  · rw [boundingBoxChecked, boundingBox_eq hne, if_neg (mt List.isEmpty_iff.mp hne)]
    have hacross := computes_span hne (fun e => e.x) fun e => e.resolution.width
    have hdown := computes_span hne (fun e => e.y) fun e => e.resolution.height
    set across := span layout.entries (fun e => e.x) fun e => e.resolution.width
    set down := span layout.entries (fun e => e.y) fun e => e.resolution.height
    have hbox := hdown.map fun down => (across.1, down.1, across.2, down.2)
    refine Computes.congr (Computes.bind hacross fun _ => hbox) ?_
    constructor
    · rintro ⟨⟨hright, hwidth⟩, hbottom, hheight⟩
      exact ⟨hright, hbottom, hwidth, hheight⟩
    · rintro ⟨hright, hbottom, hwidth, hheight⟩
      exact ⟨⟨hright, hwidth⟩, hbottom, hheight⟩

end DisplayLayout

namespace DisplayWall

def scaleChecked (index : Int32) (pitch : UInt32) : Option Int32 := do
  let size ← pitch.checkedToInt32
  index.checkedMul size

def entryChecked (c : WallClient) : Option DisplayEntry := do
  let x ← scaleChecked c.gridX c.resolution.width
  let y ← scaleChecked c.gridY c.resolution.height
  some { displayId := c.displayId, x := x, y := y, resolution := c.resolution }

def layoutChecked (wall : DisplayWall) : Option DisplayLayout := do
  let entries ← wall.values.mapM entryChecked
  some ⟨entries⟩

theorem computes_scale (index : Int32) (pitch : UInt32) :
    Computes (scaleChecked index pitch)
      (pitch.toNat < 2 ^ 31 ∧ FitsI32 (index.toInt * pitch.toNat)) (index * pitch.toInt32) := by
  apply computes_cast
  intro hcast
  apply Computes.ite.congr
  rw [hcast]

theorem computes_entry (c : WallClient) :
    Computes (entryChecked c)
      ((c.resolution.width.toNat < 2 ^ 31 ∧ FitsI32 (c.place.1 * c.size.1))
        ∧ c.resolution.height.toNat < 2 ^ 31 ∧ FitsI32 (c.place.2 * c.size.2)) (entry c) := by
  have hrest := (computes_scale c.gridY c.resolution.height).map fun y =>
    DisplayEntry.mk c.displayId (c.gridX * c.resolution.width.toInt32) y c.resolution
  exact Computes.bind (computes_scale c.gridX c.resolution.width) fun _ => hrest

theorem computes_layout (wall : DisplayWall) :
    Computes wall.layoutChecked
      (∀ c ∈ wall.values, (c.resolution.width.toNat < 2 ^ 31 ∧ FitsI32 (c.place.1 * c.size.1))
        ∧ c.resolution.height.toNat < 2 ^ 31 ∧ FitsI32 (c.place.2 * c.size.2)) wall.layout :=
  (Computes.mapM computes_entry wall.values).map DisplayLayout.mk

theorem layout_and_box_iff (wall : DisplayWall) :
    (wall.layoutChecked = some wall.layout
        ∧ wall.layout.boundingBoxChecked = some wall.layout.boundingBox)
      ↔ (∀ client ∈ wall.values, client.Fits) ∧ wall.ExtentsFit := by
  rw [wall.computes_layout.eq_some_iff, wall.layout.computes_boundingBox.eq_some_iff]
  constructor
  · rintro ⟨hentries, hfits⟩
    exact (layout_fits_iff fun c hmem => ⟨(hentries c hmem).1.2, (hentries c hmem).2.2⟩).mp hfits
  · rintro ⟨hfits, hextents⟩
    refine ⟨?_, ?_⟩
    · intro c hmem
      have hwidth := hextents.width c hmem c hmem
      have hheight := hextents.height c hmem c hmem
      rw [add_sub_cancel_left] at hwidth hheight
      exact ⟨⟨Int.ofNat_lt.mp hwidth, (hfits c hmem).left⟩, Int.ofNat_lt.mp hheight,
        (hfits c hmem).top⟩
    · apply (layout_fits_iff ?_).mpr ⟨hfits, hextents⟩
      exact fun c hmem => ⟨(hfits c hmem).left, (hfits c hmem).top⟩

/-- **Where the layout arithmetic stays in range.** It goes through with every operation checked
exactly if edges and extents fit the signed words, and for a wall the products do. -/
theorem layout_in_range_iff (layout : DisplayLayout) (calls : List Call) :
    let wall := run step .new calls
    (layout.boundingBoxChecked = some layout.boundingBox ↔ layout.Fits)
      ∧ ((wall.layoutChecked = some wall.layout
            ∧ wall.layout.boundingBoxChecked = some wall.layout.boundingBox)
          ↔ (∀ client ∈ wall.values, client.Fits) ∧ wall.ExtentsFit) := by
  intro wall
  exact ⟨layout.computes_boundingBox.eq_some_iff, wall.layout_and_box_iff⟩

theorem layout_out_of_range :
    (¬ ∀ layout : DisplayLayout, layout.boundingBoxChecked = some layout.boundingBox)
      ∧ ¬ ∀ calls : List Call, (run step .new calls).layoutChecked
          = some (run step .new calls).layout := by
  constructor
  · intro hall
    have hbox := hall ⟨[⟨⟨1⟩, 2147483647, 0, ⟨1920, 1080⟩⟩]⟩
    revert hbox
    decide
  · intro hall
    have hlayout := hall [.addClient ⟨.v4 192 168 1 10, 4433, 0, 0⟩ 2147483647 0 ⟨1920, 1080⟩]
    revert hlayout
    decide

end DisplayWall

end QuicView
