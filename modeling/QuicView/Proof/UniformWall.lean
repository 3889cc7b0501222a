import QuicView.Proof.BoundingBox
import QuicView.Proof.WallTiles

namespace QuicView

open Hull

namespace DisplayWall

structure ExtentsFit (wall : DisplayWall) : Prop where
  width : ∀ client ∈ wall.values, ∀ other ∈ wall.values,
    client.place.1 * client.size.1 + client.size.1 - other.place.1 * other.size.1 < 2 ^ 31
  height : ∀ client ∈ wall.values, ∀ other ∈ wall.values,
    client.place.2 * client.size.2 + client.size.2 - other.place.2 * other.size.2 < 2 ^ 31

def minGrid (wall : DisplayWall) (axis : WallClient → Int32) : ℤ :=
  ((wall.values.map axis).min?.getD 0).toInt

def maxGrid (wall : DisplayWall) (axis : WallClient → Int32) : ℤ :=
  ((wall.values.map axis).max?.getD 0).toInt

variable {wall : DisplayWall}

theorem forall_entries {motive : DisplayEntry → Prop} :
    (∀ e ∈ wall.layout.entries, motive e) ↔ ∀ client ∈ wall.values, motive (entry client) :=
  List.forall_mem_map

theorem right_entry {client : WallClient} (hfits : FitsI32 (client.place.1 * client.size.1)) :
    (entry client).right = client.place.1 * client.size.1 + client.size.1 := by
  rw [DisplayEntry.right, x_entry hfits]
  rfl

theorem bottom_entry {client : WallClient} (hfits : FitsI32 (client.place.2 * client.size.2)) :
    (entry client).bottom = client.place.2 * client.size.2 + client.size.2 := by
  rw [DisplayEntry.bottom, y_entry hfits]
  rfl

theorem layout_fits_iff (hproducts : ∀ client ∈ wall.values,
      FitsI32 (client.place.1 * client.size.1) ∧ FitsI32 (client.place.2 * client.size.2)) :
    wall.layout.Fits ↔ (∀ client ∈ wall.values, client.Fits) ∧ wall.ExtentsFit := by
  have hx := fun c hmem => x_entry (hproducts c hmem).1
  have hy := fun c hmem => y_entry (hproducts c hmem).2
  have hright := fun c hmem => right_entry (hproducts c hmem).1
  have hbottom := fun c hmem => bottom_entry (hproducts c hmem).2
  constructor
  · rintro ⟨hrights, hbottoms, hwidths, hheights⟩
    simp only [forall_entries] at hrights hbottoms hwidths hheights
    refine ⟨?_, ?_, ?_⟩
    · intro c hmem
      obtain ⟨hleft, htop⟩ := hproducts c hmem
      have hwidth : 0 ≤ c.size.1 := Int.natCast_nonneg _
      have hheight : 0 ≤ c.size.2 := Int.natCast_nonneg _
      refine ⟨hleft, ⟨by omega, ?_⟩, htop, ⟨by omega, ?_⟩⟩
      · rw [← hright c hmem]
        exact hrights c hmem
      · rw [← hbottom c hmem]
        exact hbottoms c hmem
    · intro c hmem other hother
      rw [← hright c hmem, ← hx other hother]
      exact hwidths c hmem other hother
    · intro c hmem other hother
      rw [← hbottom c hmem, ← hy other hother]
      exact hheights c hmem other hother
  · rintro ⟨hfits, hextents⟩
    constructor
    · rw [forall_entries]
      intro c hmem
      rw [hright c hmem]
      exact (hfits c hmem).right.2
    · rw [forall_entries]
      intro c hmem
      rw [hbottom c hmem]
      exact (hfits c hmem).bottom.2
    · simp only [forall_entries]
      intro c hmem other hother
      rw [hright c hmem, hx other hother]
      exact hextents.width c hmem other hother
    · simp only [forall_entries]
      intro c hmem other hother
      rw [hbottom c hmem, hy other hother]
      exact hextents.height c hmem other hother

theorem isHull_grid (hne : wall.values ≠ []) (start size : DisplayEntry → ℤ)
    (axis : WallClient → Int32) (pitch : ℕ)
    (hstart : ∀ client ∈ wall.values, start (entry client) = pitch * (axis client).toInt)
    (hsize : ∀ client ∈ wall.values, size (entry client) = pitch) :
    IsHull {e | e ∈ wall.layout.entries} start (fun e => start e + size e)
      (pitch * wall.minGrid axis) (pitch * (wall.maxGrid axis + 1)) := by
  have hend : ∀ client ∈ wall.values,
      start (entry client) + size (entry client) = pitch * ((axis client).toInt + 1) := by
    intro client hmem
    rw [hstart client hmem, hsize client hmem]
    ring
  obtain ⟨⟨first, hfirst, hleast⟩, hle⟩ := DisplayLayout.min_attained (f := axis) hne
  obtain ⟨⟨last, hlast, hgreatest⟩, hge⟩ := DisplayLayout.max_attained (f := axis) hne
  apply IsHull.of_attained
  · refine ⟨entry first, List.mem_map_of_mem hfirst, ?_⟩
    rw [hstart first hfirst, hleast, minGrid]
  · rw [forall_entries]
    intro client hmem
    rw [hstart client hmem]
    have hplace := Int32.le_iff_toInt_le.mp (hle client hmem)
    exact Int.mul_le_mul_of_nonneg_left hplace (Int.natCast_nonneg pitch)
  · refine ⟨entry last, List.mem_map_of_mem hlast, ?_⟩
    rw [hend last hlast, hgreatest, maxGrid]
  · rw [forall_entries]
    intro client hmem
    rw [hend client hmem]
    have hplace := Int32.le_iff_toInt_le.mp (hge client hmem)
    exact Int.mul_le_mul_of_nonneg_left (Int.add_le_add_right hplace 1) (Int.natCast_nonneg pitch)

/-- **The extent of a uniform wall.** Whatever order the hash map gives its clients in, the box
around displays of one size is that of the grid's places, scaled by the size. -/
theorem uniform_wall_extent (wall : DisplayWall) (resolution : Resolution)
    (hne : wall.values ≠ []) (hsame : ∀ client ∈ wall.values, client.resolution = resolution)
    (hfits : ∀ client ∈ wall.values, client.Fits) (hextents : wall.ExtentsFit)
    (layout : DisplayLayout) (hperm : layout.entries.Perm wall.layout.entries) :
    let w : ℤ := resolution.width.toNat
    let h : ℤ := resolution.height.toNat
    let minX := wall.minGrid WallClient.gridX
    let minY := wall.minGrid WallClient.gridY
    let box := layout.boundingBox
    box.1.toInt = w * minX
      ∧ box.2.1.toInt = h * minY
      ∧ (box.2.2.1.toNat : ℤ) = w * (wall.maxGrid WallClient.gridX - minX + 1)
      ∧ (box.2.2.2.toNat : ℤ) = h * (wall.maxGrid WallClient.gridY - minY + 1) := by
  intro w h minX minY box
  have hneLayout : wall.layout.entries ≠ [] := mt List.map_eq_nil_iff.mp hne
  have hbox : box = wall.layout.boundingBox := DisplayLayout.boundingBox_perm hperm
  have hlayout : wall.layout.Fits :=
    (layout_fits_iff fun c hmem => ⟨(hfits c hmem).left, (hfits c hmem).top⟩).mpr ⟨hfits, hextents⟩
  have hhull := DisplayLayout.isHull_boundingBox hneLayout hlayout
  have hx : ∀ c ∈ wall.values, (entry c).x.toInt = w * c.gridX.toInt := by
    intro c hmem
    rw [x_entry (hfits c hmem).left, WallClient.place, WallClient.size, Int.mul_comm, hsame c hmem]
  have hy : ∀ c ∈ wall.values, (entry c).y.toInt = h * c.gridY.toInt := by
    intro c hmem
    rw [y_entry (hfits c hmem).top, WallClient.place, WallClient.size, Int.mul_comm, hsame c hmem]
  have hwidth : ∀ c ∈ wall.values, ((entry c).resolution.width.toNat : ℤ) = w :=
    fun c hmem => congrArg (fun res : Resolution => (res.width.toNat : ℤ)) (hsame c hmem)
  have hheight : ∀ c ∈ wall.values, ((entry c).resolution.height.toNat : ℤ) = h :=
    fun c hmem => congrArg (fun res : Resolution => (res.height.toNat : ℤ)) (hsame c hmem)
  have hacross := isHull_grid hne (fun e => e.x.toInt) (fun e => e.resolution.width.toNat)
    WallClient.gridX resolution.width.toNat hx hwidth
  have hdown := isHull_grid hne (fun e => e.y.toInt) (fun e => e.resolution.height.toNat)
    WallClient.gridY resolution.height.toNat hy hheight
  obtain ⟨hlower, hupper⟩ := hhull.unique (hacross.prod hdown)
  obtain ⟨hleft, htop⟩ := Prod.mk.inj hlower
  obtain ⟨hright, hbottom⟩ := Prod.mk.inj hupper
  rw [← hbox] at hleft htop hright hbottom
  refine ⟨hleft, htop, ?_, ?_⟩
  · calc (box.2.2.1.toNat : ℤ) = w * (wall.maxGrid WallClient.gridX + 1) - w * minX := by
          rw [← hright, hleft]
          ring
      _ = w * (wall.maxGrid WallClient.gridX - minX + 1) := by ring
  · calc (box.2.2.2.toNat : ℤ) = h * (wall.maxGrid WallClient.gridY + 1) - h * minY := by
          rw [← hbottom, htop]
          ring
      _ = h * (wall.maxGrid WallClient.gridY - minY + 1) := by ring

theorem uniform_wall_extent_gap :
    let wall := step (step (step .new (.addClient ⟨.v4 192 168 1 10, 4433, 0, 0⟩ 1 0 ⟨1920, 1080⟩))
      (.addClient ⟨.v4 192 168 1 11, 4433, 0, 0⟩ 1 0 ⟨1920, 1080⟩))
      (.addClient ⟨.v4 192 168 1 12, 4433, 0, 0⟩ (-1) 0 ⟨1920, 1080⟩)
    wall.layout.boundingBox.1.toInt = 1920 * wall.minGrid WallClient.gridX := by
  intro wall
  have hextents : wall.ExtentsFit := ⟨by decide, by decide⟩
  exact (uniform_wall_extent wall ⟨1920, 1080⟩ (by decide) (by decide) (by decide) hextents
    wall.layout (List.Perm.refl _)).1

end DisplayWall

end QuicView
