import QuicView.Capture.Wall
import QuicView.Library.Ruler
import QuicView.Library.SignedWords

namespace QuicView

def DisplayEntry.area (entry : DisplayEntry) : Set (ℤ × ℤ) :=
  Set.Ico entry.x.toInt (entry.x.toInt + entry.resolution.width.toNat)
    ×ˢ Set.Ico entry.y.toInt (entry.y.toInt + entry.resolution.height.toNat)

abbrev FitsI32 (n : ℤ) : Prop := -2 ^ 31 ≤ n ∧ n < 2 ^ 31

namespace WallClient

def size (client : WallClient) : ℤ × ℤ :=
  (client.resolution.width.toNat, client.resolution.height.toNat)

def place (client : WallClient) : ℤ × ℤ := (client.gridX.toInt, client.gridY.toInt)

abbrev Sized (client : WallClient) : Prop :=
  client.resolution.width ≠ 0 ∧ client.resolution.height ≠ 0

@[mk_iff]
structure Fits (client : WallClient) : Prop where
  left : FitsI32 (client.place.1 * client.size.1)
  right : FitsI32 (client.place.1 * client.size.1 + client.size.1)
  top : FitsI32 (client.place.2 * client.size.2)
  bottom : FitsI32 (client.place.2 * client.size.2 + client.size.2)

instance (client : WallClient) : Decidable client.Fits := decidable_of_iff' _ (fits_iff client)

/-- Along one of the axes the drift between the two grids, up to the end of the earlier tile, is no
longer than the tiles between the two places. -/
def InStep (client other : WallClient) : Prop :=
  Ruler.InStep client.size client.place other.size other.place

instance (client other : WallClient) : Decidable (client.InStep other) :=
  inferInstanceAs (Decidable (Ruler.InStep _ _ _ _))

end WallClient

namespace DisplayWall

def DisjointTiles (wall : DisplayWall) : Prop :=
  wall.layout.entries.Pairwise fun entry other => Disjoint entry.area other.area

variable {client other : WallClient}

theorem x_entry (hfits : FitsI32 (client.place.1 * client.size.1)) :
    (entry client).x.toInt = client.place.1 * client.size.1 :=
  Int32.toInt_mul_toInt32 hfits

theorem y_entry (hfits : FitsI32 (client.place.2 * client.size.2)) :
    (entry client).y.toInt = client.place.2 * client.size.2 :=
  Int32.toInt_mul_toInt32 hfits

theorem area_entry (hfits : client.Fits) :
    (entry client).area = Ruler.tile client.size client.place := by
  rw [DisplayEntry.area, x_entry hfits.left, y_entry hfits.top]
  rfl

theorem size_pos (hsized : client.Sized) : 0 < client.size.1 ∧ 0 < client.size.2 := by
  have hpos : ∀ {n : UInt32}, n ≠ 0 → (0 : ℤ) < n.toNat := by
    intro n hn
    exact Int.natCast_pos.mpr (UInt32.pos_iff_ne_zero.mpr hn)
  exact ⟨hpos hsized.1, hpos hsized.2⟩

theorem disjoint_area_iff (hsized : client.Sized) (hsized' : other.Sized) (hfits : client.Fits)
    (hfits' : other.Fits) :
    Disjoint (entry client).area (entry other).area ↔ client.InStep other := by
  rw [area_entry hfits, area_entry hfits']
  exact Ruler.disjoint_tile_iff (size_pos hsized) (size_pos hsized') client.place other.place

theorem inStep_of_aligned (hsized : client.Sized)
    (haligned : (client.size.1 = other.size.1 ∧ client.place.1 ≠ other.place.1)
      ∨ (client.size.2 = other.size.2 ∧ client.place.2 ≠ other.place.2)) :
    client.InStep other := by
  obtain ⟨hwidth, hheight⟩ := size_pos hsized
  rcases haligned with ⟨hsame, hplace⟩ | ⟨hsame, hplace⟩
  · left
    rw [← hsame, Ruler.clears_same_iff hwidth, Ruler.clears_same_iff hwidth]
    exact hplace.lt_or_gt
  · right
    rw [← hsame, Ruler.clears_same_iff hheight, Ruler.clears_same_iff hheight]
    exact hplace.lt_or_gt

theorem tiles_disjoint_of_one_size {wall : DisplayWall} {resolution : Resolution}
    (hsize : ∀ client ∈ wall.values, client.resolution = resolution)
    (hplaces : wall.values.Pairwise fun client other => client.place ≠ other.place)
    (hsized : ∀ client ∈ wall.values, client.Sized)
    (hfits : ∀ client ∈ wall.values, client.Fits) :
    wall.DisjointTiles := by
  rw [DisjointTiles, layout, List.pairwise_map]
  refine hplaces.imp_of_mem ?_
  intro client other hclient hother hplace
  rw [disjoint_area_iff (hsized client hclient) (hsized other hother) (hfits client hclient)
    (hfits other hother)]
  apply inStep_of_aligned (hsized client hclient)
  have hsame : client.size = other.size := by
    rw [WallClient.size, WallClient.size, hsize client hclient, hsize other hother]
  by_cases hcolumn : client.place.1 = other.place.1
  · exact .inr ⟨congrArg Prod.snd hsame, fun hrow => hplace (Prod.ext hcolumn hrow)⟩
  · exact .inl ⟨congrArg Prod.fst hsame, hcolumn⟩

/-- **When tiles overlap.** The tiles of a wall are disjoint exactly if the grids of any two of its
clients are in step at their places. -/
theorem tiles_disjoint_iff_inStep (wall : DisplayWall)
    (hsized : ∀ client ∈ wall.values, client.Sized)
    (hfits : ∀ client ∈ wall.values, client.Fits) :
    wall.DisjointTiles ↔ wall.values.Pairwise WallClient.InStep := by
  rw [DisjointTiles, layout, List.pairwise_map]
  apply List.Pairwise.iff_of_mem
  intro client other hclient hother
  exact disjoint_area_iff (hsized client hclient) (hsized other hother) (hfits client hclient)
    (hfits other hother)

theorem tiles_disjoint_iff_inStep_side_by_side :
    (step (step .new (.addClient ⟨.v4 192 168 1 10, 4433, 0, 0⟩ 0 0 ⟨1920, 1080⟩))
      (.addClient ⟨.v4 192 168 1 11, 4433, 0, 0⟩ 1 0 ⟨1920, 1080⟩)).DisjointTiles :=
  (tiles_disjoint_iff_inStep _ (by decide) (by decide)).mpr (by decide)

theorem tiles_overlap_of_sizes :
    ¬ ∀ wall : DisplayWall,
      wall.values.Pairwise (fun client other => client.place ≠ other.place) →
      (∀ client ∈ wall.values, client.Sized) → (∀ client ∈ wall.values, client.Fits) →
      wall.DisjointTiles := by
  intro hall
  have hdisjoint := hall
    (step (step .new (.addClient ⟨.v4 192 168 1 10, 4433, 0, 0⟩ 0 0 ⟨1920, 1080⟩))
      (.addClient ⟨.v4 192 168 1 11, 4433, 0, 0⟩ 1 0 ⟨100, 100⟩))
    (by decide) (by decide) (by decide)
  have hpair := (List.pairwise_cons.mp hdisjoint).1 _ List.mem_cons_self
  have hinStep := (disjoint_area_iff (by decide) (by decide) (by decide) (by decide)).mp hpair
  revert hinStep
  decide

end DisplayWall

end QuicView
