import ScanPath.Composition.Basic
import ScanPath.Proofs.Leaf

/-!
# The points of a dimension

The counter of a dimension runs over the points of its leaf that the mask
leaves.  Over a lawful leaf it finds values for each of them.
-/

namespace ScanPath.Dimension

def wheel (dimension : Dimension) : Wheel := ⟨dimension.length, dimension.alternate⟩

def points (dimension : Dimension) : List Nat :=
  match dimension.kept with
  | none => List.range dimension.leaf.size
  | some kept => kept.toList

theorem length_points (dimension : Dimension) : dimension.points.length = dimension.length := by
  unfold points length
  cases dimension.kept with
  | none => simp
  | some kept => simp

theorem pointIndex?_of_lt {dimension : Dimension} {counter : Nat}
    (h : counter < dimension.length) :
    dimension.pointIndex? counter = dimension.points[counter]? := by
  unfold length at h
  unfold pointIndex? points
  cases hkept : dimension.kept with
  | none =>
      rw [hkept] at h
      exact (List.getElem?_range h).symm
  | some kept => simp

theorem filterMap_pointIndex? (dimension : Dimension) :
    (List.range dimension.length).filterMap dimension.pointIndex? = dimension.points := by
  have hget : (List.range dimension.length).map dimension.pointIndex? =
      dimension.points.map some := by
    rw [← length_points]
    apply List.ext_getElem
    · simp
    · intro counter h _
      rw [List.length_map, List.length_range] at h
      simp [pointIndex?_of_lt (length_points dimension ▸ h), h]
  have hfilter := congrArg (List.filterMap id) hget
  simpa [List.filterMap_map] using hfilter

structure Lawful (dimension : Dimension) : Prop where
  leaf : dimension.leaf.Lawful
  bounded : ∀ index ∈ dimension.points, index < dimension.leaf.size

theorem Lawful.extend?_isSome {dimension : Dimension} (h : dimension.Lawful) {counter : Nat}
    (hcounter : counter < dimension.length) (position : Position) :
    (dimension.extend? position counter).isSome = true := by
  have hindex := pointIndex?_of_lt hcounter
  rw [← length_points] at hcounter
  rw [List.getElem?_eq_getElem hcounter] at hindex
  have hlt := h.bounded _ (List.getElem_mem hcounter)
  obtain ⟨values, hvalues⟩ := Option.isSome_iff_exists.mp ((h.leaf.isSome_iff _).mpr hlt)
  simp [extend?, hindex, hvalues]

theorem points_masked (leaf : Leaf) (generator : Nat) (excluders : List Excluder) :
    (masked leaf generator excluders).points =
      if excluders.isEmpty then List.range leaf.size
      else (List.range leaf.size).filter
        (keeps leaf (excluders.map fun excluder => (excluder, slots leaf.axes excluder))) := by
  unfold masked points mask
  cases excluders with
  | nil => rfl
  | cons excluder excluders => simp

theorem masked_lawful {leaf : Leaf} (h : leaf.Lawful) (generator : Nat)
    (excluders : List Excluder) : (masked leaf generator excluders).Lawful := by
  refine ⟨h, ?_⟩
  intro index hmem
  rw [points_masked] at hmem
  split at hmem
  · exact List.mem_range.mp hmem
  · exact List.mem_range.mp (List.mem_filter.mp hmem).1

end ScanPath.Dimension
