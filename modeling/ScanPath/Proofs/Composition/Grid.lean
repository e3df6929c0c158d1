import ScanPath.Proofs.Composition.Candidates
import ScanPath.Proofs.Composition.Mask

/-!
# Grids

The product of leaves, row by row, and the values of the candidates of a
composition as such a product: the candidates go through the rows that every
dimension runs over, in the same order.
-/

namespace ScanPath

def Position.values (position : Position) : Keyed Float := position.map AxisPoint.value

theorem Position.values_insertAll (position : Position) (axes : List String)
    (values : List Float) (index : Nat) :
    (Position.insertAll position axes values index).values =
      position.values.insertAll (axes.zip values) := by
  rw [insertAll_eq, Position.values, Keyed.map_insertAll, List.map_map]
  congr 1
  exact List.map_id _

namespace Composition

theorem passes_eq (position : Position) (excluder : Excluder) :
    passes position excluder = excluder.accepts position.values.get? := by
  have hvalues : Position.value? position = position.values.get? := by
    funext axis
    exact (Keyed.get?_map AxisPoint.value position axis).symm
  rw [← hvalues]
  rfl

/-- One row of every block, put together; the last block is the fastest. -/
def combinations : List (List (List (String × Float))) → List (List (String × Float))
  | [] => [[]]
  | block :: blocks => block.flatMap fun row => (combinations blocks).map (row ++ ·)

/-- The product of the leaves over all their indices, the last leaf fastest. -/
def grid (leaves : List Leaf) : List (Keyed Float) :=
  (combinations (leaves.map Leaf.rows)).map Keyed.ofList

theorem map_fst_of_mem_combinations {leaves : List Leaf} (hlawful : ∀ leaf ∈ leaves, leaf.Lawful)
    {row : List (String × Float)} (h : row ∈ combinations (leaves.map Leaf.rows)) :
    row.map Prod.fst = leaves.flatMap Leaf.axes := by
  induction leaves generalizing row with
  | nil =>
      rw [List.map_nil, combinations, List.mem_singleton] at h
      rw [h]
      rfl
  | cons leaf leaves ih =>
      rw [List.forall_mem_cons] at hlawful
      rw [List.map_cons, combinations, List.mem_flatMap] at h
      obtain ⟨first, hfirst, h⟩ := h
      obtain ⟨rest, hrest, rfl⟩ := List.mem_map.mp h
      rw [List.map_append, List.flatMap_cons, hlawful.1.map_fst_of_mem_rows hfirst,
        ih hlawful.2 hrest]

theorem values_extended {dimension : Dimension} (h : dimension.Lawful) (position : Position) :
    ((List.range dimension.length).filterMap (dimension.extend? position)).map Position.values =
      dimension.rows.map (position.values.insertAll ·) := by
  have hextend : ∀ counter, (dimension.extend? position counter).map Position.values =
      (dimension.pointIndex? counter).bind fun index => (dimension.leaf.valuesAt index).map
        fun values => position.values.insertAll (dimension.axes.zip values) := by
    intro counter
    rw [Dimension.extend?]
    cases dimension.pointIndex? counter with
    | none => rfl
    | some index =>
        cases hvalues : dimension.leaf.valuesAt index with
        | none => simp [hvalues]
        | some values => simp [hvalues, Position.values_insertAll]
  rw [List.map_filterMap]
  simp only [hextend]
  rw [← List.filterMap_filterMap, Dimension.filterMap_pointIndex?, Dimension.rows, List.map_map,
    ← List.filterMap_eq_map]
  apply List.filterMap_congr
  intro index hmem
  obtain ⟨values, hvalues, hentries, -⟩ := h.leaf.exists_values (h.bounded index hmem)
  simp [hvalues, hentries, Dimension.axes]

theorem values_reach {dimensions : List Dimension}
    (hlawful : ∀ dimension ∈ dimensions, dimension.Lawful) (position : Position) :
    (reach dimensions position).map Position.values =
      (combinations (dimensions.map Dimension.rows)).map (position.values.insertAll ·) := by
  induction dimensions generalizing position with
  | nil => rfl
  | cons dimension dimensions ih =>
      rw [List.forall_mem_cons] at hlawful
      have hleft : (reach (dimension :: dimensions) position).map Position.values =
          (((List.range dimension.length).filterMap (dimension.extend? position)).map
            Position.values).flatMap fun table =>
              (combinations (dimensions.map Dimension.rows)).map (table.insertAll ·) := by
        rw [reach_cons, List.map_flatMap, List.flatMap_map]
        simp only [ih hlawful.2]
      rw [hleft, values_extended hlawful.1, List.map_cons, combinations, List.flatMap_map,
        List.map_flatMap]
      simp only [List.map_map, Function.comp_def, Keyed.insertAll_append]

end Composition

end ScanPath
