import Mathlib.Data.List.Rotate
import ScanPath.Region

/-!
# Polygons as closed outlines

The even-odd rule walks along the vertices and starts with the edge that closes
the outline.  Where the walk starts does not matter, as it meets the same edges
from every vertex on, and an edge from a vertex to itself has both its ends on
one side of the ray.  So an outline may be given from any of its vertices on and
with vertices repeated, whatever the coordinates are and however they round.
-/

namespace ScanPath

namespace Region

variable (x y : Float)

theorem crosses_self (vertex : Float × Float) : crosses x y vertex vertex = false := by
  rw [crosses, bne_self_eq_false, Bool.false_and]

theorem crossingParity_append (previous : Float × Float) (first second : List (Float × Float)) :
    crossingParity x y previous (first ++ second) =
      (crossingParity x y previous first !=
        crossingParity x y (first.getLastD previous) second) := by
  induction first generalizing previous with
  | nil => rw [List.nil_append, crossingParity, Bool.false_bne, List.getLastD_nil]
  | cons vertex first ih =>
      rw [List.cons_append, crossingParity, ih, crossingParity, Bool.bne_assoc,
        List.getLastD_cons]

theorem polygonContains_cons (vertex : Float × Float) (vertices : List (Float × Float)) :
    polygonContains (vertex :: vertices) x y =
      (decide (3 ≤ vertices.length + 1) &&
        (crosses x y vertex (vertices.getLastD vertex) != crossingParity x y vertex vertices)) := by
  rw [polygonContains, List.getLast?_cons, ← List.getLastD_eq_getLast?]
  rfl

theorem polygonContains_concat (vertex : Float × Float) (vertices : List (Float × Float)) :
    polygonContains (vertices ++ [vertex]) x y = polygonContains (vertex :: vertices) x y := by
  have hparity : crossingParity x y vertex (vertices ++ [vertex]) =
      (crossingParity x y vertex vertices != crosses x y vertex (vertices.getLastD vertex)) := by
    rw [crossingParity_append, crossingParity, crossingParity, Bool.bne_false]
  rw [polygonContains_cons, polygonContains, List.getLast?_concat, List.length_append]
  dsimp only
  rw [hparity, bne_comm, List.length_singleton]

theorem polygonContains_rotate (vertices : List (Float × Float)) (shift : Nat) :
    polygonContains (vertices.rotate shift) x y = polygonContains vertices x y := by
  induction shift generalizing vertices with
  | zero => rw [List.rotate_zero]
  | succ shift ih =>
      cases vertices with
      | nil => rw [List.rotate_nil]
      | cons vertex vertices => rw [List.rotate_cons_succ, ih, polygonContains_concat]

theorem polygonContains_of_isRotated {vertices others : List (Float × Float)}
    (h : vertices ~r others) : polygonContains vertices x y = polygonContains others x y := by
  obtain ⟨shift, rfl⟩ := h
  rw [polygonContains_rotate]

/-- The edge of a repeated vertex is not crossed, and the next edge is the one it was. -/
theorem polygonContains_cons_cons_self (vertex : Float × Float) {vertices : List (Float × Float)}
    (hcount : 3 ≤ vertices.length + 1) :
    polygonContains (vertex :: vertex :: vertices) x y =
      polygonContains (vertex :: vertices) x y := by
  have hcount' : 3 ≤ (vertex :: vertices).length + 1 := Nat.le_succ_of_le hcount
  rw [polygonContains_cons, polygonContains_cons, List.getLastD_cons, crossingParity,
    crosses_self, Bool.false_bne, decide_eq_true hcount, decide_eq_true hcount']

theorem polygonContains_closed {vertices : List (Float × Float)} (hcount : 3 ≤ vertices.length) :
    polygonContains (vertices ++ vertices.take 1) x y = polygonContains vertices x y := by
  cases vertices with
  | nil => rfl
  | cons vertex vertices =>
      exact (polygonContains_concat x y vertex (vertex :: vertices)).trans
        (polygonContains_cons_cons_self x y vertex hcount)

theorem polygonContains_repeated (before : List (Float × Float)) (vertex : Float × Float)
    {behind : List (Float × Float)} (hcount : 3 ≤ (before ++ vertex :: behind).length) :
    polygonContains (before ++ vertex :: vertex :: behind) x y =
      polygonContains (before ++ vertex :: behind) x y := by
  have hrotated : before ++ vertex :: vertex :: behind ~r
      vertex :: vertex :: (behind ++ before) := List.isRotated_append
  have hrotated' : before ++ vertex :: behind ~r vertex :: (behind ++ before) :=
    List.isRotated_append
  have hcount' : 3 ≤ (behind ++ before).length + 1 := by
    simp only [List.length_append, List.length_cons] at hcount ⊢
    omega
  rw [polygonContains_of_isRotated x y hrotated, polygonContains_cons_cons_self x y vertex hcount',
    polygonContains_of_isRotated x y hrotated']

end Region

def repeatAt {α : Type} (place : Nat) (items : List α) : List α :=
  items.take (place + 1) ++ items.drop place

theorem repeatAt_eq {α : Type} {place : Nat} {items : List α} (h : place < items.length) :
    repeatAt place items =
      items.take place ++ items[place] :: items[place] :: items.drop (place + 1) := by
  rw [repeatAt, List.drop_eq_getElem_cons h, List.take_succ_eq_append_getElem h,
    List.append_assoc, List.singleton_append]

theorem zip_repeatAt {α β : Type} (place : Nat) {items : List α} {others : List β}
    (h : items.length = others.length) :
    (repeatAt place items).zip (repeatAt place others) = repeatAt place (items.zip others) := by
  have hlength : (items.take (place + 1)).length = (others.take (place + 1)).length := by
    rw [List.length_take, List.length_take, h]
  rw [repeatAt, repeatAt, repeatAt, List.zip_append hlength, List.zip_eq_zipWith,
    List.zip_eq_zipWith, List.zip_eq_zipWith, List.take_zipWith, List.drop_zipWith]

namespace Region

section

theorem polygonContains_repeatAt (x y : Float) {place : Nat} {vertices : List (Float × Float)}
    (hplace : place < vertices.length) (hcount : 3 ≤ vertices.length) :
    polygonContains (repeatAt place vertices) x y = polygonContains vertices x y := by
  have hsplit : vertices.take place ++ vertices[place] :: vertices.drop (place + 1) = vertices := by
    rw [← List.drop_eq_getElem_cons hplace, List.take_append_drop]
  rw [repeatAt_eq hplace, polygonContains_repeated x y _ _ (hsplit.symm ▸ hcount), hsplit]

variable [Trigonometry]

/-- A polygon holds the same points from whichever vertex on its outline is given, with any vertex
repeated behind itself, and with the first vertex put once more at the end. -/
theorem contains_redrawn {pointsX pointsY : List Float} (hlength : pointsX.length = pointsY.length)
    (hcount : 3 ≤ pointsX.length) (x y : Float) :
    (∀ shift, (polygonal (pointsX.rotate shift) (pointsY.rotate shift)).contains x y =
      (polygonal pointsX pointsY).contains x y) ∧
    (∀ place < pointsX.length,
      (polygonal (repeatAt place pointsX) (repeatAt place pointsY)).contains x y =
        (polygonal pointsX pointsY).contains x y) ∧
    (polygonal (pointsX ++ pointsX.take 1) (pointsY ++ pointsY.take 1)).contains x y =
      (polygonal pointsX pointsY).contains x y := by
  have hvertices : (pointsX.zip pointsY).length = pointsX.length := by
    rw [List.length_zip, ← hlength, Nat.min_self]
  simp only [contains]
  refine ⟨?_, ?_, ?_⟩
  · intro shift
    have hzip : (pointsX.rotate shift).zip (pointsY.rotate shift) =
        (pointsX.zip pointsY).rotate shift :=
      (List.zipWith_rotate_distrib Prod.mk pointsX pointsY shift hlength).symm
    rw [hzip, polygonContains_rotate]
  · intro place hplace
    rw [zip_repeatAt place hlength,
      polygonContains_repeatAt x y (hvertices.symm ▸ hplace) (hvertices.symm ▸ hcount)]
  · have hzip : (pointsX ++ pointsX.take 1).zip (pointsY ++ pointsY.take 1) =
        pointsX.zip pointsY ++ (pointsX.zip pointsY).take 1 := by
      rw [List.zip_append hlength, List.zip_eq_zipWith, List.zip_eq_zipWith, List.take_zipWith]
    rw [hzip, polygonContains_closed x y (hvertices.symm ▸ hcount)]

end

def tornX : List Float := [0.0, 2.0, 0.0 / 0.0, 1.0, 0.0]

def tornY : List Float := [0.0, 0.0, 1.0, 2.0, 2.0]

theorem contains_redrawn_torn :
    tornX.length = tornY.length ∧ 3 ≤ tornX.length ∧ ∀ x y,
      (polygonal (tornX.rotate 3) (tornY.rotate 3)).contains x y =
        (polygonal tornX tornY).contains x y ∧
      (polygonal (repeatAt 2 tornX) (repeatAt 2 tornY)).contains x y =
        (polygonal tornX tornY).contains x y ∧
      (polygonal (tornX ++ tornX.take 1) (tornY ++ tornY.take 1)).contains x y =
        (polygonal tornX tornY).contains x y := by
  have hlength : tornX.length = tornY.length := by decide
  have hcount : 3 ≤ tornX.length := by decide
  refine ⟨hlength, hcount, ?_⟩
  intro x y
  obtain ⟨hrotated, hrepeated, hclosed⟩ := contains_redrawn hlength hcount x y
  exact ⟨hrotated 3, hrepeated 2 hcount, hclosed⟩

end Region

end ScanPath
