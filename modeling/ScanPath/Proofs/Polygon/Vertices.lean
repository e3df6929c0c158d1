import ScanPath.Proofs.Binary64.Order
import ScanPath.Proofs.Binary64.Undefined
import ScanPath.Proofs.Binary64.Zeros
import ScanPath.Proofs.Parameters
import ScanPath.Proofs.Polygon

/-!
# Vertices of polygons

A ray from a vertex along the first axis does not cross the edge that arrives at
the vertex: where the edge passes the height of the vertex is computed as the
vertex itself, or not at all.  So the verdict on a vertex rests on the other
edges.  A vertex from which the rest of the outline lies beyond is kept if just
one of its neighbours is above it.  With no vertex above it a vertex is never
kept, and as every polygon has a highest vertex, none keeps all of its vertices.
-/

namespace ScanPath

open Float.Model Float.Model.UnpackedFloat

theorem sub_self_of_isFinite {x : Float} (h : x.isFinite = true) : x - x = 0.0 := by
  apply congrArg (fun result => Float.ofModel (.pack result))
  rcases unpack_of_isFinite h with ⟨sign, hx⟩ | ⟨sign, mantissa, exponent, hpos, hx⟩
  · rw [hx]
    cases sign <;> rfl
  · rw [hx]
    simp only [UnpackedFloat.sub, Int.sub_self]
    rfl

def Void (x : Float) : Prop :=
  x.toModel.unpack = .notANumber ∨ ∃ sign, x.toModel.unpack = .zero sign

theorem void_pack {result : UnpackedFloat}
    (h : result = .notANumber ∨ ∃ sign, result = .zero sign) :
    Void (.ofModel (.pack result)) := by
  rcases h with rfl | ⟨sign, rfl⟩
  · exact .inl rfl
  · exact .inr ⟨sign, unpack_pack_zero sign⟩

theorem void_mul_zero (x : Float) : Void (x * 0.0) := by
  refine @void_pack (UnpackedFloat.mul .binary64 x.toModel.unpack (.zero .positive)) ?_
  cases x.toModel.unpack with
  | notANumber | infinity => exact .inl rfl
  | zero | finite => exact .inr ⟨_, rfl⟩

theorem Void.div {x : Float} (h : Void x) (y : Float) : Void (x / y) := by
  refine @void_pack (UnpackedFloat.div .binary64 x.toModel.unpack y.toModel.unpack) ?_
  rcases h with hx | ⟨sign, hx⟩
  · rw [hx]
    exact .inl rfl
  · rw [hx]
    cases y.toModel.unpack with
    | notANumber | zero => exact .inl rfl
    | infinity | finite => exact .inr ⟨_, rfl⟩

theorem Void.not_lt_add {x : Float} (h : Void x) (y : Float) : ¬ y < x + y := by
  rcases h with hx | ⟨sign, hx⟩
  · exact not_lt_isNaN y (isNaN_add (.inl (isNaN_iff.mpr hx)))
  · change ¬ y < .ofModel (.pack (UnpackedFloat.add .binary64 x.toModel.unpack y.toModel.unpack))
    rw [lt_iff_compare, hx]
    cases hy : y.toModel.unpack with
    | notANumber => simp [UnpackedFloat.compare]
    | infinity other => cases sign <;> cases other <;> decide
    | zero other => cases sign <;> cases other <;> decide
    | finite other mantissa exponent hpos =>
        obtain ⟨hfits, hhigh⟩ := fits_of_unpack_eq hy
        change ¬ UnpackedFloat.compare _ (Float.Model.pack (.finite ..)).unpack = _
        rw [hfits.unpack_pack hpos hhigh]
        cases other <;> simp [UnpackedFloat.compare]

namespace Region

def passage (y : Float) (vertex previous : Float × Float) : Float :=
  (previous.1 - vertex.1) * (y - vertex.2) / (previous.2 - vertex.2) + vertex.1

/-- Just one end of the edge is above the height. -/
def straddles (y : Float) (vertex previous : Float × Float) : Bool :=
  (y < vertex.2) != (y < previous.2)

theorem crosses_eq (x y : Float) (vertex previous : Float × Float) :
    crosses x y vertex previous =
      (straddles y vertex previous && decide (x < passage y vertex previous)) := rfl

theorem crosses_arriving {vertex : Float × Float} (hfinite : vertex.2.isFinite = true)
    (previous : Float × Float) : crosses vertex.1 vertex.2 vertex previous = false := by
  have hpassage : ¬ vertex.1 < passage vertex.2 vertex previous := by
    rw [passage, sub_self_of_isFinite hfinite]
    exact ((void_mul_zero _).div _).not_lt_add _
  rw [crosses_eq, decide_eq_false hpassage, Bool.and_false]

def edgesFrom (previous : Float × Float) (vertices : List (Float × Float)) :
    List ((Float × Float) × (Float × Float)) :=
  vertices.zip (previous :: vertices)

theorem edgesFrom_cons (previous vertex : Float × Float) (vertices : List (Float × Float)) :
    edgesFrom previous (vertex :: vertices) = (vertex, previous) :: edgesFrom vertex vertices := rfl

theorem odd_countP_cons {α : Type} (p : α → Bool) (item : α) (items : List α) :
    Odd ((item :: items).countP p) ↔ ¬ (p item = true ↔ Odd (items.countP p)) := by
  rw [List.countP_cons]
  cases p item <;> simp [Nat.odd_add_one]

theorem crossingParity_iff (x y : Float) (previous : Float × Float)
    (vertices : List (Float × Float)) :
    crossingParity x y previous vertices = true ↔
      Odd ((edgesFrom previous vertices).countP fun edge => crosses x y edge.1 edge.2) := by
  induction vertices generalizing previous with
  | nil => simp [crossingParity, edgesFrom]
  | cons vertex vertices ih =>
      rw [crossingParity, bne_iff_ne, ne_eq, Bool.eq_iff_iff, ih, edgesFrom_cons, odd_countP_cons]

/-- A chain passes a height an odd number of times if just one of its ends is above it. -/
theorem odd_straddling_iff (y : Float) (previous : Float × Float)
    (vertices : List (Float × Float)) :
    Odd ((edgesFrom previous vertices).countP fun edge => straddles y edge.1 edge.2) ↔
      ¬ (y < previous.2 ↔ y < (vertices.getLastD previous).2) := by
  induction vertices generalizing previous with
  | nil => simp [edgesFrom]
  | cons vertex vertices ih =>
      rw [edgesFrom_cons, odd_countP_cons, List.getLastD_cons, ih, straddles, bne_iff_ne, ne_eq,
        decide_eq_decide]
      tauto

theorem exists_highest {vertices : List (Float × Float)} (hne : vertices ≠ [])
    (hfinite : ∀ vertex ∈ vertices, vertex.2.isFinite = true) :
    ∃ vertex ∈ vertices, ∀ other ∈ vertices, ¬ vertex.2 < other.2 := by
  obtain ⟨vertex, hvertex⟩ := Option.ne_none_iff_exists'.mp
    (mt (List.argmax_eq_none (f := fun vertex => exact vertex.2)).mp hne)
  have hmem := List.argmax_mem hvertex
  refine ⟨vertex, hmem, ?_⟩
  intro other hother hlt
  have hle := List.le_of_mem_argmax hother hvertex
  exact absurd (exact_lt_exact (hfinite vertex hmem) (hfinite other hother) hlt) (not_lt.mpr hle)

theorem crossingParity_of_highest {x y : Float} {previous : Float × Float}
    {vertices : List (Float × Float)} (hprevious : ¬ y < previous.2)
    (h : ∀ vertex ∈ vertices, ¬ y < vertex.2) : crossingParity x y previous vertices = false := by
  induction vertices generalizing previous with
  | nil => rfl
  | cons vertex vertices ih =>
      rw [List.forall_mem_cons] at h
      rw [crossingParity, ih h.1 h.2, crosses, decide_eq_false h.1, decide_eq_false hprevious]
      rfl

theorem vertices_of_check {pointsX pointsY : List Float}
    (h : (polygonal pointsX pointsY).check = .ok ()) :
    3 ≤ (pointsX.zip pointsY).length ∧
      ∀ vertex ∈ pointsX.zip pointsY, vertex.2.isFinite = true := by
  obtain ⟨-, hfinite⟩ := finite_of_check h
  refine ⟨?_, fun vertex hmem => hfinite _ (List.of_mem_zip hmem).2⟩
  simp only [check] at h
  split at h
  · cases h
  next hlength =>
    split at h
    · cases h
    next hcount =>
      rw [List.length_zip, ← not_ne_iff.mp hlength, Nat.min_self]
      exact Nat.not_lt.mp hcount

section

variable [Trigonometry]

theorem contains_vertex {pointsX pointsY : List Float}
    (hcheck : (polygonal pointsX pointsY).check = .ok ()) {vertex : Float × Float}
    {others : List (Float × Float)} (hrotated : pointsX.zip pointsY ~r vertex :: others) :
    (polygonal pointsX pointsY).contains vertex.1 vertex.2 =
      crossingParity vertex.1 vertex.2 vertex others := by
  obtain ⟨hcount, hfinite⟩ := vertices_of_check hcheck
  have hcount' : 3 ≤ others.length + 1 := hcount.trans_eq hrotated.perm.length_eq
  have hvertex := hfinite vertex (hrotated.mem_iff.mpr List.mem_cons_self)
  rw [contains, polygonContains_of_isRotated _ _ hrotated, polygonContains_cons,
    decide_eq_true hcount', crosses_arriving hvertex, Bool.true_and, Bool.false_bne]

/-- An accepted polygon keeps a vertex exactly if its ray crosses an odd number of the edges other
than the one that arrives at it.  If it crosses every edge that passes its height, except those that
end at it, then it is kept exactly if just one of its neighbours is above it.  A vertex without a
vertex above it is not kept, so no polygon keeps all its vertices. -/
theorem vertex_kept_iff {pointsX pointsY : List Float}
    (hcheck : (polygonal pointsX pointsY).check = .ok ()) :
    (∀ vertex others, pointsX.zip pointsY ~r vertex :: others →
      ((polygonal pointsX pointsY).contains vertex.1 vertex.2 = true ↔
        Odd ((edgesFrom vertex others).countP fun edge =>
          crosses vertex.1 vertex.2 edge.1 edge.2))) ∧
    (∀ vertex next rest, pointsX.zip pointsY ~r vertex :: next :: rest →
      crosses vertex.1 vertex.2 next vertex = false →
      (∀ edge ∈ edgesFrom next rest, straddles vertex.2 edge.1 edge.2 = true →
        vertex.1 < passage vertex.2 edge.1 edge.2) →
      ((polygonal pointsX pointsY).contains vertex.1 vertex.2 = true ↔
        ¬ (vertex.2 < next.2 ↔ vertex.2 < (rest.getLastD next).2))) ∧
    (∀ vertex ∈ pointsX.zip pointsY, (∀ other ∈ pointsX.zip pointsY, ¬ vertex.2 < other.2) →
      (polygonal pointsX pointsY).contains vertex.1 vertex.2 = false) ∧
    ∃ vertex ∈ pointsX.zip pointsY,
      (polygonal pointsX pointsY).contains vertex.1 vertex.2 = false := by
  obtain ⟨hcount, hfinite⟩ := vertices_of_check hcheck
  have hhighest : ∀ vertex ∈ pointsX.zip pointsY,
      (∀ other ∈ pointsX.zip pointsY, ¬ vertex.2 < other.2) →
      (polygonal pointsX pointsY).contains vertex.1 vertex.2 = false := by
    intro vertex hmem habove
    obtain ⟨before, behind, hsplit⟩ := List.append_of_mem hmem
    have hrotated : pointsX.zip pointsY ~r vertex :: (behind ++ before) :=
      hsplit ▸ List.isRotated_append
    rw [contains_vertex hcheck hrotated]
    apply crossingParity_of_highest (habove vertex hmem)
    intro other hother
    exact habove other (hrotated.mem_iff.mpr (List.mem_cons_of_mem _ hother))
  refine ⟨?_, ?_, hhighest, ?_⟩
  · intro vertex others hrotated
    rw [contains_vertex hcheck hrotated, crossingParity_iff]
  · intro vertex next rest hrotated hleaving hbeyond
    have hcrossed : ∀ edge ∈ edgesFrom next rest,
        (crosses vertex.1 vertex.2 edge.1 edge.2 = true ↔
          straddles vertex.2 edge.1 edge.2 = true) := by
      intro edge hmem
      rw [crosses_eq, Bool.and_eq_true, decide_eq_true_iff]
      exact and_iff_left_of_imp (hbeyond edge hmem)
    rw [contains_vertex hcheck hrotated, crossingParity, hleaving, Bool.false_bne,
      crossingParity_iff, List.countP_congr hcrossed, odd_straddling_iff]
  · have hne : pointsX.zip pointsY ≠ [] := List.ne_nil_of_length_pos (by omega)
    obtain ⟨vertex, hmem, habove⟩ := exists_highest hne hfinite
    exact ⟨vertex, hmem, hhighest vertex hmem habove⟩

end

def hookX : List Float := [0.0, 2.0, 2.0, 1.0, 1.0, 0.0]

def hookY : List Float := [0.0, 0.0, 1.0, 1.0, 2.0, 2.0]

theorem vertex_kept_iff_hook :
    (polygonal hookX hookY).check = .ok () ∧
      (polygonal hookX hookY).contains 0.0 0.0 = true ∧
      (polygonal hookX hookY).contains 1.0 2.0 = false := by
  have hcheck : (polygonal hookX hookY).check = .ok () := rfl
  obtain ⟨-, hneighbours, hhighest, -⟩ := vertex_kept_iff hcheck
  refine ⟨hcheck, ?_, ?_⟩
  · have hkept := hneighbours (0.0, 0.0) (2.0, 0.0)
      [(2.0, 1.0), (1.0, 1.0), (1.0, 2.0), (0.0, 2.0)] (List.IsRotated.refl _)
      (by decide +kernel) (by decide +kernel)
    rw [hkept]
    decide +kernel
  · exact hhighest (1.0, 2.0) (by simp [hookX, hookY]) (by decide +kernel)

/-- A square that is accepted and loses one of its vertices. -/
theorem contains_square_vertex :
    (polygonal [0.0, 1.0, 1.0, 0.0] [0.0, 0.0, 1.0, 1.0]).check = .ok () ∧
      (1.0, 1.0) ∈ [0.0, 1.0, 1.0, 0.0].zip [0.0, 0.0, 1.0, (1.0 : Float)] ∧
      (polygonal [0.0, 1.0, 1.0, 0.0] [0.0, 0.0, 1.0, 1.0]).contains 1.0 1.0 = false := by
  refine ⟨rfl, ?_, ?_⟩
  · simp
  · decide +kernel

end Region

end ScanPath
