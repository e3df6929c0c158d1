import Mathlib.Data.List.Basic
import ScanPath.Proofs.Composition.Dimension
import ScanPath.Proofs.Keyed

/-!
# Masks are filters

An excluder is asked about an assignment of values to axes.  The mask of a
dimension asks it about values that it finds by their place among the axes of
the leaf instead, once for every point of the leaf; what the dimension then runs
over is the points that all the excluders accept.
-/

namespace ScanPath

/-- Does the excluder keep the values, taken on its own axes in their order?  It keeps nothing
that lacks one of them. -/
def Excluder.accepts (excluder : Excluder) (value? : String → Option Float) : Bool :=
  match excluder.axes.mapM value? with
  | none => false
  | some coordinates => excluder.contains coordinates

theorem Excluder.accepts_congr {excluder : Excluder} {value? other? : String → Option Float}
    (h : ∀ axis ∈ excluder.axes, value? axis = other? axis) :
    excluder.accepts value? = excluder.accepts other? := by
  have hmapM : ∀ axes : List String, (∀ axis ∈ axes, value? axis = other? axis) →
      axes.mapM value? = axes.mapM other? := by
    intro axes haxes
    induction axes with
    | nil => rfl
    | cons axis axes ih =>
        rw [List.forall_mem_cons] at haxes
        rw [List.mapM_cons, List.mapM_cons, haxes.1, ih haxes.2]
  rw [accepts, accepts, hmapM _ h]

private theorem mapM_eq_some_filterMap {axes : List String} {value? : String → Option Float}
    (h : ∀ axis ∈ axes, (value? axis).isSome = true) :
    axes.mapM value? = some (axes.filterMap value?) := by
  induction axes with
  | nil => rfl
  | cons axis axes ih =>
      rw [List.forall_mem_cons] at h
      obtain ⟨value, hvalue⟩ := Option.isSome_iff_exists.mp h.1
      rw [List.mapM_cons, hvalue, ih h.2, List.filterMap_cons_some hvalue]
      rfl

namespace Leaf

variable {leaf : Leaf} {index : Nat}

def entries (leaf : Leaf) (index : Nat) : List (String × Float) :=
  leaf.axes.zip ((leaf.valuesAt index).getD [])

def rows (leaf : Leaf) : List (List (String × Float)) :=
  (List.range leaf.size).map leaf.entries

theorem Lawful.exists_values (h : leaf.Lawful) (hindex : index < leaf.size) :
    ∃ values, leaf.valuesAt index = some values ∧ leaf.entries index = leaf.axes.zip values ∧
      values.length = leaf.axes.length := by
  obtain ⟨values, hvalues⟩ := Option.isSome_iff_exists.mp ((h.isSome_iff index).mpr hindex)
  refine ⟨values, hvalues, ?_, h.length_eq index values hvalues⟩
  rw [entries, hvalues]
  rfl

theorem Lawful.map_fst_of_mem_rows (h : leaf.Lawful) {row : List (String × Float)}
    (hrow : row ∈ leaf.rows) : row.map Prod.fst = leaf.axes := by
  obtain ⟨index, hindex, rfl⟩ := List.mem_map.mp hrow
  obtain ⟨values, -, hentries, hlength⟩ := h.exists_values (List.mem_range.mp hindex)
  rw [hentries, List.map_fst_zip (by omega)]

end Leaf

namespace Dimension

private theorem lookup_zip (axes : List String) (values : List Float) (axis : String) :
    (axes.zip values).lookup axis = (axes.idxOf? axis).bind fun slot => values[slot]? := by
  induction axes generalizing values with
  | nil => rfl
  | cons name axes ih =>
      cases values with
      | nil => simp
      | cons value values =>
          rw [List.zip_cons_cons, List.lookup_cons, List.idxOf?_cons]
          by_cases hname : axis = name
          · subst hname
            simp
          · have hne : (name == axis) = false := beq_false_of_ne (Ne.symm hname)
            simp only [beq_false_of_ne hname, hne, ih, Bool.false_eq_true, if_false,
              Option.bind_map]
            rfl

theorem coordinates_slots (axes : List String) (values : List Float) (excluder : Excluder) :
    coordinates values (slots axes excluder) =
      excluder.axes.filterMap ((axes.zip values).lookup ·) := by
  rw [coordinates, slots, List.filterMap_filterMap]
  apply List.filterMap_congr
  intro axis _
  exact (lookup_zip axes values axis).symm

variable {leaf : Leaf} {excluders : List Excluder}

theorem contains_coordinates {values : List Float} {excluder : Excluder}
    (hlength : values.length = leaf.axes.length)
    (haxes : ∀ axis ∈ excluder.axes, axis ∈ leaf.axes) :
    excluder.contains (coordinates values (slots leaf.axes excluder)) =
      excluder.accepts ((leaf.axes.zip values).lookup ·) := by
  have hsome : ∀ axis ∈ excluder.axes,
      ((leaf.axes.zip values).lookup axis).isSome = true := by
    intro axis hmem
    obtain ⟨slot, hslot⟩ := Option.isSome_iff_exists.mp (List.isSome_idxOf?.mpr (haxes axis hmem))
    obtain ⟨hlt, -⟩ := List.idxOf?_eq_some_iff.mp hslot
    rw [lookup_zip, hslot, Option.bind_some, List.getElem?_eq_getElem (by omega)]
    rfl
  rw [coordinates_slots, Excluder.accepts, mapM_eq_some_filterMap hsome]

theorem keeps_eq {index : Nat} (hleaf : leaf.Lawful) (hindex : index < leaf.size)
    (haxes : ∀ excluder ∈ excluders, ∀ axis ∈ excluder.axes, axis ∈ leaf.axes) :
    keeps leaf (excluders.map fun excluder => (excluder, slots leaf.axes excluder)) index =
      excluders.all fun excluder => excluder.accepts ((leaf.entries index).lookup ·) := by
  obtain ⟨values, hvalues, hentries, hlength⟩ := hleaf.exists_values hindex
  rw [keeps, hvalues, hentries]
  simp only [List.all_map]
  rw [Bool.eq_iff_iff, List.all_eq_true, List.all_eq_true]
  apply forall₂_congr
  intro excluder hmem
  rw [Function.comp_apply, contains_coordinates hlength (haxes excluder hmem)]

theorem points_masked_eq_filter (hleaf : leaf.Lawful) (generator : Nat)
    (haxes : ∀ excluder ∈ excluders, ∀ axis ∈ excluder.axes, axis ∈ leaf.axes) :
    (masked leaf generator excluders).points =
      (List.range leaf.size).filter fun index =>
        excluders.all fun excluder => excluder.accepts ((leaf.entries index).lookup ·) := by
  rw [points_masked]
  cases excluders with
  | nil => exact (List.filter_eq_self.mpr fun _ _ => rfl).symm
  | cons excluder others =>
      rw [List.isEmpty_cons, if_neg Bool.false_ne_true]
      apply List.filter_congr
      intro index hmem
      exact keeps_eq hleaf (List.mem_range.mp hmem) haxes

def rows (dimension : Dimension) : List (List (String × Float)) :=
  dimension.points.map dimension.leaf.entries

theorem rows_masked (hleaf : leaf.Lawful) (generator : Nat)
    (haxes : ∀ excluder ∈ excluders, ∀ axis ∈ excluder.axes, axis ∈ leaf.axes) :
    (masked leaf generator excluders).rows =
      leaf.rows.filter fun row =>
        excluders.all fun excluder => excluder.accepts (row.lookup ·) := by
  rw [rows, points_masked_eq_filter hleaf generator haxes, Leaf.rows, List.filter_map]
  rfl

end Dimension

end ScanPath
