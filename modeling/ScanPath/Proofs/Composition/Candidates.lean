import ScanPath.Proofs.Composition.Assembly
import ScanPath.Proofs.Composition.Dimension
import ScanPath.Proofs.Composition.Odometer

/-!
# The candidates of a composition

`reach` lists the points that extend a position by one point of every dimension,
the last dimension fastest.  Counting and emitting both run over this list, the
one in its own order and the other as the odometer snakes; over lawful
dimensions the list is as long as the odometer goes.
-/

namespace ScanPath.Composition

open Odometer

def reach (dimensions : List Dimension) (position : Position) : List Position :=
  (settings (dimensions.map Dimension.wheel)).filterMap (extendAll? dimensions position)

theorem reach_nil (position : Position) : reach [] position = [position] := rfl

theorem reach_cons (dimension : Dimension) (dimensions : List Dimension) (position : Position) :
    reach (dimension :: dimensions) position =
      ((List.range dimension.length).filterMap (dimension.extend? position)).flatMap
        (reach dimensions) := by
  have hinner : ∀ counter,
      ((settings (dimensions.map Dimension.wheel)).map (counter :: ·)).filterMap
          (extendAll? (dimension :: dimensions) position) =
        (dimension.extend? position counter).toList.flatMap (reach dimensions) := by
    intro counter
    rw [List.filterMap_map]
    cases hextend : dimension.extend? position counter with
    | none =>
        apply List.filterMap_eq_nil_iff.mpr
        intro counters _
        simp [extendAll?, hextend]
    | some onward =>
        rw [Option.toList_some, List.flatMap_singleton]
        apply List.filterMap_congr
        intro counters _
        simp [extendAll?, hextend]
  rw [reach, List.map_cons, settings, List.filterMap_flatMap, List.filterMap_eq_flatMap_toList,
    List.flatMap_assoc]
  simp only [hinner]
  rfl

private theorem fold_add_eq_length (count : Nat) (extend? : Nat → Option Position)
    (found : Position → List Position) :
    count.fold (fun counter _ total =>
        match extend? counter with
        | none => total
        | some position => total + (found position).length) 0 =
      (((List.range count).filterMap extend?).flatMap found).length := by
  induction count with
  | zero => rfl
  | succ count ih =>
      rw [Nat.fold_succ, ih, List.range_succ, List.filterMap_append, List.flatMap_append,
        List.length_append]
      cases hextend : extend? count with
      | none => simp [hextend]
      | some position => simp [hextend]

theorem countAdmitted_eq (spanning : List Excluder) (dimensions : List Dimension)
    (position : Position) :
    countAdmitted spanning dimensions position =
      ((reach dimensions position).filter (admits spanning)).length := by
  induction dimensions generalizing position with
  | nil =>
      rw [countAdmitted, reach_nil, List.filter_singleton]
      cases admits spanning position with
      | true => rfl
      | false => rfl
  | cons dimension dimensions ih =>
      have hfold := fold_add_eq_length dimension.length (dimension.extend? position)
        fun onward => (reach dimensions onward).filter (admits spanning)
      simp only [← ih] at hfold
      rw [reach_cons, List.filter_flatMap, ← hfold]
      rfl

theorem countedProduct?_eq_some {total product : Nat} {dimensions : List Dimension}
    (h : countedProduct? total (dimensions.map Dimension.length) = some product) :
    product = total * volume (dimensions.map Dimension.wheel) := by
  induction dimensions generalizing total with
  | nil =>
      cases h
      simp
  | cons dimension dimensions ih =>
      rw [List.map_cons] at h
      unfold countedProduct? at h
      split at h
      · rw [ih h, List.map_cons, volume_cons, Nat.mul_assoc]
        rfl
      · cases h

section

variable {dimensions : List Dimension} (hlawful : ∀ dimension ∈ dimensions, dimension.Lawful)

include hlawful

theorem extendAll?_isSome (position : Position) {counters : List Nat}
    (h : counters ∈ settings (dimensions.map Dimension.wheel)) :
    (extendAll? dimensions position counters).isSome = true := by
  induction dimensions generalizing position counters with
  | nil => rfl
  | cons dimension dimensions ih =>
      rw [List.map_cons, settings, List.mem_flatMap] at h
      obtain ⟨counter, hcounter, h⟩ := h
      obtain ⟨rest, hrest, rfl⟩ := List.mem_map.mp h
      obtain ⟨onward, honward⟩ := Option.isSome_iff_exists.mp
        ((hlawful dimension List.mem_cons_self).extend?_isSome (List.mem_range.mp hcounter)
          position)
      rw [extendAll?, honward]
      exact ih (fun other hmem => hlawful other (List.mem_cons_of_mem _ hmem)) onward hrest

theorem length_reach (position : Position) :
    (reach dimensions position).length = volume (dimensions.map Dimension.wheel) := by
  rw [reach, List.filterMap_length_eq_length.mpr fun _ => extendAll?_isSome hlawful position,
    length_settings]

theorem countPoints_eq_ok {spanning : List Excluder} {size : Nat}
    (h : countPoints spanning dimensions = .ok size) :
    size = ((reach dimensions ∅).filter (admits spanning)).length := by
  simp only [countPoints] at h
  cases hproduct : countedProduct? 1 (dimensions.map Dimension.length) with
  | none =>
      rw [hproduct] at h
      cases h
  | some product =>
      rw [hproduct] at h
      have hlength := length_reach hlawful ∅
      rw [← Nat.one_mul (volume _), ← countedProduct?_eq_some hproduct] at hlength
      by_cases hspanning : spanning = []
      · subst hspanning
        cases h
        have hall : (reach dimensions ∅).filter (admits []) = reach dimensions ∅ :=
          List.filter_eq_self.mpr fun _ _ => rfl
        rw [hall, hlength]
        rfl
      · by_cases hzero : product = 0
        · subst hzero
          rw [List.length_eq_zero_iff] at hlength
          rw [hlength]
          simpa using h.symm
        · simp only [List.isEmpty_eq_false_iff.mpr hspanning, beq_false_of_ne hzero, Bool.or_false,
            Bool.false_eq_true, if_false, countAdmitted_eq] at h
          cases h
          rfl

end

theorem fold_lawful {owners : Keyed Nat} {excluders : List Excluder} {index : Nat}
    {leaves : List Leaf} (h : ∀ leaf ∈ leaves, leaf.Lawful) :
    ∀ dimension ∈ fold owners excluders index leaves, dimension.Lawful := by
  induction leaves generalizing index with
  | nil =>
      intro dimension hmem
      cases hmem
  | cons leaf leaves ih =>
      rw [List.forall_mem_cons] at h
      rw [fold, List.forall_mem_cons]
      exact ⟨Dimension.masked_lawful h.1 index _, ih h.2⟩

end ScanPath.Composition
