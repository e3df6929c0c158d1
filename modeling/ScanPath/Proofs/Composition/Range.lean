import ScanPath.Proofs.Composition.Indices

/-!
# Nothing out of range

A pass, and the count before it, look points up by their counter and values by
their slot, and turn counters round by subtracting them, without a check.  What
keeps all of this in range is that the odometer shows settings of its wheels and
nothing else.  Turning keeps that, and so does snaking; whatever is looked up
then exists, because the points of a dimension are points of its leaf and the
leaf is lawful.
-/

namespace ScanPath

open List (Forall₂)

namespace Dimension

/-- The dimension can be shown at the counter: there is such a point, turning the counter round does
not go below zero, and the leaf has one value for each axis there. -/
structure InRange (dimension : Dimension) (counter : Nat) : Prop where
  lt_length : counter < dimension.length
  turned_round : ((dimension.length - 1 - counter : Nat) : Int) =
    (dimension.length : Int) - 1 - counter
  lt_size_kept : ∀ kept, dimension.kept = some kept → counter < kept.size
  point : ∃ index values, dimension.pointIndex? counter = some index ∧
    index < dimension.leaf.size ∧ dimension.leaf.valuesAt index = some values ∧
    values.length = dimension.axes.length

/-- The mask lists points of the leaf, each once and in order, and wherever the leaf has values the
excluders behind the mask find one for each of their axes. -/
structure MaskInRange (dimension : Dimension) (folded : List Excluder) : Prop where
  increasing : ∀ kept, dimension.kept = some kept → kept.toList.Pairwise (· < ·)
  lt_size : ∀ kept, dimension.kept = some kept → ∀ index ∈ kept, index < dimension.leaf.size
  slots_lt : ∀ excluder ∈ folded, ∀ index values, dimension.leaf.valuesAt index = some values →
    (∀ slot ∈ slots dimension.axes excluder, slot < values.length) ∧
    (coordinates values (slots dimension.axes excluder)).length = excluder.axes.length

variable {dimension : Dimension}

theorem Lawful.inRange (h : dimension.Lawful) {counter : Nat}
    (hcounter : counter < dimension.length) : dimension.InRange counter where
  lt_length := hcounter
  turned_round := by omega
  lt_size_kept := by
    intro kept hkept
    simpa [length, hkept] using hcounter
  point := by
    obtain ⟨index, values, hindex, hvalues, hlength, -⟩ := h.exists_point hcounter
    refine ⟨index, values, ?_, h.bounded index (List.mem_of_getElem? hindex), hvalues, hlength⟩
    rw [pointIndex?_of_lt hcounter, hindex]

theorem pairwise_points_masked (leaf : Leaf) (generator : Nat) (excluders : List Excluder) :
    (masked leaf generator excluders).points.Pairwise (· < ·) := by
  rw [points_masked]
  split
  · exact List.pairwise_lt_range
  · exact List.pairwise_lt_range.filter _

theorem slot_lt {axes : List String} {excluder : Excluder} {slot : Nat}
    (h : slot ∈ slots axes excluder) : slot < axes.length := by
  obtain ⟨axis, -, hslot⟩ := List.mem_filterMap.mp h
  exact (List.idxOf?_eq_some_iff.mp hslot).1

theorem length_coordinates {axes : List String} {values : List Float} {excluder : Excluder}
    (hlength : values.length = axes.length) (haxes : ∀ axis ∈ excluder.axes, axis ∈ axes) :
    (coordinates values (slots axes excluder)).length = excluder.axes.length := by
  have hslots : (slots axes excluder).length = excluder.axes.length := by
    rw [slots, List.filterMap_length_eq_length]
    exact fun axis hmem => List.isSome_idxOf?.mpr (haxes axis hmem)
  rw [← hslots, coordinates, List.filterMap_length_eq_length]
  intro slot hslot
  simp [hlength, slot_lt hslot]

end Dimension

namespace Composition

structure InRange (composition : Composition) (counters : List Nat) : Prop where
  each : Forall₂ Dimension.InRange composition.dimensions counters
  candidate : (composition.candidate? counters).isSome = true

structure Shown (composition : Composition) (odometer : Odometer) : Prop where
  wheels_eq : odometer.wheels = composition.wheels
  counted : ∀ counters, odometer.current = some counters → composition.InRange counters
  visited : ∀ counters, odometer.current = some counters →
    composition.InRange (Odometer.visited odometer.wheels counters)

theorem forall₂_inRange {dimensions : List Dimension}
    (hlawful : ∀ dimension ∈ dimensions, dimension.Lawful) {counters : List Nat}
    (h : Forall₂ (· < ·) counters (dimensions.map Dimension.length)) :
    Forall₂ Dimension.InRange dimensions counters := by
  induction dimensions generalizing counters with
  | nil =>
      cases h
      exact .nil
  | cons dimension dimensions ih =>
      rw [List.forall_mem_cons] at hlawful
      cases h with
      | cons hcounter hrest => exact .cons (hlawful.1.inRange hcounter) (ih hlawful.2 hrest)

section

variable {composition : Composition}
  (hlawful : ∀ dimension ∈ composition.dimensions, dimension.Lawful)

include hlawful

theorem inRange_of_mem_settings {counters : List Nat}
    (h : counters ∈ Odometer.settings composition.wheels) : composition.InRange counters where
  each := by
    apply forall₂_inRange hlawful
    have hbelow := Odometer.mem_settings_iff.mp h
    rwa [wheels, List.map_map] at hbelow
  candidate := extendAll?_isSome hlawful ∅ h

theorem shown_turned (hwheels : composition.wheels ≠ []) (turns : Nat) :
    composition.Shown (Odometer.turned composition.wheels turns) := by
  have hsetting : ∀ counters, (Odometer.turned composition.wheels turns).current = some counters →
      counters ∈ Odometer.settings composition.wheels := by
    intro counters hcounters
    rw [Odometer.current_turned hwheels] at hcounters
    exact List.mem_of_getElem? hcounters
  refine ⟨Odometer.wheels_turned _ _, ?_, ?_⟩
  · exact fun counters hcounters => inRange_of_mem_settings hlawful (hsetting counters hcounters)
  · intro counters hcounters
    rw [Odometer.wheels_turned]
    exact inRange_of_mem_settings hlawful (composition.course_perm.mem_iff.mp
      (List.mem_map_of_mem (hsetting counters hcounters)))

end

/-! ## Counting walk -/

def found (composition : Composition) (counters : List (List Nat)) : List Position :=
  (counters.filterMap composition.candidate?).filter (admits composition.spanning)

theorem found_append (composition : Composition) (first second : List (List Nat)) :
    composition.found (first ++ second) = composition.found first ++ composition.found second := by
  rw [found, List.filterMap_append, List.filter_append]
  rfl

def tally (composition : Composition) (counters : Option (List Nat)) : Nat :=
  (composition.found counters.toList).length

/-- The odometer and the count after so many turns of a walk that counts the admitted points. -/
def counting (composition : Composition) : Nat → Odometer × Nat
  | 0 => (.start composition.wheels, 0)
  | turns + 1 =>
      let (odometer, count) := composition.counting turns
      (odometer.advance, count + composition.tally odometer.current)

theorem counting_eq {composition : Composition} (hwheels : composition.wheels ≠ []) (turns : Nat) :
    composition.counting turns = (Odometer.turned composition.wheels turns,
      (composition.found ((Odometer.settings composition.wheels).take turns)).length) := by
  induction turns with
  | zero => rfl
  | succ turns ih =>
      rw [List.take_add_one, found_append, List.length_append,
        ← Odometer.current_turned hwheels, counting, ih]
      rfl

theorem Prepared.counting_volume {composition : Composition} (h : Prepared composition)
    (hlawful : ∀ leaf ∈ composition.leaves, leaf.Lawful) :
    (composition.counting (Odometer.volume composition.wheels)).1.current = none ∧
      (composition.counting (Odometer.volume composition.wheels)).2 = composition.size := by
  have hall : (Odometer.settings composition.wheels).length ≤
      Odometer.volume composition.wheels := Nat.le_of_eq (Odometer.length_settings _)
  rw [counting_eq h.wheels_ne_nil, Odometer.current_turned h.wheels_ne_nil,
    List.take_of_length_le hall]
  refine ⟨List.getElem?_eq_none hall, ?_⟩
  rw [← (h.sound hlawful).length_admitted]
  exact composition.admitted_perm.length_eq.symm

end Composition

/-! ## Passes -/

namespace Pass

open ScanPath.Composition

/-- One turn of the loop in a pull: the odometer moves on, and an admitted candidate is counted. -/
def turn (pass : Pass) : Pass :=
  match pass.odometer.current with
  | none => pass
  | some counters =>
      { pass with
        odometer := pass.odometer.advance
        emitted := pass.emitted +
          pass.composition.tally (some (Odometer.visited pass.odometer.wheels counters)) }

inductive Reachable (composition : Composition) : Pass → Prop
  | start : Reachable composition (start composition)
  | turn {pass : Pass} (h : Reachable composition pass) : Reachable composition pass.turn

section

variable {pass : Pass} {counters : List Nat} (fuel : Nat)
  (hcurrent : pass.odometer.current = some counters)

include hcurrent

theorem pullWithin_of_candidate?_none
    (hnone : pass.composition.candidate? (Odometer.visited pass.odometer.wheels counters) = none) :
    pullWithin (fuel + 1) pass = (none, pass.turn) := by
  simp [pullWithin, turn, tally, found, hcurrent, hnone]

theorem pullWithin_of_candidate?_some {candidate : Position}
    (hsome : pass.composition.candidate? (Odometer.visited pass.odometer.wheels counters) =
      some candidate) :
    pullWithin (fuel + 1) pass =
      if admits pass.composition.spanning candidate then
        (some (pass.composition.mutate candidate pass.emitted), pass.turn)
      else pullWithin fuel pass.turn := by
  cases hadmits : admits pass.composition.spanning candidate with
  | true => simp [pullWithin, turn, tally, found, hcurrent, hsome, hadmits]
  | false => simp [pullWithin, turn, tally, found, hcurrent, hsome, hadmits]

end

theorem pullWithin_of_current_none {pass : Pass} (fuel : Nat)
    (h : pass.odometer.current = none) : pullWithin fuel pass = (none, pass) := by
  cases fuel with
  | zero => rfl
  | succ fuel => simp only [pullWithin, h]

theorem Reachable.pullWithin {composition : Composition} (fuel : Nat) {pass : Pass}
    (h : Reachable composition pass) : Reachable composition (pullWithin fuel pass).2 := by
  induction fuel generalizing pass with
  | zero => exact h
  | succ fuel ih =>
      cases hcurrent : pass.odometer.current with
      | none =>
          rw [pullWithin_of_current_none _ hcurrent]
          exact h
      | some counters =>
          cases hcandidate :
              pass.composition.candidate? (Odometer.visited pass.odometer.wheels counters) with
          | none =>
              rw [pullWithin_of_candidate?_none fuel hcurrent hcandidate]
              exact h.turn
          | some candidate =>
              rw [pullWithin_of_candidate?_some fuel hcurrent hcandidate]
              split
              · exact h.turn
              · exact ih h.turn

section

variable {composition : Composition} (hwheels : composition.wheels ≠ [])

include hwheels

theorem current_standing (turns emitted : Nat) :
    (standing composition turns emitted).odometer.current =
      (Odometer.settings composition.wheels)[turns]? :=
  Odometer.current_turned hwheels turns

theorem turn_standing {turns : Nat} (h : turns < Odometer.volume composition.wheels)
    (emitted : Nat) :
    (standing composition turns emitted).turn = standing composition (turns + 1)
      (emitted + (composition.found composition.course[turns]?.toList).length) := by
  have hsetting := Odometer.getElem?_settings h
  rw [turn, current_standing hwheels, course, List.getElem?_map, hsetting]
  simp only [standing, Odometer.wheels_turned]
  rfl

theorem turn_standing_of_le {turns : Nat} (h : Odometer.volume composition.wheels ≤ turns)
    (emitted : Nat) :
    (standing composition turns emitted).turn = standing composition turns emitted := by
  rw [turn, current_standing hwheels,
    List.getElem?_eq_none (by rw [Odometer.length_settings]; exact h)]

/-- After some turns a pass has emitted what is admitted among the counters it has shown. -/
theorem Reachable.exists_standing {pass : Pass} (h : Reachable composition pass) :
    ∃ turns, pass = standing composition turns
      (composition.found (composition.course.take turns)).length := by
  induction h with
  | start => exact ⟨0, rfl⟩
  | turn _ ih =>
      obtain ⟨turns, rfl⟩ := ih
      rcases Nat.lt_or_ge turns (Odometer.volume composition.wheels) with hlt | hle
      · refine ⟨turns + 1, ?_⟩
        rw [turn_standing hwheels hlt, List.take_add_one, found_append, List.length_append]
      · exact ⟨turns, turn_standing_of_le hwheels hle _⟩

theorem current_eq_none_of_pullWithin (hcomplete : composition.Complete) (fuel turns emitted : Nat)
    (hfuel : Odometer.volume composition.wheels ≤ turns + fuel)
    (hnone : (pullWithin fuel (standing composition turns emitted)).1 = none) :
    (pullWithin fuel (standing composition turns emitted)).2.odometer.current = none := by
  induction fuel generalizing turns emitted with
  | zero =>
      rw [pullWithin, current_standing hwheels]
      exact List.getElem?_eq_none (by rw [Odometer.length_settings]; exact hfuel)
  | succ fuel ih =>
      have hcurrent := current_standing hwheels turns emitted
      rcases Nat.lt_or_ge turns (Odometer.volume composition.wheels) with hlt | hle
      · obtain ⟨counters, candidate, hcounters, hcandidate, -⟩ := pending_of_lt hcomplete hlt
        rw [hcounters] at hcurrent
        have hsome : composition.candidate? (Odometer.visited
            (standing composition turns emitted).odometer.wheels counters) = some candidate := by
          rw [standing, Odometer.wheels_turned]
          exact hcandidate
        rw [pullWithin_of_candidate?_some fuel hcurrent hsome] at hnone ⊢
        split at hnone
        · cases hnone
        next hrefused =>
          rw [if_neg hrefused]
          rw [turn_standing hwheels hlt] at hnone ⊢
          exact ih (turns + 1) _ (by omega) hnone
      · rw [List.getElem?_eq_none (by rw [Odometer.length_settings]; exact hle)] at hcurrent
        rw [pullWithin_of_current_none _ hcurrent]
        exact hcurrent

end

end Pass

namespace Composition

theorem Assembled.getElem?_generator {leaves : List Leaf} {excluders : List Excluder}
    {mutators : List Mutator} {duration : Option Float} {composition : Composition}
    (h : Assembled leaves excluders mutators duration composition) {dimension : Dimension}
    (hmem : dimension ∈ composition.dimensions) :
    composition.dimensions[dimension.generator]? = some dimension := by
  rw [h.dimensions_eq_mapIdx] at hmem ⊢
  obtain ⟨place, hplace, rfl⟩ := List.mem_mapIdx.mp hmem
  simp [Dimension.masked, hplace]

theorem Prepared.maskInRange {composition : Composition} (h : Prepared composition)
    (hlawful : ∀ leaf ∈ composition.leaves, leaf.Lawful) {dimension : Dimension}
    (hmem : dimension ∈ composition.dimensions) :
    dimension.MaskInRange (composition.excluders.filter fun excluder =>
      home? composition.owners excluder == some dimension.generator) := by
  have hdimension := h.dimensions_lawful hlawful dimension hmem
  obtain ⟨-, leaves, excluders, mutators, duration, hassembled⟩ := h.assembled
  have hpoints : ∀ kept, dimension.kept = some kept → kept.toList = dimension.points := by
    intro kept hkept
    rw [Dimension.points, hkept]
  constructor
  case increasing =>
    intro kept hkept
    rw [hpoints kept hkept]
    rw [hassembled.dimensions_eq_mapIdx] at hmem
    obtain ⟨place, -, rfl⟩ := List.mem_mapIdx.mp hmem
    exact Dimension.pairwise_points_masked _ _ _
  case lt_size =>
    intro kept hkept index hindex
    apply hdimension.bounded
    rw [← hpoints kept hkept]
    exact Array.mem_toList_iff.mpr hindex
  case slots_lt =>
    intro excluder hfolded index values hvalues
    have hlength : values.length = dimension.axes.length :=
      hdimension.leaf.length_eq index values hvalues
    refine ⟨fun slot hslot => hlength ▸ Dimension.slot_lt hslot, ?_⟩
    apply Dimension.length_coordinates hlength
    intro axis haxis
    -- the dimension that owns the axis stands at the home of the excluder, where this one stands
    obtain ⟨hexcluder, hhome⟩ := List.mem_filter.mp hfolded
    rw [hassembled.excluders_eq] at hexcluder
    have howner := get?_of_home? (hassembled.excluders_known excluder hexcluder)
      (eq_of_beq hhome) axis haxis
    obtain ⟨owner, howner, hown⟩ := (hassembled.get?_owners_iff axis _).mp howner
    rw [hassembled.getElem?_generator hmem] at howner
    cases howner
    exact hown

theorem length_found_take_le (composition : Composition) (turns : Nat) :
    (composition.found (composition.course.take turns)).length ≤ composition.admitted.length := by
  have hall : composition.admitted = composition.found (composition.course.take turns) ++
      composition.found (composition.course.drop turns) := by
    rw [← found_append, List.take_append_drop]
    rfl
  rw [hall, List.length_append]
  omega

/-- Over lawful leaves nothing that a composition looks up is out of range.  The masks list points
of their leaves in increasing order.  At every turn of the walk that counts the points, and in every
state of a pass, the odometer shows one counter for each dimension, below its length and free to be
turned round, and there is a candidate for them, both as they are and as they are visited.  The walk
ends with the size; a pass never emits more than that, and a pull gives nothing only when the
odometer has come round. -/
theorem Prepared.in_range {composition : Composition} (h : Prepared composition)
    (hlawful : ∀ leaf ∈ composition.leaves, leaf.Lawful) :
    (∀ dimension ∈ composition.dimensions,
      dimension.MaskInRange (composition.excluders.filter fun excluder =>
        home? composition.owners excluder == some dimension.generator)) ∧
    (∀ turns, composition.Shown (composition.counting turns).1) ∧
    (composition.counting (Odometer.volume composition.wheels)).1.current = none ∧
    (composition.counting (Odometer.volume composition.wheels)).2 = composition.size ∧
    ∀ pass, Pass.Reachable composition pass →
      composition.Shown pass.odometer ∧ pass.emitted ≤ composition.size ∧
      Pass.Reachable composition pass.pull.2 ∧
      (pass.pull.1 = none → pass.pull.2.odometer.current = none) := by
  have hdimensions := h.dimensions_lawful hlawful
  obtain ⟨hwheels, hcomplete, hsize⟩ := h.sound hlawful
  have hshown := shown_turned hdimensions hwheels
  obtain ⟨hover, hcount⟩ := h.counting_volume hlawful
  refine ⟨fun _ hmem => h.maskInRange hlawful hmem, ?_, hover, hcount, ?_⟩
  · intro turns
    rw [counting_eq hwheels]
    exact hshown turns
  · intro pass hpass
    obtain ⟨turns, hstanding⟩ := hpass.exists_standing hwheels
    refine ⟨?_, ?_, hpass.pullWithin _, ?_⟩
    · rw [hstanding]
      exact hshown turns
    · rw [hstanding, ← hsize]
      exact composition.length_found_take_le turns
    · rw [hstanding]
      apply Pass.current_eq_none_of_pullWithin hwheels hcomplete
      simp [Pass.standing]

theorem Prepared.in_range_snaking :
    ∃ composition, (Composer.ofParts [.leaf (sampleLeaf "x" 2 false), .leaf (sampleLeaf "y" 4 true),
        .leaf (sampleLeaf "z" 2 true)] [sampleExcluder ["y"], sampleExcluder ["z", "x"]] []
          none).prepare.1 = .ok composition ∧
      composition.dimensions.map Dimension.kept = [none, some #[0, 1, 2], none] ∧
      (composition.counting 12).2 = 3 ∧
      ∀ pulls, composition.Shown (Source.after Pass.pull (Pass.start composition) pulls).odometer ∧
        (Source.after Pass.pull (Pass.start composition) pulls).emitted ≤ 3 := by
  obtain ⟨composition, hprepare, hfacts⟩ := Checked.exists_of_any
    (show (Composer.ofParts [.leaf (sampleLeaf "x" 2 false), .leaf (sampleLeaf "y" 4 true),
        .leaf (sampleLeaf "z" 2 true)] [sampleExcluder ["y"], sampleExcluder ["z", "x"]] []
          none).prepare.1.toOption.any (fun composition =>
            composition.dimensions.map Dimension.kept == [none, some #[0, 1, 2], none] &&
              Odometer.volume composition.wheels == 12 && composition.size == 3) = true by
                decide +kernel)
  rw [Bool.and_eq_true, Bool.and_eq_true, beq_iff_eq, beq_iff_eq, beq_iff_eq] at hfacts
  obtain ⟨⟨hkept, hvolume⟩, hsize⟩ := hfacts
  have hprepared : Prepared composition := .of _ _ (by simp [Composer.ofParts]) hprepare
  have hlawful : ∀ leaf ∈ composition.leaves, leaf.Lawful := by
    obtain ⟨-, _, -, hassembled⟩ := Composer.compose_eq_ok (Composer.prepare_eq_ok hprepare)
    rw [hassembled.leaves_eq]
    simp [Composer.ofParts, Composer.Input.leaves, sampleLeaf_lawful]
  obtain ⟨-, -, -, hcount, hpasses⟩ := hprepared.in_range hlawful
  rw [hvolume, hsize] at hcount
  have hreachable : ∀ pulls,
      Pass.Reachable composition (Source.after Pass.pull (Pass.start composition) pulls) := by
    intro pulls
    induction pulls with
    | zero => exact .start
    | succ pulls ih => exact ih.pullWithin _
  refine ⟨composition, hprepare, hkept, hcount, ?_⟩
  intro pulls
  obtain ⟨hshown, hemitted, -⟩ := hpasses _ (hreachable pulls)
  exact ⟨hshown, hsize ▸ hemitted⟩

end Composition

end ScanPath
