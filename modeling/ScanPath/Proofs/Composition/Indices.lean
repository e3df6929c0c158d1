import ScanPath.Proofs.Composition.Grid
import ScanPath.Proofs.Composition.Partition
import ScanPath.Proofs.Composition.Size
import ScanPath.Proofs.Mutator

/-!
# The indices of emitted points

The counters that a pass shows are the indices of the point it emits, one for
every dimension.  The point is a table made from one block of entries for each
dimension; since no two dimensions have an axis in common, each axis finds its
own entry in it.  Mutators change values only, so the emitted point has the same
axes and indices as the point they are given.
-/

namespace ScanPath

open List (Forall₂)

namespace Composition

def survivors (composition : Composition) (leaf : Leaf) : List Nat :=
  (List.range leaf.size).filter fun index =>
    (composition.excluders.filter leaf.absorbs).all fun excluder =>
      excluder.accepts ((leaf.entries index).lookup ·)

end Composition

namespace Dimension

def marked (dimension : Dimension) (counter : Nat) : List (String × AxisPoint) :=
  (dimension.leaf.entries (dimension.points.getD counter 0)).map fun entry =>
    (entry.1, ⟨entry.2, counter⟩)

variable {dimension : Dimension} {counter : Nat}

theorem Lawful.exists_point (h : dimension.Lawful) (hcounter : counter < dimension.length) :
    ∃ index values, dimension.points[counter]? = some index ∧
      dimension.leaf.valuesAt index = some values ∧ values.length = dimension.axes.length ∧
      dimension.marked counter =
        (dimension.axes.zip values).map fun entry => (entry.1, ⟨entry.2, counter⟩) := by
  rw [← length_points] at hcounter
  have hindex := List.getElem?_eq_getElem hcounter
  obtain ⟨values, hvalues, hentries, hlength⟩ :=
    h.leaf.exists_values (h.bounded _ (List.getElem_mem hcounter))
  refine ⟨_, values, hindex, hvalues, hlength, ?_⟩
  rw [marked, List.getD_eq_getElem?_getD, hindex, Option.getD_some, hentries]
  rfl

theorem Lawful.map_fst_marked (h : dimension.Lawful) (hcounter : counter < dimension.length) :
    (dimension.marked counter).map Prod.fst = dimension.axes := by
  obtain ⟨_, values, -, -, hlength, hmarked⟩ := h.exists_point hcounter
  rw [hmarked, List.map_map]
  exact List.map_fst_zip (by omega)

theorem Lawful.extend?_eq (h : dimension.Lawful) (hcounter : counter < dimension.length)
    (position : Position) :
    dimension.extend? position counter =
      some (Keyed.insertAll position (dimension.marked counter)) := by
  obtain ⟨index, values, hindex, hvalues, -, hmarked⟩ := h.exists_point hcounter
  rw [extend?, pointIndex?_of_lt hcounter, hindex, hmarked, ← Position.insertAll_eq]
  simp only [Option.bind_eq_bind, Option.bind_some, hvalues]
  rfl

end Dimension

namespace Composition

def markedAll (dimensions : List Dimension) (counters : List Nat) : List (String × AxisPoint) :=
  (List.zipWith Dimension.marked dimensions counters).flatten

def pointAt (composition : Composition) (counters : List Nat) : Position :=
  Keyed.insertAll ∅ (markedAll composition.dimensions counters)

section

variable {dimensions : List Dimension} (hlawful : ∀ dimension ∈ dimensions, dimension.Lawful)
  {counters : List Nat} (hcounters : Forall₂ (· < ·) counters (dimensions.map Dimension.length))

include hlawful hcounters

theorem extendAll?_eq (position : Position) :
    extendAll? dimensions position counters =
      some (Keyed.insertAll position (markedAll dimensions counters)) := by
  induction dimensions generalizing counters position with
  | nil =>
      cases hcounters
      rfl
  | cons dimension dimensions ih =>
      rw [List.forall_mem_cons] at hlawful
      cases hcounters with
      | cons hcounter hrest =>
          rw [extendAll?, hlawful.1.extend?_eq hcounter]
          exact (ih hlawful.2 hrest _).trans (congrArg some (Keyed.insertAll_append _ _ _).symm)

theorem map_fst_markedAll :
    (markedAll dimensions counters).map Prod.fst = dimensions.flatMap Dimension.axes := by
  induction dimensions generalizing counters with
  | nil =>
      cases hcounters
      rfl
  | cons dimension dimensions ih =>
      rw [List.forall_mem_cons] at hlawful
      cases hcounters with
      | cons hcounter hrest =>
          rw [List.flatMap_cons, ← ih hlawful.2 hrest, ← hlawful.1.map_fst_marked hcounter,
            ← List.map_append]
          rfl

end

variable {composition : Composition}

theorem Prepared.axisOrdering_nodup (h : Prepared composition) :
    composition.axisOrdering.Nodup := by
  obtain ⟨-, leaves, excluders, mutators, duration, hassembled⟩ := h.assembled
  rw [hassembled.axisOrdering_eq]
  exact (claimLeaves_empty_eq_ok hassembled.owners_eq).1

theorem Prepared.points_eq_survivors (h : Prepared composition)
    (hlawful : ∀ leaf ∈ composition.leaves, leaf.Lawful) :
    ∀ dimension ∈ composition.dimensions,
      dimension.points = composition.survivors dimension.leaf := by
  obtain ⟨-, leaves, excluders, mutators, duration, hassembled⟩ := h.assembled
  intro dimension hmem
  have hleaf : dimension.leaf.Lawful := hlawful _ (List.mem_map_of_mem hmem)
  have hmasked : dimension.points = (Dimension.masked dimension.leaf dimension.generator
      (composition.excluders.filter dimension.leaf.absorbs)).points := by
    rw [Dimension.points, hassembled.kept_eq dimension hmem]
    rfl
  rw [hmasked, Dimension.points_masked_eq_filter hleaf]
  · rfl
  · intro excluder hfolded axis haxis
    exact (Leaf.absorbs_iff.mp (List.mem_filter.mp hfolded).2).2 axis haxis

/-! ## What a point shows -/

/-- The position has the axes of the composition and no others.  All axes of a dimension have the
counter of the dimension as index, and their values are those of the leaf at the point of that
number among the ones that are left. -/
structure Shows (composition : Composition) (counters : List Nat) (position : Position) : Prop where
  keys_perm : position.keys.Perm composition.axisOrdering
  points : ∀ (place : Nat) (dimension : Dimension),
    composition.dimensions[place]? = some dimension →
    ∃ (counter index : Nat) (values : List Float),
      counters[place]? = some counter ∧ counter < dimension.length ∧
      (composition.survivors dimension.leaf)[counter]? = some index ∧
      dimension.leaf.valuesAt index = some values ∧ values.length = dimension.axes.length ∧
      ∀ (slot : Nat) (axis : String) (value : Float), dimension.axes[slot]? = some axis →
        values[slot]? = some value → position.get? axis = some ⟨value, counter⟩

/-- The position has the axes of the composition and no others, and all axes of a dimension have
the counter of the dimension as index. -/
structure Indexed (composition : Composition) (counters : List Nat) (position : Position) :
    Prop where
  keys_perm : position.keys.Perm composition.axisOrdering
  indices : ∀ (place : Nat) (dimension : Dimension),
    composition.dimensions[place]? = some dimension →
      ∃ counter, counters[place]? = some counter ∧ counter < dimension.length ∧
        ∀ axis ∈ dimension.axes, ∃ value, position.get? axis = some ⟨value, counter⟩

private theorem getElem?_of_forall₂ {counters : List Nat} {dimensions : List Dimension}
    (h : Forall₂ (· < ·) counters (dimensions.map Dimension.length)) {place : Nat}
    {dimension : Dimension} (hplace : dimensions[place]? = some dimension) :
    ∃ counter, counters[place]? = some counter ∧ counter < dimension.length := by
  induction dimensions generalizing counters place with
  | nil => cases hplace
  | cons first dimensions ih =>
      cases h with
      | cons hcounter hrest =>
          cases place with
          | zero =>
              cases hplace
              exact ⟨_, rfl, hcounter⟩
          | succ place => exact ih hrest hplace

theorem Prepared.shows_pointAt (h : Prepared composition)
    (hlawful : ∀ leaf ∈ composition.leaves, leaf.Lawful) {counters : List Nat}
    (hcounters : Forall₂ (· < ·) counters composition.shape) :
    composition.Shows counters (composition.pointAt counters) := by
  have hdimensions := h.dimensions_lawful hlawful
  have hkeys := map_fst_markedAll hdimensions hcounters
  have hnodup : ((markedAll composition.dimensions counters).map Prod.fst).Nodup :=
    hkeys ▸ h.axisOrdering_nodup
  constructor
  case keys_perm => exact (Keyed.keys_insertAll_perm hnodup).trans (.of_eq hkeys)
  case points =>
    intro place dimension hplace
    obtain ⟨counter, hcounter, hlt⟩ := getElem?_of_forall₂ hcounters hplace
    have hmem := List.mem_of_getElem? hplace
    obtain ⟨index, values, hindex, hvalues, hlength, hmarked⟩ :=
      (hdimensions dimension hmem).exists_point hlt
    rw [h.points_eq_survivors hlawful dimension hmem] at hindex
    refine ⟨counter, index, values, hcounter, hlt, hindex, hvalues, hlength, ?_⟩
    intro slot axis value haxis hvalue
    -- the entry stands in the block of its dimension
    have hentry : (axis, (⟨value, counter⟩ : AxisPoint)) ∈ dimension.marked counter := by
      rw [hmarked]
      refine List.mem_map.mpr ⟨(axis, value), List.mem_of_getElem? (i := slot) ?_, rfl⟩
      rw [List.getElem?_zip_eq_some]
      exact ⟨haxis, hvalue⟩
    have hblock : dimension.marked counter ∈
        List.zipWith Dimension.marked composition.dimensions counters := by
      apply List.mem_of_getElem? (i := place)
      rw [List.getElem?_zipWith, hplace, hcounter]
    rw [pointAt, Keyed.get?_insertAll hnodup,
      Keyed.lookup_of_mem hnodup (List.mem_flatten.mpr ⟨_, hblock, hentry⟩)]
    rfl

theorem Shows.indexed {counters : List Nat} {position changed : Position}
    (h : composition.Shows counters position) (hsame : changed.indices = position.indices) :
    composition.Indexed counters changed := by
  have hkeys : changed.keys = position.keys := by
    have hmap := congrArg Keyed.keys hsame
    rwa [Position.indices, Position.indices, Keyed.keys_map, Keyed.keys_map] at hmap
  constructor
  case keys_perm => exact hkeys ▸ h.keys_perm
  case indices =>
    intro place dimension hplace
    obtain ⟨counter, index, values, hcounter, hlt, -, -, hlength, hpoint⟩ :=
      h.points place dimension hplace
    refine ⟨counter, hcounter, hlt, ?_⟩
    intro axis hmem
    obtain ⟨slot, hslot⟩ := List.mem_iff_getElem?.mp hmem
    have hbound := (List.getElem?_eq_some_iff.mp hslot).1
    have hindex : (position.get? axis).map AxisPoint.index = some counter := by
      rw [hpoint slot axis _ hslot (List.getElem?_eq_getElem (hlength ▸ hbound))]
      rfl
    have hget : (changed.get? axis).map AxisPoint.index = some counter := by
      rw [← hindex, ← Keyed.get?_map, ← Keyed.get?_map]
      exact congrArg (Keyed.get? · axis) hsame
    obtain ⟨⟨value, _⟩, hchanged, rfl⟩ := Option.map_eq_some_iff.mp hget
    exact ⟨value, hchanged⟩

/-! ## The vectors of a pass -/

/-- The counters of the candidates that are emitted, in the order of the pass. -/
def vectors (composition : Composition) : List (List Nat) :=
  composition.course.filter fun counters =>
    admits composition.spanning (composition.pointAt counters)

theorem mem_course_iff {counters : List Nat} :
    counters ∈ composition.course ↔ Forall₂ (· < ·) counters composition.shape := by
  rw [composition.course_perm.mem_iff, Odometer.mem_settings_iff, wheels, List.map_map]
  rfl

theorem course_nodup (composition : Composition) : composition.course.Nodup :=
  composition.course_perm.nodup_iff.mpr (Odometer.settings_nodup _)

theorem admitted_eq_map_vectors
    (hlawful : ∀ dimension ∈ composition.dimensions, dimension.Lawful) :
    composition.admitted = composition.vectors.map composition.pointAt := by
  have hcandidates : composition.course.filterMap composition.candidate? =
      composition.course.map composition.pointAt := by
    rw [← List.filterMap_eq_map]
    apply List.filterMap_congr
    intro counters hmem
    exact extendAll?_eq hlawful (mem_course_iff.mp hmem) ∅
  rw [admitted, hcandidates, List.filter_map]
  rfl

theorem mutate_indices (hmutators : ∀ mutator ∈ composition.mutators,
      ∃ offset : RandomOffset, mutator = offset.mutator) (position : Position) (ordinal : Nat) :
    (composition.mutate position ordinal).indices = position.indices := by
  unfold mutate
  generalize composition.mutators = mutators at hmutators
  induction mutators generalizing position with
  | nil => rfl
  | cons mutator mutators ih =>
      rw [List.forall_mem_cons] at hmutators
      obtain ⟨⟨offset, rfl⟩, hrest⟩ := hmutators
      rw [List.foldl_cons, ih _ hrest]
      exact RandomOffset.perturb_indices _ _ _ _

/-- A pass emits one point for every vector, in their order: the point that the vector shows,
changed by the mutators, which leave its axes and its indices as they are.  No vector comes twice,
and without spanning excluders every vector below the shape comes. -/
theorem Prepared.emits_vectors (h : Prepared composition)
    (hlawful : ∀ leaf ∈ composition.leaves, leaf.Lawful)
    (hmutators : ∀ mutator ∈ composition.mutators,
      ∃ offset : RandomOffset, mutator = offset.mutator) :
    composition.vectors.Nodup ∧ composition.vectors.length = composition.size ∧
      (∀ vector ∈ composition.vectors, Forall₂ (· < ·) vector composition.shape) ∧
      (composition.spanning = [] → ∀ vector, Forall₂ (· < ·) vector composition.shape →
        vector ∈ composition.vectors) ∧
      (∀ ordinal, composition.vectors.length ≤ ordinal →
        Source.itemAt? Pass.pull (Pass.start composition) ordinal = none) ∧
      ∀ ordinal vector, composition.vectors[ordinal]? = some vector →
        ∃ point, composition.Shows vector point ∧
          Source.itemAt? Pass.pull (Pass.start composition) ordinal =
            some (composition.mutate point ordinal) ∧
          composition.Indexed vector (composition.mutate point ordinal) := by
  have hdimensions := h.dimensions_lawful hlawful
  obtain ⟨hwheels, hcomplete, hlength⟩ := h.sound hlawful
  have hadmitted := admitted_eq_map_vectors hdimensions
  have hemits : ∀ ordinal, Source.itemAt? Pass.pull (Pass.start composition) ordinal =
      composition.vectors[ordinal]?.map fun vector =>
        composition.mutate (composition.pointAt vector) ordinal := by
    intro ordinal
    rw [Pass.emits_emission hwheels hcomplete ordinal, emission, hadmitted, List.getElem?_mapIdx,
      List.getElem?_map, Option.map_map]
    rfl
  have hbelow : ∀ vector ∈ composition.vectors, Forall₂ (· < ·) vector composition.shape :=
    fun vector hmem => mem_course_iff.mp (List.mem_of_mem_filter hmem)
  refine ⟨composition.course_nodup.filter _, ?_, hbelow, ?_, ?_, ?_⟩
  · rw [← hlength, hadmitted, List.length_map]
  · intro hspanning vector hvector
    rw [vectors, hspanning]
    exact List.mem_filter.mpr ⟨mem_course_iff.mpr hvector, rfl⟩
  · intro ordinal hle
    rw [hemits, List.getElem?_eq_none hle]
    rfl
  · intro ordinal vector hvector
    have hshows := h.shows_pointAt hlawful (hbelow vector (List.mem_of_getElem? hvector))
    refine ⟨composition.pointAt vector, hshows, ?_, ?_⟩
    · rw [hemits, hvector]
      rfl
    · exact hshows.indexed (mutate_indices hmutators _ _)

/-- A snaked leaf with two axes, of whose three points an excluder leaves two. -/
def snakedComposer : Composer :=
  .ofParts [.leaf (sampleLeaf "z" 2 false),
      .leaf (Line.leaf ⟨["x", "y"], ["mm", "mm"], [0.0, 0.0], [1.0, 1.0], 3, true⟩)]
    [sampleExcluder ["y", "x"]] [sampleMutator "x"] none

theorem Prepared.emits_vectors_snakedComposer :
    ∃ composition, snakedComposer.prepare.1 = .ok composition ∧ composition.shape = [2, 2] ∧
      composition.vectors = [[0, 0], [0, 1], [1, 1], [1, 0]] ∧
      ∃ point, composition.Shows [1, 1] point ∧
        Source.itemAt? Pass.pull (Pass.start composition) 2 =
          some (composition.mutate point 2) ∧
        composition.Indexed [1, 1] (composition.mutate point 2) := by
  obtain ⟨composition, hprepare, hfacts⟩ := Checked.exists_of_any
    (show snakedComposer.prepare.1.toOption.any (fun composition =>
      composition.shape == [2, 2] &&
        composition.vectors == [[0, 0], [0, 1], [1, 1], [1, 0]]) = true by decide +kernel)
  rw [Bool.and_eq_true, beq_iff_eq, beq_iff_eq] at hfacts
  obtain ⟨hshape, hvectors⟩ := hfacts
  obtain ⟨-, _, -, hassembled⟩ := Composer.compose_eq_ok (Composer.prepare_eq_ok hprepare)
  have hprepared : Prepared composition :=
    .of _ _ (by simp [snakedComposer, Composer.ofParts]) hprepare
  have hlawful : ∀ leaf ∈ composition.leaves, leaf.Lawful := by
    rw [hassembled.leaves_eq]
    intro leaf hmem
    change leaf ∈ [sampleLeaf "z" 2 false, _] at hmem
    rcases List.mem_pair.mp hmem with rfl | rfl
    · exact sampleLeaf_lawful "z" 2 false
    · exact Line.leaf_lawful rfl rfl
  have hmutators : ∀ mutator ∈ composition.mutators,
      ∃ offset : RandomOffset, mutator = offset.mutator := by
    rw [hassembled.mutators_eq]
    intro mutator hmem
    have hsupplied := Descriptor.mem_of_mem_firstOccurrencesAfter hmem
    exact ⟨_, List.mem_singleton.mp hsupplied⟩
  obtain ⟨-, -, -, -, -, hpoints⟩ := hprepared.emits_vectors hlawful hmutators
  exact ⟨composition, hprepare, hshape, hvectors, hpoints 2 [1, 1] (by rw [hvectors]; rfl)⟩

end Composition

end ScanPath
