import Mathlib.Data.List.Nodup
import ScanPath.Proofs.Composition.Counting
import ScanPath.Proofs.Composition.Nesting

/-!
# How the parts are shared out

The order of the axes, their owners, the dimensions and the two kinds of
excluders are found one after the other from the same parts.  `Partitioned`
says how they fit together in every composition that a composer gives: the axes
are shared out among the dimensions, one for each leaf, and the excluders among
the masks and the checks of single points.
-/

namespace ScanPath

namespace Composition

/-- An excluder is behind the mask of the one leaf that absorbs it, or it spans dimensions if none
does. -/
structure Partitioned (leaves : List Leaf) (composition : Composition) : Prop where
  leaves_eq : composition.leaves = leaves
  places_eq : composition.dimensions.map Dimension.generator = List.range leaves.length
  axes_nodup : composition.axisOrdering.Nodup
  axes_of_dimensions : composition.axisOrdering = composition.dimensions.flatMap Dimension.axes
  axes_of_leaves : composition.axisOrdering = leaves.flatMap Leaf.axes
  owned_iff : ∀ axis, composition.owners.contains axis = true ↔ axis ∈ composition.axisOrdering
  owner_iff : ∀ axis place, composition.owners.get? axis = some place ↔
    ∃ dimension, composition.dimensions[place]? = some dimension ∧ axis ∈ dimension.axes
  excluders_known : ∀ excluder ∈ composition.excluders, ∀ axis ∈ excluder.axes,
    axis ∈ composition.axisOrdering
  mutators_known : ∀ mutator ∈ composition.mutators, ∀ axis ∈ mutator.axes,
    axis ∈ composition.axisOrdering
  excluders_differ : composition.excluders.Pairwise fun first second =>
    (first.descriptor == second.descriptor) = false
  mutators_differ : composition.mutators.Pairwise fun first second =>
    (first.descriptor == second.descriptor) = false
  kept_eq : ∀ dimension ∈ composition.dimensions, dimension.kept =
    Dimension.mask dimension.leaf (composition.excluders.filter dimension.leaf.absorbs)
  masked_iff : ∀ dimension ∈ composition.dimensions, dimension.isMasked = true ↔
    ∃ excluder ∈ composition.excluders, dimension.leaf.absorbs excluder = true
  spanning_eq : composition.spanning =
    composition.excluders.filter fun excluder => !leaves.any (·.absorbs excluder)
  absorbed_once : ∀ excluder, leaves.Pairwise fun first second =>
    ¬ (first.absorbs excluder = true ∧ second.absorbs excluder = true)

theorem pairwise_not_absorbs {leaves : List Leaf} (h : (leaves.flatMap Leaf.axes).Nodup)
    (excluder : Excluder) :
    leaves.Pairwise fun first second =>
      ¬ (first.absorbs excluder = true ∧ second.absorbs excluder = true) := by
  refine (List.nodup_flatMap.mp h).2.imp ?_
  rintro first second hdisjoint ⟨hfirst, hsecond⟩
  rw [Leaf.absorbs_iff] at hfirst hsecond
  obtain ⟨axis, haxis⟩ := List.exists_mem_of_ne_nil _ hfirst.1
  exact hdisjoint (hfirst.2 axis haxis) (hsecond.2 axis haxis)

namespace Assembled

variable {leaves : List Leaf} {excluders : List Excluder} {mutators : List Mutator}
  {duration : Option Float} {composition : Composition}
  (h : Assembled leaves excluders mutators duration composition)

include h

theorem dimensions_eq_mapIdx :
    composition.dimensions = leaves.mapIdx fun place leaf =>
      .masked leaf place (excluders.filter leaf.absorbs) := by
  rw [h.dimensions_eq]
  exact fold_eq_mapIdx h.owners_eq h.excluders_known

theorem axisOrdering_eq : composition.axisOrdering = leaves.flatMap Leaf.axes := by
  rw [← h.leaves_eq, Composition.leaves, List.flatMap_map]
  rfl

theorem places_eq : composition.dimensions.map Dimension.generator = List.range leaves.length := by
  rw [h.dimensions_eq_mapIdx]
  apply List.ext_getElem
  · simp
  · intro place _ _
    simp [Dimension.masked]

theorem contains_owners_iff (axis : String) :
    composition.owners.contains axis = true ↔ axis ∈ composition.axisOrdering := by
  obtain ⟨-, hget⟩ := claimLeaves_empty_eq_ok h.owners_eq
  rw [Keyed.contains, hget, ownerFrom?_isSome_iff, h.axisOrdering_eq]

theorem get?_owners_iff (axis : String) (place : Nat) :
    composition.owners.get? axis = some place ↔
      ∃ dimension, composition.dimensions[place]? = some dimension ∧ axis ∈ dimension.axes := by
  obtain ⟨hnodup, hget⟩ := claimLeaves_empty_eq_ok h.owners_eq
  rw [hget, ownerFrom?_eq_some_iff hnodup, Nat.sub_zero, h.dimensions_eq_mapIdx,
    List.getElem?_mapIdx]
  constructor
  · rintro ⟨-, leaf, hleaf, hmem⟩
    rw [hleaf]
    exact ⟨_, rfl, hmem⟩
  · rintro ⟨dimension, hdimension, hmem⟩
    obtain ⟨leaf, hleaf, rfl⟩ := Option.map_eq_some_iff.mp hdimension
    exact ⟨Nat.zero_le place, leaf, hleaf, hmem⟩

theorem kept_eq : ∀ dimension ∈ composition.dimensions, dimension.kept =
    Dimension.mask dimension.leaf (composition.excluders.filter dimension.leaf.absorbs) := by
  intro dimension hmem
  rw [h.dimensions_eq_mapIdx] at hmem
  obtain ⟨place, hplace, rfl⟩ := List.mem_mapIdx.mp hmem
  rw [h.excluders_eq]
  rfl

theorem isMasked_iff : ∀ dimension ∈ composition.dimensions, dimension.isMasked = true ↔
    ∃ excluder ∈ composition.excluders, dimension.leaf.absorbs excluder = true := by
  intro dimension hmem
  rw [Dimension.isMasked, h.kept_eq dimension hmem, Dimension.mask]
  split
  next hempty =>
    rw [List.isEmpty_iff, List.filter_eq_nil_iff] at hempty
    simpa using hempty
  next hfolded =>
    rw [List.isEmpty_iff, List.filter_eq_nil_iff] at hfolded
    simpa using hfolded

theorem home?_isNone_eq {excluder : Excluder} (hmem : excluder ∈ excluders) :
    (home? composition.owners excluder).isNone = !leaves.any (·.absorbs excluder) := by
  have habsorbs : ∀ {place : Nat} {leaf : Leaf}, leaves[place]? = some leaf →
      (home? composition.owners excluder = some place ↔ leaf.absorbs excluder = true) :=
    home?_eq_some_iff_absorbs h.owners_eq (h.excluders_known excluder hmem)
  cases hhome : home? composition.owners excluder with
  | none =>
      have hnone : leaves.any (·.absorbs excluder) = false := by
        rw [List.any_eq_false]
        intro leaf hleaf habsorbed
        obtain ⟨place, hplace⟩ := List.mem_iff_getElem?.mp hleaf
        have hsome := (habsorbs hplace).mpr habsorbed
        rw [hhome] at hsome
        cases hsome
      rw [hnone]
      rfl
  | some place =>
      -- the owner of one of its axes is a dimension, whose leaf has them all
      obtain ⟨axis, -, howner⟩ := exists_axis_of_home? hhome
      obtain ⟨dimension, hdimension, -⟩ := (h.get?_owners_iff axis place).mp howner
      have hleaf : leaves[place]? = some dimension.leaf := by
        rw [← h.leaves_eq, Composition.leaves, List.getElem?_map, hdimension]
        rfl
      have hany : leaves.any (·.absorbs excluder) = true :=
        List.any_eq_true.mpr ⟨dimension.leaf, List.mem_of_getElem? hleaf, (habsorbs hleaf).mp hhome⟩
      rw [hany]
      rfl

theorem spanning_eq_filter : composition.spanning =
    composition.excluders.filter fun excluder => !leaves.any (·.absorbs excluder) := by
  rw [h.spanning_eq, spanningOf, h.excluders_eq]
  exact List.filter_congr fun excluder hmem => h.home?_isNone_eq hmem

end Assembled

end Composition

namespace Composer

/-- Whatever a composer accepts, its axes, owners, dimensions and excluders fit together. -/
theorem prepare_partitioned {composer : Composer} {composition : Composition}
    (h : composer.prepare.1 = .ok composition) :
    Composition.Partitioned composer.leaves composition := by
  obtain ⟨-, settled, -, hassembled⟩ := compose_eq_ok (prepare_eq_ok h)
  have hnodup := (Composition.claimLeaves_empty_eq_ok hassembled.owners_eq).1
  exact {
    leaves_eq := hassembled.leaves_eq
    places_eq := hassembled.places_eq
    axes_nodup := hassembled.axisOrdering_eq ▸ hnodup
    axes_of_dimensions := rfl
    axes_of_leaves := hassembled.axisOrdering_eq
    owned_iff := hassembled.contains_owners_iff
    owner_iff := hassembled.get?_owners_iff
    excluders_known := by
      intro excluder hmem axis haxis
      rw [hassembled.excluders_eq] at hmem
      exact (hassembled.contains_owners_iff axis).mp
        (hassembled.excluders_known excluder hmem axis haxis)
    mutators_known := by
      intro mutator hmem axis haxis
      rw [hassembled.mutators_eq] at hmem
      exact (hassembled.contains_owners_iff axis).mp
        (hassembled.mutators_known mutator hmem axis haxis)
    excluders_differ := by
      rw [hassembled.excluders_eq]
      exact Descriptor.firstOccurrencesAfter_pairwise [] _
    mutators_differ := by
      rw [hassembled.mutators_eq]
      exact Descriptor.firstOccurrencesAfter_pairwise [] _
    kept_eq := hassembled.kept_eq
    masked_iff := hassembled.isMasked_iff
    spanning_eq := hassembled.spanning_eq_filter
    absorbed_once := Composition.pairwise_not_absorbs hnodup }

def partedTrees : List ComposerTree :=
  [.leaf (Line.leaf ⟨["x", "y"], ["mm", "mm"], [0.0, 0.0], [1.0, 1.0], 3, false⟩),
    .composer [.leaf (sampleLeaf "z" 2 true)] [sampleExcluder ["z"], sampleExcluder ["z"]]
      [sampleMutator "z"] none]

/-- Both leaves absorb an excluder; one that looks across them and one without axes are left. -/
theorem prepare_partitioned_partedTrees :
    ∃ inputs composition, ComposerTree.inputs partedTrees = .ok inputs ∧
      (ofParts inputs [sampleExcluder ["y", "x"], sampleExcluder ["x", "z"], sampleExcluder []]
        [sampleMutator "x"] none).prepare.1 = .ok composition ∧
      composition.excluders.length = 4 ∧ composition.spanning.length = 2 ∧
      composition.shape = [2, 1] ∧ Composition.Partitioned (ComposerTree.leaves partedTrees)
        composition := by
  obtain ⟨inputs, hinputs, hany⟩ := Checked.exists_of_any
    (show (ComposerTree.inputs partedTrees).toOption.any (fun inputs =>
        (ofParts inputs [sampleExcluder ["y", "x"], sampleExcluder ["x", "z"], sampleExcluder []]
          [sampleMutator "x"] none).prepare.1.toOption.any fun composition =>
            composition.excluders.length == 4 && composition.spanning.length == 2 &&
              composition.shape == [2, 1]) = true by decide +kernel)
  obtain ⟨composition, hprepare, hfacts⟩ := Checked.exists_of_any hany
  simp only [Bool.and_eq_true, beq_iff_eq] at hfacts
  obtain ⟨⟨hexcluders, hspanning⟩, hshape⟩ := hfacts
  have hpartitioned := prepare_partitioned hprepare
  have hleaves : (ofParts inputs [sampleExcluder ["y", "x"], sampleExcluder ["x", "z"],
      sampleExcluder []] [sampleMutator "x"] none).leaves = ComposerTree.leaves partedTrees :=
    (ComposerTree.inputs_spliced partedTrees hinputs).leaves_eq
  rw [hleaves] at hpartitioned
  exact ⟨inputs, composition, hinputs, hprepare, hexcluders, hspanning, hshape, hpartitioned⟩

end Composer

end ScanPath
