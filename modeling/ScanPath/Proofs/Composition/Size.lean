import ScanPath.Proofs.Composition.Candidates
import ScanPath.Proofs.Composition.Nesting
import ScanPath.Proofs.Composition.Pass

/-!
# Sizes

The size of a composition is found before any pass, from the counters in their
own order or from the lengths alone.  A pass shows the counters in snaking order
and skips what is not admitted.  The two agree because snaking only permutes the
counters and no counter lacks its values.
-/

namespace ScanPath

namespace Composition

open Odometer

theorem course_perm (composition : Composition) :
    composition.course.Perm (settings composition.wheels) :=
  map_visited_perm composition.wheels

theorem complete_of_lawful {composition : Composition}
    (hlawful : ∀ dimension ∈ composition.dimensions, dimension.Lawful) :
    composition.Complete := by
  intro counters hmem
  exact extendAll?_isSome hlawful ∅ (composition.course_perm.mem_iff.mp hmem)

theorem admitted_perm (composition : Composition) :
    composition.admitted.Perm
      ((reach composition.dimensions ∅).filter (admits composition.spanning)) :=
  (composition.course_perm.filterMap _).filter _

/-- All that a whole pass over a composition rests on. -/
structure Sound (composition : Composition) : Prop where
  wheels_ne_nil : composition.wheels ≠ []
  complete : composition.Complete
  length_admitted : composition.admitted.length = composition.size

theorem Prepared.dimensions_lawful {composition : Composition} (h : Prepared composition)
    (hlawful : ∀ leaf ∈ composition.leaves, leaf.Lawful) :
    ∀ dimension ∈ composition.dimensions, dimension.Lawful := by
  obtain ⟨-, leaves, excluders, mutators, duration, hassembled⟩ := h.assembled
  rw [hassembled.leaves_eq] at hlawful
  rw [hassembled.dimensions_eq]
  exact fold_lawful hlawful

theorem Prepared.sound {composition : Composition} (h : Prepared composition)
    (hlawful : ∀ leaf ∈ composition.leaves, leaf.Lawful) : composition.Sound := by
  have hdimensions := h.dimensions_lawful hlawful
  obtain ⟨-, leaves, excluders, mutators, duration, hassembled⟩ := h.assembled
  constructor
  · exact h.wheels_ne_nil
  · exact complete_of_lawful hdimensions
  · rw [composition.admitted_perm.length_eq]
    exact (countPoints_eq_ok hdimensions hassembled.size_eq).symm

theorem length_emission (composition : Composition) :
    composition.emission.length = composition.admitted.length :=
  List.length_mapIdx

end Composition

namespace ProjectedPass

theorem pull_mk (projector : Projector) (pass : Pass) :
    pull ⟨pass, projector⟩ =
      (pass.pull.1.map projector.project, ⟨pass.pull.2, projector⟩) :=
  rfl

theorem emits_start {composition : Composition} {positions : List Position}
    (h : Source.Emits Pass.pull (Pass.start composition) positions) (layout : PairLayout) :
    Source.Emits pull (start composition layout)
      (positions.map (Projector.ofComposition composition layout).project) :=
  Source.emits_view (pull_mk _) h

theorem remaining_after (composition : Composition) (layout : PairLayout) (count : Nat) :
    (Source.after pull (start composition layout) count).remaining =
      (Source.after Pass.pull (Pass.start composition) count).remaining := by
  unfold start
  rw [Source.after_view (pull_mk _)]
  rfl

end ProjectedPass

namespace Composition

/-- A pass gives `size` points and then none, and knows at every moment how many are left; so does
a projected one. -/
theorem Prepared.emits_size {composition : Composition} (h : Prepared composition)
    (hlawful : ∀ leaf ∈ composition.leaves, leaf.Lawful) :
    ∃ positions : List Position, positions.length = composition.size ∧
      countPoints composition.spanning composition.dimensions = .ok positions.length ∧
      Source.Emits Pass.pull (Pass.start composition) positions ∧
      (∀ count, (Source.after Pass.pull (Pass.start composition) count).remaining =
        composition.size - count) ∧
      ∀ layout, Source.Emits ProjectedPass.pull (ProjectedPass.start composition layout)
          (positions.map (Projector.ofComposition composition layout).project) ∧
        ∀ count, (Source.after ProjectedPass.pull (ProjectedPass.start composition layout)
          count).remaining = composition.size - count := by
  obtain ⟨hwheels, hcomplete, hlength⟩ := h.sound hlawful
  have hemits := Pass.emits_emission hwheels hcomplete
  have hremaining : ∀ count, (Source.after Pass.pull (Pass.start composition) count).remaining =
      composition.size - count := by
    intro count
    rw [Pass.remaining_after hwheels hcomplete, hlength]
    omega
  have hpositions : composition.emission.length = composition.size := by
    rw [length_emission, hlength]
  obtain ⟨-, leaves, excluders, mutators, duration, hassembled⟩ := h.assembled
  refine ⟨composition.emission, hpositions, ?_, hemits, hremaining, ?_⟩
  · rw [hpositions]
    exact hassembled.size_eq
  · intro layout
    refine ⟨ProjectedPass.emits_start hemits layout, ?_⟩
    intro count
    rw [ProjectedPass.remaining_after]
    exact hremaining count

theorem Prepared.emits_size_sampleTrees :
    ∃ inputs composition, ComposerTree.inputs (ComposerTree.sampleTrees true) = .ok inputs ∧
      (Composer.ofParts inputs [sampleExcluder ["z", "x"]] [sampleMutator "x"] none).prepare.1 =
        .ok composition ∧
      composition.size = 2 ∧ composition.spanning.length = 1 ∧
      ∃ positions : List Position, positions.length = composition.size ∧
        Source.Emits Pass.pull (Pass.start composition) positions ∧
        (Source.after Pass.pull (Pass.start composition) 1).remaining = 1 := by
  obtain ⟨inputs, hinputs, hany⟩ := Checked.exists_of_any
    (show (ComposerTree.inputs (ComposerTree.sampleTrees true)).toOption.any (fun inputs =>
        (Composer.ofParts inputs [sampleExcluder ["z", "x"]] [sampleMutator "x"]
          none).prepare.1.toOption.any fun composition =>
            composition.size == 2 && composition.spanning.length == 1) = true by decide +kernel)
  obtain ⟨composition, hprepare, hfacts⟩ := Checked.exists_of_any hany
  rw [Bool.and_eq_true, beq_iff_eq, beq_iff_eq] at hfacts
  obtain ⟨hsize, hspanning⟩ := hfacts
  have hprepared : Prepared composition :=
    .of _ _ (ComposerTree.inputs_prepared _ hinputs) hprepare
  have hlawful : ∀ leaf ∈ composition.leaves, leaf.Lawful := by
    obtain ⟨_, hassembled⟩ := ComposerTree.assembled_of_prepare hinputs hprepare
    rw [hassembled.leaves_eq]
    exact ComposerTree.lawful_of_mem_sampleTrees true
  obtain ⟨positions, hlength, -, hemits, hremaining, -⟩ := hprepared.emits_size hlawful
  refine ⟨inputs, composition, hinputs, hprepare, hsize, hspanning, positions, hlength, hemits, ?_⟩
  rw [hremaining, hsize]

end Composition

end ScanPath
