import ScanPath.Proofs.Composition.Size

/-!
# Mutated passes

Mutators change what a pass emits and nothing else.  A pass over a composition
and one over the same composition without its mutators move in lockstep: each
pull tries the same candidates and is given the same one, which the first pass
then changes by the number of positions it has emitted before.  The step is an
induction on the candidates that a pull may try, the run one on the pulls.
-/

namespace ScanPath

namespace Composition

def unmutated (composition : Composition) : Composition := { composition with mutators := [] }

variable {leaves : List Leaf} {excluders : List Excluder} {mutators : List Mutator}
  {duration : Option Float} {composition : Composition}

theorem Assembled.unmutated (h : Assembled leaves excluders mutators duration composition) :
    Assembled leaves excluders [] duration composition.unmutated where
  owners_eq := h.owners_eq
  excluders_known := h.excluders_known
  mutators_known := by simp
  dimensions_eq := h.dimensions_eq
  excluders_eq := h.excluders_eq
  spanning_eq := h.spanning_eq
  mutators_eq := rfl
  duration_eq := h.duration_eq
  size_eq := h.size_eq

end Composition

/-! ## Lockstep -/

namespace Pass

def unmutated (pass : Pass) : Pass := { pass with composition := pass.composition.unmutated }

@[simp] theorem odometer_unmutated (pass : Pass) : pass.unmutated.odometer = pass.odometer := rfl

@[simp] theorem candidate?_unmutated (pass : Pass) (counters : List Nat) :
    pass.unmutated.composition.candidate? counters = pass.composition.candidate? counters :=
  rfl

@[simp] theorem spanning_unmutated (pass : Pass) :
    pass.unmutated.composition.spanning = pass.composition.spanning :=
  rfl

@[simp] theorem mutate_unmutated (pass : Pass) (position : Position) (ordinal : Nat) :
    pass.unmutated.composition.mutate position ordinal = position :=
  rfl

/-- What a pull comes to with the mutators and without them, after so many positions. -/
structure Lockstep (composition : Composition) (emitted : Nat)
    (changed plain : Option Position × Pass) : Prop where
  position_eq : changed.1 = plain.1.map (composition.mutate · emitted)
  pass_eq : plain.2 = changed.2.unmutated
  composition_eq : changed.2.composition = composition
  emitted_eq : changed.2.emitted = emitted + plain.1.toList.length

theorem pullWithin_lockstep (fuel : Nat) (pass : Pass) :
    Lockstep pass.composition pass.emitted (pullWithin fuel pass)
      (pullWithin fuel pass.unmutated) := by
  induction fuel generalizing pass with
  | zero => exact ⟨rfl, rfl, rfl, rfl⟩
  | succ fuel ih =>
      rw [pullWithin, pullWithin, odometer_unmutated]
      cases pass.odometer.current with
      | none => exact ⟨rfl, rfl, rfl, rfl⟩
      | some counters =>
          simp only [candidate?_unmutated, spanning_unmutated, mutate_unmutated]
          cases pass.composition.candidate? (Odometer.visited pass.odometer.wheels counters) with
          | none => exact ⟨rfl, rfl, rfl, rfl⟩
          | some candidate =>
              cases hadmits : Composition.admits pass.composition.spanning candidate with
              | true =>
                  simp only [hadmits, if_true]
                  exact ⟨rfl, rfl, rfl, rfl⟩
              | false =>
                  -- both skip the candidate, and neither counts it
                  simp only [hadmits, Bool.false_eq_true, if_false]
                  exact ih { pass with odometer := pass.odometer.advance }

theorem pull_lockstep (pass : Pass) :
    Lockstep pass.composition pass.emitted pass.pull pass.unmutated.pull :=
  pullWithin_lockstep _ pass

theorem after_lockstep (composition : Composition) (pulls : Nat) :
    Source.after pull (start composition.unmutated) pulls =
        (Source.after pull (start composition) pulls).unmutated ∧
      (Source.after pull (start composition) pulls).composition = composition ∧
      (Source.after pull (start composition) pulls).emitted =
        (Source.given pull (start composition.unmutated) pulls).length ∧
      Source.given pull (start composition) pulls =
        (Source.given pull (start composition.unmutated) pulls).mapIdx fun ordinal position =>
          composition.mutate position ordinal := by
  induction pulls with
  | zero => exact ⟨rfl, rfl, rfl, rfl⟩
  | succ pulls ih =>
      obtain ⟨hafter, hcomposition, hemitted, hgiven⟩ := ih
      have hlockstep := pull_lockstep (Source.after pull (start composition) pulls)
      rw [hcomposition, hemitted, ← hafter] at hlockstep
      obtain ⟨hposition, hpass, hcomposition', hemitted'⟩ := hlockstep
      refine ⟨hpass, hcomposition', ?_, ?_⟩
      · rw [Source.after, hemitted', Source.given_succ, List.length_append]
        rfl
      · rw [Source.given_succ, Source.given_succ, List.mapIdx_append, hgiven, Source.itemAt?,
          hposition, Source.itemAt?]
        cases (Source.after pull (start composition.unmutated) pulls).pull.1 with
        | none => rfl
        | some position => simp

end Pass

namespace Composer

def Input.unmutated : Input → Input
  | .leaf part => .leaf part
  | .nested part => .nested part.unmutated

theorem flatMap_leaves_unmutated (inputs : List Input) :
    (inputs.map Input.unmutated).flatMap Input.leaves = inputs.flatMap Input.leaves := by
  rw [List.flatMap_map]
  congr 1
  funext input
  cases input <;> rfl

theorem flatMap_excluders_unmutated (inputs : List Input) :
    (inputs.map Input.unmutated).flatMap Input.excluders = inputs.flatMap Input.excluders := by
  rw [List.flatMap_map]
  congr 1
  funext input
  cases input <;> rfl

theorem flatMap_mutators_unmutated (inputs : List Input) :
    (inputs.map Input.unmutated).flatMap Input.mutators = [] := by
  rw [List.flatMap_map, List.flatMap_eq_nil_iff]
  intro input _
  cases input <;> rfl

theorem compose_unmutated {inputs : List Input} {own : List Excluder} {others : List Mutator}
    {duration : Option Float} {composition : Composition}
    (h : (ofParts inputs own others duration).compose = .ok composition) :
    (ofParts (inputs.map Input.unmutated) own [] duration).compose =
      .ok composition.unmutated := by
  obtain ⟨hinputs, settled, hsettled, hassembled⟩ := compose_eq_ok h
  have hassemble := hassembled.unmutated.assemble_eq
  dsimp only [ofParts] at hinputs hsettled hassemble
  rw [compose_of_ne_nil (by simpa [ofParts] using hinputs)]
  dsimp only [ofParts]
  rw [flatMap_leaves_unmutated, flatMap_excluders_unmutated, flatMap_mutators_unmutated]
  exact Checked.bind_eq_ok.mpr ⟨settled, hsettled, hassemble⟩

end Composer

namespace ComposerTree

open ScanPath.Composition

mutual

def unmutated : ComposerTree → ComposerTree
  | .leaf part => .leaf part
  | .composer trees excluders _ duration => .composer (unmutatedAll trees) excluders [] duration

def unmutatedAll : List ComposerTree → List ComposerTree
  | [] => []
  | tree :: trees => unmutated tree :: unmutatedAll trees

end

mutual

theorem input_unmutated : (tree : ComposerTree) → {input : Composer.Input} →
    tree.input = .ok input → tree.unmutated.input = .ok input.unmutated
  | .leaf part, input, h => by
      cases h
      rfl
  | .composer trees own others duration, input, h => by
      obtain ⟨inputs, part, hinputs, hpart, rfl⟩ := input_composer_eq_ok.mp h
      exact input_composer_eq_ok.mpr
        ⟨_, _, inputs_unmutated trees hinputs, Composer.compose_unmutated hpart, rfl⟩

theorem inputs_unmutated : (trees : List ComposerTree) → {inputs : List Composer.Input} →
    ComposerTree.inputs trees = .ok inputs →
    ComposerTree.inputs (unmutatedAll trees) = .ok (inputs.map Composer.Input.unmutated)
  | [], inputs, h => by
      cases h
      rfl
  | tree :: trees, inputs, h => by
      obtain ⟨input, rest, hinput, hrest, rfl⟩ := inputs_cons_eq_ok.mp h
      exact inputs_cons_eq_ok.mpr
        ⟨_, _, input_unmutated tree hinput, inputs_unmutated trees hrest, rfl⟩

end

/-! ## The mutated pass and the plain one -/

/-- Without any of its mutators a composer prepares the same dimensions and as many points, and
what it emits is given to the kept mutators in turn, with the number of positions before it. -/
theorem emits_mutated {trees : List ComposerTree} {inputs : List Composer.Input}
    {own : List Excluder} {others : List Mutator} {duration : Option Float}
    {composition : Composition} (hinputs : ComposerTree.inputs trees = .ok inputs)
    (hprepare : (Composer.ofParts inputs own others duration).prepare.1 = .ok composition) :
    ∃ plainInputs plain, ComposerTree.inputs (unmutatedAll trees) = .ok plainInputs ∧
      (Composer.ofParts plainInputs own [] duration).prepare.1 = .ok plain ∧
      plain.mutators = [] ∧ plain.dimensions = composition.dimensions ∧
      plain.shape = composition.shape ∧ plain.size = composition.size ∧
      plain.axisOrdering = composition.axisOrdering ∧ plain.owners = composition.owners ∧
      (∀ pulls, Source.given Pass.pull (Pass.start composition) pulls =
        (Source.given Pass.pull (Pass.start plain) pulls).mapIdx fun ordinal position =>
          (Descriptor.firstOccurrences Mutator.descriptor (others ++ mutators trees)).foldl
            (fun position mutator => mutator.mutate position ordinal) position) ∧
      ((∀ leaf ∈ leaves trees, leaf.Lawful) → ∀ ordinal < composition.size, ∃ position,
        Source.itemAt? Pass.pull (Pass.start plain) ordinal = some position ∧
        Source.itemAt? Pass.pull (Pass.start composition) ordinal =
          some ((Descriptor.firstOccurrences Mutator.descriptor (others ++ mutators trees)).foldl
            (fun position mutator => mutator.mutate position ordinal) position)) := by
  obtain ⟨settled, hassembled⟩ := assembled_of_prepare hinputs hprepare
  have hmutate : ∀ position ordinal, composition.mutate position ordinal =
      (Descriptor.firstOccurrences Mutator.descriptor (others ++ mutators trees)).foldl
        (fun position mutator => mutator.mutate position ordinal) position := by
    intro position ordinal
    rw [mutate, hassembled.mutators_eq]
  refine ⟨_, composition.unmutated, inputs_unmutated trees hinputs,
    Composer.compose_unmutated (Composer.prepare_eq_ok hprepare), rfl, rfl, rfl, rfl, rfl, rfl,
    ?_, ?_⟩
  · intro pulls
    obtain ⟨-, -, -, hgiven⟩ := Pass.after_lockstep composition pulls
    simp only [← hmutate]
    exact hgiven
  · intro hlawful ordinal hordinal
    have hprepared : Prepared composition := .of _ _ (inputs_prepared trees hinputs) hprepare
    obtain ⟨hwheels, hcomplete, hlength⟩ := hprepared.sound (hassembled.leaves_eq ▸ hlawful)
    have hemits : Source.Emits Pass.pull (Pass.start composition.unmutated)
        composition.unmutated.emission := Pass.emits_emission hwheels hcomplete
    have hplain : Source.itemAt? Pass.pull (Pass.start composition.unmutated) ordinal =
        composition.admitted[ordinal]? := by
      rw [hemits ordinal, emission_eq_admitted rfl]
      rfl
    have hchanged := Pass.emits_emission hwheels hcomplete ordinal
    rw [emission, List.getElem?_mapIdx] at hchanged
    rw [List.getElem?_eq_getElem (by omega)] at hplain hchanged
    exact ⟨_, hplain, hchanged.trans (congrArg some (hmutate _ _))⟩

def mutatedTrees : List ComposerTree :=
  [.composer [.leaf (sampleLeaf "x" 4 true)] [sampleExcluder ["x"]]
      [sampleMutator "x", sampleMutator "x"] (some 0.5),
    .leaf (sampleLeaf "y" 2 true)]

theorem emits_mutated_mutatedTrees :
    ∃ inputs composition plainInputs plain, ComposerTree.inputs mutatedTrees = .ok inputs ∧
      (Composer.ofParts inputs [sampleExcluder ["y", "x"]] [sampleMutator "y"] none).prepare.1 =
        .ok composition ∧
      ComposerTree.inputs (unmutatedAll mutatedTrees) = .ok plainInputs ∧
      (Composer.ofParts plainInputs [sampleExcluder ["y", "x"]] [] none).prepare.1 = .ok plain ∧
      composition.mutators.length = 2 ∧ plain.mutators = [] ∧ plain.size = 3 ∧
      ∃ position, Source.itemAt? Pass.pull (Pass.start plain) 2 = some position ∧
        Source.itemAt? Pass.pull (Pass.start composition) 2 =
          some ((sampleMutator "x").mutate ((sampleMutator "y").mutate position 2) 2) := by
  obtain ⟨inputs, hinputs, hany⟩ := Checked.exists_of_any
    (show (ComposerTree.inputs mutatedTrees).toOption.any (fun inputs =>
        (Composer.ofParts inputs [sampleExcluder ["y", "x"]] [sampleMutator "y"]
          none).prepare.1.toOption.any fun composition =>
            composition.size == 3 && composition.mutators.length == 2) = true by decide +kernel)
  obtain ⟨composition, hprepare, hfacts⟩ := Checked.exists_of_any hany
  rw [Bool.and_eq_true, beq_iff_eq, beq_iff_eq] at hfacts
  obtain ⟨hsize, hmutators⟩ := hfacts
  have hlawful : ∀ leaf ∈ leaves mutatedTrees, leaf.Lawful := by
    have hleaves : leaves mutatedTrees = [sampleLeaf "x" 4 true, sampleLeaf "y" 2 true] := rfl
    rw [hleaves]
    simp [sampleLeaf_lawful]
  have hkept : Descriptor.firstOccurrences Mutator.descriptor
      ([sampleMutator "y"] ++ mutators mutatedTrees) = [sampleMutator "y", sampleMutator "x"] := by
    have hother : ((sampleMutator "y").descriptor == (sampleMutator "x").descriptor) = false := by
      decide +kernel
    have hsame : ((sampleMutator "x").descriptor == (sampleMutator "x").descriptor) = true := by
      decide +kernel
    have hsupplied : [sampleMutator "y"] ++ mutators mutatedTrees =
        [sampleMutator "y", sampleMutator "x", sampleMutator "x"] := rfl
    rw [hsupplied]
    simp [Descriptor.firstOccurrences, Descriptor.firstOccurrencesAfter, hother, hsame]
  obtain ⟨plainInputs, plain, hplainInputs, hplainPrepare, hnone, -, -, hplainSize, -, -, -, hall⟩ :=
    emits_mutated hinputs hprepare
  obtain ⟨position, hplain, hchanged⟩ := hall hlawful 2 (by omega)
  rw [hkept] at hchanged
  exact ⟨inputs, composition, plainInputs, plain, hinputs, hprepare, hplainInputs, hplainPrepare,
    hmutators, hnone, hplainSize.trans hsize, position, hplain, hchanged⟩

end ComposerTree

end ScanPath
