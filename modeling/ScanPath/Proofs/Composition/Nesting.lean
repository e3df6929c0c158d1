import ScanPath.Proofs.Composition.Assembly
import ScanPath.Proofs.Descriptor

/-!
# Composers within composers

A tree of composers is prepared from its leaves up.  Every composer in it drops
duplicates and checks what it was given, yet the root gives what one composer
over all the leaves gives that has the modifiers of the whole tree, its own
first.  The induction is on the tree and carries `Spliced`: an input stands for
the same leaves as its tree, and for modifiers of which the same are kept.
-/

namespace ScanPath

inductive ComposerTree where
  | leaf (part : Leaf)
  | composer (trees : List ComposerTree) (excluders : List Excluder) (mutators : List Mutator)
      (duration : Option Float)

namespace ComposerTree

mutual

/-- A composer below the root is prepared, and its composition is an input of the next one. -/
def input : ComposerTree → Except Cause Composer.Input
  | .leaf part => .ok (.leaf part)
  | .composer trees excluders mutators duration => do
      let inputs ← inputs trees
      return .nested (← (Composer.ofParts inputs excluders mutators duration).prepare.1)

def inputs : List ComposerTree → Except Cause (List Composer.Input)
  | [] => .ok []
  | tree :: trees => do
      let input ← input tree
      let rest ← inputs trees
      return input :: rest

end

theorem input_composer_eq_ok {trees : List ComposerTree} {own : List Excluder}
    {others : List Mutator} {duration : Option Float} {input : Composer.Input} :
    ComposerTree.input (.composer trees own others duration) = .ok input ↔
      ∃ inputs part, ComposerTree.inputs trees = .ok inputs ∧
        (Composer.ofParts inputs own others duration).prepare.1 = .ok part ∧
        input = .nested part := by
  constructor
  · intro h
    obtain ⟨inputs, hinputs, h⟩ := Checked.bind_eq_ok.mp h
    obtain ⟨part, hpart, h⟩ := Checked.bind_eq_ok.mp h
    cases h
    exact ⟨inputs, part, hinputs, hpart, rfl⟩
  · rintro ⟨inputs, part, hinputs, hpart, rfl⟩
    exact Checked.bind_eq_ok.mpr ⟨inputs, hinputs, Checked.bind_eq_ok.mpr ⟨part, hpart, rfl⟩⟩

theorem inputs_cons_eq_ok {tree : ComposerTree} {trees : List ComposerTree}
    {inputs : List Composer.Input} :
    ComposerTree.inputs (tree :: trees) = .ok inputs ↔
      ∃ input rest, tree.input = .ok input ∧ ComposerTree.inputs trees = .ok rest ∧
        inputs = input :: rest := by
  constructor
  · intro h
    obtain ⟨input, hinput, h⟩ := Checked.bind_eq_ok.mp h
    obtain ⟨rest, hrest, h⟩ := Checked.bind_eq_ok.mp h
    cases h
    exact ⟨input, rest, hinput, hrest, rfl⟩
  · rintro ⟨input, rest, hinput, hrest, rfl⟩
    exact Checked.bind_eq_ok.mpr ⟨input, hinput, Checked.bind_eq_ok.mpr ⟨rest, hrest, rfl⟩⟩

/-! ## The parts of a tree -/

variable {α : Type}

mutual

def gather (ofLeaf : Leaf → List α) (own : List Excluder → List Mutator → List α) :
    ComposerTree → List α
  | .leaf part => ofLeaf part
  | .composer trees excluders mutators _ => own excluders mutators ++ gatherAll ofLeaf own trees

def gatherAll (ofLeaf : Leaf → List α) (own : List Excluder → List Mutator → List α) :
    List ComposerTree → List α
  | [] => []
  | tree :: trees => gather ofLeaf own tree ++ gatherAll ofLeaf own trees

end

def leaves (trees : List ComposerTree) : List Leaf :=
  gatherAll (fun leaf => [leaf]) (fun _ _ => []) trees

def excluders (trees : List ComposerTree) : List Excluder :=
  gatherAll (fun _ => []) (fun excluders _ => excluders) trees

def mutators (trees : List ComposerTree) : List Mutator :=
  gatherAll (fun _ => []) (fun _ mutators => mutators) trees

mutual

def untimed : ComposerTree → ComposerTree
  | .leaf part => .leaf part
  | .composer trees excluders mutators _ => .composer (untimedAll trees) excluders mutators none

def untimedAll : List ComposerTree → List ComposerTree
  | [] => []
  | tree :: trees => untimed tree :: untimedAll trees

end

mutual

theorem gather_untimed (ofLeaf : Leaf → List α) (own : List Excluder → List Mutator → List α) :
    (tree : ComposerTree) → gather ofLeaf own tree.untimed = gather ofLeaf own tree
  | .leaf part => rfl
  | .composer trees excluders mutators duration => by
      rw [untimed, gather, gather, gatherAll_untimed ofLeaf own trees]

theorem gatherAll_untimed (ofLeaf : Leaf → List α) (own : List Excluder → List Mutator → List α) :
    (trees : List ComposerTree) →
      gatherAll ofLeaf own (untimedAll trees) = gatherAll ofLeaf own trees
  | [] => rfl
  | tree :: trees => by
      rw [untimedAll, gatherAll, gatherAll, gather_untimed ofLeaf own tree,
        gatherAll_untimed ofLeaf own trees]

end

theorem gatherAll_eq_of_untimedAll_eq {trees others : List ComposerTree}
    (h : untimedAll trees = untimedAll others) (ofLeaf : Leaf → List α)
    (own : List Excluder → List Mutator → List α) :
    gatherAll ofLeaf own trees = gatherAll ofLeaf own others := by
  rw [← gatherAll_untimed, h, gatherAll_untimed]

/-! ## Splicing -/

open Composer Descriptor

/-- The inputs have the given leaves, and modifiers of which the same are kept as of the given
ones. -/
structure Spliced (inputs : List Input) (leaves : List Leaf) (excluders : List Excluder)
    (mutators : List Mutator) : Prop where
  leaves_eq : inputs.flatMap Input.leaves = leaves
  excluders_alike : KeptAlike Excluder.descriptor (inputs.flatMap Input.excluders) excluders
  mutators_alike : KeptAlike Mutator.descriptor (inputs.flatMap Input.mutators) mutators

theorem Spliced.cons {input : Input} {inputs : List Input} {leaves leaves' : List Leaf}
    {excluders excluders' : List Excluder} {mutators mutators' : List Mutator}
    (h : Spliced [input] leaves excluders mutators)
    (h' : Spliced inputs leaves' excluders' mutators') :
    Spliced (input :: inputs) (leaves ++ leaves') (excluders ++ excluders')
      (mutators ++ mutators') := by
  obtain ⟨hleaves, hexcluders, hmutators⟩ := h
  rw [List.flatMap_singleton] at hleaves hexcluders hmutators
  exact {
    leaves_eq := by rw [List.flatMap_cons, hleaves, h'.leaves_eq]
    excluders_alike := by
      rw [List.flatMap_cons]
      exact hexcluders.append h'.excluders_alike
    mutators_alike := by
      rw [List.flatMap_cons]
      exact hmutators.append h'.mutators_alike }

/-- A composition stands for what its composer was given: the duplicates among that would be
dropped again. -/
theorem Spliced.nested {inputs : List Input} {leaves : List Leaf} {excluders own : List Excluder}
    {mutators others : List Mutator} {duration : Option Float} {part : Composition}
    (h : Spliced inputs leaves excluders mutators)
    (hpart : (ofParts inputs own others duration).compose = .ok part) :
    Spliced [.nested part] leaves (own ++ excluders) (others ++ mutators) := by
  obtain ⟨-, _, -, hassembled⟩ := compose_eq_ok hpart
  refine ⟨?_, ?_, ?_⟩
  · rw [List.flatMap_singleton, Input.leaves, hassembled.leaves_eq]
    exact h.leaves_eq
  · rw [List.flatMap_singleton, Input.excluders, hassembled.excluders_eq]
    exact (keptAlike_firstOccurrences _).trans ((KeptAlike.refl own).append h.excluders_alike)
  · rw [List.flatMap_singleton, Input.mutators, hassembled.mutators_eq]
    exact (keptAlike_firstOccurrences _).trans ((KeptAlike.refl others).append h.mutators_alike)

mutual

theorem input_spliced : (tree : ComposerTree) → {input : Input} → tree.input = .ok input →
    Spliced [input] (leaves [tree]) (excluders [tree]) (mutators [tree])
  | .leaf part, input, h => by
      cases h
      exact ⟨rfl, KeptAlike.refl [], KeptAlike.refl []⟩
  | .composer trees own others duration, input, h => by
      obtain ⟨inputs, part, hinputs, hpart, rfl⟩ := input_composer_eq_ok.mp h
      have hspliced := (inputs_spliced trees hinputs).nested hpart
      simpa [leaves, excluders, mutators, gatherAll, gather] using hspliced

theorem inputs_spliced : (trees : List ComposerTree) → {inputs : List Input} →
    ComposerTree.inputs trees = .ok inputs →
    Spliced inputs (leaves trees) (excluders trees) (mutators trees)
  | [], inputs, h => by
      cases h
      exact ⟨rfl, KeptAlike.refl [], KeptAlike.refl []⟩
  | tree :: trees, inputs, h => by
      obtain ⟨input, rest, hinput, hrest, rfl⟩ := inputs_cons_eq_ok.mp h
      have hspliced := (input_spliced tree hinput).cons (inputs_spliced trees hrest)
      simpa [leaves, excluders, mutators, gatherAll] using hspliced

end

mutual

theorem input_prepared : (tree : ComposerTree) → {part : Composition} →
    tree.input = .ok (.nested part) → Composition.Prepared part
  | .leaf _, part, h => by cases h
  | .composer trees own others duration, part, h => by
      obtain ⟨inputs, composition, hinputs, hprepare, hnested⟩ := input_composer_eq_ok.mp h
      cases hnested
      exact .of _ _ (inputs_prepared trees hinputs) hprepare

theorem inputs_prepared : (trees : List ComposerTree) → {inputs : List Input} →
    ComposerTree.inputs trees = .ok inputs →
    ∀ part, Input.nested part ∈ inputs → Composition.Prepared part
  | [], inputs, h, part, hmem => by
      cases h
      cases hmem
  | tree :: trees, inputs, h, part, hmem => by
      obtain ⟨input, rest, hinput, hrest, rfl⟩ := inputs_cons_eq_ok.mp h
      rcases List.mem_cons.mp hmem with rfl | hmem
      · exact input_prepared tree hinput
      · exact inputs_prepared trees hrest part hmem

end

theorem leaves_eq_nil_iff {trees : List ComposerTree} {inputs : List Input}
    (h : ComposerTree.inputs trees = .ok inputs) : leaves trees = [] ↔ inputs = [] := by
  rw [← (inputs_spliced trees h).leaves_eq]
  constructor
  · intro hleaves
    apply Classical.byContradiction
    intro hinputs
    exact Composition.leaves_ne_nil_of_inputs hinputs
      (fun part hmem => (inputs_prepared trees h part hmem).assembled.1) hleaves
  · rintro rfl
    rfl

/-! ## One composer for the whole tree -/

/-- The composer over all the leaves, with the root's own modifiers before those of the trees. -/
def flattened (trees : List ComposerTree) (own : List Excluder) (others : List Mutator)
    (duration : Option Float) : Composer :=
  ofParts ((leaves trees).map .leaf) (own ++ excluders trees) (others ++ mutators trees) duration

theorem kept_flattened {trees : List ComposerTree} {inputs : List Input}
    (h : ComposerTree.inputs trees = .ok inputs) (own : List Excluder) (others : List Mutator) :
    firstOccurrences Excluder.descriptor (own ++ inputs.flatMap Input.excluders) =
        firstOccurrences Excluder.descriptor (own ++ excluders trees) ∧
      firstOccurrences Mutator.descriptor (others ++ inputs.flatMap Input.mutators) =
        firstOccurrences Mutator.descriptor (others ++ mutators trees) := by
  have hspliced := inputs_spliced trees h
  constructor
  · exact (KeptAlike.refl own).append hspliced.excluders_alike []
  · exact (KeptAlike.refl others).append hspliced.mutators_alike []

theorem assembled_of_prepare {trees : List ComposerTree} {inputs : List Input}
    {own : List Excluder} {others : List Mutator} {duration : Option Float}
    {composition : Composition} (h : ComposerTree.inputs trees = .ok inputs)
    (hprepare : (ofParts inputs own others duration).prepare.1 = .ok composition) :
    ∃ settled, Composition.Assembled (leaves trees)
      (firstOccurrences Excluder.descriptor (own ++ excluders trees))
      (firstOccurrences Mutator.descriptor (others ++ mutators trees)) settled composition := by
  obtain ⟨-, settled, -, hassembled⟩ := compose_eq_ok (prepare_eq_ok hprepare)
  obtain ⟨hexcluders, hmutators⟩ := kept_flattened h own others
  rw [← hexcluders, ← hmutators, ← (inputs_spliced trees h).leaves_eq]
  exact ⟨settled, hassembled⟩

theorem compose_flattened {trees : List ComposerTree} {inputs : List Input}
    (h : ComposerTree.inputs trees = .ok inputs) (own : List Excluder) (others : List Mutator)
    (duration : Option Float) :
    (ofParts inputs own others duration).compose =
      (flattened trees own others duration).compose := by
  have hleaves : ((leaves trees).map Input.leaf).flatMap Input.leaves = leaves trees := by
    rw [List.flatMap_map]
    exact List.flatMap_singleton' _
  have hexcluders : ((leaves trees).map Input.leaf).flatMap Input.excluders = [] := by
    rw [List.flatMap_map]
    exact List.flatMap_eq_nil_iff.mpr fun _ _ => rfl
  have hmutators : ((leaves trees).map Input.leaf).flatMap Input.mutators = [] := by
    rw [List.flatMap_map]
    exact List.flatMap_eq_nil_iff.mpr fun _ _ => rfl
  have hempty : ((leaves trees).map Input.leaf).isEmpty = inputs.isEmpty := by
    rw [List.isEmpty_map, Bool.eq_iff_iff, List.isEmpty_iff, List.isEmpty_iff]
    exact leaves_eq_nil_iff h
  obtain ⟨hkept, hkept'⟩ := kept_flattened h own others
  simp only [compose, flattened, ofParts, hleaves, hexcluders, hmutators, hempty,
    (inputs_spliced trees h).leaves_eq, List.append_nil, hkept, hkept']

def sampleTrees (alternate : Bool) : List ComposerTree :=
  [.composer [.composer [.leaf (sampleLeaf "x" 3 true)]
        [sampleExcluder ["x"], sampleExcluder ["x"]] [] (some 0.5),
      .leaf (sampleLeaf "y" 2 alternate)] [sampleExcluder ["x"], sampleExcluder ["y"]] []
        (some 2.0),
    .leaf (sampleLeaf "z" 2 alternate)]

theorem lawful_of_mem_sampleTrees (alternate : Bool) :
    ∀ leaf ∈ leaves (sampleTrees alternate), leaf.Lawful := by
  intro leaf hmem
  have hleaves : leaves (sampleTrees alternate) =
      [sampleLeaf "x" 3 true, sampleLeaf "y" 2 alternate, sampleLeaf "z" 2 alternate] := rfl
  rw [hleaves] at hmem
  simp only [List.mem_cons, List.not_mem_nil, or_false] at hmem
  rcases hmem with rfl | rfl | rfl <;> exact sampleLeaf_lawful _ _ _

/-- When all composers below the root are prepared, the root gives what the flattened composer
gives, be it a composition or a fault, and no duration below the root has any effect. -/
theorem prepare_flattened (trees : List ComposerTree) (own : List Excluder)
    (others : List Mutator) (duration : Option Float) {inputs : List Input}
    (h : ComposerTree.inputs trees = .ok inputs) :
    (ofParts inputs own others duration).prepare.1 =
        (flattened trees own others duration).prepare.1 ∧
      ∀ retimed inputs', untimedAll retimed = untimedAll trees →
        ComposerTree.inputs retimed = .ok inputs' →
        (ofParts inputs' own others duration).prepare.1 =
          (ofParts inputs own others duration).prepare.1 := by
  refine ⟨compose_flattened h own others duration, ?_⟩
  intro retimed inputs' huntimed h'
  have hflattened : flattened retimed own others duration =
      flattened trees own others duration := by
    unfold flattened leaves excluders mutators
    simp only [gatherAll_eq_of_untimedAll_eq huntimed]
  calc (ofParts inputs' own others duration).compose
      = (flattened retimed own others duration).compose := compose_flattened h' own others duration
    _ = (flattened trees own others duration).compose := by rw [hflattened]
    _ = (ofParts inputs own others duration).compose :=
        (compose_flattened h own others duration).symm

theorem prepare_flattened_sampleTrees :
    ∃ inputs untimedInputs, ComposerTree.inputs (sampleTrees true) = .ok inputs ∧
      untimedAll (untimedAll (sampleTrees true)) = untimedAll (sampleTrees true) ∧
      ComposerTree.inputs (untimedAll (sampleTrees true)) = .ok untimedInputs ∧
      (ofParts inputs [sampleExcluder ["y"]] [] none).prepare.1 =
        (flattened (sampleTrees true) [sampleExcluder ["y"]] [] none).prepare.1 ∧
      (ofParts untimedInputs [sampleExcluder ["y"]] [] none).prepare.1 =
        (ofParts inputs [sampleExcluder ["y"]] [] none).prepare.1 ∧
      (flattened (sampleTrees true) [sampleExcluder ["y"]] [] none).prepare.1.isOk = true := by
  obtain ⟨inputs, h⟩ := Checked.exists_eq_ok
    (show (ComposerTree.inputs (sampleTrees true)).isOk = true by decide +kernel)
  obtain ⟨untimedInputs, h'⟩ := Checked.exists_eq_ok
    (show (ComposerTree.inputs (untimedAll (sampleTrees true))).isOk = true by decide +kernel)
  obtain ⟨hflattened, hretimed⟩ :=
    prepare_flattened (sampleTrees true) [sampleExcluder ["y"]] [] none h
  have huntimed : untimedAll (untimedAll (sampleTrees true)) = untimedAll (sampleTrees true) := rfl
  exact ⟨inputs, untimedInputs, h, huntimed, h', hflattened,
    hretimed _ untimedInputs huntimed h', by decide +kernel⟩

end ComposerTree

end ScanPath
