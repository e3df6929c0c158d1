import ScanPath.Proofs.Composition.Candidates
import ScanPath.Proofs.Composition.Counting
import ScanPath.Proofs.Composition.Nesting
import ScanPath.Proofs.Composition.Pass

/-!
# Where excluders are supplied

The order of the excluders decides which duplicates are kept and in which order
the tests run, and a composer may be given an excluder itself or through a
composition among its inputs.  None of this can be seen: the tests that are kept
are the same, so the masks are, the count is, and two passes that stand at the
same place pull the same position.  The last is an induction on the candidates
that a pull may try, and no law of the leaves is needed for it.
-/

namespace ScanPath

structure Excluder.SameTests (first second : List Excluder) : Prop where
  found : Excluder.AllFound first second
  found_back : Excluder.AllFound second first

namespace Excluder.SameTests

variable {first second : List Excluder}

theorem symm (h : SameTests first second) : SameTests second first := ⟨h.found_back, h.found⟩

theorem filter (h : SameTests first second) {test : Excluder → Bool}
    (htest : ∀ excluder other, excluder.axes = other.axes → test excluder = test other) :
    SameTests (first.filter test) (second.filter test) :=
  ⟨h.found.filter htest, h.found_back.filter htest⟩

theorem isEmpty_eq (h : SameTests first second) : first.isEmpty = second.isEmpty := by
  cases first with
  | nil =>
      cases second with
      | nil => rfl
      | cons other others =>
          obtain ⟨excluder, hmem, -⟩ := h.found_back other List.mem_cons_self
          cases hmem
  | cons excluder excluders =>
      cases second with
      | nil =>
          obtain ⟨other, hmem, -⟩ := h.found excluder List.mem_cons_self
          cases hmem
      | cons other others => rfl

theorem of_firstOccurrences (hmem : ∀ excluder, excluder ∈ first ↔ excluder ∈ second)
    (hequal : ∀ excluder ∈ first, ∀ other ∈ first,
      (excluder.descriptor == other.descriptor) = true → excluder.Agrees other) :
    SameTests (Descriptor.firstOccurrences Excluder.descriptor first)
      (Descriptor.firstOccurrences Excluder.descriptor second) := by
  constructor
  · apply Excluder.allFound_firstOccurrences fun excluder => (hmem excluder).mp
    intro excluder hexcluder other hother
    exact hequal excluder ((hmem excluder).mpr hexcluder) other ((hmem other).mpr hother)
  · exact Excluder.allFound_firstOccurrences (fun excluder => (hmem excluder).mpr) hequal

end Excluder.SameTests

namespace Composition

variable {first second : List Excluder}

theorem home?_congr {owners : Keyed Nat} {excluder other : Excluder}
    (h : excluder.axes = other.axes) : home? owners excluder = home? owners other := by
  rw [home?, home?, h]

theorem passes_congr {excluder other : Excluder} (h : excluder.Agrees other) (position : Position) :
    passes position excluder = passes position other := by
  rw [passes, passes, h.1, h.2]

theorem admits_congr (h : Excluder.SameTests first second) : admits first = admits second := by
  funext position
  rw [admits, admits, Bool.eq_iff_iff, List.all_eq_true, List.all_eq_true]
  constructor
  · intro hall other hother
    obtain ⟨excluder, hmem, hagrees⟩ := h.found_back other hother
    rw [passes_congr hagrees]
    exact hall excluder hmem
  · intro hall excluder hmem
    obtain ⟨other, hother, hagrees⟩ := h.found excluder hmem
    rw [passes_congr hagrees]
    exact hall other hother

theorem countPoints_congr (h : Excluder.SameTests first second) (dimensions : List Dimension) :
    countPoints first dimensions = countPoints second dimensions := by
  simp only [countPoints, h.isEmpty_eq, countAdmitted_eq, admits_congr h]

theorem spanningOf_sameTests (h : Excluder.SameTests first second) (owners : Keyed Nat) :
    Excluder.SameTests (spanningOf owners first) (spanningOf owners second) :=
  h.filter fun _ _ haxes => congrArg Option.isNone (home?_congr haxes)

variable {leaves : List Leaf} {mutators : List Mutator} {duration : Option Float}
  {composition : Composition}

def exchanged (composition : Composition) (excluders : List Excluder) : Composition :=
  { composition with excluders, spanning := spanningOf composition.owners excluders }

theorem Assembled.known_of_sameTests (h : Assembled leaves first mutators duration composition)
    (htests : Excluder.SameTests first second) :
    ∀ excluder ∈ second, ∀ axis ∈ excluder.axes, composition.owners.contains axis = true := by
  intro excluder hmem axis haxis
  obtain ⟨other, hother, hagrees⟩ := htests.found_back excluder hmem
  exact h.excluders_known other hother axis (hagrees.1 ▸ haxis)

theorem Assembled.exchanged (h : Assembled leaves first mutators duration composition)
    (htests : Excluder.SameTests first second) :
    Assembled leaves second mutators duration (composition.exchanged second) where
  owners_eq := h.owners_eq
  excluders_known := h.known_of_sameTests htests
  mutators_known := h.mutators_known
  dimensions_eq := by
    have hmasked : ∀ place (leaf : Leaf), Dimension.masked leaf place (first.filter leaf.absorbs) =
        Dimension.masked leaf place (second.filter leaf.absorbs) := by
      intro place leaf
      rw [Dimension.masked, Dimension.masked, Dimension.mask_congr
        (htests.found.filter_absorbs leaf) (htests.found_back.filter_absorbs leaf)]
    change composition.dimensions = fold composition.owners second 0 leaves
    rw [h.dimensions_eq, fold_eq_mapIdx h.owners_eq h.excluders_known,
      fold_eq_mapIdx h.owners_eq (h.known_of_sameTests htests)]
    simp only [hmasked]
  excluders_eq := rfl
  spanning_eq := rfl
  mutators_eq := h.mutators_eq
  duration_eq := h.duration_eq
  size_eq := by
    have hsize := h.size_eq
    rw [h.spanning_eq, countPoints_congr (spanningOf_sameTests htests composition.owners)] at hsize
    exact hsize

/-! ## The same passes -/

/-- Only the excluders differ, and candidates are admitted alike. -/
structure Exchangeable (first second : Composition) : Prop where
  dimensions_eq : second.dimensions = first.dimensions
  mutators_eq : second.mutators = first.mutators
  size_eq : second.size = first.size
  admits_eq : admits second.spanning = admits first.spanning

theorem Assembled.exchangeable {excluders : List Excluder}
    (h : Assembled leaves first mutators duration composition)
    (htests : Excluder.SameTests first excluders) :
    Exchangeable composition (composition.exchanged excluders) where
  dimensions_eq := rfl
  mutators_eq := rfl
  size_eq := rfl
  admits_eq := by
    rw [h.spanning_eq]
    exact admits_congr (spanningOf_sameTests htests.symm composition.owners)

/-- The same shape and size, and passes that emit the same positions one after the other. -/
structure Coincide (first second : Composition) : Prop where
  shape_eq : first.shape = second.shape
  size_eq : first.size = second.size
  positions_eq : ∀ index, Source.itemAt? Pass.pull (Pass.start first) index =
    Source.itemAt? Pass.pull (Pass.start second) index

end Composition

namespace Pass

open ScanPath.Composition

def onto (pass : Pass) (composition : Composition) : Pass := { pass with composition }

@[simp] theorem composition_onto (pass : Pass) (composition : Composition) :
    (pass.onto composition).composition = composition :=
  rfl

@[simp] theorem odometer_onto (pass : Pass) (composition : Composition) :
    (pass.onto composition).odometer = pass.odometer :=
  rfl

@[simp] theorem emitted_onto (pass : Pass) (composition : Composition) :
    (pass.onto composition).emitted = pass.emitted :=
  rfl

theorem composition_pullWithin (fuel : Nat) (pass : Pass) :
    (pullWithin fuel pass).2.composition = pass.composition := by
  induction fuel generalizing pass with
  | zero => rfl
  | succ fuel ih =>
      rw [pullWithin]
      cases pass.odometer.current with
      | none => rfl
      | some counters =>
          cases hcandidate : pass.composition.candidate?
              (Odometer.visited pass.odometer.wheels counters) with
          | none => simp [hcandidate]
          | some candidate =>
              cases hadmits : admits pass.composition.spanning candidate with
              | true => simp [hcandidate, hadmits]
              | false => simpa [hcandidate, hadmits] using ih _

variable {first second : Composition}

theorem pullWithin_onto (h : Exchangeable first second) (fuel : Nat) {pass : Pass}
    (hpass : pass.composition = first) :
    pullWithin fuel (pass.onto second) =
      ((pullWithin fuel pass).1, (pullWithin fuel pass).2.onto second) := by
  have hcandidate : second.candidate? = first.candidate? := by
    funext counters
    rw [candidate?, candidate?, h.dimensions_eq]
  have hmutate : second.mutate = first.mutate := by
    funext position ordinal
    rw [mutate, mutate, h.mutators_eq]
  induction fuel generalizing pass with
  | zero => rfl
  | succ fuel ih =>
      subst hpass
      rw [pullWithin, pullWithin, odometer_onto]
      cases pass.odometer.current with
      | none => rfl
      | some counters =>
          simp only [composition_onto, emitted_onto, hcandidate, hmutate, h.admits_eq]
          cases pass.composition.candidate? (Odometer.visited pass.odometer.wheels counters) with
          | none => rfl
          | some candidate =>
              cases hadmits : admits pass.composition.spanning candidate with
              | true =>
                  simp only [hadmits, if_true]
                  rfl
              | false =>
                  -- both skip the candidate
                  simp only [hadmits, Bool.false_eq_true, if_false]
                  exact @ih { pass with odometer := pass.odometer.advance } rfl

theorem pull_onto (h : Exchangeable first second) {pass : Pass} (hpass : pass.composition = first) :
    (pass.onto second).pull = (pass.pull.1, pass.pull.2.onto second) :=
  pullWithin_onto h _ hpass

theorem after_onto (h : Exchangeable first second) (pulls : Nat) :
    Source.after pull (start second) pulls = (Source.after pull (start first) pulls).onto second ∧
      (Source.after pull (start first) pulls).composition = first := by
  induction pulls with
  | zero =>
      refine ⟨?_, rfl⟩
      simp only [Source.after, start, onto, wheels, h.dimensions_eq]
  | succ pulls ih =>
      obtain ⟨hafter, hcomposition⟩ := ih
      constructor
      · rw [Source.after, hafter, pull_onto h hcomposition, Source.after]
      · rw [Source.after]
        exact (composition_pullWithin _ _).trans hcomposition

end Pass

theorem Composition.Exchangeable.coincide {first second : Composition}
    (h : Exchangeable first second) : Coincide first second where
  shape_eq := by rw [shape, shape, h.dimensions_eq]
  size_eq := h.size_eq.symm
  positions_eq := by
    intro index
    obtain ⟨hafter, hcomposition⟩ := Pass.after_onto h index
    rw [Source.itemAt?, Source.itemAt?, hafter, Pass.pull_onto h hcomposition]

/-! ## Composers -/

namespace Composer

open ScanPath.Composition

theorem exists_compose_eq {first second : Composer} {composition : Composition}
    (hinputs : second.inputs ≠ []) (hduration : second.duration = first.duration)
    (hleaves : second.leaves = first.leaves) (hmutators : second.keptMutators = first.keptMutators)
    (htests : Excluder.SameTests first.keptExcluders second.keptExcluders)
    (h : first.compose = .ok composition) :
    ∃ other, second.compose = .ok other ∧ Exchangeable composition other := by
  obtain ⟨-, settled, hsettled, hassembled⟩ := compose_eq_ok h
  change Assembled first.leaves first.keptExcluders first.keptMutators settled composition
    at hassembled
  refine ⟨_, ?_, hassembled.exchangeable htests⟩
  rw [compose_of_ne_nil hinputs]
  change (settledDuration second.duration >>= fun duration =>
    assemble second.leaves second.keptExcluders second.keptMutators duration) = _
  rw [hduration, hsettled, hleaves, hmutators]
  exact (hassembled.exchanged htests).assemble_eq

theorem compose_alike {first second : Composer} (hinputs : first.inputs = [] ↔ second.inputs = [])
    (hduration : first.duration = second.duration) (hleaves : first.leaves = second.leaves)
    (hmutators : first.keptMutators = second.keptMutators)
    (htests : Excluder.SameTests first.keptExcluders second.keptExcluders) :
    Checked.Alike Coincide first.compose second.compose := by
  apply Checked.Alike.of_forall
  · intro composition h
    obtain ⟨other, hother, hexchangeable⟩ := exists_compose_eq
      (fun hnil => (compose_eq_ok h).1 (hinputs.mpr hnil)) hduration.symm hleaves.symm
      hmutators.symm htests h
    exact ⟨other, hother, hexchangeable.coincide⟩
  · intro other h
    obtain ⟨composition, hcomposition, -⟩ := exists_compose_eq
      (fun hnil => (compose_eq_ok h).1 (hinputs.mp hnil)) hduration hleaves hmutators htests.symm h
    exact ⟨composition, hcomposition⟩

theorem prepare_alike {first second : Composer} (hprepared : first.prepared = second.prepared)
    (hcompose : Checked.Alike Coincide first.compose second.compose) :
    Checked.Alike Coincide first.prepare.1 second.prepare.1 := by
  rw [prepare, prepare, hprepared]
  cases second.prepared with
  | true => exact .fault _ _
  | false => exact hcompose

theorem prepare_of_perm (composer : Composer) {own : List Excluder}
    (hperm : own.Perm composer.excluders)
    (hequal : ∀ first ∈ composer.supplied, ∀ second ∈ composer.supplied,
      (first.descriptor == second.descriptor) = true → first.Agrees second) :
    Checked.Alike Coincide composer.prepare.1 { composer with excluders := own }.prepare.1 := by
  have hsupplied : { composer with excluders := own }.supplied.Perm composer.supplied :=
    hperm.append_right _
  refine prepare_alike rfl (compose_alike Iff.rfl rfl rfl rfl ?_)
  exact .of_firstOccurrences (fun _ => hsupplied.mem_iff.symm) hequal

end Composer

namespace ComposerTree

open Composer ScanPath.Composition

variable {trees trees' : List ComposerTree} {inputs inputs' : List Input}
  {own own' : List Excluder}

theorem prepare_spread (others : List Mutator) (duration : Option Float)
    (hinputs : ComposerTree.inputs trees = .ok inputs)
    (hinputs' : ComposerTree.inputs trees' = .ok inputs')
    (hleaves : leaves trees' = leaves trees) (hmutators : mutators trees' = mutators trees)
    (hperm : (own' ++ excluders trees').Perm (own ++ excluders trees))
    (hequal : ∀ first ∈ own ++ excluders trees, ∀ second ∈ own ++ excluders trees,
      (first.descriptor == second.descriptor) = true → first.Agrees second) :
    Checked.Alike Coincide (ofParts inputs own others duration).prepare.1
      (ofParts inputs' own' others duration).prepare.1 := by
  obtain ⟨hexcluders, hothers⟩ := kept_flattened hinputs own others
  obtain ⟨hexcluders', hothers'⟩ := kept_flattened hinputs' own' others
  refine prepare_alike rfl (compose_alike ?_ rfl ?_ ?_ ?_)
  · exact (leaves_eq_nil_iff hinputs).symm.trans (hleaves ▸ leaves_eq_nil_iff hinputs')
  · exact (inputs_spliced trees hinputs).leaves_eq.trans
      (hleaves.symm.trans (inputs_spliced trees' hinputs').leaves_eq.symm)
  · exact hothers.trans (hmutators ▸ hothers'.symm)
  · change Excluder.SameTests
      (Descriptor.firstOccurrences Excluder.descriptor (own ++ inputs.flatMap Input.excluders))
      (Descriptor.firstOccurrences Excluder.descriptor (own' ++ inputs'.flatMap Input.excluders))
    rw [hexcluders, hexcluders']
    exact .of_firstOccurrences (fun _ => hperm.mem_iff.symm) hequal

/-- A composer may be given its own excluders in any order, and the excluders of a tree may be
spread over its composers in any way in which those below the root can be prepared.  As long as
excluders with equal descriptors ask the same, both are refused or both give compositions of the
same shape and size that emit the same positions. -/
theorem prepare_rearranged :
    (∀ (composer : Composer) (own : List Excluder), own.Perm composer.excluders →
      (∀ first ∈ composer.supplied, ∀ second ∈ composer.supplied,
        (first.descriptor == second.descriptor) = true → first.Agrees second) →
      Checked.Alike Coincide composer.prepare.1 { composer with excluders := own }.prepare.1) ∧
    ∀ (trees trees' : List ComposerTree) (inputs inputs' : List Input) (own own' : List Excluder)
      (others : List Mutator) (duration : Option Float),
      ComposerTree.inputs trees = .ok inputs → ComposerTree.inputs trees' = .ok inputs' →
      leaves trees' = leaves trees → mutators trees' = mutators trees →
      (own' ++ excluders trees').Perm (own ++ excluders trees) →
      (∀ first ∈ own ++ excluders trees, ∀ second ∈ own ++ excluders trees,
        (first.descriptor == second.descriptor) = true → first.Agrees second) →
      Checked.Alike Coincide (ofParts inputs own others duration).prepare.1
        (ofParts inputs' own' others duration).prepare.1 := by
  constructor
  · intro composer own hperm hequal
    exact composer.prepare_of_perm hperm hequal
  · intro trees trees' inputs inputs' own own' others duration hinputs hinputs' hleaves hmutators
      hperm hequal
    exact prepare_spread others duration hinputs hinputs' hleaves hmutators hperm hequal

def spreadTrees (nested : List Excluder) : List ComposerTree :=
  [.composer [.leaf (sampleLeaf "x" 4 true)] nested [sampleMutator "x"] none,
    .leaf (sampleLeaf "y" 2 true)]

/-- An excluder moves out of the inner composer and then behind the other one. -/
theorem prepare_rearranged_spreadTrees :
    ∃ inputs inputs' first second third,
      ComposerTree.inputs (spreadTrees [sampleExcluder ["x"]]) = .ok inputs ∧
      ComposerTree.inputs (spreadTrees []) = .ok inputs' ∧
      (ofParts inputs [sampleExcluder ["y", "x"]] [] none).prepare.1 = .ok first ∧
      (ofParts inputs' [sampleExcluder ["x"], sampleExcluder ["y", "x"]] [] none).prepare.1 =
        .ok second ∧
      (ofParts inputs' [sampleExcluder ["y", "x"], sampleExcluder ["x"]] [] none).prepare.1 =
        .ok third ∧
      first.size = 3 ∧ Coincide first second ∧ Coincide second third := by
  have hdiffer : ((sampleExcluder ["x"]).descriptor == (sampleExcluder ["y", "x"]).descriptor) =
      false := by decide +kernel
  have hdiffer' : ((sampleExcluder ["y", "x"]).descriptor == (sampleExcluder ["x"]).descriptor) =
      false := by decide +kernel
  have hequal : ∀ first ∈ [sampleExcluder ["x"], sampleExcluder ["y", "x"]],
      ∀ second ∈ [sampleExcluder ["x"], sampleExcluder ["y", "x"]],
        (first.descriptor == second.descriptor) = true → first.Agrees second := by
    intro first hfirst second hsecond hsame
    simp only [List.mem_cons, List.not_mem_nil, or_false] at hfirst hsecond
    rcases hfirst with rfl | rfl <;> rcases hsecond with rfl | rfl
    · exact ⟨rfl, rfl⟩
    · rw [hdiffer] at hsame
      cases hsame
    · rw [hdiffer'] at hsame
      cases hsame
    · exact ⟨rfl, rfl⟩
  have hswap : [sampleExcluder ["y", "x"], sampleExcluder ["x"]].Perm
      [sampleExcluder ["x"], sampleExcluder ["y", "x"]] := .swap _ _ _
  obtain ⟨inputs, hinputs, hany⟩ := Checked.exists_of_any
    (show (ComposerTree.inputs (spreadTrees [sampleExcluder ["x"]])).toOption.any (fun inputs =>
        (ofParts inputs [sampleExcluder ["y", "x"]] [] none).prepare.1.toOption.any fun first =>
          first.size == 3) = true by decide +kernel)
  obtain ⟨first, hfirst, hsize⟩ := Checked.exists_of_any hany
  obtain ⟨inputs', hinputs', hnone⟩ := Checked.exists_of_any
    (show (ComposerTree.inputs (spreadTrees [])).toOption.any (fun inputs =>
        (inputs.flatMap Input.excluders).isEmpty) = true by decide +kernel)
  have hmoved := prepare_rearranged.2 (spreadTrees [sampleExcluder ["x"]]) (spreadTrees [])
    inputs inputs' [sampleExcluder ["y", "x"]] [sampleExcluder ["x"], sampleExcluder ["y", "x"]] []
    none hinputs hinputs' rfl rfl hswap.symm
    (fun first hfirst second hsecond =>
      hequal first (hswap.subset hfirst) second (hswap.subset hsecond))
  obtain ⟨second, hsecond, hcoincide⟩ := hmoved.exists_eq_ok hfirst
  have hreordered := prepare_rearranged.1
    (ofParts inputs' [sampleExcluder ["x"], sampleExcluder ["y", "x"]] [] none)
    [sampleExcluder ["y", "x"], sampleExcluder ["x"]] hswap
  have hsupplied : (ofParts inputs' [sampleExcluder ["x"], sampleExcluder ["y", "x"]] []
      none).supplied = [sampleExcluder ["x"], sampleExcluder ["y", "x"]] :=
    congrArg _ (List.isEmpty_iff.mp hnone)
  rw [hsupplied] at hreordered
  obtain ⟨third, hthird, hcoincide'⟩ := (hreordered hequal).exists_eq_ok hsecond
  exact ⟨inputs, inputs', first, second, third, hinputs, hinputs', hfirst, hsecond, hthird,
    eq_of_beq hsize, hcoincide, hcoincide'⟩

end ComposerTree

end ScanPath
