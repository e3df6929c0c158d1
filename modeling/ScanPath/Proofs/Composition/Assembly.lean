import ScanPath.Composition.Composer
import ScanPath.Proofs.Leaf

/-!
# What a composition is assembled from

Everything that later statements need to know of an accepted composition:
`Assembled` says once what every check has established and how the fields come
from the parts, `Prepared` which compositions there are.
-/

namespace ScanPath

namespace Composition

def spanningOf (owners : Keyed Nat) (excluders : List Excluder) : List Excluder :=
  excluders.filter fun excluder => (home? owners excluder).isNone

/-- The checks on the parts and the composition that comes of them. -/
structure Assembled (leaves : List Leaf) (excluders : List Excluder) (mutators : List Mutator)
    (duration : Option Float) (composition : Composition) : Prop where
  owners_eq : claimLeaves 0 ∅ leaves = .ok composition.owners
  excluders_known : ∀ excluder ∈ excluders, ∀ axis ∈ excluder.axes,
    composition.owners.contains axis = true
  mutators_known : ∀ mutator ∈ mutators, ∀ axis ∈ mutator.axes,
    composition.owners.contains axis = true
  dimensions_eq : composition.dimensions = fold composition.owners excluders 0 leaves
  excluders_eq : composition.excluders = excluders
  spanning_eq : composition.spanning = spanningOf composition.owners excluders
  mutators_eq : composition.mutators = mutators
  duration_eq : composition.duration = duration
  size_eq : countPoints composition.spanning composition.dimensions = .ok composition.size

theorem requireKnown_eq_ok {owners : Keyed Nat} {role : Role} {axes : List String} :
    requireKnown owners role axes = .ok () ↔ ∀ axis ∈ axes, owners.contains axis = true := by
  unfold requireKnown
  split
  next hfind =>
    have hknown : ∀ axis ∈ axes, owners.contains axis = true := by
      simpa using List.find?_eq_none.mp hfind
    exact ⟨fun _ => hknown, fun _ => rfl⟩
  next axis hfind =>
    constructor
    · intro h
      cases h
    · intro hknown
      have hunknown := List.find?_some hfind
      rw [hknown axis (List.mem_of_find?_eq_some hfind)] at hunknown
      cases hunknown

theorem assemble_eq_ok {leaves : List Leaf} {excluders : List Excluder} {mutators : List Mutator}
    {duration : Option Float} {composition : Composition}
    (h : assemble leaves excluders mutators duration = .ok composition) :
    Assembled leaves excluders mutators duration composition := by
  unfold assemble at h
  obtain ⟨owners, howners, h⟩ := Checked.bind_eq_ok.mp h
  obtain ⟨hexcluders, h⟩ := Checked.seq_eq_ok.mp h
  obtain ⟨hmutators, h⟩ := Checked.seq_eq_ok.mp h
  obtain ⟨size, hsize, h⟩ := Checked.bind_eq_ok.mp h
  cases h
  exact {
    owners_eq := howners
    excluders_known := fun excluder hmem =>
      requireKnown_eq_ok.mp (Checked.forM_eq_ok.mp hexcluders excluder hmem)
    mutators_known := fun mutator hmem =>
      requireKnown_eq_ok.mp (Checked.forM_eq_ok.mp hmutators mutator hmem)
    dimensions_eq := rfl
    excluders_eq := rfl
    spanning_eq := rfl
    mutators_eq := rfl
    duration_eq := rfl
    size_eq := hsize }

@[simp] theorem map_leaf_fold (owners : Keyed Nat) (excluders : List Excluder) (index : Nat)
    (leaves : List Leaf) : (fold owners excluders index leaves).map Dimension.leaf = leaves := by
  induction leaves generalizing index with
  | nil => rfl
  | cons leaf leaves ih =>
      rw [fold, List.map_cons, ih]
      rfl

namespace Assembled

variable {leaves : List Leaf} {excluders : List Excluder} {mutators : List Mutator}
  {duration : Option Float} {composition : Composition}

theorem leaves_eq (h : Assembled leaves excluders mutators duration composition) :
    composition.leaves = leaves := by
  rw [Composition.leaves, h.dimensions_eq, map_leaf_fold]

theorem assemble_eq (h : Assembled leaves excluders mutators duration composition) :
    assemble leaves excluders mutators duration = .ok composition := by
  obtain ⟨dimensions, owners, others, spanning, changes, time, size⟩ := composition
  obtain ⟨howners, hexcluders, hmutators, hdimensions, hsupplied, hspanning, hchanges, htime,
    hsize⟩ := h
  dsimp only at *
  subst hdimensions hsupplied hspanning hchanges htime
  unfold assemble
  refine Checked.bind_eq_ok.mpr ⟨owners, howners, ?_⟩
  refine Checked.seq_eq_ok.mpr ⟨Checked.forM_eq_ok.mpr fun excluder hmem =>
    requireKnown_eq_ok.mpr (hexcluders excluder hmem), ?_⟩
  refine Checked.seq_eq_ok.mpr ⟨Checked.forM_eq_ok.mpr fun mutator hmem =>
    requireKnown_eq_ok.mpr (hmutators mutator hmem), ?_⟩
  exact Checked.bind_eq_ok.mpr ⟨size, hsize, rfl⟩

end Assembled

end Composition

namespace Composer

theorem compose_of_ne_nil {composer : Composer} (h : composer.inputs ≠ []) :
    composer.compose = settledDuration composer.duration >>= fun duration =>
      Composition.assemble (composer.inputs.flatMap Input.leaves)
        (Descriptor.firstOccurrences Excluder.descriptor
          (composer.excluders ++ composer.inputs.flatMap Input.excluders))
        (Descriptor.firstOccurrences Mutator.descriptor
          (composer.mutators ++ composer.inputs.flatMap Input.mutators)) duration := by
  rw [compose, List.isEmpty_eq_false_iff.mpr h]
  rfl

theorem compose_eq_ok {composer : Composer} {composition : Composition}
    (h : composer.compose = .ok composition) :
    composer.inputs ≠ [] ∧ ∃ duration, settledDuration composer.duration = .ok duration ∧
      Composition.Assembled (composer.inputs.flatMap Input.leaves)
        (Descriptor.firstOccurrences Excluder.descriptor
          (composer.excluders ++ composer.inputs.flatMap Input.excluders))
        (Descriptor.firstOccurrences Mutator.descriptor
          (composer.mutators ++ composer.inputs.flatMap Input.mutators))
        duration composition := by
  have hinputs : composer.inputs ≠ [] := by
    intro hempty
    rw [compose, hempty] at h
    cases h
  rw [compose_of_ne_nil hinputs] at h
  obtain ⟨duration, hduration, h⟩ := Checked.bind_eq_ok.mp h
  exact ⟨hinputs, duration, hduration, Composition.assemble_eq_ok h⟩

theorem prepare_eq_ok {composer : Composer} {composition : Composition}
    (h : composer.prepare.1 = .ok composition) : composer.compose = .ok composition := by
  unfold prepare at h
  split at h
  · cases h
  · exact h

end Composer

namespace Composition

/-- The compositions that composers give, over leaves and over compositions given before. -/
inductive Prepared : Composition → Prop
  | of (composer : Composer) (composition : Composition)
      (parts : ∀ part, Composer.Input.nested part ∈ composer.inputs → Prepared part)
      (h : composer.prepare.1 = .ok composition) : Prepared composition

theorem leaves_ne_nil_of_inputs {inputs : List Composer.Input} (h : inputs ≠ [])
    (parts : ∀ part, Composer.Input.nested part ∈ inputs → part.leaves ≠ []) :
    inputs.flatMap Composer.Input.leaves ≠ [] := by
  obtain ⟨input, rest, rfl⟩ := List.exists_cons_of_ne_nil h
  cases input with
  | leaf part => simp [Composer.Input.leaves]
  | nested part =>
      have hpart := parts part List.mem_cons_self
      simp [Composer.Input.leaves, hpart]

theorem Prepared.assembled {composition : Composition} (h : Prepared composition) :
    composition.leaves ≠ [] ∧ ∃ leaves excluders mutators duration,
      Assembled leaves excluders mutators duration composition := by
  induction h with
  | of composer composition parts hprepare ih =>
      obtain ⟨hinputs, duration, -, hassembled⟩ :=
        Composer.compose_eq_ok (Composer.prepare_eq_ok hprepare)
      refine ⟨?_, _, _, _, _, hassembled⟩
      rw [hassembled.leaves_eq]
      exact leaves_ne_nil_of_inputs hinputs fun part hmem => (ih part hmem).1

theorem Prepared.assemble_parts {composition : Composition} (h : Prepared composition) :
    assemble composition.leaves composition.excluders composition.mutators composition.duration =
      .ok composition := by
  obtain ⟨-, leaves, excluders, mutators, duration, hassembled⟩ := h.assembled
  rw [hassembled.leaves_eq, hassembled.excluders_eq, hassembled.mutators_eq,
    hassembled.duration_eq]
  exact hassembled.assemble_eq

theorem Prepared.wheels_ne_nil {composition : Composition} (h : Prepared composition) :
    composition.wheels ≠ [] := by
  intro hwheels
  rw [wheels, List.map_eq_nil_iff] at hwheels
  have hleaves := h.assembled.1
  rw [leaves, hwheels] at hleaves
  exact hleaves rfl

end Composition

/-! ## Small parts

Parts for the runs that follow some of the statements about compositions. -/

def sampleLeaf (axis : String) (size : Nat) (alternate : Bool) : Leaf :=
  { Line.single axis "mm" 0.0 1.0 size with alternate }.leaf

theorem sampleLeaf_lawful (axis : String) (size : Nat) (alternate : Bool) :
    (sampleLeaf axis size alternate).Lawful :=
  Line.leaf_lawful rfl rfl

def sampleExcluder (axes : List String) : Excluder where
  axes
  contains := fun coordinates => coordinates.all (· < 0.75)
  descriptor := .ofFields "below" [("axes", .strings axes)]

def sampleMutator (axis : String) : Mutator :=
  RandomOffset.mutator ⟨7, [axis], .ofList [(axis, 0.25)]⟩

end ScanPath
